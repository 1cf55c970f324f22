import OpenRig.Handoff

/-!
`update`, the general state mutator.

A request either appends a note to a row without moving it, or moves it. A move passes a
fixed sequence of checks, each refusing before any write (`admitUpdate`), arms the wake of a
park (`armParkWake`), and is then written with its transition, the wake's record or the end of
the old park's timer, and the propagation of a close (`applyUpdate`).
-/

namespace OpenRig.Update

open OpenRig.JsText OpenRig.Sessions OpenRig.Closure OpenRig.QueueDb OpenRig.Outbox
open OpenRig.Watchdogs OpenRig.Verbs OpenRig.Handoff OpenRig.SqlLike

structure QueueUpdateInput where
  qitemId : String
  actorSession : String
  state : Option QueueState := none
  /-- A revised deadline; `some none` is text that names no instant. -/
  closureRequiredAt : Option (Option Time) := none
  /-- Explicit acknowledgment for a deliberate terminal → active repair. -/
  reopen : Bool := false
  /-- Set only by the workflow domain's own write paths. -/
  viaWorkflowVerb : Bool := false
  transitionNote : Option String := none
  closureReason : Option String := none
  closureTarget : Option String := none
  resolution : Option String := none
  handedOffTo : Option String := none
  blockedOn : Option String := none
  wakeWatchdogId : Option String := none
  wakeAfterSeconds : Option ℤ := none
  wakeMaxSeconds : Option ℤ := none
  wakeProgressEvidence : Option String := none
  wakeMessage : Option String := none
  summary : Option String := none
  evidenceRef : Option String := none
  decisionResolved : Bool := false
  identityProvenance : Option String := none
  identityPrincipal : Option String := none

/-! ### The workflow frontier -/

/-- The pattern a packet's id is looked up with in the frontier column. -/
def frontierPattern (qitemId : String) : List Char :=
  '%' :: '"' :: qitemId.toList ++ ['"', '%']

/-- `createWorkflowFrontierPredicate`: the live instance whose frontier column matches. -/
def workflowFrontierPredicate (db : Db) (qitemId : String) : Option WorkflowInstance :=
  (db.instances.find? fun i =>
    i.status.isLive && like (frontierPattern qitemId) (jsonArray i.currentFrontier)).filter
    fun i => i.instanceId ≠ ""

/-- **The frontier guard has no false negatives**: a packet on the frontier of a live instance
is found. -/
theorem workflowFrontierPredicate_isSome {db : Db} {qitemId : String} {i : WorkflowInstance}
    (hi : i ∈ db.instances) (hlive : i.status.isLive = true)
    (hq : qitemId ∈ i.currentFrontier) : (workflowFrontierPredicate db qitemId).isSome := by
  obtain ⟨before, after, h⟩ := jsonArray_contains hq
  have hlike : like (frontierPattern qitemId) (jsonArray i.currentFrontier) = true := by
    rw [h, jsonString_of_plain (i.plain _ hq)]
    have := like_contains before ('"' :: qitemId.toList ++ ['"']) after
    simpa [frontierPattern] using this
  unfold workflowFrontierPredicate
  cases hf : db.instances.find? fun i =>
      i.status.isLive && like (frontierPattern qitemId) (jsonArray i.currentFrontier) with
  | none =>
    have := List.find?_eq_none.mp hf i hi
    simp [hlive, hlike] at this
  | some j => simp [Option.filter, j.named]

/-! ### Note appends -/

def QueueUpdateInput.hasNote (input : QueueUpdateInput) : Bool := nonBlank input.transitionNote

def QueueUpdateInput.hasValidSummary (input : QueueUpdateInput) : Bool := nonBlank input.summary

/-- A revised closure deadline, admitted only on an in-progress row that stays in progress. -/
def checkReestimate (qitem : QueueItem) (input : QueueUpdateInput) : Result (Option Time) :=
  match input.closureRequiredAt with
  | none => pure none
  | some deadline => do
    refuseIf (qitem.state ≠ .inProgress || (input.state.isSome && input.state ≠ some .inProgress))
      .qitemNotInProgress
      ("a revised closure deadline updates an in-progress item without changing its state; " ++
        "nothing was written")
    match deadline with
    | none =>
      refuse .noteAppendFieldsNotAdmitted
        "--closure-required-at needs a valid timestamp; nothing was written"
    | some t => return some t

/-- The request leaves the row's state alone. -/
def isStatePreservingAppend (qitem : QueueItem) (input : QueueUpdateInput) : Bool :=
  input.state.isNone || (qitem.state.isGuardedTerminal && input.state = some qitem.state) ||
    (input.closureRequiredAt.isSome && input.state = some qitem.state)

def hasStateWriteField (input : QueueUpdateInput) : Bool :=
  input.reopen || input.closureReason.isSome || input.closureTarget.isSome ||
    input.handedOffTo.isSome || input.blockedOn.isSome || input.wakeWatchdogId.isSome ||
    input.wakeAfterSeconds.isSome || input.wakeMaxSeconds.isSome ||
    input.wakeProgressEvidence.isSome || input.wakeMessage.isSome || input.evidenceRef.isSome ||
    (input.state.isSome && input.summary.isSome) ||
    (input.summary.isSome && !input.hasValidSummary)

def appendNote (qitem : QueueItem) (input : QueueUpdateInput) (deadline : Option Time) :
    Option String :=
  let note :=
    if input.hasValidSummary then
      if input.hasNote then
        let text := input.transitionNote.getD ""
        some (if includes text "(summary updated)" then text else text ++ " (summary updated)")
      else some "summary updated"
    else input.transitionNote
  match deadline with
  | none => note
  | some t =>
    let receipt := "closure deadline re-estimated: " ++
      (qitem.closureRequiredAt.map toISOString).getD "(none)" ++ " -> " ++ toISOString t ++
      "; accepted by " ++ input.actorSession
    if input.hasNote || input.hasValidSummary then some (note.getD "" ++ "\n" ++ receipt)
    else some receipt

/-- The state-preserving branch of `updateInTransactionalContext`. -/
def appendOnly (env : Env) (db : Db) (qitem : QueueItem) (input : QueueUpdateInput)
    (deadline : Option Time) : Result Db := do
  refuseIf (input.state.isNone && !input.hasNote && !input.hasValidSummary && deadline.isNone)
    .stateOrNoteRequired
    ("queue update requires --state, a non-empty --note, or a non-empty --summary; nothing was " ++
      "written")
  if hasStateWriteField input then
    -- the terminal-park correction stays visible even when the row is already done
    if input.state = some .done && input.closureReason = some "blocked_on" then
      let _ ← validateClosure .done ⟨input.closureReason, input.closureTarget⟩
    refuse .noteAppendFieldsNotAdmitted
      ("a state-preserving note append accepts only --note (and an optional same --state); " ++
        "state-write fields were supplied, so nothing was written")
  else
    let db := if input.hasValidSummary then
      db.updateRow input.qitemId fun r => { r with summary := input.summary } else db
    let db := match deadline with
      | some t => db.updateRow input.qitemId fun r => { r with closureRequiredAt := some t }
      | none => db
    let db := db.append env.now
      { qitemId := input.qitemId, state := qitem.state, actorSession := input.actorSession,
        transitionNote := appendNote qitem input deadline,
        closureTarget := if qitem.state = .inProgress then db.retainedClaimBlocker input.qitemId
          else none,
        identityProvenance := input.identityProvenance,
        identityPrincipal := input.identityPrincipal }
    return db.emit (.updated input.qitemId qitem.state qitem.state none none input.actorSession
      (if input.hasValidSummary then input.summary else qitem.summary))

/-! ### Admission of a move -/

def checkWakeForm (state : QueueState) (input : QueueUpdateInput) : Result Unit := do
  refuseIf ((input.wakeWatchdogId.isSome || input.wakeAfterSeconds.isSome) && state ≠ .blocked)
    .wakeNotAdmitted
    "a park wake persists only with state=blocked; park the row or drop the wake option"
  refuseIf (input.wakeWatchdogId.isSome && input.wakeAfterSeconds.isSome) .wakeAmbiguous
    "choose one explicit park wake: an existing watchdog id or an atomic timer"
  refuseIf (input.wakeAfterSeconds.any (· ≤ 0)) .wakeAfterInvalid
    ("wakeAfterSeconds must be a positive integer (got " ++
      toString (input.wakeAfterSeconds.getD 0) ++ ")")
  refuseIf (input.wakeMessage.isSome && input.wakeAfterSeconds.isNone) .wakeMessageNotAdmitted
    "wakeMessage is internal timer content and requires wakeAfterSeconds"
  refuseIf (input.wakeMaxSeconds.any fun m => input.wakeAfterSeconds.all fun a => m < a)
    .wakeMaxInvalid
    "wakeMaxSeconds requires an initial delay and must be an integer at least as large"
  refuseIf (input.wakeMessage.any isBlank) .wakeMessageInvalid
    "wakeMessage must be non-empty when supplied"

def isReopen (qitem : QueueItem) (state : QueueState) : Bool :=
  qitem.state.isGuardedTerminal && state ≠ qitem.state

/-- A guarded row is left only deliberately: acknowledged, to an active state, with a note. -/
def checkReopen (qitem : QueueItem) (state : QueueState) (input : QueueUpdateInput) :
    Result Unit := do
  let current := qitem.state.text
  let info := [("currentState", current), ("requestedState", state.text)]
  refuseIf (isReopen qitem state && !input.reopen) .terminalReopenRequiresAck
    ("qitem " ++ input.qitemId ++ " is currently '" ++ current ++ "'; state='" ++ state.text ++
      "' would reopen a terminal row. Re-run deliberately with --reopen --note <reason>.") info
  refuseIf (isReopen qitem state && !state.isBlockerLive) .terminalReopenTargetInvalid
    ("qitem " ++ input.qitemId ++ " is currently '" ++ current ++ "'; --reopen requires an " ++
      "active target state (pending, in-progress, or blocked), not '" ++ state.text ++ "'.") info
  refuseIf (isReopen qitem state && !input.hasNote) .reopenNoteRequired
    ("qitem " ++ input.qitemId ++ " is currently '" ++ current ++ "'; deliberate reopen " ++
      "requires --note <reason> so the repair is auditable.") info
  refuseIf (input.reopen && !isReopen qitem state) .reopenNotApplicable
    ("--reopen applies only when moving a terminal row to an active state; qitem " ++
      input.qitemId ++ " is currently '" ++ current ++ "'.") info

/-- The frontier close-path guard: done or handed-off only. -/
def checkFrontier (db : Db) (state : QueueState) (input : QueueUpdateInput) : Result Unit :=
  if state.isTerminalState && !input.viaWorkflowVerb then
    match workflowFrontierPredicate db input.qitemId with
    | some binding =>
      refuse .workflowFrontierPacket
        ("qitem " ++ input.qitemId ++ " is the LIVE frontier packet of workflow instance " ++
          binding.instanceId ++ " (" ++ binding.workflowName ++ "). Closing it out-of-band " ++
          "would strand the workflow. Use the workflow verbs instead: rig workflow project " ++
          "(advance) | rig workflow route (re-target the owner).")
        [("instanceId", binding.instanceId), ("workflowName", binding.workflowName),
         ("qitemId", input.qitemId)]
    | none => pure ()
  else pure ()

/-- The blocker a park has: the request's, else the row's, else the gate its claim retained. -/
def effectiveBlockedOn (db : Db) (qitem : QueueItem) (state : QueueState)
    (input : QueueUpdateInput) : Option String :=
  input.blockedOn <|> qitem.blockedOn <|>
    if state = .blocked && qitem.state = .inProgress && input.blockedOn.isNone &&
        qitem.blockedOn.isNone then db.retainedClaimBlocker input.qitemId else none

/-- An informational update is neither an approval dependency nor an approval park. -/
def checkHumanUpdate (db : Db) (qitem : QueueItem) (state : QueueState)
    (blocker : Option String) : Result Unit := do
  refuseIf (state = .blocked && truthy blocker &&
      (blocker.bind db.getById).any fun r => r.humanIntent = some .update)
    .invalidHumanNotification
    ("An informational update is not an approval dependency. Create a separate decision " ++
      "request if a human decision is needed.")
  refuseIf (qitem.humanIntent = some .update && state = .blocked &&
      isHumanSeatSessionRef (blocker.getD "")) .invalidHumanNotification
    ("An informational delivery cannot become a human approval park; author a separate " ++
      "decision request.")

/-- A park on a person, by any address. -/
def isHumanPark (env : Env) (state : QueueState) (blocker : Option String) : Bool :=
  state = .blocked && truthy blocker && blocker.any (isPersonAddress env.humanRegistry)

/-- Summary and evidence where they cannot be stored. -/
def checkPersistable (humanPark : Bool) (state : QueueState) (input : QueueUpdateInput) :
    Result Unit :=
  let invalid := (if input.summary.isSome then ["summary"] else []) ++
    (if input.evidenceRef.isSome && state ≠ .done then ["evidenceRef"] else [])
  let flags := " / ".intercalate (invalid.map fun f =>
    if f = "summary" then "--summary" else "--evidence-ref")
  let places := "; ".intercalate (invalid.map fun f =>
    if f = "summary" then
      "summary persists on a human-seat park, or on its own (rig queue update <id> --summary … " ++
        "with no --state)"
    else "evidenceRef persists on a human-seat park or a done close")
  refuseIf (!humanPark && !invalid.isEmpty) .summaryEvidenceNotPersistable
    (places ++ "; the '" ++ state.text ++ "' transition cannot store " ++
      (if 1 < invalid.length then "them" else "it") ++ ". Remove " ++ flags ++
      ", or use one of those.")
    [("invalidFields", ", ".intercalate invalid)]

/-- The forms that may store closure fields besides `done`: the park record, the handoff close
and the supersession cancel. -/
def admitsClosureFields (state : QueueState) (closureReason : Option String) : Bool :=
  state = .done || (state = .blocked && closureReason = some "blocked_on") ||
    (state = .handedOff && closureReason = some "handed_off_to") ||
    (state = .canceled && closureReason = some "superseded")

def checkCoherence (state : QueueState) (input : QueueUpdateInput) : Result Unit := do
  refuseIf (!admitsClosureFields state input.closureReason &&
      (input.closureReason.isSome || input.closureTarget.isSome)) .closureFieldsNotAdmitted
    ("closure_reason/closure_target persist only on state=done, the blocked park-record form, " ++
      "the handoff close, or the superseded cancel; the '" ++ state.text ++ "' transition " ++
      "cannot store them. Close the item (--state done --closure-reason …) or drop the flags. " ++
      "To cancel it: --state done --closure-reason canceled.")
  refuseIf (state = .canceled && input.closureReason = some "superseded" &&
      !truthy input.closureTarget) .missingClosureTarget
    ("closure_reason=superseded requires closure_target (the successor qitem that replaced " ++
      "this row).")
  refuseIf (input.blockedOn.isSome && state ≠ .blocked) .blockedOnNotAdmitted
    ("blocked_on persists only on state=blocked; the '" ++ state.text ++ "' transition cannot " ++
      "store it. Park the item (rig queue block --on …) or drop --blocked-on.")

def typedGateBlockerPrefixes : List String := ["fold:", "auth:", "external:"]

def typedGateBlockerPrefix (value : String) : Option String :=
  typedGateBlockerPrefixes.find? (startsWith value)

/-- A queue item blocker must exist and be active; a typed gate must name its gate. -/
def checkBlocker (db : Db) (blocker : String) : Result Unit :=
  if startsWith blocker "qitem-" then
    match db.getById blocker with
    | none =>
      refuse .blockerNotFound
        ("blocked_on names a qitem that does not exist on this daemon: " ++ blocker ++
          ". A qitem absent from this daemon cannot be a live blocker here. If it is stored on " ++
          "another host, use a typed gate such as external:<host>/<id> with --wake-watchdog or " ++
          "--wake-after.")
        [("rejectedBlocker", blocker)]
    | some r =>
      refuseIf (!r.state.isBlockerLive) .blockerNotLive
        ("blocked_on names a resolved qitem: " ++ blocker ++ " is '" ++ r.state.text ++
          "'. A park must name a LIVE blocker — parking on a completed/closed row is a " ++
          "dead-blocker park that never self-clears.")
        [("rejectedBlocker", blocker), ("blockerState", r.state.text)]
  else match typedGateBlockerPrefix blocker with
  | some p =>
    refuseIf (isBlank (sliceFrom p.length blocker)) .blockerMalformed
      ("blocked_on '" ++ blocker ++ "' is a bare '" ++ p ++ "' prefix with no gate body. A " ++
        "typed gate blocker must name its gate (e.g. fold:one-home+attestation).")
      [("rejectedBlocker", blocker)]
  | none => pure ()

structure UpdatePlan where
  state : QueueState
  closureReason : Option ClosureReason
  closureTarget : Option String
  blocker : Option String
  humanPark : Bool

/-- Every check between the state of a request and its first write. -/
def admitUpdate (env : Env) (db : Db) (qitem : QueueItem) (state : QueueState)
    (input : QueueUpdateInput) : Result UpdatePlan := do
  checkWakeForm state input
  checkReopen qitem state input
  let closure ← validateClosure state ⟨input.closureReason, input.closureTarget⟩
  checkFrontier db state input
  let blocker := effectiveBlockedOn db qitem state input
  checkHumanUpdate db qitem state blocker
  let humanPark := isHumanPark env state blocker
  checkPersistable humanPark state input
  checkCoherence state input
  if state = .blocked && !humanPark then
    if let some b := blocker then
      checkBlocker db b
  if humanPark then
    validateHumanPark blocker (input.summary <|> qitem.summary)
      (input.evidenceRef <|> qitem.evidenceRef)
  return { state, closureReason := closure.closureReason.bind ClosureReason.ofText?,
           closureTarget := closure.closureTarget, blocker, humanPark }

/-! ### The wake of a park -/

/-- The message a `--wake-after` park timer carries when its owner gives none. -/
def defaultParkWakeMessage (qitemId : String) : String :=
  "Wake timer fired for parked qitem " ++ qitemId ++ ". Resume the recorded continuation and " ++
    "update the row."

/-- The continuation a move arms, and the jobs after arming it: an attached live watchdog, a
repeating wait, a one-shot timer, or the blocker itself. -/
def armParkWake (env : Env) (db : Db) (qitem : QueueItem) (plan : UpdatePlan)
    (input : QueueUpdateInput) : Result (Option ParkWake × Jobs) :=
  match input.wakeWatchdogId, input.wakeAfterSeconds, input.wakeMaxSeconds with
  | some w, _, _ =>
    match (db.jobs.get? w).filter fun j => j.state = .active with
    | none =>
      refuse .wakeWatchdogNotLive
        ("watchdog " ++ w ++ " is not an active job; attach a live watchdog or arm an atomic timer")
        [("wakeWatchdogId", w)]
    | some job =>
      if job.targetSession ≠ qitem.destinationSession then
        refuse .wakeWatchdogTargetMismatch
          ("watchdog " ++ job.jobId ++ " targets " ++ job.targetSession ++ ", not parked owner " ++
            qitem.destinationSession)
          [("wakeWatchdogId", job.jobId), ("targetSession", job.targetSession),
           ("destinationSession", qitem.destinationSession)]
      else pure (some (.watchdog job.jobId), db.jobs)
  | none, some after, some max =>
    if plan.blocker = some input.qitemId then
      refuse .wakeSelfBlocker
        "a repeating wait must name an upstream blocker, not its own packet"
    else do
      let previousJobId := match getStatus db input.qitemId with
        | some { wake := .timer j, .. } =>
          if (findLiveQitemsByAttachedWatchdog db j).isEmpty then some j else none
        | _ => none
      let (jobs, jobId) ← armQueueWait env db
        { previousJobId, qitemId := input.qitemId, blocker := plan.blocker,
          evidence := input.wakeProgressEvidence, initialSeconds := after.toNat,
          maxSeconds := max.toNat,
          message := input.wakeMessage.getD
            ("Resume parked qitem " ++ input.qitemId ++ " and inspect current evidence."),
          owner := qitem.destinationSession, actor := input.actorSession }
      return (some (.timer jobId), jobs)
  | none, some after, none => do
    let jobs ← register env db.jobs
      { policy := "periodic-reminder",
        spec := .reminder qitem.destinationSession
          (input.wakeMessage.getD (defaultParkWakeMessage qitem.qitemId)),
        targetSession := qitem.destinationSession, intervalSeconds := after.toNat,
        registeredBySession := input.actorSession }
    return (some (.timer env.ulid), recordEvaluation jobs env.ulid env.now)
  | none, none, _ =>
    pure (match plan.blocker with
      | some b => if plan.state = .blocked && startsWith b "qitem-" then some (.blocker b) else none
      | none => none, db.jobs)

/-! ### The writes of a move -/

/-- The outcome a close stores after what the row already carries. -/
def nextResolution (qitem : QueueItem) (plan : UpdatePlan) (input : QueueUpdateInput) :
    Option String :=
  let closing := input.resolution.filter fun r => !isBlank r && qitem.state.isBlockerLive &&
    !plan.state.isBlockerLive
  match closing with
  | none => qitem.resolution
  | some c => match qitem.resolution.filter (· ≠ "") with
    | some r => some (r ++ "\n" ++ c)
    | none => some c

/-- The row's columns after a move. The blocker is set explicitly; closure fields and the next
owner are written through `COALESCE`, so an absent value keeps the old one. -/
def movedRow (env : Env) (plan : UpdatePlan) (input : QueueUpdateInput)
    (resolution : Option String) (r : QueueItem) : QueueItem :=
  { r with
    state := plan.state, tsUpdated := env.now,
    closureReason := plan.closureReason <|> r.closureReason,
    closureTarget := plan.closureTarget <|> r.closureTarget,
    handedOffTo := input.handedOffTo <|> r.handedOffTo,
    blockedOn := if plan.state = .blocked then plan.blocker else none,
    resolution,
    summary := if plan.humanPark then input.summary <|> r.summary else r.summary,
    evidenceRef := if plan.humanPark || plan.state = .done then input.evidenceRef <|> r.evidenceRef
      else r.evidenceRef }

def moveNote (qitem : QueueItem) (plan : UpdatePlan) (input : QueueUpdateInput) : Option String :=
  if isReopen qitem plan.state then
    some ("reopen acknowledged: " ++ input.transitionNote.getD "undefined")
  else input.transitionNote

/-- The new park's wake is recorded and supersedes the old timer; leaving the park ends it. -/
def settleParkWake (db : Db) (qitem : QueueItem) (plan : UpdatePlan) (parkWake : Option ParkWake)
    (transitionId : ℕ) : Db :=
  match parkWake with
  | some wake =>
    let db := if (getStatus db qitem.qitemId).map (fun s => s.wake.ref) ≠ some wake.ref then
      retireParkGeneratedTimer db qitem.qitemId "park_superseded" else db
    db.recordWake { transitionId, qitemId := qitem.qitemId, phase := .armed, wake }
  | none =>
    if qitem.state = .blocked && plan.state ≠ .blocked then
      retireParkGeneratedTimer db qitem.qitemId ("park_ended:" ++ plan.state.text)
    else db

def applyUpdate (env : Env) (db : Db) (qitem : QueueItem) (plan : UpdatePlan)
    (parkWake : Option ParkWake) (input : QueueUpdateInput) : Result Db := do
  let nextBlockedOn := if plan.state = .blocked then plan.blocker else none
  let notification := classifyOwnerNotification env
    { create := false, destinationSession := qitem.destinationSession,
      previousState := some qitem.state, previousBlockedOn := qitem.blockedOn,
      nextState := plan.state, nextBlockedOn, decisionResolved := input.decisionResolved }
  let db := db.updateRow qitem.qitemId (movedRow env plan input (nextResolution qitem plan input))
  let transitionId := db.nextTransitionId
  let db := db.append env.now
    { qitemId := qitem.qitemId, state := plan.state, actorSession := input.actorSession,
      transitionNote := moveNote qitem plan input, closureReason := plan.closureReason,
      closureTarget := plan.closureTarget, identityProvenance := input.identityProvenance,
      identityPrincipal := input.identityPrincipal, ownerNotification := notification }
  let db := settleParkWake db qitem plan parkWake transitionId
  let db ← if plan.state.isBlockerLive then pure db else
    propagateBlockerCompletion env
      { qitemId := qitem.qitemId, terminalState := plan.state, actorSession := input.actorSession,
        identityProvenance := sideEffectProvenance input.identityProvenance } db
  return db.emit (.updated qitem.qitemId qitem.state plan.state plan.closureReason
    plan.closureTarget input.actorSession
    (if plan.humanPark then input.summary <|> qitem.summary else qitem.summary))

def update (env : Env) (db : Db) (input : QueueUpdateInput) : Result Db := do
  let qitem ← requireItem db input.qitemId
  let deadline ← checkReestimate qitem input
  if isStatePreservingAppend qitem input then appendOnly env db qitem input deadline
  else match input.state with
    | none => appendOnly env db qitem input deadline
    | some state => do
      let plan ← admitUpdate env db qitem state input
      let (parkWake, jobs) ← armParkWake env db qitem plan input
      applyUpdate env (db.setJobs jobs) qitem plan parkWake input

end OpenRig.Update
