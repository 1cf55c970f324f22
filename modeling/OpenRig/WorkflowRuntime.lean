import OpenRig.Refinement
import OpenRig.WorkflowProjector
import OpenRig.WorkflowValidator

/-!
The calls of the workflow runtime beside `project`: instantiation, the two resumes, re-routing
and abort; and the daemon they run in.

Each call reads one instance and the queue tables, and commits both or neither. A daemon's run
interleaves the calls on every instance with the queue's own verbs.
-/

namespace OpenRig.WorkflowRuntime

open OpenRig.JsText OpenRig.Sessions OpenRig.Closure OpenRig.QueueDb OpenRig.Outbox
open OpenRig.Verbs OpenRig.Update OpenRig.Refinement OpenRig.Runs OpenRig.WorkflowTypes
open OpenRig.WorkflowStore OpenRig.WorkflowRouting OpenRig.WorkflowProjector

/-! ### Resume -/

/-- The arguments of `resume`. -/
structure ResumeInput where
  occurrenceId : Option String := none
  decision : Option String := none
  actorSession : String
  identityProvenance : Option String := none
  deriving DecidableEq

/-- The occurrence the caller names: an empty name is none. -/
def ResumeInput.named (input : ResumeInput) : Option String :=
  input.occurrenceId.filter fun id => id ≠ ""

structure ResumeResult where
  stepId : String
  newPacketId : String
  ownerSession : String
  resumeCount : ℕ
  exceptionItemsClosed : ℕ
  absorbedReplay : Bool := false
  deriving DecidableEq

/-- The open exception items of a failed packet. -/
def openExceptionItems (db : Db) (instanceId failedPacketId : String) : List QueueItem :=
  db.items.filter fun r =>
    (r.state = .pending || r.state = .inProgress || r.state = .blocked) &&
      r.tags.any fun tags => tags.contains "workflow-exception" &&
        tags.contains ("instance:" ++ instanceId) && tags.contains ("occurrence:" ++ failedPacketId)

def decisionText (lead : String) (decision : Option String) (trail : String) : String :=
  if truthy decision then lead ++ decision.getD "" ++ trail else ""

def closeFailureExceptions (env : WorkflowEnv) (db : Db) (instanceId failedPacketId stepId : String)
    (input : ResumeInput) : Outcome (ℕ × Db) := do
  let openItems := openExceptionItems db instanceId failedPacketId
  let db ← openItems.foldlM (fun db row => inQueue (update env.base db
    { qitemId := row.qitemId
      actorSession := input.actorSession
      identityProvenance := input.identityProvenance
      state := some .done
      closureReason := some "no-follow-on"
      transitionNote := some (s!"workflow resume: occurrence resolved by {input.actorSession} " ++
        s!"redriving step {stepId}" ++ decisionText " — " input.decision "") })) db
  return (openItems.length, db)

def redrivePacket (env : WorkflowEnv) (i : InstanceRow) (step : WorkflowStepSpec)
    (input : ResumeInput) (owner body : String) (extraTags : List String)
    (failedPacketId : Option String) : QueueCreateInput where
  qitemId := some (newQitemId (env.at 0))
  sourceSession := input.actorSession
  identityProvenance := input.identityProvenance
  destinationSession := owner
  body := env.withContinuation i body (some step) (newQitemId (env.at 0)) owner
  priority := some "routine"
  tier := some "mode2"
  tags := some
    (["workflow", "resume", "workflow:" ++ i.workflowName, "instance:" ++ i.instanceId] ++
    extraTags ++ packetScopeTags i.scope step.id)
  chainOfRecord := failedPacketId.map fun p => [p]

/-- The create and the wake of a redrive packet. -/
def createRedrive (env : WorkflowEnv) (db : Db) (packet : QueueCreateInput) (input : ResumeInput) :
    Outcome Db := do
  let db ← inQueue (createWithinTransaction (env.at 0) db packet)
  inQueue (stageHandoffWake env.base db (newQitemId (env.at 0)) input.actorSession
    packet.destinationSession input.identityProvenance none)

def redriveBody (i : InstanceRow) (step : WorkflowStepSpec) (input : ResumeInput) : String :=
  "WORKFLOW RESUME (redrive)\n" ++
    s!"workflow: {i.workflowName} v{i.workflowVersion}\ninstance: {i.instanceId}\n" ++
    s!"step: {step.id} (role {step.actorRole}) — re-driven from the recorded failure; completed " ++
    s!"steps are NOT re-run\nresumed by: {input.actorSession} (redrive #{i.resumeCount + 1})\n" ++
    decisionText "decision: " input.decision "\n" ++ s!"history: rig workflow trace {i.instanceId}"

def packetRedriveBody (i : InstanceRow) (step : WorkflowStepSpec) (occurrenceId : String)
    (input : ResumeInput) : String :=
  "WORKFLOW RESUME (packet redrive)\n" ++
    s!"workflow: {i.workflowName} v{i.workflowVersion}\ninstance: {i.instanceId}\n" ++
    s!"occurrence: {occurrenceId}\nstep: {step.id}\n" ++
      decisionText "decision: " input.decision "\n"

def failedStep (i : InstanceRow) : Outcome WorkflowStepSpec :=
  match (i.lastContinuationDecision.bind (·.currentStep)).filter (· ≠ "") with
  | none =>
    reject .resumeStepUnrecoverable
      (s!"instance {i.instanceId} carries no recorded failed step (pre-R2 row without " ++
        "lastContinuationDecision.currentStep); cannot rebind — instantiate a fresh run")
  | some id =>
    match i.boundSpec.step? id with
    | some step => .ok step
    | none =>
      reject .resumeStepMissingFromSpec
        (s!"failed step \"{id}\" no longer exists in {i.workflowName}@{i.workflowVersion}; fix " ++
          "the spec (the cached version is authoritative for in-flight instances) or " ++
          "instantiate a fresh run")

/-- `resume`, for an instance without a recorded occurrence. -/
def resumeInstance (env : WorkflowEnv) (db : Db) (i : InstanceRow) (input : ResumeInput) :
    Outcome (ResumeResult × InstanceRow × Db) := do
  rejectIf (i.status ≠ .failed) .instanceNotFailed
    (s!"instance {i.instanceId} is {statusText i.status}; resume re-drives FAILED instances " ++
      "only (a waiting instance resumes via the shipped project path; an active instance needs " ++
      "no resume)")
  let step ← failedStep i
  let failedPacketId := (i.lastContinuationDecision.bind (·.closedPacket)).filter (· ≠ "")
  let owner ← requireOwner (← resolveDefaultOwner env i.boundSpec step (roleContext i.boundRig))
    .nextOwnerUnresolved
    (s!"cannot resolve an owner for failed step \"{step.id}\" (role \"{step.actorRole}\"); add " ++
      "preferred_targets to the role before resuming")
  let packetId := newQitemId (env.at 0)
  let db ← createRedrive env db
    (redrivePacket env i step input owner (redriveBody i step input) [] failedPacketId) input
  let (closed, db) ← match failedPacketId with
    | some failed => closeFailureExceptions env db i.instanceId failed step.id input
    | none => .ok (0, db)
  let i' := i.updateFrontier
    { nextFrontier := [packetId], nextStatus := .active, currentStepId := .set step.id
      resumeStamp := some (i.resumeCount + 1, i.hopCount) }
  let db ← ensureWorkflowKeepaliveArmed env 0 db i.instanceId owner input.actorSession none
  return ({ stepId := step.id, newPacketId := packetId, ownerSession := owner,
            resumeCount := i.resumeCount + 1, exceptionItemsClosed := closed }, i', db)

def selectedOccurrence (i : InstanceRow) (input : ResumeInput) :
    Option WorkflowFailureOccurrence :=
  input.named.bind fun id =>
    (i.listFailureOccurrences none).find? fun o => o.occurrenceId = id

/-- The replay of a resume whose occurrence already has its redrive packet. -/
def replayResume (db : Db) (i : InstanceRow) (input : ResumeInput)
    (o : WorkflowFailureOccurrence) (redrivePacketId : String) :
    Outcome (ResumeResult × InstanceRow × Db) := do
  rejectIf (o.resumeDecision ≠ input.decision) .failureOccurrenceReplayConflict
    (s!"failure occurrence {o.occurrenceId} was already resumed with different decision bytes")
  match db.getById redrivePacketId with
  | none =>
    reject .failureOccurrenceReplayIndeterminate
      (s!"resolved occurrence {o.occurrenceId} points to missing redrive packet {redrivePacketId}")
  | some packet =>
    return ({ stepId := o.stepId, newPacketId := redrivePacketId,
              ownerSession := packet.destinationSession, resumeCount := i.resumeCount,
              exceptionItemsClosed := 0, absorbedReplay := true }, i, db)

def chosenOccurrence (i : InstanceRow) (input : ResumeInput) :
    Outcome WorkflowFailureOccurrence := do
  let unresolved := i.listFailureOccurrences (some .unresolved)
  rejectIf (input.named.isNone && unresolved.length ≠ 1) .failureOccurrenceRequired
    (s!"instance {i.instanceId} has {unresolved.length} unresolved failure occurrences; " ++
      "--occurrence is required")
  match if input.named.isSome then selectedOccurrence i input else unresolved.head? with
  | some o => do
    rejectIf (o.status ≠ .unresolved) .failureOccurrenceNotUnresolved
      ("failure occurrence " ++ input.occurrenceId.getD "(unspecified)" ++ " is not unresolved")
    return o
  | none =>
    reject .failureOccurrenceNotUnresolved
      ("failure occurrence " ++ input.occurrenceId.getD "(unspecified)" ++ " is not unresolved")

/-- The binding of a redrive packet: its window starts at the failed packet's hop. -/
def redriveBinding (o : WorkflowFailureOccurrence) (packetId : String) (now : Time) :
    WorkflowFrontierBinding where
  packetId := packetId
  stepId := o.stepId
  branchDrive := o.branchDrive + 1
  hopCount := o.hopCount
  hopsBaseline := o.hopCount
  createdAt := now

/-- The instance row after an occurrence was redriven. -/
def redriveRow (i : InstanceRow) (o : WorkflowFailureOccurrence) (packetId : String)
    (frontier : List String) (input : ResumeInput) : InstanceRow :=
  i.updateFrontier
    { nextFrontier := frontier, nextStatus := .active, currentStepId := singletonStep i
      resumeStamp := some (i.resumeCount + 1, i.hopCount)
      lastContinuationDecision :=
        some (.resumed o.occurrenceId packetId input.actorSession input.decision) }

def redriveOccurrence (env : WorkflowEnv) (db : Db) (i : InstanceRow) (input : ResumeInput)
    (o : WorkflowFailureOccurrence) : Outcome (ResumeResult × InstanceRow × Db) := do
  rejectIf (i.status = .completed || i.status = .aborted) .instanceNotResumable
    s!"instance {i.instanceId} is {statusText i.status}"
  match i.boundSpec.step? o.stepId with
  | none =>
    reject .resumeStepMissingFromSpec s!"failed step \"{o.stepId}\" no longer exists"
  | some step => do
    let owner ← requireOwner (← resolveDefaultOwner env i.boundSpec step (roleContext i.boundRig))
      .nextOwnerUnresolved s!"cannot resolve owner for failed step \"{step.id}\""
    let packetId := newQitemId (env.at 0)
    let db ← createRedrive env db (redrivePacket env i step input owner
      (packetRedriveBody i step o.occurrenceId input) ["occurrence:" ++ o.occurrenceId]
      (some o.failedPacketId)) input
    let bound ← i.bindFrontierPacket (redriveBinding o packetId env.base.now)
    let resolved ← bound.resolveFailureOccurrence o.occurrenceId packetId input.decision
      env.base.now
    let (closed, db) ← closeFailureExceptions env db i.instanceId o.failedPacketId step.id input
    let i' := redriveRow resolved o packetId (i.currentFrontier ++ [packetId]) input
    let db ← ensureWorkflowKeepaliveArmed env 0 db i.instanceId owner input.actorSession
      (some packetId)
    return ({ stepId := step.id, newPacketId := packetId, ownerSession := owner,
              resumeCount := i.resumeCount + 1, exceptionItemsClosed := closed }, i', db)

def resumeFailureOccurrence (env : WorkflowEnv) (db : Db) (i : InstanceRow) (input : ResumeInput) :
    Outcome (ResumeResult × InstanceRow × Db) :=
  match (selectedOccurrence i input).bind fun o =>
      if o.status = .resolved then (o.redrivePacketId.filter (· ≠ "")).map fun p => (o, p)
      else none with
  | some (o, redrivePacketId) => replayResume db i input o redrivePacketId
  | none => do
    let o ← chosenOccurrence i input
    redriveOccurrence env db i input o

def resume (env : WorkflowEnv) (db : Db) (i : InstanceRow) (input : ResumeInput) :
    Outcome (ResumeResult × InstanceRow × Db) :=
  if input.named.isSome || !(i.listFailureOccurrences none).isEmpty then
    resumeFailureOccurrence env db i input
  else resumeInstance env db i input

/-! ### Route -/

/-- The arguments of `route`. -/
structure RouteInput where
  packetId : Option String := none
  toSession : String
  actorSession : String
  identityProvenance : Option String := none
  reason : Option String := none
  deriving DecidableEq

structure RouteResult where
  stepId : Option String
  closedPacketId : String
  newPacketId : String
  fromSession : String
  deriving DecidableEq

/-- The packet a re-route closes: the one named, or the only one. -/
def routedPacket (i : InstanceRow) (input : RouteInput) : Outcome String :=
  match input.packetId.filter (· ≠ ""), i.currentFrontier with
  | some id, _ => .ok id
  | none, [id] =>
    if id = "" then
      reject .packetNotFound s!"instance {i.instanceId} has no selectable frontier packet"
    else .ok id
  | none, [] =>
    reject .packetNotFound s!"instance {i.instanceId} has an empty frontier; nothing to re-route"
  | none, frontier =>
    reject .frontierPacketRequired
      s!"instance {i.instanceId} has {frontier.length} live packets; --packet is required"

/-- The step of a packet: its binding's, or the current one of a single packet. -/
def selectedStepId (i : InstanceRow) (packetId : String) : Option String :=
  ((i.getFrontierBinding packetId).map (·.stepId)) <|>
    if i.currentFrontier.length = 1 then i.currentStepId else none

/-- The pin of the routed step, where it has one. -/
def reconcileStep (env : WorkflowEnv) (step : Option WorkflowStepSpec) (toSession : String) :
    Outcome Unit :=
  match step with
  | some s => reconcileExplicitOwnerHarness env s toSession
  | none => .ok ()

/-- The create that carries a packet's fields over to its new owner. -/
def routedItem (env : WorkflowEnv) (i : InstanceRow) (old : QueueItem)
    (step : Option WorkflowStepSpec) (input : RouteInput) : QueueCreateInput where
  qitemId := some (newQitemId (env.at 0))
  sourceSession := input.actorSession
  identityProvenance := input.identityProvenance
  destinationSession := input.toSession
  body := env.withContinuation i old.body step (newQitemId (env.at 0)) input.toSession
  priority := some old.priority
  tier := some (old.tier.getD "mode2")
  tags := some ((old.tags.getD [] ++
    ["workflow", "re-route", "workflow:" ++ i.workflowName, "instance:" ++ i.instanceId]).foldl
      (fun out t => if out.contains t then out else out ++ [t]) [])
  chainOfRecord := some [old.qitemId]
  summary := old.summary
  evidenceRef := old.evidenceRef
  targetRepo := old.targetRepo
  humanAlert :=
    if (old.tags.getD []).contains humanAlertTag &&
      isPersonAddress env.base.humanRegistry input.toSession then some true else none

/-- The park a re-routed packet keeps. -/
def preservePark (env : WorkflowEnv) (db : Db) (i : InstanceRow) (old : QueueItem)
    (step : Option WorkflowStepSpec) (input : RouteInput) : Outcome Db :=
  match old.state, old.blockedOn.filter (· ≠ "") with
  | .blocked, some blocker =>
    inQueue (update (env.at 0) db
      { qitemId := newQitemId (env.at 0)
        actorSession := input.actorSession
        identityProvenance := input.identityProvenance
        state := some .blocked
        closureReason := some "blocked_on"
        closureTarget := some blocker
        blockedOn := some blocker
        transitionNote := some s!"workflow route: park preserved ({blocker})"
        wakeAfterSeconds := step.bind (·.rePresentAfterSeconds)
        wakeMaxSeconds := step.bind (·.rePresentMaxSeconds)
        wakeMessage := step.bind fun s => s.rePresentAfterSeconds.map fun _ =>
          env.waitWakeMessage i s (newQitemId (env.at 0)) input.toSession })
  | _, _ => .ok db

/-- The packet's binding, moved to its successor. -/
def rebind (i : InstanceRow) (old successor : String) (now : Time) : Outcome InstanceRow :=
  match i.getFrontierBinding old with
  | none => .ok i
  | some b =>
    (i.removeFrontierBinding old).bindFrontierPacket
      { b with packetId := successor, createdAt := now }

/-- The current step after a re-route. -/
def routedStepUpdate (i : InstanceRow) : StepIdUpdate :=
  match i.listFrontierBindings with
  | [] => .preserve
  | _ => singletonStep i

/-- The instance row after a re-route. -/
def routedRow (i : InstanceRow) (rebound : InstanceRow) (old successor : String) : InstanceRow :=
  rebound.updateFrontier
    { nextFrontier := i.currentFrontier.map fun p => if p = old then successor else p
      nextStatus := i.status
      currentStepId := routedStepUpdate rebound }

def route (env : WorkflowEnv) (db : Db) (i : InstanceRow) (input : RouteInput) :
    Outcome (RouteResult × InstanceRow × Db) := do
  rejectIf (!i.status.isLive) .instanceNotActive
    (s!"instance {i.instanceId} is {statusText i.status}; only a live (active|waiting) instance " ++
      "can be re-routed")
  let oldPacketId ← routedPacket i input
  rejectIf (!i.currentFrontier.contains oldPacketId) .packetNotOnFrontier
    s!"qitem {oldPacketId} is not in workflow instance {i.instanceId} frontier"
  match db.getById oldPacketId with
  | none => reject .packetNotFound s!"frontier packet {oldPacketId} not found"
  | some old => do
    let stepId := selectedStepId i oldPacketId
    let step := (stepId.filter (· ≠ "")).bind i.boundSpec.step?
    reconcileStep env step input.toSession
    let db ← inQueue (update env.base db
      { qitemId := oldPacketId
        actorSession := input.actorSession
        identityProvenance := input.identityProvenance
        viaWorkflowVerb := true
        state := some .handedOff
        closureReason := some "handed_off_to"
        closureTarget := some input.toSession
        handedOffTo := some input.toSession
        transitionNote := some (s!"workflow route: {input.actorSession} re-routed step " ++
          stepId.getD "?" ++ s!" from {old.destinationSession} to {input.toSession}" ++
          decisionText " — " input.reason "") })
    let successor := newQitemId (env.at 0)
    let db ← inQueue (createWithinTransaction (env.at 0) db (routedItem env i old step input))
    let db ← inQueue (stageHandoffWake env.base db successor input.actorSession input.toSession
      input.identityProvenance none)
    let db ← preservePark env db i old step input
    let rebound ← rebind i oldPacketId successor env.base.now
    let i' := routedRow i rebound oldPacketId successor
    let bound := i.getFrontierBinding oldPacketId
    let db := disarmWorkflowKeepalive env db i.instanceId
      ("workflow route: re-targeted to " ++ input.toSession) (bound.map fun _ => oldPacketId)
    let db ← ensureWorkflowKeepaliveArmed env 0 db i.instanceId input.toSession input.actorSession
      (bound.map fun _ => successor)
    inQueue (assertTerminalClosureHasIntent env.base db oldPacketId successor none)
    return ({ stepId, closedPacketId := oldPacketId, newPacketId := successor,
              fromSession := old.destinationSession }, i', db)

/-! ### Abort -/

/-- The arguments of `abort`. -/
structure AbortInput where
  reason : String
  actorSession : String
  identityProvenance : Option String := none
  deriving DecidableEq

/-- The close of one frontier packet of an aborted instance. -/
def abortPacket (env : WorkflowEnv) (i : InstanceRow) (input : AbortInput)
    (state : InstanceRow × Db) (packetId : String) : Outcome (InstanceRow × Db) := do
  rejectIf (state.2.getById packetId).isNone .packetNotFound
    s!"frontier packet {packetId} not found"
  match (selectedStepId i packetId).filter (· ≠ "") with
  | none =>
    reject .frontierBindingIndeterminate s!"cannot abort: packet {packetId} has no step binding"
  | some stepId => do
    let db ← inQueue (update env.base state.2
      { qitemId := packetId
        actorSession := input.actorSession
        identityProvenance := input.identityProvenance
        viaWorkflowVerb := true
        state := some .canceled
        transitionNote := some s!"workflow abort by {input.actorSession}: {input.reason}" })
    return ((state.1.recordTrail
      { stepId
        stepRole := ((i.boundSpec.step? stepId).map (·.actorRole)).getD "unknown"
        closedAt := env.base.now
        closureReason := .failed
        closureEvidence := some (Record.empty.set "abort" (Json.ofFields
          [("reason", .str input.reason), ("actorSession", .str input.actorSession)]))
        actorSession := input.actorSession
        nextQitemId := none
        priorQitemId := packetId }).removeFrontierBinding packetId, db)

def abort (env : WorkflowEnv) (db : Db) (i : InstanceRow) (input : AbortInput) :
    Outcome (List String × InstanceRow × Db) := do
  rejectIf (isBlank input.reason) .abortReasonRequired "workflow abort requires a non-empty reason"
  rejectIf (i.status = .completed || i.status = .aborted) .instanceNotAbortable
    s!"instance {i.instanceId} is {statusText i.status}"
  let (closed, db) ← i.currentFrontier.foldlM (abortPacket env i input) (i, db)
  return (i.currentFrontier,
    closed.updateFrontier
      { nextFrontier := [], nextStatus := .aborted, currentStepId := .clear
        completedAt := some env.base.now
        lastContinuationDecision :=
          some (.aborted input.actorSession input.reason i.currentFrontier) },
    disarmAllWorkflowKeepalives env db i.instanceId ("workflow_aborted: " ++ input.reason))

/-! ### Calls -/

inductive Call where
  | project (input : ProjectStepInput)
  | resume (input : ResumeInput)
  | route (input : RouteInput)
  | abort (input : AbortInput)

inductive Reply where
  | projected (r : ProjectStepResult)
  | resumed (r : ResumeResult)
  | routed (r : RouteResult)
  | aborted (closedPacketIds : List String)

/-- The call's handler, on the instance's row. -/
def Call.run (env : WorkflowEnv) (db : Db) (i : InstanceRow) : Call →
    Outcome (Reply × InstanceRow × Db)
  | .project input => (WorkflowProjector.project env db i input).map fun (r, s) => (.projected r, s)
  | .resume input => (WorkflowRuntime.resume env db i input).map fun (r, s) => (.resumed r, s)
  | .route input => (WorkflowRuntime.route env db i input).map fun (r, s) => (.routed r, s)
  | .abort input => (WorkflowRuntime.abort env db i input).map fun (r, s) => (.aborted r, s)

end OpenRig.WorkflowRuntime
