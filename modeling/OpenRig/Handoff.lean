import OpenRig.Verbs

/-!
The handoff family and the propagation every terminal close runs.

`handoff` and `handoffAndComplete` close the source and create its successor in one
transaction; they are one definition with the source's terminal state, its default note and
the successor's note as parameters. `closeCrossHostHandoffSource` is the local half of a
handoff whose successor lives on another host. `propagateBlockerCompletion` actuates the
rows parked on a row that left the active states.
-/

namespace OpenRig.Handoff

open OpenRig.JsText OpenRig.Sessions OpenRig.Closure OpenRig.QueueDb OpenRig.Outbox
open OpenRig.Watchdogs OpenRig.Verbs

/-! ### Propagation -/

structure PropagateInput where
  qitemId : String
  terminalState : QueueState
  actorSession : String
  identityProvenance : Option String

def parkedOn (db : Db) (blocker : String) : List (String × String) :=
  (db.items.filter fun r => r.blockedOn = some blocker && r.state = .blocked).map
    fun r => (r.qitemId, r.destinationSession)

/-- The one live successor of a handed-off blocker, at the seat it was handed to, unless that
seat is the waiting owner itself. -/
def onwardSuccessor (db : Db) (input : PropagateInput) (owner : String) : Option QueueItem :=
  if input.terminalState ≠ .handedOff then none
  else
    let handedOffTo := ((db.getById input.qitemId).bind QueueItem.handedOffTo).getD ""
    match db.items.filter fun r =>
      r.handedOffFrom = some input.qitemId && r.destinationSession = handedOffTo with
    | [s] => if s.state.isBlockerLive && s.destinationSession ≠ owner then some s else none
    | _ => none

def rebindRow (env : Env) (input : PropagateInput) (db : Db) (qitemId successorId : String) :
    Db :=
  let oldWake := getStatus db qitemId
  let db := db.updateRow qitemId fun r =>
    { r with blockedOn := some successorId, tsUpdated := env.now }
  let rebound := db.nextTransitionId
  let db := db.append env.now
    { qitemId, state := .blocked, actorSession := input.actorSession,
      transitionNote := some ("blocker custody moved from " ++ input.qitemId ++ " to " ++
        successorId),
      identityProvenance := input.identityProvenance }
  -- a repeating wait follows its blocker; any other timer of the old episode ends
  let retained := match oldWake with
    | some { wake := .timer j, .. } => (retargetQueueWait db j successorId).map (Prod.mk j)
    | _ => none
  let db := match retained with
    | some (_, jobs) => db.setJobs jobs
    | none => retireParkGeneratedTimer db qitemId "blocker_custody_moved"
  let db := db.recordWake
    { transitionId := rebound, qitemId, phase := .armed,
      wake := match retained with
        | some (j, _) => .timer j
        | none => .blocker successorId }
  db.emit (.updated qitemId .blocked .blocked none none input.actorSession
    ((db.getById qitemId).bind QueueItem.summary))

/-- The wait is over: the row returns to its owner. -/
def unparkRow (env : Env) (input : PropagateInput) (db : Db) (qitemId owner : String) :
    Result Db := do
  let db := db.updateRow qitemId fun r =>
    { r with state := .pending, blockedOn := none, tsUpdated := env.now }
  let resumed := db.nextTransitionId
  let db := db.append env.now
    { qitemId, state := .pending, actorSession := input.actorSession,
      transitionNote := some ("auto-unparked: blocker " ++ input.qitemId ++
        " reached terminal state '" ++ input.terminalState.text ++ "'") }
  let db := retireParkGeneratedTimer db qitemId "park_ended:auto-unparked"
  let db ← stageAutoUnparkWakeIntent env db qitemId owner input.actorSession
    input.identityProvenance input.qitemId resumed
  return db.emit (.updated qitemId .blocked .pending none none input.actorSession
    ((db.getById qitemId).bind QueueItem.summary))

/-- One parked row of `propagateBlockerCompletion`. -/
def propagateRow (env : Env) (input : PropagateInput) (db : Db) (row : String × String) :
    Result Db :=
  match onwardSuccessor db input row.2 with
  | some successor => pure (rebindRow env input db row.1 successor.qitemId)
  | none => unparkRow env input db row.1 row.2

def propagateBlockerCompletion (env : Env) (input : PropagateInput) (db : Db) : Result Db :=
  (parkedOn db input.qitemId).foldlM (propagateRow env input) db

/-! ### Permission questions -/

def tagValue (tags : List String) (pre : String) : Option String :=
  (tags.find? fun t => startsWith t pre).map (sliceFrom pre.length)

/-- `runnerPermissionOrigin`: the seat and generation of a runner's permission ask. -/
def runnerPermissionOrigin (item : QueueItem) : Option (String × String) := do
  let tags ← item.tags
  if !tags.contains "runner-permission" then none
  let nodeId ← (tagValue tags "permission-node:").filter (· ≠ "")
  let generation ← (tagValue tags "permission-generation:").filter (· ≠ "")
  return (nodeId, generation)

/-- `permissionQuestionsFor`: the nearest options along `handed_off_from`, `fuel` hops at most. -/
def permissionQuestions (db : Db) : ℕ → QueueItem → Option (List HumanQuestion)
  | 0, _ => none
  | fuel + 1, item =>
    if (runnerPermissionOrigin item).isNone then none
    else match item.humanQuestions.filter fun q => !q.isEmpty with
      | some q => some q
      | none =>
        match (item.handedOffFrom.filter (· ≠ "")).bind db.getById with
        | some next => permissionQuestions db fuel next
        | none => none

/-- `carryPermissionQuestion`: the options a person's successor row carries. -/
def carriedQuestions (env : Env) (db : Db) (source : QueueItem) (toSession : String) :
    Option (List HumanQuestion) :=
  if (runnerPermissionOrigin source).isSome && isPersonAddress env.humanRegistry toSession then
    permissionQuestions db 11 source
  else none

/-! ### Handoff -/

structure QueueHandoffInput where
  qitemId : String
  fromSession : String
  toSession : String
  body : Option String := none
  transitionNote : Option String := none
  priority : Option String := none
  tier : Option String := none
  tags : Option (List String) := none
  nudge : Option Bool := none
  /-- Absent: inherit the source's; present: this value, possibly none. -/
  targetRepo : Option (Option String) := none
  summary : Option String := none
  evidenceRef : Option String := none
  identityProvenance : Option String := none
  identityPrincipal : Option String := none
  humanAlert : Option Bool := none

/-- What `handoff` and `handoffAndComplete` do differently. -/
structure HandoffVariant where
  terminalState : QueueState
  sourceNote : String
  successorNote : String
  /-- Whether the successor's transition carries the sender's provenance. -/
  stampSuccessor : Bool

def closeRow (now : Time) (terminalState : QueueState) (toSession closureTarget : String)
    (r : QueueItem) : QueueItem :=
  { r with
    state := terminalState, tsUpdated := now, handedOffTo := some toSession,
    closureReason := some .handedOffTo, closureTarget := some closureTarget }

/-- The refusals a handoff shares with the cross-host close: an unknown or a terminal source. -/
def requireOpenSource (db : Db) (qitemId : String) : Result QueueItem := do
  let source ← requireItem db qitemId
  refuseIf source.state.isTerminalState .qitemAlreadyTerminal
    ("qitem " ++ qitemId ++ " is already in terminal state " ++ source.state.text)
  return source

def successorRow (env : Env) (input : QueueHandoffInput) (source : QueueItem)
    (carried : Option (List HumanQuestion)) : QueueItem where
  qitemId := newQitemId env
  tsCreated := env.now
  tsUpdated := env.now
  sourceSession := input.fromSession
  destinationSession := input.toSession
  state := .pending
  priority := input.priority.getD source.priority
  tier := input.tier <|> source.tier
  tags := withHumanAlertTag (input.tags <|> source.tags) input.humanAlert
  handedOffFrom := some source.qitemId
  chainOfRecord := some (source.chainOfRecord.getD [] ++ [source.qitemId])
  body := input.body.getD source.body
  targetRepo := input.targetRepo.getD source.targetRepo
  summary := input.summary
  evidenceRef := input.evidenceRef
  humanIntent := carried.map fun _ => .decision
  humanQuestions := carried
  mintingGeneration := env.resolveOccupantGeneration input.fromSession

/-- The close leg on the source: the row, its transition and the end of its park timer. -/
def closeSource (env : Env) (db : Db) (terminalState : QueueState)
    (qitemId fromSession toSession closureTarget : String) (note : String)
    (identityProvenance identityPrincipal : Option String) : Db :=
  let db := db.updateRow qitemId (closeRow env.now terminalState toSession closureTarget)
  let db := db.append env.now
    { qitemId, state := terminalState, actorSession := fromSession,
      transitionNote := some note, closureReason := some .handedOffTo,
      closureTarget := some closureTarget, identityProvenance, identityPrincipal }
  retireParkGeneratedTimer db qitemId ("park_ended:" ++ terminalState.text)

def handoffWith (variant : HandoffVariant) (env : Env) (db : Db) (input : QueueHandoffInput) :
    Result Db := do
  let source ← requireOpenSource db input.qitemId
  validateDestination env "to_session" input.toSession
  assertHumanAlert env input.humanAlert input.toSession none
  validateHumanRoute (input.tier <|> source.tier) input.toSession input.summary input.evidenceRef
  let newId := newQitemId env
  let db := closeSource env db variant.terminalState source.qitemId input.fromSession
    input.toSession input.toSession
    (input.transitionNote.getD (variant.sourceNote ++ input.toSession))
    input.identityProvenance input.identityPrincipal
  let carried := carriedQuestions env db source input.toSession
  let db ← db.insertRow (successorRow env input source carried)
  let db := db.append env.now
    { qitemId := newId, state := .pending, actorSession := input.fromSession,
      transitionNote := some (variant.successorNote ++ source.qitemId),
      identityProvenance := if variant.stampSuccessor then input.identityProvenance else none,
      identityPrincipal := if variant.stampSuccessor then input.identityPrincipal else none,
      ownerNotification := classifyOwnerNotification env
        { create := true, destinationSession := input.toSession, nextState := .pending,
          humanAlert := input.humanAlert <|> if carried.isSome then some true else none } }
  let db ← stageHandoffWake env db newId input.fromSession input.toSession
    (sideEffectProvenance input.identityProvenance) input.nudge
  let db := db.emit (.handedOff source.qitemId input.fromSession input.toSession source.summary)
  let db ← propagateBlockerCompletion env
    { qitemId := source.qitemId, terminalState := variant.terminalState,
      actorSession := input.fromSession,
      identityProvenance := sideEffectProvenance input.identityProvenance } db
  let db := db.emit (.created newId input.fromSession input.toSession
    (input.priority.getD source.priority) (input.tier <|> source.tier) input.summary)
  assertTerminalClosureHasIntent env db source.qitemId newId input.nudge
  return db

/-- `handoff`: the source ends handed-off. -/
def handoff : Env → Db → QueueHandoffInput → Result Db :=
  handoffWith { terminalState := .handedOff, sourceNote := "handed off to ",
                successorNote := "handoff from ", stampSuccessor := true }

/-- `handoffAndComplete`: the source ends done, and the successor's transition is unstamped. -/
def handoffAndComplete : Env → Db → QueueHandoffInput → Result Db :=
  handoffWith { terminalState := .done, sourceNote := "handoff-and-complete to ",
                successorNote := "handoff-and-complete from ", stampSuccessor := false }

/-! ### The local half of a cross-host handoff -/

inductive CloseState where
  | handedOff | done
  deriving DecidableEq, Repr

def CloseState.toQueueState : CloseState → QueueState
  | .handedOff => .handedOff
  | .done => .done

structure CrossHostCloseInput where
  qitemId : String
  fromSession : String
  toSession : String
  /-- The host-qualified successor, `<qitem-id>@<host>`. -/
  closureTarget : String
  terminalState : CloseState
  transitionNote : Option String := none
  identityProvenance : Option String := none

/-- `closeCrossHostHandoffSource`: whether the close was absorbed as a re-drive, and the
tables. -/
def closeCrossHostHandoffSource (env : Env) (db : Db) (input : CrossHostCloseInput) :
    Result (Bool × Db) := do
  let source ← requireItem db input.qitemId
  if source.state.isTerminalState then
    if source.closureTarget = some input.closureTarget then return (true, db)
    else
      refuse .crossHostCloseConflict
        ("qitem " ++ input.qitemId ++ " is already closed toward " ++
          source.closureTarget.getD "<no closure_target>" ++ " — this re-drive names " ++
          input.closureTarget ++ "; surfacing the conflict, never overwriting")
        [("qitemId", input.qitemId), ("existingClosureTarget", source.closureTarget.getD "null"),
         ("attemptedClosureTarget", input.closureTarget)]
  else
    let terminalState := input.terminalState.toQueueState
    let db := closeSource env db terminalState input.qitemId input.fromSession input.toSession
      input.closureTarget
      (input.transitionNote.getD ("cross-host handoff to " ++ input.toSession))
      input.identityProvenance none
    let db := db.emit (.handedOff input.qitemId input.fromSession input.toSession source.summary)
    let db ← propagateBlockerCompletion env
      { qitemId := input.qitemId, terminalState, actorSession := input.fromSession,
        identityProvenance := sideEffectProvenance input.identityProvenance } db
    return (false, db)

end OpenRig.Handoff
