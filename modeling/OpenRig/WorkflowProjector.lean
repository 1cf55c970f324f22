import OpenRig.WorkflowRouting

/-!
The two executors of a projected exit.

`project` reads an instance, its packet and its step, refuses an exit the step does not allow,
and closes the packet, creates the next packets, and writes the frontier, the trail and the
decision in one transaction. A spec that declares a dependency takes the graph executor, which
binds each packet to its step; any other spec takes the serial one, which holds one current step.
-/

namespace OpenRig.WorkflowProjector

open OpenRig.JsText OpenRig.Sessions OpenRig.Closure OpenRig.QueueDb OpenRig.Outbox
open OpenRig.Verbs OpenRig.Update OpenRig.WorkflowTypes OpenRig.WorkflowStore
open OpenRig.WorkflowRouting

/-! ### Events and results -/

inductive WorkflowEvent where
  | instantiated (instanceId workflowName workflowVersion createdBy : String)
  | stepClosed (instanceId stepId : String) (closureReason : WorkflowExitKind)
      (actorSession priorQitemId : String)
  | nextQitemProjected (instanceId nextQitemId nextOwner nextStepId : String)
  | completed (instanceId workflowName : String)
  | failed (instanceId workflowName reason : String)
  | resumed (instanceId workflowName stepId resumedBy : String)
      (occurrenceId decision : Option String) (resumeCount : ℕ)
  | routed (instanceId : String) (stepId : Option String) (from_ to_ : String)
  | revised (instanceId workflowName operationKey compiledInputDigest revisedBy : String)
  deriving DecidableEq

/-- What a projection reports, and the events it persisted. -/
structure ProjectStepResult where
  closurePriorPacketId : String
  closureReason : WorkflowExitKind
  nextQitemIds : List String := []
  nextOwnerSession : Option String := none
  nextStepIds : List String := []
  events : List WorkflowEvent := []
  absorbedReplay : Bool := false
  advisories : List String := []

abbrev Projected := Outcome (ProjectStepResult × InstanceRow × Db)

/-! ### Reading the call -/

/-- `resolveCurrentStep`: the stored step, else the entry. -/
def resolveCurrentStep (spec : WorkflowSpec) (i : InstanceRow) : Option WorkflowStepSpec :=
  match i.currentStepId with
  | none | some "" => spec.steps.head?
  | some id => spec.step? id

/-- The step a packet stands for: its binding's, or the current one of a single packet. -/
def stepOfPacket (i : InstanceRow) (packetId : String) : Option WorkflowStepSpec :=
  match i.getFrontierBinding packetId with
  | some b => i.boundSpec.step? b.stepId
  | none => if i.currentFrontier.length = 1 then resolveCurrentStep i.boundSpec i else none

/-- The recorded note of a close that advances past a human who has not answered. -/
def unansweredHumanGate (step : WorkflowStepSpec) (packet : QueueItem) (input : ProjectStepInput) :
    Option String :=
  match step.gate with
  | none => none
  | some gate =>
    if input.exit.completes && isHumanSeatSession gate.target && packet.state = .blocked &&
        packet.blockedOn = some gate.target then
      some (s!"Packet {input.currentPacketId} is still blocked on {gate.target}; advancing past " ++
        "an unanswered human gate. This transition does not record their consent.")
    else none

def statusText : InstanceStatus → String
  | .active => "active"
  | .waiting => "waiting"
  | .completed => "completed"
  | .failed => "failed"
  | .aborted => "aborted"

def jsonOrNull (s : Option String) : String :=
  ((s.map fun t => String.ofList (jsonString t))).getD "null"

/-- The checks of `project` before an executor is chosen: the packet and the step it closes. -/
def admitProjection (db : Db) (i : InstanceRow) (input : ProjectStepInput) :
    Outcome (QueueItem × WorkflowStepSpec) := do
  rejectIf (!i.status.isLive) .instanceNotActive
    (s!"workflow instance {i.instanceId} has status {statusText i.status}; only active|waiting " ++
      "instances accept project")
  rejectIf (!i.currentFrontier.contains input.currentPacketId) .packetNotOnFrontier
    (s!"qitem {input.currentPacketId} is not in workflow instance {i.instanceId} frontier " ++
      String.ofList (jsonArray i.currentFrontier) ++
      "; either the packet is already closed or belongs to a different instance")
  match db.getById input.currentPacketId with
  | none =>
    reject .packetNotFound s!"qitem {input.currentPacketId} not found in queue_items"
  | some packet =>
    match stepOfPacket i input.currentPacketId with
    | none =>
      reject .currentStepUnknown
        (s!"workflow instance {i.instanceId} has no resolvable current step (current_step_id=" ++
          jsonOrNull i.currentStepId ++ "). The instance may be in a terminal state, or the " ++
          s!"spec {i.workflowName}@{i.workflowVersion} may have changed shape mid-instance.")
    | some step => do
      rejectIf (!step.admits input.exit) .exitNotAllowed
        (s!"step \"{step.id}\" allows exits " ++
          String.ofList (jsonArray ((step.allowedExits.getD []).map WorkflowExitKind.text)) ++
          s!"; got \"{input.exit.text}\". Either close with a permitted exit, or amend the spec.")
      rejectIf (i.requiredLifecycleSteps.contains step.id && input.exit.completes &&
          !nonBlank ((input.closureEvidence.bind fun e => e.get? "evidence_ref").bind
            Json.asText?)) .lifecycleReceiptRequired
        (s!"Boundary step \"{step.id}\" needs an agent-judged receipt. Supply --evidence-ref; a " ++
          "terminal queue row is not acceptance.")
      validateAcceptance step input
      return (packet, step)

/-- `matchesStoredWaitingDecision`: the stored decision and the trail row of the packet's latest
wait carry every field of the intent. -/
def matchesStoredWaitingDecision (i : InstanceRow) (input : ProjectStepInput)
    (currentStepId : String) : Bool :=
  match i.lastContinuationDecision with
  | none => false
  | some stored =>
    stored.exit = some .waiting && stored.closedPacket = some input.currentPacketId &&
      stored.currentStep = some currentStepId && stored.actorSession = input.actorSession &&
      stored.resultNote = input.resultNote &&
      stored.blockedOn.getD externalGate = input.blockedOn.getD externalGate &&
      match i.listTrail.find? fun t =>
          t.priorQitemId = input.currentPacketId && t.closureReason = .waiting with
      | none => false
      | some row => sameRecord row.closureEvidence input.closureEvidence

def absorbs (i : InstanceRow) (input : ProjectStepInput) (currentStepId : String) : Bool :=
  input.exit = .waiting && i.status = .waiting &&
    matchesStoredWaitingDecision i input currentStepId

/-- The result of an absorbed replay: nothing was written. -/
def absorbedResult (input : ProjectStepInput) : ProjectStepResult :=
  { closurePriorPacketId := input.currentPacketId, closureReason := .waiting,
    absorbedReplay := true }

/-! ### Writes both executors make -/

/-- `[...].filter(Boolean).join("; ")`. -/
def joinNotes (notes : List (Option String)) : String :=
  "; ".intercalate ((notes.filter truthy).map fun n => n.getD "")

/-- The close of the current packet. A wait that routes nowhere parks under the step's
re-presentation rule. -/
def closeCurrentPacket (env : WorkflowEnv) (db : Db) (i : InstanceRow) (input : ProjectStepInput)
    (step : WorkflowStepSpec) (closure : QueueClosure) (parks : Bool) (advisory : Option String)
    (ownerSession : String) : Outcome Db :=
  inQueue (update (env.at 0) db
    { qitemId := input.currentPacketId
      actorSession := input.actorSession
      identityProvenance := input.identityProvenance
      viaWorkflowVerb := true
      state := some closure.state
      closureReason := some closure.closureReason
      closureTarget := closure.closureTarget
      handedOffTo := closure.handedOffTo
      blockedOn := closure.blockedOn
      transitionNote := some (joinNotes [some closure.transitionNote, advisory])
      wakeMaxSeconds := if parks then step.rePresentMaxSeconds else none
      wakeProgressEvidence := input.closureEvidence.map env.stringify
      wakeAfterSeconds := if parks then step.rePresentAfterSeconds else none
      wakeMessage :=
        if parks && step.rePresentAfterSeconds.isSome then
          some (env.waitWakeMessage i step input.currentPacketId ownerSession)
        else none })

/-- The packet of a step: its row, its wake and, behind a human gate, its park. `k` numbers the
write within the call. -/
def createStepPacket (env : WorkflowEnv) (k : ℕ) (db : Db) (i : InstanceRow)
    (input : ProjectStepInput) (currentStep step : WorkflowStepSpec) (note : Option String)
    (gate : Option GateCompileResult) (owner packetId : String) (tags : List String) :
    Outcome Db := do
  let db ← inQueue (createWithinTransaction (env.at k) db
    { qitemId := some packetId
      sourceSession := input.actorSession
      identityProvenance := input.identityProvenance
      destinationSession := owner
      body := env.handoffBody i currentStep step input.actorSession note gate packetId owner
      priority := some "routine"
      tier := some ((gate.bind (·.tier)).getD "mode2")
      tags := some tags
      summary := gate.bind (·.summary)
      evidenceRef := gate.bind (·.evidenceRef)
      chainOfRecord := some [input.currentPacketId] })
  let db ← inQueue (stageHandoffWake env.base db packetId input.actorSession owner
    input.identityProvenance none)
  match gate.bind (·.parkOn) with
  | none => return db
  | some parkOn =>
    inQueue (update (env.at k) db
      { qitemId := packetId
        actorSession := input.actorSession
        identityProvenance := input.identityProvenance
        state := some .blocked
        closureReason := some "blocked_on"
        closureTarget := some parkOn
        blockedOn := some parkOn
        transitionNote := some s!"workflow gate: parked on {parkOn} pending sign-off" })

def packetTags (i : InstanceRow) (gate : Option GateCompileResult) (extra : List String)
    (stepId : String) : List String :=
  ["workflow", if gate.isSome then "gate" else "handoff", "workflow:" ++ i.workflowName,
    "instance:" ++ i.instanceId] ++ extra ++ packetScopeTags i.scope stepId

/-! ### The serial executor -/

structure SerialRoute where
  step : WorkflowStepSpec
  owner : String
  gate : Option GateCompileResult

/-- The owner of the next step: a gate's destination, the caller's choice, or the default. -/
def routeTo (env : WorkflowEnv) (i : InstanceRow) (input : ProjectStepInput)
    (nextStep : WorkflowStepSpec) : Outcome SerialRoute :=
  let roleCtx := roleContext i.boundRig
  if nextStep.gate.isSome then do
    let gate ← compileGate env i.boundSpec nextStep roleCtx
    return ⟨nextStep, gate.destinationSession, some gate⟩
  else match input.nextOwnerSession.filter (· ≠ "") with
    | some owner => do
      reconcileExplicitOwnerHarness env nextStep owner
      return ⟨nextStep, owner, none⟩
    | none => do
      let owner ← requireOwner (← resolveDefaultOwner env i.boundSpec nextStep roleCtx)
        .nextOwnerUnresolved
        (s!"cannot resolve next owner for step \"{nextStep.id}\" (role " ++
          s!"\"{nextStep.actorRole}\"); supply nextOwnerSession explicitly or add " ++
          "preferred_targets to the role in the spec")
      return ⟨nextStep, owner, none⟩

/-- `owner_resolution`: which tier resolved the routing decision. -/
def ownerResolution (i : InstanceRow) (input : ProjectStepInput) (r : SerialRoute) : Json :=
  Json.ofFields ([("mode", Json.str
      (if r.gate.isSome then "gate"
      else if truthy input.nextOwnerSession then "explicit"
      else if !(i.boundSpec.preferredTargets r.step.actorRole).isEmpty then "preferred_targets"
      else "role")), ("role", .str r.step.actorRole)] ++
    (if truthy i.boundRig then [("boundRig", Json.ofText? i.boundRig)] else []) ++
    [("seat", .str r.owner)])

structure SerialPlan where
  tripped : Bool
  effectiveExit : WorkflowExitKind
  resultNote : Option String
  evidence : Option Record
  route : Option SerialRoute
  branchTaken : Option String

/-- The exit, its route and the hop guard: a mapped exit or a handoff routes, unless the guard
trips and the close becomes a failure. -/
def planSerial (env : WorkflowEnv) (i : InstanceRow) (input : ProjectStepInput)
    (step : WorkflowStepSpec) (nextStep : Option WorkflowStepSpec) : Outcome SerialPlan := do
  let branchRouted := (step.branchTarget input.exit).isSome
  let willRoute := branchRouted || input.exit = .handoff
  if willRoute && exceedsMaxHops i.hopCount i.hopsBaseline i.boundSpec.maxHops then
    return { tripped := true, effectiveExit := .failed,
             resultNote := some (maxHopsNote i.boundSpec.maxHops i.hopCount),
             evidence :=
               some (maxHopsEvidence input.closureEvidence i.boundSpec.maxHops i.hopCount),
             route := none, branchTaken := none }
  else if !willRoute then
    return { tripped := false, effectiveExit := input.exit, resultNote := input.resultNote,
             evidence := input.closureEvidence, route := none, branchTaken := none }
  else match nextStep with
    | none =>
      reject .noNextStep
        (s!"workflow instance {i.instanceId} reached terminal step \"{step.id}\" but exit was " ++
          "handoff; use exit=done for terminal steps or extend the spec with a next step")
    | some next => do
      let route ← routeTo env i input next
      let evidence := if branchRouted then
          some (spread input.closureEvidence "branch_taken"
            (Json.ofFields [("exit", .str input.exit.text), ("target", .str next.id)]))
        else input.closureEvidence
      return { tripped := false, effectiveExit := input.exit, resultNote := input.resultNote,
               evidence, route := some route,
               branchTaken := if branchRouted then some next.id else none }

def admitSerialFailure (env : WorkflowEnv) (db : Db) (i : InstanceRow) (input : ProjectStepInput)
    (step : WorkflowStepSpec) (plan : SerialPlan) (nextStatus : InstanceStatus) :
    Outcome (Option String × Db) :=
  if nextStatus = .failed then do
    let (id, db) ← admitFailureException env db i input step plan.resultNote none 2
    return (some id, db)
  else .ok (none, db)

/-- The keepalive of a serial close: armed for the next owner, disarmed on a terminal status. -/
def settleSerialKeepalive (env : WorkflowEnv) (db : Db) (i : InstanceRow)
    (input : ProjectStepInput) (plan : SerialPlan) (nextStatus : InstanceStatus) : Outcome Db :=
  match plan.route.filter fun r => r.owner ≠ "" with
  | some r => ensureWorkflowKeepaliveArmed env 1 db i.instanceId r.owner input.actorSession none
  | none =>
    if nextStatus = .completed || nextStatus = .failed then
      .ok (disarmWorkflowKeepalive env db i.instanceId ("workflow_" ++ statusText nextStatus) none)
    else .ok db

def createSerialNext (env : WorkflowEnv) (db : Db) (i : InstanceRow) (input : ProjectStepInput)
    (step : WorkflowStepSpec) (plan : SerialPlan) (created : Option (SerialRoute × String)) :
    Outcome Db :=
  match created with
  | none => .ok db
  | some (r, packetId) =>
    createStepPacket env 1 db i input step r.step plan.resultNote r.gate r.owner packetId
      (packetTags i r.gate (gateExceptionTags i r.gate r.step.id packetId) r.step.id)

def closeSerialRow (i : InstanceRow) (input : ProjectStepInput) (step : WorkflowStepSpec)
    (plan : SerialPlan) (created : Option (SerialRoute × String)) (now : Time) : InstanceRow :=
  let nextPacket := created.map Prod.snd
  let remaining := i.currentFrontier.filter (· ≠ input.currentPacketId)
  let nextFrontier := match nextPacket with
    | some p => remaining ++ [p]
    | none => if plan.effectiveExit = .waiting then remaining ++ [input.currentPacketId]
      else remaining
  let nextStatus : InstanceStatus := match plan.route with
    | some r => if r.gate.isSome then .waiting else .active
    | none =>
      if plan.effectiveExit = .waiting then .waiting
      else if plan.effectiveExit = .failed then .failed
      else if nextFrontier.isEmpty then .completed
      else .active
  (i.recordTrail
    { stepId := step.id, stepRole := step.actorRole, closedAt := now,
      closureReason := plan.effectiveExit
      closureEvidence := match created with
        | none => plan.evidence
        | some (r, _) => some (spread plan.evidence "owner_resolution" (ownerResolution i input r))
      actorSession := input.actorSession, nextQitemId := nextPacket,
      priorQitemId := input.currentPacketId }).updateFrontier
    { nextFrontier, nextStatus
      bumpHopCount := plan.route.isSome
      lastContinuationDecision := some (.closed plan.effectiveExit input.actorSession
        input.currentPacketId step.id nextPacket plan.resultNote input.blockedOn plan.branchTaken)
      completedAt := if nextStatus = .failed || nextStatus = .completed then some now else none
      currentStepId := match plan.route with
        | some r => .set r.step.id
        | none => if plan.effectiveExit = .waiting then .preserve else .clear }

def commitSerial (env : WorkflowEnv) (db : Db) (i : InstanceRow) (input : ProjectStepInput)
    (packet : QueueItem) (step : WorkflowStepSpec) (plan : SerialPlan) : Projected := do
  let advisory := unansweredHumanGate step packet input
  let closure ← workflowExitToQueueClosure plan.effectiveExit plan.resultNote input.blockedOn
    (plan.route.map (·.owner))
  let db ← closeCurrentPacket env db i input step closure
    (plan.effectiveExit = .waiting && plan.route.isNone) advisory packet.destinationSession
  -- the source tests the owner for truth before it creates the packet
  let created := (plan.route.filter fun r => r.owner ≠ "").map fun r =>
    (r, newQitemId (env.at 1))
  let db ← createSerialNext env db i input step plan created
  let i' := closeSerialRow i input step plan created env.base.now
  let db ← settleSerialKeepalive env db i input plan i'.status
  let (exception, db) ← admitSerialFailure env db i input step plan i'.status
  if let some successor := created.map Prod.snd <|> exception then
    inQueue (assertTerminalClosureHasIntent env.base db input.currentPacketId successor none)
  let events := [WorkflowEvent.stepClosed i.instanceId step.id plan.effectiveExit
      input.actorSession input.currentPacketId] ++
    (created.map fun (r, p) =>
      WorkflowEvent.nextQitemProjected i.instanceId p r.owner r.step.id).toList ++
    (if i'.status = .completed then [.completed i.instanceId i.workflowName] else []) ++
    (if i'.status = .failed then
      [.failed i.instanceId i.workflowName (plan.resultNote.getD "workflow_step_failed")] else [])
  return ({ closurePriorPacketId := input.currentPacketId, closureReason := plan.effectiveExit,
            nextQitemIds := (created.map Prod.snd).toList,
            nextOwnerSession := created.map (·.1.owner),
            nextStepIds := (created.map (·.1.step.id)).toList, events,
            advisories := advisory.toList }, i', db)

def projectSerial (env : WorkflowEnv) (db : Db) (i : InstanceRow) (input : ProjectStepInput)
    (packet : QueueItem) (step : WorkflowStepSpec) : Projected := do
  let nextStep := resolveNextStep i.boundSpec step (some input.exit)
  rejectIf ((step.branchTarget input.exit).isSome && nextStep.isNone) .branchTargetMissing
    (s!"step \"{step.id}\" maps exit \"{input.exit.text}\" to step \"" ++
      (step.branchTarget input.exit).getD "" ++
      s!"\" but the spec {i.workflowName}@{i.workflowVersion} has no such step. Re-validate the " ++
      "spec file.")
  if absorbs i input step.id then return (absorbedResult input, i, db)
  else
    let plan ← planSerial env i input step nextStep
    commitSerial env db i input packet step plan

/-! ### The dependency graph executor -/

/-- `latestCompletion.get(stepId) ?? 0`: one more than the index of the step's last done or
handoff closure, in append order. -/
def latestCompletion (trail : List WorkflowStepTrailEntry) (stepId : String) : ℕ :=
  trail.zipIdx.foldl
    (fun rank (entry, index) =>
      if entry.closureReason.completes && entry.stepId = stepId then index + 1 else rank) 0

/-- The ranks with the close of the current step, which its trail row records later. -/
def completionRank (i : InstanceRow) (currentStepId : String) (exit : WorkflowExitKind)
    (stepId : String) : ℕ :=
  if exit.completes && stepId = currentStepId then i.trail.length + 1
  else latestCompletion i.trail stepId

/-- `completed.has(stepId)`: a completion older than a prerequisite's no longer counts. -/
def isCompleted (spec : WorkflowSpec) (rank : String → ℕ) (stepId : String) : Bool :=
  0 < rank stepId &&
    (((spec.step? stepId).map WorkflowStepSpec.prerequisites).getD []).all fun dependency =>
      rank dependency < rank stepId

/-- A step whose prerequisites the current close has just finished. -/
def isReady (i : InstanceRow) (rank : String → ℕ) (currentStepId : String)
    (candidate : WorkflowStepSpec) : Bool :=
  !candidate.prerequisites.isEmpty && candidate.prerequisites.contains currentStepId &&
    candidate.prerequisites.all (isCompleted i.boundSpec rank) &&
    !isCompleted i.boundSpec rank candidate.id && !i.liveStepIds.contains candidate.id &&
    !i.unresolvedStepIds.contains candidate.id

/-- `mappedTarget`, as the source's truth test reads it. -/
def mappedTarget (step : WorkflowStepSpec) (exit : WorkflowExitKind) : Option String :=
  (step.branchTarget exit).filter (· ≠ "")

/-- `nextSteps`: the mapped target, or the steps a completion makes ready. -/
def nextSteps (i : InstanceRow) (step : WorkflowStepSpec) (exit : WorkflowExitKind) :
    Outcome (List WorkflowStepSpec) :=
  match mappedTarget step exit with
  | some target =>
    match i.boundSpec.step? target with
    | some next => .ok [next]
    | none =>
      reject .branchTargetMissing
        s!"step \"{step.id}\" maps {exit.text} to missing step \"{target}\""
  | none =>
    if exit.completes then
      .ok (i.boundSpec.steps.filter (isReady i (completionRank i step.id exit) step.id))
    else .ok []

structure OwnerPlan where
  step : WorkflowStepSpec
  gate : Option GateCompileResult
  owner : String
  packetId : String

def gateAndOwner (env : WorkflowEnv) (i : InstanceRow) (step : WorkflowStepSpec) :
    Outcome (Option GateCompileResult × Option String) :=
  let roleCtx := roleContext i.boundRig
  if step.gate.isSome then do
    let gate ← compileGate env i.boundSpec step roleCtx
    return (some gate, some gate.destinationSession)
  else do
    let owner ← resolveDefaultOwner env i.boundSpec step roleCtx
    return (none, owner)

def planOwner (env : WorkflowEnv) (i : InstanceRow) (k : ℕ) (step : WorkflowStepSpec) :
    Outcome OwnerPlan := do
  let (gate, owner) ← gateAndOwner env i step
  let owner ← requireOwner owner .nextOwnerUnresolved
    s!"cannot resolve next owner for dependency step \"{step.id}\""
  return ⟨step, gate, owner, newQitemId (env.at (k + 1))⟩

def planOwners (env : WorkflowEnv) (i : InstanceRow) : ℕ → List WorkflowStepSpec →
    Outcome (List OwnerPlan)
  | _, [] => .ok []
  | k, step :: rest => do
    let plan ← planOwner env i k step
    let plans ← planOwners env i (k + 1) rest
    return plan :: plans

/-- The binding of a planned successor: one hop on, in its parent's window. -/
def OwnerPlan.binding (plan : OwnerPlan) (parent : WorkflowFrontierBinding) (fanOut : Bool)
    (now : Time) : WorkflowFrontierBinding where
  packetId := plan.packetId
  stepId := plan.step.id
  branchDrive := parent.branchDrive + if fanOut then 1 else 0
  hopCount := parent.hopCount + 1
  hopsBaseline := parent.hopsBaseline
  createdAt := now

/-- The loop over the planned successors: packet, binding and keepalive of each. -/
def projectPlans (env : WorkflowEnv) (instance_ : InstanceRow) (input : ProjectStepInput)
    (currentStep : WorkflowStepSpec) (parent : WorkflowFrontierBinding) (note : Option String)
    (fanOut : Bool) : ℕ → List OwnerPlan → InstanceRow → Db → Outcome (InstanceRow × Db)
  | _, [], i, db => .ok (i, db)
  | k, plan :: rest, i, db => do
    let db ← createStepPacket env (k + 1) db instance_ input currentStep plan.step note plan.gate
      plan.owner plan.packetId
      (packetTags instance_ plan.gate ["step:" ++ plan.step.id] plan.step.id)
    let i ← i.bindFrontierPacket (plan.binding parent fanOut env.base.now)
    let db ← ensureWorkflowKeepaliveArmed env (k + 1) db i.instanceId plan.owner
      input.actorSession (some plan.packetId)
    projectPlans env instance_ input currentStep parent note fanOut (k + 1) rest i db

structure GraphPlan where
  effectiveExit : WorkflowExitKind
  resultNote : Option String
  evidence : Option Record
  next : List WorkflowStepSpec
  isFailureOccurrence : Bool

/-- The successors and the branch's hop guard: an advance that would pass the guard becomes the
ordinary branch-local failure. -/
def planGraph (i : InstanceRow) (input : ProjectStepInput) (step : WorkflowStepSpec)
    (binding : WorkflowFrontierBinding) : Outcome GraphPlan := do
  let next ← nextSteps i step input.exit
  if !next.isEmpty && exceedsMaxHops binding.hopCount binding.hopsBaseline i.boundSpec.maxHops then
    return { effectiveExit := .failed
             resultNote := some (maxHopsNote i.boundSpec.maxHops binding.hopCount)
             evidence := some (maxHopsEvidence input.closureEvidence i.boundSpec.maxHops
               binding.hopCount)
             next := [], isFailureOccurrence := true }
  else
    return { effectiveExit := input.exit, resultNote := input.resultNote,
             evidence := input.closureEvidence, next
             isFailureOccurrence := input.exit = .failed && (mappedTarget step input.exit).isNone }

/-- The queue closure of a graph close: a handoff without exactly one successor is done. -/
def graphClosure (input : ProjectStepInput) (step : WorkflowStepSpec) (plan : GraphPlan)
    (plans : List OwnerPlan) : Outcome QueueClosure :=
  if plan.effectiveExit = .handoff && plans.length ≠ 1 then
    .ok { state := .done, closureReason := "no-follow-on", closureTarget := none,
          transitionNote := s!"workflow graph: {input.actorSession} completed {step.id}; " ++
            s!"{plans.length} successors projected transactionally" }
  else
    workflowExitToQueueClosure plan.effectiveExit plan.resultNote input.blockedOn
      (if plans.length = 1 then plans.head?.map (·.owner) else none)

/-- `packetRows.every(packet => packet?.state === "blocked")`. -/
def allBlocked (db : Db) (frontier : List String) : Bool :=
  frontier.all fun p => (db.getById p).any fun r => r.state = .blocked

/-- The status of a graph instance: live while a packet is on the frontier. -/
def graphStatus (db : Db) (i : InstanceRow) (frontier : List String) : InstanceStatus :=
  if !frontier.isEmpty then if allBlocked db frontier then .waiting else .active
  else if !(i.listFailureOccurrences (some .unresolved)).isEmpty then .failed
  else .completed

def singletonStep (i : InstanceRow) : StepIdUpdate :=
  match i.listFrontierBindings with
  | [b] => .set b.stepId
  | _ => .clear

def failureOccurrence (input : ProjectStepInput) (binding : WorkflowFrontierBinding)
    (stepId : String) (failureReason : Option String) (now : Time) :
    WorkflowFailureOccurrence where
  occurrenceId := input.currentPacketId
  failedPacketId := input.currentPacketId
  stepId := stepId
  branchDrive := binding.branchDrive
  hopCount := binding.hopCount
  hopsBaseline := binding.hopsBaseline
  failureReason := failureReason
  status := .unresolved
  redrivePacketId := none
  resumeDecision := none
  failedAt := now
  resolvedAt := none

def closeGraphRow (i : InstanceRow) (input : ProjectStepInput) (step : WorkflowStepSpec)
    (plan : GraphPlan) (created : List String) (db : Db) (now : Time) : InstanceRow :=
  let remaining := i.currentFrontier.filter (· ≠ input.currentPacketId)
  let nextFrontier := remaining ++
    if plan.effectiveExit = .waiting then [input.currentPacketId] else created
  let nextStatus := graphStatus db i nextFrontier
  (i.updateFrontier
    { nextFrontier, nextStatus
      bumpHopCount := !created.isEmpty
      currentStepId := singletonStep i
      completedAt := if nextStatus = .completed || nextStatus = .failed then some now else none
      lastContinuationDecision := some (.advanced plan.effectiveExit input.actorSession
        input.currentPacketId step.id created) }).recordTrail
    { stepId := step.id, stepRole := step.actorRole, closedAt := now,
      closureReason := plan.effectiveExit
      closureEvidence := some (spread plan.evidence "next_qitem_ids"
        (Json.ofItems (created.map .str)))
      actorSession := input.actorSession, nextQitemId := created.head?,
      priorQitemId := input.currentPacketId }

def recordFailure (env : WorkflowEnv) (db : Db) (i : InstanceRow) (input : ProjectStepInput)
    (step : WorkflowStepSpec) (binding : WorkflowFrontierBinding) (plan : GraphPlan) (k : ℕ) :
    Outcome (Option String × InstanceRow × Db) :=
  if plan.isFailureOccurrence then do
    let i' ← i.recordFailureOccurrence
      (failureOccurrence input binding step.id plan.resultNote env.base.now)
    let (id, db) ← admitFailureException env db i input step plan.resultNote
      (some input.currentPacketId) k
    return (some id, i', db)
  else .ok (none, i, db)

def commitGraph (env : WorkflowEnv) (db : Db) (i : InstanceRow) (input : ProjectStepInput)
    (packet : QueueItem) (step : WorkflowStepSpec) (binding : WorkflowFrontierBinding)
    (plan : GraphPlan) : Projected := do
  let advisory := unansweredHumanGate step packet input
  let plans ← planOwners env i 0 plan.next
  let closure ← graphClosure input step plan plans
  let db ← closeCurrentPacket env db i input step closure
    (plan.effectiveExit = .waiting && plans.isEmpty) advisory packet.destinationSession
  let (left, db) :=
    if plan.effectiveExit = .waiting then (i, db)
    else (i.removeFrontierBinding input.currentPacketId,
      disarmWorkflowKeepalive env db i.instanceId ("workflow_packet_" ++ plan.effectiveExit.text)
        (some input.currentPacketId))
  let (bound, db) ← projectPlans env i input step binding plan.resultNote (1 < plans.length) 0
    plans left db
  let (exception, recorded, db) ← recordFailure env db bound input step binding plan
    (plans.length + 1)
  let created := plans.map (·.packetId)
  let i' := closeGraphRow recorded input step plan created db env.base.now
  if let some id := exception then
    inQueue (assertTerminalClosureHasIntent env.base db input.currentPacketId id none)
  let events := (plans.map fun p =>
      WorkflowEvent.nextQitemProjected i.instanceId p.packetId p.owner p.step.id) ++
    [.stepClosed i.instanceId step.id plan.effectiveExit input.actorSession
      input.currentPacketId] ++
    (if i'.status = .completed then [.completed i.instanceId i.workflowName] else []) ++
    (if i'.status = .failed then
      [.failed i.instanceId i.workflowName (plan.resultNote.getD "workflow_step_failed")] else [])
  return ({ closurePriorPacketId := input.currentPacketId, closureReason := plan.effectiveExit,
            nextQitemIds := created, nextOwnerSession := plans.head?.map (·.owner),
            nextStepIds := plans.map (·.step.id), events, advisories := advisory.toList }, i', db)

def projectDependencyGraph (env : WorkflowEnv) (db : Db) (i : InstanceRow)
    (input : ProjectStepInput) (packet : QueueItem) (step : WorkflowStepSpec)
    (binding : WorkflowFrontierBinding) : Projected :=
  if absorbs i input step.id then .ok (absorbedResult input, i, db)
  else do
    let plan ← planGraph i input step binding
    commitGraph env db i input packet step binding plan

/-! ### Projection -/

def project (env : WorkflowEnv) (db : Db) (i : InstanceRow) (input : ProjectStepInput) :
    Projected := do
  let (packet, step) ← admitProjection db i input
  if i.spec.isDependencyGraph then
    match i.getFrontierBinding input.currentPacketId with
    | none =>
      reject .frontierBindingIndeterminate
        (s!"workflow instance {i.instanceId} has a dependency graph but frontier packet " ++
          s!"{input.currentPacketId} has no unique step binding; refusing to infer from " ++
          "current_step_id")
    | some binding => projectDependencyGraph env db i input packet step binding
  else projectSerial env db i input packet step

end OpenRig.WorkflowProjector
