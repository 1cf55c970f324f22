import OpenRig.Json
import OpenRig.QueueDb
import OpenRig.WorkflowTypes

/-!
The workflow tables: an instance with its frontier, the step bindings of its packets, its
failure occurrences and its append-only step trail.

An instance's rows of the other three tables are kept with it; every statement on them names
the instance. The trail is oldest first.
-/

namespace OpenRig.WorkflowStore

open OpenRig.JsText OpenRig.Closure OpenRig.QueueDb OpenRig.WorkflowTypes

/-! ### Refusals -/

/-- The codes of `WorkflowProjectorError`, `WorkflowInstanceError` and `WorkflowSpecError`. -/
inductive WorkflowErrorCode where
  | instanceNotFound | instanceNotActive | packetNotOnFrontier | packetNotFound
  | currentStepUnknown | exitNotAllowed | lifecycleReceiptRequired | acceptancePayloadRequired
  | acceptancePayloadMismatch | frontierBindingIndeterminate | branchTargetMissing | noNextStep
  | nextOwnerUnresolved | boundRigNotFound | harnessPinUnsatisfied | gateMissing
  | gateHumanFieldsMissing | gateOwnerUnresolved | gateTargetUnresolved | gateHandlerUnresolved
  | humanDestinationUnavailable | primaryKeyConflict | failureOccurrenceNotUnresolved
  | failureOccurrenceReplayConflict | failureOccurrenceReplayIndeterminate
  | failureOccurrenceRequired | instanceNotResumable | instanceNotFailed
  | resumeStepUnrecoverable | resumeStepMissingFromSpec | frontierPacketRequired
  | abortReasonRequired | instanceNotAbortable | specInvalid | specNoSteps
  | hostPinRemoteUnsupported | boundRigUnknown | boundRigRoleUncovered | entryOwnerUnresolved
  | lifecycleIdentityInvalid | lifecycleOperationConflict | lifecycleReplayIndeterminate
  | lifecycleNotEligible | lifecycleRevisionConflict | generatedSpecIdentityCollision
  deriving DecidableEq, Repr

/-- A refusal of a workflow call: its own, or one of the queue's. The transaction rolls back. -/
inductive Refusal where
  | workflow (code : WorkflowErrorCode) (message : String)
  | queue (e : QueueRepositoryError)
  deriving DecidableEq

/-- What a workflow call comes to. -/
abbrev Outcome := Except Refusal

/-- `throw new WorkflowProjectorError(code, message)`. -/
def reject {α : Type} (code : WorkflowErrorCode) (message : String) : Outcome α :=
  .error (.workflow code message)

def rejectIf (c : Bool) (code : WorkflowErrorCode) (message : String) : Outcome Unit :=
  if c then reject code message else .ok ()

/-- A queue write inside the call's transaction. -/
def inQueue {α : Type} (x : Result α) : Outcome α := x.mapError .queue

@[simp] lemma reject_eq_ok {α : Type} {code : WorkflowErrorCode} {message : String} {a : α} :
    ((reject code message : Outcome α) = .ok a) = False :=
  eq_false nofun

@[simp] lemma rejectIf_eq_ok {c : Bool} {code : WorkflowErrorCode} {message : String} {u : Unit} :
    rejectIf c code message = .ok u ↔ c = false := by
  cases c <;> simp [rejectIf]

@[simp] lemma inQueue_eq_ok {α : Type} {x : Result α} {a : α} :
    inQueue x = .ok a ↔ x = .ok a := by
  cases x <;> simp [inQueue, Except.mapError]

/-- **Bind inversion** for workflow calls. -/
lemma obind_eq_ok {α β : Type} {x : Outcome α} {f : α → Outcome β} {b : β} :
    (x >>= f) = .ok b ↔ ∃ a, x = .ok a ∧ f a = .ok b := by
  cases x with
  | error e => simp [bind, Except.bind]
  | ok a => simp [bind, Except.bind]

@[simp] lemma opure_eq_ok {α : Type} {a b : α} : (pure a : Outcome α) = .ok b ↔ a = b := by
  simp [pure, Except.pure]

/-! ### Rows -/

/-- A row of `workflow_frontier_bindings`. -/
structure WorkflowFrontierBinding where
  packetId : String
  stepId : String
  branchDrive : ℕ := 0
  hopCount : ℕ := 0
  hopsBaseline : ℕ := 0
  createdAt : Time
  deriving DecidableEq

inductive OccurrenceStatus where
  | unresolved | resolved
  deriving DecidableEq, Repr

/-- A row of `workflow_failure_occurrences`. -/
structure WorkflowFailureOccurrence where
  occurrenceId : String
  failedPacketId : String
  stepId : String
  branchDrive : ℕ
  hopCount : ℕ
  hopsBaseline : ℕ
  failureReason : Option String
  status : OccurrenceStatus
  redrivePacketId : Option String
  resumeDecision : Option String
  failedAt : Time
  resolvedAt : Option Time
  deriving DecidableEq

/-- A row of `workflow_step_trails`. -/
structure WorkflowStepTrailEntry where
  stepId : String
  stepRole : String
  closedAt : Time
  closureReason : WorkflowExitKind
  closureEvidence : Option Record
  actorSession : String
  nextQitemId : Option String
  priorQitemId : String

/-- `lastContinuationDecision`, as each writer stores it. -/
inductive ContinuationDecision where
  /-- A close by the serial executor. -/
  | closed (exit : WorkflowExitKind) (actorSession closedPacket currentStep : String)
      (nextPacket resultNote blockedOn branchTaken : Option String)
  /-- A close by the dependency graph executor. -/
  | advanced (exit : WorkflowExitKind) (actorSession closedPacket currentStep : String)
      (nextPackets : List String)
  | aborted (actorSession reason : String) (closedPacketIds : List String)
  | resumed (occurrenceId redrivePacketId actorSession : String) (decision : Option String)
  deriving DecidableEq

namespace ContinuationDecision

def exit : ContinuationDecision → Option WorkflowExitKind
  | closed e .. | advanced e .. => some e
  | _ => none

def actorSession : ContinuationDecision → String
  | closed _ a .. | advanced _ a .. | aborted a .. | resumed _ _ a _ => a

def closedPacket : ContinuationDecision → Option String
  | closed _ _ p .. | advanced _ _ p .. => some p
  | _ => none

def currentStep : ContinuationDecision → Option String
  | closed _ _ _ s .. | advanced _ _ _ s _ => some s
  | _ => none

/-- Only the serial executor stores the note. -/
def resultNote : ContinuationDecision → Option String
  | closed _ _ _ _ _ n .. => n
  | _ => none

/-- Only the serial executor stores the blocker. -/
def blockedOn : ContinuationDecision → Option String
  | closed _ _ _ _ _ _ b _ => b
  | _ => none

end ContinuationDecision

/-! ### Scope -/

/-- The tags the workflow system writes on its own packets. -/
def reservedTags : List String :=
  ["workflow", "handoff", "gate", "entry", "resume", "re-route", "workflow-exception"]

def reservedPrefixes : List String :=
  ["workflow:", "instance:", "step:", "exception:", "occurrence:", "recovery-for:"]

def isReservedTag (tag : String) : Bool :=
  reservedTags.contains tag || reservedPrefixes.any fun p => startsWith tag p

/-- A normalized scope: no free-form tag is one the workflow system writes. -/
structure WorkflowScope where
  project : Option String := none
  mission : Option String := none
  slice : Option String := none
  tags : List String := []
  stepSlices : List (String × String) := []
  unreserved : tags.all (fun tag => !isReservedTag tag) = true := by decide

/-- `packetScopeTags`: project, mission and slice first, free-form tags after. -/
def packetScopeTags (scope : Option WorkflowScope) (stepId : String) : List String :=
  match scope with
  | none => []
  | some s =>
    let tag := fun (name : String) (value : Option String) =>
      if truthy value then [name ++ value.getD ""] else []
    let out := tag "project:" s.project ++ tag "mission:" s.mission ++
      tag "slice:" (s.slice <|> if stepId = "" then none else s.stepSlices.lookup stepId)
    s.tags.foldl (fun out t => if out.contains t then out else out ++ [t]) out

/-! ### Lifecycle bindings -/

inductive GraphMode where
  | projectProfile | missionExtend | missionOverride | legacyMission | legacySlices
  deriving DecidableEq, Repr

structure LifecycleGraphSource where
  mode : GraphMode := .legacySlices
  profileSource : Option String := none
  missionSource : Option String := none
  requiredSteps : List String := []
  deriving DecidableEq

/-- `LifecycleSourceDigest`: a manifest that was read, by kind and path. -/
structure LifecycleSourceDigest where
  kind : String
  path : String
  sha256 : String
  deriving DecidableEq

/-- One entry of `revisionHistory`. -/
structure RevisionReceipt where
  operationKey : String
  instanceId : String
  expectedVersion : ℕ
  previousDigest : Option String
  previousVersion : String
  compiledInputDigest : String
  workflowVersion : String
  actorSession : String
  reason : String
  at_ : Time
  sourceOnly : Bool
  preservedFrontier : List String
  deriving DecidableEq

/-- `lifecycleBinding`. -/
structure LifecycleBinding where
  sources : List LifecycleSourceDigest
  graphSource : LifecycleGraphSource
  initialInputDigest : Option String
  entryQitemId : Option String := none
  revisionHistory : List RevisionReceipt := []
  deriving DecidableEq

/-! ### Instances -/

/-- A row of `workflow_instances` with the cached spec it names and its rows of the other
tables. -/
structure InstanceRow where
  instanceId : String
  spec : WorkflowSpec
  createdBySession : String
  createdAt : Time
  status : InstanceStatus
  currentFrontier : List String
  currentStepId : Option String
  hopCount : ℕ := 0
  lastContinuationDecision : Option ContinuationDecision := none
  completedAt : Option Time := none
  version : ℕ := 0
  resumeCount : ℕ := 0
  hopsBaseline : ℕ := 0
  boundRig : Option String := none
  scope : Option WorkflowScope := none
  lifecycleOperationKey : Option String := none
  compiledInputDigest : Option String := none
  lifecycleBinding : Option LifecycleBinding := none
  bindings : Table WorkflowFrontierBinding.packetId := Table.empty
  occurrences : Table WorkflowFailureOccurrence.occurrenceId := Table.empty
  trail : List WorkflowStepTrailEntry := []

/-- What a frontier update does to `current_step_id`. -/
inductive StepIdUpdate where
  | preserve | clear
  | set (stepId : String)
  deriving DecidableEq

/-- The arguments of `updateFrontier`. -/
structure FrontierUpdate where
  nextFrontier : List String
  nextStatus : InstanceStatus
  bumpHopCount : Bool := false
  lastContinuationDecision : Option ContinuationDecision := none
  completedAt : Option Time := none
  currentStepId : StepIdUpdate := .preserve
  /-- The redrive count and the hops baseline of a resume. -/
  resumeStamp : Option (ℕ × ℕ) := none

namespace InstanceRow

variable (i : InstanceRow)

def workflowName : String := i.spec.id

def workflowVersion : String := i.spec.version

/-- `specCache.getForInstance`: the cached spec, its targets bound to the instance's rig. -/
def boundSpec : WorkflowSpec := bindSpecToRig i.spec i.boundRig

def requiredLifecycleSteps : List String :=
  (i.lifecycleBinding.map fun b => b.graphSource.requiredSteps).getD []

/-- `updateFrontier`, under the version guard: the row was read in the same synchronous call, so
its version is the expected one. -/
def updateFrontier (u : FrontierUpdate) : InstanceRow :=
  { i with
    version := i.version + 1
    hopCount := if u.bumpHopCount then i.hopCount + 1 else i.hopCount
    resumeCount := (u.resumeStamp.map Prod.fst).getD i.resumeCount
    hopsBaseline := (u.resumeStamp.map Prod.snd).getD i.hopsBaseline
    currentStepId := match u.currentStepId with
      | .preserve => i.currentStepId
      | .clear => none
      | .set id => some id
    status := u.nextStatus
    currentFrontier := u.nextFrontier
    lastContinuationDecision := u.lastContinuationDecision <|> i.lastContinuationDecision
    -- reopening a terminal run clears its completion marker
    completedAt := if u.nextStatus.isLive then none else u.completedAt <|> i.completedAt }

def getFrontierBinding (packetId : String) : Option WorkflowFrontierBinding :=
  i.bindings.get? packetId

/-- `listFrontierBindings`: its readers use the set, or the only row. -/
def listFrontierBindings : List WorkflowFrontierBinding := i.bindings.rows

def liveStepIds : List String := i.bindings.rows.map (·.stepId)

def bindFrontierPacket (b : WorkflowFrontierBinding) : Outcome InstanceRow :=
  match i.bindings.insert? b with
  | some bindings => .ok { i with bindings }
  | none => reject .primaryKeyConflict "UNIQUE constraint failed: workflow_frontier_bindings"

def removeFrontierBinding (packetId : String) : InstanceRow :=
  { i with bindings := i.bindings.erase packetId }

def listFailureOccurrences (status : Option OccurrenceStatus) : List WorkflowFailureOccurrence :=
  match status with
  | none => i.occurrences.rows
  | some s => i.occurrences.rows.filter fun o => o.status = s

def unresolvedStepIds : List String :=
  (i.listFailureOccurrences (some .unresolved)).map (·.stepId)

/-- `recordFailureOccurrence`: the failed packet names the occurrence. -/
def recordFailureOccurrence (o : WorkflowFailureOccurrence) : Outcome InstanceRow :=
  match i.occurrences.insert? o with
  | some occurrences => .ok { i with occurrences }
  | none => reject .primaryKeyConflict "UNIQUE constraint failed: workflow_failure_occurrences"

/-- `resolveFailureOccurrence`: only an unresolved occurrence takes a redrive packet. -/
def resolveFailureOccurrence (occurrenceId redrivePacketId : String)
    (resumeDecision : Option String) (now : Time) : Outcome InstanceRow :=
  if (i.occurrences.get? occurrenceId).any fun o => o.status = .unresolved then
    .ok { i with
      occurrences := i.occurrences.updateWhere
        (fun o => o.occurrenceId = occurrenceId && o.status = .unresolved) fun o =>
          { o with
            status := .resolved
            redrivePacketId := some redrivePacketId
            resumeDecision := resumeDecision
            resolvedAt := some now } }
  else reject .failureOccurrenceNotUnresolved
    ("failure occurrence " ++ occurrenceId ++ " is not unresolved for instance " ++ i.instanceId)

/-- `trailLog.record`. -/
def recordTrail (entry : WorkflowStepTrailEntry) : InstanceRow :=
  { i with trail := i.trail ++ [entry] }

/-- `trailLog.listForInstance`: newest `closed_at` first, later rows first among equals, at most
fifty. -/
def listTrail : List WorkflowStepTrailEntry :=
  (i.trail.reverse.mergeSort fun a b => b.closedAt ≤ a.closedAt).take 50

/-- What the queue's frontier guard reads of the row; minted ids are plain, so the row is always
there. -/
def guardView : Option WorkflowInstance :=
  if h : i.instanceId ≠ "" ∧ ∀ id ∈ i.currentFrontier, jsonPlain id = true then
    some { instanceId := i.instanceId, named := h.1, workflowName := i.workflowName,
           status := i.status, currentFrontier := i.currentFrontier, plain := h.2 }
  else none

@[simp] lemma boundSpec_steps : i.boundSpec.steps = i.spec.steps := by simp [boundSpec]

@[simp] lemma boundSpec_step? (id : String) : i.boundSpec.step? id = i.spec.step? id := by
  simp [WorkflowSpec.step?]

@[simp] lemma boundSpec_maxHops : i.boundSpec.maxHops = i.spec.maxHops := by
  simp [WorkflowSpec.maxHops, boundSpec]

variable {i}

lemma bindFrontierPacket_eq_ok {j : InstanceRow} {b : WorkflowFrontierBinding}
    (h : i.bindFrontierPacket b = .ok j) :
    j.bindings.rows = i.bindings.rows ++ [b] ∧
      (∀ a ∈ i.bindings.rows, a.packetId ≠ b.packetId) ∧ j = { i with bindings := j.bindings } := by
  unfold bindFrontierPacket at h
  split at h
  · rename_i t ht
    cases h
    exact ⟨(Table.rows_insert? ht).1, (Table.rows_insert? ht).2, rfl⟩
  · simp at h

lemma recordFailureOccurrence_eq_ok {j : InstanceRow} {o : WorkflowFailureOccurrence}
    (h : i.recordFailureOccurrence o = .ok j) :
    j.occurrences.rows = i.occurrences.rows ++ [o] ∧
      (∀ a ∈ i.occurrences.rows, a.occurrenceId ≠ o.occurrenceId) ∧
      j = { i with occurrences := j.occurrences } := by
  unfold recordFailureOccurrence at h
  split at h
  · rename_i t ht
    cases h
    exact ⟨(Table.rows_insert? ht).1, (Table.rows_insert? ht).2, rfl⟩
  · simp at h

end InstanceRow

end OpenRig.WorkflowStore
