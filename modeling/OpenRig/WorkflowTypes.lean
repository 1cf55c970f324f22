import Mathlib.Data.Rat.Defs
import OpenRig.Sessions

/-!
Workflow specifications: the parsed document, the routing of a step's exit and the hop guard.

An optional key of the document is an `Option`, so that an absent key and an empty value differ,
as they do for the validator and the revision check.
-/

namespace OpenRig.WorkflowTypes

open OpenRig.JsText OpenRig.Sessions

/-! ### The document -/

inductive WorkflowExitKind where
  | handoff | waiting | done | failed
  deriving DecidableEq, Repr

namespace WorkflowExitKind

def text : WorkflowExitKind → String
  | handoff => "handoff"
  | waiting => "waiting"
  | done => "done"
  | failed => "failed"

/-- The exits that finish a step. -/
def completes : WorkflowExitKind → Bool
  | handoff | done => true
  | waiting | failed => false

@[simp] lemma completes_iff {e : WorkflowExitKind} :
    e.completes = true ↔ e = .handoff ∨ e = .done := by
  cases e <;> simp [completes]

end WorkflowExitKind

structure WorkflowGateSpec where
  /-- A human seat session or a declared role name. -/
  target : String
  summary : Option String := none
  evidenceRef : Option String := none
  deriving DecidableEq

structure WorkflowAcceptanceSpec where
  candidate : String
  verdicts : List String
  evidenceRef : String
  deriving DecidableEq

structure WorkflowRoleSpec where
  skillRefs : Option (List String) := none
  preferredTargets : Option (List String) := none
  deriving DecidableEq

/-- `next_hop.on`: recorded exit → successor step id. -/
structure BranchMap where
  handoff : Option String := none
  waiting : Option String := none
  done : Option String := none
  failed : Option String := none
  deriving DecidableEq

/-- `on[exit]`. -/
def BranchMap.target (on : BranchMap) : WorkflowExitKind → Option String
  | .handoff => on.handoff
  | .waiting => on.waiting
  | .done => on.done
  | .failed => on.failed

/-- `Object.entries(on)`. -/
def BranchMap.entries (on : BranchMap) : List (WorkflowExitKind × String) :=
  [WorkflowExitKind.handoff, .waiting, .done, .failed].filterMap fun exit =>
    (on.target exit).map fun target => (exit, target)

inductive HopMode where
  | require | forbid
  deriving DecidableEq, Repr

structure NextHop where
  mode : Option HopMode := none
  suggestedRoles : Option (List String) := none
  on : Option BranchMap := none
  deriving DecidableEq

structure WorkflowStepSpec where
  id : String
  actorRole : String
  objective : Option String := none
  allowedExits : Option (List WorkflowExitKind) := none
  rePresentAfterSeconds : Option ℤ := none
  rePresentMaxSeconds : Option ℤ := none
  nextHop : Option NextHop := none
  harness : Option String := none
  host : Option String := none
  gate : Option WorkflowGateSpec := none
  /-- Static prerequisites. Presence opts the spec into the dependency graph executor. -/
  dependsOn : Option (List String) := none
  acceptance : Option WorkflowAcceptanceSpec := none
  deriving DecidableEq

structure WorkflowInvariants where
  continuationRequired : Option Bool := none
  allowedExits : Option (List WorkflowExitKind) := none
  preserveLineage : Option Bool := none
  closureRequired : Option Bool := none
  deriving DecidableEq

structure WorkflowClosureMessages where
  success : Option String := none
  degraded : Option String := none
  failed : Option String := none
  deriving DecidableEq

structure WorkflowLoopGuards where
  /-- A number; a stored value of another type never bounds anything. -/
  maxHops : Option ℚ := none
  spawnBudget : Option ℚ := none
  deriving DecidableEq

inductive WorkflowExceptionDialPosition where
  | orchestrator | humanOnly
  deriving DecidableEq, Repr

structure WorkflowExceptionRoutingSpec where
  default : Option WorkflowExceptionDialPosition := none
  orchestratorRole : Option String := none
  classes : Option (List (String × WorkflowExceptionDialPosition)) := none
  deriving DecidableEq

structure WorkflowSpec where
  id : String
  version : String
  objective : Option String := none
  contextRefs : Option (List String) := none
  /-- `target.rig`. -/
  targetRig : Option String := none
  /-- `entry.role`. -/
  entryRole : Option String := none
  roles : List (String × WorkflowRoleSpec)
  steps : List WorkflowStepSpec
  invariants : Option WorkflowInvariants := none
  closure : Option WorkflowClosureMessages := none
  loopGuards : Option WorkflowLoopGuards := none
  exceptionRouting : Option WorkflowExceptionRoutingSpec := none
  coordinationTerminalTurnRule : Option String := none
  deriving DecidableEq

/-! ### Reading the document -/

namespace WorkflowStepSpec

/-- `step.next_hop?.on?.[exit]`. -/
def branchTarget (step : WorkflowStepSpec) (exit : WorkflowExitKind) : Option String :=
  (step.nextHop.bind NextHop.on).bind fun on => on.target exit

/-- `Object.values(step.next_hop?.on ?? {})`. -/
def branchTargets (step : WorkflowStepSpec) : List String :=
  ((step.nextHop.bind NextHop.on).map fun on => on.entries.map Prod.snd).getD []

/-- `step.depends_on ?? []`. -/
def prerequisites (step : WorkflowStepSpec) : List String := step.dependsOn.getD []

/-- `step.next_hop?.suggested_roles ?? []`. -/
def suggestedRoles (step : WorkflowStepSpec) : List String :=
  (step.nextHop.bind NextHop.suggestedRoles).getD []

/-- The exit is among the allowed ones; with none declared every exit is. -/
def admits (step : WorkflowStepSpec) (exit : WorkflowExitKind) : Bool :=
  match step.allowedExits with
  | none | some [] => true
  | some exits => exits.contains exit

end WorkflowStepSpec

namespace WorkflowSpec

/-- `spec.steps.find(s => s.id === id)`. -/
def step? (spec : WorkflowSpec) (id : String) : Option WorkflowStepSpec :=
  spec.steps.find? fun s => s.id = id

/-- `spec.roles?.[name]`. -/
def role? (spec : WorkflowSpec) (name : String) : Option WorkflowRoleSpec := spec.roles.lookup name

/-- `spec.roles?.[name]?.preferred_targets ?? []`. -/
def preferredTargets (spec : WorkflowSpec) (name : String) : List String :=
  ((spec.role? name).bind WorkflowRoleSpec.preferredTargets).getD []

/-- `spec.loop_guards?.max_hops`. -/
def maxHops (spec : WorkflowSpec) : Option ℚ := spec.loopGuards.bind WorkflowLoopGuards.maxHops

/-- A declared dependency opts the spec into the packet-addressed executor. -/
def isDependencyGraph (spec : WorkflowSpec) : Bool := spec.steps.any fun s => s.dependsOn.isSome

lemma step?_mem {spec : WorkflowSpec} {id : String} {step : WorkflowStepSpec}
    (h : spec.step? id = some step) : step ∈ spec.steps := List.mem_of_find?_eq_some h

lemma step?_id {spec : WorkflowSpec} {id : String} {step : WorkflowStepSpec}
    (h : spec.step? id = some step) : step.id = id := by
  simpa using List.find?_some h

lemma step?_isSome {spec : WorkflowSpec} {id : String} :
    (spec.step? id).isSome ↔ ∃ step ∈ spec.steps, step.id = id := by
  simp [step?]

end WorkflowSpec

/-! ### Routing -/

/-- `resolveNextStep`: the mapped target of a recorded exit, else the first suggested role some
step has, else the next step in declaration order. -/
def resolveNextStep (spec : WorkflowSpec) (currentStep : WorkflowStepSpec)
    (recordedExit : Option WorkflowExitKind) : Option WorkflowStepSpec :=
  match recordedExit.bind currentStep.branchTarget with
  | some target => spec.step? target
  | none =>
    if (currentStep.nextHop.bind NextHop.mode) = some .forbid then none
    else match currentStep.suggestedRoles.findSome? fun role =>
        spec.steps.find? fun s => s.actorRole = role with
      | some target => some target
      | none =>
        if (currentStep.nextHop.bind NextHop.mode) = some .require then none
        else match spec.steps.findIdx? fun s => s.id = currentStep.id with
          | none => none
          | some i => spec.steps[i + 1]?

lemma resolveNextStep_mem {spec : WorkflowSpec} {step next : WorkflowStepSpec}
    {exit : Option WorkflowExitKind} (h : resolveNextStep spec step exit = some next) :
    next ∈ spec.steps := by
  unfold resolveNextStep at h
  split at h
  · exact WorkflowSpec.step?_mem h
  · split at h
    · cases h
    · split at h
      · rename_i found
        cases h
        obtain ⟨_, _, hf⟩ := List.exists_of_findSome?_eq_some found
        exact List.mem_of_find?_eq_some hf
      · split at h
        · cases h
        · split at h
          · cases h
          · exact List.mem_of_getElem? h

/-! ### The hop guard -/

/-- A guard that can trip: a whole number of at least one. -/
def enforceableMaxHops (maxHops : Option ℚ) : Option ℕ :=
  match maxHops with
  | some m => if m.den = 1 ∧ 1 ≤ m then some m.num.toNat else none
  | none => none

/-- `exceedsMaxHops`: `hopCount + 1 - baseline > maxHops`, under an enforceable guard. -/
def exceedsMaxHops (hopCount baseline : ℕ) (maxHops : Option ℚ) : Bool :=
  match enforceableMaxHops maxHops with
  | some m => baseline + m < hopCount + 1
  | none => false

/-! ### Rig-relative targets -/

/-- `isRigRelativeTarget`: the target is written `member@\x7brig\x7d`. -/
def isRigRelativeTarget (target : String) : Bool := endsWith target "@\x7brig\x7d"

def expandRigRelativeTarget (target rig : String) : String :=
  if isRigRelativeTarget target then
    String.ofList (target.toList.take (target.length - 5)) ++ rig
  else target

/-- `bindSpecToRig`: each rig-relative target resolved against the bound rig. -/
def bindSpecToRig (spec : WorkflowSpec) (boundRig : Option String) : WorkflowSpec :=
  match boundRig with
  | none => spec
  | some rig =>
    { spec with
      roles := spec.roles.map fun (name, role) =>
        (name, { role with
          preferredTargets := role.preferredTargets.map fun targets =>
            targets.map fun t => expandRigRelativeTarget t rig }) }

@[simp] lemma bindSpecToRig_steps (spec : WorkflowSpec) (rig : Option String) :
    (bindSpecToRig spec rig).steps = spec.steps := by
  cases rig <;> rfl

@[simp] lemma bindSpecToRig_loopGuards (spec : WorkflowSpec) (rig : Option String) :
    (bindSpecToRig spec rig).loopGuards = spec.loopGuards := by
  cases rig <;> rfl

end OpenRig.WorkflowTypes
