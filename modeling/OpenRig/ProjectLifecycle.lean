import OpenRig.WorkflowStore
import OpenRig.WorkflowValidator

/-!
The lifecycle compiler: a project profile and its required steps, a mission that extends or
overrides it, or the slices of a legacy mission, compiled into one generated spec.

The manifests are taken as read and parsed; the compiled digest is a function of what the source
hashes.
-/

namespace OpenRig.ProjectLifecycle

open OpenRig.JsText OpenRig.WorkflowTypes OpenRig.WorkflowStore OpenRig.WorkflowValidator
open OpenRig.Digraph

/-! ### Manifests -/

/-- An entry of `project.lifecycle.profiles`. -/
structure ProfileGraph where
  requiredSteps : List String
  /-- Its workflow, with the generated id and version where it declares none. -/
  workflow : WorkflowSpec

/-- The workflow of a mission that extends its profile. -/
structure Extension where
  steps : List WorkflowStepSpec
  roles : List (String × WorkflowRoleSpec) := []
  contextRefs : List String := []

/-- `mission.lifecycle.workflow`, by `mission.lifecycle.mode`. -/
inductive MissionWorkflow where
  | absent
  | unmoded (workflow : WorkflowSpec)
  | extend (addition : Extension)
  | override (workflow : WorkflowSpec)

/-- `mission.lifecycle`. -/
structure MissionBoundary where
  profile : String
  workflow : MissionWorkflow

/-- A member slice: its reference, whether it is active, and the step its execution contract
declares with the targets of the step's role. -/
structure SliceMember where
  ref : String
  active : Bool
  execution : Option (WorkflowStepSpec × List String)

structure Manifests where
  projectId : String
  missionName : String
  projectPath : String
  missionPath : String
  lifecycleProfile : Option String
  /-- `project.lifecycle.profiles`. -/
  profiles : Option (List (String × ProfileGraph))
  boundary : Option MissionBoundary
  members : List SliceMember
  sources : List LifecycleSourceDigest
  /-- The manifests and the installed context, as every step reads them. -/
  commonRefs : List String
  /-- A context reference, resolved against the project or the mission directory. -/
  projectRef : String → String
  missionRef : String → String

/-! ### Errors -/

inductive CompileErrorCode where
  | profileMismatch | profileNotFound | requiredStepsEmpty | requiredStepMissing
  | boundaryGraphInvalid | overrideAmbiguous | extensionCollision | requiredOrderChanged
  | overrideWithoutProfile | manifestShapeInvalid
  deriving DecidableEq, Repr

structure CompileError where
  code : CompileErrorCode
  message : String
  deriving DecidableEq

abbrev Compiled := Except CompileError

/-- `throw manifestError(code, message)`. -/
def manifestError {α : Type} (code : CompileErrorCode) (message : String) : Compiled α :=
  .error ⟨code, message⟩

def errorIf (c : Bool) (code : CompileErrorCode) (message : String) : Compiled Unit :=
  if c then manifestError code message else .ok ()

@[simp] lemma manifestError_eq_ok {α : Type} {code : CompileErrorCode} {message : String} {a : α} :
    ((manifestError code message : Compiled α) = .ok a) = False :=
  eq_false nofun

@[simp] lemma errorIf_eq_ok {c : Bool} {code : CompileErrorCode} {message : String} {u : Unit} :
    errorIf c code message = .ok u ↔ c = false := by
  cases c <;> simp [errorIf]

lemma cbind_eq_ok {α β : Type} {x : Compiled α} {f : α → Compiled β} {b : β} :
    (x >>= f) = .ok b ↔ ∃ a, x = .ok a ∧ f a = .ok b := by
  cases x with
  | error e => simp [bind, Except.bind]
  | ok a => simp [bind, Except.bind]

@[simp] lemma cpure_eq_ok {α : Type} {a b : α} : (pure a : Compiled α) = .ok b ↔ a = b := by
  simp [pure, Except.pure]

/-! ### Boundary graphs -/

/-- `[...new Set(refs)]`. -/
def distinct (refs : List String) : List String :=
  refs.foldl (fun out r => if out.contains r then out else out ++ [r]) []

/-- A step that may wait is re-presented, after five minutes unless it says otherwise. -/
def withRePresentation (step : WorkflowStepSpec) : WorkflowStepSpec :=
  if (step.allowedExits.getD []).contains .waiting then
    let initial := step.rePresentAfterSeconds.getD 300
    { step with
      rePresentAfterSeconds := some initial
      rePresentMaxSeconds := some (step.rePresentMaxSeconds.getD (max 3600 initial)) }
  else step

def parseBoundary (m : Manifests) (workflow : WorkflowSpec) (ref : String → String) :
    WorkflowSpec :=
  { workflow with
    steps := workflow.steps.map withRePresentation
    contextRefs := some (distinct (m.commonRefs ++ (workflow.contextRefs.getD []).map ref)) }

/-- `steps.find(step => step.id === id)?.depends_on ?? []`. -/
def dependencies (spec : WorkflowSpec) (id : String) : List String :=
  ((spec.step? id).map WorkflowStepSpec.prerequisites).getD []

/-- The ids a collection of ancestors can meet. -/
def namedIds (spec : WorkflowSpec) : List String :=
  stepIds spec ++ spec.steps.flatMap WorkflowStepSpec.prerequisites

def ancestors (spec : WorkflowSpec) (id : String) : List String :=
  collect (dependencies spec) ((id :: namedIds spec).length + 1) [] id

/-- The required steps that came before a step and no longer do. -/
def lostPrerequisites (base spec : WorkflowSpec) (required : List String) (id : String) :
    List String :=
  required.filter fun parent =>
    (ancestors base id).contains parent && !(ancestors spec id).contains parent

/-- A step outside the dependency graph, or with a conditional jump. -/
def isConditional (step : WorkflowStepSpec) : Bool :=
  step.dependsOn.isNone || (step.nextHop.bind NextHop.on).isSome

def validateObligations (spec : WorkflowSpec) (required : List String)
    (base : Option WorkflowSpec) : Compiled Unit := do
  let missing := required.filter fun id => !(stepIds spec).contains id
  errorIf (!missing.isEmpty) .requiredStepMissing
    ("Missing required boundary steps: " ++ ", ".intercalate missing)
  match spec.steps.find? isConditional with
  | some step =>
    manifestError .boundaryGraphInvalid
      (s!"Boundary step {step.id} must use depends_on, without conditional next_hop.on edges")
  | none =>
    match base with
    | none => return ()
    | some base =>
      match required.find? fun id => !(lostPrerequisites base spec required id).isEmpty with
      | some id =>
        manifestError .requiredOrderChanged (s!"Required step {id} lost prerequisites: " ++
          ", ".intercalate (lostPrerequisites base spec required id))
      | none => return ()

/-- `{ ...base.roles, ...addition.roles }`. -/
def mergeRoles (base addition : List (String × WorkflowRoleSpec)) :
    List (String × WorkflowRoleSpec) :=
  (base.map fun (name, role) => (name, (addition.lookup name).getD role)) ++
    addition.filter fun (name, _) => (base.lookup name).isNone

def extendedGraph (base : WorkflowSpec) (addition : Extension) (ref : String → String) :
    WorkflowSpec :=
  { base with
    roles := mergeRoles base.roles addition.roles
    steps := base.steps ++ addition.steps
    contextRefs := some (distinct (base.contextRefs.getD [] ++ addition.contextRefs.map ref)) }

def overridingGraph (base workflow : WorkflowSpec) (ref : String → String) : WorkflowSpec :=
  { workflow with
    contextRefs := some (distinct (base.contextRefs.getD [] ++
      (workflow.contextRefs.getD []).map ref)) }

/-- The graph a mission runs over its profile, and where it came from. -/
def missionGraph (m : Manifests) (base : WorkflowSpec) (required : List String) (source : String)
    (workflow : MissionWorkflow) : Compiled (WorkflowSpec × LifecycleGraphSource) := do
  let missionSource := m.missionPath ++ "#lifecycle.workflow"
  let profileOnly : LifecycleGraphSource :=
    { mode := .projectProfile, profileSource := some source, requiredSteps := required }
  match workflow with
  | .absent => return (base, profileOnly)
  | .unmoded _ =>
    manifestError .overrideAmbiguous
      "Mission lifecycle.workflow over a project profile requires mode: extend or override"
  | .extend addition => do
    errorIf (addition.steps.any fun s => (stepIds base).contains s.id) .extensionCollision
      "An extension cannot replace an inherited step; use explicit mode: override"
    let graph := parseBoundary m (extendedGraph base addition m.missionRef) m.missionRef
    validateObligations graph required (some base)
    return (graph, { profileOnly with mode := .missionExtend, missionSource := some missionSource })
  | .override workflow => do
    let graph := parseBoundary m (overridingGraph base workflow m.missionRef) m.missionRef
    validateObligations graph required (some base)
    return (graph,
      { profileOnly with mode := .missionOverride, missionSource := some missionSource })

/-- The authored graph of a mission with a selected profile. -/
def profileGraph (m : Manifests) (profiles : List (String × ProfileGraph)) :
    Compiled (WorkflowSpec × LifecycleGraphSource) :=
  match m.lifecycleProfile.bind fun name => (profiles.lookup name).map fun p => (name, p) with
  | none =>
    manifestError .profileNotFound
      "project.lifecycle.profile must select an existing lifecycle.profiles entry"
  | some (name, profile) => do
    let source := m.projectPath ++ "#lifecycle.profiles." ++ name
    errorIf profile.requiredSteps.isEmpty .requiredStepsEmpty
      (source ++ ": required_steps must name the boundary obligations")
    let base := parseBoundary m profile.workflow m.projectRef
    validateObligations base profile.requiredSteps none
    missionGraph m base profile.requiredSteps source
      ((m.boundary.map (·.workflow)).getD .absent)

/-- A mission names the profile its project selects. -/
def checkProfile (m : Manifests) : Compiled Unit :=
  match m.boundary with
  | none => .ok ()
  | some boundary =>
    errorIf (some boundary.profile ≠ m.lifecycleProfile) .profileMismatch
      "Mission lifecycle.profile must match the profile selected by project.yaml"

/-- `authoredBoundary` and its graph source. -/
def authoredBoundary (m : Manifests) :
    Compiled (Option WorkflowSpec × LifecycleGraphSource) := do
  checkProfile m
  match m.profiles, m.boundary with
  | some profiles, _ => do
    let (graph, source) ← profileGraph m profiles
    return (some graph, source)
  | none, none => return (none, {})
  | none, some boundary =>
    match boundary.workflow with
    | .unmoded workflow =>
      return (some (parseBoundary m workflow m.missionRef),
        { mode := .legacyMission, missionSource := some (m.missionPath ++ "#lifecycle.workflow") })
    | .absent =>
      manifestError .manifestShapeInvalid (m.missionPath ++
        ": lifecycle.workflow must be a mapping")
    | .extend _ | .override _ =>
      manifestError .overrideWithoutProfile "Mission mode requires a project-owned profile graph"

/-! ### Compilation -/

/-- `identity`. -/
structure LifecycleIdentity where
  project : String
  mission : String
  lifecycleProfile : Option String
  deriving DecidableEq

/-- What a compilation reports of the graph it compiled. -/
structure LifecycleCompilation where
  identity : LifecycleIdentity
  compiledInputDigest : String
  sources : List LifecycleSourceDigest
  graphSource : LifecycleGraphSource
  workflowSpec : Option WorkflowSpec
  unknowns : List String

namespace LifecycleCompilation

def eligible (c : LifecycleCompilation) : Bool := c.workflowSpec.isSome && c.unknowns.isEmpty

end LifecycleCompilation

def codeText : IssueCode → String
  | .entryRoleNotDeclared => "entry_role_not_declared"
  | .entryRoleMismatch => "entry_role_mismatch"
  | .stepIdMissing => "step_id_missing"
  | .stepIdDuplicate => "step_id_duplicate"
  | .stepActorRoleMissing => "step_actor_role_missing"
  | .stepActorRoleNotDeclared => "step_actor_role_not_declared"
  | .stepExitNotAllowed => "step_exit_not_allowed"
  | .waitingRePresentationUnreachable => "waiting_re_presentation_unreachable"
  | .dependencySelfReference => "dependency_self_reference"
  | .dependencyStepNotFound => "dependency_step_not_found"
  | .nextHopRoleNotDeclared => "next_hop_role_not_declared"
  | .nextHopRoleHasNoStep => "next_hop_role_has_no_step"
  | .branchTargetNotFound => "branch_target_not_found"
  | .stepCannotFinish => "step_cannot_finish"
  | .dependencyCycle => "dependency_cycle"
  | .cycleWithoutMaxHops => "cycle_without_max_hops"
  | .stepUnreachable => "step_unreachable"
  | .hostNotRegistered => "host_not_registered"
  | .gateHumanFieldsMissing => "gate_human_fields_missing"
  | .gateTargetUnresolved => "gate_target_unresolved"
  | .gateHandlerNoTargets => "gate_handler_no_targets"
  | .declaredNotEnforcedV1 => "declared_not_enforced_v1"
  | .roleNoLivePreferredTarget => "role_no_live_preferred_target"

/-- `compiled workflow [code]: message`. -/
def renderIssue (issue : ValidationIssue) : String :=
  s!"compiled workflow [{codeText issue.code}]: {issue.message}"

/-- The steps and the roles the active slices declare. -/
def sliceGraph (m : Manifests) : List WorkflowStepSpec × List (String × WorkflowRoleSpec) :=
  let declared := (m.members.filter (·.active)).filterMap (·.execution)
  (declared.map Prod.fst, declared.foldl (fun roles (step, targets) =>
    if (roles.lookup step.actorRole).isSome then roles
    else roles ++ [(step.actorRole,
      { preferredTargets := if targets.isEmpty then none else some targets })]) [])

/-- `draftWorkflowSpec`: the authored boundary, else the compiled slices. -/
def draftSpec (m : Manifests) (authored : Option WorkflowSpec) : Option WorkflowSpec :=
  match authored with
  | some spec => some spec
  | none =>
    let (steps, roles) := sliceGraph m
    if steps.isEmpty then none
    else some
      { id := s!"lifecycle-{m.projectId}-{m.missionName}"
        version := "1"
        objective := some s!"Compiled lifecycle for {m.projectId}/{m.missionName}"
        entryRole := (steps.find? fun s => s.prerequisites.isEmpty).map (·.actorRole)
        roles, steps }

/-- What a compilation misses before its spec is validated. -/
def openUnknowns (m : Manifests) (operationKey : Option String) (authored : Option WorkflowSpec)
    (steps : List WorkflowStepSpec) : List String :=
  (if authored.isSome then []
    else (m.members.filter fun s => s.active && s.execution.isNone).map fun s =>
      s.ref ++ ": execution contract missing") ++
  (if truthy operationKey then [] else ["opaque lifecycle operation key not supplied"]) ++
  (if truthy m.lifecycleProfile then [] else ["project lifecycle profile missing"]) ++
  (if steps.isEmpty then
    ["no active slice declares an execution contract; author mission.lifecycle for an " ++
      "independent mission boundary"] else []) ++
  if !steps.isEmpty && steps.all fun s => !s.prerequisites.isEmpty then
    ["execution graph has no root step"] else []

/-- What the source hashes: the identity, the manifests and the draft. -/
abbrev Digest := LifecycleIdentity → List LifecycleSourceDigest → Option WorkflowSpec → String

def compileProjectLifecycle (digest : Digest) (m : Manifests) (operationKey : Option String) :
    Compiled LifecycleCompilation := do
  let (authored, graphSource) ← authoredBoundary m
  let identity : LifecycleIdentity := ⟨m.projectId, m.missionName, m.lifecycleProfile⟩
  let draft := draftSpec m authored
  let compiledInputDigest := digest identity m.sources draft
  let workflowSpec := draft.map fun spec =>
    { spec with version := "1-" ++ String.ofList (compiledInputDigest.toList.take 16) }
  let unknowns := openUnknowns m operationKey authored ((draft.map (·.steps)).getD []) ++
    ((workflowSpec.map fun spec =>
      ((validate spec none none).filter fun i => i.severity = .error).map renderIssue).getD [])
  return { identity, compiledInputDigest, sources := m.sources, graphSource, workflowSpec,
           unknowns }

end OpenRig.ProjectLifecycle
