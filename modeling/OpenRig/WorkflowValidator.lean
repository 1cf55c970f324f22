import OpenRig.Digraph
import OpenRig.WorkflowTypes

/-!
The validator of a parsed workflow specification.

Each check is a list of issues, in the order they are reported. The graph checks run the two
searches of `Digraph` over the edges the executors follow: the dependents of a step or its
structural next step, and the targets its exits are mapped to.
-/

namespace OpenRig.WorkflowValidator

open OpenRig.JsText OpenRig.Sessions OpenRig.Digraph OpenRig.WorkflowTypes

/-! ### Issues -/

inductive IssueCode where
  | entryRoleNotDeclared | entryRoleMismatch | stepIdMissing | stepIdDuplicate
  | stepActorRoleMissing | stepActorRoleNotDeclared | stepExitNotAllowed
  | waitingRePresentationUnreachable | dependencySelfReference | dependencyStepNotFound
  | nextHopRoleNotDeclared | nextHopRoleHasNoStep | branchTargetNotFound | stepCannotFinish
  | dependencyCycle | cycleWithoutMaxHops | stepUnreachable | hostNotRegistered
  | gateHumanFieldsMissing | gateTargetUnresolved | gateHandlerNoTargets
  | declaredNotEnforcedV1 | roleNoLivePreferredTarget
  deriving DecidableEq, Repr

inductive Severity where
  | error | warning
  deriving DecidableEq, Repr

structure ValidationIssue where
  code : IssueCode
  message : String
  field : String
  severity : Severity
  deriving DecidableEq

def error (code : IssueCode) (field message : String) : ValidationIssue :=
  ⟨code, message, field, .error⟩

def warning (code : IssueCode) (field message : String) : ValidationIssue :=
  ⟨code, message, field, .warning⟩

def issueIf (c : Bool) (issue : ValidationIssue) : List ValidationIssue := if c then [issue] else []

/-- `workflow.steps[idx]`. -/
def stepField (idx : ℕ) : String := s!"workflow.steps[{idx}]"

/-- `JSON.stringify(exits)`. -/
def exitsText (exits : List WorkflowExitKind) : String :=
  String.ofList (jsonArray (exits.map WorkflowExitKind.text))

variable (spec : WorkflowSpec)

/-- `declaredRoles.has(name)`. -/
def declaresRole (name : String) : Bool := spec.roles.any fun r => r.1 = name

/-- `spec.steps.some(s => s.id === id)`. -/
def hasStep (id : String) : Bool := spec.steps.any fun s => s.id = id

/-! ### Entry and steps -/

def entryIssues : List ValidationIssue :=
  match spec.entryRole with
  | none | some "" => []
  | some role =>
    issueIf (!declaresRole spec role)
      (error .entryRoleNotDeclared "workflow.entry.role"
        (s!"entry role \"{role}\" is not declared in workflow.roles. Add the role to " ++
          "workflow.roles or change the entry to a declared role.")) ++
    match spec.steps.head? with
    | none => []
    | some entry =>
      issueIf (entry.actorRole ≠ "" && role ≠ entry.actorRole)
        (error .entryRoleMismatch "workflow.entry.role"
          (s!"workflow.entry.role is \"{role}\" but the authoritative entry is steps[0] (" ++
            s!"\"{entry.id}\", actor_role \"{entry.actorRole}\") — the runtime instantiates " ++
            "from steps[0], so a differing entry.role would lie on every surface that reports " ++
            "it. Reorder steps so the intended entry step is first, or fix/remove entry.role."))

/-- The exits a step allows outside `workflow.invariants.allowed_exits`. -/
def exitIssues (step : WorkflowStepSpec) (fieldBase : String) : List ValidationIssue :=
  match step.allowedExits, spec.invariants.bind WorkflowInvariants.allowedExits with
  | some exits, some invariant =>
    (exits.filter fun exit => !invariant.contains exit).map fun exit =>
      error .stepExitNotAllowed s!"{fieldBase}.allowed_exits"
        (s!"step \"{step.id}\" allows exit \"{exit.text}\" which is not in " ++
          "workflow.invariants.allowed_exits. Either remove the exit from the step or extend " ++
          "the invariant.")
  | _, _ => []

/-- A re-presentation deadline that no park can reach. -/
def rePresentIssues (step : WorkflowStepSpec) (fieldBase : String) : List ValidationIssue :=
  if step.rePresentAfterSeconds.isNone then []
  else
    issueIf (!step.admits .waiting)
      (error .waitingRePresentationUnreachable s!"{fieldBase}.re_present_after_seconds"
        (s!"step \"{step.id}\" declares re_present_after_seconds but does not allow the waiting " ++
          "exit. Add \"waiting\" to allowed_exits or remove the inert deadline.")) ++
    issueIf (truthy (step.branchTarget .waiting))
      (error .waitingRePresentationUnreachable s!"{fieldBase}.re_present_after_seconds"
        (s!"step \"{step.id}\" maps the waiting exit to " ++
          "\"" ++ (step.branchTarget .waiting).getD "" ++ "\", so waiting routes immediately " ++
          "and never parks. Remove re_present_after_seconds or remove the waiting branch."))

def dependencyIssues (step : WorkflowStepSpec) (fieldBase : String) : List ValidationIssue :=
  step.prerequisites.flatMap fun dependency =>
    if dependency = step.id then
      [error .dependencySelfReference s!"{fieldBase}.depends_on"
        s!"step \"{step.id}\" cannot depend on itself."]
    else issueIf (!hasStep spec dependency)
      (error .dependencyStepNotFound s!"{fieldBase}.depends_on"
        (s!"step \"{step.id}\" depends on missing step \"{dependency}\". Fix the id or remove " ++
          "the dead prerequisite."))

/-- One step, after the ids seen before it. -/
def stepIssues (seen : List String) (idx : ℕ) (step : WorkflowStepSpec) : List ValidationIssue :=
  let fieldBase := stepField idx
  if step.id = "" then
    [error .stepIdMissing s!"{fieldBase}.id"
      (s!"step at {fieldBase} is missing an id. Every step must have a stable id used to " ++
        "reference it from next_hop hints and step trails.")]
  else
    issueIf (seen.contains step.id)
      (error .stepIdDuplicate s!"{fieldBase}.id"
        (s!"duplicate step id \"{step.id}\" at {fieldBase}. Step ids must be unique within a " ++
          "workflow.")) ++
    (if step.actorRole = "" then
      [error .stepActorRoleMissing s!"{fieldBase}.actor_role"
        (s!"step \"{step.id}\" is missing actor_role. Declare which role drives this step so " ++
          "the projector can derive the next-step owner.")]
    else issueIf (!declaresRole spec step.actorRole)
      (error .stepActorRoleNotDeclared s!"{fieldBase}.actor_role"
        (s!"step \"{step.id}\" references role \"{step.actorRole}\" which is not declared in " ++
          "workflow.roles. Add the role to workflow.roles or change the step."))) ++
    exitIssues spec step fieldBase ++ rePresentIssues step fieldBase ++
    dependencyIssues spec step fieldBase

/-- The loop over the steps, with the ids of the steps before. -/
def stepsIssues (seen : List String) (idx : ℕ) : List WorkflowStepSpec → List ValidationIssue
  | [] => []
  | step :: rest =>
    stepIssues spec seen idx step ++
      stepsIssues (if step.id = "" then seen else step.id :: seen) (idx + 1) rest

/-! ### Edges -/

def suggestionIssues (idx : ℕ) (step : WorkflowStepSpec) : List ValidationIssue :=
  step.suggestedRoles.flatMap fun role =>
    let field := stepField idx ++ ".next_hop.suggested_roles"
    if !declaresRole spec role then
      [error .nextHopRoleNotDeclared field
        (s!"step \"{step.id}\" suggests next-hop role \"{role}\" which is not declared in " ++
          "workflow.roles. Declare the role or fix the spelling — the edge can never route.")]
    else issueIf (!spec.steps.any fun s => s.actorRole = role)
      (error .nextHopRoleHasNoStep field
        (s!"step \"{step.id}\" suggests next-hop role \"{role}\" but no step declares " ++
          s!"actor_role \"{role}\" — resolveNextStep matches suggestions against step " ++
          "actor_roles, so this edge can never route. Add a step for the role or fix the " ++
          "suggestion."))

def branchIssues (idx : ℕ) (step : WorkflowStepSpec) : List ValidationIssue :=
  (((step.nextHop.bind NextHop.on).map BranchMap.entries).getD []).flatMap fun (exit, target) =>
    issueIf (target ≠ "" && !hasStep spec target)
      (error .branchTargetNotFound (stepField idx ++ ".next_hop.on." ++ exit.text)
        (s!"step \"{step.id}\" branches exit \"{exit.text}\" to step \"{target}\" which does " ++
          "not exist. Fix the step id or remove the branch — the edge can never route."))

/-- The allowed exits can neither finish the step nor route it on. -/
def cannotFinish (step : WorkflowStepSpec) : Bool :=
  match step.allowedExits with
  | none | some [] => false
  | some exits =>
    step.id ≠ "" && !exits.contains .done &&
      !(exits.any fun exit => (step.branchTarget exit).isSome) &&
      !(exits.contains .handoff &&
        (spec.isDependencyGraph || (resolveNextStep spec step (some .handoff)).isSome))

def finishIssues (idx : ℕ) (step : WorkflowStepSpec) : List ValidationIssue :=
  let exits := step.allowedExits.getD []
  issueIf (cannotFinish spec step)
    (error .stepCannotFinish (stepField idx ++ ".allowed_exits")
      (s!"step \"{step.id}\" allows exits " ++ exitsText exits ++ ", but none of them can " ++
        "finish it: done is not allowed" ++
        (if exits.contains .handoff then ", and handoff has no next step to route to" else "") ++
        ". Add \"done\" to allowed_exits, or give the step a next step."))

/-! ### The graph -/

/-- `stepById.get(id)`: the last step of that id. -/
def stepById (id : String) : Option WorkflowStepSpec := spec.steps.reverse.find? fun s => s.id = id

/-- `successorsOf`: the steps that depend on it or its structural next step, then the targets of
its mapped exits. -/
def successorsOf (step : WorkflowStepSpec) : List String :=
  let out :=
    if spec.isDependencyGraph then
      (spec.steps.filter fun candidate => candidate.prerequisites.contains step.id).map (·.id)
    else ((resolveNextStep spec step none).map (·.id)).toList
  step.branchTargets.foldl (fun out target =>
    if target ≠ "" && hasStep spec target && !out.contains target then out ++ [target] else out) out

def successorIds (id : String) : List String :=
  ((stepById spec id).map (successorsOf spec)).getD []

def prerequisiteIds (id : String) : List String :=
  ((stepById spec id).map WorkflowStepSpec.prerequisites).getD []

def stepIds : List String := spec.steps.map (·.id)

/-- `reachable`: the breadth-first sweep from the entry. -/
def reachable : List String :=
  match spec.steps.head? with
  | none => []
  | some entry =>
    (sweep (successorIds spec)
      (1 + ((stepIds spec).map fun id => (successorIds spec id).length).sum) [] [entry.id]).getD []

/-- The search of the prerequisite edges, from every step. -/
def dependencySearch : Search String :=
  searchRoots (prerequisiteIds spec)
    ((stepIds spec ++ (stepIds spec).flatMap (prerequisiteIds spec)).length + 1) (stepIds spec)

/-- The search of the routing edges, from the entry. -/
def routingSearch : Search String :=
  searchRoots (successorIds spec) ((stepIds spec).length + 1)
    (spec.steps.head?.map (·.id)).toList

/-- The closed path a search found. -/
def cyclePath : Search String → Option (List String)
  | .cycle path => some path
  | _ => none

def dependencyCycle : Option (List String) :=
  if spec.isDependencyGraph then cyclePath (dependencySearch spec) else none

def arrows (path : List String) : String := " → ".intercalate path

def graphIssues : List ValidationIssue :=
  if spec.steps.isEmpty || spec.steps.any fun s => s.id = "" then []
  else
    (match dependencyCycle spec with
      | none => []
      | some path =>
        [error .dependencyCycle "workflow.steps"
          ("the prerequisite graph cycles (" ++ arrows path ++ "). These steps cannot become " ++
            "ready; remove a cyclic depends_on edge. loop_guards.max_hops bounds routing loops, " ++
            "not prerequisite cycles.")]) ++
    (match cyclePath (routingSearch spec) with
      | none => []
      | some path =>
        issueIf ((dependencyCycle spec).isNone && (enforceableMaxHops spec.maxHops).isNone)
          (error .cycleWithoutMaxHops "workflow.loop_guards.max_hops"
            ("the routing graph cycles (" ++ arrows path ++ ") and " ++
              "workflow.loop_guards.max_hops is not declared — the instance would hop " ++
              "unbounded. Loops (including branch-created remediation loops) are legitimate " ++
              "only under an enforced guard: declare loop_guards.max_hops to sanction the " ++
              "cycle."))) ++
    (spec.steps.filter fun s => !(reachable spec).contains s.id).map fun s =>
      error .stepUnreachable "workflow.steps"
        (s!"step \"{s.id}\" is unreachable: neither the structural routing walk from the entry " ++
          "step (\"" ++ (spec.steps.head?.map (·.id)).getD "" ++ "\") nor any branch edge " ++
          "reaches it. Fix the next_hop edges/branches or remove the dead step.")

/-! ### Hosts, gates and inert keys -/

/-- A probe of the hosts registry: whether the id is registered, and the registered ids. -/
abbrev HostRegistryLookup := String → Bool × List String

def hostIssues (lookup : HostRegistryLookup) (idx : ℕ) (step : WorkflowStepSpec) :
    List ValidationIssue :=
  match step.host with
  | none | some "" => []
  | some host =>
    let (registered, ids) := lookup host
    issueIf (host ≠ "local" && !registered)
      (error .hostNotRegistered (stepField idx ++ ".host")
        (s!"step \"{step.id}\" pins host \"{host}\" which is not in the hosts registry " ++
          "(~/.openrig/hosts.yaml). Registered ids: " ++
          (if ids.isEmpty then "(none)" else "[" ++ ", ".intercalate ids ++ "]") ++
          ". Register the host with rig host add, use \"local\", or remove the pin."))

def gateIssues (idx : ℕ) (step : WorkflowStepSpec) : List ValidationIssue :=
  match step.gate with
  | none => []
  | some gate =>
    let fieldBase := stepField idx ++ ".gate"
    if isHumanSeatSession gate.target then
      issueIf (!truthy gate.summary || !truthy gate.evidenceRef)
        (error .gateHumanFieldsMissing fieldBase
          (s!"step \"{step.id}\" gates on human seat {gate.target} but is missing " ++
            (if truthy gate.summary then "evidence_ref" else "summary") ++
            ". A human-routed gate item must carry a plain-language summary AND a durable " ++
            "evidence pointer (the shipped human-route contract) — add both."))
    else if !declaresRole spec gate.target then
      [error .gateTargetUnresolved (fieldBase ++ ".target")
        (s!"step \"{step.id}\" gates on \"{gate.target}\" which is neither a human seat session " ++
          "(human@kernel form) nor a role declared in workflow.roles. Declare the handler role " ++
          "or use a human seat session.")]
    else issueIf (spec.preferredTargets gate.target).isEmpty
      (warning .gateHandlerNoTargets (fieldBase ++ ".target")
        (s!"step \"{step.id}\" gates on handler role \"{gate.target}\" which declares no " ++
          "preferred_targets — the gate item will have no seat to route to when it trips. Add " ++
          "preferred_targets to the role before instantiating."))

def v2Advisory (key field : String) (extra : Option String) : ValidationIssue :=
  warning .declaredNotEnforcedV1 field
    (s!"\"{key}\" is declared but not enforced in v1 — the engine records it without acting on " ++
      "it" ++ ((extra.map fun e => " (" ++ e ++ ")").getD "") ++ ". Keep it for " ++
      "forward-compatibility or remove it; it changes nothing today.")

/-- The advisories of the declared keys that nothing enforces. -/
def inertIssues : List ValidationIssue :=
  issueIf (spec.invariants.bind WorkflowInvariants.continuationRequired).isSome
    (v2Advisory "invariants.continuation_required" "workflow.invariants.continuation_required"
      none) ++
  issueIf (spec.invariants.bind WorkflowInvariants.preserveLineage).isSome
    (v2Advisory "invariants.preserve_lineage" "workflow.invariants.preserve_lineage"
      (some "lineage IS always preserved via chain_of_record; the flag itself gates nothing")) ++
  issueIf (spec.invariants.bind WorkflowInvariants.closureRequired).isSome
    (v2Advisory "invariants.closure_required" "workflow.invariants.closure_required"
      (some ("closure IS always required by the hot-potato contract; the flag itself gates " ++
        "nothing"))) ++
  issueIf spec.closure.isSome
    (v2Advisory "closure.\x7bsuccess,degraded,failed\x7d" "workflow.closure"
      (some "display-only messages; no consumer renders them yet")) ++
  issueIf (spec.loopGuards.bind WorkflowLoopGuards.spawnBudget).isSome
    (v2Advisory "loop_guards.spawn_budget" "workflow.loop_guards.spawn_budget"
      (some ("it guards a SPAWN mechanism and no spawn/fan-out seam exists in the " ++
        "single-frontier model; enforcement is a NAMED acceptance item of the WF-2/WF-6 " ++
        "parallel-frontier fan-out work (arch ruling 2026-07-06)"))) ++
  match spec.roles.find? fun r => !(r.2.skillRefs.getD []).isEmpty with
  | none => []
  | some (name, _) =>
    [v2Advisory "skill_refs" s!"workflow.roles.{name}.skill_refs"
      (some "documentation-only; owner resolution uses preferred_targets")]

def roleLivenessIssues (alive : String → Bool) (role : String × WorkflowRoleSpec) :
    List ValidationIssue :=
  let targets := (role.2.preferredTargets.getD []).filter fun t => !isRigRelativeTarget t
  issueIf (!targets.isEmpty && !targets.any alive)
    (warning .roleNoLivePreferredTarget s!"workflow.roles.{role.1}.preferred_targets"
      (s!"role \"{role.1}\" has preferred_targets " ++ String.ofList (jsonArray targets) ++
        " but none are live. The instance may stall at the first step requiring this role; " ++
        "ensure at least one target is up before instantiating, or rely on dynamic resolution " ++
        "at runtime."))

/-! ### The validator -/

/-- The issues of a check made of each step in turn. -/
def eachStep (check : ℕ → WorkflowStepSpec → List ValidationIssue) : List ValidationIssue :=
  spec.steps.zipIdx.flatMap fun (step, idx) => check idx step

/-- `WorkflowValidator.validate`; both probes are optional. -/
def validate (seatLivenessCheck : Option (String → Bool))
    (hostRegistryLookup : Option HostRegistryLookup) : List ValidationIssue :=
  entryIssues spec ++ stepsIssues spec [] 0 spec.steps ++ eachStep spec (suggestionIssues spec) ++
    eachStep spec (branchIssues spec) ++ eachStep spec (finishIssues spec) ++ graphIssues spec ++
    ((hostRegistryLookup.map fun lookup => eachStep spec (hostIssues lookup)).getD []) ++
    eachStep spec (gateIssues spec) ++ inertIssues spec ++
    ((seatLivenessCheck.map fun alive => spec.roles.flatMap (roleLivenessIssues alive)).getD [])

/-- `validation.ok`: no issue is an error. -/
def accepts (issues : List ValidationIssue) : Bool := !issues.any fun i => i.severity = .error

/-! ### What acceptance says -/

/-- What the executors rely on in an accepted spec. -/
structure Validated : Prop where
  named : ∀ s ∈ spec.steps, s.id ≠ ""
  nodup : (stepIds spec).Nodup
  prerequisites : ∀ s ∈ spec.steps, ∀ d ∈ s.prerequisites, d ≠ s.id ∧ d ∈ stepIds spec
  branches : ∀ s ∈ spec.steps, ∀ t ∈ s.branchTargets, t ≠ "" → t ∈ stepIds spec
  reached : ∀ entry, spec.steps.head? = some entry → ∀ s ∈ spec.steps,
    Relation.ReflTransGen (Edge (successorIds spec)) entry.id s.id
  acyclic : spec.isDependencyGraph = true →
    ∃ l, Finished (prerequisiteIds spec) l ∧ l.Nodup ∧ ∀ id ∈ stepIds spec, id ∈ l
  bounded : (∃ l, Finished (successorIds spec) l ∧ l.Nodup ∧
    ∀ entry, spec.steps.head? = some entry → entry.id ∈ l) ∨
    (enforceableMaxHops spec.maxHops).isSome

variable {spec}

lemma hasStep_iff {id : String} : hasStep spec id = true ↔ id ∈ stepIds spec := by
  simp [hasStep, stepIds]

lemma stepById_mem {id : String} {s : WorkflowStepSpec} (h : stepById spec id = some s) :
    s ∈ spec.steps ∧ s.id = id :=
  ⟨List.mem_reverse.mp (List.mem_of_find?_eq_some h), by simpa using List.find?_some h⟩

lemma mem_successorsOf {step : WorkflowStepSpec} {id : String} (h : id ∈ successorsOf spec step) :
    (spec.isDependencyGraph = true ∧ ∃ s ∈ spec.steps, step.id ∈ s.prerequisites ∧ s.id = id) ∨
    (spec.isDependencyGraph = false ∧ ∃ s, resolveNextStep spec step none = some s ∧ s.id = id) ∨
    (id ∈ step.branchTargets ∧ id ∈ stepIds spec) := by
  have hfold : ∀ (targets out : List String), id ∈ targets.foldl (fun out target =>
      if target ≠ "" && hasStep spec target && !out.contains target then out ++ [target]
      else out) out → id ∈ out ∨ (id ∈ targets ∧ id ∈ stepIds spec) := by
    intro targets
    induction targets with
    | nil => exact fun out h => .inl h
    | cons t targets ih =>
      intro out h
      rcases ih _ h with h | ⟨h, hid⟩
      · simp only at h
        split at h
        · rename_i hc
          simp only [Bool.and_eq_true] at hc
          rcases List.mem_append.mp h with h | h
          · exact .inl h
          · obtain rfl := List.mem_singleton.mp h
            exact .inr ⟨List.mem_cons_self, hasStep_iff.mp hc.1.2⟩
        · exact .inl h
      · exact .inr ⟨List.mem_cons_of_mem _ h, hid⟩
  rcases hfold _ _ h with h | h
  · split at h
    · rename_i hg
      obtain ⟨s, hs, rfl⟩ := List.mem_map.mp h
      obtain ⟨hmem, hdep⟩ := List.mem_filter.mp hs
      exact .inl ⟨hg, s, hmem, by simpa using hdep, rfl⟩
    · rename_i hg
      simp only [Option.mem_toList, Option.map_eq_some_iff] at h
      obtain ⟨s, hs, rfl⟩ := h
      exact .inr (.inl ⟨by simpa using hg, s, hs, rfl⟩)
  · exact .inr (.inr h)

lemma successorsOf_step {step : WorkflowStepSpec} {id : String}
    (h : id ∈ successorsOf spec step) : id ∈ stepIds spec := by
  rcases mem_successorsOf h with ⟨-, s, hs, -, rfl⟩ | ⟨-, s, hs, rfl⟩ | ⟨-, h⟩
  · exact List.mem_map_of_mem hs
  · exact List.mem_map_of_mem (resolveNextStep_mem hs)
  · exact h

lemma successorIds_step {a b : String} (h : b ∈ successorIds spec a) : b ∈ stepIds spec := by
  unfold successorIds at h
  cases hs : stepById spec a with
  | none => simp [hs] at h
  | some s =>
    rw [hs] at h
    exact successorsOf_step h

/-- **The searches end**: their fuel is enough for every spec. -/
theorem searches_end : dependencySearch spec ≠ .exhausted ∧ routingSearch spec ≠ .exhausted ∧
    ∀ entry, spec.steps.head? = some entry →
      (sweep (successorIds spec)
        (1 + ((stepIds spec).map fun id => (successorIds spec id).length).sum) []
        [entry.id]).isSome := by
  have hentry : ∀ entry, spec.steps.head? = some entry → entry.id ∈ stepIds spec :=
    fun entry h => List.mem_map_of_mem (List.mem_of_head? h)
  refine ⟨?_, ?_, fun entry h => ?_⟩
  · refine searchRoots_ne_exhausted (fun x hx y hy => ?_) fun r hr => List.mem_append_left _ hr
    refine List.mem_append_right _ (List.mem_flatMap.mpr ⟨x, ?_, hy⟩)
    unfold prerequisiteIds at hy
    cases hs : stepById spec x with
    | none => simp [hs] at hy
    | some s => exact (stepById_mem hs).2 ▸ List.mem_map_of_mem (stepById_mem hs).1
  · refine searchRoots_ne_exhausted (fun x _ y hy => successorIds_step hy) fun r hr => ?_
    simp only [Option.mem_toList, Option.map_eq_some_iff] at hr
    obtain ⟨entry, he, rfl⟩ := hr
    exact hentry entry he
  · exact sweep_root_isSome (fun x _ y hy => successorIds_step hy) (hentry entry h)

lemma accepts_append {a b : List ValidationIssue} :
    accepts (a ++ b) = true ↔ accepts a = true ∧ accepts b = true := by
  simp [accepts]

lemma accepts_flatMap {α : Type} {l : List α} {f : α → List ValidationIssue} :
    accepts (l.flatMap f) = true ↔ ∀ x ∈ l, accepts (f x) = true := by
  induction l with
  | nil => simp [accepts]
  | cons a l ih => rw [List.flatMap_cons, accepts_append, ih, List.forall_mem_cons]

lemma accepts_eachStep {check : ℕ → WorkflowStepSpec → List ValidationIssue}
    (h : accepts (eachStep spec check) = true) {s : WorkflowStepSpec} (hs : s ∈ spec.steps) :
    ∃ idx, accepts (check idx s) = true := by
  obtain ⟨idx, hidx, rfl⟩ := List.getElem_of_mem hs
  refine ⟨idx, accepts_flatMap.mp h (spec.steps[idx], idx) ?_⟩
  simp [List.mem_zipIdx_iff_getElem?, hidx]

lemma accepts_issueIf_error {c : Bool} {code : IssueCode} {field message : String}
    (h : accepts (issueIf c (error code field message)) = true) : c = false := by
  cases c with
  | false => rfl
  | true => simp [issueIf, accepts, error] at h

lemma stepIssues_accepts {seen : List String} {idx : ℕ} {step : WorkflowStepSpec}
    (h : accepts (stepIssues spec seen idx step) = true) :
    step.id ≠ "" ∧ step.id ∉ seen ∧
      ∀ d ∈ step.prerequisites, d ≠ step.id ∧ d ∈ stepIds spec := by
  unfold stepIssues at h
  simp only at h
  split at h
  · simp [accepts, error] at h
  rename_i hid
  simp only [accepts_append] at h
  obtain ⟨⟨⟨⟨hseen, -⟩, -⟩, -⟩, hdeps⟩ := h
  refine ⟨hid, by simpa using accepts_issueIf_error hseen, fun d hd => ?_⟩
  have hdep := accepts_flatMap.mp hdeps d hd
  split at hdep
  · simp [accepts, error] at hdep
  · rename_i hself
    exact ⟨hself, hasStep_iff.mp (by simpa using accepts_issueIf_error hdep)⟩

lemma stepsIssues_accepts : ∀ (steps : List WorkflowStepSpec) (seen : List String) (idx : ℕ),
    accepts (stepsIssues spec seen idx steps) = true →
    (∀ s ∈ steps, s.id ≠ "" ∧ s.id ∉ seen ∧
      ∀ d ∈ s.prerequisites, d ≠ s.id ∧ d ∈ stepIds spec) ∧ (steps.map (·.id)).Nodup := by
  intro steps
  induction steps with
  | nil => intro seen idx _; simp
  | cons step rest ih =>
    intro seen idx h
    unfold stepsIssues at h
    rw [accepts_append] at h
    obtain ⟨hid, hseen, hdeps⟩ := stepIssues_accepts h.1
    rw [if_neg hid] at h
    obtain ⟨hrest, hnodup⟩ := ih _ _ h.2
    refine ⟨fun s hs => ?_, ?_⟩
    · rcases List.mem_cons.mp hs with rfl | hs
      · exact ⟨hid, hseen, hdeps⟩
      · obtain ⟨h₁, h₂, h₃⟩ := hrest s hs
        exact ⟨h₁, fun hmem => h₂ (List.mem_cons_of_mem _ hmem), h₃⟩
    · rw [List.map_cons, List.nodup_cons]
      refine ⟨fun hmem => ?_, hnodup⟩
      obtain ⟨s, hs, he⟩ := List.mem_map.mp hmem
      exact (hrest s hs).2.1 (he ▸ List.mem_cons_self)

lemma branchIssues_accepts {idx : ℕ} {step : WorkflowStepSpec}
    (h : accepts (branchIssues spec idx step) = true) :
    ∀ t ∈ step.branchTargets, t ≠ "" → t ∈ stepIds spec := by
  intro t ht hne
  unfold WorkflowStepSpec.branchTargets at ht
  cases hon : step.nextHop.bind NextHop.on with
  | none => simp [hon] at ht
  | some on =>
    simp only [hon, Option.map_some, Option.getD_some, List.mem_map] at ht
    obtain ⟨⟨exit, t'⟩, hentry, rfl⟩ := ht
    unfold branchIssues at h
    simp only [hon, Option.map_some, Option.getD_some] at h
    have hissue := accepts_issueIf_error (accepts_flatMap.mp h (exit, t') hentry)
    simp only [Bool.and_eq_false_iff, decide_eq_false_iff_not, Decidable.not_not,
      Bool.not_eq_false'] at hissue
    exact hasStep_iff.mp (hissue.resolve_left hne)

/-- **An accepted spec is validated**, whatever the optional probes answered. -/
theorem validated_of_accepts {alive : Option (String → Bool)} {lookup : Option HostRegistryLookup}
    (h : accepts (validate spec alive lookup) = true) : Validated spec := by
  unfold validate at h
  simp only [accepts_append] at h
  obtain ⟨⟨⟨⟨⟨⟨⟨⟨⟨-, hsteps⟩, -⟩, hbranches⟩, -⟩, hgraph⟩, -⟩, -⟩, -⟩, -⟩ := h
  obtain ⟨hstep, hnodup⟩ := stepsIssues_accepts _ _ _ hsteps
  have hnamed : ∀ s ∈ spec.steps, s.id ≠ "" := fun s hs => (hstep s hs).1
  have hgraph' : spec.steps ≠ [] →
      dependencyCycle spec = none ∧
      (cyclePath (routingSearch spec) = none ∨ (enforceableMaxHops spec.maxHops).isSome) ∧
      ∀ s ∈ spec.steps, s.id ∈ reachable spec := by
    intro hne
    unfold graphIssues at hgraph
    rw [if_neg (by simpa [hne] using hnamed), accepts_append, accepts_append] at hgraph
    obtain ⟨⟨hdep, hcycle⟩, hreach⟩ := hgraph
    have hnodep : dependencyCycle spec = none := by
      cases hd : dependencyCycle spec with
      | none => rfl
      | some path => simp [hd, accepts, error] at hdep
    refine ⟨hnodep, ?_, fun s hs => ?_⟩
    · cases hc : cyclePath (routingSearch spec) with
      | none => exact .inl rfl
      | some path =>
        rw [hc] at hcycle
        have := accepts_issueIf_error hcycle
        simpa [hnodep, Option.isSome_iff_ne_none] using this
    · by_contra hno
      simp only [accepts, Bool.not_eq_true', List.any_eq_false, List.mem_map,
        List.mem_filter] at hreach
      exact absurd (hreach _ ⟨s, ⟨hs, by simpa using hno⟩, rfl⟩) (by simp [error])
  obtain ⟨hend₁, hend₂, hend₃⟩ := @searches_end spec
  refine ⟨hnamed, hnodup, fun s hs => (hstep s hs).2.2, fun s hs => ?_, fun entry he s hs => ?_,
    fun hg => ?_, ?_⟩
  · obtain ⟨idx, hidx⟩ := accepts_eachStep hbranches hs
    exact branchIssues_accepts hidx
  · have hmem := (hgraph' (List.ne_nil_of_mem hs)).2.2 s hs
    unfold reachable at hmem
    rw [he] at hmem
    obtain ⟨out, hout⟩ := Option.isSome_iff_exists.mp (hend₃ entry he)
    simp only [hout, Option.getD_some] at hmem
    exact sweep_sound _ _ _ _ (by simp) (by simp [Relation.ReflTransGen.refl]) hout _ hmem
  · cases hsearch : dependencySearch spec with
    | exhausted => exact absurd hsearch hend₁
    | cleared black =>
      obtain ⟨hf, hn, hroots⟩ := searchRoots_cleared hsearch
      exact ⟨black, hf, hn, hroots⟩
    | cycle path =>
      have hne : spec.steps ≠ [] := by
        rintro hnil
        simp [WorkflowSpec.isDependencyGraph, hnil] at hg
      have := (hgraph' hne).1
      simp [dependencyCycle, hg, hsearch, cyclePath] at this
  · by_cases hne : spec.steps = []
    · exact .inl ⟨[], trivial, List.nodup_nil, by simp [hne]⟩
    rcases (hgraph' hne).2.1 with hcycle | hmax
    · cases hsearch : routingSearch spec with
      | exhausted => exact absurd hsearch hend₂
      | cycle path => simp [hsearch, cyclePath] at hcycle
      | cleared black =>
        obtain ⟨hf, hn, hroots⟩ := searchRoots_cleared hsearch
        exact .inl ⟨black, hf, hn, fun entry he => hroots _ (by simp [he])⟩
    · exact .inr hmax

end OpenRig.WorkflowValidator
