import OpenRig.GraphBoard
import OpenRig.ProjectLifecycle

/-!
In-place graph revision: the comparison of a running instance with its recompiled manifests, and
the revision that binds the proposal under an operation key.

The manifests are read when the comparison runs; the receipt of a revision is kept in the binding
of the instance it revised.
-/

namespace OpenRig.Reconciliation

open OpenRig.JsText OpenRig.QueueDb OpenRig.WorkflowTypes OpenRig.WorkflowStore
open OpenRig.WorkflowRouting OpenRig.WorkflowProjector OpenRig.WorkflowValidator
open OpenRig.Instantiation OpenRig.GraphBoard OpenRig.ProjectLifecycle

/-- What a lifecycle operation reads from outside the tables. -/
structure LifecycleEnv where
  base : WorkflowEnv
  digest : Digest
  /-- The manifests of a mission path, as they are now. -/
  readMission : String → Compiled Manifests
  /-- The source hash under which the cache holds a generated spec, by name and version. -/
  cachedHash : String → String → Option String
  /-- `lifecycleScope`, of the slice directories the manifests name. -/
  lifecycleScope : LifecycleCompilation → Option WorkflowScope

/-- `compileLifecycle`. -/
def LifecycleEnv.compile (env : LifecycleEnv) (missionPath : String)
    (operationKey : Option String) : Compiled LifecycleCompilation := do
  let m ← env.readMission missionPath
  compileProjectLifecycle env.digest m operationKey

/-! ### The comparison -/

inductive ReconciliationStatus where
  | current | sourceOnly | compatible | incompatible | unavailable | unbound
  deriving DecidableEq, Repr

structure GraphReconciliation where
  status : ReconciliationStatus := .unbound
  adopted : Option Bool := none
  boundDigest : Option String
  proposedDigest : Option String := none
  boundVersion : String
  proposedVersion : Option String := none
  compatible : Bool := false
  expectedVersion : ℕ
  reasons : List String := []
  deriving DecidableEq

/-- A comparison and the compilation it compared with. -/
structure Proposal where
  view : GraphReconciliation
  compilation : Option LifecycleCompilation := none

/-- `sourcesOf`: the well-formed sources of a binding. -/
def sourcesOf (binding : LifecycleBinding) : List LifecycleSourceDigest :=
  binding.sources.filter fun s => ["project", "mission", "slice"].contains s.kind

/-- Two JSON objects with the same entries. -/
def sameEntries {α : Type} [BEq α] : Option (List (String × α)) → Option (List (String × α)) → Bool
  | none, none => true
  | some a, some b => a.isPerm b
  | _, _ => false

/-- `oldContract` and `newContract` are the same: all but the version, the steps and the exception
routing. -/
def sameContract (a b : WorkflowSpec) : Bool :=
  let contract := fun spec : WorkflowSpec =>
    { spec with
      version := "", roles := [], steps := [], exceptionRouting := none
      coordinationTerminalTurnRule := some (spec.coordinationTerminalTurnRule.getD "hot_potato") }
  decide (contract a = contract b) && a.roles.isPerm b.roles

/-- The two specs route exceptions alike. -/
def sameRouting (a b : WorkflowSpec) : Bool :=
  let plain :=
    fun spec : WorkflowSpec => spec.exceptionRouting.map fun r => { r with classes := none }
  decide (plain a = plain b) &&
    sameEntries (a.exceptionRouting.bind (·.classes)) (b.exceptionRouting.bind (·.classes))

/-- `same(graph(a), graph(b))`. -/
def sameGraph (a b : WorkflowSpec) : Bool :=
  sameContract a b && sameRouting a b && decide (a.steps = b.steps)

/-- `completed`: the steps some trail row closes as done or handed off. -/
def completedSteps (i : InstanceRow) : List String :=
  (i.trail.filter fun e => e.closureReason.completes).map (·.stepId)

/-- `protectedIds`: the steps with completed, live or failed work. -/
def protectedIds (i : InstanceRow) : List String :=
  completedSteps i ++ i.liveStepIds ++ (i.listFailureOccurrences none).map (·.stepId)

def reasonIf (c : Bool) (reason : String) : List String := if c then [reason] else []

/-- The reasons about the instance and the two specs as wholes. -/
def wholeReasons (i : InstanceRow) (proposed : WorkflowSpec) : List String :=
  reasonIf (i.listFrontierBindings.length ≠ i.currentFrontier.length)
      "Current frontier has missing or ambiguous step bindings; resolve custody before revision." ++
    reasonIf (!i.status.isLive) (s!"Instance is {statusText i.status}; retained terminal or " ++
      "failed history is not revised.") ++
    reasonIf (i.spec.steps.any isConditional || proposed.steps.any isConditional)
      ("Only explicit dependency graphs without conditional jumps support in-place revision.") ++
    reasonIf (!sameContract i.spec proposed)
      ("Workflow-wide routing, entry, policy or context contract changed; restore those fields " ++
        "and revise future steps separately.")

/-- The reasons about the required steps and their order. -/
def requiredReasons (spec proposed : WorkflowSpec) (oldRequired newRequired : List String) :
    List String :=
  (oldRequired.filter fun id => !newRequired.contains id).map (fun id =>
      s!"Required obligation {id} cannot be removed.") ++
    oldRequired.flatMap fun id => (lostPrerequisites spec proposed oldRequired id).map fun parent =>
      s!"Required order {parent} before {id} cannot be removed."

/-- The reason a step of the running spec gives: it is gone, or it has work and changed. -/
def stepReason (kept : List String) (proposed : WorkflowSpec) (step : WorkflowStepSpec) :
    List String :=
  match proposed.step? step.id with
  | none =>
    [s!"Step {step.id} cannot be removed; preserve its obligation and record an attributed " ++
      "disposition."]
  | some next => reasonIf (step ≠ next && kept.contains step.id)
      (s!"Step {step.id} already has completed, live or failed work. Its judgment/custody needs " ++
        "explicit reconsideration; restore this step and revise unstarted successors.")

/-- The reason a proposed step without work gives: nothing is left to trigger it. -/
def triggerReason (i : InstanceRow) (step : WorkflowStepSpec) : List String :=
  reasonIf (!(protectedIds i).contains step.id &&
      step.prerequisites.all (completedSteps i).contains)
    (s!"Unstarted step {step.id} has no unfinished prerequisite to trigger it. Keep it " ++
      "dependent on outstanding work; this revision does not replay completed prerequisites.")

/-- `view.reasons`, of a proposal with an eligible spec. -/
def revisionReasons (i : InstanceRow) (binding : LifecycleBinding) (c : LifecycleCompilation)
    (proposed : WorkflowSpec) : List String :=
  wholeReasons i proposed ++
    requiredReasons i.spec proposed binding.graphSource.requiredSteps c.graphSource.requiredSteps ++
    (proposed.steps.flatMap fun step => reasonIf (truthy step.host && step.host ≠ some "local")
      s!"Step {step.id} requires unsupported remote execution; keep a local supported target.") ++
    i.spec.steps.flatMap (stepReason (protectedIds i) proposed) ++
    proposed.steps.flatMap (triggerReason i)

/-- The view of an instance before anything was compared. -/
def boundView (i : InstanceRow) : GraphReconciliation where
  boundDigest := i.compiledInputDigest
  boundVersion := i.workflowVersion
  expectedVersion := i.version

def compareWith (i : InstanceRow) (binding : LifecycleBinding) (c : LifecycleCompilation) :
    GraphReconciliation :=
  let view := { boundView i with
    proposedDigest := some c.compiledInputDigest
    proposedVersion := c.workflowSpec.map WorkflowSpec.version }
  match c.workflowSpec.filter fun _ => c.eligible with
  | none => { view with status := .incompatible, reasons := c.unknowns }
  | some proposed =>
    let reasons := revisionReasons i binding c proposed
    let adopted := decide (i.compiledInputDigest = some c.compiledInputDigest)
    { view with
      adopted := some adopted
      compatible := reasons.isEmpty
      reasons
      status :=
        if adopted then .current
        else if !reasons.isEmpty then .incompatible
        else if sameGraph i.spec proposed then .sourceOnly
        else .compatible }

def compare (env : LifecycleEnv) (i : InstanceRow) : Proposal :=
  let view := boundView i
  match i.lifecycleBinding, i.lifecycleOperationKey.filter (· ≠ "") with
  | some binding, some key =>
    if (sourcesOf binding).length ≠ binding.sources.length then
      { view := { view with
          status := .unavailable
          reasons := ["Retained source bindings are malformed or incomplete; restore their " ++
            "provenance before revision."] } }
    else match ((sourcesOf binding).find? fun s => s.kind = "mission").filter fun s =>
      s.path ≠ "" with
      | none =>
        { view := { view with
            status := .unavailable
            reasons := ["Bound mission source or retained running specification is unavailable; " ++
              "restore that evidence before revision."] } }
      | some mission =>
        match env.compile mission.path (some key) with
        | .error e => { view := { view with status := .unavailable, reasons := [e.message] } }
        | .ok c => { view := compareWith i binding c, compilation := some c }
  | _, _ =>
    { view := { view with
        reasons := ["This is not a manifest-bound lifecycle. Inspect its authored spec; " ++
          "lifecycle revision does not migrate arbitrary workflows."] } }

/-! ### Operations -/

/-- The committed effect of an operation key. -/
inductive GraphOperation where
  | instantiate (i : InstanceRow)
  | revision (receipt : RevisionReceipt) (i : InstanceRow)

/-- `lifecycleBinding.revisionHistory`. -/
def revisionHistory (i : InstanceRow) : List RevisionReceipt :=
  (i.lifecycleBinding.map (·.revisionHistory)).getD []

def receipts (instances : Instances) : List (InstanceRow × RevisionReceipt) :=
  instances.rows.flatMap fun i => (revisionHistory i).map fun r => (i, r)

def recoverGraphOperation (instances : Instances) (key : String) : Option GraphOperation :=
  match getByLifecycleOperationKey instances key with
  | some i => some (.instantiate i)
  | none =>
    ((receipts instances).find? fun x => x.2.operationKey = key).map fun x => .revision x.2 x.1

/-! ### Revision -/

/-- The arguments of `reviseGraph`. -/
structure ReviseInput where
  instanceId : String
  operationKey : String
  expectedVersion : ℚ
  expectedDigest : String
  actorSession : String
  reason : String
  deriving DecidableEq

/-- `Number.isSafeInteger`. -/
def isSafeInteger (q : ℚ) : Bool := q.den = 1 && q.num.natAbs ≤ 9007199254740991

def shellQuote (s : String) : String :=
  "'" ++ String.ofList (s.toList.flatMap fun c =>
    if c = '\'' then "'\"'\"'".toList else [c]) ++ "'"

structure RevisionResult where
  receipt : RevisionReceipt
  instance_ : InstanceRow
  replayed : Bool
  events : List WorkflowEvent := []

/-- The receipt records the caller's decision. -/
def sameDecision (input : ReviseInput) (receipt : RevisionReceipt) (i : InstanceRow) : Bool :=
  i.instanceId = input.instanceId && (receipt.expectedVersion : ℚ) = input.expectedVersion &&
    receipt.compiledInputDigest = input.expectedDigest &&
    receipt.actorSession = input.actorSession && receipt.reason = input.reason

def revisionReceipt (env : LifecycleEnv) (i : InstanceRow) (input : ReviseInput)
    (view : GraphReconciliation) (c : LifecycleCompilation) (proposed : WorkflowSpec) :
    RevisionReceipt where
  operationKey := input.operationKey
  instanceId := input.instanceId
  expectedVersion := i.version
  previousDigest := i.compiledInputDigest
  previousVersion := i.workflowVersion
  compiledInputDigest := c.compiledInputDigest
  workflowVersion := proposed.version
  actorSession := input.actorSession
  reason := input.reason
  at_ := env.base.base.now
  sourceOnly := view.status = .sourceOnly
  preservedFrontier := i.currentFrontier

/-- `reviseLifecycle`: the proposal is bound, and its receipt recorded. -/
def reviseLifecycle (i : InstanceRow) (binding : LifecycleBinding) (c : LifecycleCompilation)
    (proposed : WorkflowSpec) (receipt : RevisionReceipt) : InstanceRow :=
  { i with
    spec := proposed
    compiledInputDigest := some c.compiledInputDigest
    version := i.version + 1
    lifecycleBinding := some { binding with
      initialInputDigest := binding.initialInputDigest <|> i.compiledInputDigest
      sources := c.sources
      graphSource := c.graphSource
      revisionHistory := binding.revisionHistory ++ [receipt] } }

/-- `UPDATE workflow_instances … WHERE instance_id = ?`. -/
def putInstance (instances : Instances) (j : InstanceRow) : Instances :=
  instances.update j.instanceId fun r => { j with instanceId := r.instanceId }

/-- `fail`. -/
def conflictIf (c : Bool) (message : String) : Outcome Unit :=
  rejectIf c .lifecycleRevisionConflict message

/-- A revision past its replay check. -/
def reviseFresh (env : LifecycleEnv) (instances : Instances) (input : ReviseInput) :
    Outcome (RevisionResult × Instances) := do
  match instances.get? input.instanceId with
  | none => reject .instanceNotFound s!"workflow instance {input.instanceId} not found"
  | some i => do
    conflictIf ((i.version : ℚ) ≠ input.expectedVersion)
      "The instance progressed since inspection. Inspect again before choosing a revision."
    let proposal := compare env i
    let view := proposal.view
    conflictIf (view.proposedDigest ≠ some input.expectedDigest)
      "Authored input changed since inspection. Inspect the new proposal before applying it."
    match i.lifecycleBinding, proposal.compilation.bind fun c =>
      c.workflowSpec.map fun s => (c, s) with
    | some binding, some (c, proposed) => do
      conflictIf (!view.compatible || view.adopted = some true)
        "Revision refused; existing work is preserved."
      rejectIf ((env.cachedHash proposed.id proposed.version).any (· ≠ c.compiledInputDigest))
        .generatedSpecIdentityCollision
        (s!"generated workflow {proposed.id}@{proposed.version} already names different source " ++
          "bytes")
      let receipt := revisionReceipt env i input view c proposed
      let j := reviseLifecycle i binding c proposed receipt
      return ({ receipt, instance_ := j, replayed := false,
                events := [.revised i.instanceId i.workflowName input.operationKey
                  c.compiledInputDigest input.actorSession] }, putInstance instances j)
    | _, _ => reject .lifecycleRevisionConflict "Revision refused; existing work is preserved."

def reviseGraph (env : LifecycleEnv) (instances : Instances) (input : ReviseInput) :
    Outcome (RevisionResult × Instances) := do
  conflictIf (isBlank input.operationKey || isBlank input.actorSession || isBlank input.reason ||
      !isSafeInteger input.expectedVersion || input.expectedDigest = "")
    ("Revision needs the inspected version/digest, stable operation key, actor and decision. " ++
      "Run rig workflow revise <instance>.")
  match recoverGraphOperation instances input.operationKey with
  | some (.revision receipt i) => do
    conflictIf (!sameDecision input receipt i)
      ("This operation key already records a different decision. Inspect rig workflow operation " ++
        shellQuote input.operationKey)
    return ({ receipt, instance_ := i, replayed := true }, instances)
  | some (.instantiate _) =>
    reject .lifecycleRevisionConflict
      ("This operation key already records a different decision. Inspect rig workflow operation " ++
        shellQuote input.operationKey)
  | none => reviseFresh env instances input

/-! ### What an accepted revision had -/

/-- **An accepted proposal** for a running instance. -/
structure Accepted (env : LifecycleEnv) (i : InstanceRow) (input : ReviseInput)
    (binding : LifecycleBinding) (c : LifecycleCompilation) (proposed : WorkflowSpec) : Prop where
  bound : i.lifecycleBinding = some binding
  version : (i.version : ℚ) = input.expectedVersion
  compiled : ∃ path key, env.compile path (some key) = .ok c
  eligible : c.eligible = true
  spec : c.workflowSpec = some proposed
  digest : c.compiledInputDigest = input.expectedDigest
  clean : revisionReasons i binding c proposed = []
  fresh : i.compiledInputDigest ≠ some c.compiledInputDigest

/-- The committed revision of an instance. -/
structure Revised (env : LifecycleEnv) (i : InstanceRow) (input : ReviseInput)
    (receipt : RevisionReceipt) (j : InstanceRow) : Prop where
  accepted : ∃ binding c proposed, Accepted env i input binding c proposed ∧
    j = reviseLifecycle i binding c proposed receipt
  decision : sameDecision input receipt j = true
  key : receipt.operationKey = input.operationKey

lemma compare_compiled {env : LifecycleEnv} {i : InstanceRow} {c : LifecycleCompilation}
    (h : (compare env i).compilation = some c) :
    ∃ binding key path, i.lifecycleBinding = some binding ∧
      env.compile path (some key) = .ok c ∧ (compare env i).view = compareWith i binding c := by
  unfold compare at h ⊢
  simp only at h ⊢
  split at h
  · rename_i binding key hbinding hkey
    split at h
    · cases h
    · rename_i hsources
      split at h
      · cases h
      · rename_i mission hmission
        split at h
        · cases h
        · rename_i c' hc
          cases h
          refine ⟨binding, key, mission.path, hbinding, hc, ?_⟩
          rw [if_neg hsources]
  · cases h

lemma compareWith_compatible {i : InstanceRow} {binding : LifecycleBinding}
    {c : LifecycleCompilation} {proposed : WorkflowSpec} (hspec : c.workflowSpec = some proposed)
    (h : (compareWith i binding c).compatible = true)
    (hnew : (compareWith i binding c).adopted ≠ some true) :
    c.eligible = true ∧ revisionReasons i binding c proposed = [] ∧
      i.compiledInputDigest ≠ some c.compiledInputDigest := by
  unfold compareWith at h hnew
  simp only at h hnew
  split at h
  · cases h
  · rename_i spec hfilter
    rw [Option.filter_eq_some_iff, hspec] at hfilter
    obtain ⟨hsome, hel⟩ := hfilter
    cases hsome
    rw [hspec, Option.filter_some, if_pos hel] at hnew
    exact ⟨hel, by simpa using h, by simpa using hnew⟩

/-- What a committed call of `reviseGraph` does. -/
inductive ReviseOutcome (env : LifecycleEnv) (instances : Instances) (input : ReviseInput)
    (r : RevisionResult) (instances' : Instances) : Prop
  | replay (hprior : recoverGraphOperation instances input.operationKey =
        some (.revision r.receipt r.instance_))
      (hsame : sameDecision input r.receipt r.instance_ = true) (hresult : r.replayed = true)
      (hstill : instances' = instances)
  | revised {i : InstanceRow} (hnone : recoverGraphOperation instances input.operationKey = none)
      (hi : instances.get? input.instanceId = some i)
      (hrev : Revised env i input r.receipt r.instance_) (hresult : r.replayed = false)
      (hput : instances' = putInstance instances r.instance_)

lemma reviseFresh_eq_ok {env : LifecycleEnv} {instances instances' : Instances}
    {input : ReviseInput} {r : RevisionResult}
    (h : reviseFresh env instances input = .ok (r, instances')) :
    ∃ i, instances.get? input.instanceId = some i ∧ Revised env i input r.receipt r.instance_ ∧
      r.replayed = false ∧ instances' = putInstance instances r.instance_ := by
  unfold reviseFresh conflictIf at h
  split at h
  · simp at h
  · rename_i i hi
    have hkey : i.instanceId = input.instanceId := Table.get?_key hi
    obtain ⟨_, hversion, h⟩ := obind_eq_ok.mp h
    simp only at h
    obtain ⟨_, hdigest, h⟩ := obind_eq_ok.mp h
    split at h
    · rename_i _ _ binding c proposed hbinding hcomp
      obtain ⟨_, hcompat, h⟩ := obind_eq_ok.mp h
      obtain ⟨_, -, h⟩ := obind_eq_ok.mp h
      cases opure_eq_ok.mp h
      obtain ⟨c', hc', hmap⟩ := Option.bind_eq_some_iff.mp hcomp
      obtain ⟨s', hs', hpair⟩ := Option.map_eq_some_iff.mp hmap
      cases hpair
      obtain ⟨binding', key, path, hb', hcompiled, hview⟩ := compare_compiled hc'
      cases hbinding.symm.trans hb'
      rw [hview] at hdigest hcompat
      rw [rejectIf_eq_ok] at hversion hdigest hcompat
      simp only [Bool.or_eq_false_iff, Bool.not_eq_false', decide_eq_false_iff_not] at hcompat
      obtain ⟨hel, hclean, hnew⟩ := compareWith_compatible hs' hcompat.1 hcompat.2
      have hversion : (i.version : ℚ) = input.expectedVersion := by simpa using hversion
      have hd : c.compiledInputDigest = input.expectedDigest := by
        have hd : (compareWith i binding c).proposedDigest = some input.expectedDigest := by
          simpa using hdigest
        have hp : (compareWith i binding c).proposedDigest = some c.compiledInputDigest := by
          unfold compareWith
          simp only
          split <;> rfl
        exact Option.some.inj (hp.symm.trans hd)
      refine ⟨i, hi, ⟨⟨binding, c, proposed, ⟨hbinding, hversion, ⟨path, key, hcompiled⟩, hel, hs',
        hd, hclean, hnew⟩, rfl⟩, ?_, rfl⟩, rfl, rfl⟩
      simp [sameDecision, revisionReceipt, reviseLifecycle, hkey, hversion, hd]
    · simp at h

/-- **A committed revision call** replays the receipt of its key, or binds an accepted proposal. -/
theorem reviseGraph_eq_ok {env : LifecycleEnv} {instances instances' : Instances}
    {input : ReviseInput} {r : RevisionResult}
    (h : reviseGraph env instances input = .ok (r, instances')) :
    ReviseOutcome env instances input r instances' := by
  unfold reviseGraph conflictIf at h
  obtain ⟨_, -, h⟩ := obind_eq_ok.mp h
  split at h
  · rename_i receipt i hprior
    obtain ⟨_, hsame, h⟩ := obind_eq_ok.mp h
    cases opure_eq_ok.mp h
    exact .replay hprior (by simpa using hsame) rfl rfl
  · simp at h
  · rename_i hnone
    obtain ⟨i, hi, hrev, hresult, hput⟩ := reviseFresh_eq_ok h
    exact .revised hnone hi hrev hresult hput

end OpenRig.Reconciliation
