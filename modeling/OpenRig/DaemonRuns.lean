import OpenRig.GraphCalls
import OpenRig.Reconciliation

/-!
A daemon's run: the queue's verbs, instantiations, workflow calls and graph revisions, in any
order, over one set of tables.

The queue's frontier guard reads the instances as they are, so each act that writes an instance
refreshes what it sees.
-/

namespace OpenRig.DaemonRuns

open OpenRig.QueueDb OpenRig.Firing OpenRig.WorkflowTypes OpenRig.WorkflowStore
open OpenRig.WorkflowRouting OpenRig.WorkflowProjector OpenRig.WorkflowRuntime
open OpenRig.WorkflowValidator OpenRig.Instantiation OpenRig.GraphCalls OpenRig.ProjectLifecycle
open OpenRig.Reconciliation OpenRig.Runs

/-! ### Lifecycle instantiation -/

/-- The arguments of `instantiateLifecycle`. -/
structure LifecycleInstantiation where
  missionPath : String
  operationKey : String
  rootObjective : String
  createdBySession : String
  entryOwnerSession : Option String := none
  targetRig : Option String := none
  deriving DecidableEq

inductive LifecycleRefusal where
  | compile (e : CompileError)
  | call (e : Refusal)
  deriving DecidableEq

/-- The lifecycle identity and source bindings of an instance created from a compilation. -/
def lifecycleInput (operationKey : String) (c : LifecycleCompilation) : LifecycleInput where
  operationKey := operationKey
  compiledInputDigest := c.compiledInputDigest
  binding :=
    { sources := c.sources, graphSource := c.graphSource
      initialInputDigest := some c.compiledInputDigest }

/-- The instantiation of an eligible compilation; a new one first puts its spec in the cache. -/
def instantiateCompiled (env : LifecycleEnv) (instances : Instances) (db : Db)
    (input : LifecycleInstantiation) (c : LifecycleCompilation) (spec : WorkflowSpec) :
    Outcome (InstantiateResult × Instances × Db) := do
  rejectIf ((getByLifecycleOperationKey instances input.operationKey).isNone &&
      (env.cachedHash spec.id spec.version).any (· ≠ c.compiledInputDigest))
    .generatedSpecIdentityCollision
    s!"generated workflow {spec.id}@{spec.version} already names different source bytes"
  instantiate env.base instances db
    { spec, rootObjective := input.rootObjective, createdBySession := input.createdBySession
      entryOwnerSession := input.entryOwnerSession, targetRig := input.targetRig
      scope := env.lifecycleScope c, lifecycle := some (lifecycleInput input.operationKey c) }

def instantiateLifecycle (env : LifecycleEnv) (instances : Instances) (db : Db)
    (input : LifecycleInstantiation) :
    Except LifecycleRefusal (InstantiateResult × Instances × Db) :=
  match recoverGraphOperation instances input.operationKey with
  | some (.revision _ _) =>
    .error (.call (.workflow .lifecycleOperationConflict
      ("This key already records a graph revision; inspect workflow operation before choosing a " ++
        "new creation key.")))
  | _ =>
    match env.compile input.missionPath (some input.operationKey) with
    | .error e => .error (.compile e)
    | .ok c =>
      match c.workflowSpec.filter fun _ => c.eligible with
      | none =>
        .error (.call (.workflow .lifecycleNotEligible
          "compiled lifecycle is inspectable but not eligible for instantiation"))
      | some spec => (instantiateCompiled env instances db input c spec).mapError .call

/-! ### Acts -/

structure Daemon where
  db : Db
  instances : Instances

/-- A daemon before anything ran. -/
def Daemon.fresh : Daemon := ⟨Db.empty, Table.empty⟩

inductive Act where
  | queue (env : Env) (op : Op)
  /-- The route of an authored spec passes no lifecycle. -/
  | instantiate (env : WorkflowEnv) (input : InstantiateInput)
  | instantiateLifecycle (env : LifecycleEnv) (input : LifecycleInstantiation)
  | call (env : WorkflowEnv) (instanceId : String) (call : Call)
  | revise (env : LifecycleEnv) (input : ReviseInput)

/-- The tables after instances were written. -/
def Daemon.write (db : Db) (instances : Instances) : Daemon where
  db := { db with instances := instances.rows.filterMap InstanceRow.guardView }
  instances := instances

/-- The tables after an act, unless it is refused. -/
def Act.run (d : Daemon) : Act → Option Daemon
  | .queue env op => (exec env d.db op).toOption.map fun db => { d with db }
  | .instantiate env input =>
    (Instantiation.instantiate env d.instances d.db { input with lifecycle := none }).toOption.map
      fun (_, instances, db) => .write db instances
  | .instantiateLifecycle env input =>
    (DaemonRuns.instantiateLifecycle env d.instances d.db input).toOption.map
      fun (_, instances, db) => .write db instances
  | .call env instanceId c =>
    (d.instances.get? instanceId).bind fun i =>
      (c.run env d.db i).toOption.map fun (_, j, db) => .write db (putInstance d.instances j)
  | .revise env input =>
    (reviseGraph env d.instances input).toOption.map fun (_, instances) => .write d.db instances

def steps (d : Daemon) (a : Act) (d' : Daemon) : Prop := a.run d = some d'

/-! ### What no call writes -/

/-- What names an instance and binds it to its spec and its manifests. -/
def identity (i : InstanceRow) :
    String × WorkflowSpec × Option String × Option String × Option LifecycleBinding :=
  (i.instanceId, i.spec, i.lifecycleOperationKey, i.compiledInputDigest, i.lifecycleBinding)

lemma commitSerial_identity {env : WorkflowEnv} {db db' : Db} {i j : InstanceRow}
    {input : ProjectStepInput} {packet : QueueItem} {step : WorkflowStepSpec} {plan : SerialPlan}
    {r : ProjectStepResult} (h : commitSerial env db i input packet step plan = .ok (r, j, db')) :
    identity j = identity i := by
  unfold commitSerial at h
  simp only at h
  obtain ⟨closure, -, h⟩ := obind_eq_ok.mp h
  obtain ⟨db₁, -, h⟩ := obind_eq_ok.mp h
  obtain ⟨db₂, -, h⟩ := obind_eq_ok.mp h
  obtain ⟨db₃, -, h⟩ := obind_eq_ok.mp h
  obtain ⟨⟨exception, db₄⟩, -, h⟩ := obind_eq_ok.mp h
  split at h
  · obtain ⟨-, -, h⟩ := obind_eq_ok.mp h
    cases opure_eq_ok.mp h
    rfl
  · cases opure_eq_ok.mp h
    rfl

lemma project_identity {env : WorkflowEnv} {db db' : Db} {i j : InstanceRow}
    {input : ProjectStepInput} {r : ProjectStepResult}
    (h : project env db i input = .ok (r, j, db')) :
    identity j = identity i := by
  cases hg : i.spec.isDependencyGraph with
  | true =>
    rcases project_graph hg h with ⟨_, _, _, _, rfl, _⟩ | ⟨_, _, _, _, hadv, _⟩
    · rfl
    · obtain ⟨db', hrow⟩ := hadv.row
      rw [hrow]
      rfl
  | false =>
    unfold project at h
    obtain ⟨⟨packet, step⟩, -, h⟩ := obind_eq_ok.mp h
    simp only [hg, Bool.false_eq_true, if_false] at h
    unfold projectSerial at h
    obtain ⟨_, -, h⟩ := obind_eq_ok.mp h
    split at h
    · cases h
      rfl
    · obtain ⟨plan, -, h⟩ := obind_eq_ok.mp h
      exact commitSerial_identity h

lemma resume_identity {env : WorkflowEnv} {db db' : Db} {i j : InstanceRow} {input : ResumeInput}
    {r : ResumeResult} (h : resume env db i input = .ok (r, j, db')) : identity j = identity i := by
  rcases resume_eq_ok h with ⟨_, -, rfl, -⟩ | ⟨_, hre, -⟩ | ⟨-, -, h⟩
  · rfl
  · rw [hre.row]
    rfl
  · unfold resumeInstance at h
    obtain ⟨_, -, h⟩ := obind_eq_ok.mp h
    obtain ⟨_, -, h⟩ := obind_eq_ok.mp h
    obtain ⟨_, -, h⟩ := obind_eq_ok.mp h
    obtain ⟨_, -, h⟩ := obind_eq_ok.mp h
    simp only at h
    split at h
    · obtain ⟨_, -, h⟩ := obind_eq_ok.mp h
      obtain ⟨_, -, h⟩ := obind_eq_ok.mp h
      obtain ⟨_, -, h⟩ := obind_eq_ok.mp h
      cases opure_eq_ok.mp h
      rfl
    · obtain ⟨_, -, h⟩ := obind_eq_ok.mp h
      obtain ⟨_, -, h⟩ := obind_eq_ok.mp h
      obtain ⟨_, -, h⟩ := obind_eq_ok.mp h
      cases opure_eq_ok.mp h
      rfl

lemma abort_identity {env : WorkflowEnv} {db db' : Db} {i j : InstanceRow} {input : AbortInput}
    {closed : List String} (h : abort env db i input = .ok (closed, j, db')) :
    identity j = identity i := by
  unfold abort at h
  obtain ⟨_, -, h⟩ := obind_eq_ok.mp h
  obtain ⟨_, -, h⟩ := obind_eq_ok.mp h
  obtain ⟨⟨closed', db₁⟩, hloop, h⟩ := obind_eq_ok.mp h
  cases opure_eq_ok.mp h
  have hclosed : identity closed' = identity i := by
    refine (path_of_foldlM hloop).invariant
      (I := fun s : InstanceRow × Db => identity s.1 = identity i) (fun s p t hstep hs => ?_) rfl
    rw [(abortPacket_row hstep).1]
    exact hs
  exact hclosed

/-- **No call renames or rebinds an instance.** -/
theorem run_identity {env : WorkflowEnv} {db db' : Db} {i j : InstanceRow} {call : Call}
    {reply : Reply} (h : call.run env db i = .ok (reply, j, db')) : identity j = identity i := by
  cases call with
  | project input =>
    obtain ⟨r, -, h⟩ := run_project h
    exact project_identity h
  | resume input =>
    obtain ⟨r, -, h⟩ := run_resume h
    exact resume_identity h
  | route input =>
    obtain ⟨r, -, h⟩ := run_route h
    rw [(route_eq_ok h).1.row]
    rfl
  | abort input =>
    obtain ⟨closed, -, h⟩ := run_abort h
    exact abort_identity h

/-! ### Instantiations -/

/-- **A committed instantiation** replays the instance its key has, or appends a new one. -/
inductive Instantiated (env : WorkflowEnv) (instances : Instances) (db : Db)
    (input : InstantiateInput) (r : InstantiateResult) (instances' : Instances) (db' : Db) : Prop
  | replay {l : LifecycleInput} (hl : input.lifecycle = some l)
      (hkey : getByLifecycleOperationKey instances l.operationKey = some r.instance_)
      (hsame : instances' = instances ∧ db' = db)
  | fresh (hrun : instantiateFresh env instances db input = .ok (r, instances', db'))
      (hborn : Born r.instance_) (hinsert : instances.insert? r.instance_ = some instances')
      (hidentity : identity r.instance_ = (env.instanceId, input.spec,
        input.lifecycle.map (·.operationKey), input.lifecycle.map (·.compiledInputDigest),
        input.lifecycle.map fun l =>
          { l.binding with entryQitemId := some (newQitemId (env.at 0)) }))
      (hkey : ∀ l, input.lifecycle = some l →
        getByLifecycleOperationKey instances l.operationKey = none)

lemma createInstance_eq_ok {env : WorkflowEnv} {instances instances' : Instances} {db db' : Db}
    {input : InstantiateInput} {entry : WorkflowStepSpec} {boundRig : Option String}
    {gate : Option GateCompileResult} {owner : String} {r : InstantiateResult}
    (h : createInstance env instances db input entry boundRig gate owner =
      .ok (r, instances', db')) :
    r.replayed = false ∧ instances.insert? r.instance_ = some instances' ∧
      identity r.instance_ = (env.instanceId, input.spec, input.lifecycle.map (·.operationKey),
        input.lifecycle.map (·.compiledInputDigest), input.lifecycle.map fun l =>
          { l.binding with entryQitemId := some (newQitemId (env.at 0)) }) := by
  unfold createInstance at h
  simp only at h
  obtain ⟨db₁, -, h⟩ := obind_eq_ok.mp h
  obtain ⟨bound, hbind, h⟩ := obind_eq_ok.mp h
  obtain ⟨db₂, -, h⟩ := obind_eq_ok.mp h
  obtain ⟨inst, hinst, h⟩ := obind_eq_ok.mp h
  cases opure_eq_ok.mp h
  have hbound : identity bound =
      identity (newInstance env input entry boundRig (newQitemId (env.at 0))) := by
    unfold bindEntry at hbind
    split at hbind
    · rw [(InstanceRow.bindFrontierPacket_eq_ok hbind).2.2]
      rfl
    · cases hbind
      rfl
  refine ⟨rfl, ?_, hbound⟩
  unfold insertInstance at hinst
  split at hinst
  · rename_i t ht
    cases hinst
    exact ht
  · simp at hinst

lemma instantiateFresh_eq_ok {env : WorkflowEnv} {instances instances' : Instances} {db db' : Db}
    {input : InstantiateInput} {r : InstantiateResult}
    (h : instantiateFresh env instances db input = .ok (r, instances', db')) :
    ∃ entry boundRig gate owner, createInstance env instances db input entry boundRig gate owner =
      .ok (r, instances', db') := by
  unfold instantiateFresh at h
  obtain ⟨entry, -, h⟩ := obind_eq_ok.mp h
  obtain ⟨boundRig, -, h⟩ := obind_eq_ok.mp h
  obtain ⟨_, -, h⟩ := obind_eq_ok.mp h
  obtain ⟨_, -, h⟩ := obind_eq_ok.mp h
  obtain ⟨⟨gate, owner₀⟩, -, h⟩ := obind_eq_ok.mp h
  obtain ⟨owner, -, h⟩ := obind_eq_ok.mp h
  exact ⟨entry, boundRig, gate, owner, h⟩

lemma replayLifecycle_eq_ok {instances : Instances} {db : Db} {l : LifecycleInput}
    {replay : Option InstantiateResult} (h : replayLifecycle instances db l = .ok replay) :
    getByLifecycleOperationKey instances l.operationKey = replay.map (·.instance_) := by
  unfold replayLifecycle at h
  obtain ⟨_, -, h⟩ := obind_eq_ok.mp h
  split at h
  · rename_i hnone
    cases opure_eq_ok.mp h
    exact hnone
  · rename_i existing hexisting
    obtain ⟨_, -, h⟩ := obind_eq_ok.mp h
    simp only at h
    split at h
    · simp at h
    · cases opure_eq_ok.mp h
      exact hexisting

theorem instantiate_eq_ok {env : WorkflowEnv} {instances instances' : Instances} {db db' : Db}
    {input : InstantiateInput} {r : InstantiateResult}
    (h : instantiate env instances db input = .ok (r, instances', db')) :
    Instantiated env instances db input r instances' db' := by
  have hfresh : instantiateFresh env instances db input = .ok (r, instances', db') →
      (∀ l, input.lifecycle = some l →
        getByLifecycleOperationKey instances l.operationKey = none) →
      Instantiated env instances db input r instances' db' := by
    intro h' hkey
    obtain ⟨entry, boundRig, gate, owner, hc⟩ := instantiateFresh_eq_ok h'
    obtain ⟨hr, hinsert, hid⟩ := createInstance_eq_ok hc
    exact .fresh h' ⟨_, _, _, _, _, _, _, h, hr, rfl⟩ hinsert hid hkey
  have h' := h
  unfold instantiate at h'
  split at h'
  · rename_i hl
    exact hfresh h' fun l hsome => by simp [hl] at hsome
  · rename_i l hl
    obtain ⟨replay, hreplay, h'⟩ := obind_eq_ok.mp h'
    have hkey := replayLifecycle_eq_ok hreplay
    split at h'
    · cases opure_eq_ok.mp h'
      exact .replay hl hkey ⟨rfl, rfl⟩
    · refine hfresh h' fun l' hl' => ?_
      rw [hl] at hl'
      cases hl'
      exact hkey

lemma instantiateLifecycle_eq_ok {env : LifecycleEnv} {instances instances' : Instances}
    {db db' : Db} {input : LifecycleInstantiation} {r : InstantiateResult}
    (h : instantiateLifecycle env instances db input = .ok (r, instances', db')) :
    (∀ receipt i, recoverGraphOperation instances input.operationKey ≠
      some (.revision receipt i)) ∧
    ∃ compiled, (∃ l, compiled.lifecycle = some l ∧ l.operationKey = input.operationKey ∧
        l.binding.revisionHistory = []) ∧
      Instantiated env.base instances db compiled r instances' db' := by
  unfold instantiateLifecycle at h
  split at h
  · cases h
  · rename_i hnone
    refine ⟨fun receipt i hrec => hnone receipt i hrec, ?_⟩
    split at h
    · cases h
    · rename_i c hc
      split at h
      · cases h
      · rename_i spec hspec
        cases hinst : instantiateCompiled env instances db input c spec with
        | error e => simp [hinst, Except.mapError] at h
        | ok x =>
          obtain rfl : x = (r, instances', db') := by simpa [hinst, Except.mapError] using h
          unfold instantiateCompiled at hinst
          obtain ⟨_, -, hinst⟩ := obind_eq_ok.mp hinst
          exact ⟨_, ⟨_, rfl, rfl, rfl⟩, instantiate_eq_ok hinst⟩

/-! ### What an act does -/

lemma toOption_eq_some {ε α : Type} {x : Except ε α} {a : α} :
    x.toOption = some a ↔ x = .ok a := by
  cases x <;> simp [Except.toOption]

lemma get?_putInstance {instances : Instances} {i j : InstanceRow}
    (hi : instances.get? j.instanceId = some i) (id : String) :
    (putInstance instances j).get? id =
      if id = j.instanceId then some j else instances.get? id := by
  unfold putInstance
  rw [Table.get?_update]
  split
  · rename_i h
    rw [h, hi]
    have := Table.get?_key hi
    rw [Option.map_some, this]
  · rfl

/-- The lifecycle of a new instance: none, or one under a key that records nothing yet. -/
def OpensKey (instances : Instances) (j : InstanceRow) : Prop :=
  (j.lifecycleOperationKey = none ∧ revisionHistory j = []) ∨
    ∃ key, j.lifecycleOperationKey = some key ∧ revisionHistory j = [] ∧
      recoverGraphOperation instances key = none

/-- **What a committed act does**: one queue operation, a replay, a new instance, a call on one
instance, or a revision of one. -/
inductive Effect (d : Daemon) : Act → Daemon → Prop
  | queue {env : Env} {op : Op} {db : Db} (h : exec env d.db op = .ok db) :
      Effect d (.queue env op) { d with db }
  | replayed {a : Act} : Effect d a (.write d.db d.instances)
  | born {a : Act} {r : InstantiateResult} {env : WorkflowEnv} {input : InstantiateInput}
      {instances : Instances} {db : Db}
      (h : instantiateFresh env d.instances d.db input = .ok (r, instances, db))
      (hborn : Born r.instance_) (hinsert : d.instances.insert? r.instance_ = some instances)
      (hkey : OpensKey d.instances r.instance_) : Effect d a (.write db instances)
  | called {env : WorkflowEnv} {call : Call} {reply : Reply} {i j : InstanceRow} {after : Db}
      (hi : d.instances.get? i.instanceId = some i)
      (h : commits i ⟨env, d.db, call, reply, after⟩ j) :
      Effect d (.call env i.instanceId call) (.write after (putInstance d.instances j))
  | revised {env : LifecycleEnv} {input : ReviseInput} {receipt : RevisionReceipt}
      {i j : InstanceRow} (hi : d.instances.get? input.instanceId = some i)
      (hnone : recoverGraphOperation d.instances input.operationKey = none)
      (h : Revised env i input receipt j) :
      Effect d (.revise env input) (.write d.db (putInstance d.instances j))

lemma Instantiated.opensKey {env : WorkflowEnv} {instances : Instances} {input : InstantiateInput}
    {j : InstanceRow}
    (hid : identity j = (env.instanceId, input.spec, input.lifecycle.map (·.operationKey),
      input.lifecycle.map (·.compiledInputDigest), input.lifecycle.map fun l =>
        { l.binding with entryQitemId := some (newQitemId (env.at 0)) }))
    (hkey : ∀ l, input.lifecycle = some l → l.binding.revisionHistory = [] ∧
      recoverGraphOperation instances l.operationKey = none) : OpensKey instances j := by
  have hk : j.lifecycleOperationKey = input.lifecycle.map (·.operationKey) :=
    congrArg (fun x => x.2.2.1) hid
  have hb : j.lifecycleBinding = input.lifecycle.map fun l =>
      { l.binding with entryQitemId := some (newQitemId (env.at 0)) } :=
    congrArg (fun x => x.2.2.2.2) hid
  cases hl : input.lifecycle with
  | none =>
    rw [hl] at hk hb
    exact .inl ⟨hk, by simp [revisionHistory, hb]⟩
  | some l =>
    obtain ⟨hnil, hnone⟩ := hkey l hl
    rw [hl] at hk hb
    exact .inr ⟨l.operationKey, hk, by simp [revisionHistory, hb, hnil], hnone⟩

lemma recover_none {instances : Instances} {key : String}
    (hcreate : getByLifecycleOperationKey instances key = none)
    (hrevise : ∀ receipt i, recoverGraphOperation instances key ≠ some (.revision receipt i)) :
    recoverGraphOperation instances key = none := by
  cases hrec : recoverGraphOperation instances key with
  | none => rfl
  | some op =>
    cases op with
    | revision receipt i => exact absurd hrec (hrevise receipt i)
    | instantiate i =>
      unfold recoverGraphOperation at hrec
      rw [hcreate] at hrec
      simp at hrec

theorem steps_effect {d d' : Daemon} {a : Act} (h : steps d a d') : Effect d a d' := by
  unfold steps Act.run at h
  cases a with
  | queue env op =>
    obtain ⟨db, hdb, rfl⟩ := Option.map_eq_some_iff.mp h
    exact .queue (toOption_eq_some.mp hdb)
  | instantiate env input =>
    obtain ⟨⟨r, instances, db⟩, hrun, rfl⟩ := Option.map_eq_some_iff.mp h
    cases instantiate_eq_ok (toOption_eq_some.mp hrun) with
    | replay hl => cases hl
    | fresh hfresh hborn hinsert hid =>
      exact .born hfresh hborn hinsert (Instantiated.opensKey hid fun l hl => by cases hl)
  | instantiateLifecycle env input =>
    obtain ⟨⟨r, instances, db⟩, hrun, rfl⟩ := Option.map_eq_some_iff.mp h
    obtain ⟨hrevise, compiled, ⟨l, hl, hkey, hnil⟩, hinst⟩ :=
      instantiateLifecycle_eq_ok (toOption_eq_some.mp hrun)
    cases hinst with
    | replay _ _ hsame =>
      obtain ⟨rfl, rfl⟩ := hsame
      exact .replayed
    | fresh hfresh hborn hinsert hid hnone =>
      refine .born hfresh hborn hinsert (Instantiated.opensKey hid fun l' hl' => ?_)
      obtain rfl : l' = l := Option.some.inj (hl'.symm.trans hl)
      have hcreate := hnone l' hl
      rw [hkey] at hcreate ⊢
      exact ⟨hnil, recover_none hcreate hrevise⟩
  | call env id call =>
    obtain ⟨i, hi, h⟩ := Option.bind_eq_some_iff.mp h
    obtain ⟨⟨reply, j, db⟩, hrun, rfl⟩ := Option.map_eq_some_iff.mp h
    obtain rfl : i.instanceId = id := Table.get?_key hi
    exact .called hi (toOption_eq_some.mp hrun)
  | revise env input =>
    obtain ⟨⟨r, instances⟩, hrun, rfl⟩ := Option.map_eq_some_iff.mp h
    cases reviseGraph_eq_ok (toOption_eq_some.mp hrun) with
    | replay _ _ _ hstill =>
      subst hstill
      exact .replayed
    | revised hnone hi hrev _ hput =>
      subst hput
      exact .revised hi hnone hrev

lemma steps_call {d d' : Daemon} {env : WorkflowEnv} {id : String} {call : Call}
    (h : steps d (.call env id call) d') :
    ∃ i reply j after, d.instances.get? id = some i ∧
      call.run env d.db i = .ok (reply, j, after) ∧
      d' = .write after (putInstance d.instances j) := by
  unfold steps at h
  simp only [Act.run] at h
  obtain ⟨i, hi, h⟩ := Option.bind_eq_some_iff.mp h
  obtain ⟨⟨reply, j, after⟩, hrun, rfl⟩ := Option.map_eq_some_iff.mp h
  exact ⟨i, reply, j, after, hi, toOption_eq_some.mp hrun, rfl⟩

/-! ### One instance in a daemon's run -/

/-- What one act does to the row of an instance. -/
inductive RowStep (d : Daemon) (a : Act) (i : InstanceRow) : InstanceRow → Prop
  | untouched : RowStep d a i i
  | called {env : WorkflowEnv} {call : Call} {reply : Reply} {j : InstanceRow} {after : Db}
      (ha : a = .call env i.instanceId call) (h : commits i ⟨env, d.db, call, reply, after⟩ j) :
      RowStep d a i j
  | revised {env : LifecycleEnv} {input : ReviseInput} {receipt : RevisionReceipt}
      {j : InstanceRow} (ha : a = .revise env input) (hid : input.instanceId = i.instanceId)
      (h : Revised env i input receipt j) : RowStep d a i j

/-- **An instance stays, and an act moves it by one call, by one revision, or not at all.** -/
theorem steps_row {d d' : Daemon} {a : Act} (h : steps d a d') {id : String} {i : InstanceRow}
    (hi : d.instances.get? id = some i) :
    ∃ j, d'.instances.get? id = some j ∧ RowStep d a i j := by
  have hid : i.instanceId = id := Table.get?_key hi
  cases steps_effect h with
  | queue => exact ⟨i, hi, .untouched⟩
  | replayed => exact ⟨i, hi, .untouched⟩
  | @born _ r _ _ instances _ _ _ hinsert =>
    refine ⟨i, ?_, .untouched⟩
    have hne : id ≠ r.instance_.instanceId := by
      rintro rfl
      rw [(Table.insert?_eq_some hinsert).1] at hi
      cases hi
    change instances.get? id = some i
    rw [Table.get?_insert? hinsert, if_neg hne]
    exact hi
  | @called env call reply i₀ j after hi₀ hc =>
    have hj : j.instanceId = i₀.instanceId := congrArg Prod.fst (run_identity hc)
    by_cases hsame : id = i₀.instanceId
    · have hii : i = i₀ := by
        rw [hsame, hi₀] at hi
        exact (Option.some.inj hi).symm
      subst hii
      refine ⟨j, ?_, .called rfl hc⟩
      change (putInstance d.instances j).get? id = some j
      rw [get?_putInstance (hj ▸ hi₀), if_pos (hsame.trans hj.symm)]
    · refine ⟨i, ?_, .untouched⟩
      change (putInstance d.instances j).get? id = some i
      rw [get?_putInstance (hj ▸ hi₀), if_neg (fun he => hsame (he.trans hj))]
      exact hi
  | @revised env input receipt i₀ j hi₀ hnone hrev =>
    have hkey : i₀.instanceId = input.instanceId := Table.get?_key hi₀
    have hj : j.instanceId = input.instanceId := by
      obtain ⟨binding, c, proposed, -, rfl⟩ := hrev.accepted
      exact hkey
    by_cases hsame : id = input.instanceId
    · have hii : i = i₀ := by
        rw [hsame, hi₀] at hi
        exact (Option.some.inj hi).symm
      subst hii
      refine ⟨j, ?_, .revised rfl hkey.symm hrev⟩
      change (putInstance d.instances j).get? id = some j
      rw [get?_putInstance (hj ▸ hi₀), if_pos (hsame.trans hj.symm)]
    · refine ⟨i, ?_, .untouched⟩
      change (putInstance d.instances j).get? id = some i
      rw [get?_putInstance (hj ▸ hi₀), if_neg (fun he => hsame (he.trans hj))]
      exact hi

/-- **An instance that an act adds** is a new one, with the tables its instantiation left. -/
theorem steps_born {d d' : Daemon} {a : Act} (h : steps d a d') {id : String} {j : InstanceRow}
    (hnone : d.instances.get? id = none) (hj : d'.instances.get? id = some j) :
    ∃ env input r instances db,
      instantiateFresh env d.instances d.db input = .ok (r, instances, db) ∧ j = r.instance_ ∧
      d' = .write db instances ∧ Born j ∧ OpensKey d.instances j := by
  have hold : d.instances.get? id ≠ some j := by
    rw [hnone]
    exact nofun
  -- a row that was written was there before
  have hput : ∀ i₀ j₀ : InstanceRow, d.instances.get? j₀.instanceId = some i₀ →
      (putInstance d.instances j₀).get? id ≠ some j := by
    intro i₀ j₀ hi₀ hput
    rw [get?_putInstance hi₀] at hput
    split at hput
    · rename_i he
      rw [he, hi₀] at hnone
      cases hnone
    · exact hold hput
  cases steps_effect h with
  | queue => exact absurd hj hold
  | replayed => exact absurd hj hold
  | @born _ r env input instances db hfresh hborn hinsert hkey =>
    have hj : instances.get? id = some j := hj
    rw [Table.get?_insert? hinsert] at hj
    split at hj
    · cases hj
      exact ⟨env, input, r, instances, db, hfresh, rfl, rfl, hborn, hkey⟩
    · exact absurd hj hold
  | @called env call reply i₀ j₀ after hi₀ hc =>
    have hid : j₀.instanceId = i₀.instanceId := congrArg Prod.fst (run_identity hc)
    exact absurd hj (hput i₀ j₀ (hid ▸ hi₀))
  | @revised env input receipt i₀ j₀ hi₀ _ hrev =>
    have hid : j₀.instanceId = input.instanceId := by
      obtain ⟨binding, c, proposed, -, rfl⟩ := hrev.accepted
      have hkey : i₀.instanceId = input.instanceId := Table.get?_key hi₀
      exact hkey
    exact absurd hj (hput i₀ j₀ (hid ▸ hi₀))

/-! ### Computed runs -/

/-- The daemon after a list of acts, unless one of them is refused. -/
def runActs (d : Daemon) (acts : List Act) : Option Daemon := acts.foldlM Act.run d

lemma runActs_iff {acts : List Act} {d d' : Daemon} :
    runActs d acts = some d' ↔ Path steps d acts d' :=
  path_iff_foldlM.symm

lemma of_runActs {d d' : Daemon} {acts : List Act} (hrun : Path steps d acts d') (p : Daemon → Bool)
    (h : (runActs d acts).any p = true) : p d' = true := by
  rw [runActs_iff.mpr hrun] at h
  simpa using h

lemma exists_runActs (acts : List Act) (p : Daemon → Bool)
    (h : (runActs .fresh acts).any p = true) : ∃ d, Path steps .fresh acts d ∧ p d = true := by
  cases hrun : runActs .fresh acts with
  | none => simp [hrun] at h
  | some d => exact ⟨d, runActs_iff.mp hrun, by simpa [hrun] using h⟩

/-- Manifests of a project with one profile, and a mission that adds nothing to it. -/
def profileManifests (required : List String) (steps : List WorkflowStepSpec) : Manifests where
  projectId := "project"
  missionName := "mission"
  projectPath := "project.yaml"
  missionPath := "mission.yaml"
  lifecycleProfile := some "factory"
  profiles := some [("factory", ⟨required, plainSpec steps none⟩)]
  boundary := none
  members := []
  sources := [⟨"mission", "mission.yaml", "sha"⟩]
  commonRefs := []
  projectRef := id
  missionRef := id

/-- A digest that tells specs apart by their steps. -/
def stepsDigest (draft : Option WorkflowSpec) : String :=
  "-".intercalate ((draft.map stepIds).getD [])

/-- A daemon at one instant, with the manifests it reads. -/
def plainLifecycleEnv (now draw : ℕ) (m : Manifests) : LifecycleEnv where
  base := plainWorkflowEnv now draw
  digest _ _ draft := stepsDigest draft
  readMission _ := .ok m
  cachedHash _ _ := none
  lifecycleScope _ := none

end OpenRig.DaemonRuns
