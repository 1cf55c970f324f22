import OpenRig.WorkflowRuntime

/-!
Instantiation: the checks of a spec against the inventory, the entry packet, and the replay of a
lifecycle operation.
-/

namespace OpenRig.Instantiation

open OpenRig.JsText OpenRig.Sessions OpenRig.Closure OpenRig.QueueDb OpenRig.Outbox
open OpenRig.Verbs OpenRig.Update OpenRig.WorkflowTypes OpenRig.WorkflowStore
open OpenRig.WorkflowRouting OpenRig.WorkflowProjector OpenRig.WorkflowValidator
open OpenRig.WorkflowRuntime

/-- The rows of `workflow_instances`. -/
abbrev Instances := Table InstanceRow.instanceId

structure LifecycleInput where
  operationKey : String
  compiledInputDigest : String
  binding : LifecycleBinding
  deriving DecidableEq

/-- The arguments of `instantiate`, its spec read through the cache and its scope normalized. -/
structure InstantiateInput where
  spec : WorkflowSpec
  rootObjective : String
  createdBySession : String
  entryOwnerSession : Option String := none
  targetRig : Option String := none
  scope : Option WorkflowScope := none
  lifecycle : Option LifecycleInput := none

structure InstantiateResult where
  instance_ : InstanceRow
  entryQitemId : String
  entryOwnerSession : String
  replayed : Bool := false

/-! ### Replay -/

def getByLifecycleOperationKey (instances : Instances) (key : String) : Option InstanceRow :=
  instances.rows.find? fun i => i.lifecycleOperationKey = some key

def creationDigest (i : InstanceRow) : Option String :=
  (i.lifecycleBinding.bind (·.initialInputDigest)) <|> i.compiledInputDigest

/-- The replay or conflict of a lifecycle operation, before every write. -/
def replayLifecycle (instances : Instances) (db : Db) (lifecycle : LifecycleInput) :
    Outcome (Option InstantiateResult) := do
  rejectIf (lifecycle.operationKey = "" || lifecycle.compiledInputDigest = "")
    .lifecycleIdentityInvalid
    "lifecycle instantiation requires non-empty operationKey and compiledInputDigest"
  match getByLifecycleOperationKey instances lifecycle.operationKey with
  | none => return none
  | some existing => do
    rejectIf (creationDigest existing ≠ some lifecycle.compiledInputDigest)
      .lifecycleOperationConflict
      (s!"lifecycle operation key {lifecycle.operationKey} already binds different compiled " ++
        "input bytes")
    let entry := (existing.lifecycleBinding.bind (·.entryQitemId)).filter (· ≠ "")
    match entry.bind fun id => (db.getById id).map fun row => (id, row) with
    | none =>
      reject .lifecycleReplayIndeterminate
        (s!"lifecycle operation {lifecycle.operationKey} exists but its cached spec or entry " ++
          "packet cannot be resolved")
    | some (id, row) =>
      return some { instance_ := existing, entryQitemId := id,
                    entryOwnerSession := row.destinationSession, replayed := true }

/-! ### Checks -/

/-- The first validation of a spec, and the entry step it leaves. -/
def admitSpec (env : WorkflowEnv) (spec : WorkflowSpec) : Outcome WorkflowStepSpec := do
  let issues := validate spec (some env.seatAlive) (some env.hostRegistry)
  rejectIf (!accepts issues) .specInvalid
    (s!"cannot instantiate: spec {spec.id}@{spec.version} has " ++
      s!"{(issues.filter fun i => i.severity = .error).length} validation error(s); run " ++
      "validate to inspect")
  match spec.steps with
  | [] => reject .specNoSteps s!"cannot instantiate: spec {spec.id}@{spec.version} has no steps[]"
  | entry :: _ => do
    spec.steps.forM fun step =>
      rejectIf (truthy step.host && step.host ≠ some "local") .hostPinRemoteUnsupported
        (s!"cannot instantiate: step \"{step.id}\" pins host \"" ++ step.host.getD "" ++
          "\". Remote-step " ++
          "execution requires MH-3 (cross-host queue routing), which has not shipped — the " ++
          "queue is local-only today. Workaround: run that step's seat on this host (host: " ++
          "local, or drop the pin), or wait for MH-3.")
    return entry

/-- The rig an instance binds to: the caller's demand, or the spec's default where it is
registered. -/
def resolveBoundRig (env : WorkflowEnv) (spec : WorkflowSpec) (targetRig : Option String) :
    Outcome (Option String) :=
  match targetRig, spec.targetRig with
  | some rig, _ => do
    rejectIf (!env.registeredRigs.contains rig) .boundRigUnknown
      (s!"cannot instantiate: target rig \"{rig}\" is not a registered rig on this daemon. " ++
        "Registered rigs: " ++ (if env.registeredRigs.isEmpty then "(none)"
          else ", ".intercalate env.registeredRigs) ++
        ". Check `rig ps`, create/import the rig first, or instantiate with a different --rig.")
    return some rig
  | none, some rig => .ok (if env.registeredRigs.contains rig then some rig else none)
  | none, none => .ok none

/-- The harness pins of every step, against the targets its roles declare. -/
def checkPins (env : WorkflowEnv) (spec : WorkflowSpec)
    (boundRig entryOwnerSession : Option String) :
    Outcome Unit :=
  spec.steps.zipIdx.forM fun (step, index) =>
    if !truthy step.harness then .ok ()
    else match step.gate with
      | some gate =>
        let role := if isHumanSeatSession gate.target then step.actorRole else gate.target
        if boundRig.isSome && (spec.preferredTargets role).isEmpty then .ok ()
        else (compileGate env spec step none).map fun _ => ()
      | none =>
        if index = 0 && truthy entryOwnerSession then .ok ()
        else if boundRig.isSome && (spec.preferredTargets step.actorRole).isEmpty then .ok ()
        else (resolveDefaultOwner env spec step none).map fun _ => ()

/-- The roles of a step that only the bound rig can cover. -/
def rolesToCover (spec : WorkflowSpec) (step : WorkflowStepSpec) : List String :=
  (if (spec.preferredTargets step.actorRole).isEmpty then [step.actorRole] else []) ++
    match step.gate with
    | some gate =>
      if !isHumanSeatSession gate.target && (spec.preferredTargets gate.target).isEmpty then
        [gate.target]
      else []
    | none => []

/-- The structural role coverage of a bound instance. -/
def checkRoleCoverage (env : WorkflowEnv) (spec : WorkflowSpec) (boundRig : Option String) :
    Outcome Unit :=
  match boundRig with
  | none => .ok ()
  | some rig =>
    spec.steps.forM fun step => (rolesToCover spec step).forM fun role =>
      rejectIf (!env.rigDeclaresRole rig role) .boundRigRoleUncovered
        (s!"cannot instantiate: step \"{step.id}\" needs role \"{role}\" but NO seat on rig " ++
          s!"\"{rig}\" declares that role (at any lifecycle state). Add a member with role " ++
          s!"{role} to rig {rig} (rig add), declare role: {role} on an existing member, or add " ++
          "preferred_targets to the role in the spec. (A declared-but-not-yet-running seat is " ++
          "fine — liveness is checked when the step projects.)")

/-- The gate and the owner of the entry step. -/
def resolveEntry (env : WorkflowEnv) (spec : WorkflowSpec) (entry : WorkflowStepSpec)
    (boundRig entryOwnerSession : Option String) :
    Outcome (Option GateCompileResult × Option String) :=
  let roleCtx := roleContext boundRig
  if entry.gate.isSome then do
    let gate ← compileGate env spec entry roleCtx
    return (some gate, some gate.destinationSession)
  else match entryOwnerSession.filter (· ≠ "") with
    | some owner => do
      reconcileExplicitOwnerHarness env entry owner
      return (none, some owner)
    | none => do
      let owner ← resolveDefaultOwner env spec entry roleCtx
      return (none, owner)

/-- A failed resolution at the entry, under the entry's own code. -/
def atEntry {α : Type} : Outcome α → Outcome α
  | .error (.workflow .nextOwnerUnresolved message) =>
    reject .entryOwnerUnresolved ("cannot instantiate: " ++ message)
  | x => x

/-! ### The writes -/

/-- `instanceStore.create`. -/
def newInstance (env : WorkflowEnv) (input : InstantiateInput) (entry : WorkflowStepSpec)
    (boundRig : Option String) (entryQitemId : String) : InstanceRow where
  instanceId := env.instanceId
  spec := input.spec
  createdBySession := input.createdBySession
  createdAt := env.base.now
  status := .active
  currentFrontier := []
  currentStepId := some entry.id
  boundRig := boundRig
  scope := input.scope
  lifecycleOperationKey := input.lifecycle.map (·.operationKey)
  compiledInputDigest := input.lifecycle.map (·.compiledInputDigest)
  lifecycleBinding :=
    input.lifecycle.map fun l => { l.binding with entryQitemId := some entryQitemId }

/-- The entry packet: its row and, behind a human gate, its park. -/
def createEntryPacket (env : WorkflowEnv) (db : Db) (i : InstanceRow) (entry : WorkflowStepSpec)
    (input : InstantiateInput) (gate : Option GateCompileResult) (owner : String) : Outcome Db := do
  let packetId := newQitemId (env.at 0)
  let db ← inQueue (createWithinTransaction (env.at 0) db
    { qitemId := some packetId
      sourceSession := input.createdBySession
      destinationSession := owner
      body := env.instantiateBody i entry input.rootObjective gate packetId owner
      priority := some "routine"
      tier := some ((gate.bind (·.tier)).getD "mode2")
      tags := some (["workflow", if gate.isSome then "gate" else "entry",
        "workflow:" ++ i.workflowName, "instance:" ++ i.instanceId] ++
        gateExceptionTags i gate entry.id packetId ++ packetScopeTags i.scope entry.id)
      summary := gate.bind (·.summary)
      evidenceRef := gate.bind (·.evidenceRef) })
  match gate.bind (·.parkOn) with
  | none => return db
  | some parkOn =>
    inQueue (update (env.at 0) db
      { qitemId := packetId
        actorSession := input.createdBySession
        state := some .blocked
        closureReason := some "blocked_on"
        closureTarget := some parkOn
        blockedOn := some parkOn
        transitionNote := some s!"workflow gate: parked on {parkOn} pending sign-off" })

/-- The entry packet's step binding, for a packet-addressed spec. -/
def bindEntry (i : InstanceRow) (entryStepId packetId : String) (now : Time) :
    Outcome InstanceRow :=
  if i.spec.isDependencyGraph then
    i.bindFrontierPacket { packetId, stepId := entryStepId, createdAt := now }
  else .ok i

/-- The instance row with its entry packet on the frontier. -/
def entryRow (i : InstanceRow) (packetId : String) (gated : Bool) : InstanceRow :=
  i.updateFrontier
    { nextFrontier := [packetId], nextStatus := if gated then .waiting else .active }

/-- `INSERT INTO workflow_instances`. -/
def insertInstance (instances : Instances) (i : InstanceRow) : Outcome Instances :=
  match instances.insert? i with
  | some instances => .ok instances
  | none => reject .primaryKeyConflict "UNIQUE constraint failed: workflow_instances.instance_id"

def createInstance (env : WorkflowEnv) (instances : Instances) (db : Db) (input : InstantiateInput)
    (entry : WorkflowStepSpec) (boundRig : Option String) (gate : Option GateCompileResult)
    (owner : String) : Outcome (InstantiateResult × Instances × Db) := do
  let packetId := newQitemId (env.at 0)
  let created := newInstance env input entry boundRig packetId
  let db ← createEntryPacket env db created entry input gate owner
  let bound ← bindEntry created entry.id packetId env.base.now
  let i := entryRow bound packetId gate.isSome
  let db ← ensureWorkflowKeepaliveArmed env 0 db i.instanceId owner input.createdBySession
    (if input.spec.isDependencyGraph then some packetId else none)
  let instances ← insertInstance instances i
  return ({ instance_ := i, entryQitemId := packetId, entryOwnerSession := owner }, instances, db)

/-- An instantiation past its replay check. -/
def instantiateFresh (env : WorkflowEnv) (instances : Instances) (db : Db)
    (input : InstantiateInput) : Outcome (InstantiateResult × Instances × Db) := do
  let entry ← admitSpec env input.spec
  let boundRig ← resolveBoundRig env input.spec input.targetRig
  let spec := bindSpecToRig input.spec boundRig
  checkPins env spec boundRig input.entryOwnerSession
  checkRoleCoverage env spec boundRig
  let (gate, owner) ← atEntry (resolveEntry env spec entry boundRig input.entryOwnerSession)
  let owner ← requireOwner owner .entryOwnerUnresolved
    (s!"cannot instantiate: entry step \"{entry.id}\" (role \"{entry.actorRole}\") has no " ++
      "preferred_targets and no entryOwnerSession was supplied")
  createInstance env instances db input entry boundRig gate owner

def instantiate (env : WorkflowEnv) (instances : Instances) (db : Db) (input : InstantiateInput) :
    Outcome (InstantiateResult × Instances × Db) := do
  match input.lifecycle with
  | none => instantiateFresh env instances db input
  | some lifecycle =>
    match ← replayLifecycle instances db lifecycle with
    | some replay => return (replay, instances, db)
    | none => instantiateFresh env instances db input

/-! ### New instances -/

/-- The instance was created by an instantiation. -/
def Born (i : InstanceRow) : Prop :=
  ∃ env instances db input r instances' db', instantiate env instances db input =
    .ok (r, instances', db') ∧ r.replayed = false ∧ r.instance_ = i

/-- A new instance: its entry packet is on the frontier and bound to the entry step. -/
structure New (i : InstanceRow) (entry : WorkflowStepSpec) (packetId : String) : Prop where
  validated : Validated i.spec
  isEntry : i.spec.steps.head? = some entry
  frontier : i.currentFrontier = [packetId]
  bindings : i.bindings.rows.map (fun b => (b.packetId, b.stepId, b.hopCount, b.hopsBaseline)) =
    if i.spec.isDependencyGraph then [(packetId, entry.id, 0, 0)] else []
  occurrences : i.occurrences.rows = []
  trail : i.trail = []
  isLive : i.status.isLive = true
  currentStepId : i.currentStepId = some entry.id
  hops : i.hopCount = 0 ∧ i.hopsBaseline = 0 ∧ i.resumeCount = 0
  undecided : i.lastContinuationDecision = none

lemma admitSpec_eq_ok {env : WorkflowEnv} {spec : WorkflowSpec} {entry : WorkflowStepSpec}
    (h : admitSpec env spec = .ok entry) : Validated spec ∧ spec.steps.head? = some entry := by
  unfold admitSpec at h
  obtain ⟨_, haccepts, h⟩ := obind_eq_ok.mp h
  have hv : Validated spec := validated_of_accepts (by simpa using haccepts)
  split at h
  · simp at h
  · rename_i entry' rest hsteps
    obtain ⟨_, -, h⟩ := obind_eq_ok.mp h
    cases opure_eq_ok.mp h
    exact ⟨hv, by rw [hsteps]; rfl⟩

lemma createInstance_new {env : WorkflowEnv} {instances instances' : Instances} {db db' : Db}
    {input : InstantiateInput} {entry : WorkflowStepSpec} {boundRig : Option String}
    {gate : Option GateCompileResult} {owner : String} {r : InstantiateResult}
    (hv : Validated input.spec) (hentry : input.spec.steps.head? = some entry)
    (h : createInstance env instances db input entry boundRig gate owner =
      .ok (r, instances', db')) : New r.instance_ entry (newQitemId (env.at 0)) := by
  unfold createInstance at h
  simp only at h
  obtain ⟨db₁, -, h⟩ := obind_eq_ok.mp h
  obtain ⟨bound, hbind, h⟩ := obind_eq_ok.mp h
  obtain ⟨db₂, -, h⟩ := obind_eq_ok.mp h
  obtain ⟨inst, -, h⟩ := obind_eq_ok.mp h
  cases opure_eq_ok.mp h
  have hrow : bound = { newInstance env input entry boundRig (newQitemId (env.at 0)) with
      bindings := bound.bindings } ∧
      bound.bindings.rows.map (fun b => (b.packetId, b.stepId, b.hopCount, b.hopsBaseline)) =
        if input.spec.isDependencyGraph then [(newQitemId (env.at 0), entry.id, 0, 0)] else [] := by
    unfold bindEntry at hbind
    split at hbind
    · rename_i hg
      obtain ⟨hrows, -, hb⟩ := InstanceRow.bindFrontierPacket_eq_ok hbind
      have hg : input.spec.isDependencyGraph = true := hg
      refine ⟨hb, ?_⟩
      rw [hrows, hg]
      rfl
    · rename_i hg
      cases hbind
      have hg : ¬ input.spec.isDependencyGraph = true := hg
      rw [if_neg hg]
      exact ⟨rfl, rfl⟩
  have hspec : bound.spec = input.spec := by rw [hrow.1]; rfl
  constructor
  · change Validated bound.spec
    rwa [hspec]
  · change bound.spec.steps.head? = _
    rwa [hspec]
  · rfl
  · change bound.bindings.rows.map _ = if bound.spec.isDependencyGraph then _ else _
    rw [hspec]
    exact hrow.2
  · change bound.occurrences.rows = []
    rw [hrow.1]
    rfl
  · change bound.trail = []
    rw [hrow.1]
    rfl
  · change (if gate.isSome then InstanceStatus.waiting else .active).isLive = true
    cases gate <;> rfl
  · change bound.currentStepId = _
    rw [hrow.1]
    rfl
  · change bound.hopCount = 0 ∧ bound.hopsBaseline = 0 ∧ bound.resumeCount = 0
    rw [hrow.1]
    exact ⟨rfl, rfl, rfl⟩
  · change (none <|> bound.lastContinuationDecision) = none
    rw [hrow.1]
    rfl

lemma instantiateFresh_new {env : WorkflowEnv} {instances instances' : Instances} {db db' : Db}
    {input : InstantiateInput} {r : InstantiateResult}
    (h : instantiateFresh env instances db input = .ok (r, instances', db')) :
    ∃ entry, New r.instance_ entry (newQitemId (env.at 0)) := by
  unfold instantiateFresh at h
  obtain ⟨entry, hspec, h⟩ := obind_eq_ok.mp h
  obtain ⟨boundRig, -, h⟩ := obind_eq_ok.mp h
  obtain ⟨_, -, h⟩ := obind_eq_ok.mp h
  obtain ⟨_, -, h⟩ := obind_eq_ok.mp h
  obtain ⟨⟨gate, owner₀⟩, -, h⟩ := obind_eq_ok.mp h
  obtain ⟨owner, -, h⟩ := obind_eq_ok.mp h
  obtain ⟨hv, hentry⟩ := admitSpec_eq_ok hspec
  exact ⟨entry, createInstance_new hv hentry h⟩

lemma instantiate_fresh {env : WorkflowEnv} {instances instances' : Instances} {db db' : Db}
    {input : InstantiateInput} {r : InstantiateResult} (hkey : input.lifecycle = none)
    (h : instantiate env instances db input = .ok (r, instances', db')) : r.replayed = false := by
  unfold instantiate at h
  rw [hkey] at h
  unfold instantiateFresh at h
  obtain ⟨entry, -, h⟩ := obind_eq_ok.mp h
  obtain ⟨boundRig, -, h⟩ := obind_eq_ok.mp h
  obtain ⟨_, -, h⟩ := obind_eq_ok.mp h
  obtain ⟨_, -, h⟩ := obind_eq_ok.mp h
  obtain ⟨⟨gate, owner₀⟩, -, h⟩ := obind_eq_ok.mp h
  obtain ⟨owner, -, h⟩ := obind_eq_ok.mp h
  unfold createInstance at h
  simp only at h
  obtain ⟨db₁, -, h⟩ := obind_eq_ok.mp h
  obtain ⟨bound, -, h⟩ := obind_eq_ok.mp h
  obtain ⟨db₂, -, h⟩ := obind_eq_ok.mp h
  obtain ⟨inst, -, h⟩ := obind_eq_ok.mp h
  cases opure_eq_ok.mp h
  rfl

/-- **A born instance is new**: accepted, with its entry packet alone on the frontier. -/
theorem Born.new {i : InstanceRow} (h : Born i) : ∃ entry packetId, New i entry packetId := by
  obtain ⟨env, instances, db, input, r, instances', db', h, hfresh, rfl⟩ := h
  unfold instantiate at h
  split at h
  · obtain ⟨entry, hnew⟩ := instantiateFresh_new h
    exact ⟨entry, _, hnew⟩
  · obtain ⟨replay, hreplay, h⟩ := obind_eq_ok.mp h
    split at h
    · rename_i r'
      cases opure_eq_ok.mp h
      unfold replayLifecycle at hreplay
      obtain ⟨_, -, hreplay⟩ := obind_eq_ok.mp hreplay
      split at hreplay
      · cases opure_eq_ok.mp hreplay
      · obtain ⟨_, -, hreplay⟩ := obind_eq_ok.mp hreplay
        simp only at hreplay
        split at hreplay
        · simp at hreplay
        · cases opure_eq_ok.mp hreplay
          cases hfresh
    · obtain ⟨entry, hnew⟩ := instantiateFresh_new h
      exact ⟨entry, _, hnew⟩

end OpenRig.Instantiation
