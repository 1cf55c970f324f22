import OpenRig.Instantiation

/-!
What one call does to the row of a dependency-graph instance.

Each call is inverted once: a close writes the row `closeGraphRow` names over the removed and the
new bindings, a redrive appends one binding and resolves one occurrence, a re-route moves one
binding to its successor, and an abort leaves no frontier. The queue tables are whatever the
other calls have made of them.
-/

namespace OpenRig.GraphCalls

open OpenRig.JsText OpenRig.Closure OpenRig.QueueDb OpenRig.Outbox OpenRig.Verbs OpenRig.Update
open OpenRig.WorkflowTypes OpenRig.WorkflowStore OpenRig.WorkflowRouting
open OpenRig.WorkflowProjector OpenRig.WorkflowRuntime OpenRig.Instantiation OpenRig.Runs
open OpenRig.Refinement (plainEnv)

/-! ### Committed calls -/

/-- A call, the tables it ran on, and what it reported and left. -/
structure Commit where
  env : WorkflowEnv
  db : Db
  call : Call
  reply : Reply
  after : Db

/-- The call commits on the instance's row. -/
def commits (i : InstanceRow) (c : Commit) (j : InstanceRow) : Prop :=
  c.call.run c.env c.db i = .ok (c.reply, j, c.after)

/-- The packets a call created, each with its step. -/
def created : Reply → List (String × String)
  | .projected r => r.nextStepIds.zip r.nextQitemIds
  | .resumed r => if r.absorbedReplay then [] else [(r.stepId, r.newPacketId)]
  | .routed r => [(r.stepId.getD "", r.newPacketId)]
  | .aborted _ => []

lemma run_project {env : WorkflowEnv} {db db' : Db} {i j : InstanceRow} {input : ProjectStepInput}
    {reply : Reply} (h : (Call.project input).run env db i = .ok (reply, j, db')) :
    ∃ r, reply = .projected r ∧ project env db i input = .ok (r, j, db') := by
  unfold Call.run at h
  cases hp : project env db i input with
  | error e => simp [hp, Except.map] at h
  | ok x =>
    obtain ⟨r, j', db₁⟩ := x
    simp only [hp, Except.map, Except.ok.injEq, Prod.mk.injEq] at h
    obtain ⟨rfl, rfl, rfl⟩ := h
    exact ⟨r, rfl, rfl⟩

lemma run_resume {env : WorkflowEnv} {db db' : Db} {i j : InstanceRow} {input : ResumeInput}
    {reply : Reply} (h : (Call.resume input).run env db i = .ok (reply, j, db')) :
    ∃ r, reply = .resumed r ∧ resume env db i input = .ok (r, j, db') := by
  unfold Call.run at h
  cases hp : resume env db i input with
  | error e => simp [hp, Except.map] at h
  | ok x =>
    obtain ⟨r, j', db₁⟩ := x
    simp only [hp, Except.map, Except.ok.injEq, Prod.mk.injEq] at h
    obtain ⟨rfl, rfl, rfl⟩ := h
    exact ⟨r, rfl, rfl⟩

lemma run_route {env : WorkflowEnv} {db db' : Db} {i j : InstanceRow} {input : RouteInput}
    {reply : Reply} (h : (Call.route input).run env db i = .ok (reply, j, db')) :
    ∃ r, reply = .routed r ∧ route env db i input = .ok (r, j, db') := by
  unfold Call.run at h
  cases hp : route env db i input with
  | error e => simp [hp, Except.map] at h
  | ok x =>
    obtain ⟨r, j', db₁⟩ := x
    simp only [hp, Except.map, Except.ok.injEq, Prod.mk.injEq] at h
    obtain ⟨rfl, rfl, rfl⟩ := h
    exact ⟨r, rfl, rfl⟩

lemma run_abort {env : WorkflowEnv} {db db' : Db} {i j : InstanceRow} {input : AbortInput}
    {reply : Reply} (h : (Call.abort input).run env db i = .ok (reply, j, db')) :
    ∃ r, reply = .aborted r ∧ abort env db i input = .ok (r, j, db') := by
  unfold Call.run at h
  cases hp : abort env db i input with
  | error e => simp [hp, Except.map] at h
  | ok x =>
    obtain ⟨r, j', db₁⟩ := x
    simp only [hp, Except.map, Except.ok.injEq, Prod.mk.injEq] at h
    obtain ⟨rfl, rfl, rfl⟩ := h
    exact ⟨r, rfl, rfl⟩

/-! ### Planned successors -/

lemma planOwners_steps {env : WorkflowEnv} {i : InstanceRow} {next : List WorkflowStepSpec} :
    ∀ {k : ℕ} {plans : List OwnerPlan}, planOwners env i k next = .ok plans →
      plans.map (·.step) = next := by
  induction next with
  | nil =>
    intro k plans h
    unfold planOwners at h
    cases h
    rfl
  | cons step rest ih =>
    intro k plans h
    unfold planOwners at h
    obtain ⟨plan, hplan, h⟩ := obind_eq_ok.mp h
    obtain ⟨rest', hrest, h⟩ := obind_eq_ok.mp h
    cases opure_eq_ok.mp h
    have hstep : plan.step = step := by
      unfold planOwner at hplan
      obtain ⟨⟨gate, owner⟩, -, hplan⟩ := obind_eq_ok.mp hplan
      obtain ⟨o, -, hplan⟩ := obind_eq_ok.mp hplan
      cases opure_eq_ok.mp hplan
      rfl
    simp [hstep, ih hrest]

lemma projectPlans_row {env : WorkflowEnv} {inst : InstanceRow} {input : ProjectStepInput}
    {cur : WorkflowStepSpec} {parent : WorkflowFrontierBinding} {note : Option String}
    {fanOut : Bool} {plans : List OwnerPlan} :
    ∀ {k : ℕ} {i j : InstanceRow} {db db' : Db},
      projectPlans env inst input cur parent note fanOut k plans i db = .ok (j, db') →
      j.bindings.rows =
        i.bindings.rows ++ plans.map (fun p => p.binding parent fanOut env.base.now) ∧
      j = { i with bindings := j.bindings } := by
  induction plans with
  | nil =>
    intro k i j db db' h
    unfold projectPlans at h
    cases h
    simp
  | cons plan rest ih =>
    intro k i j db db' h
    unfold projectPlans at h
    obtain ⟨db₁, -, h⟩ := obind_eq_ok.mp h
    obtain ⟨i₁, hbind, h⟩ := obind_eq_ok.mp h
    obtain ⟨db₂, -, h⟩ := obind_eq_ok.mp h
    obtain ⟨hrows, -, hrow⟩ := InstanceRow.bindFrontierPacket_eq_ok hbind
    obtain ⟨hrows', hrow'⟩ := ih h
    refine ⟨by simp [hrows', hrows], ?_⟩
    rw [hrow', hrow]

lemma recordFailure_row {env : WorkflowEnv} {db db' : Db} {i j : InstanceRow}
    {input : ProjectStepInput} {step : WorkflowStepSpec} {binding : WorkflowFrontierBinding}
    {plan : GraphPlan} {k : ℕ} {id : Option String}
    (h : recordFailure env db i input step binding plan k = .ok (id, j, db')) :
    j.occurrences.rows = i.occurrences.rows ++
      (if plan.isFailureOccurrence then
        [failureOccurrence input binding step.id plan.resultNote env.base.now] else []) ∧
      j = { i with occurrences := j.occurrences } := by
  unfold recordFailure at h
  split at h
  · rename_i hfail
    obtain ⟨i', hrec, h⟩ := obind_eq_ok.mp h
    obtain ⟨⟨x, db₁⟩, -, h⟩ := obind_eq_ok.mp h
    cases opure_eq_ok.mp h
    obtain ⟨hrows, -, hrow⟩ := InstanceRow.recordFailureOccurrence_eq_ok hrec
    exact ⟨by simp [hrows, hfail], hrow⟩
  · rename_i hfail
    cases h
    simp [hfail]

/-! ### Closes -/

/-- The row a close of a graph packet leaves, before its frontier, status and trail are written. -/
def recorded (i : InstanceRow) (j : InstanceRow) : InstanceRow :=
  { i with bindings := j.bindings, occurrences := j.occurrences }

/-- The step a bound packet stands for. -/
structure Stands (i : InstanceRow) (packetId : String) (binding : WorkflowFrontierBinding)
    (step : WorkflowStepSpec) : Prop where
  bound : i.getFrontierBinding packetId = some binding
  isStep : i.spec.step? binding.stepId = some step

lemma Stands.unique {i : InstanceRow} {p : String} {b b' : WorkflowFrontierBinding}
    {s s' : WorkflowStepSpec} (h : Stands i p b s) (h' : Stands i p b' s') : b = b' ∧ s = s' := by
  have hb : b = b' := Option.some.inj (h.bound.symm.trans h'.bound)
  subst hb
  exact ⟨rfl, Option.some.inj (h.isStep.symm.trans h'.isStep)⟩

lemma Stands.mem {i : InstanceRow} {p : String} {b : WorkflowFrontierBinding}
    {s : WorkflowStepSpec} (h : Stands i p b s) :
    b ∈ i.bindings.rows ∧ b.packetId = p ∧ b.stepId = s.id :=
  ⟨(Table.get?_eq_some.mp h.bound).1, (Table.get?_eq_some.mp h.bound).2,
    (WorkflowSpec.step?_id h.isStep).symm⟩

/-! ### What a close decides -/

/-- What `planGraph` decides: the exit as asked, or a failure where the hop guard trips. -/
structure Planned (i : InstanceRow) (input : ProjectStepInput) (step : WorkflowStepSpec)
    (binding : WorkflowFrontierBinding) (plan : GraphPlan) (next : List WorkflowStepSpec) :
    Prop where
  routed : nextSteps i step input.exit = .ok next
  decided :
    (next ≠ [] ∧ exceedsMaxHops binding.hopCount binding.hopsBaseline i.spec.maxHops = true ∧
      plan.effectiveExit = .failed ∧ plan.next = [] ∧ plan.isFailureOccurrence = true) ∨
    ((next = [] ∨ exceedsMaxHops binding.hopCount binding.hopsBaseline i.spec.maxHops = false) ∧
      plan.effectiveExit = input.exit ∧ plan.next = next ∧
      plan.isFailureOccurrence =
        (decide (input.exit = .failed) && (mappedTarget step input.exit).isNone))

lemma planGraph_eq_ok {i : InstanceRow} {input : ProjectStepInput} {step : WorkflowStepSpec}
    {binding : WorkflowFrontierBinding} {plan : GraphPlan}
    (h : planGraph i input step binding = .ok plan) :
    ∃ next, Planned i input step binding plan next := by
  unfold planGraph at h
  obtain ⟨next, hnext, h⟩ := obind_eq_ok.mp h
  rw [InstanceRow.boundSpec_maxHops] at h
  refine ⟨next, hnext, ?_⟩
  split at h
  · rename_i htrip
    cases opure_eq_ok.mp h
    simp only [Bool.and_eq_true, Bool.not_eq_true', List.isEmpty_eq_false_iff] at htrip
    exact .inl ⟨htrip.1, htrip.2, rfl, rfl, rfl⟩
  · rename_i hpass
    cases opure_eq_ok.mp h
    refine .inr ⟨?_, rfl, rfl, rfl⟩
    by_cases hn : next = []
    · exact .inl hn
    · exact .inr (by simpa [hn] using hpass)

lemma nextSteps_eq_ok {i : InstanceRow} {step : WorkflowStepSpec} {exit : WorkflowExitKind}
    {next : List WorkflowStepSpec} (h : nextSteps i step exit = .ok next) :
    (∃ target s, mappedTarget step exit = some target ∧ i.spec.step? target = some s ∧
      next = [s]) ∨
    (mappedTarget step exit = none ∧ exit.completes = true ∧
      next = i.spec.steps.filter (isReady i (completionRank i step.id exit) step.id)) ∨
    (mappedTarget step exit = none ∧ exit.completes = false ∧ next = []) := by
  unfold nextSteps at h
  split at h
  · rename_i target htarget
    rw [InstanceRow.boundSpec_step?] at h
    split at h
    · rename_i s hs
      cases h
      exact .inl ⟨target, s, htarget, hs, rfl⟩
    · simp at h
  · rename_i hnone
    split at h
    · rename_i hc
      cases h
      exact .inr (.inl ⟨hnone, hc, by rw [InstanceRow.boundSpec_steps]⟩)
    · rename_i hc
      cases h
      exact .inr (.inr ⟨hnone, Bool.not_eq_true _ ▸ hc, rfl⟩)

/-- **What a committed close does** to the row of a dependency graph. -/
structure Advance (env : WorkflowEnv) (i : InstanceRow) (input : ProjectStepInput)
    (step : WorkflowStepSpec) (binding : WorkflowFrontierBinding) (plan : GraphPlan)
    (plans : List OwnerPlan) (j : InstanceRow) : Prop where
  isLive : i.status.isLive = true
  onFrontier : input.currentPacketId ∈ i.currentFrontier
  stands : Stands i input.currentPacketId binding step
  admitted : step.admits input.exit = true
  fresh : absorbs i input step.id = false
  planned : planGraph i input step binding = .ok plan
  steps : plans.map (·.step) = plan.next
  bindings : j.bindings.rows =
    (if plan.effectiveExit = .waiting then i.bindings.rows
      else i.bindings.rows.filter fun b => b.packetId ≠ input.currentPacketId) ++
    plans.map fun p => p.binding binding (1 < plans.length) env.base.now
  occurrences : j.occurrences.rows = i.occurrences.rows ++
    if plan.isFailureOccurrence then
      [failureOccurrence input binding step.id plan.resultNote env.base.now] else []
  row : ∃ db, j = closeGraphRow (recorded i j) input step plan (plans.map (·.packetId)) db
    env.base.now

structure Reports (r : ProjectStepResult) (plan : GraphPlan) (plans : List OwnerPlan) : Prop where
  exit : r.closureReason = plan.effectiveExit
  packets : r.nextQitemIds = plans.map (·.packetId)
  steps : r.nextStepIds = plans.map (·.step.id)
  written : r.absorbedReplay = false

@[simp] lemma closeGraphRow_bindings (i : InstanceRow) (input : ProjectStepInput)
    (step : WorkflowStepSpec) (plan : GraphPlan) (created : List String) (db : Db) (now : Time) :
    (closeGraphRow i input step plan created db now).bindings = i.bindings := rfl

@[simp] lemma closeGraphRow_occurrences (i : InstanceRow) (input : ProjectStepInput)
    (step : WorkflowStepSpec) (plan : GraphPlan) (created : List String) (db : Db) (now : Time) :
    (closeGraphRow i input step plan created db now).occurrences = i.occurrences := rfl

@[simp] lemma closeGraphRow_spec (i : InstanceRow) (input : ProjectStepInput)
    (step : WorkflowStepSpec) (plan : GraphPlan) (created : List String) (db : Db) (now : Time) :
    (closeGraphRow i input step plan created db now).spec = i.spec := rfl

lemma commitGraph_row {env : WorkflowEnv} {db db' : Db} {i j : InstanceRow}
    {input : ProjectStepInput} {packet : QueueItem} {step : WorkflowStepSpec}
    {binding : WorkflowFrontierBinding} {plan : GraphPlan} {r : ProjectStepResult}
    (h : commitGraph env db i input packet step binding plan = .ok (r, j, db')) :
    ∃ plans, plans.map (·.step) = plan.next ∧
      j.bindings.rows =
        (if plan.effectiveExit = .waiting then i.bindings.rows
          else i.bindings.rows.filter fun b => b.packetId ≠ input.currentPacketId) ++
        plans.map (fun p => p.binding binding (1 < plans.length) env.base.now) ∧
      j.occurrences.rows = i.occurrences.rows ++
        (if plan.isFailureOccurrence then
          [failureOccurrence input binding step.id plan.resultNote env.base.now] else []) ∧
      (∃ db, j = closeGraphRow (recorded i j) input step plan (plans.map (·.packetId)) db
        env.base.now) ∧
      Reports r plan plans := by
  unfold commitGraph at h
  simp only at h
  obtain ⟨plans, hplans, h⟩ := obind_eq_ok.mp h
  obtain ⟨closure, -, h⟩ := obind_eq_ok.mp h
  obtain ⟨db₁, -, h⟩ := obind_eq_ok.mp h
  obtain ⟨⟨bound, db₂⟩, hproj, h⟩ := obind_eq_ok.mp h
  obtain ⟨⟨exception, rec, db₃⟩, hrec, h⟩ := obind_eq_ok.mp h
  obtain ⟨hbind, hbound⟩ := projectPlans_row hproj
  obtain ⟨hocc, hrecorded⟩ := recordFailure_row hrec
  simp only at hrecorded hocc
  have hleft : bound = { i with bindings := bound.bindings } ∧ bound.bindings.rows =
      (if plan.effectiveExit = .waiting then i.bindings.rows
        else i.bindings.rows.filter fun b => b.packetId ≠ input.currentPacketId) ++
      plans.map (fun p => p.binding binding (1 < plans.length) env.base.now) := by
    split at hbound
    · rename_i hw
      rw [if_pos hw] at hbind ⊢
      exact ⟨hbound, hbind⟩
    · rename_i hw
      rw [if_neg hw] at hbind ⊢
      exact ⟨hbound, hbind⟩
  have hrow : rec = { i with bindings := rec.bindings, occurrences := rec.occurrences } := by
    rw [hrecorded, hleft.1]
  have hocc' : bound.occurrences = i.occurrences := by rw [hleft.1]
  have hbind' : rec.bindings = bound.bindings := by rw [hrecorded]
  have hclose : ∀ j', j' = closeGraphRow rec input step plan (plans.map (·.packetId)) db₃
      env.base.now → j'.bindings = rec.bindings ∧ j'.occurrences = rec.occurrences ∧
        j' = closeGraphRow (recorded i j') input step plan (plans.map (·.packetId)) db₃
          env.base.now := by
    rintro j' rfl
    refine ⟨rfl, rfl, ?_⟩
    unfold recorded
    rw [closeGraphRow_bindings, closeGraphRow_occurrences, ← hrow]
  have hfinal : j = closeGraphRow rec input step plan (plans.map (·.packetId)) db₃ env.base.now ∧
      Reports r plan plans := by
    split at h
    · obtain ⟨-, -, h⟩ := obind_eq_ok.mp h
      cases opure_eq_ok.mp h
      exact ⟨rfl, rfl, rfl, rfl, rfl⟩
    · cases opure_eq_ok.mp h
      exact ⟨rfl, rfl, rfl, rfl, rfl⟩
  obtain ⟨hb, ho, hj⟩ := hclose j hfinal.1
  refine ⟨plans, planOwners_steps hplans, ?_, ?_, ⟨db₃, hj⟩, hfinal.2⟩
  · rw [hb, hbind']
    exact hleft.2
  · rw [ho, hocc, hocc']

/-- What `project` checked before it chose an executor. -/
structure Admitted (db : Db) (i : InstanceRow) (input : ProjectStepInput) (packet : QueueItem)
    (step : WorkflowStepSpec) : Prop where
  isLive : i.status.isLive = true
  onFrontier : input.currentPacketId ∈ i.currentFrontier
  row : db.getById input.currentPacketId = some packet
  isStep : stepOfPacket i input.currentPacketId = some step
  exit : step.admits input.exit = true

lemma admitProjection_eq_ok {db : Db} {i : InstanceRow} {input : ProjectStepInput}
    {packet : QueueItem} {step : WorkflowStepSpec}
    (h : admitProjection db i input = .ok (packet, step)) : Admitted db i input packet step := by
  unfold admitProjection at h
  obtain ⟨_, hlive, h⟩ := obind_eq_ok.mp h
  obtain ⟨_, hfront, h⟩ := obind_eq_ok.mp h
  split at h
  · simp at h
  · rename_i row hrow
    split at h
    · simp at h
    · rename_i step' hstep
      obtain ⟨_, hexit, h⟩ := obind_eq_ok.mp h
      obtain ⟨_, -, h⟩ := obind_eq_ok.mp h
      obtain ⟨_, -, h⟩ := obind_eq_ok.mp h
      cases opure_eq_ok.mp h
      exact ⟨by simpa using hlive, by simpa using hfront, hrow, hstep, by simpa using hexit⟩

/-- **A committed projection on a dependency graph** is an absorbed replay that writes nothing,
or the advance of one bound packet. -/
theorem project_graph {env : WorkflowEnv} {db db' : Db} {i j : InstanceRow}
    {input : ProjectStepInput} {r : ProjectStepResult} (hg : i.spec.isDependencyGraph = true)
    (h : project env db i input = .ok (r, j, db')) :
    (∃ step binding, Stands i input.currentPacketId binding step ∧
      absorbs i input step.id = true ∧ j = i ∧ db' = db ∧ r = absorbedResult input) ∨
      ∃ step binding plan plans, Advance env i input step binding plan plans j ∧
        Reports r plan plans := by
  unfold project at h
  obtain ⟨⟨packet, step⟩, hpre, h⟩ := obind_eq_ok.mp h
  have hok := admitProjection_eq_ok hpre
  simp only [hg, if_true] at h
  split at h
  · simp at h
  · rename_i binding hbound
    have hstep : i.spec.step? binding.stepId = some step := by
      have := hok.isStep
      unfold stepOfPacket at this
      rw [hbound] at this
      simpa using this
    unfold projectDependencyGraph at h
    split at h
    · rename_i habsorbs
      cases h
      exact .inl ⟨step, binding, ⟨hbound, hstep⟩, habsorbs, rfl, rfl, rfl⟩
    · rename_i hfresh
      obtain ⟨plan, hplan, h⟩ := obind_eq_ok.mp h
      obtain ⟨plans, hsteps, hb, ho, hrow, hr⟩ := commitGraph_row h
      exact .inr ⟨step, binding, plan, plans, ⟨hok.isLive, hok.onFrontier, ⟨hbound, hstep⟩,
        hok.exit, by simpa using hfresh, hplan, hsteps, hb, ho, hrow⟩, hr⟩

/-! ### Redrives -/

/-- The occurrence a resume may redrive: unresolved, and named by the caller or the only one. -/
structure Chosen (i : InstanceRow) (input : ResumeInput) (o : WorkflowFailureOccurrence) :
    Prop where
  mem : o ∈ i.occurrences.rows
  unresolved : o.status = .unresolved
  named : ∀ id, input.named = some id → o.occurrenceId = id
  only : input.named = none → i.listFailureOccurrences (some .unresolved) = [o]

/-- **What a committed redrive does** to the row. -/
structure Redrive (env : WorkflowEnv) (i : InstanceRow) (input : ResumeInput)
    (o : WorkflowFailureOccurrence) (j : InstanceRow) : Prop where
  chosen : Chosen i input o
  resumable : i.status ≠ .completed ∧ i.status ≠ .aborted
  isStep : ∃ step, i.spec.step? o.stepId = some step
  fresh : ∀ b ∈ i.bindings.rows, b.packetId ≠ newQitemId (env.at 0)
  bindings : j.bindings.rows =
    i.bindings.rows ++ [redriveBinding o (newQitemId (env.at 0)) env.base.now]
  occurrences : j.occurrences.rows = i.occurrences.rows.map fun a =>
    if a.occurrenceId = o.occurrenceId then
      { a with
        status := .resolved, redrivePacketId := some (newQitemId (env.at 0))
        resumeDecision := input.decision, resolvedAt := some env.base.now }
    else a
  row : j = redriveRow (recorded i j) o (newQitemId (env.at 0))
    (i.currentFrontier ++ [newQitemId (env.at 0)]) input

/-- The replay of a resolved occurrence: the recorded packet is returned. -/
structure Replay (db : Db) (i : InstanceRow) (input : ResumeInput) (o : WorkflowFailureOccurrence)
    (r : ResumeResult) : Prop where
  mem : o ∈ i.occurrences.rows
  named : input.named = some o.occurrenceId
  resolved : o.status = .resolved
  recorded : o.redrivePacketId = some r.newPacketId
  decision : o.resumeDecision = input.decision
  isRow : (db.getById r.newPacketId).isSome = true
  absorbed : r.absorbedReplay = true
  stepId : r.stepId = o.stepId

lemma chosenOccurrence_eq_ok {i : InstanceRow} {input : ResumeInput}
    {o : WorkflowFailureOccurrence} (h : chosenOccurrence i input = .ok o) : Chosen i input o := by
  unfold chosenOccurrence at h
  simp only at h
  obtain ⟨_, hcount, h⟩ := obind_eq_ok.mp h
  rw [rejectIf_eq_ok] at hcount
  split at h
  · rename_i o' ho
    obtain ⟨_, hstatus, h⟩ := obind_eq_ok.mp h
    cases opure_eq_ok.mp h
    have hstatus : o.status = .unresolved := by simpa using hstatus
    cases hn : input.named with
    | some id =>
      rw [hn] at ho
      simp only [Option.isSome_some, if_true, selectedOccurrence, hn, Option.bind_some] at ho
      refine ⟨List.mem_of_find?_eq_some ho, hstatus, fun id' h' => ?_, fun h' => ?_⟩
      · have := List.find?_some ho
        simp only [hn, Option.some.injEq] at h'
        subst h'
        simpa using this
      · simp [hn] at h'
    | none =>
      rw [hn] at ho hcount
      simp only [Option.isSome_none, Bool.false_eq_true, if_false] at ho
      simp only [Option.isNone_none, Bool.true_and, decide_eq_false_iff_not, not_not] at hcount
      obtain ⟨a, ha⟩ := List.length_eq_one_iff.mp hcount
      rw [ha] at ho
      simp only [List.head?_cons, Option.some.injEq] at ho
      subst ho
      have hmem : a ∈ i.listFailureOccurrences (some .unresolved) := by simp [ha]
      exact ⟨(List.mem_filter.mp hmem).1, hstatus, fun id' h' => by simp [hn] at h', fun _ => ha⟩
  · simp at h

lemma row_unique {o a : WorkflowFailureOccurrence} {i : InstanceRow} (ho : o ∈ i.occurrences.rows)
    (ha : a ∈ i.occurrences.rows) (h : a.occurrenceId = o.occurrenceId) : a = o := by
  have hget := Table.get?_of_mem ha
  rw [h, Table.get?_of_mem ho] at hget
  exact (Option.some.inj hget).symm

lemma resolveFailureOccurrence_eq_ok {i j : InstanceRow} {o : WorkflowFailureOccurrence}
    {packetId : String} {decision : Option String} {now : Time} (ho : o ∈ i.occurrences.rows)
    (hopen : o.status = .unresolved)
    (h : i.resolveFailureOccurrence o.occurrenceId packetId decision now = .ok j) :
    j.occurrences.rows = i.occurrences.rows.map (fun a =>
      if a.occurrenceId = o.occurrenceId then
        { a with
          status := .resolved, redrivePacketId := some packetId, resumeDecision := decision
          resolvedAt := some now }
      else a) ∧ j = { i with occurrences := j.occurrences } := by
  unfold InstanceRow.resolveFailureOccurrence at h
  split at h
  · cases h
    refine ⟨List.map_congr_left fun a ha => ?_, rfl⟩
    unfold Table.rewrite
    by_cases hid : a.occurrenceId = o.occurrenceId
    · obtain rfl := row_unique ho ha hid
      simp [hopen]
    · simp [hid]
  · simp at h

structure Redrives (r : ResumeResult) (o : WorkflowFailureOccurrence) (packetId : String) :
    Prop where
  stepId : r.stepId = o.stepId
  newPacketId : r.newPacketId = packetId
  written : r.absorbedReplay = false

lemma redriveOccurrence_row {env : WorkflowEnv} {db db' : Db} {i j : InstanceRow}
    {input : ResumeInput} {o : WorkflowFailureOccurrence} {r : ResumeResult}
    (ho : Chosen i input o)
    (h : redriveOccurrence env db i input o = .ok (r, j, db')) :
    Redrive env i input o j ∧ Redrives r o (newQitemId (env.at 0)) := by
  unfold redriveOccurrence at h
  obtain ⟨_, hstatus, h⟩ := obind_eq_ok.mp h
  simp only at h
  split at h
  · simp at h
  · rename_i step hstep
    obtain ⟨owner₀, -, h⟩ := obind_eq_ok.mp h
    obtain ⟨owner, -, h⟩ := obind_eq_ok.mp h
    obtain ⟨db₁, -, h⟩ := obind_eq_ok.mp h
    obtain ⟨bound, hbind, h⟩ := obind_eq_ok.mp h
    obtain ⟨resolved, hres, h⟩ := obind_eq_ok.mp h
    obtain ⟨⟨closed, db₂⟩, -, h⟩ := obind_eq_ok.mp h
    obtain ⟨db₃, -, h⟩ := obind_eq_ok.mp h
    cases opure_eq_ok.mp h
    obtain ⟨hbrows, hfresh, hbound⟩ := InstanceRow.bindFrontierPacket_eq_ok hbind
    have hocc : bound.occurrences = i.occurrences := by rw [hbound]
    obtain ⟨horows, hresolved⟩ := resolveFailureOccurrence_eq_ok (by rw [hocc]; exact ho.mem)
      ho.unresolved hres
    have hrow : resolved = recorded i resolved := by
      unfold recorded
      rw [hresolved, hbound]
    have hb : resolved.bindings = bound.bindings := by rw [hresolved]
    rw [InstanceRow.boundSpec_step?] at hstep
    refine ⟨⟨ho, by simpa using hstatus, ⟨step, hstep⟩, hfresh, ?_, ?_, ?_⟩, ?_⟩
    · change resolved.bindings.rows = _
      rw [hb, hbrows]
    · change resolved.occurrences.rows = _
      rw [horows, hocc]
    · change redriveRow resolved _ _ _ _ = redriveRow (recorded i resolved) _ _ _ _
      rw [← hrow]
    · exact ⟨WorkflowSpec.step?_id hstep, rfl, rfl⟩

lemma replayResume_eq_ok {db db' : Db} {i j : InstanceRow} {input : ResumeInput}
    {o : WorkflowFailureOccurrence} {p : String} {r : ResumeResult}
    (hsel : selectedOccurrence i input = some o) (hstatus : o.status = .resolved)
    (hp : o.redrivePacketId = some p) (h : replayResume db i input o p = .ok (r, j, db')) :
    Replay db i input o r ∧ j = i ∧ db' = db := by
  unfold replayResume at h
  obtain ⟨_, hdec, h⟩ := obind_eq_ok.mp h
  split at h
  · simp at h
  · rename_i packet hrow
    cases opure_eq_ok.mp h
    obtain ⟨id, hid, hfind⟩ := Option.bind_eq_some_iff.mp hsel
    have hoid : o.occurrenceId = id := by simpa using List.find?_some hfind
    exact ⟨⟨List.mem_of_find?_eq_some hfind, by rw [hid, hoid], hstatus, hp, by simpa using hdec,
      by simp [hrow], rfl, rfl⟩, rfl, rfl⟩

/-- **A committed resume of an instance with occurrences** replays a recorded redrive without a
write, or redrives one unresolved occurrence. -/
theorem resumeFailureOccurrence_eq_ok {env : WorkflowEnv} {db db' : Db} {i j : InstanceRow}
    {input : ResumeInput} {r : ResumeResult}
    (h : resumeFailureOccurrence env db i input = .ok (r, j, db')) :
    (∃ o, Replay db i input o r ∧ j = i ∧ db' = db) ∨
      ∃ o, Redrive env i input o j ∧ Redrives r o (newQitemId (env.at 0)) := by
  unfold resumeFailureOccurrence at h
  split at h
  · rename_i o p hsel
    obtain ⟨o', hso, ho'⟩ := Option.bind_eq_some_iff.mp hsel
    split at ho'
    · rename_i hres
      obtain ⟨p', hp', hpair⟩ := Option.map_eq_some_iff.mp ho'
      cases hpair
      have hrec : o.redrivePacketId = some p := by
        rw [Option.filter_eq_some_iff] at hp'
        exact hp'.1
      exact .inl ⟨o, replayResume_eq_ok hso hres hrec h⟩
    · cases ho'
  · obtain ⟨o, ho, h⟩ := obind_eq_ok.mp h
    exact .inr ⟨o, redriveOccurrence_row (chosenOccurrence_eq_ok ho) h⟩

lemma resume_eq_ok {env : WorkflowEnv} {db db' : Db} {i j : InstanceRow} {input : ResumeInput}
    {r : ResumeResult} (h : resume env db i input = .ok (r, j, db')) :
    (∃ o, Replay db i input o r ∧ j = i ∧ db' = db) ∨
      (∃ o, Redrive env i input o j ∧ Redrives r o (newQitemId (env.at 0))) ∨
      (i.occurrences.rows = [] ∧ i.status = .failed ∧
        resumeInstance env db i input = .ok (r, j, db')) := by
  unfold resume at h
  split at h
  · rcases resumeFailureOccurrence_eq_ok h with h | h
    · exact .inl h
    · exact .inr (.inl h)
  · rename_i hnone
    simp only [Bool.or_eq_true, not_or, Bool.not_eq_true, Bool.not_eq_false',
      List.isEmpty_iff] at hnone
    refine .inr (.inr ⟨hnone.2, ?_, h⟩)
    unfold resumeInstance at h
    obtain ⟨_, hstatus, -⟩ := obind_eq_ok.mp h
    simpa using hstatus

/-! ### Re-routes -/

/-- **What a committed re-route does** to the row: one packet is exchanged for its successor. -/
structure Reroute (env : WorkflowEnv) (i : InstanceRow) (old : String) (j : InstanceRow) :
    Prop where
  isLive : i.status.isLive = true
  onFrontier : old ∈ i.currentFrontier
  bindings : match i.getFrontierBinding old with
    | none => j.bindings = i.bindings
    | some b => j.bindings.rows = (i.bindings.erase old).rows ++
        [{ b with packetId := newQitemId (env.at 0), createdAt := env.base.now }] ∧
      ∀ a ∈ (i.bindings.erase old).rows, a.packetId ≠ newQitemId (env.at 0)
  row : j = routedRow i { i with bindings := j.bindings } old (newQitemId (env.at 0))

lemma rebind_row {i j : InstanceRow} {old successor : String} {now : Time}
    (h : rebind i old successor now = .ok j) :
    (match i.getFrontierBinding old with
      | none => j.bindings = i.bindings
      | some b => j.bindings.rows = (i.bindings.erase old).rows ++
          [{ b with packetId := successor, createdAt := now }] ∧
        ∀ a ∈ (i.bindings.erase old).rows, a.packetId ≠ successor) ∧
      j = { i with bindings := j.bindings } := by
  unfold rebind at h
  cases hb : i.getFrontierBinding old with
  | none =>
    simp only [hb] at h
    cases h
    exact ⟨rfl, rfl⟩
  | some b =>
    simp only [hb] at h
    obtain ⟨hrows, hfresh, hrow⟩ := InstanceRow.bindFrontierPacket_eq_ok h
    have hj : j = { i with bindings := j.bindings } := by
      rw [hrow]
      rfl
    exact ⟨⟨hrows, hfresh⟩, hj⟩

/-- **A committed re-route** exchanges one frontier packet. -/
theorem route_eq_ok {env : WorkflowEnv} {db db' : Db} {i j : InstanceRow} {input : RouteInput}
    {r : RouteResult} (h : route env db i input = .ok (r, j, db')) :
    Reroute env i r.closedPacketId j ∧ r.newPacketId = newQitemId (env.at 0) ∧
      r.stepId = selectedStepId i r.closedPacketId := by
  unfold route at h
  obtain ⟨_, hlive, h⟩ := obind_eq_ok.mp h
  obtain ⟨old, -, h⟩ := obind_eq_ok.mp h
  obtain ⟨_, hfront, h⟩ := obind_eq_ok.mp h
  split at h
  · simp at h
  · rename_i row hrow
    obtain ⟨_, -, h⟩ := obind_eq_ok.mp h
    obtain ⟨db₁, -, h⟩ := obind_eq_ok.mp h
    obtain ⟨db₂, -, h⟩ := obind_eq_ok.mp h
    obtain ⟨db₃, -, h⟩ := obind_eq_ok.mp h
    obtain ⟨db₄, -, h⟩ := obind_eq_ok.mp h
    obtain ⟨rebound, hrebind, h⟩ := obind_eq_ok.mp h
    obtain ⟨db₅, -, h⟩ := obind_eq_ok.mp h
    obtain ⟨_, -, h⟩ := obind_eq_ok.mp h
    cases opure_eq_ok.mp h
    obtain ⟨hbind, hrow⟩ := rebind_row hrebind
    refine ⟨⟨by simpa using hlive, by simpa using hfront, hbind, ?_⟩, rfl, rfl⟩
    change routedRow i rebound _ _ = routedRow i { i with bindings := rebound.bindings } _ _
    rw [← hrow]

/-! ### Aborts -/

lemma abortPacket_row {env : WorkflowEnv} {i : InstanceRow} {input : AbortInput}
    {s t : InstanceRow × Db} {p : String} (h : abortPacket env i input s p = .ok t) :
    t.1 = { s.1 with trail := t.1.trail, bindings := s.1.bindings.erase p } ∧
      ∃ entry, t.1.trail = s.1.trail ++ [entry] ∧ entry.closureReason = .failed := by
  unfold abortPacket at h
  obtain ⟨_, -, h⟩ := obind_eq_ok.mp h
  split at h
  · simp at h
  · obtain ⟨db, -, h⟩ := obind_eq_ok.mp h
    cases opure_eq_ok.mp h
    exact ⟨rfl, _, rfl, rfl⟩

/-- What closing a list of packets leaves of the row. -/
structure Aborted (s t : InstanceRow) (packets : List String) : Prop where
  spec : t.spec = s.spec
  occurrences : t.occurrences = s.occurrences
  bindings : ∀ b, b ∈ t.bindings.rows ↔ b ∈ s.bindings.rows ∧ b.packetId ∉ packets
  trail : ∃ entries, t.trail = s.trail ++ entries ∧ ∀ e ∈ entries, e.closureReason = .failed

lemma abortPackets_row {env : WorkflowEnv} {i : InstanceRow} {input : AbortInput} :
    ∀ {packets : List String} {s t : InstanceRow × Db},
      packets.foldlM (abortPacket env i input) s = .ok t → Aborted s.1 t.1 packets := by
  intro packets
  induction packets with
  | nil =>
    intro s t h
    obtain rfl : s = t := by simpa [pure, Except.pure] using h
    exact ⟨rfl, rfl, by simp, [], by simp⟩
  | cons p packets ih =>
    intro s t h
    rw [List.foldlM_cons] at h
    obtain ⟨s₁, hstep, h⟩ := obind_eq_ok.mp h
    obtain ⟨hrow, entry, htrail, hfailed⟩ := abortPacket_row hstep
    obtain ⟨hspec, hocc, hbind, entries, htrail', hentries⟩ := ih h
    have hspec₁ : s₁.1.spec = s.1.spec := by rw [hrow]
    have hocc₁ : s₁.1.occurrences = s.1.occurrences := by rw [hrow]
    have hbind₁ : s₁.1.bindings = s.1.bindings.erase p := by rw [hrow]
    refine ⟨hspec.trans hspec₁, hocc.trans hocc₁, fun b => ?_, entry :: entries, ?_, ?_⟩
    · rw [hbind b, hbind₁, Table.mem_erase]
      simp only [List.mem_cons, not_or]
      tauto
    · rw [htrail', htrail]
      simp
    · intro e he
      rcases List.mem_cons.mp he with rfl | he
      · exact hfailed
      · exact hentries e he

/-- **A committed abort** closes every frontier packet and ends the instance. -/
theorem abort_eq_ok {env : WorkflowEnv} {db db' : Db} {i j : InstanceRow} {input : AbortInput}
    {closed : List String} (h : abort env db i input = .ok (closed, j, db')) :
    Aborted i j i.currentFrontier ∧ j.status = .aborted ∧ j.currentFrontier = [] := by
  unfold abort at h
  obtain ⟨_, -, h⟩ := obind_eq_ok.mp h
  obtain ⟨_, -, h⟩ := obind_eq_ok.mp h
  obtain ⟨⟨closed', db₁⟩, hloop, h⟩ := obind_eq_ok.mp h
  cases opure_eq_ok.mp h
  obtain ⟨hspec, hocc, hbind, htrail⟩ := abortPackets_row hloop
  exact ⟨⟨hspec, hocc, hbind, htrail⟩, rfl, rfl⟩

/-! ### Computed runs -/

/-- Calls in turn, each on the tables the one before left, on an instance that passes a check, and
one more check at their end. -/
def replay (ok : InstanceRow → Call → Bool) (p : InstanceRow → Db → Bool) (i : InstanceRow)
    (db : Db) : List (WorkflowEnv × Call) → Bool
  | [] => p i db
  | (env, call) :: rest =>
    ok i call && (call.run env db i).toOption.any fun x => replay ok p x.2.1 x.2.2 rest

lemma replay_path {ok : InstanceRow → Call → Bool} {p : InstanceRow → Db → Bool}
    {calls : List (WorkflowEnv × Call)} {i : InstanceRow} {db : Db}
    (h : replay ok p i db calls = true) :
    ∃ cs j db', Path (fun s c t => commits s c t ∧ ok s c.call = true) i cs j ∧
      cs.map (fun c => (c.env, c.call)) = calls ∧ p j db' = true := by
  induction calls generalizing i db with
  | nil => exact ⟨[], i, db, .nil i, rfl, h⟩
  | cons call calls ih =>
    obtain ⟨env, call⟩ := call
    rw [replay, Bool.and_eq_true] at h
    obtain ⟨hok, h⟩ := h
    cases hrun : call.run env db i with
    | error e => simp [hrun, Except.toOption] at h
    | ok x =>
      obtain ⟨reply, i₁, db₁⟩ := x
      have hrest : replay ok p i₁ db₁ calls = true := by simpa [hrun, Except.toOption] using h
      obtain ⟨cs, j, db', hpath, hcalls, hp⟩ := ih hrest
      exact ⟨⟨env, db, call, reply, db₁⟩ :: cs, j, db', .cons ⟨hrun, hok⟩ hpath, by simp [hcalls],
        hp⟩

/-- A daemon at one instant, with no rig, no keepalives and one role that names its seat. -/
def plainWorkflowEnv (now draw : ℕ) : WorkflowEnv where
  base := plainEnv now draw "job"
  draw k := draw + k
  ulid _ := "job"
  instanceId := "instance"
  runtimeOf _ := none
  roleSeat _ _ _ := none
  registeredRigs := []
  rigDeclaresRole _ _ := false
  seatAlive _ := true
  hostRegistry _ := (true, [])
  hostDial := none
  humanDestination := .ok "human@kernel"
  watchdogJobs := false
  stringify _ := ""
  handoffBody _ _ _ _ _ _ _ _ := "next"
  instantiateBody _ _ _ _ _ _ := "begin"
  withContinuation _ body _ _ _ := body
  waitWakeMessage _ _ _ _ := ""

/-- A step of the one role, behind its prerequisites. -/
def plainStep (id : String) (dependsOn : List String) : WorkflowStepSpec where
  id := id
  actorRole := "dev"
  dependsOn := some dependsOn

def plainSpec (steps : List WorkflowStepSpec) (maxHops : Option ℚ) : WorkflowSpec where
  id := "flow"
  version := "1"
  entryRole := some "dev"
  roles := [("dev", { preferredTargets := some ["dev@rig"] })]
  steps := steps
  loopGuards := maxHops.map fun m => { maxHops := some m }

def plainInput (spec : WorkflowSpec) : InstantiateInput where
  spec := spec
  rootObjective := "go"
  createdBySession := "lead@rig"

/-- The `k`-th packet of a call at the given draw. -/
def plainPacket (now draw k : ℕ) : String := newQitemId ((plainWorkflowEnv now draw).at k)

def plainClose (packet : String) (exit : WorkflowExitKind) : Call :=
  .project { instanceId := "instance", currentPacketId := packet, exit, actorSession := "dev@rig" }

lemma exists_playFrom (env : WorkflowEnv) (input : InstantiateInput)
    (calls : List (WorkflowEnv × Call)) (ok : InstanceRow → Call → Bool)
    (p : InstanceRow → InstanceRow → Bool) (hkey : input.lifecycle = none)
    (h : ((instantiate env Table.empty Db.empty input).toOption.any fun x =>
      replay ok (fun j _ => p x.1.instance_ j) x.1.instance_ x.2.2 calls) = true) :
    ∃ i j cs, Born i ∧ Path (fun s c t => commits s c t ∧ ok s c.call = true) i cs j ∧
      cs.map (fun c => (c.env, c.call)) = calls ∧ p i j = true := by
  cases hinst : instantiate env Table.empty Db.empty input with
  | error e => simp [hinst, Except.toOption] at h
  | ok x =>
    have hreplay := by simpa [hinst, Except.toOption] using h
    obtain ⟨cs, j, db', hpath, hcalls, hp⟩ := replay_path hreplay
    exact ⟨_, j, cs, ⟨_, _, _, _, _, _, _, hinst, instantiate_fresh hkey hinst, rfl⟩, hpath,
      hcalls, hp⟩

lemma exists_playFrom_call (env : WorkflowEnv) (input : InstantiateInput)
    (calls : List (WorkflowEnv × Call)) (last : WorkflowEnv × Call)
    (p : InstanceRow → InstanceRow → Reply → InstanceRow → Bool) (hkey : input.lifecycle = none)
    (h : ((instantiate env Table.empty Db.empty input).toOption.any fun x =>
      replay (fun _ _ => true) (fun s db => (last.2.run last.1 db s).toOption.any fun y =>
        p x.1.instance_ s y.1 y.2.1) x.1.instance_ x.2.2 calls) = true) :
    ∃ i cs s c j, Born i ∧ Path commits i cs s ∧ cs.length = calls.length ∧ commits s c j ∧
      c.call = last.2 ∧ p i s c.reply j = true := by
  cases hinst : instantiate env Table.empty Db.empty input with
  | error e => simp [hinst, Except.toOption] at h
  | ok x =>
    have hreplay := by simpa [hinst, Except.toOption] using h
    obtain ⟨cs, s, db, hpath, hcalls, hp⟩ := replay_path hreplay
    cases hrun : last.2.run last.1 db s with
    | error e => simp [hrun] at hp
    | ok y =>
      obtain ⟨reply, j, db'⟩ := y
      have hp : p x.1.instance_ s reply j = true := by simpa [hrun] using hp
      exact ⟨_, cs, s, ⟨last.1, db, last.2, reply, db'⟩, j,
        ⟨_, _, _, _, _, _, _, hinst, instantiate_fresh hkey hinst, rfl⟩,
        hpath.mono fun _ _ _ h => h.1, by rw [← hcalls, List.length_map], hrun, rfl, hp⟩

end OpenRig.GraphCalls
