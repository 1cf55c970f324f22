import OpenRig.GraphCalls

/-!
The frontier of a dependency-graph instance and its packet bindings.

The executor keeps the two equal, with one packet for each step, exactly while no close takes a
mapped `waiting` exit (its packet is bound, and the parked one stays on the frontier in its
place) and no mapped exit or redrive goes to a step that another packet already stands for.
-/

namespace OpenRig.FrontierBindings

open OpenRig.JsText OpenRig.QueueDb OpenRig.WorkflowTypes OpenRig.WorkflowStore
open OpenRig.WorkflowRouting OpenRig.WorkflowProjector OpenRig.WorkflowRuntime
open OpenRig.WorkflowValidator OpenRig.Instantiation OpenRig.GraphCalls OpenRig.Runs

/-! ### What every call keeps -/

/-- What an accepted dependency graph has in every state it reaches. -/
structure Running (i : InstanceRow) : Prop where
  graph : i.spec.isDependencyGraph = true
  validated : Validated i.spec
  failed : i.status = .failed → i.occurrences.rows ≠ []

lemma graphStatus_failed {db : Db} {i : InstanceRow} {frontier : List String}
    (h : graphStatus db i frontier = .failed) : i.occurrences.rows ≠ [] := by
  intro hnone
  unfold graphStatus at h
  split at h
  · split at h <;> cases h
  · split at h
    · rename_i hunresolved
      simp [InstanceRow.listFailureOccurrences, hnone] at hunresolved
    · cases h

lemma Running.not_stuck {i : InstanceRow} (h : Running i) (hocc : i.occurrences.rows = [])
    (hstatus : i.status = .failed) : False :=
  h.failed hstatus hocc

lemma Running.same_spec {i j : InstanceRow} {c : Commit} (hi : Running i) (h : commits i c j) :
    j.spec = i.spec := by
  obtain ⟨env, db, call, reply, after⟩ := c
  cases call with
  | project input =>
    obtain ⟨r, -, h⟩ := run_project h
    rcases project_graph hi.graph h with ⟨_, _, _, _, rfl, _⟩ | ⟨step, b, plan, plans, hadv, _⟩
    · rfl
    · obtain ⟨db', hrow⟩ := hadv.row
      rw [hrow]
      rfl
  | resume input =>
    obtain ⟨r, -, h⟩ := run_resume h
    rcases resume_eq_ok h with ⟨o, -, rfl, -⟩ | ⟨o, hre, -⟩ | ⟨hocc, hstatus, -⟩
    · rfl
    · rw [hre.row]
      rfl
    · exact (hi.not_stuck hocc hstatus).elim
  | route input =>
    obtain ⟨r, -, h⟩ := run_route h
    rw [(route_eq_ok h).1.row]
    rfl
  | abort input =>
    obtain ⟨r, -, h⟩ := run_abort h
    exact (abort_eq_ok h).1.spec

lemma Running.failed_recorded {i j : InstanceRow} {c : Commit} (hi : Running i)
    (h : commits i c j) (hf : j.status = .failed) : j.occurrences.rows ≠ [] := by
  obtain ⟨env, db, call, reply, after⟩ := c
  cases call with
  | project input =>
    obtain ⟨r, -, h⟩ := run_project h
    rcases project_graph hi.graph h with ⟨_, _, _, _, rfl, _⟩ | ⟨step, b, plan, plans, hadv, _⟩
    · exact hi.failed hf
    · obtain ⟨db', hrow⟩ := hadv.row
      rw [hrow] at hf
      exact graphStatus_failed hf
  | resume input =>
    obtain ⟨r, -, h⟩ := run_resume h
    rcases resume_eq_ok h with ⟨o, -, rfl, -⟩ | ⟨o, hre, -⟩ | ⟨hocc, hstatus, -⟩
    · exact hi.failed hf
    · rw [hre.row] at hf
      cases hf
    · exact (hi.not_stuck hocc hstatus).elim
  | route input =>
    obtain ⟨r, -, h⟩ := run_route h
    have hroute := (route_eq_ok h).1
    have hlive := hroute.isLive
    rw [hroute.row] at hf
    rw [show i.status = .failed from hf] at hlive
    cases hlive
  | abort input =>
    obtain ⟨r, -, h⟩ := run_abort h
    rw [(abort_eq_ok h).2.1] at hf
    cases hf

/-- **Every committed call keeps the spec and what it promises.** -/
theorem Running.step {i j : InstanceRow} {c : Commit} (hi : Running i) (h : commits i c j) :
    Running j := by
  have hspec := hi.same_spec h
  exact ⟨hspec ▸ hi.graph, hspec ▸ hi.validated, hi.failed_recorded h⟩

lemma Running.path_spec {i j : InstanceRow} {cs : List Commit} (hi : Running i)
    (h : Path commits i cs j) : j.spec = i.spec := by
  have := h.invariant (I := fun s => Running s ∧ s.spec = i.spec)
    (fun s c t hstep hs => ⟨hs.1.step hstep, (hs.1.same_spec hstep).trans hs.2⟩) ⟨hi, rfl⟩
  exact this.2

lemma Running.of_born {i : InstanceRow} (h : Born i) (hg : i.spec.isDependencyGraph = true) :
    Running i := by
  obtain ⟨entry, packetId, hnew⟩ := h.new
  refine ⟨hg, hnew.validated, fun hf => ?_⟩
  have hlive := hnew.isLive
  rw [hf] at hlive
  cases hlive

/-! ### The two sets -/

/-- The frontier and the bindings are one set without duplicates, with one packet for a step. -/
structure Synced (i : InstanceRow) : Prop where
  nodup : i.currentFrontier.Nodup
  same : ∀ p, p ∈ i.currentFrontier ↔ p ∈ i.bindings.rows.map (·.packetId)
  oneEach : i.liveStepIds.Nodup

/-- Every packet the call created is on the frontier. -/
def CreatedLive (c : Commit) (j : InstanceRow) : Prop :=
  ∀ x ∈ created c.reply, x.2 ∈ j.currentFrontier

/-- The close takes a mapped exit to the target: it is no replay, and the hop guard lets it
through. -/
def Jumps (i : InstanceRow) (input : ProjectStepInput) (target : String) : Prop :=
  ∃ binding step, Stands i input.currentPacketId binding step ∧
    absorbs i input step.id = false ∧ mappedTarget step input.exit = some target ∧
    exceedsMaxHops binding.hopCount binding.hopsBaseline i.spec.maxHops = false

/-- No other packet stands for the step. -/
def Free (i : InstanceRow) (packetId stepId : String) : Prop :=
  ∀ b ∈ i.bindings.rows, b.packetId ≠ packetId → b.stepId ≠ stepId

/-- **The exact condition**: a mapped exit taken is not `waiting` and goes to a step no other
packet stands for, and a redriven step has no packet. -/
def Apart (i : InstanceRow) (c : Commit) : Prop :=
  match c.call with
  | .project input => ∀ target, Jumps i input target →
      input.exit ≠ .waiting ∧ Free i input.currentPacketId target
  | .resume input => ∀ o, Chosen i input o → o.stepId ∉ i.liveStepIds
  | .route _ | .abort _ => True

lemma Synced.of_born {i : InstanceRow} (h : Born i) (hg : i.spec.isDependencyGraph = true) :
    Synced i := by
  obtain ⟨entry, packetId, hnew⟩ := h.new
  have hrows := hnew.bindings
  rw [if_pos hg] at hrows
  obtain ⟨b, hb⟩ : ∃ b, i.bindings.rows = [b] := by
    have hlen := congrArg List.length hrows
    rw [List.length_map] at hlen
    exact List.length_eq_one_iff.mp hlen
  rw [hb] at hrows
  simp only [List.map_cons, List.map_nil, List.cons.injEq, Prod.mk.injEq, and_true] at hrows
  refine ⟨by simp [hnew.frontier], fun p => ?_, by simp [InstanceRow.liveStepIds, hb]⟩
  simp [hnew.frontier, hb, hrows.1]

/-! ### Closes -/

section Advances

variable {env : WorkflowEnv} {i j : InstanceRow} {input : ProjectStepInput}
  {step : WorkflowStepSpec} {b : WorkflowFrontierBinding} {plan : GraphPlan}
  {plans : List OwnerPlan}

lemma advance_frontier (h : Advance env i input step b plan plans j) :
    j.currentFrontier = (i.currentFrontier.filter fun p => p ≠ input.currentPacketId) ++
      if plan.effectiveExit = .waiting then [input.currentPacketId]
      else plans.map (·.packetId) := by
  obtain ⟨db, hrow⟩ := h.row
  rw [hrow]
  rfl

lemma advance_packets (h : Advance env i input step b plan plans j) :
    j.bindings.rows.map (·.packetId) =
      (if plan.effectiveExit = .waiting then i.bindings.rows.map (·.packetId)
        else (i.bindings.rows.map (·.packetId)).filter fun p => p ≠ input.currentPacketId) ++
      plans.map (·.packetId) := by
  rw [h.bindings, List.map_append, List.map_map]
  congr 1
  split
  · rfl
  · rw [List.filter_map]
    rfl

lemma advance_steps (h : Advance env i input step b plan plans j) :
    j.liveStepIds = (if plan.effectiveExit = .waiting then i.liveStepIds
        else (i.bindings.rows.filter fun a => a.packetId ≠ input.currentPacketId).map (·.stepId)) ++
      plan.next.map (·.id) := by
  unfold InstanceRow.liveStepIds
  rw [h.bindings, List.map_append, List.map_map, ← h.steps, List.map_map]
  congr 1
  split <;> rfl

lemma same_of_advance (h : Advance env i input step b plan plans j) (hi : Synced i)
    (hpark : plan.effectiveExit = .waiting → plan.next = []) :
    j.currentFrontier.Nodup ∧
      ∀ p, p ∈ j.currentFrontier ↔ p ∈ j.bindings.rows.map (·.packetId) := by
  have hplans : plan.effectiveExit = .waiting → plans = [] := by
    intro hw
    have hsteps := h.steps
    rw [hpark hw] at hsteps
    exact List.map_eq_nil_iff.mp hsteps
  have htable := j.bindings.nodup
  rw [advance_packets h] at htable ⊢
  rw [advance_frontier h]
  by_cases hw : plan.effectiveExit = .waiting
  · rw [if_pos hw] at htable ⊢
    rw [if_pos hw, hplans hw]
    have hcur : input.currentPacketId ∈ i.currentFrontier := h.onFrontier
    constructor
    · refine List.Nodup.append (hi.nodup.filter _) (by simp) ?_
      intro p hp hp'
      simp only [List.mem_filter, decide_eq_true_eq, List.mem_singleton] at hp hp'
      exact hp.2 hp'
    · intro p
      have := hi.same p
      simp only [List.mem_append, List.mem_filter, decide_eq_true_eq, List.mem_singleton,
        List.map_nil, List.append_nil]
      rw [← this]
      constructor
      · rintro (⟨hp, -⟩ | rfl)
        · exact hp
        · exact hcur
      · intro hp
        by_cases hpc : p = input.currentPacketId
        · exact .inr hpc
        · exact .inl ⟨hp, hpc⟩
  · rw [if_neg hw] at htable ⊢
    rw [if_neg hw]
    obtain ⟨-, hnew, hdisj⟩ := List.nodup_append.mp htable
    constructor
    · refine List.Nodup.append (hi.nodup.filter _) hnew ?_
      intro p hp hp'
      rw [List.mem_filter] at hp
      exact hdisj p (List.mem_filter.mpr ⟨(hi.same p).mp hp.1, hp.2⟩) p hp' rfl
    · intro p
      rw [List.mem_append, List.mem_append, List.mem_filter, List.mem_filter, hi.same p]

lemma oneEach_iff (h : Advance env i input step b plan plans j) (hi : Synced i)
    (hw : plan.effectiveExit ≠ .waiting) (hnext : (plan.next.map (·.id)).Nodup) :
    j.liveStepIds.Nodup ↔ ∀ s ∈ plan.next, Free i input.currentPacketId s.id := by
  rw [advance_steps h, if_neg hw]
  have hold : ((i.bindings.rows.filter fun a => a.packetId ≠ input.currentPacketId).map
      (·.stepId)).Nodup := hi.oneEach.sublist (List.filter_sublist.map _)
  constructor
  · intro hnodup s hs a ha hp hstep
    obtain ⟨-, -, hdisj⟩ := List.nodup_append.mp hnodup
    refine hdisj a.stepId (List.mem_map_of_mem (List.mem_filter.mpr ⟨ha, by simpa using hp⟩))
      s.id (List.mem_map_of_mem hs) hstep
  · intro hfree
    refine List.Nodup.append hold hnext ?_
    intro x hx hx'
    obtain ⟨a, ha, rfl⟩ := List.mem_map.mp hx
    obtain ⟨s, hs, hid⟩ := List.mem_map.mp hx'
    rw [List.mem_filter] at ha
    exact hfree s hs a ha.1 (by simpa using ha.2) hid.symm

lemma filter_ids_nodup (hv : Validated i.spec) (p : WorkflowStepSpec → Bool) :
    ((i.spec.steps.filter p).map (·.id)).Nodup :=
  hv.nodup.sublist (List.filter_sublist.map _)

/-- **A close keeps the two sets exactly when its mapped exit is apart.** -/
theorem advance_synced (h : Advance env i input step b plan plans j) (hrun : Running i)
    (hi : Synced i) :
    (∀ target, Jumps i input target →
      input.exit ≠ .waiting ∧ Free i input.currentPacketId target) ↔ Synced j := by
  obtain ⟨next, hplan⟩ := planGraph_eq_ok h.planned
  rcases hplan.decided with ⟨hne, htrip, hexit, hnil, -⟩ | ⟨hpass, hexit, hnext, -⟩
  · -- the guard tripped: nothing is routed
    have hw : plan.effectiveExit ≠ .waiting := by rw [hexit]; simp
    obtain ⟨hnodup, hsame⟩ := same_of_advance h hi fun hw' => absurd hw' hw
    have hone : j.liveStepIds.Nodup := (oneEach_iff h hi hw (by simp [hnil])).mpr (by simp [hnil])
    refine ⟨fun _ => ⟨hnodup, hsame, hone⟩, fun _ target hj => ?_⟩
    obtain ⟨b', step', hst, -, -, hguard⟩ := hj
    obtain ⟨rfl, rfl⟩ := hst.unique h.stands
    rw [htrip] at hguard
    cases hguard
  · rcases nextSteps_eq_ok hplan.routed with ⟨target, s, hmap, hs, rfl⟩ | ⟨hmap, hc, hready⟩ |
      ⟨hmap, hc, rfl⟩
    · -- a mapped exit
      have hguard : exceedsMaxHops b.hopCount b.hopsBaseline i.spec.maxHops = false :=
        hpass.resolve_left (by simp)
      have hid : s.id = target := WorkflowSpec.step?_id hs
      have hone : (plan.next.map (·.id)).Nodup := by simp [hnext]
      constructor
      · intro hcond
        obtain ⟨hw, hfree⟩ := hcond target ⟨b, step, h.stands, h.fresh, hmap, hguard⟩
        rw [← hexit] at hw
        obtain ⟨hnodup, hsame⟩ := same_of_advance h hi fun hw' => absurd hw' hw
        refine ⟨hnodup, hsame, (oneEach_iff h hi hw hone).mpr ?_⟩
        intro s' hs'
        rw [hnext, List.mem_singleton] at hs'
        rw [hs', hid]
        exact hfree
      · rintro hj target' ⟨b', step', hst, -, hmap', -⟩
        obtain ⟨rfl, rfl⟩ := hst.unique h.stands
        obtain rfl : target = target' := Option.some.inj (hmap.symm.trans hmap')
        have hw : plan.effectiveExit ≠ .waiting := by
          -- a parked packet keeps its place, so the new one is bound and off the frontier
          intro hw
          obtain ⟨p, hp⟩ : ∃ p, plans = [p] := by
            have hlen := congrArg List.length h.steps
            rw [hnext, List.length_map] at hlen
            exact List.length_eq_one_iff.mp hlen
          have hfront := advance_frontier h
          have hpack := advance_packets h
          rw [if_pos hw] at hfront hpack
          have hmem : p.packetId ∈ j.currentFrontier := by
            rw [hj.same, hpack, hp]
            simp
          have hold : p.packetId ∈ i.bindings.rows.map (·.packetId) := by
            rw [hfront] at hmem
            rw [← hi.same]
            rcases List.mem_append.mp hmem with hmem | hmem
            · exact (List.mem_filter.mp hmem).1
            · rw [List.mem_singleton.mp hmem]
              exact h.onFrontier
          have htable := j.bindings.nodup
          rw [hpack, hp] at htable
          exact (List.nodup_append.mp htable).2.2 _ hold _ (by simp) rfl
        refine ⟨by rw [← hexit]; exact hw, ?_⟩
        have := (oneEach_iff h hi hw hone).mp hj.oneEach s (by simp [hnext])
        rwa [hid] at this
    · -- a finished step
      have hw : plan.effectiveExit ≠ .waiting := by
        rw [hexit]
        intro hw
        rw [hw] at hc
        cases hc
      obtain ⟨hnodup, hsame⟩ := same_of_advance h hi fun hw' => absurd hw' hw
      have hone : (plan.next.map (·.id)).Nodup := by
        rw [hnext, hready]
        exact filter_ids_nodup hrun.validated _
      refine ⟨fun _ => ⟨hnodup, hsame, (oneEach_iff h hi hw hone).mpr ?_⟩, ?_⟩
      · intro s hs a ha _ hstep
        rw [hnext, hready, List.mem_filter] at hs
        simp only [isReady, Bool.and_eq_true, Bool.not_eq_true', List.contains_eq_mem,
          decide_eq_false_iff_not] at hs
        exact hs.2.1.2 (hstep ▸ List.mem_map_of_mem ha)
      · rintro - target ⟨b', step', hst, -, hmap', -⟩
        obtain ⟨rfl, rfl⟩ := hst.unique h.stands
        rw [hmap] at hmap'
        cases hmap'
    · -- nothing to route
      obtain ⟨hnodup, hsame⟩ := same_of_advance h hi fun _ => hnext
      have hone : j.liveStepIds.Nodup := by
        rw [advance_steps h, hnext, List.map_nil, List.append_nil]
        split
        · exact hi.oneEach
        · exact hi.oneEach.sublist (List.filter_sublist.map _)
      refine ⟨fun _ => ⟨hnodup, hsame, hone⟩, ?_⟩
      rintro - target ⟨b', step', hst, -, hmap', -⟩
      obtain ⟨rfl, rfl⟩ := hst.unique h.stands
      rw [hmap] at hmap'
      cases hmap'

end Advances

/-! ### Redrives, re-routes and aborts -/

lemma chosen_unique {i : InstanceRow} {input : ResumeInput} {o o' : WorkflowFailureOccurrence}
    (h : Chosen i input o) (h' : Chosen i input o') : o' = o := by
  cases hn : input.named with
  | some id => exact row_unique h.mem h'.mem ((h'.named id hn).trans (h.named id hn).symm)
  | none =>
    have := (h'.only hn).symm.trans (h.only hn)
    simpa using this

lemma replay_not_chosen {db : Db} {i : InstanceRow} {input : ResumeInput}
    {o o' : WorkflowFailureOccurrence} {r : ResumeResult} (h : Replay db i input o r)
    (h' : Chosen i input o') : False := by
  obtain rfl : o' = o := row_unique h.mem h'.mem (h'.named _ h.named)
  have := h'.unresolved
  rw [h.resolved] at this
  cases this

lemma redrive_synced {env : WorkflowEnv} {i j : InstanceRow} {input : ResumeInput}
    {o : WorkflowFailureOccurrence} (h : Redrive env i input o j) (hi : Synced i) :
    (∀ o', Chosen i input o' → o'.stepId ∉ i.liveStepIds) ↔ Synced j := by
  have hfront : j.currentFrontier = i.currentFrontier ++ [newQitemId (env.at 0)] := by
    rw [h.row]; rfl
  have hsteps : j.liveStepIds = i.liveStepIds ++ [o.stepId] := by
    unfold InstanceRow.liveStepIds
    rw [h.bindings]
    simp [redriveBinding]
  have hfresh : newQitemId (env.at 0) ∉ i.currentFrontier := by
    rw [hi.same]
    intro hmem
    obtain ⟨b, hb, hid⟩ := List.mem_map.mp hmem
    exact h.fresh b hb hid
  have hone : j.liveStepIds.Nodup ↔ o.stepId ∉ i.liveStepIds := by
    rw [hsteps, List.nodup_append]
    constructor
    · rintro ⟨-, -, hdisj⟩ hmem
      exact hdisj _ hmem _ (by simp) rfl
    · intro hn
      refine ⟨hi.oneEach, by simp, ?_⟩
      rintro a ha b hb rfl
      exact hn (List.mem_singleton.mp hb ▸ ha)
  constructor
  · intro hcond
    refine ⟨?_, fun p => ?_, hone.mpr (hcond o h.chosen)⟩
    · rw [hfront, List.nodup_append]
      refine ⟨hi.nodup, by simp, ?_⟩
      rintro a ha b hb rfl
      exact hfresh (List.mem_singleton.mp hb ▸ ha)
    · rw [hfront, h.bindings, List.map_append, List.mem_append, List.mem_append, hi.same p]
      simp [redriveBinding]
  · intro hj o' ho'
    rw [chosen_unique h.chosen ho']
    exact hone.mp hj.oneEach

lemma reroute_synced {env : WorkflowEnv} {i j : InstanceRow} {old : String}
    (h : Reroute env i old j) (hi : Synced i) : Synced j := by
  obtain ⟨b, hb⟩ : ∃ b, i.getFrontierBinding old = some b := by
    obtain ⟨b, hb, hid⟩ := List.mem_map.mp ((hi.same old).mp h.onFrontier)
    exact ⟨b, Table.get?_eq_some.mpr ⟨hb, hid⟩⟩
  have hbind := h.bindings
  rw [hb] at hbind
  simp only at hbind
  obtain ⟨hrows, hfresh⟩ := hbind
  have hbid : b ∈ i.bindings.rows ∧ b.packetId = old := Table.get?_eq_some.mp hb
  have hfront : j.currentFrontier =
      i.currentFrontier.map fun p => if p = old then newQitemId (env.at 0) else p := by
    rw [h.row]; rfl
  have hnew : ∀ p ∈ i.currentFrontier, p ≠ old → p ≠ newQitemId (env.at 0) := by
    rintro p hp hne rfl
    obtain ⟨a, ha, hid⟩ := List.mem_map.mp ((hi.same _).mp hp)
    exact hfresh a (Table.mem_erase.mpr ⟨ha, by rwa [hid]⟩) hid
  refine ⟨?_, fun p => ?_, ?_⟩
  · rw [hfront]
    refine List.Nodup.map_on ?_ hi.nodup
    intro x hx y hy hxy
    by_cases hxo : x = old <;> by_cases hyo : y = old
    · rw [hxo, hyo]
    · simp only [hxo, hyo, if_true, if_false] at hxy
      exact absurd hxy.symm (hnew y hy hyo)
    · simp only [hxo, hyo, if_true, if_false] at hxy
      exact absurd hxy (hnew x hx hxo)
    · simpa [hxo, hyo] using hxy
  · rw [hfront, hrows, List.map_append, List.mem_append, List.mem_map]
    simp only [List.map_cons, List.map_nil, List.mem_singleton]
    constructor
    · rintro ⟨x, hx, rfl⟩
      by_cases hxo : x = old
      · exact .inr (by simp [hxo])
      · simp only [hxo, if_false]
        obtain ⟨a, ha, hid⟩ := List.mem_map.mp ((hi.same x).mp hx)
        exact .inl (List.mem_map.mpr ⟨a, Table.mem_erase.mpr ⟨ha, by rwa [hid]⟩, hid⟩)
    · rintro (hp | rfl)
      · obtain ⟨a, ha, rfl⟩ := List.mem_map.mp hp
        obtain ⟨ha, hne⟩ := Table.mem_erase.mp ha
        exact ⟨a.packetId, (hi.same _).mpr (List.mem_map_of_mem ha), by simp [hne]⟩
      · exact ⟨old, h.onFrontier, by simp⟩
  · unfold InstanceRow.liveStepIds
    rw [hrows, List.map_append, List.nodup_append]
    refine ⟨hi.oneEach.sublist (List.filter_sublist.map _), by simp, ?_⟩
    rintro x hx y hy rfl
    simp only [List.map_cons, List.map_nil, List.mem_singleton] at hy
    obtain ⟨a, ha, hstep⟩ := List.mem_map.mp hx
    obtain ⟨ha, hne⟩ := Table.mem_erase.mp ha
    have hab : a = b := List.inj_on_of_nodup_map hi.oneEach ha hbid.1 (hstep.trans hy)
    exact hne (hab ▸ hbid.2)

lemma abort_synced {i j : InstanceRow} (h : Aborted i j i.currentFrontier) (hi : Synced i)
    (hfront : j.currentFrontier = []) : Synced j := by
  have hnone : j.bindings.rows = [] := by
    refine List.eq_nil_iff_forall_not_mem.mpr fun b hb => ?_
    obtain ⟨hb, hout⟩ := (h.bindings b).mp hb
    exact hout ((hi.same _).mpr (List.mem_map_of_mem hb))
  exact ⟨by simp [hfront], by simp [hfront, hnone], by simp [InstanceRow.liveStepIds, hnone]⟩

/-! ### Runs -/

/-- **One call keeps the two sets exactly when it is apart.** -/
theorem apart_iff {i j : InstanceRow} {c : Commit} (h : commits i c j) (hrun : Running i)
    (hi : Synced i) : Apart i c ↔ Synced j := by
  obtain ⟨env, db, call, reply, after⟩ := c
  cases call with
  | project input =>
    obtain ⟨r, -, h⟩ := run_project h
    rcases project_graph hrun.graph h with ⟨step, b, hst, habs, rfl, -, -⟩ |
      ⟨step, b, plan, plans, hadv, -⟩
    · refine ⟨fun _ => hi, ?_⟩
      rintro - target ⟨b', step', hst', hfresh, -⟩
      obtain ⟨rfl, rfl⟩ := hst.unique hst'
      rw [habs] at hfresh
      cases hfresh
    · exact advance_synced hadv hrun hi
  | resume input =>
    obtain ⟨r, -, h⟩ := run_resume h
    rcases resume_eq_ok h with ⟨o, hrep, rfl, -⟩ | ⟨o, hre, -⟩ | ⟨hocc, hstatus, -⟩
    · exact ⟨fun _ => hi, fun _ o' ho' => (replay_not_chosen hrep ho').elim⟩
    · exact redrive_synced hre hi
    · exact (hrun.not_stuck hocc hstatus).elim
  | route input =>
    obtain ⟨r, -, h⟩ := run_route h
    exact ⟨fun _ => reroute_synced (route_eq_ok h).1 hi, fun _ => trivial⟩
  | abort input =>
    obtain ⟨r, -, h⟩ := run_abort h
    obtain ⟨hab, -, hfront⟩ := abort_eq_ok h
    exact ⟨fun _ => abort_synced hab hi hfront, fun _ => trivial⟩

lemma created_bound {i j : InstanceRow} {c : Commit} (h : commits i c j) (hrun : Running i)
    (hi : Synced i) : ∀ x ∈ created c.reply, x.2 ∈ j.bindings.rows.map (·.packetId) := by
  obtain ⟨env, db, call, reply, after⟩ := c
  cases call with
  | project input =>
    obtain ⟨r, rfl, h⟩ := run_project h
    rcases project_graph hrun.graph h with ⟨_, _, _, _, _, _, rfl⟩ |
      ⟨step, b, plan, plans, hadv, hr⟩
    · intro x hx
      simp [created, absorbedResult] at hx
    · intro x hx
      have hx : x ∈ r.nextStepIds.zip r.nextQitemIds := hx
      have hmem := (List.of_mem_zip (a := x.1) (b := x.2) hx).2
      rw [hr.packets] at hmem
      rw [advance_packets hadv]
      exact List.mem_append_right _ hmem
  | resume input =>
    obtain ⟨r, rfl, h⟩ := run_resume h
    rcases resume_eq_ok h with ⟨o, hrep, rfl, -⟩ | ⟨o, hre, hr⟩ | ⟨hocc, hstatus, -⟩
    · intro x hx
      simp [created, hrep.absorbed] at hx
    · intro x hx
      simp only [created, hr.written, Bool.false_eq_true, if_false, List.mem_singleton] at hx
      rw [hx, hre.bindings, hr.newPacketId]
      simp [redriveBinding]
    · exact (hrun.not_stuck hocc hstatus).elim
  | route input =>
    obtain ⟨r, rfl, h⟩ := run_route h
    obtain ⟨hroute, hnew, -⟩ := route_eq_ok h
    intro x hx
    simp only [created, List.mem_singleton] at hx
    obtain ⟨b, hb, hid⟩ := List.mem_map.mp ((hi.same _).mp hroute.onFrontier)
    have hget : i.getFrontierBinding r.closedPacketId = some b := Table.get?_eq_some.mpr ⟨hb, hid⟩
    have hbind := hroute.bindings
    rw [hget] at hbind
    simp only at hbind
    rw [hx, hnew, hbind.1]
    simp
  | abort input =>
    obtain ⟨r, rfl, h⟩ := run_abort h
    intro x hx
    simp [created] at hx

/-- **The frontier and the bindings of a dependency graph are one set, exactly while the calls
are apart**: a run all of whose commits leave the two equal, without duplicates, with one packet
for a step and every created packet on the frontier, is a run all of whose calls are apart. -/
theorem frontier_is_bindings {i j : InstanceRow} {cs : List Commit} (hborn : Born i)
    (hg : i.spec.isDependencyGraph = true) :
    Path (fun s c t => commits s c t ∧ Synced t ∧ CreatedLive c t) i cs j ↔
      Path (fun s c t => commits s c t ∧ Apart s c) i cs j := by
  have hiff : Path (fun s c t => commits s c t ∧ Synced t) i cs j ↔
      Path (fun s c t => commits s c t ∧ Apart s c) i cs j :=
    Path.guarded_iff (I := Synced) (J := Running) (C := Apart) (fun s c t h hs => hs.step h)
      (fun s c t h hs hsync => apart_iff h hs hsync) (.of_born hborn hg) (.of_born hborn hg)
  constructor
  · exact fun h => hiff.mp (h.mono fun s c t h => ⟨h.1, h.2.1⟩)
  · intro h
    have hrun : Path (fun s c t => commits s c t ∧ Synced t) i cs j := hiff.mpr h
    have hboth := hrun.with_invariant (I := fun s => Running s ∧ Synced s)
      (fun s c t h hs => ⟨hs.1.step h.1, h.2⟩) ⟨.of_born hborn hg, .of_born hborn hg⟩
    refine hboth.mono ?_
    rintro s c t ⟨⟨hstep, hsync⟩, ⟨hs, hss⟩, -⟩
    exact ⟨hstep, hsync, fun x hx => (hsync.same _).mpr (created_bound hstep hs hss x hx)⟩

/-- A step that may wait by way of another. -/
def waitingJump : WorkflowSpec :=
  plainSpec [{ plainStep "a" [] with nextHop := some { on := some { waiting := some "b" } } },
    plainStep "b" ["a"]] (some 4)

/-- A mapped wait of an accepted graph binds a packet and leaves it off the frontier. -/
theorem waiting_jump_is_unprojectable :
    ∃ i cs j, Born i ∧ Path commits i cs j ∧ i.spec.isDependencyGraph = true ∧
      (∀ c ∈ cs, ∃ input, c.call = .project input) ∧
      ∃ b ∈ j.bindings.rows, b.packetId ∉ j.currentFrontier := by
  obtain ⟨i, j, cs, hborn, hpath, hcalls, hp⟩ := exists_playFrom (plainWorkflowEnv 1 0)
    (plainInput waitingJump)
    [(plainWorkflowEnv 2 1, plainClose (plainPacket 1 0 0) .waiting)] (fun _ _ => true)
    (fun i j => i.spec.isDependencyGraph &&
      j.bindings.rows.any fun b => !j.currentFrontier.contains b.packetId) rfl (by decide)
  simp only [Bool.and_eq_true, List.any_eq_true, Bool.not_eq_true', List.contains_eq_mem,
    decide_eq_false_iff_not] at hp
  refine ⟨i, cs, j, hborn, hpath.mono fun _ _ _ h => h.1, hp.1, fun c hc => ?_, hp.2⟩
  have hmem : (c.env, c.call) ∈ cs.map fun c => (c.env, c.call) := List.mem_map_of_mem hc
  rw [hcalls, List.mem_singleton] at hmem
  exact ⟨_, (Prod.mk.inj hmem).2⟩

def apartCheck (i : InstanceRow) : Call → Bool
  | .project input =>
    (i.getFrontierBinding input.currentPacketId).all fun b =>
      (i.spec.step? b.stepId).all fun step =>
        (mappedTarget step input.exit).all fun target => input.exit ≠ .waiting &&
          i.bindings.rows.all fun b' => b'.packetId = input.currentPacketId || b'.stepId ≠ target
  | .resume _ => false
  | .route _ | .abort _ => true

lemma apart_of_check {i : InstanceRow} {c : Commit} (h : apartCheck i c.call = true) :
    Apart i c := by
  unfold Apart
  cases hcall : c.call with
  | project input =>
    rw [hcall] at h
    rintro target ⟨b, step, hst, -, hmap, -⟩
    simp only [apartCheck, hst.bound, hst.isStep, hmap, Option.all_some, Bool.and_eq_true,
      decide_eq_true_eq, List.all_eq_true, Bool.or_eq_true] at h
    exact ⟨h.1, fun b' hb' hne => (h.2 b' hb').resolve_left hne⟩
  | resume input =>
    rw [hcall] at h
    cases h
  | route input => trivial
  | abort input => trivial

/-- Two steps behind a third; the failure of one sends that third round again. -/
def sentBack : WorkflowSpec :=
  plainSpec [plainStep "a" [], plainStep "b" ["a"],
    { plainStep "c" ["a"] with nextHop := some { on := some { failed := some "a" } } }] (some 4)

/-- A mapped exit of a graph keeps the two sets equal where its target has no packet. -/
theorem frontier_is_bindings_sentBack :
    ∃ i cs j, j.liveStepIds = ["b", "a"] ∧
      Path (fun s c t => commits s c t ∧ Synced t ∧ CreatedLive c t) i cs j := by
  obtain ⟨i, j, cs, hborn, hpath, -, hp⟩ := exists_playFrom (plainWorkflowEnv 1 0)
    (plainInput sentBack)
    [(plainWorkflowEnv 2 10, plainClose (plainPacket 1 0 0) .done),
      (plainWorkflowEnv 3 20, plainClose (plainPacket 2 10 2) .failed)] apartCheck
    (fun i j => i.spec = sentBack && j.liveStepIds = ["b", "a"]) rfl (by decide)
  simp only [Bool.and_eq_true, decide_eq_true_eq] at hp
  refine ⟨i, cs, j, hp.2, (frontier_is_bindings hborn (by rw [hp.1]; decide)).mpr ?_⟩
  exact hpath.mono fun _ _ _ h => ⟨h.1, apart_of_check h.2⟩

end OpenRig.FrontierBindings
