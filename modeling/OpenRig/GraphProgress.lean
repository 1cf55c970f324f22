import OpenRig.GraphBoard

/-!
A dependency graph without mapped exits neither finishes early nor sticks.

Its instance keeps the scheduler's two facts in every state: the steps that started have their
prerequisites done, and every other step waits for an unfinished one. The accepted graph has one
root, its entry, so both hold of a new instance.
-/

namespace OpenRig.GraphProgress

open OpenRig.QueueDb OpenRig.WorkflowTypes OpenRig.WorkflowStore OpenRig.WorkflowRouting
open OpenRig.WorkflowProjector OpenRig.WorkflowRuntime OpenRig.WorkflowValidator
open OpenRig.Instantiation OpenRig.GraphCalls OpenRig.FrontierBindings OpenRig.GraphBoard
open OpenRig.Scheduling OpenRig.Digraph OpenRig.Runs

/-- The call projects an exit or redrives a failure. -/
def Moves (c : Commit) : Prop :=
  (∃ input, c.call = .project input) ∨ ∃ input, c.call = .resume input

/-- No exit of the spec is mapped. -/
def Unmapped (spec : WorkflowSpec) : Prop := ∀ s ∈ spec.steps, ∀ e, s.branchTarget e = none

/-- **What every state of an unmapped graph's run has.** -/
structure Progressing (i : InstanceRow) : Prop where
  running : Running i
  synced : Synced i
  unmapped : Unmapped i.spec
  sound : (board i).Sound (needs i.spec)
  covered : (board i).Covered (tasks i.spec) (needs i.spec)
  failedOnce : i.unresolvedStepIds.Nodup
  idle : i.currentFrontier = [] → (i.status = .failed ∧ i.unresolvedStepIds ≠ []) ∨
    (i.status = .completed ∧ i.unresolvedStepIds = [])
  finished : i.status = .completed → i.currentFrontier = [] ∧ i.unresolvedStepIds = []

/-! ### The start -/

lemma needs_of_route {spec : WorkflowSpec} (hv : Validated spec)
    (hg : spec.isDependencyGraph = true) (hu : Unmapped spec) {x y : String}
    (h : Edge (successorIds spec) x y) : needs spec y x := by
  unfold Edge successorIds at h
  cases hs : stepById spec x with
  | none => simp [hs] at h
  | some step =>
    rw [hs] at h
    have h : y ∈ successorsOf spec step := by simpa using h
    obtain ⟨hmem, hid⟩ := stepById_mem hs
    rcases mem_successorsOf h with ⟨-, s, hsm, hdep, rfl⟩ | ⟨hng, -⟩ | ⟨hbranch, -⟩
    · exact (needs_iff hv.nodup hsm).mpr (hid ▸ hdep)
    · rw [hg] at hng
      cases hng
    · exfalso
      unfold WorkflowStepSpec.branchTargets at hbranch
      cases hon : step.nextHop.bind NextHop.on with
      | none => simp [hon] at hbranch
      | some on =>
        rw [hon] at hbranch
        obtain ⟨⟨e, t⟩, hentry, -⟩ := List.mem_map.mp hbranch
        obtain ⟨e', -, he'⟩ := List.mem_filterMap.mp hentry
        obtain ⟨t', ht', -⟩ := Option.map_eq_some_iff.mp he'
        have := hu step hmem e'
        unfold WorkflowStepSpec.branchTarget at this
        rw [hon, Option.bind_some, ht'] at this
        cases this

lemma waits_of_reached {spec : WorkflowSpec} (hv : Validated spec)
    (hg : spec.isDependencyGraph = true) (hu : Unmapped spec) {x y : String}
    (h : Relation.ReflTransGen (Edge (successorIds spec)) x y) :
    Relation.ReflTransGen (needs spec) y x := by
  induction h with
  | refl => exact .refl
  | tail _ hstep ih => exact .head (needs_of_route hv hg hu hstep) ih

/-- **The entry is the only root**: it has no prerequisite, and every other step has one. -/
lemma entry_root {spec : WorkflowSpec} (hv : Validated spec) (hg : spec.isDependencyGraph = true)
    (hu : Unmapped spec) {entry : WorkflowStepSpec} (he : spec.steps.head? = some entry) :
    (∀ d, ¬ needs spec entry.id d) ∧ ∀ s ∈ tasks spec, s ≠ entry.id → ∃ d, needs spec s d := by
  have hmem : entry ∈ spec.steps := List.mem_of_mem_head? he
  constructor
  · intro d hd
    have hds : d ∈ tasks spec := needs_closed hv _ (List.mem_map_of_mem hmem) d hd
    obtain ⟨s, hs, rfl⟩ := List.mem_map.mp hds
    obtain ⟨l, hl, -, hall⟩ := hv.acyclic hg
    have hcycle : Relation.TransGen (needs spec) entry.id entry.id :=
      Relation.TransGen.head'_iff.mpr
        ⟨s.id, hd, waits_of_reached hv hg hu (hv.reached entry he s hs)⟩
    exact hl.irrefl (hall _ (List.mem_map_of_mem hmem)) hcycle
  · intro s hs hne
    obtain ⟨step, hstep, rfl⟩ := List.mem_map.mp hs
    rcases Relation.ReflTransGen.cases_head
      (waits_of_reached hv hg hu (hv.reached entry he step hstep))
      with heq | ⟨d, hd, -⟩
    · exact absurd heq hne
    · exact ⟨d, hd⟩

lemma board_new {i : InstanceRow} {entry : WorkflowStepSpec} {packetId : String}
    (h : New i entry packetId) (hg : i.spec.isDependencyGraph = true) :
    board i = ⟨∅, {entry.id}, ∅⟩ := by
  have hsteps : i.liveStepIds = [entry.id] := by
    have hrows := congrArg (List.map fun x => x.2.1) h.bindings
    rw [if_pos hg, List.map_map] at hrows
    exact hrows
  have hnone : i.unresolvedStepIds = [] := by
    simp [InstanceRow.unresolvedStepIds, InstanceRow.listFailureOccurrences, h.occurrences]
  unfold board
  rw [hsteps, hnone, h.trail]
  congr 1
  · ext s
    simp [isCompleted, latestCompletion]
  · ext s
    simp
  · ext s
    simp

lemma Progressing.of_born {i : InstanceRow} (h : Born i) (hg : i.spec.isDependencyGraph = true)
    (hu : Unmapped i.spec) : Progressing i := by
  obtain ⟨entry, packetId, hnew⟩ := h.new
  obtain ⟨hroot, hothers⟩ := entry_root hnew.validated hg hu hnew.isEntry
  have hboard := board_new hnew hg
  have hnone : i.unresolvedStepIds = [] := by
    simp [InstanceRow.unresolvedStepIds, InstanceRow.listFailureOccurrences, hnew.occurrences]
  refine ⟨.of_born h hg, .of_born h hg, hu, ?_, ?_, by simp [hnone], ?_, ?_⟩
  · rw [hboard]
    refine ⟨fun x hx => absurd hx (Set.notMem_empty x), fun x _ hf => hf, ?_⟩
    rintro x ((hd | rfl) | hf) y hy
    · exact absurd hd (Set.notMem_empty x)
    · exact absurd hy (hroot y)
    · exact absurd hf (Set.notMem_empty x)
  · rw [hboard]
    intro s hs
    by_cases hse : s = entry.id
    · exact .inl (.inl (.inr hse))
    · obtain ⟨d, hd⟩ := hothers s hs hse
      exact .inr ⟨d, hd, Set.notMem_empty d⟩
  · intro hempty
    rw [hnew.frontier] at hempty
    cases hempty
  · intro hc
    have hlive := hnew.isLive
    rw [hc] at hlive
    cases hlive

/-! ### One call -/

lemma Unmapped.mappedTarget {spec : WorkflowSpec} (h : Unmapped spec) {s : WorkflowStepSpec}
    (hs : s ∈ spec.steps) (e : WorkflowExitKind) : mappedTarget s e = none := by
  unfold WorkflowProjector.mappedTarget
  rw [h s hs e]
  rfl

lemma Progressing.apart {i : InstanceRow} (hi : Progressing i) (c : Commit) : Apart i c := by
  unfold Apart
  split
  · rintro target ⟨b, step, hst, -, hmap, -⟩
    rw [hi.unmapped.mappedTarget (WorkflowSpec.step?_mem hst.isStep)] at hmap
    cases hmap
  · intro o ho hlive
    have hfailed : o.stepId ∈ (board i).failed :=
      List.mem_map_of_mem (List.mem_filter.mpr ⟨ho.mem, by simp [ho.unresolved]⟩)
    exact hi.sound.liveApart _ hlive hfailed
  · trivial
  · trivial

lemma advance_status {env : WorkflowEnv} {i j : InstanceRow} {input : ProjectStepInput}
    {step : WorkflowStepSpec} {b : WorkflowFrontierBinding} {plan : GraphPlan}
    {plans : List OwnerPlan} (h : Advance env i input step b plan plans j) :
    (j.currentFrontier ≠ [] ∧ j.status.isLive = true) ∨
    (j.currentFrontier = [] ∧ j.status = .failed ∧ j.unresolvedStepIds ≠ []) ∨
    (j.currentFrontier = [] ∧ j.status = .completed ∧ j.unresolvedStepIds = []) := by
  obtain ⟨db, hrow⟩ := h.row
  have hocc : j.listFailureOccurrences (some .unresolved) =
      (recorded i j).listFailureOccurrences (some .unresolved) := rfl
  have hstatus : j.status = graphStatus db (recorded i j) j.currentFrontier := by
    rw [hrow]
    rfl
  unfold graphStatus at hstatus
  split at hstatus
  · rename_i hne
    refine .inl ⟨by simpa using hne, ?_⟩
    rw [hstatus]
    split <;> rfl
  · rename_i hempty
    have hempty : j.currentFrontier = [] := by simpa using hempty
    split at hstatus
    · rename_i hunres
      refine .inr (.inl ⟨hempty, hstatus, ?_⟩)
      rw [← hocc] at hunres
      simpa [InstanceRow.unresolvedStepIds] using hunres
    · rename_i hnone
      refine .inr (.inr ⟨hempty, hstatus, ?_⟩)
      rw [← hocc] at hnone
      simpa [InstanceRow.unresolvedStepIds] using hnone

lemma redrive_unresolved {env : WorkflowEnv} {i j : InstanceRow} {input : ResumeInput}
    {o : WorkflowFailureOccurrence} (h : Redrive env i input o j) :
    j.listFailureOccurrences (some .unresolved) =
      (i.listFailureOccurrences (some .unresolved)).filter
        fun a => a.occurrenceId ≠ o.occurrenceId := by
  unfold InstanceRow.listFailureOccurrences
  simp only
  rw [h.occurrences]
  induction i.occurrences.rows with
  | nil => rfl
  | cons a rows ih =>
    by_cases hid : a.occurrenceId = o.occurrenceId
    · simp only [List.map_cons, hid, if_true, List.filter_cons, ih]
      by_cases hs : a.status = .unresolved <;> simp [hs, hid]
    · simp only [List.map_cons, hid, if_false, List.filter_cons, ih]
      by_cases hs : a.status = .unresolved <;> simp [hs, hid]

lemma redrive_spec {env : WorkflowEnv} {i j : InstanceRow} {input : ResumeInput}
    {o : WorkflowFailureOccurrence} (h : Redrive env i input o j) : j.spec = i.spec := by
  rw [h.row]
  rfl

/-- **A redrive is a retry.** -/
theorem redrive_board {env : WorkflowEnv} {i j : InstanceRow} {input : ResumeInput}
    {o : WorkflowFailureOccurrence} (h : Redrive env i input o j)
    (honce : i.unresolvedStepIds.Nodup) : board j = (board i).retry o.stepId := by
  have htrail : j.trail = i.trail := by rw [h.row]; rfl
  have hd : (board j).done = (board i).done := by
    simp only [board, htrail, redrive_spec h]
  have hl : (board j).live = insert o.stepId (board i).live := by
    ext s
    change s ∈ j.bindings.rows.map (·.stepId) ↔ _
    rw [h.bindings, List.map_append, List.mem_append, or_comm]
    simp only [List.map_cons, List.map_nil, List.mem_singleton]
    rfl
  have hf : (board j).failed = (board i).failed \ {o.stepId} := by
    have hmem : o ∈ i.listFailureOccurrences (some .unresolved) :=
      List.mem_filter.mpr ⟨h.chosen.mem, by simp [h.chosen.unresolved]⟩
    ext s
    change s ∈ (j.listFailureOccurrences (some .unresolved)).map (·.stepId) ↔ _
    rw [redrive_unresolved h]
    constructor
    · intro hs
      obtain ⟨a, ha, rfl⟩ := List.mem_map.mp hs
      obtain ⟨ha, hne⟩ := List.mem_filter.mp ha
      refine ⟨List.mem_map_of_mem ha, fun heq => ?_⟩
      have hao : a = o := List.inj_on_of_nodup_map honce ha hmem heq
      simp [hao] at hne
    · rintro ⟨hs, hne⟩
      obtain ⟨a, ha, rfl⟩ := List.mem_map.mp hs
      refine List.mem_map_of_mem (List.mem_filter.mpr ⟨ha, ?_⟩)
      have : a.occurrenceId ≠ o.occurrenceId := by
        intro hid
        have hao : a = o := row_unique h.chosen.mem (List.mem_filter.mp ha).1 hid
        exact hne (by rw [hao]; rfl)
      simpa using this
  rw [show board j = ⟨(board j).done, (board j).live, (board j).failed⟩ from rfl, hd, hl, hf]
  rfl

/-- The steps a call starts, beside redrives. -/
def launched (c : Commit) : List String :=
  match c.reply with
  | .projected r => r.nextStepIds
  | _ => []

/-- The run so far launched exactly the started steps, each once. -/
structure Accounted (i : InstanceRow) (steps : List String) : Prop where
  progressing : Progressing i
  nodup : steps.Nodup
  started : ∀ s, s ∈ steps ↔ s ∈ (board i).started

lemma advance_unresolved_same {env : WorkflowEnv} {i j : InstanceRow} {input : ProjectStepInput}
    {step : WorkflowStepSpec} {b : WorkflowFrontierBinding} {plan : GraphPlan}
    {plans : List OwnerPlan} (h : Advance env i input step b plan plans j)
    (hexit : plan.effectiveExit ≠ .failed) : j.unresolvedStepIds = i.unresolvedStepIds := by
  rw [advance_unresolved h]
  obtain ⟨next, hplan⟩ := planGraph_eq_ok h.planned
  rcases hplan.decided with ⟨-, -, hfailed, -⟩ | ⟨-, hsame, -, hocc⟩
  · exact absurd hfailed hexit
  · rw [hsame] at hexit
    rw [hocc, if_neg (by simp [hexit]), List.append_nil]

lemma advance_next_nodup {env : WorkflowEnv} {i j : InstanceRow} {input : ProjectStepInput}
    {step : WorkflowStepSpec} {b : WorkflowFrontierBinding} {plan : GraphPlan}
    {plans : List OwnerPlan} (h : Advance env i input step b plan plans j)
    (hv : Validated i.spec) : (plan.next.map (·.id)).Nodup := by
  obtain ⟨next, hplan⟩ := planGraph_eq_ok h.planned
  rcases hplan.decided with ⟨-, -, -, hnil, -⟩ | ⟨-, -, hnext, -⟩
  · simp [hnil]
  · rcases nextSteps_eq_ok hplan.routed with ⟨_, _, _, _, rfl⟩ | ⟨-, -, hready⟩ | ⟨-, -, rfl⟩
    · simp [hnext]
    · rw [hnext, hready]
      exact filter_ids_nodup hv _
    · simp [hnext]

lemma Accounted.advance {env : WorkflowEnv} {i j : InstanceRow} {input : ProjectStepInput}
    {step : WorkflowStepSpec} {b : WorkflowFrontierBinding} {plan : GraphPlan}
    {plans : List OwnerPlan} {steps : List String} (hi : Accounted i steps)
    (h : Advance env i input step b plan plans j) (hrun : Running j) (hsync : Synced j) :
    Accounted j (steps ++ plan.next.map (·.id)) := by
  have hp := hi.progressing
  have hspec := advance_spec h
  have hmap := hp.unmapped.mappedTarget (WorkflowSpec.step?_mem h.stands.isStep) input.exit
  have hx := stands_live h.stands
  have hstatus := advance_status h
  have hidle : j.currentFrontier = [] → (j.status = .failed ∧ j.unresolvedStepIds ≠ []) ∨
      (j.status = .completed ∧ j.unresolvedStepIds = []) := by
    intro hempty
    rcases hstatus with ⟨hne, -⟩ | ⟨-, h⟩ | ⟨-, h⟩
    · exact absurd hempty hne
    · exact .inl h
    · exact .inr h
  have hfin : j.status = .completed → j.currentFrontier = [] ∧ j.unresolvedStepIds = [] := by
    intro hcomp
    rcases hstatus with ⟨-, hl⟩ | ⟨-, hf, -⟩ | ⟨he, -, hu⟩
    · rw [hcomp] at hl
      cases hl
    · rw [hcomp] at hf
      cases hf
    · exact ⟨he, hu⟩
  rcases advance_board h hp.running.validated hp.synced hp.sound hmap with
    ⟨hw, hnil, hb⟩ | ⟨hcomp, hnext, hb⟩ | ⟨hw, hnil, hb⟩
  · have honce := advance_unresolved_same h (by rw [hw]; simp)
    refine ⟨⟨hrun, hsync, hspec ▸ hp.unmapped, ?_, ?_, honce ▸ hp.failedOnce, hidle, hfin⟩, ?_, ?_⟩
    · rw [hb, hspec]
      exact hp.sound
    · rw [hb, hspec]
      exact hp.covered
    · simpa [hnil] using hi.nodup
    · intro s
      rw [hb, hnil, List.map_nil, List.append_nil]
      exact hi.started s
  · have honce := advance_unresolved_same h (by
      intro hw
      rw [hw] at hcomp
      cases hcomp)
    refine ⟨⟨hrun, hsync, hspec ▸ hp.unmapped, ?_, ?_, honce ▸ hp.failedOnce, hidle, hfin⟩, ?_, ?_⟩
    · rw [hb, hspec]
      exact hp.sound.finish hx
    · rw [hb, hspec]
      exact hp.covered.finish
    · refine List.Nodup.append hi.nodup (advance_next_nodup h hp.running.validated) ?_
      intro s hs hs'
      obtain ⟨a, ha, rfl⟩ := List.mem_map.mp hs'
      exact Board.readied_fresh (hnext a ha) ((hi.started _).mp hs)
    · intro s
      rw [hb, Board.started_finish hx, List.mem_append, hi.started s]
      refine or_congr Iff.rfl ⟨fun hs => ?_, fun hs => ?_⟩
      · obtain ⟨a, ha, rfl⟩ := List.mem_map.mp hs
        exact hnext a ha
      · -- what a finish makes ready is live after it, and it was not before
        have hlive : s ∈ (board j).live := by
          rw [hb]
          exact .inr hs
        have hfresh : s ∉ i.liveStepIds := fun hl => Board.readied_fresh hs (.inl (.inr hl))
        have hsteps : s ∈ j.liveStepIds := hlive
        rw [advance_steps h] at hsteps
        refine (List.mem_append.mp hsteps).resolve_left fun hold => ?_
        split at hold
        · exact hfresh hold
        · exact hfresh ((mem_left_iff h.stands hp.synced).mp hold).1
  · have honce : j.unresolvedStepIds.Nodup := by
      rw [advance_unresolved h]
      split
      · refine List.Nodup.append hp.failedOnce (by simp) ?_
        intro s hs hs'
        rw [List.mem_singleton.mp hs'] at hs
        exact hp.sound.liveApart _ hx hs
      · simpa using hp.failedOnce
    refine ⟨⟨hrun, hsync, hspec ▸ hp.unmapped, ?_, ?_, honce, hidle, hfin⟩, ?_, ?_⟩
    · rw [hb, hspec]
      exact hp.sound.fail hx
    · rw [hb, hspec]
      exact hp.covered.fail
    · simpa [hnil] using hi.nodup
    · intro s
      rw [hb, Board.started_fail hx, hnil, List.map_nil, List.append_nil]
      exact hi.started s

lemma Accounted.redrive {env : WorkflowEnv} {i j : InstanceRow} {input : ResumeInput}
    {o : WorkflowFailureOccurrence} {steps : List String} (hi : Accounted i steps)
    (h : Redrive env i input o j) (hrun : Running j) (hsync : Synced j) : Accounted j steps := by
  have hp := hi.progressing
  have hb := redrive_board h hp.failedOnce
  have hspec := redrive_spec h
  have hx : o.stepId ∈ (board i).failed :=
    List.mem_map_of_mem (List.mem_filter.mpr ⟨h.chosen.mem, by simp [h.chosen.unresolved]⟩)
  have hstatus : j.status = .active := by rw [h.row]; rfl
  have hfront : j.currentFrontier ≠ [] := by
    rw [h.row]
    simp [redriveRow, InstanceRow.updateFrontier]
  refine ⟨⟨hrun, hsync, hspec ▸ hp.unmapped, ?_, ?_, ?_, fun he => absurd he hfront, ?_⟩,
    hi.nodup, ?_⟩
  · rw [hb, hspec]
    exact hp.sound.retry hx
  · rw [hb, hspec]
    exact hp.covered.retry
  · unfold InstanceRow.unresolvedStepIds
    rw [redrive_unresolved h]
    exact hp.failedOnce.sublist (List.filter_sublist.map _)
  · intro hcomp
    rw [hstatus] at hcomp
    cases hcomp
  · intro s
    rw [hb, Board.started_retry hx]
    exact hi.started s

/-- **One call keeps the board and the account.** -/
theorem Accounted.step {i j : InstanceRow} {c : Commit} {steps : List String}
    (hi : Accounted i steps) (h : commits i c j) (hc : Moves c) :
    Accounted j (steps ++ launched c) := by
  have hp := hi.progressing
  have hrun : Running j := hp.running.step h
  have hsync : Synced j := (apart_iff h hp.running hp.synced).mp (hp.apart c)
  obtain ⟨env, db, call, reply, after⟩ := c
  rcases hc with ⟨input, rfl⟩ | ⟨input, rfl⟩
  · obtain ⟨r, rfl, h⟩ := run_project h
    rcases project_graph hp.running.graph h with ⟨_, _, _, _, rfl, _, rfl⟩ |
      ⟨step, b, plan, plans, hadv, hr⟩
    · simpa [launched, absorbedResult] using hi
    · have hnew : r.nextStepIds = plan.next.map (·.id) := by
        rw [hr.steps, ← hadv.steps, List.map_map]
        rfl
      rw [show launched ⟨env, db, .project input, .projected r, after⟩ = r.nextStepIds from rfl,
        hnew]
      exact hi.advance hadv hrun hsync
  · obtain ⟨r, rfl, h⟩ := run_resume h
    rw [show launched ⟨env, db, .resume input, .resumed r, after⟩ = [] from rfl, List.append_nil]
    rcases resume_eq_ok h with ⟨o, -, rfl, -⟩ | ⟨o, hre, -⟩ | ⟨hocc, hstatus, -⟩
    · exact hi
    · exact hi.redrive hre hrun hsync
    · exact (hp.running.not_stuck hocc hstatus).elim

/-! ### Runs -/

lemma Accounted.of_born {i : InstanceRow} {entry : WorkflowStepSpec} (h : Born i)
    (hg : i.spec.isDependencyGraph = true) (hu : Unmapped i.spec)
    (he : i.spec.steps.head? = some entry) : Accounted i [entry.id] := by
  obtain ⟨entry', packetId, hnew⟩ := h.new
  obtain rfl : entry' = entry := Option.some.inj (hnew.isEntry.symm.trans he)
  refine ⟨.of_born h hg hu, by simp, fun s => ?_⟩
  rw [board_new hnew hg]
  simp [Board.started]

/-- The steps of the packets a call created. -/
def createdSteps (c : Commit) : List String := (created c.reply).map Prod.fst

/-- A call redrove a failure of the step. -/
def Redrove (c : Commit) (stepId : String) : Prop :=
  ∃ r, c.reply = .resumed r ∧ r.absorbedReplay = false ∧ r.stepId = stepId

lemma count_created {i j : InstanceRow} {c : Commit} (h : commits i c j) (hc : Moves c)
    (hg : i.spec.isDependencyGraph = true) {stepId : String} (hn : ¬ Redrove c stepId) :
    (createdSteps c).count stepId = (launched c).count stepId := by
  obtain ⟨env, db, call, reply, after⟩ := c
  rcases hc with ⟨input, rfl⟩ | ⟨input, rfl⟩
  · obtain ⟨r, rfl, h⟩ := run_project h
    have hlen : r.nextStepIds.length ≤ r.nextQitemIds.length := by
      rcases project_graph hg h with ⟨_, _, _, _, _, _, rfl⟩ | ⟨_, _, _, plans, _, hr⟩
      · simp [absorbedResult]
      · rw [hr.steps, hr.packets, List.length_map, List.length_map]
    simp only [createdSteps, created, launched]
    rw [List.map_fst_zip hlen]
  · obtain ⟨r, rfl, h⟩ := run_resume h
    simp only [createdSteps, created, launched]
    split
    · rfl
    · rename_i hw
      have hne : r.stepId ≠ stepId := fun he => hn ⟨r, rfl, by simpa using hw, he⟩
      simp [hne]

lemma accounted_of_path {i j : InstanceRow} {cs : List Commit} {steps : List String}
    (h : Path commits i cs j) (hc : ∀ c ∈ cs, Moves c) (hi : Accounted i steps) :
    Accounted j (steps ++ cs.flatMap launched) := by
  induction h generalizing steps with
  | nil s => simpa using hi
  | @cons s t u c cs hstep _ ih =>
    have ht := hi.step hstep (hc c List.mem_cons_self)
    have hu := ih (fun c hmem => hc c (List.mem_cons_of_mem _ hmem)) ht
    rwa [List.append_assoc] at hu

lemma count_of_path {i j : InstanceRow} {cs : List Commit} {stepId : String}
    (h : Path commits i cs j) (hc : ∀ c ∈ cs, Moves c) (hi : Running i)
    (hn : ∀ c ∈ cs, ¬ Redrove c stepId) :
    (cs.flatMap createdSteps).count stepId = (cs.flatMap launched).count stepId := by
  induction h with
  | nil s => rfl
  | @cons s t u c cs hstep _ ih =>
    rw [List.flatMap_cons, List.flatMap_cons, List.count_append, List.count_append,
      count_created hstep (hc c List.mem_cons_self) hi.graph (hn c List.mem_cons_self),
      ih (fun c hmem => hc c (List.mem_cons_of_mem _ hmem)) (hi.step hstep)
        (fun c hmem => hn c (List.mem_cons_of_mem _ hmem))]

lemma Progressing.all_closed {i : InstanceRow} (hi : Progressing i) (hc : i.status = .completed) :
    ∀ s ∈ i.spec.steps, ∃ e ∈ i.trail, e.stepId = s.id ∧ e.closureReason.completes = true := by
  intro s hs
  obtain ⟨hfront, hnone⟩ := hi.finished hc
  have hlive : (board i).live = ∅ := by
    refine Set.eq_empty_iff_forall_notMem.mpr fun x hx => ?_
    obtain ⟨b, hb, -⟩ := List.mem_map.mp hx
    have := (hi.synced.same b.packetId).mpr (List.mem_map_of_mem hb)
    rw [hfront] at this
    cases this
  have hfailed : (board i).failed = ∅ := by
    refine Set.eq_empty_iff_forall_notMem.mpr fun x hx => ?_
    have hx : x ∈ i.unresolvedStepIds := hx
    rw [hnone] at hx
    cases hx
  have hall := hi.covered.all_done (needs_closed hi.running.validated)
    (needs_acc hi.running.validated hi.running.graph) hlive hfailed
  have hdone := hall (List.mem_map_of_mem hs : s.id ∈ tasks i.spec)
  exact exists_completion ((isCompleted_iff hi.running.validated.nodup).mp hdone).1

/-- **An accepted dependency graph without mapped exits neither finishes early nor sticks**: a
completed instance has closed every step as done or handed off, an idle one that is not completed
is failed with an unresolved failure, and no step gets two packets unless a failure of it was
redriven. -/
theorem graph_finishes {i j : InstanceRow} {cs : List Commit} {entry : WorkflowStepSpec}
    (hborn : Born i) (hg : i.spec.isDependencyGraph = true) (hu : Unmapped i.spec)
    (he : i.spec.steps.head? = some entry) (hpath : Path commits i cs j)
    (hcs : ∀ c ∈ cs, Moves c) :
    (j.status = .completed →
      ∀ s ∈ i.spec.steps, ∃ e ∈ j.trail, e.stepId = s.id ∧ e.closureReason.completes = true) ∧
    (j.currentFrontier = [] → j.status ≠ .completed →
      j.status = .failed ∧ ∃ o ∈ j.occurrences.rows, o.status = .unresolved) ∧
    ∀ stepId, 1 < (entry.id :: cs.flatMap createdSteps).count stepId →
      ∃ c ∈ cs, Redrove c stepId := by
  have hj := accounted_of_path hpath hcs (.of_born hborn hg hu he)
  have hspec : j.spec = i.spec := (Running.of_born hborn hg).path_spec hpath
  refine ⟨fun hc => hspec ▸ hj.progressing.all_closed hc, fun hempty hne => ?_,
    fun stepId hcount => ?_⟩
  · obtain ⟨hfailed, hsome⟩ := (hj.progressing.idle hempty).resolve_right fun h => hne h.1
    obtain ⟨s, hs⟩ := List.exists_mem_of_ne_nil _ hsome
    obtain ⟨o, ho, -⟩ := List.mem_map.mp hs
    exact ⟨hfailed, o, (List.mem_filter.mp ho).1, by simpa using (List.mem_filter.mp ho).2⟩
  · by_contra hnone
    push Not at hnone
    have hsame := count_of_path hpath hcs (.of_born hborn hg) hnone
    have hle := List.nodup_iff_count_le_one.mp hj.nodup stepId
    rw [List.cons_append, List.nil_append] at hle
    rw [List.count_cons, hsame, ← List.count_cons] at hcount
    omega

/-- A diamond runs to its end. -/
theorem graph_finishes_diamond :
    ∃ i cs j, Born i ∧ Path commits i cs j ∧ j.status = .completed ∧
      ∀ s ∈ i.spec.steps, ∃ e ∈ j.trail, e.stepId = s.id ∧ e.closureReason.completes = true := by
  let spec := plainSpec [plainStep "a" [], plainStep "b" ["a"], plainStep "c" ["a"],
    plainStep "d" ["b", "c"]] none
  obtain ⟨i, j, cs, hborn, hpath, hcalls, hp⟩ := exists_playFrom (plainWorkflowEnv 1 0)
    (plainInput spec)
    [(plainWorkflowEnv 2 10, plainClose (plainPacket 1 0 0) .done),
      (plainWorkflowEnv 3 20, plainClose (plainPacket 2 10 1) .done),
      (plainWorkflowEnv 4 30, plainClose (plainPacket 2 10 2) .handoff),
      (plainWorkflowEnv 5 40, plainClose (plainPacket 4 30 1) .done)]
    (fun _ _ => true) (fun i j => decide (i.spec = spec) && decide (j.status = .completed)) rfl
    (by decide)
  have hpath : Path commits i cs j := hpath.mono fun _ _ _ h => h.1
  simp only [Bool.and_eq_true, decide_eq_true_eq] at hp
  have hmoves : ∀ c ∈ cs, Moves c := by
    intro c hc
    have hmem : (c.env, c.call) ∈ cs.map fun c => (c.env, c.call) := List.mem_map_of_mem hc
    rw [hcalls] at hmem
    simp only [List.mem_cons, Prod.mk.injEq, List.not_mem_nil, or_false] at hmem
    rcases hmem with ⟨-, h⟩ | ⟨-, h⟩ | ⟨-, h⟩ | ⟨-, h⟩ <;> exact .inl ⟨_, h⟩
  have hg : i.spec.isDependencyGraph = true := by rw [hp.1]; decide
  have hu : Unmapped i.spec := by
    rw [hp.1]
    intro s hs e
    simp only [spec, plainSpec, List.mem_cons, List.not_mem_nil, or_false] at hs
    rcases hs with rfl | rfl | rfl | rfl <;> rfl
  have he : i.spec.steps.head? = some (plainStep "a" []) := by rw [hp.1]; rfl
  exact ⟨i, cs, j, hborn, hpath, hp.2, (graph_finishes hborn hg hu he hpath hmoves).1 hp.2⟩

end OpenRig.GraphProgress
