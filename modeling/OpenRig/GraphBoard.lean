import OpenRig.FrontierBindings
import OpenRig.Scheduling

/-!
The dependency-graph executor refines the scheduler of tasks behind prerequisites.

A step is done when its latest completion is newer than those of its prerequisites, live while a
packet is bound to it, failed while an occurrence of it is unresolved. Where no exit is mapped, a
close is a finish, a failure or nothing, and a redrive is a retry.
-/

namespace OpenRig.GraphBoard

open OpenRig.QueueDb OpenRig.WorkflowTypes OpenRig.WorkflowStore OpenRig.WorkflowRouting
open OpenRig.WorkflowProjector OpenRig.WorkflowRuntime OpenRig.WorkflowValidator
open OpenRig.Instantiation OpenRig.GraphCalls OpenRig.FrontierBindings OpenRig.Scheduling
open OpenRig.Digraph

/-! ### Completion ranks -/

lemma latestCompletion_append (trail : List WorkflowStepTrailEntry) (e : WorkflowStepTrailEntry)
    (stepId : String) :
    latestCompletion (trail ++ [e]) stepId =
      if e.closureReason.completes = true ∧ e.stepId = stepId then trail.length + 1
      else latestCompletion trail stepId := by
  unfold latestCompletion
  rw [List.zipIdx_append, List.foldl_append]
  simp

lemma latestCompletion_le (trail : List WorkflowStepTrailEntry) (stepId : String) :
    latestCompletion trail stepId ≤ trail.length := by
  induction trail using List.reverseRecOn with
  | nil => simp [latestCompletion]
  | append_singleton trail e ih =>
    rw [latestCompletion_append, List.length_append, List.length_singleton]
    split <;> omega

lemma exists_completion {trail : List WorkflowStepTrailEntry} {stepId : String}
    (h : 0 < latestCompletion trail stepId) :
    ∃ e ∈ trail, e.stepId = stepId ∧ e.closureReason.completes = true := by
  induction trail using List.reverseRecOn with
  | nil => simp [latestCompletion] at h
  | append_singleton trail e ih =>
    rw [latestCompletion_append] at h
    split at h
    · rename_i hc
      exact ⟨e, by simp, hc.2, hc.1⟩
    · obtain ⟨a, ha, hstep, hc⟩ := ih h
      exact ⟨a, List.mem_append_left _ ha, hstep, hc⟩

/-! ### The board of an instance -/

def tasks (spec : WorkflowSpec) : Set String := {s | s ∈ stepIds spec}

/-- `y` is a prerequisite of `x`. -/
def needs (spec : WorkflowSpec) : String → String → Prop := Edge (prerequisiteIds spec)

/-- Where the steps of an instance stand. -/
def board (i : InstanceRow) : Board String where
  done := {s | isCompleted i.spec (latestCompletion i.trail) s = true}
  live := {s | s ∈ i.liveStepIds}
  failed := {s | s ∈ i.unresolvedStepIds}

lemma stepById_eq {spec : WorkflowSpec} (hv : (stepIds spec).Nodup) (id : String) :
    stepById spec id = spec.step? id := by
  cases h : spec.step? id with
  | none =>
    cases h' : stepById spec id with
    | none => rfl
    | some s =>
      have hs := stepById_mem h'
      have : (spec.step? id).isSome := WorkflowSpec.step?_isSome.mpr ⟨s, hs⟩
      rw [h] at this
      cases this
  | some s =>
    have hs : s ∈ spec.steps ∧ s.id = id := ⟨WorkflowSpec.step?_mem h, WorkflowSpec.step?_id h⟩
    cases h' : stepById spec id with
    | none =>
      have hnone := List.find?_eq_none.mp h' s (List.mem_reverse.mpr hs.1)
      simp [hs.2] at hnone
    | some s' =>
      have hs' := stepById_mem h'
      exact congrArg some (List.inj_on_of_nodup_map hv hs'.1 hs.1 (hs'.2.trans hs.2.symm))

lemma step?_of_mem {spec : WorkflowSpec} (hv : (stepIds spec).Nodup) {s : WorkflowStepSpec}
    (hs : s ∈ spec.steps) : spec.step? s.id = some s := by
  obtain ⟨s', hs'⟩ := Option.isSome_iff_exists.mp (WorkflowSpec.step?_isSome.mpr ⟨s, hs, rfl⟩)
  have : s' = s := List.inj_on_of_nodup_map hv (WorkflowSpec.step?_mem hs') hs
    (WorkflowSpec.step?_id hs')
  rw [hs', this]

lemma prerequisiteIds_eq {spec : WorkflowSpec} (hv : (stepIds spec).Nodup) (id : String) :
    prerequisiteIds spec id = ((spec.step? id).map WorkflowStepSpec.prerequisites).getD [] := by
  unfold prerequisiteIds
  rw [stepById_eq hv]

lemma needs_iff {spec : WorkflowSpec} (hv : (stepIds spec).Nodup) {s : WorkflowStepSpec}
    (hs : s ∈ spec.steps) {d : String} : needs spec s.id d ↔ d ∈ s.prerequisites := by
  unfold needs Edge
  rw [prerequisiteIds_eq hv, step?_of_mem hv hs]
  rfl

lemma isCompleted_iff {spec : WorkflowSpec} (hv : (stepIds spec).Nodup) {rank : String → ℕ}
    {s : String} : isCompleted spec rank s = true ↔
      0 < rank s ∧ ∀ d, needs spec s d → rank d < rank s := by
  unfold isCompleted needs Edge
  rw [prerequisiteIds_eq hv]
  simp

lemma needs_closed {spec : WorkflowSpec} (hv : Validated spec) :
    ∀ x ∈ tasks spec, ∀ y, needs spec x y → y ∈ tasks spec := by
  intro x hx y hy
  obtain ⟨s, hs, rfl⟩ := List.mem_map.mp hx
  exact (hv.prerequisites s hs y ((needs_iff hv.nodup hs).mp hy)).2

lemma needs_acc {spec : WorkflowSpec} (hv : Validated spec) (hg : spec.isDependencyGraph = true) :
    ∀ x ∈ tasks spec, Acc (fun y x => needs spec x y) x := by
  intro x hx
  obtain ⟨l, hl, -, hall⟩ := hv.acyclic hg
  exact hl.acc (hall x hx)

/-! ### What a close does to the board -/

section Advances

variable {env : WorkflowEnv} {i j : InstanceRow} {input : ProjectStepInput}
  {step : WorkflowStepSpec} {b : WorkflowFrontierBinding} {plan : GraphPlan}
  {plans : List OwnerPlan}

lemma advance_trail (h : Advance env i input step b plan plans j) :
    ∃ e, j.trail = i.trail ++ [e] ∧ e.stepId = step.id ∧ e.closureReason = plan.effectiveExit := by
  obtain ⟨db, hrow⟩ := h.row
  rw [hrow]
  exact ⟨_, rfl, rfl, rfl⟩

lemma advance_spec (h : Advance env i input step b plan plans j) : j.spec = i.spec := by
  obtain ⟨db, hrow⟩ := h.row
  rw [hrow]
  rfl

lemma advance_unresolved (h : Advance env i input step b plan plans j) :
    j.unresolvedStepIds = i.unresolvedStepIds ++
      if plan.isFailureOccurrence then [step.id] else [] := by
  unfold InstanceRow.unresolvedStepIds InstanceRow.listFailureOccurrences
  simp only
  rw [h.occurrences, List.filter_append, List.map_append]
  congr 1
  split <;> simp [failureOccurrence]

lemma mem_left_iff (h : Stands i input.currentPacketId b step) (hi : Synced i) {s : String} :
    s ∈ (i.bindings.rows.filter fun a => a.packetId ≠ input.currentPacketId).map (·.stepId) ↔
      s ∈ i.liveStepIds ∧ s ≠ step.id := by
  obtain ⟨hb, hbid, hbstep⟩ := h.mem
  constructor
  · intro hs
    obtain ⟨a, ha, rfl⟩ := List.mem_map.mp hs
    rw [List.mem_filter] at ha
    refine ⟨List.mem_map_of_mem ha.1, fun heq => ?_⟩
    have hab : a = b := List.inj_on_of_nodup_map hi.oneEach ha.1 hb (heq.trans hbstep.symm)
    have hne : a.packetId ≠ input.currentPacketId := by simpa using ha.2
    exact hne (hab ▸ hbid)
  · rintro ⟨hs, hne⟩
    obtain ⟨a, ha, rfl⟩ := List.mem_map.mp hs
    refine List.mem_map_of_mem (List.mem_filter.mpr ⟨ha, ?_⟩)
    have hpid : a.packetId ≠ input.currentPacketId := by
      intro hpid
      have hab : i.getFrontierBinding input.currentPacketId = some a :=
        Table.get?_eq_some.mpr ⟨ha, hpid⟩
      have : b = a := Option.some.inj (h.bound.symm.trans hab)
      exact hne (this ▸ hbstep)
    simpa using hpid

lemma stands_live (h : Stands i input.currentPacketId b step) : step.id ∈ (board i).live := by
  obtain ⟨hb, -, hstep⟩ := h.mem
  exact hstep ▸ List.mem_map_of_mem hb

lemma completed_finish (hv : Validated i.spec) (hs : (board i).Sound (needs i.spec)) {x s : String}
    (hx : x ∈ (board i).live) {rank : String → ℕ}
    (hrank : ∀ y, rank y = if y = x then i.trail.length + 1 else latestCompletion i.trail y) :
    isCompleted i.spec rank s = true ↔ s ∈ insert x (board i).done := by
  have hle := latestCompletion_le i.trail
  rw [isCompleted_iff hv.nodup]
  constructor
  · rintro ⟨hpos, hdeps⟩
    by_cases hsx : s = x
    · exact .inl hsx
    · refine .inr ((isCompleted_iff hv.nodup).mpr ?_)
      rw [hrank s, if_neg hsx] at hpos hdeps
      refine ⟨hpos, fun d hd => ?_⟩
      have hlt := hdeps d hd
      rw [hrank d] at hlt
      split at hlt
      · have := hle s
        omega
      · exact hlt
  · rintro (rfl | hdone)
    · refine ⟨by rw [hrank]; simp, fun d hd => ?_⟩
      have hne : d ≠ s := fun he => hs.not_self hx (he ▸ hd)
      rw [hrank d, hrank s, if_neg hne, if_pos rfl]
      have := hle d
      omega
    · have hsx : s ≠ x := fun he => (hs.doneApart s hdone).1 (he ▸ hx)
      obtain ⟨hpos, hdeps⟩ := (isCompleted_iff hv.nodup).mp hdone
      rw [hrank s, if_neg hsx]
      refine ⟨hpos, fun d hd => ?_⟩
      have hd' := hs.ready s (.inl (.inl hdone)) d hd
      have hne : d ≠ x := fun he => (hs.doneApart d hd').1 (he ▸ hx)
      rw [hrank d, if_neg hne]
      exact hdeps d hd

lemma isReady_iff (hv : Validated i.spec) (hs : (board i).Sound (needs i.spec))
    (hx : step.id ∈ (board i).live) {exit : WorkflowExitKind} (hexit : exit.completes = true)
    {s : WorkflowStepSpec} (hmem : s ∈ i.spec.steps) :
    isReady i (completionRank i step.id exit) step.id s = true ↔
      s.id ∈ (board i).readied (tasks i.spec) (needs i.spec) step.id := by
  have hrank : ∀ y, completionRank i step.id exit y =
      if y = step.id then i.trail.length + 1 else latestCompletion i.trail y := by
    intro y
    simp [completionRank, hexit]
  have hdone : ∀ y, isCompleted i.spec (completionRank i step.id exit) y = true ↔
      y ∈ insert step.id (board i).done := fun y => completed_finish hv hs hx hrank
  have hdone' : ∀ y, isCompleted i.boundSpec (completionRank i step.id exit) y =
      isCompleted i.spec (completionRank i step.id exit) y := by
    intro y
    simp [isCompleted]
  unfold isReady
  simp only [Bool.and_eq_true, Bool.not_eq_true', List.isEmpty_eq_false_iff, List.contains_eq_mem,
    decide_eq_true_eq, decide_eq_false_iff_not, List.all_eq_true, hdone', hdone]
  rw [← Bool.not_eq_true, hdone]
  constructor
  · rintro ⟨⟨⟨⟨⟨-, hcur⟩, hall⟩, hopen⟩, hlive⟩, hfailed⟩
    refine ⟨List.mem_map_of_mem hmem, (needs_iff hv.nodup hmem).mpr hcur, fun z hz =>
      hall z ((needs_iff hv.nodup hmem).mp hz), fun he => hopen (.inl he), ?_⟩
    rintro ((hd | hl) | hf)
    · exact hopen (.inr hd)
    · exact hlive hl
    · exact hfailed hf
  · rintro ⟨-, hcur, hall, hne, hstart⟩
    have hcur' := (needs_iff hv.nodup hmem).mp hcur
    refine ⟨⟨⟨⟨⟨List.ne_nil_of_mem hcur', hcur'⟩, fun z hz =>
      hall z ((needs_iff hv.nodup hmem).mpr hz)⟩, ?_⟩, fun hl => hstart (.inl (.inr hl))⟩,
      fun hf => hstart (.inr hf)⟩
    rintro (he | hd)
    · exact hne he
    · exact hstart (.inl (.inl hd))

/-- **A close without a mapped exit is one move of the scheduler**: a park leaves the board as it
was, a completion is a finish, anything else a failure. -/
theorem advance_board (h : Advance env i input step b plan plans j) (hv : Validated i.spec)
    (hi : Synced i) (hs : (board i).Sound (needs i.spec))
    (hmap : mappedTarget step input.exit = none) :
    (plan.effectiveExit = .waiting ∧ plan.next = [] ∧ board j = board i) ∨
    (plan.effectiveExit.completes = true ∧
      (∀ s ∈ plan.next, s.id ∈ (board i).readied (tasks i.spec) (needs i.spec) step.id) ∧
      board j = (board i).finish (tasks i.spec) (needs i.spec) step.id) ∨
    (plan.effectiveExit = .failed ∧ plan.next = [] ∧ board j = (board i).fail step.id) := by
  obtain ⟨next, hplan⟩ := planGraph_eq_ok h.planned
  obtain ⟨e, htrail, hestep, hereason⟩ := advance_trail h
  have hspec := advance_spec h
  have hlive := advance_steps h
  have hfailed := advance_unresolved h
  have hrank : ∀ y, latestCompletion j.trail y =
      if plan.effectiveExit.completes = true ∧ step.id = y then i.trail.length + 1
      else latestCompletion i.trail y := by
    intro y
    rw [htrail, latestCompletion_append, hereason, hestep]
  have hsame : plan.effectiveExit.completes = false → (board j).done = (board i).done := by
    intro hc
    have : latestCompletion j.trail = latestCompletion i.trail := by
      funext y
      rw [hrank y, if_neg (by simp [hc])]
    simp only [board, this, hspec]
  have hfail : plan.effectiveExit = .failed → plan.next = [] → plan.isFailureOccurrence = true →
      board j = (board i).fail step.id := by
    intro hw hnil hocc
    have hdone := hsame (by rw [hw]; rfl)
    rw [hnil, if_neg (by rw [hw]; simp), List.map_nil, List.append_nil] at hlive
    rw [if_pos hocc] at hfailed
    have hl : (board j).live = (board i).live \ {step.id} := by
      ext s
      change s ∈ j.liveStepIds ↔ _
      rw [hlive, mem_left_iff h.stands hi]
      rfl
    have hf : (board j).failed = insert step.id (board i).failed := by
      ext s
      change s ∈ j.unresolvedStepIds ↔ _
      rw [hfailed, List.mem_append, List.mem_singleton, or_comm]
      rfl
    rw [show board j = ⟨(board j).done, (board j).live, (board j).failed⟩ from rfl, hdone, hl, hf]
    rfl
  rcases hplan.decided with ⟨-, -, hexit, hnil, hocc⟩ | ⟨-, hexit, hnext, hocc⟩
  · exact .inr (.inr ⟨hexit, hnil, hfail hexit hnil hocc⟩)
  · rcases nextSteps_eq_ok hplan.routed with ⟨target, s, hmap', -⟩ | ⟨-, hc, hready⟩ | ⟨-, hc, hnil⟩
    · rw [hmap] at hmap'
      cases hmap'
    · refine .inr (.inl ⟨by rw [hexit]; exact hc, ?_, ?_⟩)
      · intro s hsn
        rw [hnext, hready, List.mem_filter] at hsn
        exact (isReady_iff hv hs (stands_live h.stands) hc hsn.1).mp hsn.2
      · have hw : plan.effectiveExit ≠ .waiting := by
          rw [hexit]
          intro hw
          rw [hw] at hc
          cases hc
        have hne : input.exit ≠ .failed := by
          intro hw
          rw [hw] at hc
          cases hc
        rw [if_neg hw] at hlive
        rw [hocc, if_neg (by simp [hne]), List.append_nil] at hfailed
        have hd : (board j).done = insert step.id (board i).done := by
          ext s
          change isCompleted j.spec (latestCompletion j.trail) s = true ↔ _
          rw [hspec]
          refine completed_finish hv hs (stands_live h.stands) fun y => ?_
          rw [hrank y, hexit]
          simp [hc, eq_comm]
        have hl : (board j).live = ((board i).live \ {step.id}) ∪
            (board i).readied (tasks i.spec) (needs i.spec) step.id := by
          ext s
          change s ∈ j.liveStepIds ↔ _
          rw [hlive, List.mem_append, mem_left_iff h.stands hi]
          refine or_congr Iff.rfl ?_
          rw [hnext, hready]
          constructor
          · intro hsn
            obtain ⟨a, ha, rfl⟩ := List.mem_map.mp hsn
            rw [List.mem_filter] at ha
            exact (isReady_iff hv hs (stands_live h.stands) hc ha.1).mp ha.2
          · intro hsn
            obtain ⟨a, ha, rfl⟩ := List.mem_map.mp hsn.1
            exact List.mem_map_of_mem (List.mem_filter.mpr
              ⟨ha, (isReady_iff hv hs (stands_live h.stands) hc ha).mpr hsn⟩)
        have hf : (board j).failed = (board i).failed := by
          simp only [board, hfailed]
        rw [show board j = ⟨(board j).done, (board j).live, (board j).failed⟩ from rfl, hd, hl, hf]
        rfl
    · cases hx : input.exit with
      | handoff => rw [hx] at hc; cases hc
      | done => rw [hx] at hc; cases hc
      | waiting =>
        have hw : plan.effectiveExit = .waiting := by rw [hexit, hx]
        refine .inl ⟨hw, by rw [hnext, hnil], ?_⟩
        rw [hnext, hnil, if_pos hw, List.map_nil, List.append_nil] at hlive
        rw [hocc, if_neg (by simp [hx]), List.append_nil] at hfailed
        have hdone := hsame (by rw [hw]; rfl)
        rw [show board j = ⟨(board j).done, (board j).live, (board j).failed⟩ from rfl, hdone]
        simp only [board, hlive, hfailed]
      | failed =>
        have hw : plan.effectiveExit = .failed := by rw [hexit, hx]
        refine .inr (.inr ⟨hw, by rw [hnext, hnil], hfail hw (by rw [hnext, hnil]) ?_⟩)
        rw [hocc, hx]
        rw [hx] at hmap
        simp [hmap]

end Advances

end OpenRig.GraphBoard
