import OpenRig.GraphProgress
import OpenRig.Reruns

/-!
What a dependency graph starts after a step is done again.

The executor reads the ranks of a step's direct prerequisites, and who is live or failed at the
step itself. So a step that was sent round again reaches the steps that depend on it one at a time,
and a join further down may start on a result that its own inputs have overtaken. The close that
starts a step starts it on fresh inputs exactly when nothing else above the step is open, and no
other prerequisite of it rests on the closed step.
-/

namespace OpenRig.StaleInputs

open OpenRig.QueueDb OpenRig.WorkflowTypes OpenRig.WorkflowStore OpenRig.WorkflowRouting
open OpenRig.WorkflowProjector OpenRig.WorkflowRuntime OpenRig.WorkflowValidator
open OpenRig.Instantiation OpenRig.GraphCalls OpenRig.FrontierBindings OpenRig.GraphBoard
open OpenRig.GraphProgress OpenRig.Reruns OpenRig.Digraph OpenRig.Runs Relation

/-! ### The ledger of an instance -/

/-- The latest completions, and the steps that are live or have an unresolved failure. -/
def ledger (i : InstanceRow) : Ledger String where
  rank := latestCompletion i.trail
  active := {s | s ∈ i.liveStepIds ∨ s ∈ i.unresolvedStepIds}

lemma step_of_needs {spec : WorkflowSpec} (hv : Validated spec) {x y : String}
    (h : needs spec x y) : ∃ s ∈ spec.steps, s.id = x := by
  unfold needs Edge at h
  rw [prerequisiteIds_eq hv.nodup] at h
  cases hs : spec.step? x with
  | none => simp [hs] at h
  | some s => exact ⟨s, WorkflowSpec.step?_mem hs, WorkflowSpec.step?_id hs⟩

lemma needs_wf {spec : WorkflowSpec} (hv : Validated spec) (hg : spec.isDependencyGraph = true) :
    WellFounded fun a b => needs spec b a := by
  refine ⟨fun x => ⟨x, fun y hy => ?_⟩⟩
  obtain ⟨s, hs, rfl⟩ := step_of_needs hv hy
  exact (needs_acc hv hg s.id (List.mem_map_of_mem hs)).inv hy

lemma isCompleted_counts {spec : WorkflowSpec} (hv : Validated spec) {rank : String → ℕ}
    {s : String} : isCompleted spec rank s = true ↔ Counts (needs spec) rank s :=
  isCompleted_iff hv.nodup

/-! ### The conditions -/

/-- The exit the call takes: the step of its packet, where the call is no absorbed replay and the
hop guard lets it through. -/
structure Takes (i : InstanceRow) (input : ProjectStepInput) (step : WorkflowStepSpec) : Prop where
  stands : ∃ b, Stands i input.currentPacketId b step ∧
    exceedsMaxHops b.hopCount b.hopsBaseline i.spec.maxHops = false
  fresh : absorbs i input step.id = false

/-- A mapped exit enters a step whose prerequisites have all completed once, or one no step depends
on; and where the exit is no wait, whatever it leaves outdated at or below its own step, among the
steps others depend on, is at or below the entered one. -/
def Reenters (i : InstanceRow) (c : Commit) : Prop :=
  match c.call with
  | .project input => ∀ step target, Takes i input step →
      mappedTarget step input.exit = some target →
      Returns (needs i.spec) (completionRank i step.id input.exit) (input.exit ≠ .waiting)
        step.id target
  | _ => True

/-- A completion that starts a step is its own step's last packet and failure, nothing else above
the started step is live or failed, and no other prerequisite of that step rests on the completed
one. -/
def Clears (i : InstanceRow) (c : Commit) : Prop :=
  match c.call with
  | .project input => ∀ step, Takes i input step → mappedTarget step input.exit = none →
      input.exit.completes = true → ∀ s ∈ i.spec.steps,
      isReady i (completionRank i step.id input.exit) step.id s = true →
      Free i input.currentPacketId step.id ∧ step.id ∉ i.unresolvedStepIds ∧
        Clear (needs i.spec) (ledger i).active step.id s.id
  | _ => True

/-- **What the source promises of a re-run**: the packets a completion creates by readiness rest on
nothing stale. -/
def LaunchesFresh (i : InstanceRow) (c : Commit) (j : InstanceRow) : Prop :=
  match c.call with
  | .project input => ∀ b step, Stands i input.currentPacketId b step →
      mappedTarget step input.exit = none →
      ∀ x ∈ created c.reply, Fresh (needs j.spec) (ledger j) x.1
  | _ => True

/-! ### A close as a move of the ledger -/

section Advances

variable {env : WorkflowEnv} {i j : InstanceRow} {input : ProjectStepInput}
  {step : WorkflowStepSpec} {b : WorkflowFrontierBinding} {plan : GraphPlan}
  {plans : List OwnerPlan}

/-- The steps with a packet other than the call's. -/
def others (i : InstanceRow) (input : ProjectStepInput) : Set String :=
  {s | ∃ a ∈ i.bindings.rows, a.packetId ≠ input.currentPacketId ∧ a.stepId = s}

lemma mem_others_iff {s : String} : s ∈ others i input ↔ ¬ Free i input.currentPacketId s := by
  unfold others Free
  push Not
  rfl

lemma live_iff (h : Stands i input.currentPacketId b step) (s : String) :
    s ∈ i.liveStepIds ↔ s = step.id ∨ s ∈ others i input := by
  obtain ⟨hb, hbid, hbstep⟩ := h.mem
  constructor
  · intro hs
    obtain ⟨a, ha, rfl⟩ := List.mem_map.mp hs
    by_cases hp : a.packetId = input.currentPacketId
    · have hab : i.getFrontierBinding input.currentPacketId = some a :=
        Table.get?_eq_some.mpr ⟨ha, hp⟩
      have : b = a := Option.some.inj (h.bound.symm.trans hab)
      exact .inl (this ▸ hbstep)
    · exact .inr ⟨a, ha, hp, rfl⟩
  · rintro (rfl | ⟨a, ha, -, rfl⟩)
    · exact hbstep ▸ List.mem_map_of_mem hb
    · exact List.mem_map_of_mem ha

lemma active_iff (h : Stands i input.currentPacketId b step) (s : String) :
    s ∈ (ledger i).active ↔ s = step.id ∨ s ∈ others i input ∨ s ∈ i.unresolvedStepIds := by
  change (s ∈ i.liveStepIds ∨ s ∈ i.unresolvedStepIds) ↔ _
  rw [live_iff h, or_assoc]

/-- What a close leaves open: the other packets and failures, its own step where it parks or
fails, and what it starts. -/
lemma advance_active (h : Advance env i input step b plan plans j) (s : String) :
    s ∈ (ledger j).active ↔
      (s = step.id ∧ (plan.effectiveExit = .waiting ∨ plan.isFailureOccurrence = true)) ∨
      s ∈ others i input ∨ s ∈ i.unresolvedStepIds ∨ s ∈ plan.next.map (·.id) := by
  have hlive : s ∈ j.liveStepIds ↔ (s = step.id ∧ plan.effectiveExit = .waiting) ∨
      s ∈ others i input ∨ s ∈ plan.next.map (·.id) := by
    rw [advance_steps h, List.mem_append]
    by_cases hw : plan.effectiveExit = .waiting
    · rw [if_pos hw, live_iff h.stands]
      simp only [hw, and_true, or_assoc]
    · have hleft : s ∈ (i.bindings.rows.filter fun a => a.packetId ≠ input.currentPacketId).map
          (·.stepId) ↔ s ∈ others i input := by
        simp [List.mem_filter, and_assoc, others]
      rw [if_neg hw, hleft]
      simp only [hw, and_false, false_or]
  have hunres : s ∈ j.unresolvedStepIds ↔ s ∈ i.unresolvedStepIds ∨
      (s = step.id ∧ plan.isFailureOccurrence = true) := by
    rw [advance_unresolved h, List.mem_append]
    split
    · rename_i hf
      simp [hf]
    · rename_i hf
      simp [hf]
  change (s ∈ j.liveStepIds ∨ s ∈ j.unresolvedStepIds) ↔ _
  rw [hlive, hunres]
  tauto

/-! ### Its ranks -/

lemma newest_completionRank (i : InstanceRow) (stepId : String) {exit : WorkflowExitKind}
    (hc : exit.completes = true) :
    Newest (latestCompletion i.trail) (completionRank i stepId exit) stepId where
  top y hy := by
    have hle := latestCompletion_le i.trail y
    simp only [completionRank, hc, Bool.true_and, decide_eq_true_eq, if_neg hy, if_true]
    omega
  same y hy := by simp [completionRank, hy]

lemma completionRank_of_not {stepId : String} {exit : WorkflowExitKind}
    (hc : exit.completes = false) : completionRank i stepId exit = latestCompletion i.trail := by
  funext y
  simp [completionRank, hc]

lemma completionRank_self {stepId : String} {exit : WorkflowExitKind}
    (hc : exit.completes = true) : 0 < completionRank i stepId exit stepId := by
  simp [completionRank, hc]

lemma advance_rank (h : Advance env i input step b plan plans j) :
    (ledger j).rank = completionRank i step.id plan.effectiveExit := by
  obtain ⟨e, htrail, hstep, hreason⟩ := advance_trail h
  funext y
  change latestCompletion j.trail y = _
  rw [htrail, latestCompletion_append, hreason, hstep]
  unfold completionRank
  by_cases hy : step.id = y
  · simp [hy]
  · simp [hy, Ne.symm hy]

/-! ### Its move -/

lemma isReady_iff_ready (hv : Validated i.spec) {rank : String → ℕ} {x : String}
    {s : WorkflowStepSpec} (hs : s ∈ i.spec.steps) :
    isReady i rank x s = true ↔ Ready (needs i.spec) (ledger i) rank x s.id := by
  have hcompleted : ∀ y, isCompleted i.boundSpec rank y = true ↔ Counts (needs i.spec) rank y := by
    intro y
    have hsame : isCompleted i.boundSpec rank y = isCompleted i.spec rank y := by
      simp [isCompleted]
    rw [hsame]
    exact isCompleted_counts hv
  unfold isReady Ready
  simp only [Bool.and_eq_true, Bool.not_eq_true', List.isEmpty_eq_false_iff, List.contains_eq_mem,
    decide_eq_true_eq, decide_eq_false_iff_not, List.all_eq_true, hcompleted]
  rw [← Bool.not_eq_true, hcompleted]
  constructor
  · rintro ⟨⟨⟨⟨⟨-, hx⟩, hall⟩, hopen⟩, hlive⟩, hfailed⟩
    refine ⟨(needs_iff hv.nodup hs).mpr hx, fun d hd => hall d ((needs_iff hv.nodup hs).mp hd),
      hopen, ?_⟩
    rintro (hl | hf)
    · exact hlive hl
    · exact hfailed hf
  · rintro ⟨hx, hall, hopen, hidle⟩
    have hx' := (needs_iff hv.nodup hs).mp hx
    exact ⟨⟨⟨⟨⟨List.ne_nil_of_mem hx', hx'⟩, fun d hd =>
      hall d ((needs_iff hv.nodup hs).mpr hd)⟩, hopen⟩, fun hl => hidle (.inl hl)⟩,
      fun hf => hidle (.inr hf)⟩

lemma advance_still (h : Advance env i input step b plan plans j)
    (hc : plan.effectiveExit.completes = false) (hnext : plan.next = [])
    (hopen : plan.effectiveExit = .waiting ∨ plan.isFailureOccurrence = true) :
    ledger j = ledger i := by
  have hrank : (ledger j).rank = (ledger i).rank := by
    rw [advance_rank h, completionRank_of_not hc]
    rfl
  have hactive : (ledger j).active = (ledger i).active := by
    ext s
    rw [advance_active h, active_iff h.stands, hnext]
    simp [hopen]
  rw [show ledger j = ⟨(ledger j).rank, (ledger j).active⟩ from rfl, hrank, hactive]

/-- **A close is one move of the ledger**: it leaves it as it was, jumps, or finishes its step. -/
theorem advance_ledger (h : Advance env i input step b plan plans j) (hv : Validated i.spec) :
    (plan.next = [] ∧ ledger j = ledger i ∧
      (Takes i input step → mappedTarget step input.exit = none →
        input.exit.completes = false)) ∨
    (∃ target, Takes i input step ∧ mappedTarget step input.exit = some target ∧
      plan.effectiveExit = input.exit ∧
      Jump (needs i.spec) (ledger i) step.id target (ledger j) ∧
      (input.exit = .waiting → step.id ∈ (ledger j).active)) ∨
    (mappedTarget step input.exit = none ∧ input.exit.completes = true ∧
      plan.effectiveExit = input.exit ∧ (plan.next ≠ [] → Takes i input step) ∧
      plan.next = i.spec.steps.filter
        (isReady i (completionRank i step.id input.exit) step.id) ∧
      Finish (needs i.spec) (ledger i) step.id (ledger j) ∧
      (step.id ∈ (ledger j).active ↔
        ¬ Free i input.currentPacketId step.id ∨ step.id ∈ i.unresolvedStepIds)) := by
  obtain ⟨next, hplan⟩ := planGraph_eq_ok h.planned
  have hkept : ∀ y ∈ (ledger i).active, y ≠ step.id → y ∈ (ledger j).active := by
    intro y hy hne
    rw [active_iff h.stands] at hy
    rw [advance_active h]
    tauto
  have honly : ∀ y ∈ (ledger j).active, y ∈ (ledger i).active ∨ y ∈ plan.next.map (·.id) := by
    intro y hy
    rw [advance_active h] at hy
    rw [active_iff h.stands]
    tauto
  rcases hplan.decided with ⟨-, htrip, hexit, hnil, hocc⟩ | ⟨hpass, hexit, hnext, hocc⟩
  · -- the guard tripped
    refine .inl ⟨hnil, advance_still h (by rw [hexit]; rfl) hnil (.inr hocc), fun ht => ?_⟩
    obtain ⟨⟨b', hst, hguard⟩, -⟩ := ht
    obtain ⟨rfl, -⟩ := hst.unique h.stands
    rw [htrip] at hguard
    cases hguard
  · have htakes : next ≠ [] → Takes i input step := fun hne =>
      ⟨⟨b, h.stands, hpass.resolve_left hne⟩, h.fresh⟩
    rcases nextSteps_eq_ok hplan.routed with ⟨target, s, hmap, hs, hsingle⟩ | ⟨hmap, hc, hready⟩ |
      ⟨hmap, hc, hnil⟩
    · have hid : s.id = target := WorkflowSpec.step?_id hs
      have hone : plan.next.map (·.id) = [target] := by rw [hnext, hsingle, ← hid]; rfl
      refine .inr (.inl ⟨target, htakes (by simp [hsingle]), hmap, hexit, ?_, fun hw => ?_⟩)
      · refine ⟨?_, hkept, fun y hy => ?_, ?_⟩
        · rw [advance_rank h, hexit]
          cases hc : input.exit.completes with
          | true => exact .inl (newest_completionRank i step.id hc)
          | false => exact .inr (completionRank_of_not hc)
        · have := honly y hy
          rwa [hone, List.mem_singleton] at this
        · rw [advance_active h, hone]
          simp
      · rw [advance_active h]
        exact .inl ⟨rfl, .inl (hexit.trans hw)⟩
    · have hsteps : plan.next = i.spec.steps.filter
          (isReady i (completionRank i step.id input.exit) step.id) := hnext.trans hready
      have hmem : ∀ y, y ∈ plan.next.map (·.id) ↔
          Ready (needs i.spec) (ledger i) (completionRank i step.id input.exit) step.id y := by
        intro y
        rw [hsteps]
        constructor
        · intro hy
          obtain ⟨s, hs, rfl⟩ := List.mem_map.mp hy
          obtain ⟨hs, hr⟩ := List.mem_filter.mp hs
          exact (isReady_iff_ready hv hs).mp hr
        · intro hy
          obtain ⟨s, hs, rfl⟩ := step_of_needs hv hy.1
          exact List.mem_map_of_mem (List.mem_filter.mpr ⟨hs, (isReady_iff_ready hv hs).mpr hy⟩)
      have hw : ¬ (plan.effectiveExit = .waiting ∨ plan.isFailureOccurrence = true) := by
        rw [hexit, hocc]
        cases he : input.exit <;> simp [he, WorkflowExitKind.completes] at hc ⊢
      have hrank := advance_rank h
      rw [hexit] at hrank
      refine .inr (.inr ⟨hmap, hc, hexit, fun hne => htakes (hnext ▸ hne), hsteps, ?_, ?_⟩)
      · refine ⟨?_, fun y hy => ?_, hkept, fun y hy => ?_⟩
        · rw [hrank]
          exact newest_completionRank i step.id hc
        · rw [hrank] at hy
          rw [advance_active h]
          exact .inr (.inr (.inr ((hmem y).mpr hy)))
        · rw [hrank, ← hmem]
          exact honly y hy
      · -- the closed step itself is not started
        have hself : step.id ∉ plan.next.map (·.id) := by
          rw [hmem]
          intro hy
          have hlt := (hy.2.1 step.id hy.1).2 step.id hy.1
          omega
        rw [advance_active h, ← mem_others_iff]
        tauto
    · cases he : input.exit with
      | handoff => rw [he] at hc; cases hc
      | done => rw [he] at hc; cases hc
      | waiting =>
        exact .inl ⟨hnext.trans hnil, advance_still h (by rw [hexit, he]; rfl) (hnext.trans hnil)
          (.inl (hexit.trans he)), fun _ _ => rfl⟩
      | failed =>
        refine .inl ⟨hnext.trans hnil, advance_still h (by rw [hexit, he]; rfl)
          (hnext.trans hnil) (.inr ?_), fun _ _ => rfl⟩
        rw [hocc, he]
        rw [he] at hmap
        simp [hmap]

lemma created_steps {r : ProjectStepResult} (hr : Reports r plan plans)
    (h : plans.map (·.step) = plan.next) :
    (created (.projected r)).map Prod.fst = plan.next.map (·.id) := by
  have hsteps : r.nextStepIds = plan.next.map (·.id) := by
    rw [hr.steps, ← h, List.map_map]
    rfl
  unfold created
  rw [List.map_fst_zip, hsteps]
  rw [hr.steps, hr.packets, List.length_map, List.length_map]

lemma Takes.step_eq {step' : WorkflowStepSpec} (h : Takes i input step')
    (hs : Stands i input.currentPacketId b step) : step' = step := by
  obtain ⟨⟨b', hst, -⟩, -⟩ := h
  exact (hst.unique hs).2

end Advances

/-! ### One call -/

/-- What every state of a run that returns has. -/
structure Steady (i : InstanceRow) : Prop where
  running : Running i
  grounded : i.status ≠ .aborted → Grounded (needs i.spec) (ledger i)

lemma Steady.same {i j : InstanceRow} (hi : Steady i) (hj : Running j) (hspec : j.spec = i.spec)
    (hactive : i.status ≠ .aborted) (h : ledger j = ledger i) : Steady j :=
  ⟨hj, fun _ => by rw [hspec, h]; exact hi.grounded hactive⟩

lemma redrive_ledger {env : WorkflowEnv} {i j : InstanceRow} {input : ResumeInput}
    {o : WorkflowFailureOccurrence} (h : Redrive env i input o j) : ledger j = ledger i := by
  have htrail : j.trail = i.trail := by rw [h.row]; rfl
  have hmem : o ∈ i.listFailureOccurrences (some .unresolved) :=
    List.mem_filter.mpr ⟨h.chosen.mem, by simp [h.chosen.unresolved]⟩
  have hactive : (ledger j).active = (ledger i).active := by
    ext s
    change (s ∈ j.bindings.rows.map (·.stepId) ∨
      s ∈ (j.listFailureOccurrences (some .unresolved)).map (·.stepId)) ↔
      (s ∈ i.bindings.rows.map (·.stepId) ∨
        s ∈ (i.listFailureOccurrences (some .unresolved)).map (·.stepId))
    rw [h.bindings, redrive_unresolved h, List.map_append, List.mem_append]
    constructor
    · rintro ((hs | hs) | hs)
      · exact .inl hs
      · have hs : s = o.stepId := by simpa [redriveBinding] using hs
        exact .inr (hs ▸ List.mem_map_of_mem hmem)
      · obtain ⟨a, ha, rfl⟩ := List.mem_map.mp hs
        exact .inr (List.mem_map_of_mem (List.mem_filter.mp ha).1)
    · rintro (hs | hs)
      · exact .inl (.inl hs)
      · obtain ⟨a, ha, rfl⟩ := List.mem_map.mp hs
        by_cases hid : a.occurrenceId = o.occurrenceId
        · obtain rfl : a = o := row_unique h.chosen.mem (List.mem_filter.mp ha).1 hid
          exact .inl (.inr (by simp [redriveBinding]))
        · exact .inr (List.mem_map_of_mem (List.mem_filter.mpr ⟨ha, by simpa using hid⟩))
  rw [show ledger j = ⟨(ledger j).rank, (ledger j).active⟩ from rfl, hactive]
  unfold ledger
  rw [htrail]

lemma reroute_ledger {env : WorkflowEnv} {i j : InstanceRow} {old : String}
    (h : Reroute env i old j) : ledger j = ledger i := by
  have htrail : j.trail = i.trail := by rw [h.row]; rfl
  have hunres : j.unresolvedStepIds = i.unresolvedStepIds := by rw [h.row]; rfl
  have hlive : ∀ s, s ∈ j.liveStepIds ↔ s ∈ i.liveStepIds := by
    intro s
    have hbind := h.bindings
    cases hb : i.getFrontierBinding old with
    | none =>
      rw [hb] at hbind
      simp only at hbind
      unfold InstanceRow.liveStepIds
      rw [hbind]
    | some b =>
      rw [hb] at hbind
      simp only at hbind
      have hbid : b ∈ i.bindings.rows ∧ b.packetId = old := Table.get?_eq_some.mp hb
      unfold InstanceRow.liveStepIds
      rw [hbind.1, List.map_append, List.mem_append]
      constructor
      · rintro (hs | hs)
        · obtain ⟨a, ha, rfl⟩ := List.mem_map.mp hs
          exact List.mem_map_of_mem (Table.mem_erase.mp ha).1
        · have hs : s = b.stepId := by simpa using hs
          exact hs ▸ List.mem_map_of_mem hbid.1
      · intro hs
        obtain ⟨a, ha, rfl⟩ := List.mem_map.mp hs
        by_cases hp : a.packetId = old
        · have hab : b = a := Option.some.inj (hb.symm.trans (Table.get?_eq_some.mpr ⟨ha, hp⟩))
          exact .inr (by simp [hab])
        · exact .inl (List.mem_map_of_mem (Table.mem_erase.mpr ⟨ha, hp⟩))
  have hactive : (ledger j).active = (ledger i).active := by
    ext s
    change (s ∈ j.liveStepIds ∨ s ∈ j.unresolvedStepIds) ↔ _
    rw [hlive, hunres]
    rfl
  rw [show ledger j = ⟨(ledger j).rank, (ledger j).active⟩ from rfl, hactive]
  unfold ledger
  rw [htrail]

lemma not_aborted {s : InstanceStatus} (h : s.isLive = true) : s ≠ .aborted := by
  rintro rfl
  cases h

lemma advance_grounded {env : WorkflowEnv} {i j : InstanceRow} {input : ProjectStepInput}
    {step : WorkflowStepSpec} {b : WorkflowFrontierBinding} {plan : GraphPlan}
    {plans : List OwnerPlan} (h : Advance env i input step b plan plans j) (hi : Steady i)
    (hr : ∀ step target, Takes i input step → mappedTarget step input.exit = some target →
      Returns (needs i.spec) (completionRank i step.id input.exit) (input.exit ≠ .waiting)
        step.id target) : Grounded (needs i.spec) (ledger j) := by
  have hv := hi.running.validated
  have hg := hi.grounded (not_aborted h.isLive)
  have hx : step.id ∈ (ledger i).active := (active_iff h.stands _).mpr (.inl rfl)
  rcases advance_ledger h hv with ⟨-, hsame, -⟩ | ⟨target, ht, hmap, hexit, hjump, hwait⟩ |
    ⟨-, hc, hexit, -, -, hfin, -⟩
  · rw [hsame]
    exact hg
  · have hrank := advance_rank h
    rw [hexit] at hrank
    refine hjump.grounded hg hx (fun hpos => ?_) (fun hw => hwait (by simpa using hw))
      (hrank ▸ hr step target ht hmap)
    rw [hrank]
    cases hc : input.exit.completes with
    | true => exact completionRank_self hc
    | false =>
      rw [completionRank_of_not hc]
      exact hpos
  · refine hfin.grounded (needs_wf hv hi.running.graph) hg hx ?_
    rw [advance_rank h, hexit]
    exact completionRank_self hc

/-- **A call that returns keeps the ledger grounded.** -/
theorem Steady.step {i j : InstanceRow} {c : Commit} (hi : Steady i) (h : commits i c j)
    (hr : Reenters i c) : Steady j := by
  have hj := hi.running.step h
  have hspec := hi.running.same_spec h
  obtain ⟨env, db, call, reply, after⟩ := c
  cases call with
  | project input =>
    obtain ⟨r, -, h⟩ := run_project h
    rcases project_graph hi.running.graph h with
      ⟨_, _, _, _, rfl, _⟩ | ⟨step, b, plan, plans, hadv, _⟩
    · exact hi
    · exact ⟨hj, fun _ => hspec ▸ advance_grounded hadv hi hr⟩
  | resume input =>
    obtain ⟨r, -, h⟩ := run_resume h
    rcases resume_eq_ok h with ⟨o, -, rfl, -⟩ | ⟨o, hre, -⟩ | ⟨hocc, hstatus, -⟩
    · exact hi
    · exact hi.same hj hspec hre.resumable.2 (redrive_ledger hre)
    · exact (hi.running.not_stuck hocc hstatus).elim
  | route input =>
    obtain ⟨r, -, h⟩ := run_route h
    have hroute := (route_eq_ok h).1
    exact hi.same hj hspec (not_aborted hroute.isLive) (reroute_ledger hroute)
  | abort input =>
    obtain ⟨r, -, h⟩ := run_abort h
    exact ⟨hj, fun hn => absurd (abort_eq_ok h).2.1 hn⟩

/-- **What a call starts by readiness is fresh exactly where its surroundings are clear.** -/
theorem launches_iff {i j : InstanceRow} {c : Commit} (hi : Steady i) (h : commits i c j)
    (hr : Reenters i c) : Clears i c ↔ LaunchesFresh i c j := by
  have hspec := hi.running.same_spec h
  obtain ⟨env, db, call, reply, after⟩ := c
  cases call with
  | project input =>
    obtain ⟨r, hreply, h⟩ := run_project h
    have hv := hi.running.validated
    unfold Clears LaunchesFresh
    simp only at hreply ⊢
    subst hreply
    rcases project_graph hi.running.graph h with ⟨step, b, hst, habs, -, -, rfl⟩ |
      ⟨step, b, plan, plans, hadv, hrep⟩
    · -- a replay of a wait
      refine ⟨fun _ b' step' _ _ x hx => by simp [created, absorbedResult] at hx, fun _ => ?_⟩
      intro step' ht
      obtain rfl := ht.step_eq hst
      rw [ht.fresh] at habs
      cases habs
    · have hsteps := created_steps hrep hadv.steps
      rcases advance_ledger hadv hv with ⟨hnil, -, hno⟩ | ⟨target, -, hmap, -⟩ |
        ⟨hmap, hc, hexit, htakes, hnext, hfin, hclosed⟩
      · have hempty : created (.projected r) = [] := by
          rw [hnil] at hsteps
          exact List.map_eq_nil_iff.mp hsteps
        refine ⟨fun _ b' step' _ _ x hx => by simp [hempty] at hx, fun _ => ?_⟩
        intro step' ht hmap hc
        obtain rfl := ht.step_eq hadv.stands
        rw [hno ht hmap] at hc
        cases hc
      · constructor
        · intro _ b' step' hst hnone
          obtain ⟨-, rfl⟩ := hst.unique hadv.stands
          rw [hmap] at hnone
          cases hnone
        · intro _ step' ht hnone
          obtain rfl := ht.step_eq hadv.stands
          rw [hmap] at hnone
          cases hnone
      · have hg := advance_grounded hadv hi hr
        have hwf := needs_wf hv hi.running.graph
        have hrank : (ledger j).rank = completionRank i step.id input.exit := by
          rw [advance_rank hadv, hexit]
        -- one started step at a time
        have hone : ∀ s ∈ i.spec.steps,
            isReady i (completionRank i step.id input.exit) step.id s = true →
            (Fresh (needs j.spec) (ledger j) s.id ↔
              Free i input.currentPacketId step.id ∧ step.id ∉ i.unresolvedStepIds ∧
                Clear (needs i.spec) (ledger i).active step.id s.id) := by
          intro s hs hready
          have hready' := (isReady_iff_ready hv hs).mp hready
          rw [← hrank] at hready'
          rw [hspec, hfin.fresh_iff hwf hg hready', hclosed]
          push Not
          rw [and_assoc]
        constructor
        · intro hclear b' step' hst _ x hx
          have hx' : x.1 ∈ plan.next.map (·.id) := hsteps ▸ List.mem_map_of_mem hx
          obtain ⟨s, hs, hid⟩ := List.mem_map.mp hx'
          have hne : plan.next ≠ [] := List.ne_nil_of_mem hs
          rw [hnext, List.mem_filter] at hs
          rw [← hid]
          exact (hone s hs.1 hs.2).mpr (hclear step (htakes hne) hmap hc s hs.1 hs.2)
        · intro hfresh step' ht _ _ s hs hready
          obtain rfl := ht.step_eq hadv.stands
          have hmem : s.id ∈ (created (.projected r)).map Prod.fst := by
            rw [hsteps, hnext]
            exact List.mem_map_of_mem (List.mem_filter.mpr ⟨hs, hready⟩)
          obtain ⟨x, hx, hid⟩ := List.mem_map.mp hmem
          exact (hone s hs hready).mp (hid ▸ hfresh b step' hadv.stands hmap x hx)
  | resume input => exact ⟨fun _ => trivial, fun _ => trivial⟩
  | route input => exact ⟨fun _ => trivial, fun _ => trivial⟩
  | abort input => exact ⟨fun _ => trivial, fun _ => trivial⟩

/-! ### Runs -/

/-- The entry has no prerequisite, or no step depends on it. -/
def RootedEntry (spec : WorkflowSpec) : Prop :=
  ∀ entry, spec.steps.head? = some entry → Needed (needs spec) entry.id →
    ∀ d, ¬ needs spec entry.id d

lemma Steady.of_born {i : InstanceRow} (h : Born i) (hg : i.spec.isDependencyGraph = true)
    (hroot : RootedEntry i.spec) : Steady i := by
  obtain ⟨entry, packetId, hnew⟩ := h.new
  have hsteps : i.liveStepIds = [entry.id] := by
    have hrows := congrArg (List.map fun x => x.2.1) hnew.bindings
    rw [if_pos hg, List.map_map] at hrows
    exact hrows
  have hnone : i.unresolvedStepIds = [] := by
    simp [InstanceRow.unresolvedStepIds, InstanceRow.listFailureOccurrences, hnew.occurrences]
  have hrank : ∀ s, (ledger i).rank s = 0 := by
    intro s
    simp [ledger, hnew.trail, latestCompletion]
  refine ⟨.of_born h hg, fun _ => ⟨fun x hx hb d hd => ?_, fun x _ hr => ?_⟩⟩
  · rcases hb with hr | ha
    · rw [hrank] at hr
      omega
    · have hxe : x = entry.id := by
        rcases ha with hl | hf
        · rw [hsteps] at hl
          exact List.mem_singleton.mp hl
        · rw [hnone] at hf
          cases hf
      subst hxe
      exact absurd hd (hroot entry hnew.isEntry hx d)
  · rw [hrank] at hr
    omega

/-- **A re-run starts nothing on stale inputs exactly while the closes are clear**, in the runs of
an accepted dependency graph whose mapped exits return: the runs all of whose readiness launches
rest on fresh inputs are those all of whose completions are clear. -/
theorem launches_are_fresh {i j : InstanceRow} {cs : List Commit} (hborn : Born i)
    (hg : i.spec.isDependencyGraph = true) (hroot : RootedEntry i.spec) :
    Path (fun s c t => (commits s c t ∧ Reenters s c) ∧ LaunchesFresh s c t) i cs j ↔
      Path (fun s c t => (commits s c t ∧ Reenters s c) ∧ Clears s c) i cs j :=
  Path.good_iff (I := Steady) (fun _ _ _ h hs => hs.step h.1 h.2)
    (fun _ _ _ h hs => launches_iff hs h.1 h.2) (.of_born hborn hg hroot)

/-- A step and one that depends on it, which its failure sends round again. -/
def reworked : WorkflowSpec :=
  plainSpec [plainStep "a" [],
    { plainStep "b" ["a"] with nextHop := some { on := some { failed := some "a" } } }] (some 20)

/-- A check for a call of the pair: nothing but the call's packet stands for the first step. -/
def reworkedCheck (i : InstanceRow) : Call → Bool
  | .project input => i.spec = reworked && !i.unresolvedStepIds.contains "a" &&
      i.bindings.rows.all fun b => b.packetId = input.currentPacketId || b.stepId ≠ "a"
  | _ => false

lemma needs_reworked {x y : String} : needs reworked x y ↔ x = "b" ∧ y = "a" := by
  constructor
  · intro h
    unfold needs Edge at h
    rw [prerequisiteIds_eq (by decide)] at h
    cases hx : reworked.step? x with
    | none => simp [hx] at h
    | some step =>
      rw [hx] at h
      have hid : step.id = x := WorkflowSpec.step?_id hx
      rcases List.mem_cons.mp (WorkflowSpec.step?_mem hx) with rfl | hstep
      · cases h
      · obtain rfl := List.mem_singleton.mp hstep
        exact ⟨hid.symm, List.mem_singleton.mp h⟩
  · rintro ⟨rfl, rfl⟩
    change "a" ∈ prerequisiteIds reworked "b"
    decide

lemma returns_reworked (rank : String → ℕ) (ended : Prop) :
    Returns (needs reworked) rank ended "b" "a" where
  entered := by
    intro _ d hd
    exact absurd (needs_reworked.mp hd).1 (by decide)
  outdated := by
    intro _ y hy _ _ _
    obtain ⟨x, hx⟩ := hy
    rw [(needs_reworked.mp hx).2]

lemma reenters_of_check {i : InstanceRow} {c : Commit} (h : reworkedCheck i c.call = true) :
    Reenters i c := by
  unfold Reenters
  cases hcall : c.call with
  | project input =>
    rw [hcall] at h
    simp only [reworkedCheck, Bool.and_eq_true, decide_eq_true_eq] at h
    rintro step target ⟨⟨b, hst, -⟩, -⟩ hmap
    have hstep : step ∈ reworked.steps := h.1.1 ▸ WorkflowSpec.step?_mem hst.isStep
    rw [h.1.1]
    rcases List.mem_cons.mp hstep with rfl | hstep
    · cases hmap
    · obtain rfl := List.mem_singleton.mp hstep
      have htarget : target = "a" := by
        cases he : input.exit <;> rw [he] at hmap <;> cases hmap
        rfl
      rw [htarget]
      exact returns_reworked _ _
  | resume input => trivial
  | route input => trivial
  | abort input => trivial

lemma clears_of_check {i : InstanceRow} {c : Commit} (hi : Running i)
    (h : reworkedCheck i c.call = true) : Clears i c := by
  unfold Clears
  cases hcall : c.call with
  | project input =>
    rw [hcall] at h
    simp only [reworkedCheck, Bool.and_eq_true, decide_eq_true_eq, Bool.not_eq_true',
      List.contains_eq_mem, decide_eq_false_iff_not, List.all_eq_true, Bool.or_eq_true] at h
    obtain ⟨⟨hspec, hfailed⟩, hfree⟩ := h
    intro step ht _ _ s hs hready
    have hneeds := ((isReady_iff_ready hi.validated hs).mp hready).1
    rw [hspec] at hneeds ⊢
    obtain ⟨hsb, hstep⟩ := needs_reworked.mp hneeds
    rw [hstep, hsb]
    have hfree : Free i input.currentPacketId "a" := fun b hb hne => (hfree b hb).resolve_left hne
    refine ⟨hfree, hfailed, fun p hp hactive => ?_, fun d hd hne => ?_⟩
    · have hpa : p = "a" := by
        rcases TransGen.tail'_iff.mp hp with ⟨y, -, hy⟩
        exact (needs_reworked.mp hy).2
      exact hpa
    · exact absurd (needs_reworked.mp hd).2 hne
  | resume input => trivial
  | route input => trivial
  | abort input => trivial

/-- The second step fails and sends the first round again; both completions of the first start it
on fresh inputs. -/
theorem launches_are_fresh_reworked :
    ∃ i cs j, cs.length = 3 ∧ j.liveStepIds = ["b"] ∧
      Path (fun s c t => (commits s c t ∧ Reenters s c) ∧ LaunchesFresh s c t) i cs j := by
  obtain ⟨i, j, cs, hborn, hpath, hcalls, hp⟩ := exists_playFrom (plainWorkflowEnv 1 0)
    (plainInput reworked)
    [(plainWorkflowEnv 2 10, plainClose (plainPacket 1 0 0) .done),
      (plainWorkflowEnv 3 20, plainClose (plainPacket 2 10 1) .failed),
      (plainWorkflowEnv 4 30, plainClose (plainPacket 3 20 1) .done)] reworkedCheck
    (fun i j => i.spec = reworked && j.liveStepIds = ["b"]) rfl (by decide)
  simp only [Bool.and_eq_true, decide_eq_true_eq] at hp
  have hg : i.spec.isDependencyGraph = true := by rw [hp.1]; decide
  have hroot : RootedEntry i.spec := by
    rw [hp.1]
    intro entry hentry _ d hd
    cases hentry
    exact absurd (needs_reworked.mp hd).1 (by decide)
  have hlength : cs.length = 3 := by
    rw [← List.length_map fun c : Commit => (c.env, c.call), hcalls]
    rfl
  refine ⟨i, cs, j, hlength, hp.2, (launches_are_fresh hborn hg hroot).mpr ?_⟩
  have hrunning := hpath.with_invariant (I := Running) (fun _ _ _ h hs => hs.step h.1)
    (.of_born hborn hg)
  exact hrunning.mono fun _ _ _ ⟨h, hs, _⟩ =>
    ⟨⟨h.1, reenters_of_check h.2⟩, clears_of_check hs h.2⟩

/-- A join of a step and, by a longer way, of what depends on it; its failure sends that step round
again. -/
def skipJoin : WorkflowSpec :=
  plainSpec [plainStep "a" [], plainStep "b" ["a"], plainStep "c" ["b"],
    { plainStep "d" ["a", "c"] with nextHop := some { on := some { failed := some "a" } } }]
    (some 20)

/-- A re-run of the first step starts the join beside a step above it. -/
theorem rerun_joins_stale :
    ∃ i cs s c j, Born i ∧ i.spec.isDependencyGraph = true ∧ RootedEntry i.spec ∧
      Path commits i cs s ∧ commits s c j ∧ ¬ LaunchesFresh s c j := by
  obtain ⟨i, cs, s, c, j, hborn, hpath, -, hlast, hcall, hp⟩ :=
    exists_playFrom_call (plainWorkflowEnv 1 0) (plainInput skipJoin)
      [(plainWorkflowEnv 2 1, plainClose (plainPacket 1 0 0) .done),
       (plainWorkflowEnv 3 10, plainClose (plainPacket 2 1 1) .done),
       (plainWorkflowEnv 4 20, plainClose (plainPacket 3 10 1) .done),
       (plainWorkflowEnv 5 30, plainClose (plainPacket 4 20 1) .failed)]
      (plainWorkflowEnv 6 40, plainClose (plainPacket 5 30 1) .done)
      (fun i s reply j => i.spec = skipJoin && s.spec = skipJoin && j.spec = skipJoin &&
        (s.getFrontierBinding (plainPacket 5 30 1)).any (fun b => b.stepId = "a") &&
        (created reply).any (fun x => x.1 = "d") && j.liveStepIds.contains "b")
      rfl (by decide)
  simp only [Bool.and_eq_true, decide_eq_true_eq, Option.any_eq_true, List.any_eq_true,
    List.contains_eq_mem] at hp
  obtain ⟨⟨⟨⟨⟨hi, hs⟩, hj⟩, b, hb, hbstep⟩, x, hx, hxd⟩, hlive⟩ := hp
  have hentry : RootedEntry i.spec := by
    rw [hi]
    intro entry hentry _ d hd
    cases hentry
    revert hd
    change d ∈ prerequisiteIds skipJoin "a" → False
    rw [show prerequisiteIds skipJoin "a" = [] by decide]
    exact List.not_mem_nil
  refine ⟨i, cs, s, c, j, hborn, by rw [hi]; decide, hentry, hpath, hlast, fun hfresh => ?_⟩
  unfold LaunchesFresh at hfresh
  rw [hcall] at hfresh
  have hstands : Stands s (plainPacket 5 30 1) b (plainStep "a" []) :=
    ⟨hb, by rw [hs, hbstep]; decide⟩
  have habove : TransGen (needs j.spec) x.1 "b" := by
    have hdc : needs skipJoin "d" "c" := by
      change "c" ∈ prerequisiteIds skipJoin "d"
      decide
    have hcb : needs skipJoin "c" "b" := by
      change "b" ∈ prerequisiteIds skipJoin "c"
      decide
    rw [hj, hxd]
    exact .tail (.single hdc) hcb
  exact (hfresh b (plainStep "a" []) hstands rfl x hx "b" habove).2 (.inl hlive)

end OpenRig.StaleInputs
