import OpenRig.DaemonRuns
import OpenRig.RequiredSteps

/-!
In-place graph revisions never break a running instance.

A revision leaves the board of the instance as it is: every step that started keeps its
definition, and a step that did not start still waits for an unfinished one. So the scheduler's
two facts outlive it, and with them everything a run of one spec has.
-/

namespace OpenRig.GraphRevisions

open OpenRig.JsText OpenRig.QueueDb OpenRig.WorkflowTypes OpenRig.WorkflowStore
  OpenRig.WorkflowValidator
open OpenRig.WorkflowRouting OpenRig.WorkflowProjector OpenRig.WorkflowRuntime
open OpenRig.Instantiation OpenRig.GraphCalls OpenRig.FrontierBindings OpenRig.GraphBoard
  OpenRig.GraphProgress OpenRig.ProjectLifecycle
open OpenRig.RequiredSteps OpenRig.Reconciliation OpenRig.DaemonRuns OpenRig.Scheduling
open OpenRig.Digraph OpenRig.Runs

/-! ### What an accepted proposal has -/

@[simp] lemma reasonIf_eq_nil {c : Bool} {reason : String} :
    reasonIf c reason = [] ↔ c = false := by
  cases c <;> simp [reasonIf]

/-- **What the comparison checked** of an accepted proposal. -/
structure Compatible (i : InstanceRow) (binding : LifecycleBinding) (c : LifecycleCompilation)
    (proposed : WorkflowSpec) : Prop where
  validated : Validated proposed
  isLive : i.status.isLive = true
  oldPlain : ∀ s ∈ i.spec.steps, isConditional s = false
  newPlain : ∀ s ∈ proposed.steps, isConditional s = false
  required : ∀ id ∈ binding.graphSource.requiredSteps, id ∈ c.graphSource.requiredSteps
  order : ∀ p ∈ binding.graphSource.requiredSteps, ∀ q ∈ binding.graphSource.requiredSteps,
    Before i.spec p q → Before proposed p q
  kept : ∀ s ∈ i.spec.steps, ∃ next, proposed.step? s.id = some next ∧
    (s.id ∈ protectedIds i → s = next)
  triggered : ∀ s ∈ proposed.steps, s.id ∈ protectedIds i ∨
    ∃ d ∈ s.prerequisites, d ∉ completedSteps i

lemma wholeReasons_eq_nil {i : InstanceRow} {proposed : WorkflowSpec}
    (h : wholeReasons i proposed = []) :
    i.status.isLive = true ∧ (∀ s ∈ i.spec.steps, isConditional s = false) ∧
      ∀ s ∈ proposed.steps, isConditional s = false := by
  unfold wholeReasons at h
  simp only [List.append_eq_nil_iff, reasonIf_eq_nil, Bool.or_eq_false_iff,
    List.any_eq_false, Bool.not_eq_false'] at h
  obtain ⟨⟨⟨-, hlive⟩, hold, hnew⟩, -⟩ := h
  exact ⟨hlive, fun s hs => by simpa using hold s hs, fun s hs => by simpa using hnew s hs⟩

lemma requiredReasons_eq_nil {spec proposed : WorkflowSpec} {oldRequired newRequired : List String}
    (h : requiredReasons spec proposed oldRequired newRequired = []) :
    (∀ id ∈ oldRequired, id ∈ newRequired) ∧
      ∀ p ∈ oldRequired, ∀ q ∈ oldRequired, Before spec p q → Before proposed p q := by
  unfold requiredReasons at h
  simp only [List.append_eq_nil_iff, List.map_eq_nil_iff, List.filter_eq_nil_iff,
    List.flatMap_eq_nil_iff] at h
  obtain ⟨hkept, horder⟩ := h
  refine ⟨fun id hid => by simpa using hkept id hid, fun p hp q hq hbefore => ?_⟩
  by_contra hlost
  have hnone := horder q hq
  unfold lostPrerequisites at hnone
  rw [List.filter_eq_nil_iff] at hnone
  have hin : p ∈ ancestors spec q := mem_ancestors.mpr hbefore
  have hout : p ∉ ancestors proposed q := fun hp => hlost (mem_ancestors.mp hp)
  have := hnone p hp
  simp [hin, hout] at this

lemma stepReason_eq_nil {kept : List String} {proposed : WorkflowSpec} {step : WorkflowStepSpec}
    (h : stepReason kept proposed step = []) :
    ∃ next, proposed.step? step.id = some next ∧ (step.id ∈ kept → step = next) := by
  unfold stepReason at h
  split at h
  · simp at h
  · rename_i next hnext
    refine ⟨next, hnext, fun hk => ?_⟩
    by_contra hne
    simp [hne, hk] at h

theorem compatible_of_accepted {env : LifecycleEnv} {i : InstanceRow} {input : ReviseInput}
    {binding : LifecycleBinding} {c : LifecycleCompilation} {proposed : WorkflowSpec}
    (h : Accepted env i input binding c proposed) : Compatible i binding c proposed := by
  have hclean := h.clean
  unfold revisionReasons at hclean
  simp only [List.append_eq_nil_iff, List.flatMap_eq_nil_iff] at hclean
  obtain ⟨⟨⟨⟨hwhole, hrequired⟩, -⟩, hsteps⟩, htrigger⟩ := hclean
  obtain ⟨hlive, hold, hnew⟩ := wholeReasons_eq_nil hwhole
  obtain ⟨hreq, horder⟩ := requiredReasons_eq_nil hrequired
  obtain ⟨path, key, hcompiled⟩ := h.compiled
  unfold LifecycleEnv.compile at hcompiled
  obtain ⟨m, -, hcompiled⟩ := cbind_eq_ok.mp hcompiled
  refine ⟨validated_of_accepts (eligible_accepts hcompiled h.eligible h.spec), hlive, hold, hnew,
    hreq, horder, fun s hs => stepReason_eq_nil (hsteps s hs), fun s hs => ?_⟩
  have hs' := htrigger s hs
  unfold triggerReason at hs'
  rw [reasonIf_eq_nil] at hs'
  by_cases hprot : s.id ∈ protectedIds i
  · exact .inl hprot
  · right
    simpa [hprot] using hs'

/-! ### What started -/

/-- The steps with work are those that started. -/
structure Standing (i : InstanceRow) : Prop where
  progressing : Progressing i
  started : ∀ s ∈ protectedIds i, s ∈ (board i).started
  completed : ∀ s ∈ completedSteps i, s ∈ (board i).done
  steps : ∀ s ∈ (board i).started, s ∈ tasks i.spec

lemma mem_protectedIds {i : InstanceRow} {s : String} :
    s ∈ protectedIds i ↔ s ∈ completedSteps i ∨ s ∈ i.liveStepIds ∨
      s ∈ i.occurrences.rows.map (·.stepId) := by
  unfold protectedIds InstanceRow.listFailureOccurrences
  rw [List.mem_append, List.mem_append, or_assoc]

lemma mem_completedSteps {i : InstanceRow} {s : String} :
    s ∈ completedSteps i ↔ ∃ e ∈ i.trail, e.stepId = s ∧ e.closureReason.completes = true := by
  unfold completedSteps
  rw [List.mem_map]
  constructor
  · rintro ⟨e, he, rfl⟩
    exact ⟨e, (List.mem_filter.mp he).1, rfl, (List.mem_filter.mp he).2⟩
  · rintro ⟨e, he, rfl, hc⟩
    exact ⟨e, List.mem_filter.mpr ⟨he, hc⟩, rfl⟩

lemma protected_of_started {i : InstanceRow} (hv : (stepIds i.spec).Nodup) {s : String}
    (hs : s ∈ (board i).started) : s ∈ protectedIds i := by
  rw [mem_protectedIds]
  rcases hs with (hd | hl) | hf
  · exact .inl (mem_completedSteps.mpr (exists_completion ((isCompleted_iff hv).mp hd).1))
  · exact .inr (.inl hl)
  · obtain ⟨o, ho, rfl⟩ := List.mem_map.mp hf
    exact .inr (.inr (List.mem_map_of_mem (List.mem_filter.mp ho).1))

lemma Standing.of_born {i : InstanceRow} (h : Born i) (hg : i.spec.isDependencyGraph = true)
    (hu : Unmapped i.spec) : Standing i := by
  obtain ⟨entry, packetId, hnew⟩ := h.new
  have hboard := board_new hnew hg
  have hdone : completedSteps i = [] := by simp [completedSteps, hnew.trail]
  have hlive : ∀ s ∈ i.liveStepIds, s = entry.id := by
    intro s hs
    have : s ∈ (board i).live := hs
    rw [hboard] at this
    exact this
  refine ⟨.of_born h hg hu, fun s hs => ?_, fun s hs => by simp [hdone] at hs, fun s hs => ?_⟩
  · rw [mem_protectedIds, hdone, hnew.occurrences] at hs
    rcases hs with hs | hs | hs
    · cases hs
    · exact .inl (.inr hs)
    · cases hs
  · rw [hboard] at hs
    rcases hs with (hd | rfl) | hf
    · exact absurd hd (Set.notMem_empty s)
    · exact List.mem_map_of_mem (List.mem_of_mem_head? hnew.isEntry)
    · exact absurd hf (Set.notMem_empty s)

lemma Standing.advance {env : WorkflowEnv} {i j : InstanceRow} {input : ProjectStepInput}
    {step : WorkflowStepSpec} {b : WorkflowFrontierBinding} {plan : GraphPlan}
    {plans : List OwnerPlan} (hi : Standing i) (h : Advance env i input step b plan plans j)
    (hj : Progressing j) : Standing j := by
  have hp := hi.progressing
  have hspec := advance_spec h
  have hx := stands_live h.stands
  have hxi : step.id ∈ protectedIds i := mem_protectedIds.mpr (.inr (.inl hx))
  obtain ⟨e, htrail, hestep, hereason⟩ := advance_trail h
  have hcompleted : ∀ s ∈ completedSteps j, s ∈ completedSteps i ∨
      (s = step.id ∧ plan.effectiveExit.completes = true) := by
    intro s hs
    obtain ⟨a, ha, rfl, hc⟩ := mem_completedSteps.mp hs
    rw [htrail] at ha
    rcases List.mem_append.mp ha with ha | ha
    · exact .inl (mem_completedSteps.mpr ⟨a, ha, rfl, hc⟩)
    · obtain rfl := List.mem_singleton.mp ha
      exact .inr ⟨hestep, hereason ▸ hc⟩
  have hprotected : ∀ s ∈ protectedIds j, s ∈ protectedIds i ∨ s ∈ (board j).started := by
    intro s hs
    rcases mem_protectedIds.mp hs with hs | hs | hs
    · rcases hcompleted s hs with hs | ⟨rfl, -⟩
      · exact .inl (mem_protectedIds.mpr (.inl hs))
      · exact .inl hxi
    · exact .inr (.inl (.inr hs))
    · rw [h.occurrences, List.map_append, List.mem_append] at hs
      rcases hs with hs | hs
      · exact .inl (mem_protectedIds.mpr (.inr (.inr hs)))
      · split at hs
        · obtain rfl : s = step.id := by simpa [failureOccurrence] using hs
          exact .inl hxi
        · simp at hs
  have hmap := hp.unmapped.mappedTarget (WorkflowSpec.step?_mem h.stands.isStep) input.exit
  rcases advance_board h hp.running.validated hp.synced hp.sound hmap with
    ⟨hw, -, hb⟩ | ⟨hc, -, hb⟩ | ⟨hw, -, hb⟩
  · have hsame : ∀ s ∈ completedSteps j, s ∈ completedSteps i := fun s hs =>
      (hcompleted s hs).resolve_right fun hc => by simp [hw, WorkflowExitKind.completes] at hc
    refine ⟨hj, fun s hs => ?_, fun s hs => hb ▸ hi.completed s (hsame s hs), fun s hs => ?_⟩
    · rcases hprotected s hs with hs | hs
      · exact hb ▸ hi.started s hs
      · exact hs
    · rw [hspec]
      exact hi.steps s (hb ▸ hs)
  · have hmono : ∀ s ∈ (board i).started, s ∈ (board j).started := by
      intro s hs
      rw [hb, Board.started_finish hx]
      exact .inl hs
    refine ⟨hj, fun s hs => ?_, fun s hs => ?_, fun s hs => ?_⟩
    · rcases hprotected s hs with hs | hs
      · exact hmono s (hi.started s hs)
      · exact hs
    · rw [hb]
      rcases hcompleted s hs with hs | ⟨rfl, -⟩
      · exact .inr (hi.completed s hs)
      · exact .inl rfl
    · rw [hspec]
      rw [hb, Board.started_finish hx] at hs
      rcases hs with hs | hs
      · exact hi.steps s hs
      · exact hs.1
  · have hsame : ∀ s ∈ completedSteps j, s ∈ completedSteps i := fun s hs =>
      (hcompleted s hs).resolve_right fun hc => by simp [hw, WorkflowExitKind.completes] at hc
    have hstart : (board j).started = (board i).started := by rw [hb, Board.started_fail hx]
    refine ⟨hj, fun s hs => ?_, fun s hs => ?_, fun s hs => ?_⟩
    · rcases hprotected s hs with hs | hs
      · exact hstart ▸ hi.started s hs
      · exact hs
    · rw [hb]
      exact hi.completed s (hsame s hs)
    · rw [hspec]
      exact hi.steps s (hstart ▸ hs)

lemma redrive_steps {env : WorkflowEnv} {i j : InstanceRow} {input : ResumeInput}
    {o : WorkflowFailureOccurrence} (h : Redrive env i input o j) :
    j.occurrences.rows.map (·.stepId) = i.occurrences.rows.map (·.stepId) := by
  rw [h.occurrences, List.map_map]
  refine List.map_congr_left fun a _ => ?_
  rw [Function.comp_apply]
  split <;> rfl

lemma Standing.redrive {env : WorkflowEnv} {i j : InstanceRow} {input : ResumeInput}
    {o : WorkflowFailureOccurrence} (hi : Standing i) (h : Redrive env i input o j)
    (hj : Progressing j) : Standing j := by
  have hb := redrive_board h hi.progressing.failedOnce
  have htrail : j.trail = i.trail := by rw [h.row]; rfl
  have hx : o.stepId ∈ (board i).failed :=
    List.mem_map_of_mem (List.mem_filter.mpr ⟨h.chosen.mem, by simp [h.chosen.unresolved]⟩)
  have hstart : (board j).started = (board i).started := by rw [hb, Board.started_retry hx]
  have hcompleted : completedSteps j = completedSteps i := by simp [completedSteps, htrail]
  refine ⟨hj, fun s hs => ?_, fun s hs => ?_, fun s hs => ?_⟩
  · rcases mem_protectedIds.mp hs with hs | hs | hs
    · exact hstart ▸ hi.started s (mem_protectedIds.mpr (.inl (hcompleted ▸ hs)))
    · exact .inl (.inr hs)
    · rw [redrive_steps h] at hs
      exact hstart ▸ hi.started s (mem_protectedIds.mpr (.inr (.inr hs)))
  · rw [hb]
    exact hi.completed s (hcompleted ▸ hs)
  · rw [redrive_spec h]
    exact hi.steps s (hstart ▸ hs)

lemma Standing.accounted {i : InstanceRow} (hi : Standing i) :
    Accounted i (protectedIds i).dedup := by
  refine ⟨hi.progressing, List.nodup_dedup _, fun s => ?_⟩
  rw [List.mem_dedup]
  exact ⟨hi.started s, protected_of_started hi.progressing.running.validated.nodup⟩

/-- **Every project and resume call keeps what started.** -/
theorem Standing.step {i j : InstanceRow} {c : Commit} (hi : Standing i) (h : commits i c j)
    (hc : Moves c) : Standing j := by
  have hp := hi.progressing
  have hj : Progressing j := (hi.accounted.step h hc).progressing
  obtain ⟨env, db, call, reply, after⟩ := c
  rcases hc with ⟨input, rfl⟩ | ⟨input, rfl⟩
  · obtain ⟨r, rfl, h⟩ := run_project h
    rcases project_graph hp.running.graph h with ⟨_, _, _, _, rfl, _⟩ | ⟨_, _, _, _, hadv, _⟩
    · exact hi
    · exact hi.advance hadv hj
  · obtain ⟨r, rfl, h⟩ := run_resume h
    rcases resume_eq_ok h with ⟨o, -, rfl, -⟩ | ⟨o, hre, -⟩ | ⟨hocc, hstatus, -⟩
    · exact hi
    · exact hi.redrive hre hj
    · exact (hp.running.not_stuck hocc hstatus).elim

/-! ### A revision -/

lemma isConditional_eq_false {s : WorkflowStepSpec} (h : isConditional s = false) :
    s.dependsOn.isSome = true ∧ s.nextHop.bind NextHop.on = none := by
  simp only [isConditional, Bool.or_eq_false_iff] at h
  constructor
  · cases hd : s.dependsOn with
    | none => simp [hd] at h
    | some d => rfl
  · cases hon : s.nextHop.bind NextHop.on with
    | none => rfl
    | some on => simp [hon] at h

lemma unmapped_of_plain {spec : WorkflowSpec} (h : ∀ s ∈ spec.steps, isConditional s = false) :
    Unmapped spec := by
  intro s hs e
  unfold WorkflowStepSpec.branchTarget
  rw [(isConditional_eq_false (h s hs)).2]
  rfl

section Revisions

variable {i : InstanceRow} {binding : LifecycleBinding} {c : LifecycleCompilation}
  {proposed : WorkflowSpec} {receipt : RevisionReceipt}

lemma Compatible.steps (h : Compatible i binding c proposed) {s : String}
    (hs : s ∈ tasks i.spec) : s ∈ tasks proposed := by
  obtain ⟨step, hstep, rfl⟩ := List.mem_map.mp hs
  obtain ⟨next, hnext, -⟩ := h.kept step hstep
  exact List.mem_map.mpr ⟨next, WorkflowSpec.step?_mem hnext, WorkflowSpec.step?_id hnext⟩

lemma Compatible.same_step (h : Compatible i binding c proposed) (hi : Standing i) {s : String}
    (hs : s ∈ protectedIds i) : proposed.step? s = i.spec.step? s := by
  obtain ⟨step, hstep, rfl⟩ := List.mem_map.mp (hi.steps s (hi.started s hs))
  obtain ⟨next, hnext, hsame⟩ := h.kept step hstep
  rw [hnext, step?_of_mem hi.progressing.running.validated.nodup hstep, hsame hs]

lemma Compatible.same_needs (h : Compatible i binding c proposed) (hi : Standing i) {s : String}
    (hs : s ∈ protectedIds i) (d : String) : needs proposed s d ↔ needs i.spec s d := by
  unfold needs Edge
  rw [prerequisiteIds_eq h.validated.nodup,
    prerequisiteIds_eq hi.progressing.running.validated.nodup, h.same_step hi hs]

/-- **A revision leaves the board as it is.** -/
theorem Compatible.board_eq (h : Compatible i binding c proposed) (hi : Standing i) :
    board (reviseLifecycle i binding c proposed receipt) = board i := by
  have hv := hi.progressing.running.validated
  have hdone : ∀ s, isCompleted proposed (latestCompletion i.trail) s = true ↔
      isCompleted i.spec (latestCompletion i.trail) s = true := by
    intro s
    rw [isCompleted_iff h.validated.nodup, isCompleted_iff hv.nodup]
    refine and_congr_right fun hpos => ?_
    have hs : s ∈ protectedIds i :=
      mem_protectedIds.mpr (.inl (mem_completedSteps.mpr (exists_completion hpos)))
    exact forall_congr' fun d => by rw [h.same_needs hi hs d]
  have hset : {s | isCompleted proposed (latestCompletion i.trail) s = true} = (board i).done :=
    Set.ext hdone
  unfold board
  change Board.mk {s | isCompleted proposed (latestCompletion i.trail) s = true} _ _ = _
  rw [hset]
  rfl

/-- **A revision keeps what every state of a run has.** -/
theorem Standing.revised (hi : Standing i) (h : Compatible i binding c proposed) :
    Standing (reviseLifecycle i binding c proposed receipt) := by
  have hp := hi.progressing
  have hv := hp.running.validated
  have hb : board (reviseLifecycle i binding c proposed receipt) = board i := h.board_eq hi
  have hgraph : proposed.isDependencyGraph = true := by
    obtain ⟨s, hs, -⟩ := List.any_eq_true.mp hp.running.graph
    obtain ⟨next, hnext, -⟩ := h.kept s hs
    exact List.any_eq_true.mpr ⟨next, WorkflowSpec.step?_mem hnext,
      (isConditional_eq_false (h.newPlain next (WorkflowSpec.step?_mem hnext))).1⟩
  have hprot : ∀ s ∈ (board i).started, s ∈ protectedIds i := fun s =>
    protected_of_started hv.nodup
  have hrun : Running (reviseLifecycle i binding c proposed receipt) :=
    ⟨hgraph, h.validated, hp.running.failed⟩
  have hsync : Synced (reviseLifecycle i binding c proposed receipt) :=
    ⟨hp.synced.nodup, hp.synced.same, hp.synced.oneEach⟩
  refine ⟨⟨hrun, hsync, unmapped_of_plain h.newPlain, ?_, ?_, hp.failedOnce, hp.idle, hp.finished⟩,
    ?_, ?_, ?_⟩
  · rw [hb]
    refine ⟨hp.sound.doneApart, hp.sound.liveApart, fun x hx y hy => ?_⟩
    exact hp.sound.ready x hx y ((h.same_needs hi (hprot x hx) y).mp hy)
  · rw [hb]
    intro s hs
    obtain ⟨step, hstep, rfl⟩ := List.mem_map.mp hs
    rcases h.triggered step hstep with hs | ⟨d, hd, hopen⟩
    · exact .inl (hi.started _ hs)
    · refine .inr ⟨d, (needs_iff h.validated.nodup hstep).mpr hd, fun hdone => hopen ?_⟩
      exact mem_completedSteps.mpr (exists_completion ((isCompleted_iff hv.nodup).mp hdone).1)
  · rw [hb]
    exact hi.started
  · rw [hb]
    exact hi.completed
  · rw [hb]
    exact fun s hs => h.steps (hi.steps s hs)

end Revisions

/-! ### Rows in a daemon's run -/

/-- Every call of the act on the instance projects an exit or redrives a failure. -/
def Advances (id : String) (a : Act) : Prop :=
  ∀ env c, a = .call env id c → (∃ input, c = .project input) ∨ ∃ input, c = .resume input

/-- **What a row has in every state of a daemon's run.** -/
structure Sustained (i : InstanceRow) : Prop where
  nonempty : i.spec.steps ≠ []
  standing : i.spec.isDependencyGraph = true → Unmapped i.spec → Standing i
  revised : revisionHistory i ≠ [] → i.spec.isDependencyGraph = true ∧ Unmapped i.spec

/-- **What a run keeps of an instance**: no step of its spec disappears, a step with work keeps its
definition, and the required steps stay, in their order. -/
structure Preserved (i j : InstanceRow) : Prop where
  steps : ∀ s ∈ stepIds i.spec, s ∈ stepIds j.spec
  kept : ∀ s ∈ protectedIds i, j.spec.step? s = i.spec.step? s
  required : ∀ id ∈ i.requiredLifecycleSteps, id ∈ j.requiredLifecycleSteps
  order : ∀ p ∈ i.requiredLifecycleSteps, ∀ q ∈ i.requiredLifecycleSteps,
    Before i.spec p q → Before j.spec p q

lemma Preserved.of_same {i j : InstanceRow} (hspec : j.spec = i.spec)
    (hbinding : j.lifecycleBinding = i.lifecycleBinding) : Preserved i j := by
  have hreq : j.requiredLifecycleSteps = i.requiredLifecycleSteps := by
    unfold InstanceRow.requiredLifecycleSteps
    rw [hbinding]
  refine ⟨?_, ?_, ?_, ?_⟩
  · rw [hspec]
    exact fun s hs => hs
  · rw [hspec]
    exact fun s _ => rfl
  · rw [hreq]
    exact fun id hid => hid
  · rw [hspec]
    exact fun p _ q _ hb => hb

lemma Preserved.trans {i j k : InstanceRow} (h : Preserved i j) (h' : Preserved j k)
    (hmono : ∀ s ∈ protectedIds i, s ∈ protectedIds j) : Preserved i k :=
  ⟨fun s hs => h'.steps s (h.steps s hs),
    fun s hs => (h'.kept s (hmono s hs)).trans (h.kept s hs),
    fun id hid => h'.required id (h.required id hid),
    fun p hp q hq hb => h'.order p (h.required p hp) q (h.required q hq) (h.order p hp q hq hb)⟩

lemma commit_spec {i j : InstanceRow} {c : Commit} (h : commits i c j) :
    j.spec = i.spec ∧ j.lifecycleBinding = i.lifecycleBinding := by
  have hid := run_identity h
  exact ⟨congrArg (fun x => x.2.1) hid, congrArg (fun x => x.2.2.2.2) hid⟩

lemma Sustained.of_born {i : InstanceRow} (h : Born i) (hnone : revisionHistory i = []) :
    Sustained i := by
  obtain ⟨entry, packetId, hnew⟩ := h.new
  refine ⟨?_, fun hg hu => .of_born h hg hu, fun hne => absurd hnone hne⟩
  intro hnil
  have := hnew.isEntry
  rw [hnil] at this
  cases this

lemma Compatible.plain {i : InstanceRow} {binding : LifecycleBinding} {c : LifecycleCompilation}
    {proposed : WorkflowSpec} (h : Compatible i binding c proposed) (hi : Sustained i) :
    i.spec.isDependencyGraph = true ∧ Unmapped i.spec := by
  obtain ⟨s, hs⟩ := List.exists_mem_of_ne_nil _ hi.nonempty
  exact ⟨List.any_eq_true.mpr ⟨s, hs, (isConditional_eq_false (h.oldPlain s hs)).1⟩,
    unmapped_of_plain h.oldPlain⟩

/-- **One act keeps a row.** -/
theorem Sustained.step {d : Daemon} {a : Act} {i j : InstanceRow} (hi : Sustained i)
    (h : RowStep d a i j) (ha : Advances i.instanceId a) : Sustained j := by
  cases h with
  | untouched => exact hi
  | @called env call reply _ after hact hc =>
    obtain ⟨hspec, hbinding⟩ := commit_spec hc
    have hhist : revisionHistory j = revisionHistory i := by
      unfold revisionHistory
      rw [hbinding]
    have hmoves : Moves ⟨env, d.db, call, reply, after⟩ := ha env call hact
    refine ⟨hspec ▸ hi.nonempty, fun hg hu => ?_, fun hne => ?_⟩
    · rw [hspec] at hg hu
      exact (hi.standing hg hu).step hc hmoves
    · rw [hspec]
      exact hi.revised (hhist ▸ hne)
  | @revised env input receipt _ hact hid hrev =>
    obtain ⟨binding, c, proposed, hacc, rfl⟩ := hrev.accepted
    have hcompat := compatible_of_accepted hacc
    obtain ⟨hg, hu⟩ := hcompat.plain hi
    have hs : Standing (reviseLifecycle i binding c proposed receipt) :=
      (hi.standing hg hu).revised hcompat
    refine ⟨?_, fun _ _ => hs, fun _ => ⟨hs.progressing.running.graph, hs.progressing.unmapped⟩⟩
    obtain ⟨s, hmem⟩ := List.exists_mem_of_ne_nil _ hi.nonempty
    obtain ⟨next, hnext, -⟩ := hcompat.kept s hmem
    exact List.ne_nil_of_mem (WorkflowSpec.step?_mem hnext)

lemma Standing.preserved {d : Daemon} {a : Act} {i j : InstanceRow} (hi : Standing i)
    (h : RowStep d a i j) (ha : Advances i.instanceId a) :
    Preserved i j ∧ ∀ s ∈ protectedIds i, s ∈ protectedIds j := by
  cases h with
  | untouched => exact ⟨.of_same rfl rfl, fun s hs => hs⟩
  | @called env call reply _ after hact hc =>
    obtain ⟨hspec, hbinding⟩ := commit_spec hc
    have hj := hi.accounted.step hc (ha env call hact)
    refine ⟨.of_same hspec hbinding, fun s hs => ?_⟩
    refine protected_of_started hj.progressing.running.validated.nodup ((hj.started s).mp ?_)
    exact List.mem_append_left _ (List.mem_dedup.mpr hs)
  | @revised env input receipt _ hact hid hrev =>
    obtain ⟨binding, c, proposed, hacc, rfl⟩ := hrev.accepted
    have hcompat := compatible_of_accepted hacc
    have hreq : i.requiredLifecycleSteps = binding.graphSource.requiredSteps := by
      unfold InstanceRow.requiredLifecycleSteps
      rw [hacc.bound]
      rfl
    refine ⟨⟨fun s hs => hcompat.steps hs, fun s hs => hcompat.same_step hi hs, ?_, ?_⟩,
      fun s hs => hs⟩
    · rw [hreq]
      exact hcompat.required
    · rw [hreq]
      exact hcompat.order

lemma Sustained.same_spec {d : Daemon} {a : Act} {i j : InstanceRow} (hi : Sustained i)
    (h : RowStep d a i j) (hplain : ¬ (i.spec.isDependencyGraph = true ∧ Unmapped i.spec)) :
    j.spec = i.spec ∧ j.lifecycleBinding = i.lifecycleBinding := by
  cases h with
  | untouched => exact ⟨rfl, rfl⟩
  | called _ hc => exact commit_spec hc
  | revised _ _ hrev =>
    obtain ⟨binding, c, proposed, hacc, rfl⟩ := hrev.accepted
    exact absurd ((compatible_of_accepted hacc).plain hi) hplain

lemma steps_new {d d' : Daemon} {a : Act} (h : steps d a d') {id : String} {j : InstanceRow}
    (hnone : d.instances.get? id = none) (hj : d'.instances.get? id = some j) :
    Born j ∧ revisionHistory j = [] := by
  obtain ⟨_, _, _, _, _, _, _, _, hborn, hkey⟩ := steps_born h hnone hj
  rcases hkey with ⟨-, hnil⟩ | ⟨key, -, hnil, -⟩
  · exact ⟨hborn, hnil⟩
  · exact ⟨hborn, hnil⟩

lemma sustained_of_path {d d' : Daemon} {acts : List Act} (h : Path steps d acts d') {id : String}
    (hacts : ∀ a ∈ acts, Advances id a)
    (hd : ∀ i, d.instances.get? id = some i → Sustained i) :
    ∀ j, d'.instances.get? id = some j → Sustained j := by
  refine h.invariant_of_labels (p := Advances id)
    (I := fun d : Daemon => ∀ i, d.instances.get? id = some i → Sustained i) ?_ hacts hd
  intro s a t ha hstep hs j hj
  cases hi : s.instances.get? id with
  | none =>
    obtain ⟨hborn, hnil⟩ := steps_new hstep hi hj
    exact .of_born hborn hnil
  | some i =>
    obtain ⟨j', hj', hrow⟩ := steps_row hstep hi
    obtain rfl : j' = j := Option.some.inj (hj'.symm.trans hj)
    exact (hs i hi).step hrow (by rw [Table.get?_key hi]; exact ha)

/-- **A run preserves an instance.** -/
theorem preserved_of_path {d d' : Daemon} {acts : List Act} (h : Path steps d acts d') {id : String}
    (hacts : ∀ a ∈ acts, Advances id a) {i : InstanceRow} (hi : d.instances.get? id = some i)
    (hs : Sustained i) : ∃ j, d'.instances.get? id = some j ∧ Preserved i j := by
  by_cases hplain : i.spec.isDependencyGraph = true ∧ Unmapped i.spec
  · have : ∃ j, d'.instances.get? id = some j ∧ Standing j ∧ Preserved i j ∧
        ∀ s ∈ protectedIds i, s ∈ protectedIds j := by
      refine h.invariant_of_labels (p := Advances id)
        (I := fun d : Daemon => ∃ j, d.instances.get? id = some j ∧ Standing j ∧ Preserved i j ∧
          ∀ s ∈ protectedIds i, s ∈ protectedIds j) ?_ hacts
        ⟨i, hi, hs.standing hplain.1 hplain.2, .of_same rfl rfl, fun s hs => hs⟩
      rintro s a t ha hstep ⟨j, hj, hst, hpres, hmono⟩
      obtain ⟨k, hk, hrow⟩ := steps_row hstep hj
      have ha : Advances j.instanceId a := by rwa [Table.get?_key hj]
      obtain ⟨hpres', hmono'⟩ := hst.preserved hrow ha
      refine ⟨k, hk, ?_, hpres.trans hpres' hmono, fun s hs => hmono' s (hmono s hs)⟩
      cases hrow with
      | untouched => exact hst
      | called hact hc => exact hst.step hc (ha _ _ hact)
      | revised _ _ hrev =>
        obtain ⟨binding, c, proposed, hacc, rfl⟩ := hrev.accepted
        exact hst.revised (compatible_of_accepted hacc)
    obtain ⟨j, hj, -, hpres, -⟩ := this
    exact ⟨j, hj, hpres⟩
  · have : ∃ j, d'.instances.get? id = some j ∧ Sustained j ∧ j.spec = i.spec ∧
        j.lifecycleBinding = i.lifecycleBinding := by
      refine h.invariant_of_labels (p := Advances id)
        (I := fun d : Daemon => ∃ j, d.instances.get? id = some j ∧ Sustained j ∧
          j.spec = i.spec ∧ j.lifecycleBinding = i.lifecycleBinding) ?_ hacts ⟨i, hi, hs, rfl, rfl⟩
      rintro s a t ha hstep ⟨j, hj, hst, hspec, hbinding⟩
      obtain ⟨k, hk, hrow⟩ := steps_row hstep hj
      obtain ⟨hspec', hbinding'⟩ := hst.same_spec hrow (hspec ▸ hplain)
      exact ⟨k, hk, hst.step hrow (by rwa [Table.get?_key hj]), hspec'.trans hspec,
        hbinding'.trans hbinding⟩
    obtain ⟨j, hj, -, hspec, hbinding⟩ := this
    exact ⟨j, hj, .of_same hspec hbinding⟩

/-- **What a revised instance promises of the steps it has not started**: each waits for a step that
is live or whose failure is unresolved, starts once its prerequisites closed, and is closed before
the instance completes; an idle instance completed or stopped at an unresolved failure. -/
structure Promised (j : InstanceRow) : Prop where
  waits : ∀ s ∈ stepIds j.spec, s ∉ protectedIds j → ∃ p, Before j.spec p s ∧
    (p ∈ j.liveStepIds ∨ p ∈ j.unresolvedStepIds)
  starts : ∀ s ∈ stepIds j.spec, (∀ p ∈ dependencies j.spec s, p ∈ completedSteps j) →
    s ∈ protectedIds j
  completes : j.status = .completed → ∀ s ∈ stepIds j.spec, s ∈ completedSteps j
  stalls : j.currentFrontier = [] →
    j.status = .completed ∨ (j.status = .failed ∧ j.unresolvedStepIds ≠ [])

lemma Standing.promised {j : InstanceRow} (hj : Standing j) : Promised j := by
  have hp := hj.progressing
  have hv := hp.running.validated
  refine ⟨fun s hs hopen => ?_, fun s hs hall => ?_, fun hc s hs => ?_, fun hempty => ?_⟩
  · have hdone : s ∉ (board j).done :=
      fun hd => hopen (protected_of_started hv.nodup (.inl (.inl hd)))
    obtain ⟨p, hwait, hwork⟩ :=
      hp.covered.waits (needs_closed hv) (needs_acc hv hp.running.graph s hs)
      hs hdone
    refine ⟨p, (before_iff hv).mpr ?_, hwork⟩
    rcases Relation.reflTransGen_iff_eq_or_transGen.mp hwait with rfl | hwait
    · rcases hwork with hl | hf
      · exact absurd (protected_of_started hv.nodup (.inl (.inr hl))) hopen
      · exact absurd (protected_of_started hv.nodup (.inr hf)) hopen
    · exact hwait
  · rcases hp.covered s hs with hstart | ⟨d, hd, hopen⟩
    · exact protected_of_started hv.nodup hstart
    · have hdep : d ∈ dependencies j.spec s := by
        unfold needs Edge at hd
        rwa [prerequisiteIds_eq hv.nodup] at hd
      exact absurd (hj.completed d (hall d hdep)) hopen
  · obtain ⟨step, hstep, rfl⟩ := List.mem_map.mp hs
    exact mem_completedSteps.mpr (hp.all_closed hc step hstep)
  · rcases hp.idle hempty with ⟨hf, hu⟩ | ⟨hc, -⟩
    · exact .inr ⟨hf, hu⟩
    · exact .inl hc

/-! ### Operation keys -/

/-- **An operation key records one effect**: its receipt is in one instance's history, and no
instance was created under it. -/
structure KeysOnce (instances : Instances) : Prop where
  receipts : ∀ i ∈ instances.rows, ∀ j ∈ instances.rows, ∀ r ∈ revisionHistory i,
    ∀ r' ∈ revisionHistory j, r.operationKey = r'.operationKey → r = r' ∧ i = j
  apart : ∀ i ∈ instances.rows, ∀ j ∈ instances.rows, ∀ r ∈ revisionHistory i,
    j.lifecycleOperationKey ≠ some r.operationKey

lemma recover_eq_none {instances : Instances} {key : String}
    (h : recoverGraphOperation instances key = none) :
    (∀ i ∈ instances.rows, i.lifecycleOperationKey ≠ some key) ∧
      ∀ i ∈ instances.rows, ∀ r ∈ revisionHistory i, r.operationKey ≠ key := by
  unfold recoverGraphOperation at h
  split at h
  · cases h
  · rename_i hcreate
    refine ⟨fun i hi hk => ?_, fun i hi r hr hk => ?_⟩
    · have := List.find?_eq_none.mp hcreate i hi
      simp [hk] at this
    · have hnone :
        (Reconciliation.receipts instances).find? (fun x => x.2.operationKey = key) = none := by
        simpa using h
      have hmem : (i, r) ∈ Reconciliation.receipts instances :=
        List.mem_flatMap.mpr ⟨i, hi, List.mem_map_of_mem hr⟩
      have := List.find?_eq_none.mp hnone _ hmem
      simp [hk] at this

lemma recover_receipt {instances : Instances} (hk : KeysOnce instances) {i : InstanceRow}
    (hi : i ∈ instances.rows) {r : RevisionReceipt} (hr : r ∈ revisionHistory i) :
    recoverGraphOperation instances r.operationKey = some (.revision r i) := by
  have hcreate : getByLifecycleOperationKey instances r.operationKey = none := by
    refine List.find?_eq_none.mpr fun j hj => ?_
    simpa using hk.apart i hi j hj r hr
  have hmem : (i, r) ∈ Reconciliation.receipts instances :=
    List.mem_flatMap.mpr ⟨i, hi, List.mem_map_of_mem hr⟩
  have hsome : ((Reconciliation.receipts instances).find? fun x =>
      x.2.operationKey = r.operationKey).isSome := by
    rw [List.find?_isSome]
    exact ⟨_, hmem, by simp⟩
  obtain ⟨⟨j, r'⟩, hfind⟩ := Option.isSome_iff_exists.mp hsome
  have hkey : r'.operationKey = r.operationKey := by simpa using List.find?_some hfind
  obtain ⟨j', hj', hpair⟩ := List.mem_flatMap.mp (List.mem_of_find?_eq_some hfind)
  obtain ⟨r'', hr'', heq⟩ := List.mem_map.mp hpair
  cases heq
  obtain ⟨rfl, rfl⟩ := hk.receipts j hj' i hi r' hr'' r hr hkey
  unfold recoverGraphOperation
  rw [hcreate]
  simp [hfind]

lemma recover_revision {instances : Instances} {key : String} {r : RevisionReceipt}
    {i : InstanceRow} (h : recoverGraphOperation instances key = some (.revision r i)) :
    i ∈ instances.rows ∧ r ∈ revisionHistory i ∧ r.operationKey = key := by
  unfold recoverGraphOperation at h
  split at h
  · cases h
  · obtain ⟨⟨j, r'⟩, hfind, heq⟩ := Option.map_eq_some_iff.mp h
    cases heq
    obtain ⟨j', hj', hpair⟩ := List.mem_flatMap.mp (List.mem_of_find?_eq_some hfind)
    obtain ⟨r'', hr'', heq⟩ := List.mem_map.mp hpair
    cases heq
    exact ⟨hj', hr'', by simpa using List.find?_some hfind⟩

lemma mem_putInstance {instances : Instances} {i₀ j₀ j : InstanceRow}
    (hi₀ : instances.get? j₀.instanceId = some i₀) (hj : j ∈ (putInstance instances j₀).rows) :
    j = j₀ ∨ (j ∈ instances.rows ∧ j.instanceId ≠ j₀.instanceId) := by
  have hget := Table.get?_of_mem hj
  rw [get?_putInstance hi₀] at hget
  split at hget
  · exact .inl (Option.some.inj hget).symm
  · rename_i hne
    exact .inr ⟨(Table.get?_eq_some.mp hget).1, hne⟩

lemma KeysOnce.put {instances : Instances} {i₀ j₀ : InstanceRow} (hk : KeysOnce instances)
    (extra : List RevisionReceipt) (hi₀ : instances.get? j₀.instanceId = some i₀)
    (hkey : j₀.lifecycleOperationKey = i₀.lifecycleOperationKey)
    (hhist : revisionHistory j₀ = revisionHistory i₀ ++ extra) (hone : extra.length ≤ 1)
    (hextra : ∀ r ∈ extra, recoverGraphOperation instances r.operationKey = none) :
    KeysOnce (putInstance instances j₀) := by
  have hmem₀ : i₀ ∈ instances.rows := (Table.get?_eq_some.mp hi₀).1
  have hid₀ : i₀.instanceId = j₀.instanceId := Table.get?_key hi₀
  -- each row comes from one of the rows before, and only the written one has a new receipt
  have horigin : ∀ j ∈ (putInstance instances j₀).rows, ∃ i ∈ instances.rows,
      i.instanceId = j.instanceId ∧ j.lifecycleOperationKey = i.lifecycleOperationKey ∧
      ∀ r ∈ revisionHistory j, r ∈ revisionHistory i ∨ (j = j₀ ∧ r ∈ extra) := by
    intro j hj
    rcases mem_putInstance hi₀ hj with rfl | ⟨hold, -⟩
    · refine ⟨i₀, hmem₀, hid₀, hkey, fun r hr => ?_⟩
      rw [hhist, List.mem_append] at hr
      exact hr.imp_right fun h => ⟨rfl, h⟩
    · exact ⟨j, hold, rfl, rfl, fun r hr => .inl hr⟩
  constructor
  · intro j hj j' hj' r hr r' hr' heq
    obtain ⟨i, hi, hid, -, hrows⟩ := horigin j hj
    obtain ⟨i', hi', hid', -, hrows'⟩ := horigin j' hj'
    rcases hrows r hr with hold | ⟨rfl, hnew⟩
    · rcases hrows' r' hr' with hold' | ⟨-, hnew'⟩
      · obtain ⟨rfl, rfl⟩ := hk.receipts i hi i' hi' r hold r' hold' heq
        refine ⟨rfl, ?_⟩
        have := Table.get?_of_mem hj
        rw [← hid, hid', Table.get?_of_mem hj'] at this
        exact (Option.some.inj this).symm
      · exact absurd heq ((recover_eq_none (hextra r' hnew')).2 i hi r hold)
    · rcases hrows' r' hr' with hold' | ⟨rfl, hnew'⟩
      · exact absurd heq.symm ((recover_eq_none (hextra r hnew)).2 i' hi' r' hold')
      · have hpos := List.length_pos_of_mem hnew
        obtain ⟨x, rfl⟩ := List.length_eq_one_iff.mp (Nat.le_antisymm hone hpos)
        rw [List.mem_singleton.mp hnew, List.mem_singleton.mp hnew']
        exact ⟨rfl, rfl⟩
  · intro j hj j' hj' r hr
    obtain ⟨i, hi, -, -, hrows⟩ := horigin j hj
    obtain ⟨i', hi', -, hkey', -⟩ := horigin j' hj'
    rw [hkey']
    rcases hrows r hr with hr | ⟨-, hr⟩
    · exact hk.apart i hi i' hi' r hr
    · exact (recover_eq_none (hextra r hr)).1 i' hi'

lemma KeysOnce.insert {instances instances' : Instances} {j₀ : InstanceRow}
    (hk : KeysOnce instances) (hinsert : instances.insert? j₀ = some instances')
    (hopens : OpensKey instances j₀) : KeysOnce instances' := by
  have hrows := (Table.insert?_eq_some hinsert).2
  have hnil : revisionHistory j₀ = [] := by
    rcases hopens with ⟨-, h⟩ | ⟨_, -, h, -⟩
    · exact h
    · exact h
  have hold : ∀ i ∈ instances'.rows, ∀ r ∈ revisionHistory i, i ∈ instances.rows := by
    intro i hi r hr
    rw [hrows, List.mem_append, List.mem_singleton] at hi
    rcases hi with hi | rfl
    · exact hi
    · rw [hnil] at hr
      cases hr
  constructor
  · intro i hi j hj r hr r' hr' heq
    exact hk.receipts i (hold i hi r hr) j (hold j hj r' hr') r hr r' hr' heq
  · intro i hi j hj r hr
    have hi := hold i hi r hr
    rw [hrows, List.mem_append, List.mem_singleton] at hj
    rcases hj with hj | rfl
    · exact hk.apart i hi j hj r hr
    · rcases hopens with ⟨hnone, -⟩ | ⟨key, hsome, -, hrec⟩
      · rw [hnone]
        exact nofun
      · rw [hsome]
        intro he
        exact (recover_eq_none hrec).2 i hi r hr (Option.some.inj he).symm

theorem KeysOnce.step {d d' : Daemon} {a : Act} (hk : KeysOnce d.instances) (h : steps d a d') :
    KeysOnce d'.instances := by
  cases steps_effect h with
  | queue => exact hk
  | replayed => exact hk
  | born _ _ hinsert hkey => exact hk.insert hinsert hkey
  | @called env call reply i j after hi hc =>
    have hid := run_identity hc
    have hname : j.instanceId = i.instanceId := congrArg Prod.fst hid
    refine hk.put [] (hname ▸ hi) (congrArg (fun x => x.2.2.1) hid) ?_ (by simp) (by simp)
    have : j.lifecycleBinding = i.lifecycleBinding := congrArg (fun x => x.2.2.2.2) hid
    simp [revisionHistory, this]
  | @revised env input receipt i j hi hnone hrev =>
    obtain ⟨binding, c, proposed, hacc, rfl⟩ := hrev.accepted
    have hkey : i.instanceId = input.instanceId := Table.get?_key hi
    have hrow : d.instances.get? (reviseLifecycle i binding c proposed receipt).instanceId =
        some i := by
      change d.instances.get? i.instanceId = some i
      rw [hkey]
      exact hi
    refine hk.put [receipt] hrow rfl ?_ (by simp) ?_
    · unfold revisionHistory
      rw [hacc.bound]
      rfl
    · intro r hr
      rw [List.mem_singleton.mp hr, hrev.key]
      exact hnone

lemma keysOnce_of_path {d : Daemon} {acts : List Act} (h : Path steps .fresh acts d) :
    KeysOnce d.instances :=
  h.invariant (I := fun d : Daemon => KeysOnce d.instances) (fun _ _ _ hstep hk => hk.step hstep)
    ⟨fun _ hi => (by cases hi), fun _ hi => (by cases hi)⟩

lemma records_of_path {d d' : Daemon} {acts : List Act} (h : Path steps d acts d') {id : String}
    {i : InstanceRow} (hi : d.instances.get? id = some i) :
    ∃ j, d'.instances.get? id = some j ∧ j.lifecycleOperationKey = i.lifecycleOperationKey ∧
      ∀ r ∈ revisionHistory i, r ∈ revisionHistory j := by
  refine h.invariant (I := fun d : Daemon => ∃ j, d.instances.get? id = some j ∧
    j.lifecycleOperationKey = i.lifecycleOperationKey ∧
    ∀ r ∈ revisionHistory i, r ∈ revisionHistory j) ?_ ⟨i, hi, rfl, fun r hr => hr⟩
  rintro s a t hstep ⟨j, hj, hkey, hhist⟩
  obtain ⟨k, hk, hrow⟩ := steps_row hstep hj
  refine ⟨k, hk, ?_⟩
  cases hrow with
  | untouched => exact ⟨hkey, hhist⟩
  | called _ hc =>
    have hid := run_identity hc
    have hbinding : k.lifecycleBinding = j.lifecycleBinding :=
      congrArg (fun x => x.2.2.2.2) hid
    refine ⟨(congrArg (fun x => x.2.2.1) hid).trans hkey, fun r hr => ?_⟩
    unfold revisionHistory
    rw [hbinding]
    exact hhist r hr
  | revised _ _ hrev =>
    obtain ⟨binding, c, proposed, hacc, rfl⟩ := hrev.accepted
    refine ⟨hkey, fun r hr => ?_⟩
    have hold := hhist r hr
    unfold revisionHistory at hold
    rw [hacc.bound] at hold
    exact List.mem_append_left _ hold

lemma receipt_recorded {env : LifecycleEnv} {instances instances' : Instances} {input : ReviseInput}
    {r : RevisionResult} (h : reviseGraph env instances input = .ok (r, instances')) :
    ∃ i, instances'.get? input.instanceId = some i ∧ r.receipt ∈ revisionHistory i ∧
      r.receipt.operationKey = input.operationKey ∧ sameDecision input r.receipt i = true := by
  cases reviseGraph_eq_ok h with
  | replay hprior hsame _ hstill =>
    obtain ⟨hmem, hhist, hkey⟩ := recover_revision hprior
    have hid : r.instance_.instanceId = input.instanceId := by
      unfold sameDecision at hsame
      simp only [Bool.and_eq_true, decide_eq_true_eq] at hsame
      exact hsame.1.1.1.1
    exact ⟨_, by rw [hstill, ← hid]; exact Table.get?_of_mem hmem, hhist, hkey, hsame⟩
  | @revised i _ hi hrev _ hput =>
    obtain ⟨binding, c, proposed, hacc, hrow⟩ := hrev.accepted
    have hkey : i.instanceId = input.instanceId := Table.get?_key hi
    have hid : r.instance_.instanceId = input.instanceId := by
      rw [hrow]
      exact hkey
    refine ⟨r.instance_, ?_, ?_, hrev.key, hrev.decision⟩
    · rw [hput, get?_putInstance (hid ▸ hi), if_pos hid.symm]
    · rw [hrow]
      exact List.mem_append_right _ (List.mem_singleton.mpr rfl)

lemma sameDecision_unique {input input' : ReviseInput} {receipt : RevisionReceipt}
    {i j : InstanceRow} (hij : i.instanceId = j.instanceId)
    (hkey : input'.operationKey = input.operationKey) (h : sameDecision input receipt i = true)
    (h' : sameDecision input' receipt j = true) : input' = input := by
  unfold sameDecision at h h'
  simp only [Bool.and_eq_true, decide_eq_true_eq] at h h'
  obtain ⟨⟨⟨⟨h₁, h₂⟩, h₃⟩, h₄⟩, h₅⟩ := h
  obtain ⟨⟨⟨⟨h₁', h₂'⟩, h₃'⟩, h₄'⟩, h₅'⟩ := h'
  obtain ⟨a, b, c, d, e, f⟩ := input
  obtain ⟨a', b', c', d', e', f'⟩ := input'
  simp only at *
  subst h₂ h₃ h₄ h₅ h₂' h₃' h₄' h₅' hkey
  rw [← h₁, ← h₁', hij]

/-- **A recorded decision is final**: the identical call is answered with its receipt and writes
nothing, and every other use of its key is refused. -/
theorem decision_final {d d' : Daemon} {acts acts' : List Act} (hreach : Path steps .fresh acts d)
    {env : LifecycleEnv} {input : ReviseInput} {r : RevisionResult} {instances : Instances}
    (h : reviseGraph env d.instances input = .ok (r, instances))
    (hrun : Path steps (.write d.db instances) acts' d') (env' : LifecycleEnv) :
    (∃ j, reviseGraph env' d'.instances input =
      .ok ({ receipt := r.receipt, instance_ := j, replayed := true }, d'.instances)) ∧
    (∀ input', input'.operationKey = input.operationKey → input' ≠ input →
      ∃ e, reviseGraph env' d'.instances input' = .error e) ∧
    ∀ input' : LifecycleInstantiation, input'.operationKey = input.operationKey →
      ∃ e, instantiateLifecycle env' d'.instances d'.db input' = .error e := by
  have hstep : steps d (.revise env input) (.write d.db instances) := by
    unfold steps Act.run
    simp [h, Except.toOption]
  obtain ⟨i, hi, hhist, hkey, hsame⟩ := receipt_recorded h
  obtain ⟨j, hj, -, hkeep⟩ := records_of_path hrun hi
  have hkeys : KeysOnce d'.instances := keysOnce_of_path ((hreach.snoc hstep).append hrun)
  have hmem : j ∈ d'.instances.rows := (Table.get?_eq_some.mp hj).1
  have hrec := recover_receipt hkeys hmem (hkeep _ hhist)
  rw [hkey] at hrec
  have hij : i.instanceId = j.instanceId := by
    rw [Table.get?_key hi, Table.get?_key hj]
  have hsame' : sameDecision input r.receipt j = true := by
    unfold sameDecision at hsame ⊢
    rw [← hij]
    exact hsame
  have hchecked := h
  unfold reviseGraph at hchecked
  obtain ⟨_, hblank, -⟩ := obind_eq_ok.mp hchecked
  refine ⟨⟨j, ?_⟩, fun input' hk hne => ?_, fun input' hk => ?_⟩
  · unfold reviseGraph
    rw [hblank, hrec]
    simp [conflictIf, rejectIf, hsame', bind, Except.bind, pure, Except.pure]
  · cases hcall : reviseGraph env' d'.instances input' with
    | error e => exact ⟨e, rfl⟩
    | ok x =>
      exfalso
      obtain ⟨r', instances'⟩ := x
      cases reviseGraph_eq_ok hcall with
      | replay hprior hsame'' =>
        rw [hk, hrec] at hprior
        simp only [Option.some.injEq, GraphOperation.revision.injEq] at hprior
        obtain ⟨hreceipt, hj'⟩ := hprior
        rw [← hreceipt, ← hj'] at hsame''
        exact hne (sameDecision_unique hij hk hsame hsame'')
      | revised hnone =>
        rw [hk, hrec] at hnone
        cases hnone
  · unfold instantiateLifecycle
    rw [hk, hrec]
    exact ⟨_, rfl⟩

lemma creation_final {d d' : Daemon} {acts : List Act} (hrun : Path steps d acts d')
    {i : InstanceRow} (hi : i ∈ d.instances.rows) {key : String}
    (hkey : i.lifecycleOperationKey = some key) (env : LifecycleEnv) {input : ReviseInput}
    (hinput : input.operationKey = key) : ∃ e, reviseGraph env d'.instances input = .error e := by
  obtain ⟨j, hj, hsame, -⟩ := records_of_path hrun (Table.get?_of_mem hi)
  have hmem : j ∈ d'.instances.rows := (Table.get?_eq_some.mp hj).1
  have hcreate : (getByLifecycleOperationKey d'.instances key).isSome = true := by
    unfold getByLifecycleOperationKey
    rw [List.find?_isSome]
    exact ⟨j, hmem, by simp [hsame, hkey]⟩
  obtain ⟨k, hk⟩ := Option.isSome_iff_exists.mp hcreate
  have hrec : recoverGraphOperation d'.instances input.operationKey = some (.instantiate k) := by
    unfold recoverGraphOperation
    rw [hinput, hk]
  cases hcall : reviseGraph env d'.instances input with
  | error e => exact ⟨e, rfl⟩
  | ok x =>
    exfalso
    obtain ⟨r, instances⟩ := x
    cases reviseGraph_eq_ok hcall with
    | replay hprior =>
      rw [hrec] at hprior
      cases hprior
    | revised hnone =>
      rw [hrec] at hnone
      cases hnone

/-- **Revisions never break a running instance.** Over every run of a daemon whose calls on an
instance project exits and redrive failures: an instance keeps its steps, the definition of each
step with work, and its required steps in their order; a revised one keeps its promises to the
steps it has not started; and an operation key stays with one decision. -/
theorem revisions_hold {d d' : Daemon} {acts acts' : List Act} {id : String}
    (hreach : Path steps .fresh acts d) (hrun : Path steps d acts' d')
    (hacts : ∀ a ∈ acts ++ acts', Advances id a) :
    (∀ i, d.instances.get? id = some i → ∃ j, d'.instances.get? id = some j ∧ Preserved i j ∧
      (revisionHistory j ≠ [] → Promised j)) ∧
    (∀ env input r instances, reviseGraph env d.instances input = .ok (r, instances) →
      ∀ acts'' d'', Path steps (.write d.db instances) acts'' d'' → ∀ env',
        (∃ j, reviseGraph env' d''.instances input =
          .ok ({ receipt := r.receipt, instance_ := j, replayed := true }, d''.instances)) ∧
        (∀ input', input'.operationKey = input.operationKey → input' ≠ input →
          ∃ e, reviseGraph env' d''.instances input' = .error e) ∧
        ∀ input' : LifecycleInstantiation, input'.operationKey = input.operationKey →
          ∃ e, instantiateLifecycle env' d''.instances d''.db input' = .error e) ∧
    ∀ i ∈ d.instances.rows, ∀ key, i.lifecycleOperationKey = some key →
      ∀ env input, input.operationKey = key →
        ∃ e, reviseGraph env d'.instances input = .error e := by
  have hfresh : ∀ i, Daemon.fresh.instances.get? id = some i → Sustained i := by
    intro i hi
    cases hi
  refine ⟨fun i hi => ?_, fun env input r instances h acts'' d'' hrun' env' =>
    decision_final hreach h hrun' env', fun i hi key hkey env input hinput =>
    creation_final hrun hi hkey env hinput⟩
  have hs := sustained_of_path hreach (fun a ha => hacts a (List.mem_append_left _ ha)) hfresh i hi
  obtain ⟨j, hj, hpres⟩ :=
    preserved_of_path hrun (fun a ha => hacts a (List.mem_append_right _ ha)) hi hs
  have hsj := sustained_of_path (hreach.append hrun) hacts hfresh j hj
  refine ⟨j, hj, hpres, fun hne => ?_⟩
  obtain ⟨hg, hu⟩ := hsj.revised hne
  exact (hsj.standing hg hu).promised

/-- The manifests of the examples, before and after a step is added behind the joining one. -/
def beforeRevision : Manifests :=
  profileManifests ["c"] [plainStep "intake" [], plainStep "a" ["intake"],
    plainStep "b" ["intake"], plainStep "c" ["a"]]

def afterRevision : Manifests :=
  profileManifests ["c"] [plainStep "intake" [], plainStep "a" ["intake"],
    plainStep "b" ["intake"], plainStep "c" ["a"], plainStep "d" ["c"]]

/-- A branch fails, and the graph is revised while the other is live. -/
def revisedActs : List Act :=
  [.instantiateLifecycle (plainLifecycleEnv 1 0 beforeRevision)
      { missionPath := "mission.yaml", operationKey := "create", rootObjective := "go"
        createdBySession := "lead@rig" },
    .call (plainWorkflowEnv 2 10) "instance" (plainClose (plainPacket 1 0 0) .done),
    .call (plainWorkflowEnv 3 20) "instance" (plainClose (plainPacket 2 10 1) .failed),
    .revise (plainLifecycleEnv 4 30 afterRevision)
      { instanceId := "instance", operationKey := "revise", expectedVersion := 3
        expectedDigest := "intake-a-b-c-d", actorSession := "lead@rig", reason := "add d" }]

lemma revisedActs_advance : ∀ a ∈ revisedActs, Advances "instance" a := by
  intro a ha env c hc
  simp only [revisedActs, List.mem_cons, List.not_mem_nil, or_false] at ha
  rcases ha with rfl | rfl | rfl | rfl <;> cases hc
  · exact .inl ⟨_, rfl⟩
  · exact .inl ⟨_, rfl⟩

/-- The run, and what it left. -/
theorem revisions_hold_branch :
    ∃ i j, (revisionHistory i).length = 0 ∧ (revisionHistory j).length = 1 ∧ Preserved i j ∧
      Promised j := by
  obtain ⟨d', hrun, hp⟩ := exists_runActs revisedActs
    (fun d => (d.instances.get? "instance").any fun j => (revisionHistory j).length = 1) (by decide)
  obtain ⟨d, hbefore, hafter⟩ := Path.append_iff.mp
    (show Path steps .fresh (revisedActs.take 3 ++ revisedActs.drop 3) d' from hrun)
  have hq := of_runActs hbefore (fun d => (d.instances.get? "instance").any fun i =>
    (revisionHistory i).length = 0) (by decide)
  obtain ⟨i, hi, hi₀⟩ := (Option.any_eq_true _ _).mp hq
  obtain ⟨j', hj', hj₁⟩ := (Option.any_eq_true _ _).mp hp
  obtain ⟨j, hj, hpres, hprom⟩ := (revisions_hold hbefore hafter revisedActs_advance).1 i hi
  obtain rfl : j = j' := Option.some.inj (hj.symm.trans hj')
  have hlen : (revisionHistory j).length = 1 := by simpa using hj₁
  refine ⟨i, j, by simpa using hi₀, hlen, hpres, hprom ?_⟩
  intro hnil
  rw [hnil] at hlen
  cases hlen

/-- Behind the failed branch a step waits for nothing that is live. -/
theorem revised_step_waits_on_failure :
    ∃ acts d j, Path steps .fresh acts d ∧ (∀ a ∈ acts, Advances "instance" a) ∧
      d.instances.get? "instance" = some j ∧ revisionHistory j ≠ [] ∧
      ∃ s ∈ stepIds j.spec, s ∉ protectedIds j ∧ ∀ p, Before j.spec p s → p ∉ j.liveStepIds := by
  obtain ⟨d, hrun, hp⟩ := exists_runActs revisedActs
    (fun d => (d.instances.get? "instance").any fun j => !(revisionHistory j).isEmpty &&
      (stepIds j.spec).contains "c" && !(protectedIds j).contains "c" &&
      (ancestors j.spec "c").all fun p => !j.liveStepIds.contains p) (by decide)
  obtain ⟨j, hj, hp⟩ := (Option.any_eq_true _ _).mp hp
  simp only [Bool.and_eq_true, Bool.not_eq_true', List.isEmpty_eq_false_iff, List.contains_eq_mem,
    decide_eq_true_eq, decide_eq_false_iff_not, List.all_eq_true] at hp
  obtain ⟨⟨⟨hhist, hstep⟩, hopen⟩, hnone⟩ := hp
  exact ⟨_, d, j, hrun, revisedActs_advance, hj, hhist, "c", hstep, hopen, fun p hbefore =>
    hnone p (mem_ancestors.mpr hbefore)⟩

end OpenRig.GraphRevisions
