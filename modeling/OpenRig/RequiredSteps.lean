import OpenRig.GraphProgress
import OpenRig.ProjectLifecycle

/-!
A mission cannot route around its project's required steps.

Compilation keeps, between the required steps, every transitive prerequisite the profile has; the
executor starts a step only after everything it transitively needs is done.
-/

namespace OpenRig.RequiredSteps

open OpenRig.QueueDb OpenRig.WorkflowTypes OpenRig.WorkflowStore OpenRig.WorkflowValidator
open OpenRig.WorkflowProjector OpenRig.WorkflowRuntime OpenRig.Instantiation OpenRig.GraphCalls
open OpenRig.FrontierBindings OpenRig.GraphBoard OpenRig.GraphProgress OpenRig.ProjectLifecycle
open OpenRig.Scheduling OpenRig.Digraph OpenRig.Runs

/-! ### What compilation checks -/

/-- `p` is a transitive prerequisite of `q`. -/
def Before (spec : WorkflowSpec) (p q : String) : Prop :=
  Relation.TransGen (Edge (dependencies spec)) q p

lemma mem_ancestors {spec : WorkflowSpec} {p q : String} :
    p ∈ ancestors spec q ↔ Before spec p q := by
  refine mem_collect (fun x _ y hy => ?_) List.mem_cons_self
  unfold dependencies at hy
  cases hs : spec.step? x with
  | none => simp [hs] at hy
  | some s =>
    rw [hs] at hy
    refine List.mem_cons_of_mem _ (List.mem_append_right _ ?_)
    exact List.mem_flatMap.mpr ⟨s, WorkflowSpec.step?_mem hs, hy⟩

/-- What a graph that passed `validateObligations` has. -/
structure Obliged (spec : WorkflowSpec) (required : List String) : Prop where
  present : ∀ id ∈ required, id ∈ stepIds spec
  unconditional : ∀ s ∈ spec.steps, s.dependsOn.isSome = true ∧ s.nextHop.bind NextHop.on = none

lemma validateObligations_eq_ok {spec : WorkflowSpec} {required : List String}
    {base : Option WorkflowSpec} (h : validateObligations spec required base = .ok ()) :
    Obliged spec required ∧ ∀ b, base = some b → ∀ p ∈ required, ∀ q ∈ required,
      Before b p q → Before spec p q := by
  unfold validateObligations at h
  simp only at h
  obtain ⟨_, hmissing, h⟩ := cbind_eq_ok.mp h
  have hpresent : ∀ id ∈ required, id ∈ stepIds spec := by
    intro id hid
    by_contra hout
    simp only [errorIf_eq_ok, Bool.not_eq_false', List.isEmpty_iff,
      List.filter_eq_nil_iff] at hmissing
    exact hmissing id hid (by simpa using hout)
  split at h
  · simp at h
  · rename_i hnone
    have hcond : ∀ s ∈ spec.steps,
      s.dependsOn.isSome = true ∧ s.nextHop.bind NextHop.on = none := by
      intro s hs
      have := List.find?_eq_none.mp hnone s hs
      simp only [isConditional, Bool.or_eq_true, not_or, Bool.not_eq_true] at this
      constructor
      · cases hd : s.dependsOn with
        | none => simp [hd] at this
        | some d => rfl
      · cases hon : s.nextHop.bind NextHop.on with
        | none => rfl
        | some on => simp [hon] at this
    refine ⟨⟨hpresent, hcond⟩, ?_⟩
    rintro b rfl p hp q hq hbefore
    simp only at h
    split at h
    · simp at h
    · rename_i hkept
      have hq' := List.find?_eq_none.mp hkept q hq
      simp only [Bool.not_eq_true, Bool.not_eq_false', List.isEmpty_iff, lostPrerequisites,
        List.filter_eq_nil_iff] at hq'
      by_contra hlost
      have hin : p ∈ ancestors b q := mem_ancestors.mpr hbefore
      have hout : p ∉ ancestors spec q := fun hp => hlost (mem_ancestors.mp hp)
      have := hq' p hp
      simp [hin, hout] at this

/-! ### The compiled graph -/

lemma step?_map {spec : WorkflowSpec} {id : String} :
    (spec.steps.map withRePresentation).find? (fun s => s.id = id) =
      (spec.step? id).map withRePresentation := by
  unfold WorkflowSpec.step?
  induction spec.steps with
  | nil => rfl
  | cons s steps ih =>
    have hid : (withRePresentation s).id = s.id := by
      unfold withRePresentation
      split <;> rfl
    rw [List.map_cons, List.find?_cons, List.find?_cons, hid]
    split
    · rfl
    · exact ih

lemma dependencies_parseBoundary (m : Manifests) (workflow : WorkflowSpec) (ref : String → String) :
    dependencies (parseBoundary m workflow ref) = dependencies workflow := by
  funext id
  have hdeps : ∀ s : WorkflowStepSpec, (withRePresentation s).prerequisites = s.prerequisites := by
    intro s
    unfold withRePresentation
    split <;> rfl
  unfold dependencies
  have : (parseBoundary m workflow ref).step? id = (workflow.step? id).map withRePresentation :=
    step?_map
  rw [this, Option.map_map]
  congr 1
  cases workflow.step? id with
  | none => rfl
  | some s => simp [hdeps]

lemma missionGraph_eq_ok {m : Manifests} {base graph : WorkflowSpec} {required : List String}
    {source : String} {workflow : MissionWorkflow} {src : LifecycleGraphSource}
    (hbase : Obliged base required)
    (h : missionGraph m base required source workflow = .ok (graph, src)) :
    Obliged graph required ∧ src.requiredSteps = required ∧
      ∀ p ∈ required, ∀ q ∈ required, Before base p q → Before graph p q := by
  unfold missionGraph at h
  simp only at h
  split at h
  · cases cpure_eq_ok.mp h
    exact ⟨hbase, rfl, fun _ _ _ _ hb => hb⟩
  · simp at h
  · obtain ⟨_, -, h⟩ := cbind_eq_ok.mp h
    obtain ⟨_, hvalid, h⟩ := cbind_eq_ok.mp h
    cases cpure_eq_ok.mp h
    obtain ⟨hob, horder⟩ := validateObligations_eq_ok hvalid
    exact ⟨hob, rfl, horder base rfl⟩
  · obtain ⟨_, hvalid, h⟩ := cbind_eq_ok.mp h
    cases cpure_eq_ok.mp h
    obtain ⟨hob, horder⟩ := validateObligations_eq_ok hvalid
    exact ⟨hob, rfl, horder base rfl⟩

def Selects (m : Manifests) (profile : ProfileGraph) : Prop :=
  ∃ profiles name, m.profiles = some profiles ∧ m.lifecycleProfile = some name ∧
    profiles.lookup name = some profile

lemma authoredBoundary_eq_ok {m : Manifests} {profile : ProfileGraph} (hsel : Selects m profile)
    {authored : Option WorkflowSpec} {src : LifecycleGraphSource}
    (h : authoredBoundary m = .ok (authored, src)) :
    ∃ graph, authored = some graph ∧ Obliged graph profile.requiredSteps ∧
      src.requiredSteps = profile.requiredSteps ∧
      ∀ p ∈ profile.requiredSteps, ∀ q ∈ profile.requiredSteps,
        Before profile.workflow p q → Before graph p q := by
  obtain ⟨profiles, name, hprofiles, hname, hlookup⟩ := hsel
  have hgraph : ∃ graph, profileGraph m profiles = .ok (graph, src) ∧ authored = some graph := by
    unfold authoredBoundary at h
    obtain ⟨_, -, h⟩ := cbind_eq_ok.mp h
    rw [hprofiles] at h
    obtain ⟨⟨graph, src'⟩, hg, h⟩ := cbind_eq_ok.mp h
    cases cpure_eq_ok.mp h
    exact ⟨graph, hg, rfl⟩
  obtain ⟨graph, hg, rfl⟩ := hgraph
  unfold profileGraph at hg
  rw [hname] at hg
  simp only [Option.bind_some, hlookup, Option.map_some] at hg
  obtain ⟨_, -, hg⟩ := cbind_eq_ok.mp hg
  obtain ⟨_, hvalid, hg⟩ := cbind_eq_ok.mp hg
  obtain ⟨hbase, -⟩ := validateObligations_eq_ok hvalid
  obtain ⟨hob, hreq, horder⟩ := missionGraph_eq_ok hbase hg
  refine ⟨graph, rfl, hob, hreq, fun p hp q hq hb => horder p hp q hq ?_⟩
  unfold Before
  rw [dependencies_parseBoundary]
  exact hb

lemma eligible_accepts {digest : Digest} {m : Manifests} {key : Option String}
    {c : LifecycleCompilation} {spec : WorkflowSpec}
    (h : compileProjectLifecycle digest m key = .ok c) (hel : c.eligible = true)
    (hspec : c.workflowSpec = some spec) : accepts (validate spec none none) = true := by
  have hunknowns : ∃ missing, c.unknowns = missing ++ ((c.workflowSpec.map fun spec =>
      ((validate spec none none).filter fun i => i.severity = .error).map renderIssue).getD
        []) := by
    unfold compileProjectLifecycle at h
    obtain ⟨_, -, h⟩ := cbind_eq_ok.mp h
    cases cpure_eq_ok.mp h
    exact ⟨_, rfl⟩
  obtain ⟨missing, hunknowns⟩ := hunknowns
  rw [LifecycleCompilation.eligible, hunknowns, hspec] at hel
  simp only [Option.isSome_some, Bool.true_and, List.isEmpty_iff, List.append_eq_nil_iff,
    Option.map_some, Option.getD_some, List.map_eq_nil_iff, List.filter_eq_nil_iff] at hel
  simp only [accepts, Bool.not_eq_true', List.any_eq_false]
  intro issue hissue
  simpa using hel.2 issue hissue

/-- **An eligible compilation over a profile** is accepted, unconditional, has every required
step, and keeps their order. -/
theorem compile_keeps {digest : Digest} {m : Manifests} {key : Option String}
    {c : LifecycleCompilation} {profile : ProfileGraph} {spec : WorkflowSpec}
    (hsel : Selects m profile) (h : compileProjectLifecycle digest m key = .ok c)
    (hel : c.eligible = true) (hspec : c.workflowSpec = some spec) :
    Validated spec ∧ Obliged spec profile.requiredSteps ∧
      c.graphSource.requiredSteps = profile.requiredSteps ∧
      ∀ p ∈ profile.requiredSteps, ∀ q ∈ profile.requiredSteps,
        Before profile.workflow p q → Before spec p q := by
  have hvalid := validated_of_accepts (eligible_accepts h hel hspec)
  unfold compileProjectLifecycle at h
  obtain ⟨⟨authored, src⟩, hauth, h⟩ := cbind_eq_ok.mp h
  cases cpure_eq_ok.mp h
  obtain ⟨graph, rfl, hob, hreq, horder⟩ := authoredBoundary_eq_ok hsel hauth
  simp only [draftSpec, Option.map_some, Option.some.injEq] at hspec
  subst hspec
  exact ⟨hvalid, ⟨hob.present, hob.unconditional⟩, hreq, horder⟩

/-! ### Runs -/

lemma before_iff {spec : WorkflowSpec} (hv : Validated spec) {p q : String} :
    Before spec p q ↔ Relation.TransGen (needs spec) q p := by
  unfold Before needs
  have : dependencies spec = prerequisiteIds spec := by
    funext id
    rw [prerequisiteIds_eq hv.nodup]
    rfl
  rw [this]

lemma Obliged.unmapped {spec : WorkflowSpec} {required : List String} (h : Obliged spec required) :
    Unmapped spec := by
  intro s hs e
  unfold WorkflowStepSpec.branchTarget
  rw [(h.unconditional s hs).2]
  rfl

lemma Obliged.graph {spec : WorkflowSpec} {required : List String} (h : Obliged spec required)
    {entry : WorkflowStepSpec} (he : spec.steps.head? = some entry) :
    spec.isDependencyGraph = true := by
  have hmem : entry ∈ spec.steps := List.mem_of_mem_head? he
  exact List.any_eq_true.mpr ⟨entry, hmem, (h.unconditional entry hmem).1⟩

lemma created_started {i j : InstanceRow} {c : Commit} {steps : List String}
    (hi : Accounted i steps) (h : commits i c j) (hc : Moves c) {q : String}
    (hq : q ∈ createdSteps c) : q ∈ (board j).started := by
  have hj := hi.step h hc
  have hp := hi.progressing
  obtain ⟨env, db, call, reply, after⟩ := c
  rcases hc with ⟨input, rfl⟩ | ⟨input, rfl⟩
  · obtain ⟨r, rfl, -⟩ := run_project h
    refine (hj.started q).mp (List.mem_append_right _ ?_)
    obtain ⟨x, hx, rfl⟩ := List.mem_map.mp hq
    exact (List.of_mem_zip (a := x.1) (b := x.2) hx).1
  · obtain ⟨r, rfl, h⟩ := run_resume h
    rcases resume_eq_ok h with ⟨o, hrep, -⟩ | ⟨o, hre, hr⟩ | ⟨hocc, hstatus, -⟩
    · simp [createdSteps, created, hrep.absorbed] at hq
    · simp only [createdSteps, created, hr.written, Bool.false_eq_true, if_false, List.map_cons,
        List.map_nil, List.mem_singleton] at hq
      rw [redrive_board hre hp.failedOnce, hq, hr.stepId]
      exact .inl (.inr (.inl rfl))
    · exact (hp.running.not_stuck hocc hstatus).elim

/-- **The required steps hold.** Over every run of a spec compiled from a project profile and a
mission, no packet of a required step is created before every required step that comes before it
in the profile was closed as done or handed off, and the instance completes only once all of them
were. -/
theorem required_steps_hold {digest : Digest} {m : Manifests} {key : Option String}
    {c : LifecycleCompilation} {profile : ProfileGraph} {i : InstanceRow} (hsel : Selects m profile)
    (h : compileProjectLifecycle digest m key = .ok c) (hel : c.eligible = true)
    (hborn : Born i) (hspec : c.workflowSpec = some i.spec) :
    (∀ entry, i.spec.steps.head? = some entry → ∀ p ∈ profile.requiredSteps,
      entry.id ∈ profile.requiredSteps → ¬ Before profile.workflow p entry.id) ∧
    (∀ cs s call t, Path commits i cs s → (∀ c ∈ cs, Moves c) → commits s call t → Moves call →
      ∀ q ∈ createdSteps call, q ∈ profile.requiredSteps → ∀ p ∈ profile.requiredSteps,
        Before profile.workflow p q →
        ∃ e ∈ t.trail, e.stepId = p ∧ e.closureReason.completes = true) ∧
    ∀ cs j, Path commits i cs j → (∀ c ∈ cs, Moves c) → j.status = .completed →
      ∀ p ∈ profile.requiredSteps, ∃ e ∈ j.trail,
        e.stepId = p ∧ e.closureReason.completes = true := by
  obtain ⟨hv, hob, -, horder⟩ := compile_keeps hsel h hel hspec
  obtain ⟨entry, packetId, hnew⟩ := hborn.new
  have hg := hob.graph hnew.isEntry
  have hacc : ∀ {cs s}, Path commits i cs s → (∀ c ∈ cs, Moves c) →
      Accounted s ([entry.id] ++ cs.flatMap launched) ∧ s.spec = i.spec := fun hpath hcs =>
    ⟨accounted_of_path hpath hcs (.of_born hborn hg hob.unmapped hnew.isEntry),
      (Running.of_born hborn hg).path_spec hpath⟩
  refine ⟨?_, ?_, ?_⟩
  · intro entry' he p hp hq hbefore
    have hneeds := (before_iff hv).mp (horder p hp _ hq hbefore)
    obtain ⟨d, hd, -⟩ := Relation.TransGen.head'_iff.mp hneeds
    exact (entry_root hv hg hob.unmapped he).1 d hd
  · intro cs s call t hpath hcs hstep hcall q hq hqr p hp hbefore
    obtain ⟨hs, hsspec⟩ := hacc hpath hcs
    have ht := hs.step hstep hcall
    have htspec : t.spec = i.spec := (hs.progressing.running.same_spec hstep).trans hsspec
    have hneeds := (before_iff hv).mp (horder p hp q hqr hbefore)
    have hdone : p ∈ (board t).done :=
      ht.progressing.sound.needs_done (created_started hs hstep hcall hq) (htspec ▸ hneeds)
    exact exists_completion ((isCompleted_iff ht.progressing.running.validated.nodup).mp hdone).1
  · intro cs j hpath hcs hc p hp
    obtain ⟨hj, hjspec⟩ := hacc hpath hcs
    obtain ⟨s, hs, rfl⟩ := List.mem_map.mp (hob.present p hp)
    exact hj.progressing.all_closed hc s (hjspec ▸ hs)

/-- A profile of three steps, the middle one not required. -/
def plainProfile : ProfileGraph where
  requiredSteps := ["intake", "close"]
  workflow := plainSpec
    [plainStep "intake" [], plainStep "build" ["intake"], plainStep "close" ["build"]] none

/-- A mission that replaces the step its profile does not require. -/
def plainManifests : Manifests where
  projectId := "project"
  missionName := "mission"
  projectPath := "project.yaml"
  missionPath := "mission.yaml"
  lifecycleProfile := some "factory"
  profiles := some [("factory", plainProfile)]
  boundary := some ⟨"factory", .override (plainSpec
    [plainStep "intake" [], plainStep "review" ["intake"], plainStep "close" ["review"]] none)⟩
  members := []
  sources := []
  commonRefs := []
  projectRef := id
  missionRef := id

/-- An override runs to its end. -/
theorem required_steps_hold_override :
    ∃ c i cs j,
      compileProjectLifecycle (fun _ _ _ => "digest") plainManifests (some "key") = .ok c ∧
      c.workflowSpec = some i.spec ∧ Born i ∧ Path commits i cs j ∧ j.status = .completed ∧
      ∀ p ∈ plainProfile.requiredSteps,
        ∃ e ∈ j.trail, e.stepId = p ∧ e.closureReason.completes = true := by
  let spec : WorkflowSpec := { plainSpec
    [plainStep "intake" [], plainStep "review" ["intake"], plainStep "close" ["review"]] none with
    version := "1-digest", contextRefs := some [] }
  have hsel : Selects plainManifests plainProfile := ⟨_, _, rfl, rfl, rfl⟩
  obtain ⟨c, hc, hel, hspec⟩ : ∃ c, compileProjectLifecycle (fun _ _ _ => "digest") plainManifests
      (some "key") = .ok c ∧ c.eligible = true ∧ c.workflowSpec = some spec :=
    ⟨_, rfl, by decide, by decide⟩
  obtain ⟨i, j, cs, hborn, hpath, hcalls, hp⟩ := exists_playFrom (plainWorkflowEnv 1 0)
    (plainInput spec)
    [(plainWorkflowEnv 2 10, plainClose (plainPacket 1 0 0) .done),
      (plainWorkflowEnv 3 20, plainClose (plainPacket 2 10 1) .handoff),
      (plainWorkflowEnv 4 30, plainClose (plainPacket 3 20 1) .done)]
    (fun _ _ => true) (fun i j => decide (i.spec = spec) && decide (j.status = .completed)) rfl
    (by decide)
  have hpath : Path commits i cs j := hpath.mono fun _ _ _ h => h.1
  simp only [Bool.and_eq_true, decide_eq_true_eq] at hp
  have hmoves : ∀ c ∈ cs, Moves c := by
    intro c hc
    have hmem : (c.env, c.call) ∈ cs.map fun c => (c.env, c.call) := List.mem_map_of_mem hc
    rw [hcalls] at hmem
    simp only [List.mem_cons, Prod.mk.injEq, List.not_mem_nil, or_false] at hmem
    rcases hmem with ⟨-, h⟩ | ⟨-, h⟩ | ⟨-, h⟩ <;> exact .inl ⟨_, h⟩
  have hbound : c.workflowSpec = some i.spec := hp.1 ▸ hspec
  have hkept := required_steps_hold hsel hc hel hborn hbound
  exact ⟨c, i, cs, j, hc, hbound, hborn, hpath, hp.2, hkept.2.2 cs j hpath hmoves hp.2⟩

end OpenRig.RequiredSteps
