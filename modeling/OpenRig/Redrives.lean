import OpenRig.GraphRevisions
import OpenRig.RowFrames

/-!
A branch failure is redriven at most once, and its redrive stays on its branch.

An occurrence is resolved by the redrive that records its packet and never changes again, so a
resume that names it is answered from the record. A redrive writes its packet, its binding and
its occurrence, and closes the failure's exception items; no packet of another branch is one of
these, so only a packet parked on one notices.
-/

namespace OpenRig.Redrives

open OpenRig.JsText OpenRig.Sessions OpenRig.QueueDb OpenRig.WorkflowTypes OpenRig.WorkflowStore
open OpenRig.WorkflowRouting OpenRig.WorkflowProjector OpenRig.WorkflowRuntime
open OpenRig.Instantiation OpenRig.GraphCalls OpenRig.FrontierBindings OpenRig.DaemonRuns
open OpenRig.GraphProgress OpenRig.GraphRevisions OpenRig.Reconciliation OpenRig.Propagation
  OpenRig.RowFrames
open OpenRig.Runs

/-! ### Exception tags of packets -/

/-- The tags make the row an exception item of no packet but its own. -/
def OwnTags (packetId : String) (tags : List String) : Prop :=
  "workflow-exception" ∈ tags → ∀ failed, "occurrence:" ++ failed ∈ tags → failed = packetId

/-- The packet has a row that is an exception item of no other packet. -/
def PacketRow (db : Db) (packetId : String) : Prop :=
  ∃ r, db.getById packetId = some r ∧ ∀ tags, r.tags = some tags → OwnTags packetId tags

lemma append_eq_iff {a b c : String} : a ++ b = a ++ c ↔ b = c := by
  constructor
  · intro h
    have := congrArg String.toList h
    simp only [String.toList_append] at this
    exact String.toList_inj.mp (List.append_cancel_left this)
  · rintro rfl
    rfl

lemma ne_of_heads {a b c d : String} (n : ℕ) (ha : a.toList.length = n) (hb : b.toList.length = n)
    (hne : a.toList ≠ b.toList) : a ++ c ≠ b ++ d := by
  intro h
  have := congrArg (fun s => s.toList.take n) h
  simp only [String.toList_append] at this
  rw [List.take_left' ha, List.take_left' hb] at this
  exact hne this

lemma scopeTag_form {s : WorkflowScope} {stepId t : String}
    (h : t ∈ packetScopeTags (some s) stepId) :
    isReservedTag t = false ∨ ∃ v,
      t = "project:" ++ v ∨ t = "mission:" ++ v ∨ t = "slice:" ++ v := by
  have hfold : ∀ (tags out : List String), t ∈ tags.foldl
      (fun out t => if out.contains t then out else out ++ [t]) out → t ∈ out ∨ t ∈ tags := by
    intro tags
    induction tags with
    | nil => exact fun out h => .inl h
    | cons a tags ih =>
      intro out h
      rw [List.foldl_cons] at h
      rcases ih _ h with h | h
      · split at h
        · exact .inl h
        · rcases List.mem_append.mp h with h | h
          · exact .inl h
          · exact .inr (List.mem_cons.mpr (.inl (List.mem_singleton.mp h)))
      · exact .inr (List.mem_cons_of_mem _ h)
  have htag : ∀ (name : String) (value : Option String),
      t ∈ (if truthy value then [name ++ value.getD ""] else []) → t = name ++ value.getD "" := by
    intro name value h
    split at h
    · exact List.mem_singleton.mp h
    · cases h
  unfold packetScopeTags at h
  rcases hfold _ _ h with h | h
  · right
    rcases List.mem_append.mp h with h | h
    · rcases List.mem_append.mp h with h | h
      · exact ⟨_, .inl (htag _ _ h)⟩
      · exact ⟨_, .inr (.inl (htag _ _ h))⟩
    · exact ⟨_, .inr (.inr (htag _ _ h))⟩
  · left
    have := List.all_eq_true.mp s.unreserved t h
    simpa using this

lemma scopeTag_plain {scope : Option WorkflowScope} {stepId t : String}
    (h : t ∈ packetScopeTags scope stepId) :
    t ≠ "workflow-exception" ∧ ∀ failed, t ≠ "occurrence:" ++ failed := by
  cases scope with
  | none => cases h
  | some s =>
    rcases scopeTag_form h with hr | ⟨v, rfl | rfl | rfl⟩
    · constructor
      · rintro rfl
        revert hr
        decide
      · rintro failed rfl
        have hpre : isReservedTag ("occurrence:" ++ failed) = true := by
          unfold isReservedTag
          rw [Bool.or_eq_true]
          right
          refine List.any_eq_true.mpr ⟨"occurrence:", by decide, ?_⟩
          unfold startsWith
          rw [String.toList_append]
          exact List.isPrefixOf_iff_prefix.mpr (List.prefix_append _ _)
        rw [hpre] at hr
        cases hr
    all_goals
      refine ⟨fun he => ?_, fun failed he => ?_⟩
      · exact absurd (congrArg (fun s => s.toList.head?) he) (by simp)
      · exact absurd (congrArg (fun s => s.toList.head?) he) (by simp)

lemma nameTag_plain (name : String) : "workflow:" ++ name ≠ "workflow-exception" :=
  ne_of_heads (b := "workflow-") (d := "exception") 9 (by decide) (by decide) (by decide)

lemma gateExceptionTags_own {i : InstanceRow} {gate : Option GateCompileResult}
    {stepId packetId failed : String}
    (h : "occurrence:" ++ failed ∈ gateExceptionTags i gate stepId packetId) :
    failed = packetId := by
  unfold gateExceptionTags at h
  split at h
  · have h := (List.mem_filter.mp h).1
    unfold workflowExceptionTags at h
    simp only [List.mem_append, List.mem_cons, List.not_mem_nil, or_false] at h
    rcases h with (((he | he | he) | he) | he | he)
    · exact absurd (congrArg (fun s => s.toList.head?) he) (by simp)
    · exact absurd (congrArg (fun s => s.toList.head?) he) (by simp)
    · exact absurd (congrArg (fun s => s.toList.head?) he) (by simp)
    · split at he
      · cases he
      · have he := List.mem_singleton.mp he
        exact absurd (congrArg (fun s => s.toList.head?) he) (by simp)
    · exact absurd (congrArg (fun s => s.toList.head?) he) (by simp)
    · exact append_eq_iff.mp he
  · cases h

lemma ownTags_entry (i : InstanceRow) (gate : Option GateCompileResult) (stepId packetId : String) :
    OwnTags packetId (entryTags i gate stepId packetId) := by
  intro _ failed h
  unfold entryTags at h
  simp only [List.mem_append, List.mem_cons, List.not_mem_nil, or_false] at h
  rcases h with ((he | he | he | he) | he) | he
  · exact absurd (congrArg (fun s => s.toList.head?) he) (by simp)
  · split at he
    · exact absurd (congrArg (fun s => s.toList.head?) he) (by simp)
    · exact absurd (congrArg (fun s => s.toList.head?) he) (by simp)
  · exact absurd (congrArg (fun s => s.toList.head?) he) (by simp)
  · exact absurd (congrArg (fun s => s.toList.head?) he) (by simp)
  · exact gateExceptionTags_own he
  · exact absurd rfl ((scopeTag_plain he).2 failed)

lemma packetTags_plain (i : InstanceRow) (gate : Option GateCompileResult) (stepId : String) :
    "workflow-exception" ∉ packetTags i gate ["step:" ++ stepId] stepId := by
  intro h
  unfold packetTags at h
  simp only [List.mem_append, List.mem_cons, List.not_mem_nil, or_false] at h
  rcases h with ((he | he | he | he) | he) | he
  · exact absurd he (by decide)
  · split at he
    · exact absurd he (by decide)
    · exact absurd he (by decide)
  · exact nameTag_plain _ he.symm
  · exact absurd (congrArg (fun s => s.toList.head?) he) (by simp)
  · exact absurd (congrArg (fun s => s.toList.head?) he) (by simp)
  · exact (scopeTag_plain he).1 rfl

lemma redriveTags_plain (i : InstanceRow) (stepId occurrence : String) :
    "workflow-exception" ∉ redriveTags i stepId ["occurrence:" ++ occurrence] := by
  intro h
  unfold redriveTags at h
  simp only [List.mem_append, List.mem_cons, List.not_mem_nil, or_false] at h
  rcases h with ((he | he | he | he) | he) | he
  · exact absurd he (by decide)
  · exact absurd he (by decide)
  · exact nameTag_plain _ he.symm
  · exact absurd (congrArg (fun s => s.toList.head?) he) (by simp)
  · exact absurd (congrArg (fun s => s.toList.head?) he) (by simp)
  · exact (scopeTag_plain he).1 rfl

lemma stored_subset {tags stored : List String}
    (h : withHumanAlertTag (some tags) none = some stored) : stored ⊆ tags := by
  unfold withHumanAlertTag at h
  simp only [Option.getD_some, reduceCtorEq, if_false, Option.isSome_some, if_true,
    Option.some.injEq] at h
  rw [← h]
  exact List.filter_sublist.subset

lemma packetRow_of_tags {db : Db} {q : String} {r : QueueItem} {tags : List String}
    (hr : db.getById q = some r) (ht : r.tags = withHumanAlertTag (some tags) none)
    (hown : OwnTags q tags) : PacketRow db q := by
  refine ⟨r, hr, fun stored hs hex failed hf => ?_⟩
  have hsub := stored_subset (ht.symm.trans hs)
  exact hown (hsub hex) failed (hsub hf)

lemma PacketRow.grows {db db' : Db} {q : String} (h : PacketRow db q) (hg : Grows db db') :
    PacketRow db' q := by
  obtain ⟨r, hr, hown⟩ := h
  obtain ⟨r', hr', ht⟩ := hg.tags q r hr
  exact ⟨r', hr', fun tags htags => hown tags (ht ▸ htags)⟩

lemma PacketRow.isSome {db : Db} {q : String} (h : PacketRow db q) :
    (db.getById q).isSome = true := by
  obtain ⟨r, hr, -⟩ := h
  simp [hr]

/-! ### What every state has -/

/-- **What the daemon keeps of a dependency-graph instance**: its packets have their rows, a failed
packet is off the frontier, and an occurrence is resolved exactly with a recorded packet. -/
structure Tracked (db : Db) (i : InstanceRow) : Prop where
  running : Running i
  isLive : i.status.isLive = true ↔ i.currentFrontier ≠ []
  packets : ∀ p ∈ i.currentFrontier, PacketRow db p
  failed : ∀ o ∈ i.occurrences.rows, o.failedPacketId = o.occurrenceId ∧
    o.failedPacketId ∉ i.currentFrontier ∧ (db.getById o.failedPacketId).isSome = true
  unresolved : ∀ o ∈ i.occurrences.rows, o.status = .unresolved → o.redrivePacketId = none
  resolved : ∀ o ∈ i.occurrences.rows, o.status = .resolved →
    ∃ p, o.redrivePacketId = some p ∧ p ≠ "" ∧ (db.getById p).isSome = true

lemma Tracked.grows {db db' : Db} {i : InstanceRow} (h : Tracked db i) (hg : Grows db db') :
    Tracked db' i := by
  refine ⟨h.running, h.isLive, fun p hp => (h.packets p hp).grows hg, fun o ho => ?_, h.unresolved,
    fun o ho hs => ?_⟩
  · obtain ⟨hid, hoff, hrow⟩ := h.failed o ho
    exact ⟨hid, hoff, hg.isSome hrow⟩
  · obtain ⟨p, hp, hne, hrow⟩ := h.resolved o ho hs
    exact ⟨p, hp, hne, hg.isSome hrow⟩

lemma newQitemId_ne_empty (env : Env) : newQitemId env ≠ "" := by
  intro h
  have := congrArg (fun s => s.toList.head?) h
  simp [newQitemId] at this

lemma graphStatus_isLive (db : Db) (i : InstanceRow) (frontier : List String) :
    (graphStatus db i frontier).isLive = true ↔ frontier ≠ [] := by
  unfold graphStatus
  cases frontier with
  | nil =>
    simp only [List.isEmpty_nil, Bool.not_true, Bool.false_eq_true, if_false, ne_eq,
      not_true_eq_false, iff_false]
    split <;> simp [InstanceStatus.isLive]
  | cons p rest =>
    simp only [List.isEmpty_cons, Bool.not_false, if_true, ne_eq, reduceCtorEq, not_false_eq_true,
      iff_true]
    split <;> simp [InstanceStatus.isLive]

lemma failure_creates_nothing {i : InstanceRow} {input : ProjectStepInput} {step : WorkflowStepSpec}
    {b : WorkflowFrontierBinding} {plan : GraphPlan} (h : planGraph i input step b = .ok plan)
    (hfail : plan.isFailureOccurrence = true) : plan.effectiveExit = .failed ∧ plan.next = [] := by
  obtain ⟨next, hplan⟩ := planGraph_eq_ok h
  rcases hplan.decided with ⟨-, -, hexit, hnil, -⟩ | ⟨-, hexit, hnext, hocc⟩
  · exact ⟨hexit, hnil⟩
  · rw [hocc] at hfail
    simp only [Bool.and_eq_true, decide_eq_true_eq, Option.isNone_iff_eq_none] at hfail
    obtain ⟨hf, hmap⟩ := hfail
    refine ⟨hexit.trans hf, hnext.trans ?_⟩
    rcases nextSteps_eq_ok hplan.routed with ⟨target, s, ht, -⟩ | ⟨-, hc, -⟩ | ⟨-, -, hnil⟩
    · rw [hmap] at ht
      cases ht
    · rw [hf] at hc
      cases hc
    · exact hnil

/-- **A close keeps the rows of the instance's packets.** -/
theorem Tracked.project {env : WorkflowEnv} {db db' : Db} {i j : InstanceRow}
    {input : ProjectStepInput} {r : ProjectStepResult} (hi : Tracked db i)
    (h : project env db i input = .ok (r, j, db')) : Tracked db' j := by
  have hgrow := project_grows h
  have hrunning : Running j := hi.running.step (c := ⟨env, db, .project input, .projected r, db'⟩)
    (by simp [commits, Call.run, h, Except.map])
  have hrows := project_rows hi.running.graph h
  rcases project_graph hi.running.graph h with ⟨_, _, -, -, rfl, rfl, -⟩ |
    ⟨step, b, plan, plans, hadv, hrep⟩
  · exact hi
  · have hfront := advance_frontier hadv
    rw [hrep.packets] at hrows
    have hold := hi.grows hgrow
    -- a packet on the new frontier was there before, or is one the close created
    have hmem : ∀ p ∈ j.currentFrontier, p ∈ i.currentFrontier ∨ p ∈ plans.map (·.packetId) := by
      intro p hp
      rw [hfront] at hp
      rcases List.mem_append.mp hp with hp | hp
      · exact .inl (List.mem_filter.mp hp).1
      · split at hp
        · rw [List.mem_singleton.mp hp]
          exact .inl hadv.onFrontier
        · exact .inr hp
    obtain ⟨db₂, hrow⟩ := hadv.row
    have hocc : ∀ o ∈ j.occurrences.rows, o ∈ i.occurrences.rows ∨
        (plan.isFailureOccurrence = true ∧
          o = failureOccurrence input b step.id plan.resultNote env.base.now) := by
      intro o ho
      rw [hadv.occurrences] at ho
      rcases List.mem_append.mp ho with ho | ho
      · exact .inl ho
      · split at ho
        · rename_i hfail
          exact .inr ⟨hfail, List.mem_singleton.mp ho⟩
        · cases ho
    refine ⟨hrunning, ?_, fun p hp => ?_, fun o ho => ?_, fun o ho hs => ?_, fun o ho hs => ?_⟩
    · rw [hrow]
      exact graphStatus_isLive _ _ _
    · rcases hmem p hp with hp | hp
      · exact hold.packets p hp
      · obtain ⟨-, gate, stepId, row, hr, ht⟩ := hrows p hp
        exact packetRow_of_tags hr ht fun hex => absurd hex (packetTags_plain i gate stepId)
    · rcases hocc o ho with ho | ⟨hfail, rfl⟩
      · obtain ⟨hid, hoff, hsome⟩ := hold.failed o ho
        refine ⟨hid, fun hp => ?_, hsome⟩
        rcases hmem _ hp with hp | hp
        · exact hoff hp
        · -- a created packet had no row, a failed one has
          have := (hi.failed o ho).2.2
          rw [(hrows _ hp).1] at this
          cases this
      · obtain ⟨hexit, hnil⟩ := failure_creates_nothing hadv.planned hfail
        have hplans : plans.map (·.packetId) = [] := by
          have hsteps := hadv.steps
          rw [hnil] at hsteps
          rw [List.map_eq_nil_iff.mp hsteps]
          rfl
        refine ⟨rfl, fun hp => ?_, (hold.packets _ hadv.onFrontier).isSome⟩
        rw [hfront, if_neg (by rw [hexit]; simp), hplans, List.append_nil] at hp
        have hne := (List.mem_filter.mp hp).2
        simp [failureOccurrence] at hne
    · rcases hocc o ho with ho | ⟨-, rfl⟩
      · exact hi.unresolved o ho hs
      · rfl
    · rcases hocc o ho with ho | ⟨-, rfl⟩
      · exact hold.resolved o ho hs
      · cases hs

/-! ### Redrives -/

/-- **A resume that redrives**: what it writes of the instance, and of the queue. -/
structure Redriven (env : WorkflowEnv) (db : Db) (i : InstanceRow) (input : ResumeInput)
    (o : WorkflowFailureOccurrence) (r : ResumeResult) (j : InstanceRow) (db' : Db) : Prop where
  redrive : Redrive env i input o j
  reports : Redrives r o (newQitemId (env.at 0))
  rows : ∃ db₁ stepId, Creates (newQitemId (env.at 0))
      (redriveTags i stepId ["occurrence:" ++ o.occurrenceId]) db db₁ ∧
    Edits (resolvedRow db₁ i.instanceId o.failedPacketId) db₁ db'

/-- A committed resume of a running instance replays a record without a write, or redrives. -/
theorem resume_cases {env : WorkflowEnv} {db db' : Db} {i j : InstanceRow} {input : ResumeInput}
    {r : ResumeResult} (hi : Running i) (h : resume env db i input = .ok (r, j, db')) :
    (∃ o, Replay db i input o r ∧ j = i ∧ db' = db) ∨
      ∃ o, Redriven env db i input o r j db' := by
  rcases resume_eq_ok h with h' | ⟨-, -⟩ | ⟨hocc, hstatus, -⟩
  · exact .inl h'
  · unfold resume at h
    split at h
    · unfold resumeFailureOccurrence at h
      split at h
      · rename_i o p hsel
        obtain ⟨o', hso, ho'⟩ := Option.bind_eq_some_iff.mp hsel
        split at ho'
        · rename_i hres
          obtain ⟨p', hp', hpair⟩ := Option.map_eq_some_iff.mp ho'
          cases hpair
          have hrec : o.redrivePacketId = some p := (Option.filter_eq_some_iff.mp hp').1
          exact .inl ⟨o, replayResume_eq_ok hso hres hrec h⟩
        · cases ho'
      · obtain ⟨o, ho, h⟩ := obind_eq_ok.mp h
        obtain ⟨hre, hrep⟩ := redriveOccurrence_row (chosenOccurrence_eq_ok ho) h
        exact .inr ⟨o, hre, hrep, redriveOccurrence_rows h⟩
    · rename_i hnone
      simp only [Bool.or_eq_true, not_or, Bool.not_eq_true, Bool.not_eq_false',
        List.isEmpty_iff] at hnone
      unfold resumeInstance at h
      obtain ⟨_, hstatus, -⟩ := obind_eq_ok.mp h
      exact (hi.not_stuck hnone.2 (by simpa using hstatus)).elim
  · exact (hi.not_stuck hocc hstatus).elim

section Redrives

variable {env : WorkflowEnv} {db db' : Db} {i j : InstanceRow} {input : ResumeInput}
  {o : WorkflowFailureOccurrence} {r : ResumeResult}

lemma Redriven.frontier (h : Redriven env db i input o r j db') :
    j.currentFrontier = i.currentFrontier ++ [newQitemId (env.at 0)] := by
  rw [h.redrive.row]
  rfl

lemma Redriven.fresh (h : Redriven env db i input o r j db') :
    db.getById (newQitemId (env.at 0)) = none := by
  obtain ⟨_, _, hc, -⟩ := h.rows
  exact hc.fresh

lemma Redriven.mem_occurrences (h : Redriven env db i input o r j db')
    (a : WorkflowFailureOccurrence) : a ∈ j.occurrences.rows ↔
      (a ∈ i.occurrences.rows ∧ a.occurrenceId ≠ o.occurrenceId) ∨
        a = { o with
          status := .resolved, redrivePacketId := some (newQitemId (env.at 0))
          resumeDecision := input.decision, resolvedAt := some env.base.now } := by
  have ho := h.redrive.chosen.mem
  rw [h.redrive.occurrences, List.mem_map]
  constructor
  · rintro ⟨x, hx, rfl⟩
    by_cases hid : x.occurrenceId = o.occurrenceId
    · obtain rfl := row_unique ho hx hid
      exact .inr (by simp)
    · rw [if_neg hid]
      exact .inl ⟨hx, hid⟩
  · rintro (⟨ha, hid⟩ | rfl)
    · exact ⟨a, ha, by simp [hid]⟩
    · exact ⟨o, ho, by simp⟩

/-- **A redrive keeps the rows of the instance's packets.** -/
theorem Redriven.tracked (h : Redriven env db i input o r j db') (hi : Tracked db i)
    (hj : Running j) : Tracked db' j := by
  obtain ⟨db₁, stepId, hc, hedits⟩ := h.rows
  have hgrow : Grows db db' := hc.frame.grows.and_then hedits.grows
  have hold := hi.grows hgrow
  obtain ⟨row, hrow, htags⟩ := hc.row
  obtain ⟨row', hrow', htags'⟩ := hedits.tags _ row hrow
  have hnew : PacketRow db' (newQitemId (env.at 0)) :=
    packetRow_of_tags hrow' (htags'.trans htags) fun hex =>
      absurd hex (redriveTags_plain i stepId o.occurrenceId)
  have hoff : ∀ a ∈ i.occurrences.rows, a.failedPacketId ∉ j.currentFrontier := by
    intro a ha hp
    rw [h.frontier, List.mem_append, List.mem_singleton] at hp
    obtain ⟨-, hfront, hsome⟩ := hi.failed a ha
    rcases hp with hp | hp
    · exact hfront hp
    · rw [hp, hc.fresh] at hsome
      cases hsome
  have ho := h.redrive.chosen.mem
  refine ⟨hj, ?_, fun p hp => ?_, fun a ha => ?_, fun a ha hs => ?_, fun a ha hs => ?_⟩
  · rw [h.frontier, h.redrive.row]
    simp [redriveRow, InstanceRow.updateFrontier, InstanceStatus.isLive]
  · rw [h.frontier, List.mem_append, List.mem_singleton] at hp
    rcases hp with hp | rfl
    · exact hold.packets p hp
    · exact hnew
  · rcases (h.mem_occurrences a).mp ha with ⟨ha, -⟩ | rfl
    · exact ⟨(hold.failed a ha).1, hoff a ha, (hold.failed a ha).2.2⟩
    · exact ⟨(hold.failed o ho).1, hoff o ho, (hold.failed o ho).2.2⟩
  · rcases (h.mem_occurrences a).mp ha with ⟨ha, -⟩ | rfl
    · exact hi.unresolved a ha hs
    · cases hs
  · rcases (h.mem_occurrences a).mp ha with ⟨ha, -⟩ | rfl
    · exact hold.resolved a ha hs
    · exact ⟨_, rfl, newQitemId_ne_empty _, hnew.isSome⟩

lemma Tracked.not_exceptionItem (hi : Tracked db i) (ho : o ∈ i.occurrences.rows) {p : String}
    (hp : p ∈ i.currentFrontier) {item : QueueItem}
    (hitem : item ∈ openExceptionItems db i.instanceId o.failedPacketId) : p ≠ item.qitemId := by
  rintro rfl
  obtain ⟨row, hrow, hown⟩ := hi.packets _ hp
  obtain ⟨hget, hopen⟩ := Table.mem_filter.mp hitem
  cases hrow.symm.trans hget
  simp only [Bool.and_eq_true, Option.any_eq_true, List.contains_eq_mem, decide_eq_true_eq] at hopen
  obtain ⟨-, tags, htags, ⟨hex, -⟩, hocc⟩ := hopen
  have := hown tags htags hex _ hocc
  exact (hi.failed o ho).2.1 (this ▸ hp)

/-- **A redrive leaves the rows of the other branches**, but for those parked on an open exception
item of the failure it resolves. -/
theorem Redriven.frame (h : Redriven env db i input o r j db') (hi : Tracked db i) {p : String}
    (hp : p ∈ i.currentFrontier)
    (hfree : ∀ item ∈ openExceptionItems db i.instanceId o.failedPacketId,
      ¬ parkedRow db p item.qitemId) : db'.getById p = db.getById p := by
  obtain ⟨db₁, stepId, hc, hedits⟩ := h.rows
  have hne : ∀ {k}, (db.getById k).isSome = true → k ≠ newQitemId (env.at 0) := by
    rintro k hk rfl
    rw [hc.fresh] at hk
    cases hk
  have hsame : db₁.getById p = db.getById p :=
    hc.frame.others p (hne (hi.packets p hp).isSome)
  rw [← hsame]
  refine hedits.others p ?_
  rintro ⟨item, hitem, hk⟩
  obtain ⟨hget, hopen⟩ := Table.mem_filter.mp hitem
  -- the redrive packet is no exception item, so each one was there before
  have hitemne : item.qitemId ≠ newQitemId (env.at 0) := by
    intro he
    obtain ⟨row, hrow, htags⟩ := hc.row
    have hget : db₁.getById item.qitemId = some item := hget
    rw [he, hrow] at hget
    cases hget
    simp only [Bool.and_eq_true, Option.any_eq_true, List.contains_eq_mem,
      decide_eq_true_eq] at hopen
    obtain ⟨-, tags, hst, ⟨hex, -⟩, -⟩ := hopen
    exact redriveTags_plain i stepId o.occurrenceId (stored_subset (htags.symm.trans hst) hex)
  have hold : item ∈ openExceptionItems db i.instanceId o.failedPacketId :=
    Table.mem_filter.mpr ⟨(hc.frame.others _ hitemne).symm.trans hget, hopen⟩
  rcases hk with rfl | ⟨row, hrow, hs, hb⟩
  · exact hi.not_exceptionItem h.redrive.chosen.mem hp hold rfl
  · exact hfree item hold ⟨row, hsame ▸ hrow, hs, hb⟩

end Redrives

/-! ### Runs -/

/-- **No act of a daemon deletes a row or rewrites its tags.** -/
theorem steps_grows {d d' : Daemon} {a : Act} (h : steps d a d') : Grows d.db d'.db := by
  cases steps_effect h with
  | queue hexec => exact exec_grows hexec
  | replayed => exact .of_items rfl
  | born hfresh =>
    obtain ⟨entry, boundRig, gate, owner, hc⟩ := instantiateFresh_eq_ok hfresh
    obtain ⟨-, i, hcreates⟩ := createInstance_creates hc
    exact hcreates.frame.grows.congr rfl
  | called _ hc => exact (run_grows hc).congr rfl
  | revised => exact .of_items rfl

lemma Tracked.of_new {d d' : Daemon} {a : Act} (h : steps d a d') {id : String} {j : InstanceRow}
    (hnone : d.instances.get? id = none) (hj : d'.instances.get? id = some j)
    (hg : j.spec.isDependencyGraph = true) : Tracked d'.db j := by
  obtain ⟨env, input, r, instances, db, hfresh, rfl, rfl, hborn, -⟩ := steps_born h hnone hj
  obtain ⟨entry, packetId, hnew⟩ := hborn.new
  obtain ⟨entry', boundRig, gate, owner, hc⟩ := instantiateFresh_eq_ok hfresh
  obtain ⟨hfront, i, hcreates⟩ := createInstance_creates hc
  refine ⟨.of_born hborn hg, ?_, fun p hp => ?_, fun o ho => ?_, fun o ho => ?_, fun o ho => ?_⟩
  · rw [hnew.frontier]
    simp [hnew.isLive]
  · rw [hfront, List.mem_singleton] at hp
    subst hp
    obtain ⟨row, hrow, htags⟩ := hcreates.row
    exact packetRow_of_tags hrow htags (ownTags_entry i gate entry'.id _)
  all_goals
    rw [hnew.occurrences] at ho
    cases ho

/-- What every state of a run has of the instance. -/
def Kept (id : String) (d : Daemon) : Prop :=
  ∀ i, d.instances.get? id = some i →
    Sustained i ∧ (i.spec.isDependencyGraph = true → Tracked d.db i)

lemma graph_iff {d : Daemon} {a : Act} {i j : InstanceRow} (hi : Sustained i)
    (h : RowStep d a i j) (ha : Advances i.instanceId a) :
    j.spec.isDependencyGraph = true ↔ i.spec.isDependencyGraph = true := by
  by_cases hplain : i.spec.isDependencyGraph = true ∧ Unmapped i.spec
  · have hj := hi.step h ha
    refine ⟨fun _ => hplain.1, fun _ => ?_⟩
    cases h with
    | untouched => exact hplain.1
    | called _ hc => rw [(commit_spec hc).1]; exact hplain.1
    | @revised env input receipt _ hact hid hrev =>
      obtain ⟨binding, c, proposed, hacc, rfl⟩ := hrev.accepted
      have hs : Standing (reviseLifecycle i binding c proposed receipt) :=
        (hi.standing hplain.1 hplain.2).revised (compatible_of_accepted hacc)
      exact hs.progressing.running.graph
  · rw [(hi.same_spec h hplain).1]

/-- **One act keeps what is tracked.** -/
theorem Tracked.step {d d' : Daemon} {a : Act} (hstep : steps d a d') {i j : InstanceRow}
    (hi : Tracked d.db i) (hs : Sustained i) (hid : d.instances.get? i.instanceId = some i)
    (hj : d'.instances.get? i.instanceId = some j) (ha : Advances i.instanceId a) :
    Tracked d'.db j := by
  have hgrow := steps_grows hstep
  obtain ⟨j', hj', hrow⟩ := steps_row hstep hid
  obtain rfl : j' = j := Option.some.inj (hj'.symm.trans hj)
  cases hrow with
  | untouched => exact hi.grows hgrow
  | @called env call reply _ after hact hc =>
    subst hact
    -- the call was one on the daemon's own tables
    obtain ⟨i', reply', k, after', hi', hrun, rfl⟩ := steps_call hstep
    obtain rfl : i' = i := Option.some.inj (hi'.symm.trans hid)
    have hsame : (reply', k, after') = (reply, j', after) := Except.ok.inj (hrun.symm.trans hc)
    cases hsame
    have hrunning : Running j' := hi.running.step hc
    suffices h : Tracked after j' from h.grows (.of_items rfl)
    rcases ha env call rfl with ⟨input, rfl⟩ | ⟨input, rfl⟩
    · obtain ⟨r, -, h⟩ := run_project hrun
      exact hi.project h
    · obtain ⟨r, -, h⟩ := run_resume hrun
      rcases resume_cases hi.running h with ⟨o, -, rfl, rfl⟩ | ⟨o, hre⟩
      · exact hi
      · exact hre.tracked hi hrunning
  | @revised env input receipt _ hact _ hrev =>
    have hold := hi.grows hgrow
    obtain ⟨binding, c, proposed, hacc, rfl⟩ := hrev.accepted
    have hcompat := compatible_of_accepted hacc
    obtain ⟨hg, hu⟩ := hcompat.plain hs
    have hst : Standing (reviseLifecycle i binding c proposed receipt) :=
      (hs.standing hg hu).revised hcompat
    exact ⟨hst.progressing.running, hold.isLive, hold.packets, hold.failed, hold.unresolved,
      hold.resolved⟩

lemma Kept.step {id : String} {d d' : Daemon} {a : Act} (hd : Kept id d) (hstep : steps d a d')
    (ha : Advances id a) : Kept id d' := by
  intro j hj
  cases hi : d.instances.get? id with
  | none =>
    obtain ⟨hborn, hnil⟩ := steps_new hstep hi hj
    exact ⟨.of_born hborn hnil, .of_new hstep hi hj⟩
  | some i =>
    obtain ⟨j', hj', hrow⟩ := steps_row hstep hi
    obtain rfl : j' = j := Option.some.inj (hj'.symm.trans hj)
    have hid : i.instanceId = id := Table.get?_key hi
    subst hid
    obtain ⟨hs, ht⟩ := hd i hi
    refine ⟨hs.step hrow ha, fun hg => ?_⟩
    exact (ht ((graph_iff hs hrow ha).mp hg)).step hstep hs hi hj ha

/-- **Every state of a run tracks the instance.** -/
theorem kept_of_path {id : String} {d d' : Daemon} {acts : List Act} (h : Path steps d acts d')
    (hacts : ∀ a ∈ acts, Advances id a) (hd : Kept id d) : Kept id d' :=
  h.invariant_of_labels (p := Advances id) (I := Kept id)
    (fun _ _ _ ha hstep hs => hs.step hstep ha) hacts hd

lemma kept_fresh (id : String) : Kept id .fresh := fun _ hi => (by cases hi)

/-! ### Resolved occurrences -/

/-- **A resolved occurrence never changes.** -/
lemma resolved_step {d d' : Daemon} {a : Act} (hstep : steps d a d') {i j : InstanceRow}
    (hi : Tracked d.db i) (hid : d.instances.get? i.instanceId = some i)
    (hj : d'.instances.get? i.instanceId = some j) (ha : Advances i.instanceId a)
    {o : WorkflowFailureOccurrence} (ho : o ∈ i.occurrences.rows) (hres : o.status = .resolved) :
    o ∈ j.occurrences.rows := by
  obtain ⟨j', hj', hrow⟩ := steps_row hstep hid
  obtain rfl : j' = j := Option.some.inj (hj'.symm.trans hj)
  cases hrow with
  | untouched => exact ho
  | @called env call reply _ after hact hc =>
    rcases ha env call hact with ⟨input, rfl⟩ | ⟨input, rfl⟩
    · obtain ⟨r, -, h⟩ := run_project hc
      rcases project_graph hi.running.graph h with ⟨_, _, -, -, rfl, -⟩ | ⟨_, _, _, _, hadv, -⟩
      · exact ho
      · rw [hadv.occurrences]
        exact List.mem_append_left _ ho
    · obtain ⟨r, -, h⟩ := run_resume hc
      rcases resume_cases hi.running h with ⟨_, -, rfl, -⟩ | ⟨o', hre⟩
      · exact ho
      · refine (hre.mem_occurrences o).mpr (.inl ⟨ho, fun he => ?_⟩)
        -- the redriven occurrence was unresolved
        obtain rfl := row_unique hre.redrive.chosen.mem ho he
        have hopen := hre.redrive.chosen.unresolved
        rw [hres] at hopen
        cases hopen
  | revised _ _ hrev =>
    obtain ⟨binding, c, proposed, -, rfl⟩ := hrev.accepted
    exact ho

theorem resolved_of_path {d d' : Daemon} {acts : List Act} (h : Path steps d acts d') {id : String}
    (hacts : ∀ a ∈ acts, Advances id a) (hd : Kept id d) {i : InstanceRow}
    (hi : d.instances.get? id = some i) (hg : i.spec.isDependencyGraph = true) :
    ∃ j, d'.instances.get? id = some j ∧ j.spec.isDependencyGraph = true ∧
      ∀ o ∈ i.occurrences.rows, o.status = .resolved → o ∈ j.occurrences.rows := by
  have : Kept id d' ∧ ∃ j, d'.instances.get? id = some j ∧ j.spec.isDependencyGraph = true ∧
      ∀ o ∈ i.occurrences.rows, o.status = .resolved → o ∈ j.occurrences.rows := by
    refine h.invariant_of_labels (p := Advances id)
      (I := fun d : Daemon => Kept id d ∧ ∃ j, d.instances.get? id = some j ∧
        j.spec.isDependencyGraph = true ∧
        ∀ o ∈ i.occurrences.rows, o.status = .resolved → o ∈ j.occurrences.rows) ?_ hacts
      ⟨hd, i, hi, hg, fun o ho _ => ho⟩
    rintro s a t ha hstep ⟨hs, j, hj, hgj, hocc⟩
    have hid : j.instanceId = id := Table.get?_key hj
    subst hid
    obtain ⟨k, hk, hrow⟩ := steps_row hstep hj
    obtain ⟨hsus, htrack⟩ := hs j hj
    refine ⟨hs.step hstep ha, k, hk, (graph_iff hsus hrow ha).mpr hgj, fun o ho hres => ?_⟩
    exact resolved_step hstep (htrack hgj) hj hk ha (hocc o ho hres) hres
  exact this.2

/-- **A resume that names a resolved occurrence** is answered from its record: the same decision
with the recorded packet, any other with a refusal, and nothing is written. -/
theorem resume_resolved {db : Db} {i : InstanceRow} (hi : Tracked db i)
    {o : WorkflowFailureOccurrence} (ho : o ∈ i.occurrences.rows) (hres : o.status = .resolved)
    (env : WorkflowEnv) (input : ResumeInput) (hnamed : input.named = some o.occurrenceId) :
    (input.decision = o.resumeDecision → ∃ r, resume env db i input = .ok (r, i, db) ∧
      o.redrivePacketId = some r.newPacketId ∧ r.absorbedReplay = true) ∧
    (input.decision ≠ o.resumeDecision → ∃ message, resume env db i input =
      .error (.workflow .failureOccurrenceReplayConflict message)) := by
  obtain ⟨p, hp, hne, hrow⟩ := hi.resolved o ho hres
  obtain ⟨packet, hpacket⟩ := Option.isSome_iff_exists.mp hrow
  have hsel : selectedOccurrence i input = some o := by
    unfold selectedOccurrence
    rw [hnamed]
    exact Table.get?_eq_some.mpr ⟨ho, rfl⟩
  have hresume : resume env db i input = replayResume db i input o p := by
    unfold resume resumeFailureOccurrence
    simp [hnamed, hsel, hres, hp, Option.filter, hne]
  rw [hresume]
  unfold replayResume
  constructor
  · intro hdec
    refine ⟨{ stepId := o.stepId, newPacketId := p, ownerSession := packet.destinationSession,
              resumeCount := i.resumeCount, exceptionItemsClosed := 0, absorbedReplay := true },
      ?_, hp, rfl⟩
    simp [hdec, hpacket, rejectIf, bind, Except.bind, pure, Except.pure]
  · intro hdec
    refine ⟨
      s!"failure occurrence {o.occurrenceId} was already resumed with different decision bytes", ?_⟩
    have hdec : ¬ o.resumeDecision = input.decision := fun h => hdec h.symm
    simp [hdec, rejectIf, reject, bind, Except.bind]

/-! ### Redrive packets -/

/-- The packet an act's resume created for the instance, unless the act replayed a record. -/
def redriveOf (id : String) (d : Daemon) : Act → List String
  | .call env target (.resume input) =>
    if target = id then
      match (d.instances.get? id).map fun i => resume env d.db i input with
      | some (.ok (r, _, _)) => if r.absorbedReplay then [] else [r.newPacketId]
      | _ => []
    else []
  | _ => []

/-- The packets the resumes of a list of acts created for the instance. -/
def redriveLog (id : String) : Daemon → List Act → List String
  | _, [] => []
  | d, a :: acts => redriveOf id d a ++
    match a.run d with
    | some d' => redriveLog id d' acts
    | none => []

/-- The redrive packets the instance's occurrences record. -/
def recordedRedrives (id : String) (d : Daemon) : List String :=
  match d.instances.get? id with
  | some i => i.occurrences.rows.filterMap (·.redrivePacketId)
  | none => []

lemma recordedRedrives_of {id : String} {d : Daemon} {i : InstanceRow}
    (hi : d.instances.get? id = some i) :
    recordedRedrives id d = i.occurrences.rows.filterMap (·.redrivePacketId) := by
  unfold recordedRedrives
  rw [hi]

lemma filterMap_resolve {o : WorkflowFailureOccurrence} {p : String} {decision : Option String}
    {now : Time} : ∀ {rows : List WorkflowFailureOccurrence},
      (rows.map (·.occurrenceId)).Nodup → o ∈ rows → o.redrivePacketId = none →
      ((rows.map fun a => if a.occurrenceId = o.occurrenceId then
        { a with
          status := .resolved, redrivePacketId := some p
          resumeDecision := decision, resolvedAt := some now } else a).filterMap
        (·.redrivePacketId)).Perm (rows.filterMap (·.redrivePacketId) ++ [p]) := by
  intro rows
  induction rows with
  | nil => exact fun _ ho => absurd ho (by simp)
  | cons a rows ih =>
    intro hnodup ho hnone
    rw [List.map_cons, List.nodup_cons] at hnodup
    obtain ⟨hfresh, hnodup⟩ := hnodup
    rcases List.mem_cons.mp ho with rfl | ho
    · have hrest : rows.map (fun a => if a.occurrenceId = o.occurrenceId then
          { a with
            status := .resolved, redrivePacketId := some p
            resumeDecision := decision, resolvedAt := some now } else a) = rows := by
        conv_rhs => rw [← List.map_id rows]
        refine List.map_congr_left fun x hx => ?_
        have hne : ¬ x.occurrenceId = o.occurrenceId := fun he =>
          hfresh (he ▸ List.mem_map_of_mem hx)
        simp [hne]
      rw [List.map_cons, hrest, if_pos rfl]
      simp only [List.filterMap_cons, hnone]
      exact (List.perm_append_singleton p _).symm
    · have hne : ¬ a.occurrenceId = o.occurrenceId := fun he =>
        hfresh (he ▸ List.mem_map_of_mem ho)
      rw [List.map_cons, if_neg hne]
      have hperm := ih hnodup ho hnone
      cases ha : a.redrivePacketId with
      | none =>
        simp only [List.filterMap_cons, ha]
        exact hperm
      | some q =>
        simp only [List.filterMap_cons, ha]
        exact hperm.cons q

lemma recordedRedrives_quiet {id : String} {d d' : Daemon} {a : Act} (hstep : steps d a d')
    (hquiet : ∀ env c, a ≠ .call env id c) : recordedRedrives id d' = recordedRedrives id d := by
  cases hi : d.instances.get? id with
  | none =>
    have hbefore : recordedRedrives id d = [] := by
      unfold recordedRedrives
      rw [hi]
    rw [hbefore]
    cases hj : d'.instances.get? id with
    | none =>
      unfold recordedRedrives
      rw [hj]
    | some j =>
      obtain ⟨entry, packetId, hnew⟩ := (steps_new hstep hi hj).1.new
      rw [recordedRedrives_of hj, hnew.occurrences]
      rfl
  | some i =>
    obtain ⟨j, hj, hrow⟩ := steps_row hstep hi
    rw [recordedRedrives_of hi, recordedRedrives_of hj]
    cases hrow with
    | untouched => rfl
    | called hact => exact absurd hact (by rw [Table.get?_key hi]; exact hquiet _ _)
    | revised _ _ hrev =>
      obtain ⟨binding, c, proposed, -, rfl⟩ := hrev.accepted
      rfl

/-- **One act**: the occurrences record the packets its resumes created. -/
lemma recordedRedrives_step {id : String} {d d' : Daemon} {a : Act} (hd : Kept id d)
    (hgraph : ∀ i, d.instances.get? id = some i → i.spec.isDependencyGraph = true)
    (hstep : steps d a d') (ha : Advances id a) :
    (recordedRedrives id d').Perm (recordedRedrives id d ++ redriveOf id d a) := by
  by_cases hcall : ∃ env c, a = .call env id c
  · obtain ⟨env, c, rfl⟩ := hcall
    obtain ⟨i, reply, j, after, hi, hrun, rfl⟩ := steps_call hstep
    have hid : i.instanceId = id := Table.get?_key hi
    have hjid : j.instanceId = id := (congrArg Prod.fst (run_identity hrun)).trans hid
    have hj : (Daemon.write after (putInstance d.instances j)).instances.get? id = some j := by
      change (putInstance d.instances j).get? id = some j
      rw [get?_putInstance (hjid ▸ hi), if_pos hjid.symm]
    have hg := hgraph i hi
    have htrack := (hd i hi).2 hg
    rw [recordedRedrives_of hi, recordedRedrives_of hj]
    rcases ha env c rfl with ⟨input, rfl⟩ | ⟨input, rfl⟩
    · obtain ⟨r, -, h⟩ := run_project hrun
      have hlog : redriveOf id d (.call env id (.project input)) = [] := rfl
      rw [hlog, List.append_nil]
      rcases project_graph hg h with ⟨_, _, -, -, rfl, -⟩ | ⟨_, _, plan, _, hadv, -⟩
      · exact .refl _
      · rw [hadv.occurrences, List.filterMap_append]
        split
        · simp [failureOccurrence]
        · simp
    · obtain ⟨r, -, h⟩ := run_resume hrun
      have hlog : redriveOf id d (.call env id (.resume input)) =
          if r.absorbedReplay then [] else [r.newPacketId] := by
        unfold redriveOf
        simp [hi, h]
      rw [hlog]
      rcases resume_cases htrack.running h with ⟨o, hreplay, rfl, -⟩ | ⟨o, hre⟩
      · rw [hreplay.absorbed]
        simp
      · rw [hre.reports.written, hre.reports.newPacketId, hre.redrive.occurrences]
        exact filterMap_resolve i.occurrences.nodup hre.redrive.chosen.mem
          (htrack.unresolved o hre.redrive.chosen.mem hre.redrive.chosen.unresolved)
  · have hquiet : ∀ env c, a ≠ .call env id c := fun env c he => hcall ⟨env, c, he⟩
    have hlog : redriveOf id d a = [] := by
      cases a with
      | call env target c =>
        cases c with
        | resume input =>
          have hne : target ≠ id := fun he => hquiet env (.resume input) (he ▸ rfl)
          simp [redriveOf, hne]
        | _ => rfl
      | _ => rfl
    rw [recordedRedrives_quiet hstep hquiet, hlog, List.append_nil]

lemma graph_of_path {id : String} {d d' : Daemon} {acts : List Act} (h : Path steps d acts d')
    (hacts : ∀ a ∈ acts, Advances id a) (hd : Kept id d) {j : InstanceRow}
    (hj : d'.instances.get? id = some j) (hg : j.spec.isDependencyGraph = true) {i : InstanceRow}
    (hi : d.instances.get? id = some i) : i.spec.isDependencyGraph = true := by
  have : Kept id d' ∧ ∃ k, d'.instances.get? id = some k ∧
      (k.spec.isDependencyGraph = true → i.spec.isDependencyGraph = true) := by
    refine h.invariant_of_labels (p := Advances id)
      (I := fun d : Daemon => Kept id d ∧ ∃ k, d.instances.get? id = some k ∧
        (k.spec.isDependencyGraph = true → i.spec.isDependencyGraph = true)) ?_ hacts
      ⟨hd, i, hi, fun hg => hg⟩
    rintro s a t ha hstep ⟨hs, k, hk, himp⟩
    have hid : k.instanceId = id := Table.get?_key hk
    subst hid
    obtain ⟨l, hl, hrow⟩ := steps_row hstep hk
    exact ⟨hs.step hstep ha, l, hl, fun hgl => himp ((graph_iff (hs k hk).1 hrow ha).mp hgl)⟩
  obtain ⟨-, k, hk, himp⟩ := this
  obtain rfl : k = j := Option.some.inj (hk.symm.trans hj)
  exact himp hg

/-- **The packets a run's resumes created are the ones its occurrences record**, one each. -/
theorem redriveLog_perm {id : String} {d d' : Daemon} {acts : List Act}
    (h : Path steps d acts d') (hacts : ∀ a ∈ acts, Advances id a) (hd : Kept id d)
    {j : InstanceRow} (hj : d'.instances.get? id = some j)
    (hg : j.spec.isDependencyGraph = true) :
    (recordedRedrives id d').Perm (recordedRedrives id d ++ redriveLog id d acts) := by
  induction h with
  | nil => simp [redriveLog]
  | @cons d d₁ d' a acts hstep hrest ih =>
    have hpath : Path steps d (a :: acts) d' := .cons hstep hrest
    have ha : Advances id a := hacts a List.mem_cons_self
    have hrest' : ∀ b ∈ acts, Advances id b := fun b hb => hacts b (List.mem_cons_of_mem _ hb)
    have hone := recordedRedrives_step hd
      (fun i hi => graph_of_path hpath hacts hd hj hg hi) hstep ha
    have hlog : redriveLog id d (a :: acts) = redriveOf id d a ++ redriveLog id d₁ acts := by
      have hrun : a.run d = some d₁ := hstep
      simp [redriveLog, hrun]
    rw [hlog, ← List.append_assoc]
    exact (ih hrest' (hd.step hstep ha) hj).trans (hone.append_right _)

/-! ### The result -/

/-- **A redrive stays on its branch**: of the instance it writes one occurrence, one packet and its
binding, and of the other packets' rows only those parked on an exception item of the failure. -/
structure Separate (env : WorkflowEnv) (db : Db) (i : InstanceRow) (input : ResumeInput)
    (o : WorkflowFailureOccurrence) (r : ResumeResult) (j : InstanceRow) (db' : Db) : Prop where
  chosen : Chosen i input o
  occurrences : ∀ a, a ∈ j.occurrences.rows ↔
    (a ∈ i.occurrences.rows ∧ a.occurrenceId ≠ o.occurrenceId) ∨
      a = { o with
        status := .resolved, redrivePacketId := some r.newPacketId
        resumeDecision := input.decision, resolvedAt := some env.base.now }
  frontier : j.currentFrontier = i.currentFrontier ++ [r.newPacketId]
  bindings : ∀ p ∈ i.currentFrontier, j.getFrontierBinding p = i.getFrontierBinding p
  rows : ∀ p ∈ i.currentFrontier,
    (∀ item ∈ openExceptionItems db i.instanceId o.failedPacketId,
      ¬ parkedRow db p item.qitemId) → db'.getById p = db.getById p
  history : j.trail = i.trail ∧ j.hopCount = i.hopCount
  status : j.status = .active

lemma Redriven.separate {env : WorkflowEnv} {db db' : Db} {i j : InstanceRow} {input : ResumeInput}
    {o : WorkflowFailureOccurrence} {r : ResumeResult} (h : Redriven env db i input o r j db')
    (hi : Tracked db i) : Separate env db i input o r j db' := by
  have hpacket := h.reports.newPacketId
  refine ⟨h.redrive.chosen, fun a => ?_, ?_, fun p hp => ?_, fun p hp hfree => h.frame hi hp hfree,
    ?_, ?_⟩
  · rw [hpacket]
    exact h.mem_occurrences a
  · rw [hpacket]
    exact h.frontier
  · have hne : p ≠ newQitemId (env.at 0) := by
      rintro rfl
      have := (hi.packets _ hp).isSome
      rw [h.fresh] at this
      cases this
    have hne' : ¬ newQitemId (env.at 0) = p := fun he => hne he.symm
    unfold InstanceRow.getFrontierBinding Table.get?
    rw [h.redrive.bindings, List.find?_append]
    simp [redriveBinding, hne']
  · rw [h.redrive.row]
    exact ⟨rfl, rfl⟩
  · rw [h.redrive.row]
    rfl

/-- **A branch failure is redriven at most once, on its own branch.** In every state of a daemon's
run whose calls on a dependency graph project exits and redrive failures: the packets its resumes
created are the recorded ones, one for each resolved occurrence; from then on a resume that names
the occurrence is answered from the record or refused; and a redrive is `Separate`. -/
theorem redrives_hold {d d' : Daemon} {acts acts' : List Act} {id : String} {i : InstanceRow}
    (hreach : Path steps .fresh acts d) (hrun : Path steps d acts' d')
    (hacts : ∀ a ∈ acts ++ acts', Advances id a) (hi : d.instances.get? id = some i)
    (hg : i.spec.isDependencyGraph = true) :
    (i.occurrences.rows.filterMap (·.redrivePacketId)).Perm (redriveLog id .fresh acts) ∧
    (∀ o ∈ i.occurrences.rows, o.status = .resolved → ∃ j, d'.instances.get? id = some j ∧
      ∀ env input, input.named = some o.occurrenceId →
        (input.decision = o.resumeDecision → ∃ r, resume env d'.db j input = .ok (r, j, d'.db) ∧
          o.redrivePacketId = some r.newPacketId ∧ r.absorbedReplay = true) ∧
        (input.decision ≠ o.resumeDecision → ∃ message, resume env d'.db j input =
          .error (.workflow .failureOccurrenceReplayConflict message))) ∧
    (∀ env input r j db, resume env d.db i input = .ok (r, j, db) →
      if r.absorbedReplay then j = i ∧ db = d.db
      else ∃ o, Separate env d.db i input o r j db) ∧
    (i.status.isLive = true ↔ i.currentFrontier ≠ []) := by
  have hbefore : ∀ a ∈ acts, Advances id a := fun a ha => hacts a (List.mem_append_left _ ha)
  have hafter : ∀ a ∈ acts', Advances id a := fun a ha => hacts a (List.mem_append_right _ ha)
  have hkept := kept_of_path hreach hbefore (kept_fresh id)
  have htrack := (hkept i hi).2 hg
  refine ⟨?_, fun o ho hres => ?_, fun env input r j db h => ?_, htrack.isLive⟩
  · have hperm := redriveLog_perm hreach hbefore (kept_fresh id) hi hg
    rwa [recordedRedrives_of hi] at hperm
  · obtain ⟨j, hj, hgj, hocc⟩ := resolved_of_path hrun hafter hkept hi hg
    have htrackj := (kept_of_path hrun hafter hkept j hj).2 hgj
    exact ⟨j, hj, fun env input hnamed => resume_resolved htrackj (hocc o ho hres) hres env input
      hnamed⟩
  · rcases resume_cases htrack.running h with ⟨o, hreplay, rfl, rfl⟩ | ⟨o, hre⟩
    · rw [hreplay.absorbed]
      exact ⟨rfl, rfl⟩
    · rw [hre.reports.written]
      exact ⟨o, hre.separate htrack⟩

/-- The resume of the examples, unnamed or by name. -/
def plainResume (occurrence : Option String) : ResumeInput where
  occurrenceId := occurrence
  decision := some "again"
  actorSession := "lead@rig"

def failedBranchActs : List Act :=
  [.instantiate (plainWorkflowEnv 1 0) (plainInput (plainSpec [plainStep "intake" [],
      plainStep "a" ["intake"], plainStep "b" ["intake"]] none)),
    .call (plainWorkflowEnv 2 10) "instance" (plainClose (plainPacket 1 0 0) .done),
    .call (plainWorkflowEnv 3 20) "instance" (plainClose (plainPacket 2 10 1) .failed)]

/-- The failure is redriven without a name, and the second branch fails. -/
def redrivenBranchActs : List Act :=
  failedBranchActs ++
    [.call (plainWorkflowEnv 4 30) "instance" (.resume (plainResume none)),
      .call (plainWorkflowEnv 5 40) "instance" (plainClose (plainPacket 2 10 2) .failed)]

/-- The second branch waits for the first one's exception item. -/
def parkedBranchActs : List Act :=
  failedBranchActs ++
    [.call (plainWorkflowEnv 4 30) "instance" (.project
      { instanceId := "instance", currentPacketId := plainPacket 2 10 2, exit := .waiting
        actorSession := "dev@rig", blockedOn := some (plainPacket 3 20 1) })]

lemma branchActs_advance : (∀ a ∈ redrivenBranchActs, Advances "instance" a) ∧
    ∀ a ∈ parkedBranchActs, Advances "instance" a := by
  constructor
  · intro a ha env c hc
    simp only [redrivenBranchActs, failedBranchActs, List.mem_cons, List.not_mem_nil, or_false,
      List.cons_append, List.nil_append] at ha
    rcases ha with rfl | rfl | rfl | rfl | rfl <;> cases hc
    · exact .inl ⟨_, rfl⟩
    · exact .inl ⟨_, rfl⟩
    · exact .inr ⟨_, rfl⟩
    · exact .inl ⟨_, rfl⟩
  · intro a ha env c hc
    simp only [parkedBranchActs, failedBranchActs, List.mem_cons, List.not_mem_nil, or_false,
      List.cons_append, List.nil_append] at ha
    rcases ha with rfl | rfl | rfl | rfl <;> cases hc
    · exact .inl ⟨_, rfl⟩
    · exact .inl ⟨_, rfl⟩
    · exact .inl ⟨_, rfl⟩

/-- The failed branch is redriven, the other fails, and the first resume is repeated by name. -/
theorem redrives_hold_branch :
    ∃ d j r, Path steps .fresh redrivenBranchActs d ∧ d.instances.get? "instance" = some j ∧
      resume (plainWorkflowEnv 6 50) d.db j (plainResume (some (plainPacket 2 10 1))) =
        .ok (r, j, d.db) ∧ r.newPacketId = plainPacket 4 30 0 := by
  obtain ⟨d', hrun, -⟩ := exists_runActs redrivenBranchActs (fun _ => true) (by decide)
  obtain ⟨d, hbefore, hafter⟩ := Path.append_iff.mp (show Path steps .fresh
    (redrivenBranchActs.take 4 ++ redrivenBranchActs.drop 4) d' from hrun)
  have hq := of_runActs hbefore (fun d => (d.instances.get? "instance").any fun i =>
    i.spec.isDependencyGraph && i.occurrences.rows.any fun o =>
      o.occurrenceId = plainPacket 2 10 1 && o.status = .resolved &&
        o.redrivePacketId = some (plainPacket 4 30 0) && o.resumeDecision = some "again")
    (by decide)
  obtain ⟨i, hi, hq⟩ := (Option.any_eq_true _ _).mp hq
  obtain ⟨hg, hq⟩ := Bool.and_eq_true_iff.mp hq
  obtain ⟨o, ho, hq⟩ := List.any_eq_true.mp hq
  simp only [Bool.and_eq_true, decide_eq_true_eq] at hq
  obtain ⟨⟨⟨hid, hres⟩, hp⟩, hdec⟩ := hq
  have hnamed : (plainResume (some (plainPacket 2 10 1))).named = some o.occurrenceId := by
    rw [hid]
    decide
  obtain ⟨j, hj, hrepeat⟩ :=
    (redrives_hold hbefore hafter branchActs_advance.1 hi hg).2.1 o ho hres
  obtain ⟨r, hr, hrec, -⟩ := (hrepeat (plainWorkflowEnv 6 50) _ hnamed).1 hdec.symm
  rw [hp, Option.some.injEq] at hrec
  exact ⟨d', j, r, hrun, hj, hr, hrec.symm⟩

/-- **Unnamed repeats and parked packets.** The identical unnamed resume, once another branch has
failed, redrives that one; and a live packet parked on the failure's exception item is released. -/
theorem resume_repeats_elsewhere :
    (∃ d i, Path steps .fresh redrivenBranchActs d ∧ d.instances.get? "instance" = some i ∧
      ∃ r j db, resume (plainWorkflowEnv 6 50) d.db i (plainResume none) = .ok (r, j, db) ∧
        r.absorbedReplay = false) ∧
    ∃ d i, Path steps .fresh parkedBranchActs d ∧ d.instances.get? "instance" = some i ∧
      ∃ r j db, resume (plainWorkflowEnv 5 40) d.db i (plainResume none) = .ok (r, j, db) ∧
        r.absorbedReplay = false ∧ plainPacket 2 10 2 ∈ i.currentFrontier ∧
        db.getById (plainPacket 2 10 2) ≠ d.db.getById (plainPacket 2 10 2) := by
  constructor
  · obtain ⟨d, hrun, hp⟩ := exists_runActs redrivenBranchActs
      (fun d => (d.instances.get? "instance").any fun i =>
        (resume (plainWorkflowEnv 6 50) d.db i (plainResume none)).toOption.any fun x =>
          !x.1.absorbedReplay) (by decide)
    obtain ⟨i, hi, hp⟩ := (Option.any_eq_true _ _).mp hp
    obtain ⟨⟨r, j, db⟩, hres, hp⟩ := (Option.any_eq_true _ _).mp hp
    exact ⟨d, i, hrun, hi, r, j, db, toOption_eq_some.mp hres, by simpa using hp⟩
  · obtain ⟨d, hrun, hp⟩ := exists_runActs parkedBranchActs
      (fun d => (d.instances.get? "instance").any fun i =>
        (resume (plainWorkflowEnv 5 40) d.db i (plainResume none)).toOption.any fun x =>
          !x.1.absorbedReplay && i.currentFrontier.contains (plainPacket 2 10 2) &&
            (x.2.2.getById (plainPacket 2 10 2)).map (·.state) ≠
              (d.db.getById (plainPacket 2 10 2)).map (·.state)) (by decide)
    obtain ⟨i, hi, hp⟩ := (Option.any_eq_true _ _).mp hp
    obtain ⟨⟨r, j, db⟩, hres, hp⟩ := (Option.any_eq_true _ _).mp hp
    simp only [Bool.and_eq_true, Bool.not_eq_true', List.contains_eq_mem, decide_eq_true_eq] at hp
    obtain ⟨⟨hr, hlive⟩, hstate⟩ := hp
    exact ⟨d, i, hrun, hi, r, j, db, toOption_eq_some.mp hres, hr, hlive, fun he =>
      hstate (by rw [he])⟩

end OpenRig.Redrives
