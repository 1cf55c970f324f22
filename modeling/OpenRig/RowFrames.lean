import OpenRig.GraphCalls

/-!
Which queue rows a write may change, and what no write changes of a row.

No operation deletes a row or rewrites its tags. `Edits S` adds that a row outside `S` stands
exactly as it did; each verb has its own `S`, and the rows a call creates are new ones, so they
lie outside every row that was there.
-/

namespace OpenRig.RowFrames

open OpenRig.JsText OpenRig.Sessions OpenRig.Closure OpenRig.QueueDb OpenRig.Outbox
open OpenRig.Watchdogs OpenRig.Verbs OpenRig.Handoff OpenRig.Update OpenRig.Firing
open OpenRig.Runs OpenRig.RowEffects OpenRig.Propagation OpenRig.Moves OpenRig.Refinement
open OpenRig.WorkflowTypes OpenRig.WorkflowStore OpenRig.WorkflowRouting OpenRig.WorkflowProjector
open OpenRig.WorkflowRuntime OpenRig.Instantiation OpenRig.GraphCalls

/-- Every row of `db` is one of `db'` with the same tags, and outside `S` it is the same row. -/
structure Edits (S : String → Prop) (db db' : Db) : Prop where
  tags : ∀ k r, db.getById k = some r → ∃ r', db'.getById k = some r' ∧ r'.tags = r.tags
  others : ∀ k, ¬ S k → db'.getById k = db.getById k

namespace Edits

variable {S T : String → Prop} {db db₁ db₂ : Db}

lemma refl (S : String → Prop) (db : Db) : Edits S db db :=
  ⟨fun _ r hr => ⟨r, hr, rfl⟩, fun _ _ => rfl⟩

lemma trans (h : Edits S db db₁) (h' : Edits T db₁ db₂)
    (hT : ∀ k, db₁.getById k = db.getById k → T k → S k) : Edits S db db₂ := by
  refine ⟨fun k r hr => ?_, fun k hk => ?_⟩
  · obtain ⟨r₁, hr₁, ht₁⟩ := h.tags k r hr
    obtain ⟨r₂, hr₂, ht₂⟩ := h'.tags k r₁ hr₁
    exact ⟨r₂, hr₂, ht₂.trans ht₁⟩
  · have hsame := h.others k hk
    exact (h'.others k fun hTk => hk (hT k hsame hTk)).trans hsame

lemma mono (h : Edits S db db₁) (hST : ∀ k, S k → T k) : Edits T db db₁ :=
  ⟨h.tags, fun k hk => h.others k fun hS => hk (hST k hS)⟩

lemma of_items (h : db₁.items = db.items) : Edits S db db₁ := by
  have hget : ∀ k, db₁.getById k = db.getById k := by
    intro k
    unfold Db.getById
    rw [h]
  exact ⟨fun k r hr => ⟨r, (hget k).trans hr, rfl⟩, fun k _ => hget k⟩

lemma congr (h : Edits S db db₁) (hi : db₂.items = db₁.items) : Edits S db db₂ :=
  h.trans (of_items (S := S) hi) fun _ _ hk => hk

lemma of_map {q : String} {f : QueueItem → QueueItem}
    (h : db₁.items.rows = db.items.rows.map (Table.rewrite (fun r => r.qitemId = q) f))
    (hid : ∀ r, (f r).qitemId = r.qitemId) (htags : ∀ r, (f r).tags = r.tags) (hS : S q) :
    Edits S db db₁ := by
  have hget : ∀ k, db₁.getById k = if k = q then (db.getById k).map f else db.getById k := by
    intro k
    have : db₁.items = (db.updateRow q f hid).items := Table.ext h
    rw [← Db.getById_updateRow db q f hid k]
    unfold Db.getById
    rw [this]
  refine ⟨fun k r hr => ?_, fun k hk => ?_⟩
  · by_cases hkq : k = q
    · exact ⟨f r, by rw [hget, if_pos hkq, hr, Option.map_some], htags r⟩
    · exact ⟨r, by rw [hget, if_neg hkq, hr], rfl⟩
  · have hkq : k ≠ q := by
      rintro rfl
      exact hk hS
    rw [hget, if_neg hkq]

lemma updateRow (db : Db) {q : String} {f : QueueItem → QueueItem} (hf)
    (htags : ∀ r, (f r).tags = r.tags) (hS : S q) : Edits S db (db.updateRow q f hf) :=
  of_map rfl hf htags hS

lemma inserted {s : QueueItem} (h : Inserted db db₁ s) (hS : S s.qitemId) : Edits S db db₁ := by
  refine ⟨fun k r hr => ⟨r, ?_, rfl⟩, fun k hk => ?_⟩
  · have hk : k ≠ s.qitemId := by
      rintro rfl
      rw [h.fresh] at hr
      cases hr
    rw [h.getById_other hk, hr]
  · have hks : k ≠ s.qitemId := by
      rintro rfl
      exact hk hS
    exact h.getById_other hks

lemma isSome (h : Edits S db db₁) {k : String} (hk : (db.getById k).isSome = true) :
    (db₁.getById k).isSome = true := by
  obtain ⟨r, hr⟩ := Option.isSome_iff_exists.mp hk
  obtain ⟨r', hr', -⟩ := h.tags k r hr
  simp [hr']

end Edits

/-! ### The queue's verbs -/

lemma propagateRow_edits {env : Env} {input : PropagateInput} {db db' : Db} {row : String × String}
    {S : String → Prop} (hS : S row.1) (h : propagateRow env input db row = .ok db') :
    Edits S db db' := by
  unfold propagateRow at h
  split at h
  · cases pure_eq_ok.mp h
    exact .of_map (rebindRow_items env input db row.1 _) (fun _ => rfl) (fun _ => rfl) hS
  · exact .of_map (unparkRow_items h) (fun _ => rfl) (fun _ => rfl) hS

lemma propagate_edits {env : Env} {input : PropagateInput} {db db' : Db}
    (h : propagateBlockerCompletion env input db = .ok db') :
    Edits (fun k => parkedRow db k input.qitemId) db db' := by
  refine (path_of_foldlM h).invariant_of_labels
    (I := fun d => Edits (fun k => parkedRow db k input.qitemId) db d)
    (p := fun row : String × String => parkedRow db row.1 input.qitemId) ?_ ?_ (.refl _ _)
  · intro d row d' hrow hstep hd
    exact hd.trans (propagateRow_edits hrow hstep) fun _ _ hk => hk
  · rintro ⟨k, owner⟩ hrow
    obtain ⟨r, hr, hs, hb, -⟩ := mem_parkedOn.mp hrow
    exact ⟨r, hr, hs, hb⟩

lemma appendOnly_edits {env : Env} {db db' : Db} {qitem : QueueItem} {input : QueueUpdateInput}
    {deadline : Option Time} {S : String → Prop} (hS : S input.qitemId)
    (h : appendOnly env db qitem input deadline = .ok db') : Edits S db db' := by
  unfold appendOnly at h
  obtain ⟨-, -, h⟩ := bind_eq_ok.mp h
  split at h
  · split at h
    · obtain ⟨-, -, h⟩ := bind_eq_ok.mp h
      simp at h
    · simp at h
  · cases pure_eq_ok.mp h
    have hsum : Edits S db (if input.hasValidSummary = true then
        db.updateRow input.qitemId fun r => { r with summary := input.summary } else db) := by
      split
      · exact .updateRow db _ (fun _ => rfl) hS
      · exact .refl _ _
    cases deadline with
    | none => exact hsum.congr rfl
    | some t =>
      exact (hsum.trans (.updateRow _ (f := fun r => { r with closureRequiredAt := some t })
        (fun _ => rfl) (fun _ => rfl) hS) fun _ _ hk => hk).congr rfl

/-- The rows an update may write: its own, and where it closes it the rows parked on it. -/
def updated (db : Db) (input : QueueUpdateInput) (k : String) : Prop :=
  k = input.qitemId ∨
    (input.state.any fun s => !s.isBlockerLive) = true ∧ parkedRow db k input.qitemId

lemma update_edits {env : Env} {db db' : Db} {input : QueueUpdateInput}
    (h : update env db input = .ok db') : Edits (updated db input) db db' := by
  unfold update at h
  obtain ⟨qitem, hr, h⟩ := bind_eq_ok.mp h
  have hid := Db.getById_id (requireItem_eq_ok.mp hr)
  obtain ⟨deadline, -, h⟩ := bind_eq_ok.mp h
  split at h
  · exact appendOnly_edits (.inl rfl) h
  · split at h
    · exact appendOnly_edits (.inl rfl) h
    · rename_i state hstate
      obtain ⟨plan, hplan, h⟩ := bind_eq_ok.mp h
      obtain ⟨⟨wake, jobs⟩, -, h⟩ := bind_eq_ok.mp h
      have hplan := admitUpdate_eq_ok hplan
      unfold applyUpdate at h
      simp only [hid] at h
      have hmoved : ∀ d, d.items = ((db.setJobs jobs).updateRow input.qitemId
          (movedRow env plan input (nextResolution qitem plan input))).items →
          Edits (fun k => k = input.qitemId) db d := fun d hd =>
        .of_map (f := movedRow env plan input (nextResolution qitem plan input))
          (congrArg Table.rows hd) (fun _ => rfl) (fun _ => rfl) rfl
      split at h
      · obtain ⟨db₁, hprop, h⟩ := bind_eq_ok.mp h
        cases pure_eq_ok.mp h
        cases pure_eq_ok.mp hprop
        refine (hmoved _ ?_).mono fun k hk => .inl hk
        rw [Db.items_emit, items_settleParkWake]
        rfl
      · rename_i hdead
        obtain ⟨db₁, hprop, h⟩ := bind_eq_ok.mp h
        cases pure_eq_ok.mp h
        have hdead : (input.state.any fun s => !s.isBlockerLive) = true := by
          rw [hstate]
          simpa [hplan.state_eq] using hdead
        refine (((hmoved _ ?_).mono (T := updated db input) fun k hk => .inl hk).trans
          (propagate_edits hprop) fun k hsame hk => ?_).congr rfl
        · rw [items_settleParkWake]
          rfl
        obtain ⟨r, hr, hs, hb⟩ := hk
        exact .inr ⟨hdead, r, hsame ▸ hr, hs, hb⟩

/-- A write that keeps no row apart. -/
abbrev Grows (db db' : Db) : Prop := Edits (fun _ => True) db db'

lemma Edits.grows {S : String → Prop} {db db' : Db} (h : Edits S db db') : Grows db db' :=
  h.mono fun _ _ => trivial

lemma Edits.and_then {db db₁ db₂ : Db} (h : Grows db db₁) (h' : Grows db₁ db₂) : Grows db db₂ :=
  h.trans h' fun _ _ _ => trivial

lemma handoffWith_grows {variant : HandoffVariant} {env : Env} {db db' : Db}
    {input : QueueHandoffInput} (h : handoffWith variant env db input = .ok db') :
    Grows db db' := by
  obtain ⟨source, note, s, db₂, db₃, e, -, -, hs, -, -, -, hprop, rfl⟩ := handoffWith_eq_ok h
  have hclose : Grows db _ := .of_map (closeSource_rows env db variant.terminalState input.qitemId
    input.fromSession input.toSession input.toSession note input.identityProvenance
    input.identityPrincipal) (fun _ => rfl) (fun _ => rfl) trivial
  exact ((hclose.and_then (.inserted hs trivial)).and_then (propagate_edits hprop).grows).congr rfl

lemma receipts_grow (env : Env) (a : WakeAttempt) (targets : List (String × ParkWake)) (db : Db) :
    (targets.foldl (recordFired env a) db).items = db.items :=
  (path_of_foldl (recordFired env a) targets db).invariant
    (I := fun d => d.items = db.items)
    (fun d t _ hd hI => hd ▸ (recordFired_items env a d t).trans hI) rfl

lemma accountWake_grows {env : Env} {db db' : Db} {a : WakeAttempt}
    (h : accountWake env db a = .ok db') : Grows db db' := by
  unfold accountWake at h
  split at h
  · unfold recordWatchdogWakeAttempt at h
    split at h
    · cases pure_eq_ok.mp h
      exact .refl _ _
    · simp only at h
      have hreceipts := receipts_grow env a (findBlockedQitemsByWatchdog db a.jobId true) db
      split at h
      · cases pure_eq_ok.mp h
        exact .of_items hreceipts
      · split at h
        · cases pure_eq_ok.mp h
          obtain ⟨jobs, hj⟩ := settleFiredJob_eq env a
            (!(findCurrentQitemsByGeneratedTimer db a.jobId).isEmpty)
            ((findBlockedQitemsByWatchdog db a.jobId true).foldl (recordFired env a) db)
          rw [hj]
          exact .of_items hreceipts
        · refine (path_of_foldlM h).invariant (I := Grows db)
            (fun d t d' hstep hd => hd.and_then (update_edits hstep).grows) ?_
          exact .of_items hreceipts
  · cases pure_eq_ok.mp h
    exact .refl _ _

/-- **No queue operation deletes a row or rewrites its tags.** -/
theorem exec_grows {env : Env} {db db' : Db} {op : Op} (h : exec env db op = .ok db') :
    Grows db db' := by
  cases op with
  | create i =>
    obtain ⟨reply, h⟩ := map_snd_eq_ok h
    rcases create_inserted h with ⟨r, b, -, rfl, -⟩ | ⟨-, s, -, hins⟩
    · exact .refl _ _
    · exact .inserted hins trivial
  | claim i =>
    replace h : claim env db i = .ok db' := h
    unfold claim at h
    obtain ⟨_, -, h⟩ := bind_eq_ok.mp h
    obtain ⟨_, -, h⟩ := bind_eq_ok.mp h
    obtain ⟨_, -, h⟩ := bind_eq_ok.mp h
    cases pure_eq_ok.mp h
    refine (Edits.updateRow db (q := i.qitemId) (f := claimRow env i.destinationSession)
      (fun _ => rfl) (fun _ => rfl) trivial).congr ?_
    rw [Db.items_emit, items_retireParkGeneratedTimer, Db.items_append]
  | unclaim i =>
    replace h : unclaim env db i = .ok db' := h
    unfold unclaim at h
    obtain ⟨_, -, h⟩ := bind_eq_ok.mp h
    obtain ⟨_, -, h⟩ := bind_eq_ok.mp h
    cases pure_eq_ok.mp h
    exact (Edits.updateRow db (f := releaseRow env.now) (fun _ => rfl) (fun _ => rfl)
      trivial).congr rfl
  | update i => exact (update_edits h).grows
  | handoff i => exact handoffWith_grows h
  | handoffAndComplete i => exact handoffWith_grows h
  | closeCrossHost i =>
    obtain ⟨absorbed, h⟩ := map_snd_eq_ok h
    obtain ⟨_, -, ⟨-, rfl, -⟩ | ⟨-, -, note, e, hprop⟩⟩ := closeCrossHost_eq_ok h
    · exact .refl _ _
    · have hclose : Grows db _ := .of_map (closeSource_rows env db
        i.terminalState.toQueueState i.qitemId i.fromSession i.toSession i.closureTarget note
        i.identityProvenance none) (fun _ => rfl) (fun _ => rfl) trivial
      refine (Edits.congr hclose ?_).and_then (propagate_edits hprop).grows
      rfl
  | routeToFallback i =>
    replace h : routeToFallback env db i = .ok db' := h
    unfold routeToFallback at h
    obtain ⟨qitem, -, h⟩ := bind_eq_ok.mp h
    cases pure_eq_ok.mp h
    refine (Edits.updateRow db (q := i.qitemId)
      (f := fallbackRow env i (fallbackResolution db qitem i.reason)) (fun _ => rfl) (fun _ => rfl)
        trivial).congr ?_
    rw [Db.items_emit, Db.items_append]
    split
    · rfl
    · rw [items_retireParkGeneratedTimer]
  | releaseClaims g =>
    cases pure_eq_ok.mp h
    unfold releaseClaimsByGeneration
    split
    · exact .refl _ _
    · refine (path_of_foldl (releaseClaim env) (claimsOfGeneration db g) db).invariant
        (I := Grows db) (fun d q d' hd hI => ?_) (.refl _ _)
      rw [← hd]
      exact (hI.and_then (.updateRow d (f := releaseRow env.now) (fun _ => rfl) (fun _ => rfl)
        trivial)).congr rfl
  | transferClaims a b note =>
    cases pure_eq_ok.mp h
    unfold transferClaimsByGeneration
    split
    · exact .refl _ _
    · refine (path_of_foldl (transferClaim env b note) (claimsOfGeneration db a) db).invariant
        (I := Grows db) (fun d q d' hd hI => ?_) (.refl _ _)
      rw [← hd]
      exact (hI.and_then (.updateRow d (q := q)
        (f := fun r => { r with claimedByGeneration := some b, tsUpdated := env.now })
        (fun _ => rfl) (fun _ => rfl) trivial)).congr rfl
  | wakeAttempt a => exact accountWake_grows h
  | terminalBeforeDelivery j =>
    cases pure_eq_ok.mp h
    obtain ⟨jobs, hj⟩ := terminalBeforeDelivery_eq db j
    rw [hj]
    exact .of_items rfl
  | refreshWaits changed proof =>
    cases pure_eq_ok.mp h
    obtain ⟨jobs, hj⟩ := refreshQueueWaits_eq env changed proof db
    rw [hj]
    exact .of_items rfl
  | job op =>
    cases hj : execJob env db.jobs op with
    | error e => simp [exec, hj, Except.map] at h
    | ok jobs =>
      obtain rfl : db.setJobs jobs = db' := by simpa [exec, hj, Except.map] using h
      exact .of_items rfl

/-! ### Rows a call creates -/

/-- The call inserted the row, and changed no other. -/
structure Creates (q : String) (tags : List String) (db db' : Db) : Prop where
  fresh : db.getById q = none
  row : ∃ r, db'.getById q = some r ∧ r.tags = withHumanAlertTag (some tags) none
  frame : Edits (fun k => k = q) db db'

lemma Creates.of_insert {db db₁ db' : Db} {s : QueueItem} {tags : List String}
    (hins : Inserted db db₁ s) (hs : s.tags = withHumanAlertTag (some tags) none)
    (h : Edits (fun k => k = s.qitemId) db₁ db') : Creates s.qitemId tags db db' := by
  obtain ⟨r, hr, ht⟩ := h.tags _ _ hins.getById_self
  exact ⟨hins.fresh, ⟨r, hr, ht.trans hs⟩,
    (Edits.inserted (S := fun k => k = s.qitemId) hins rfl).trans h fun _ _ hk => hk⟩

lemma Creates.congr {q : String} {tags : List String} {db db₁ db₂ : Db}
    (h : Creates q tags db db₁) (hi : db₂.items = db₁.items) : Creates q tags db db₂ := by
  obtain ⟨r, hr, ht⟩ := h.row
  obtain ⟨r', hr', ht'⟩ := (Edits.of_items (S := fun _ => True) hi).tags q r hr
  exact ⟨h.fresh, ⟨r', hr', ht'.trans ht⟩, h.frame.congr hi⟩

lemma createWithinTransaction_eq_ok {env : Env} {db db' : Db} {input : QueueCreateInput}
    (h : createWithinTransaction env db input = .ok db') :
    ∃ s, Inserted db db' s ∧ s.qitemId = input.id env ∧
      s.tags = withHumanAlertTag input.tags input.humanAlert := by
  unfold createWithinTransaction at h
  obtain ⟨-, -, h⟩ := bind_eq_ok.mp h
  obtain ⟨replyTo, hins⟩ := createInTransactionalContext_inserted h
  exact ⟨_, hins, rfl, rfl⟩

lemma stageHandoffWake_edits {env : Env} {db db' : Db} {q a b : String} {p : Option String}
    {n : Option Bool} (h : stageHandoffWake env db q a b p n = .ok db') :
    Edits (fun k => k = q) db db' := by
  unfold stageHandoffWake at h
  split at h
  · rename_i db₁ hst
    cases h
    rw [stageWakeIntent_db hst]
    exact .of_items rfl
  · split at h
    · cases h
      exact .updateRow db _ (fun _ => rfl) rfl
    · cases h

lemma park_edits {env : Env} {db db' : Db} {input : QueueUpdateInput}
    (hlive : input.state = some .blocked) (h : update env db input = .ok db') :
    Edits (fun k => k = input.qitemId) db db' := by
  refine (update_edits h).mono fun k hk => ?_
  rcases hk with hk | ⟨hdead, -⟩
  · exact hk
  · simp [hlive, QueueState.isBlockerLive] at hdead

lemma ensureKeepalive_items {env : WorkflowEnv} {k : ℕ} {db db' : Db} {id seat by_ : String}
    {p : Option String} (h : ensureWorkflowKeepaliveArmed env k db id seat by_ p = .ok db') :
    db'.items = db.items := by
  unfold ensureWorkflowKeepaliveArmed at h
  split at h
  · cases h
    rfl
  · obtain ⟨jobs, -, h⟩ := obind_eq_ok.mp h
    cases opure_eq_ok.mp h
    rfl

lemma disarmKeepalive_items (env : WorkflowEnv) (db : Db) (id reason : String)
    (p : Option String) : (disarmWorkflowKeepalive env db id reason p).items = db.items := by
  unfold disarmWorkflowKeepalive
  split
  · rfl
  · split
    · rfl
    · rfl

lemma disarmAll_items (env : WorkflowEnv) (db : Db) (id reason : String) :
    (disarmAllWorkflowKeepalives env db id reason).items = db.items := by
  unfold disarmAllWorkflowKeepalives
  split
  · rfl
  · rfl

lemma createStepPacket_creates {env : WorkflowEnv} {k : ℕ} {db db' : Db} {i : InstanceRow}
    {input : ProjectStepInput} {cur step : WorkflowStepSpec} {note : Option String}
    {gate : Option GateCompileResult} {owner q : String} {tags : List String}
    (h : createStepPacket env k db i input cur step note gate owner q tags = .ok db') :
    Creates q tags db db' := by
  unfold createStepPacket at h
  obtain ⟨db₁, hcreate, h⟩ := obind_eq_ok.mp h
  obtain ⟨db₂, hwake, h⟩ := obind_eq_ok.mp h
  obtain ⟨s, hins, hid, htags⟩ := createWithinTransaction_eq_ok (inQueue_eq_ok.mp hcreate)
  have hid : s.qitemId = q := hid
  have hwake := stageHandoffWake_edits (inQueue_eq_ok.mp hwake)
  subst hid
  split at h
  · cases opure_eq_ok.mp h
    exact .of_insert hins htags hwake
  · have hpark := park_edits rfl (inQueue_eq_ok.mp h)
    exact .of_insert hins htags (hwake.trans hpark fun _ _ hk => hk)

lemma admitFailureException_grows {env : WorkflowEnv} {db db' : Db} {i : InstanceRow}
    {input : ProjectStepInput} {step : WorkflowStepSpec} {reason occurrence : Option String} {k : ℕ}
    {id : String} (h : admitFailureException env db i input step reason occurrence k =
      .ok (id, db')) : Grows db db' := by
  unfold admitFailureException at h
  obtain ⟨route, -, h⟩ := obind_eq_ok.mp h
  obtain ⟨⟨id', seat, db₁⟩, hcreate, h⟩ := obind_eq_ok.mp h
  obtain ⟨db₂, hwake, h⟩ := obind_eq_ok.mp h
  cases opure_eq_ok.mp h
  have hins : Grows db db₁ := by
    unfold createExceptionItem at hcreate
    split at hcreate
    · rename_i d hd
      cases hcreate
      obtain ⟨s, hins, -⟩ := createWithinTransaction_eq_ok hd
      exact .inserted hins trivial
    · split at hcreate
      · cases hcreate
      · obtain ⟨person, -, hcreate⟩ := obind_eq_ok.mp hcreate
        obtain ⟨d, hd, hcreate⟩ := obind_eq_ok.mp hcreate
        cases opure_eq_ok.mp hcreate
        obtain ⟨s, hins, -⟩ := createWithinTransaction_eq_ok (inQueue_eq_ok.mp hd)
        exact .inserted hins trivial
  exact hins.and_then (stageHandoffWake_edits (inQueue_eq_ok.mp hwake)).grows

lemma closeCurrentPacket_grows {env : WorkflowEnv} {db db' : Db} {i : InstanceRow}
    {input : ProjectStepInput} {step : WorkflowStepSpec} {closure : QueueClosure} {parks : Bool}
    {advisory : Option String} {owner : String}
    (h : closeCurrentPacket env db i input step closure parks advisory owner = .ok db') :
    Grows db db' :=
  (update_edits (inQueue_eq_ok.mp h)).grows

/-! ### Projections -/

lemma projectPlans_creates {env : WorkflowEnv} {inst : InstanceRow} {input : ProjectStepInput}
    {cur : WorkflowStepSpec} {parent : WorkflowFrontierBinding} {note : Option String}
    {fanOut : Bool} {plans : List OwnerPlan} :
    ∀ {k : ℕ} {i j : InstanceRow} {db db' : Db},
      projectPlans env inst input cur parent note fanOut k plans i db = .ok (j, db') →
      Grows db db' ∧ ∀ p ∈ plans, db.getById p.packetId = none ∧
        ∃ r, db'.getById p.packetId = some r ∧ r.tags = withHumanAlertTag
          (some (packetTags inst p.gate ["step:" ++ p.step.id] p.step.id)) none := by
  induction plans with
  | nil =>
    intro k i j db db' h
    unfold projectPlans at h
    cases h
    exact ⟨.refl _ _, by simp⟩
  | cons plan rest ih =>
    intro k i j db db' h
    unfold projectPlans at h
    obtain ⟨db₁, hcreate, h⟩ := obind_eq_ok.mp h
    obtain ⟨i₁, -, h⟩ := obind_eq_ok.mp h
    obtain ⟨db₂, hkeep, h⟩ := obind_eq_ok.mp h
    have hc := (createStepPacket_creates hcreate).congr (ensureKeepalive_items hkeep)
    obtain ⟨hgrow, hrest⟩ := ih h
    refine ⟨hc.frame.grows.and_then hgrow, fun p hp => ?_⟩
    rcases List.mem_cons.mp hp with rfl | hp
    · obtain ⟨r, hr, ht⟩ := hc.row
      obtain ⟨r', hr', ht'⟩ := hgrow.tags _ r hr
      exact ⟨hc.fresh, r', hr', ht'.trans ht⟩
    · obtain ⟨hnone, hrow⟩ := hrest p hp
      refine ⟨?_, hrow⟩
      -- a row that was there would still be there
      by_contra hsome
      have := hc.frame.isSome (Option.ne_none_iff_isSome.mp hsome)
      rw [hnone] at this
      cases this

lemma commitGraph_rows {env : WorkflowEnv} {db db' : Db} {i j : InstanceRow}
    {input : ProjectStepInput} {packet : QueueItem} {step : WorkflowStepSpec}
    {binding : WorkflowFrontierBinding} {plan : GraphPlan} {r : ProjectStepResult}
    (h : commitGraph env db i input packet step binding plan = .ok (r, j, db')) :
    Grows db db' ∧ ∀ q ∈ r.nextQitemIds, db.getById q = none ∧ ∃ gate stepId row,
      db'.getById q = some row ∧
      row.tags = withHumanAlertTag (some (packetTags i gate ["step:" ++ stepId] stepId)) none := by
  unfold commitGraph at h
  simp only at h
  obtain ⟨plans, hplans, h⟩ := obind_eq_ok.mp h
  obtain ⟨closure, -, h⟩ := obind_eq_ok.mp h
  obtain ⟨db₁, hclose, h⟩ := obind_eq_ok.mp h
  obtain ⟨⟨bound, db₂⟩, hproj, h⟩ := obind_eq_ok.mp h
  obtain ⟨⟨exception, rec, db₃⟩, hrec, h⟩ := obind_eq_ok.mp h
  have hclose := closeCurrentPacket_grows hclose
  have hleft : Grows db (if plan.effectiveExit = .waiting then (i, db₁)
      else (i.removeFrontierBinding input.currentPacketId,
        disarmWorkflowKeepalive env db₁ i.instanceId ("workflow_packet_" ++ plan.effectiveExit.text)
          (some input.currentPacketId))).2 := by
    split
    · exact hclose
    · exact hclose.congr (disarmKeepalive_items env db₁ _ _ _)
  obtain ⟨hgrow, hrows⟩ := projectPlans_creates hproj
  have hfail : Grows db₂ db₃ := by
    unfold recordFailure at hrec
    split at hrec
    · obtain ⟨i', -, hrec⟩ := obind_eq_ok.mp hrec
      obtain ⟨⟨id, d⟩, hadmit, hrec⟩ := obind_eq_ok.mp hrec
      cases opure_eq_ok.mp hrec
      exact admitFailureException_grows hadmit
    · cases hrec
      exact .refl _ _
  have hall : ∀ q ∈ plans.map (·.packetId), db.getById q = none ∧ ∃ gate stepId row,
      db₃.getById q = some row ∧
      row.tags = withHumanAlertTag (some (packetTags i gate ["step:" ++ stepId] stepId)) none := by
    intro q hq
    obtain ⟨p, hp, rfl⟩ := List.mem_map.mp hq
    obtain ⟨hnone, row, hrow, htags⟩ := hrows p hp
    obtain ⟨row', hrow', htags'⟩ := hfail.tags _ row hrow
    refine ⟨?_, p.gate, p.step.id, row', hrow', htags'.trans htags⟩
    by_contra hsome
    have := hleft.isSome (Option.ne_none_iff_isSome.mp hsome)
    rw [hnone] at this
    cases this
  have hfinal : r.nextQitemIds = plans.map (·.packetId) ∧ db' = db₃ := by
    split at h
    · obtain ⟨-, -, h⟩ := obind_eq_ok.mp h
      cases opure_eq_ok.mp h
      exact ⟨rfl, rfl⟩
    · cases opure_eq_ok.mp h
      exact ⟨rfl, rfl⟩
  obtain ⟨hids, rfl⟩ := hfinal
  exact ⟨(hleft.and_then hgrow).and_then hfail, hids ▸ hall⟩

lemma commitSerial_grows {env : WorkflowEnv} {db db' : Db} {i j : InstanceRow}
    {input : ProjectStepInput} {packet : QueueItem} {step : WorkflowStepSpec} {plan : SerialPlan}
    {r : ProjectStepResult} (h : commitSerial env db i input packet step plan = .ok (r, j, db')) :
    Grows db db' := by
  unfold commitSerial at h
  simp only at h
  obtain ⟨closure, -, h⟩ := obind_eq_ok.mp h
  obtain ⟨db₁, hclose, h⟩ := obind_eq_ok.mp h
  obtain ⟨db₂, hcreate, h⟩ := obind_eq_ok.mp h
  obtain ⟨db₃, hkeep, h⟩ := obind_eq_ok.mp h
  obtain ⟨⟨exception, db₄⟩, hfail, h⟩ := obind_eq_ok.mp h
  have hcreate : Grows db₁ db₂ := by
    unfold createSerialNext at hcreate
    split at hcreate
    · cases hcreate
      exact .refl _ _
    · exact (createStepPacket_creates hcreate).frame.grows
  have hkeep : db₃.items = db₂.items := by
    unfold settleSerialKeepalive at hkeep
    split at hkeep
    · exact ensureKeepalive_items hkeep
    · split at hkeep
      · cases hkeep
        exact disarmKeepalive_items env db₂ _ _ _
      · cases hkeep
        rfl
  have hfail : Grows db₃ db₄ := by
    unfold admitSerialFailure at hfail
    split at hfail
    · obtain ⟨⟨id, d⟩, hadmit, hfail⟩ := obind_eq_ok.mp hfail
      cases opure_eq_ok.mp hfail
      exact admitFailureException_grows hadmit
    · cases hfail
      exact .refl _ _
  have hall : Grows db db₄ :=
    (((closeCurrentPacket_grows hclose).and_then hcreate).congr hkeep).and_then hfail
  split at h
  · obtain ⟨-, -, h⟩ := obind_eq_ok.mp h
    cases opure_eq_ok.mp h
    exact hall
  · cases opure_eq_ok.mp h
    exact hall

lemma project_grows {env : WorkflowEnv} {db db' : Db} {i j : InstanceRow}
    {input : ProjectStepInput} {r : ProjectStepResult}
    (h : project env db i input = .ok (r, j, db')) : Grows db db' := by
  unfold project at h
  obtain ⟨⟨packet, step⟩, -, h⟩ := obind_eq_ok.mp h
  simp only at h
  split at h
  · split at h
    · simp at h
    · unfold projectDependencyGraph at h
      split at h
      · cases h
        exact .refl _ _
      · obtain ⟨plan, -, h⟩ := obind_eq_ok.mp h
        exact (commitGraph_rows h).1
  · unfold projectSerial at h
    obtain ⟨_, -, h⟩ := obind_eq_ok.mp h
    split at h
    · cases h
      exact .refl _ _
    · obtain ⟨plan, -, h⟩ := obind_eq_ok.mp h
      exact commitSerial_grows h

/-- **The packets a graph projection reports** are new rows. -/
lemma project_rows {env : WorkflowEnv} {db db' : Db} {i j : InstanceRow}
    {input : ProjectStepInput} {r : ProjectStepResult} (hg : i.spec.isDependencyGraph = true)
    (h : project env db i input = .ok (r, j, db')) :
    ∀ q ∈ r.nextQitemIds, db.getById q = none ∧ ∃ gate stepId row, db'.getById q = some row ∧
      row.tags = withHumanAlertTag (some (packetTags i gate ["step:" ++ stepId] stepId)) none := by
  unfold project at h
  obtain ⟨⟨packet, step⟩, -, h⟩ := obind_eq_ok.mp h
  simp only [hg, if_true] at h
  split at h
  · simp at h
  · unfold projectDependencyGraph at h
    split at h
    · cases h
      simp [absorbedResult]
    · obtain ⟨plan, -, h⟩ := obind_eq_ok.mp h
      exact (commitGraph_rows h).2

/-! ### Resumes -/

lemma createRedrive_creates {env : WorkflowEnv} {db db' : Db} {packet : QueueCreateInput}
    {input : ResumeInput} {tags : List String} (hid : packet.qitemId = some (newQitemId (env.at 0)))
    (htags : packet.tags = some tags) (hplain : packet.humanAlert = none)
    (h : createRedrive env db packet input = .ok db') :
    Creates (newQitemId (env.at 0)) tags db db' := by
  unfold createRedrive at h
  obtain ⟨db₁, hcreate, h⟩ := obind_eq_ok.mp h
  obtain ⟨s, hins, hs, hst⟩ := createWithinTransaction_eq_ok (inQueue_eq_ok.mp hcreate)
  have hwake := stageHandoffWake_edits (inQueue_eq_ok.mp h)
  have hs : s.qitemId = newQitemId (env.at 0) := by simpa [QueueCreateInput.id, hid] using hs
  rw [htags, hplain] at hst
  rw [← hs] at hwake ⊢
  exact .of_insert hins hst hwake

/-- The rows a resume may write besides its packet: the failure's open exception items, and the
rows parked on one. -/
def resolvedRow (db : Db) (instanceId failed : String) (k : String) : Prop :=
  ∃ r ∈ openExceptionItems db instanceId failed, k = r.qitemId ∨ parkedRow db k r.qitemId

/-- **Closing a failure's exception items** changes them and the rows parked on them. -/
lemma closeFailureExceptions_edits {env : WorkflowEnv} {db db' : Db} {id failed stepId : String}
    {input : ResumeInput} {n : ℕ}
    (h : closeFailureExceptions env db id failed stepId input = .ok (n, db')) :
    Edits (resolvedRow db id failed) db db' := by
  unfold closeFailureExceptions at h
  obtain ⟨db₁, hloop, h⟩ := obind_eq_ok.mp h
  cases opure_eq_ok.mp h
  refine (path_of_foldlM hloop).invariant_of_labels
    (I := fun d => Edits (resolvedRow db id failed) db d)
    (p := fun r => r ∈ openExceptionItems db id failed) ?_ (fun r hr => hr) (.refl _ _)
  intro d row d' hrow hstep hd
  refine hd.trans (update_edits (inQueue_eq_ok.mp hstep)) fun k hsame hk => ?_
  refine ⟨row, hrow, ?_⟩
  rcases hk with hk | ⟨-, r, hr, hs, hb⟩
  · exact .inl hk
  · exact .inr ⟨r, hsame ▸ hr, hs, hb⟩

def redriveTags (i : InstanceRow) (stepId : String) (extra : List String) : List String :=
  ["workflow", "resume", "workflow:" ++ i.workflowName, "instance:" ++ i.instanceId] ++ extra ++
    packetScopeTags i.scope stepId

/-- **The rows a redrive writes**: its packet, and what the failure's exception items hold. -/
lemma redriveOccurrence_rows {env : WorkflowEnv} {db db' : Db} {i j : InstanceRow}
    {input : ResumeInput} {o : WorkflowFailureOccurrence} {r : ResumeResult}
    (h : redriveOccurrence env db i input o = .ok (r, j, db')) :
    ∃ db₁ stepId, Creates (newQitemId (env.at 0))
        (redriveTags i stepId ["occurrence:" ++ o.occurrenceId]) db db₁ ∧
      Edits (resolvedRow db₁ i.instanceId o.failedPacketId) db₁ db' := by
  unfold redriveOccurrence at h
  obtain ⟨_, -, h⟩ := obind_eq_ok.mp h
  simp only at h
  split at h
  · simp at h
  · rename_i step hstep
    obtain ⟨owner₀, -, h⟩ := obind_eq_ok.mp h
    obtain ⟨owner, -, h⟩ := obind_eq_ok.mp h
    obtain ⟨db₁, hcreate, h⟩ := obind_eq_ok.mp h
    obtain ⟨bound, -, h⟩ := obind_eq_ok.mp h
    obtain ⟨resolved, -, h⟩ := obind_eq_ok.mp h
    obtain ⟨⟨closed, db₂⟩, hclose, h⟩ := obind_eq_ok.mp h
    obtain ⟨db₃, hkeep, h⟩ := obind_eq_ok.mp h
    cases opure_eq_ok.mp h
    exact ⟨db₁, step.id, createRedrive_creates rfl rfl rfl hcreate,
      (closeFailureExceptions_edits hclose).congr (ensureKeepalive_items hkeep)⟩

lemma resumeInstance_grows {env : WorkflowEnv} {db db' : Db} {i j : InstanceRow}
    {input : ResumeInput} {r : ResumeResult}
    (h : resumeInstance env db i input = .ok (r, j, db')) : Grows db db' := by
  unfold resumeInstance at h
  obtain ⟨_, -, h⟩ := obind_eq_ok.mp h
  obtain ⟨step, -, h⟩ := obind_eq_ok.mp h
  obtain ⟨owner₀, -, h⟩ := obind_eq_ok.mp h
  obtain ⟨owner, -, h⟩ := obind_eq_ok.mp h
  obtain ⟨db₁, hcreate, h⟩ := obind_eq_ok.mp h
  have hc := (createRedrive_creates rfl rfl rfl hcreate).frame.grows
  simp only at h
  split at h
  · obtain ⟨⟨closed, db₂⟩, hclose, h⟩ := obind_eq_ok.mp h
    obtain ⟨db₃, hkeep, h⟩ := obind_eq_ok.mp h
    cases opure_eq_ok.mp h
    exact (hc.and_then (closeFailureExceptions_edits hclose).grows).congr
      (ensureKeepalive_items hkeep)
  · obtain ⟨⟨closed, db₂⟩, hclose, h⟩ := obind_eq_ok.mp h
    obtain ⟨db₃, hkeep, h⟩ := obind_eq_ok.mp h
    cases opure_eq_ok.mp h
    cases hclose
    exact hc.congr (ensureKeepalive_items hkeep)

lemma resume_grows {env : WorkflowEnv} {db db' : Db} {i j : InstanceRow} {input : ResumeInput}
    {r : ResumeResult} (h : resume env db i input = .ok (r, j, db')) : Grows db db' := by
  unfold resume at h
  split at h
  · unfold resumeFailureOccurrence at h
    split at h
    · unfold replayResume at h
      obtain ⟨_, -, h⟩ := obind_eq_ok.mp h
      split at h
      · simp at h
      · cases opure_eq_ok.mp h
        exact .refl _ _
    · obtain ⟨o, -, h⟩ := obind_eq_ok.mp h
      obtain ⟨db₁, stepId, hc, hedits⟩ := redriveOccurrence_rows h
      exact hc.frame.grows.and_then hedits.grows
  · exact resumeInstance_grows h

/-! ### Re-routes, aborts and instantiations -/

lemma route_grows {env : WorkflowEnv} {db db' : Db} {i j : InstanceRow} {input : RouteInput}
    {r : RouteResult} (h : route env db i input = .ok (r, j, db')) : Grows db db' := by
  unfold route at h
  obtain ⟨_, -, h⟩ := obind_eq_ok.mp h
  obtain ⟨old, -, h⟩ := obind_eq_ok.mp h
  obtain ⟨_, -, h⟩ := obind_eq_ok.mp h
  split at h
  · simp at h
  · obtain ⟨_, -, h⟩ := obind_eq_ok.mp h
    obtain ⟨db₁, hclose, h⟩ := obind_eq_ok.mp h
    obtain ⟨db₂, hcreate, h⟩ := obind_eq_ok.mp h
    obtain ⟨db₃, hwake, h⟩ := obind_eq_ok.mp h
    obtain ⟨db₄, hpark, h⟩ := obind_eq_ok.mp h
    obtain ⟨rebound, -, h⟩ := obind_eq_ok.mp h
    obtain ⟨db₅, hkeep, h⟩ := obind_eq_ok.mp h
    obtain ⟨_, -, h⟩ := obind_eq_ok.mp h
    cases opure_eq_ok.mp h
    obtain ⟨s, hins, -⟩ := createWithinTransaction_eq_ok (inQueue_eq_ok.mp hcreate)
    have hpark : Grows db₃ db₄ := by
      unfold preservePark at hpark
      split at hpark
      · exact (update_edits (inQueue_eq_ok.mp hpark)).grows
      · cases hpark
        exact .refl _ _
    have hwake := (stageHandoffWake_edits (inQueue_eq_ok.mp hwake)).grows
    have hclose := (update_edits (inQueue_eq_ok.mp hclose)).grows
    exact (((hclose.and_then (.inserted hins trivial)).and_then hwake).and_then hpark).congr
      ((ensureKeepalive_items hkeep).trans (disarmKeepalive_items env db₄ _ _ _))

lemma abort_grows {env : WorkflowEnv} {db db' : Db} {i j : InstanceRow} {input : AbortInput}
    {closed : List String} (h : abort env db i input = .ok (closed, j, db')) : Grows db db' := by
  unfold abort at h
  obtain ⟨_, -, h⟩ := obind_eq_ok.mp h
  obtain ⟨_, -, h⟩ := obind_eq_ok.mp h
  obtain ⟨⟨closed', db₁⟩, hloop, h⟩ := obind_eq_ok.mp h
  cases opure_eq_ok.mp h
  have hgrow : Grows db db₁ := by
    refine (path_of_foldlM hloop).invariant (I := fun s : InstanceRow × Db => Grows db s.2)
      (fun s p t hstep hs => ?_) (.refl _ _)
    unfold abortPacket at hstep
    obtain ⟨_, -, hstep⟩ := obind_eq_ok.mp hstep
    split at hstep
    · simp at hstep
    · obtain ⟨d, hclose, hstep⟩ := obind_eq_ok.mp hstep
      cases opure_eq_ok.mp hstep
      exact hs.and_then (update_edits (inQueue_eq_ok.mp hclose)).grows
  exact hgrow.congr (disarmAll_items env db₁ _ _)

/-- **No call deletes a row or rewrites its tags.** -/
theorem run_grows {env : WorkflowEnv} {db db' : Db} {i j : InstanceRow} {call : Call}
    {reply : Reply} (h : call.run env db i = .ok (reply, j, db')) : Grows db db' := by
  cases call with
  | project input =>
    obtain ⟨r, -, h⟩ := run_project h
    exact project_grows h
  | resume input =>
    obtain ⟨r, -, h⟩ := run_resume h
    exact resume_grows h
  | route input =>
    obtain ⟨r, -, h⟩ := run_route h
    exact route_grows h
  | abort input =>
    obtain ⟨closed, -, h⟩ := run_abort h
    exact abort_grows h

def entryTags (i : InstanceRow) (gate : Option GateCompileResult) (stepId packetId : String) :
    List String :=
  ["workflow", if gate.isSome then "gate" else "entry", "workflow:" ++ i.workflowName,
    "instance:" ++ i.instanceId] ++ gateExceptionTags i gate stepId packetId ++
    packetScopeTags i.scope stepId

lemma createEntryPacket_creates {env : WorkflowEnv} {db db' : Db} {i : InstanceRow}
    {entry : WorkflowStepSpec} {input : InstantiateInput} {gate : Option GateCompileResult}
    {owner : String} (h : createEntryPacket env db i entry input gate owner = .ok db') :
    Creates (newQitemId (env.at 0)) (entryTags i gate entry.id (newQitemId (env.at 0))) db db' := by
  unfold createEntryPacket at h
  simp only at h
  generalize newQitemId (env.at 0) = q at h ⊢
  obtain ⟨db₁, hcreate, h⟩ := obind_eq_ok.mp h
  obtain ⟨s, hins, hid, htags⟩ := createWithinTransaction_eq_ok (inQueue_eq_ok.mp hcreate)
  have hid : s.qitemId = q := hid
  subst hid
  split at h
  · cases opure_eq_ok.mp h
    exact .of_insert hins htags (.refl _ _)
  · have hpark := park_edits rfl (inQueue_eq_ok.mp h)
    exact .of_insert hins htags hpark

lemma createInstance_creates {env : WorkflowEnv} {instances instances' : Instances} {db db' : Db}
    {input : InstantiateInput} {entry : WorkflowStepSpec} {boundRig : Option String}
    {gate : Option GateCompileResult} {owner : String} {r : InstantiateResult}
    (h : createInstance env instances db input entry boundRig gate owner =
      .ok (r, instances', db')) :
    r.instance_.currentFrontier = [newQitemId (env.at 0)] ∧ ∃ i,
      Creates (newQitemId (env.at 0))
        (entryTags i gate entry.id (newQitemId (env.at 0))) db db' := by
  unfold createInstance at h
  simp only at h
  obtain ⟨db₁, hcreate, h⟩ := obind_eq_ok.mp h
  obtain ⟨bound, -, h⟩ := obind_eq_ok.mp h
  obtain ⟨db₂, hkeep, h⟩ := obind_eq_ok.mp h
  obtain ⟨inst, -, h⟩ := obind_eq_ok.mp h
  cases opure_eq_ok.mp h
  exact ⟨rfl, _, (createEntryPacket_creates hcreate).congr (ensureKeepalive_items hkeep)⟩

end OpenRig.RowFrames
