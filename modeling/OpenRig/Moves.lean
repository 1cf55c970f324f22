import OpenRig.Propagation

/-!
What a committed `update` did: it appended a note, or it moved the row under a plan every
check admitted, and a move out of the active states closed it.
-/

namespace OpenRig.Moves

open OpenRig.JsText OpenRig.Sessions OpenRig.Closure OpenRig.QueueDb OpenRig.Outbox
open OpenRig.Watchdogs OpenRig.Verbs OpenRig.Handoff OpenRig.Update OpenRig.Runs
open OpenRig.Lifecycle OpenRig.RowEffects OpenRig.Propagation

/-! ### Appends -/

lemma touched_of_append {db db₁ db' : Db} {id : String} {ts : Time} {t : TransitionInput}
    {r : QueueItem} (hr : db.getById id = some r) (h₁ : view db₁ = view db)
    (hv : view db' = view (db₁.append ts t)) (hid : t.qitemId = id) (hs : t.state = r.state)
    (hreason : t.closureReason = none) : Touched db db' id .note := by
  subst hid
  constructor
  · have hmark : markOfInput t = ⟨(lifeOf r (marks db t.qitemId)).state, none, t.closureTarget,
        t.transitionNote⟩ := by
      simp [markOfInput, lifeOf, hs, hreason]
    rw [hv, view_append, if_pos rfl, h₁, view_of_getById hr, hmark]
    exact .note
  · intro k hk
    rw [hv, view_append, if_neg hk, h₁]

lemma appendOnly_touched {env : Env} {db db' : Db} {qitem : QueueItem} {input : QueueUpdateInput}
    {deadline : Option Time} (hr : db.getById input.qitemId = some qitem)
    (h : appendOnly env db qitem input deadline = .ok db') :
    hasStateWriteField input = false ∧ Touched db db' input.qitemId .note := by
  unfold appendOnly at h
  obtain ⟨-, -, h⟩ := bind_eq_ok.mp h
  split at h
  · split at h
    · obtain ⟨-, -, h⟩ := bind_eq_ok.mp h
      simp at h
    · simp at h
  · rename_i hfields
    cases pure_eq_ok.mp h
    refine ⟨by simpa using hfields, touched_of_append hr ?_ (view_emit _ _) rfl rfl rfl⟩
    have hsum : view (if input.hasValidSummary = true then
        db.updateRow input.qitemId fun r => { r with summary := input.summary } else db) =
        view db := by
      split
      · exact view_updateRow_quiet _ _ _ _ fun _ _ => rfl
      · rfl
    rw [← hsum]
    split
    · exact view_updateRow_quiet _ _ _ _ fun _ _ => rfl
    · rfl

/-! ### Admitted plans -/

/-- What the checks of a move established. -/
structure PlanAdmitted (env : Env) (db : Db) (qitem : QueueItem) (state : QueueState)
    (input : QueueUpdateInput) (plan : UpdatePlan) : Prop where
  state_eq : plan.state = state
  closureReason : plan.closureReason = input.closureReason.bind ClosureReason.ofText?
  closureTarget : plan.closureTarget = input.closureTarget
  blocker : plan.blocker = effectiveBlockedOn db qitem state input
  wakes : (input.wakeWatchdogId.isSome || input.wakeAfterSeconds.isSome) = true → state = .blocked
  reopening : isReopen qitem state = true →
    input.reopen = true ∧ state.isBlockerLive = true ∧ input.hasNote = true
  done : state = .done → ∃ r, plan.closureReason = some r ∧ r ≠ .blockedOn
  frontier : state.isTerminalState = true → input.viaWorkflowVerb = false →
    workflowFrontierPredicate db input.qitemId = none
  fields : input.closureReason.isSome ∨ input.closureTarget.isSome →
    admitsClosureFields state input.closureReason = true
  live : state = .blocked → ∀ b, plan.blocker = some b →
    isPersonAddress env.humanRegistry b = false → startsWith b "qitem-" = true →
    ∃ r, db.getById b = some r ∧ r.state.isBlockerLive = true

lemma checkBlocker_live {db : Db} {b : String} {u : Unit} (h : checkBlocker db b = .ok u)
    (hq : startsWith b "qitem-" = true) :
    ∃ r, db.getById b = some r ∧ r.state.isBlockerLive = true := by
  unfold checkBlocker at h
  rw [if_pos hq] at h
  split at h
  · simp at h
  · rename_i r hr
    exact ⟨r, hr, by simpa using h⟩

lemma checkFrontier_none {db : Db} {state : QueueState} {input : QueueUpdateInput} {u : Unit}
    (h : checkFrontier db state input = .ok u) (hs : state.isTerminalState = true)
    (hv : input.viaWorkflowVerb = false) : workflowFrontierPredicate db input.qitemId = none := by
  unfold checkFrontier at h
  rw [if_pos (by simp [hs, hv])] at h
  split at h
  · simp at h
  · assumption

lemma checkReopen_eq_ok {qitem : QueueItem} {state : QueueState} {input : QueueUpdateInput}
    {u : Unit} (h : checkReopen qitem state input = .ok u) (hr : isReopen qitem state = true) :
    input.reopen = true ∧ state.isBlockerLive = true ∧ input.hasNote = true := by
  unfold checkReopen at h
  obtain ⟨_, h₁, h⟩ := bind_eq_ok.mp h
  obtain ⟨_, h₂, h⟩ := bind_eq_ok.mp h
  obtain ⟨_, h₃, h⟩ := bind_eq_ok.mp h
  simp only [refuseIf_eq_ok, hr, Bool.true_and, Bool.not_eq_false'] at h₁ h₂ h₃
  exact ⟨h₁, h₂, h₃⟩

lemma admitUpdate_eq_ok {env : Env} {db : Db} {qitem : QueueItem} {state : QueueState}
    {input : QueueUpdateInput} {plan : UpdatePlan}
    (h : admitUpdate env db qitem state input = .ok plan) :
    PlanAdmitted env db qitem state input plan := by
  unfold admitUpdate at h
  obtain ⟨_, hform, h⟩ := bind_eq_ok.mp h
  obtain ⟨_, hreopen, h⟩ := bind_eq_ok.mp h
  obtain ⟨closure, hclosure, h⟩ := bind_eq_ok.mp h
  obtain ⟨_, hfrontier, h⟩ := bind_eq_ok.mp h
  simp only at h
  obtain ⟨_, -, h⟩ := bind_eq_ok.mp h
  obtain ⟨_, -, h⟩ := bind_eq_ok.mp h
  obtain ⟨_, hcoherent, h⟩ := bind_eq_ok.mp h
  have hce := validateClosure_eq hclosure
  generalize hblocker : effectiveBlockedOn db qitem state input = blocker at h
  have tail : ∀ {p : UpdatePlan}, (if isHumanPark env state blocker = true then do
      validateHumanPark blocker (input.summary <|> qitem.summary)
        (input.evidenceRef <|> qitem.evidenceRef)
      pure p else pure p) = Except.ok plan → p = plan := by
    intro p hp
    split at hp
    · obtain ⟨_, -, hp⟩ := bind_eq_ok.mp hp
      exact pure_eq_ok.mp hp
    · exact pure_eq_ok.mp hp
  have hcheck : (decide (state = .blocked) && !isHumanPark env state blocker) = true →
      ∀ b, blocker = some b → ∃ u, checkBlocker db b = .ok u := by
    intro hc b hb
    rw [if_pos hc, hb] at h
    obtain ⟨u, hu, -⟩ := bind_eq_ok.mp h
    exact ⟨u, hu⟩
  have hplan : plan = ⟨state, input.closureReason.bind ClosureReason.ofText?, input.closureTarget,
      blocker, isHumanPark env state blocker⟩ := by
    rw [hce] at h
    by_cases hc : (decide (state = .blocked) && !isHumanPark env state blocker) = true
    · rw [if_pos hc] at h
      cases blocker with
      | some b =>
        obtain ⟨_, -, h⟩ := bind_eq_ok.mp h
        exact (tail h).symm
      | none => exact (tail h).symm
    · rw [if_neg hc] at h
      exact (tail h).symm
  subst hplan
  refine ⟨rfl, rfl, rfl, hblocker.symm, ?_, checkReopen_eq_ok hreopen, ?_,
    checkFrontier_none hfrontier, ?_, ?_⟩
  · unfold checkWakeForm at hform
    obtain ⟨_, hform, -⟩ := bind_eq_ok.mp hform
    intro hw
    by_contra hs
    simp [hw, hs] at hform
  · rintro rfl
    obtain ⟨-, text, r, hr, hof, hne⟩ := validateClosure_done hclosure
    have hr : input.closureReason = some text := hr
    exact ⟨r, by simp [hr, hof], hne⟩
  · unfold checkCoherence at hcoherent
    obtain ⟨_, hcoherent, -⟩ := bind_eq_ok.mp hcoherent
    intro hf
    by_contra hn
    rcases hf with hf | hf <;> simp [hn, hf] at hcoherent
  · rintro rfl b hb hperson hq
    have hb : blocker = some b := hb
    obtain ⟨u, hu⟩ := hcheck (by simp [isHumanPark, hb, hperson]) b hb
    exact checkBlocker_live hu hq

/-! ### Moves -/

def moveOf (qitem : QueueItem) (plan : UpdatePlan) (input : QueueUpdateInput) : Move where
  state := plan.state
  closureReason := plan.closureReason
  closureTarget := plan.closureTarget
  blockedOn := plan.blocker
  note := moveNote qitem plan input
  reopen := input.reopen

lemma admittedPair_of_fields {state : QueueState} {reason : Option String}
    (h : admitsClosureFields state reason = true)
    (hdone : state = .done → ∃ r, reason.bind ClosureReason.ofText? = some r ∧ r ≠ .blockedOn) :
    admittedPair state (reason.bind ClosureReason.ofText?) := by
  unfold admitsClosureFields at h
  simp only [Bool.or_eq_true, Bool.and_eq_true, decide_eq_true_eq] at h
  rcases h with ((hs | ⟨hs, hr⟩) | ⟨hs, hr⟩) | ⟨hs, hr⟩
  · obtain ⟨r, hr, hne⟩ := hdone hs
    rw [hs, hr]
    exact hne
  · rw [hs, hr, show (some "blocked_on").bind ClosureReason.ofText? = some .blockedOn from
      ClosureReason.ofText?_text .blockedOn]
    trivial
  · rw [hs, hr, show (some "handed_off_to").bind ClosureReason.ofText? = some .handedOffTo from
      ClosureReason.ofText?_text .handedOffTo]
    trivial
  · rw [hs, hr, show (some "superseded").bind ClosureReason.ofText? = some .superseded from
      ClosureReason.ofText?_text .superseded]
    trivial

lemma PlanAdmitted.reason_isSome {env : Env} {db : Db} {qitem : QueueItem} {state : QueueState}
    {input : QueueUpdateInput} {plan : UpdatePlan} (h : PlanAdmitted env db qitem state input plan)
    (hr : input.closureReason.isSome = true) : plan.closureReason.isSome = true := by
  have hpair := admittedPair_of_fields (h.fields (.inl hr)) fun hs => h.closureReason ▸ h.done hs
  rw [← h.closureReason] at hpair
  by_contra hn
  have hn : plan.closureReason = none := by simpa using hn
  rw [hn] at hpair
  cases hs : state <;> simp [admittedPair, hs] at hpair

lemma PlanAdmitted.acknowledged {env : Env} {db : Db} {qitem : QueueItem} {state : QueueState}
    {input : QueueUpdateInput} {plan : UpdatePlan} (h : PlanAdmitted env db qitem state input plan)
    (hr : isReopen qitem state = true) :
    ∃ text, input.transitionNote = some text ∧ isBlank text = false ∧
      (moveOf qitem plan input).note = some (reopenAcknowledged text) := by
  have hnote := (h.reopening hr).2.2
  unfold QueueUpdateInput.hasNote nonBlank at hnote
  obtain ⟨text, htext, hb⟩ := (Option.any_eq_true _ _).mp hnote
  refine ⟨text, htext, by simpa using hb, ?_⟩
  change moveNote qitem plan input = _
  unfold moveNote reopenAcknowledged
  rw [h.state_eq, if_pos hr, htext, Option.getD_some]

lemma PlanAdmitted.admitted {env : Env} {db : Db} {qitem : QueueItem} {state : QueueState}
    {input : QueueUpdateInput} {plan : UpdatePlan} (h : PlanAdmitted env db qitem state input plan)
    (hmove : ¬ (qitem.state.isGuardedTerminal = true ∧ state = qitem.state))
    (hist : List Mark) : Admitted (lifeOf qitem hist) (moveOf qitem plan input) where
  reopening hg := by
    have hne : state ≠ qitem.state := fun e => hmove ⟨hg, e⟩
    have hr : isReopen qitem state = true := by
      have hg : qitem.state.isGuardedTerminal = true := hg
      simp [isReopen, hg, hne]
    obtain ⟨hreopen, hlive, -⟩ := h.reopening hr
    obtain ⟨text, -, hblank, hack⟩ := h.acknowledged hr
    have hstate : (moveOf qitem plan input).state = state := h.state_eq
    refine ⟨fun e => hne (hstate.symm.trans e), hreopen, ?_, text, hblank, hack⟩
    rw [hstate]
    exact hlive
  fields hf := by
    have hf : plan.closureReason.isSome ∨ plan.closureTarget.isSome := hf
    change admittedPair plan.state plan.closureReason
    rw [h.state_eq, h.closureReason]
    refine admittedPair_of_fields (h.fields ?_) fun hs => h.closureReason ▸ h.done hs
    rcases hf with hf | hf
    · rw [h.closureReason] at hf
      left
      by_contra hn
      simp only [Bool.not_eq_true, Option.isSome_eq_false_iff, Option.isNone_iff_eq_none] at hn
      simp [hn] at hf
    · rw [h.closureTarget] at hf
      exact .inr hf
  why hs := by
    obtain ⟨r, hr, -⟩ := h.done (h.state_eq.symm.trans hs)
    have hr : (moveOf qitem plan input).closureReason = some r := hr
    simp [hr]

@[simp] lemma view_settleParkWake (db : Db) (qitem : QueueItem) (plan : UpdatePlan)
    (wake : Option ParkWake) (t : ℕ) : view (settleParkWake db qitem plan wake t) = view db := by
  unfold settleParkWake
  split
  · simp only [view_recordWake]
    split
    · rw [view_retireParkGeneratedTimer]
    · rfl
  · split
    · rw [view_retireParkGeneratedTimer]
    · rfl

lemma items_settleParkWake (db : Db) (qitem : QueueItem) (plan : UpdatePlan)
    (wake : Option ParkWake) (t : ℕ) : (settleParkWake db qitem plan wake t).items = db.items := by
  unfold settleParkWake
  split
  · simp only [Db.items_recordWake]
    split
    · rw [items_retireParkGeneratedTimer]
    · rfl
  · split
    · rw [items_retireParkGeneratedTimer]
    · rfl

/-- The close a move to a closed state is, to the rows parked on it. -/
def closingOf (qitem : QueueItem) (plan : UpdatePlan) (input : QueueUpdateInput) : Closing where
  blocker := input.qitemId
  terminalState := plan.state
  handedOffTo := (input.handedOffTo <|> qitem.handedOffTo).getD ""
  successor := false

/-- **What the writes of a move did**: one move of the row, and its propagation when it closed. -/
lemma applyUpdate_eq_ok {env : Env} {db db' : Db} {jobs : Jobs} {qitem : QueueItem}
    {plan : UpdatePlan} {wake : Option ParkWake} {input : QueueUpdateInput}
    (hr : db.getById input.qitemId = some qitem)
    (ha : Admitted (lifeOf qitem (marks db input.qitemId)) (moveOf qitem plan input))
    (h : applyUpdate env (db.setJobs jobs) qitem plan wake input = .ok db') :
    (plan.state.isBlockerLive = true ∧
        Touched db db' input.qitemId (.move (moveOf qitem plan input))) ∨
      (plan.state.isBlockerLive = false ∧
        ClosedWith db db' (closingOf qitem plan input) (.move (moveOf qitem plan input))) := by
  have hid := Db.getById_id hr
  unfold applyUpdate at h
  simp only [hid] at h
  have htouch : ∀ db₁ t, t.qitemId = input.qitemId →
      markOfInput t = ⟨plan.state, plan.closureReason, plan.closureTarget,
        moveNote qitem plan input⟩ →
      view db₁ = view (((db.setJobs jobs).updateRow input.qitemId
        (movedRow env plan input (nextResolution qitem plan input))).append env.now t) →
      Touched db db₁ input.qitemId (.move (moveOf qitem plan input)) := by
    intro db₁ t ht hm hv
    refine touched_of_write (t := t) hr rfl (hv.trans (view_congr rfl rfl)) ht ?_
    rw [hm]
    exact .move ha
  split at h
  · rename_i hlive
    obtain ⟨db₁, hprop, h⟩ := bind_eq_ok.mp h
    cases pure_eq_ok.mp h
    cases pure_eq_ok.mp hprop
    refine .inl ⟨hlive, ?_⟩
    refine htouch _ _ ?_ ?_ ((view_emit _ _).trans (view_settleParkWake _ _ _ _ _)) <;> rfl
  · rename_i hdead
    obtain ⟨db₁, hprop, h⟩ := bind_eq_ok.mp h
    cases pure_eq_ok.mp h
    have hdead : plan.state.isBlockerLive = false := by simpa using hdead
    refine .inr ⟨hdead, ?_⟩
    have hclosed : ∀ db₁ : Db, db₁.items.rows = db.items.rows.map
        (Table.rewrite (fun r => r.qitemId = input.qitemId)
          (movedRow env plan input (nextResolution qitem plan input))) →
        ClosedBy db db₁ (closingOf qitem plan input) qitem
          (movedRow env plan input (nextResolution qitem plan input)) [] :=
      fun db₁ hrows =>
        { source := hr
          rows := hrows.trans (List.append_nil _).symm
          qitemId := fun _ => rfl
          handedOffFrom := fun _ => rfl
          destinationSession := fun _ => rfl
          handedOffTo := rfl
          closed := hdead
          extra_eq := .inl ⟨rfl, rfl⟩ }
    refine (closedWith_of_propagate (hclosed _ ?_)
      (htouch _ _ ?_ ?_ (view_settleParkWake _ _ _ _ _))
      (.inl rfl) rfl rfl hprop).congr (view_emit _ _)
    · rw [items_settleParkWake]
      rfl
    · rfl
    · rfl

lemma state_of_append {qitem : QueueItem} {input : QueueUpdateInput} {s : QueueState}
    (h : isStatePreservingAppend qitem input = true) (hs : input.state = some s) :
    qitem.state = s := by
  simp only [isStatePreservingAppend, hs, Option.isNone_some, Bool.false_or, Bool.or_eq_true,
    Bool.and_eq_true, decide_eq_true_eq, Option.some.injEq] at h
  rcases h with ⟨-, h⟩ | ⟨-, h⟩ <;> exact h.symm

/-- A committed `update`: a note on the row, a move that leaves it active, or a close. -/
inductive UpdateEffect (env : Env) (db db' : Db) (input : QueueUpdateInput) : Prop
  | append {qitem : QueueItem} (hr : db.getById input.qitemId = some qitem)
      (hkeep : isStatePreservingAppend qitem input = true)
      (hfields : hasStateWriteField input = false)
      (htouch : Touched db db' input.qitemId .note)
  | move {qitem : QueueItem} {state : QueueState} {plan : UpdatePlan}
      (hr : db.getById input.qitemId = some qitem) (hstate : input.state = some state)
      (hplan : PlanAdmitted env db qitem state input plan)
      (hlive : state.isBlockerLive = true)
      (htouch : Touched db db' input.qitemId (.move (moveOf qitem plan input)))
  | close {qitem : QueueItem} {state : QueueState} {plan : UpdatePlan}
      (hr : db.getById input.qitemId = some qitem) (hstate : input.state = some state)
      (hplan : PlanAdmitted env db qitem state input plan)
      (hmove : isStatePreservingAppend qitem input = false)
      (hdead : state.isBlockerLive = false)
      (hclosed : ClosedWith db db' (closingOf qitem plan input)
        (.move (moveOf qitem plan input)))

/-- **Inversion of `update`.** -/
theorem update_eq_ok {env : Env} {db db' : Db} {input : QueueUpdateInput}
    (h : update env db input = .ok db') : UpdateEffect env db db' input := by
  unfold update at h
  obtain ⟨qitem, hr, h⟩ := bind_eq_ok.mp h
  have hr := requireItem_eq_ok.mp hr
  obtain ⟨deadline, -, h⟩ := bind_eq_ok.mp h
  split at h
  · rename_i hkeep
    obtain ⟨hf, ht⟩ := appendOnly_touched hr h
    exact .append hr hkeep hf ht
  · rename_i hmove
    split at h
    · rename_i hnone
      obtain ⟨hf, ht⟩ := appendOnly_touched hr h
      exact .append hr (by simp [isStatePreservingAppend, hnone]) hf ht
    · rename_i state hstate
      obtain ⟨plan, hplan, h⟩ := bind_eq_ok.mp h
      obtain ⟨⟨wake, jobs⟩, -, h⟩ := bind_eq_ok.mp h
      have hplan := admitUpdate_eq_ok hplan
      have hmove : isStatePreservingAppend qitem input = false := by simpa using hmove
      have hleave : ¬ (qitem.state.isGuardedTerminal = true ∧ state = qitem.state) := by
        rintro ⟨hg, hs⟩
        simp [isStatePreservingAppend, hg, hstate, hs] at hmove
      rcases applyUpdate_eq_ok hr (hplan.admitted hleave _) h with ⟨hl, ht⟩ | ⟨hd, hc⟩
      · exact .move hr hstate hplan (hplan.state_eq ▸ hl) ht
      · exact .close hr hstate hplan hmove (hplan.state_eq ▸ hd) hc

end OpenRig.Moves
