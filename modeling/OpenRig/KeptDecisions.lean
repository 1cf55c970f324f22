import OpenRig.DecisionRevision

/-!
The operations that keep a decision.

A claim, the release of one, a note, a relabelled summary, a wake's attempt and an excluded reply
leave the row's ask as it was: its columns, the park its log is in, the latest ask of a person and
the replies that count.
-/

namespace OpenRig.KeptDecisions

open OpenRig.JsText OpenRig.Sessions OpenRig.Closure OpenRig.QueueDb OpenRig.Outbox
open OpenRig.Watchdogs OpenRig.Verbs OpenRig.Handoff OpenRig.Update OpenRig.Firing
open OpenRig.Runs OpenRig.Lifecycle OpenRig.RowEffects OpenRig.Moves OpenRig.Refinement
open OpenRig.ClosureFields OpenRig.Appended OpenRig.HumanAnswers OpenRig.DecisionRevision

/-! ### What is kept -/

/-- The columns of the decision, where a pending and a claimed row are the same. -/
structure SameAsk (r r' : QueueItem) : Prop where
  body : r'.body = r.body
  humanIntent : r'.humanIntent = r.humanIntent
  humanQuestions : r'.humanQuestions = r.humanQuestions
  phase : phaseOf r'.state = phaseOf r.state
  destinationSession : r'.destinationSession = r.destinationSession
  blockedOn : r'.blockedOn = r.blockedOn

lemma SameAsk.refl (r : QueueItem) : SameAsk r r := ⟨rfl, rfl, rfl, rfl, rfl, rfl⟩

lemma SameAsk.trans {r r' r'' : QueueItem} (h : SameAsk r r') (h' : SameAsk r' r'') :
    SameAsk r r'' :=
  ⟨h'.body.trans h.body, h'.humanIntent.trans h.humanIntent,
    h'.humanQuestions.trans h.humanQuestions, h'.phase.trans h.phase,
    h'.destinationSession.trans h.destinationSession, h'.blockedOn.trans h.blockedOn⟩

lemma SameAsk.blocked_iff {r r' : QueueItem} (h : SameAsk r r') :
    r'.state = .blocked ↔ r.state = .blocked := by
  rw [← phaseOf_eq_blocked, ← phaseOf_eq_blocked, h.phase]

lemma SameAsk.open_iff {r r' : QueueItem} (h : SameAsk r r') :
    phaseOf r'.state = "open" ↔ phaseOf r.state = "open" := by rw [h.phase]

/-- A transition that leaves the row's ask alone: it asks no person, and it stays in a park. -/
def StaysIn (r : QueueItem) (t : Transition) : Prop :=
  humanRequired t = false ∧ (r.state = .blocked → t.state = .blocked)

/-- The tables keep the decision row `k` is, which is `r` in `db`. -/
structure Kept (k : String) (tag : Option String) (r : QueueItem) (db db' : Db) : Prop where
  row : ∃ r', db'.getById k = some r' ∧ SameAsk r r'
  log : ∃ new, db'.historyOf k = new ++ db.historyOf k ∧ ∀ t ∈ new, StaysIn r t
  replies : replies db' k tag = replies db k tag

namespace Kept

variable {k : String} {tag : Option String} {r r₁ : QueueItem} {db db₁ db₂ : Db}

lemma refl (tag : Option String) (hr : db.getById k = some r) : Kept k tag r db db :=
  ⟨⟨r, hr, .refl r⟩, ⟨[], rfl, by simp⟩, rfl⟩

lemma congr (h : Kept k tag r db db₁) (hi : db₂.items = db₁.items)
    (ht : db₂.transitions = db₁.transitions) : Kept k tag r db db₂ := by
  obtain ⟨r', hr', hsame⟩ := h.row
  have hget : db₂.getById k = db₁.getById k := by
    unfold Db.getById
    rw [hi]
  have hlog : db₂.historyOf k = db₁.historyOf k := by
    unfold Db.historyOf
    rw [ht]
  refine ⟨⟨r', hget.trans hr', hsame⟩, by rw [hlog]; exact h.log, ?_⟩
  have hrows : db₂.items.rows.map replyKey = db₁.items.rows.map replyKey := by rw [hi]
  rw [replies_congr hrows, h.replies]

lemma emit (h : Kept k tag r db db₁) (e : RigEvent) :
    Kept k tag r db (db₁.emit e) := h.congr rfl rfl

lemma setJobs (h : Kept k tag r db db₁) (jobs : Jobs) : Kept k tag r db (db₁.setJobs jobs) :=
  h.congr rfl rfl

lemma recordWake (h : Kept k tag r db db₁) (w : WakeRecord) : Kept k tag r db (db₁.recordWake w) :=
  h.congr rfl rfl

lemma retireTimer (h : Kept k tag r db db₁) (q reason : String) :
    Kept k tag r db (retireParkGeneratedTimer db₁ q reason) :=
  h.congr (items_retireParkGeneratedTimer db₁ q reason)
    (transitions_retireParkGeneratedTimer db₁ q reason)

lemma append (h : Kept k tag r db db₁) (ts : Time) {t : TransitionInput}
    (ht : t.qitemId = k → StaysIn r (t.toTransition db₁.nextTransitionId ts)) :
    Kept k tag r db (db₁.append ts t) := by
  obtain ⟨new, hnew, hstays⟩ := h.log
  refine ⟨h.row, ?_, h.replies⟩
  rw [Db.historyOf_append]
  split
  · rename_i hk
    refine ⟨_ :: new, by rw [hnew, List.cons_append], fun x hx => ?_⟩
    rcases List.mem_cons.mp hx with rfl | hx
    · exact ht hk.symm
    · exact hstays x hx
  · exact ⟨new, hnew, hstays⟩

lemma updateRow (h : Kept k tag r db db₁) {q : String} {f : QueueItem → QueueItem} {hf}
    (hkey : ∀ x, replyKey (f x) = replyKey x)
    (hrow : q = k → ∀ r₁, SameAsk r r₁ → SameAsk r₁ (f r₁)) :
    Kept k tag r db (db₁.updateRow q f hf) := by
  obtain ⟨r₁, hr₁, hsame⟩ := h.row
  refine ⟨?_, h.log, ?_⟩
  · rw [Db.getById_updateRow]
    split
    · rename_i hk
      exact ⟨f r₁, by rw [hr₁]; rfl, hsame.trans (hrow hk.symm r₁ hsame)⟩
    · exact ⟨r₁, hr₁, hsame⟩
  · rw [← h.replies]
    refine replies_congr ?_ k tag
    change (db₁.items.rows.map (Table.rewrite (fun x => x.qitemId = q) f)).map replyKey =
      db₁.items.rows.map replyKey
    rw [List.map_map]
    refine List.map_congr_left fun x _ => ?_
    simp only [Function.comp_apply, Table.rewrite]
    split
    · exact hkey x
    · rfl

lemma inserted (hr : db.getById k = some r) {s : QueueItem} (h : Inserted db db₁ s)
    (hs : counts k tag s = false) : Kept k tag r db db₁ := by
  have hk : k ≠ s.qitemId := by
    rintro rfl
    rw [h.fresh] at hr
    cases hr
  refine ⟨⟨r, (h.getById_other hk).trans hr, .refl r⟩, ⟨[], ?_, by simp⟩, replies_snoc h.rows hs⟩
  obtain ⟨t, ht, -, hlog⟩ := h.transitions
  have hne : ¬ t.qitemId = k := fun e => hk (e.symm.trans ht)
  unfold Db.historyOf
  rw [hlog, List.filter_cons_of_neg (by simpa using hne)]
  rfl

end Kept

/-! ### One operation at a time -/

/-- An open row names no blocker. -/
def OpenUnblocked (db : Db) : Prop :=
  ∀ k r, db.getById k = some r → phaseOf r.state = "open" → r.blockedOn = none

lemma sameAsk_open {r r' : QueueItem} (ho : phaseOf r.state = "open")
    (ho' : phaseOf r'.state = "open") (hbody : r'.body = r.body)
    (hintent : r'.humanIntent = r.humanIntent) (hquestions : r'.humanQuestions = r.humanQuestions)
    (hdest : r'.destinationSession = r.destinationSession) (hblocked : r'.blockedOn = r.blockedOn) :
    SameAsk r r' := ⟨hbody, hintent, hquestions, ho'.trans ho.symm, hdest, hblocked⟩

section Verbs

variable {k : String} {tag : Option String} {r : QueueItem} {env : Env} {db db' : Db}

lemma claim_kept (hopen : OpenUnblocked db) (hr : db.getById k = some r) {input : QueueClaimInput}
    (hk : input.qitemId = k → r.state ≠ .blocked) (h : claim env db input = .ok db') :
    Kept k tag r db db' := by
  unfold claim at h
  obtain ⟨qitem, hq, h⟩ := bind_eq_ok.mp h
  obtain ⟨-, -, h⟩ := bind_eq_ok.mp h
  obtain ⟨_, hs, h⟩ := bind_eq_ok.mp h
  cases pure_eq_ok.mp h
  have hq := requireItem_eq_ok.mp hq
  have hpending : input.qitemId = k → r.state = .pending := by
    rintro rfl
    cases hr.symm.trans hq
    by_contra hp
    simp [hp, hk rfl] at hs
  have hclaimed : Kept k tag r db
      (db.updateRow input.qitemId (claimRow env input.destinationSession)) := by
    refine (Kept.refl tag hr).updateRow (fun _ => rfl) fun he r₁ hsame => ?_
    have ho : phaseOf r.state = "open" := phaseOf_eq_open.mpr (.inl (hpending he))
    refine sameAsk_open (hsame.open_iff.mpr ho) rfl rfl rfl rfl rfl ?_
    exact (hsame.blockedOn.trans (hopen k r hr ho)).symm
  refine Kept.emit (Kept.retireTimer (hclaimed.append env.now ?_) _ _) _
  exact fun he => ⟨rfl, fun hb => absurd hb (hk he)⟩

lemma releaseRow_sameAsk {r₁ : QueueItem} (ho : phaseOf r₁.state = "open") (now : Time) :
    SameAsk r₁ (releaseRow now r₁) := sameAsk_open ho rfl rfl rfl rfl rfl rfl

lemma open_of_inProgress {r₁ : QueueItem} (hs : r.state = .inProgress) (h : SameAsk r r₁) :
    phaseOf r₁.state = "open" := h.open_iff.mpr (phaseOf_eq_open.mpr (.inr hs))

lemma unclaim_kept (hr : db.getById k = some r) {input : QueueUnclaimInput}
    (h : unclaim env db input = .ok db') : Kept k tag r db db' := by
  unfold unclaim at h
  obtain ⟨qitem, hq, h⟩ := bind_eq_ok.mp h
  obtain ⟨_, hs, h⟩ := bind_eq_ok.mp h
  cases pure_eq_ok.mp h
  have hs : qitem.state = .inProgress := by simpa using hs
  have hclaimed : input.qitemId = k → r.state = .inProgress := by
    rintro rfl
    cases hr.symm.trans (requireItem_eq_ok.mp hq)
    exact hs
  have hreleased : Kept k tag r db (db.updateRow input.qitemId (releaseRow env.now)) :=
    (Kept.refl tag hr).updateRow (fun _ => rfl) fun he r₁ hsame =>
      releaseRow_sameAsk (open_of_inProgress (hclaimed he) hsame) env.now
  refine Kept.emit (hreleased.append env.now ?_) _
  exact fun he => ⟨rfl, fun hb => by simp [hclaimed he] at hb⟩

lemma claims_kept (hr : db.getById k = some r) (g : String) (body : Db → String → Db)
    (hbody : ∀ db₁ q, (q = k → r.state = .inProgress) → Kept k tag r db db₁ →
      Kept k tag r db (body db₁ q)) :
    Kept k tag r db ((claimsOfGeneration db g).foldl body db) := by
  have hclaimed : ∀ q ∈ claimsOfGeneration db g, q = k → r.state = .inProgress := by
    rintro q hq rfl
    obtain ⟨r', hr', hp⟩ := mem_filter_ids.mp hq
    cases hr.symm.trans hr'
    simp only [Bool.and_eq_true, decide_eq_true_eq] at hp
    exact hp.1
  refine (path_of_foldl body (claimsOfGeneration db g) db).invariant_of_labels
    (I := Kept k tag r db) ?_ hclaimed (.refl tag hr)
  rintro db₁ q _ hq rfl hkept
  exact hbody db₁ q hq hkept

lemma releaseClaims_kept (hr : db.getById k = some r) (g : String) :
    Kept k tag r db (releaseClaimsByGeneration env db g) := by
  unfold releaseClaimsByGeneration
  split
  · exact .refl tag hr
  · refine claims_kept hr g _ fun db₁ q hq hkept => ?_
    have hreleased : Kept k tag r db (db₁.updateRow q (releaseRow env.now)) :=
      hkept.updateRow (fun _ => rfl) fun he r₁ hsame =>
        releaseRow_sameAsk (open_of_inProgress (hq he) hsame) env.now
    exact hreleased.append env.now fun he => ⟨rfl, fun hb => by simp [hq he] at hb⟩

lemma transferClaims_kept (hr : db.getById k = some r) (a b note : String) :
    Kept k tag r db (transferClaimsByGeneration env db a b note) := by
  unfold transferClaimsByGeneration
  split
  · exact .refl tag hr
  · refine claims_kept hr a _ fun db₁ q hq hkept => ?_
    have hmoved : Kept k tag r db (db₁.updateRow q fun r =>
        { r with claimedByGeneration := some b, tsUpdated := env.now }) :=
      hkept.updateRow (fun _ => rfl) fun _ _ _ => ⟨rfl, rfl, rfl, rfl, rfl, rfl⟩
    exact hmoved.append env.now fun he => ⟨rfl, fun hb => by simp [hq he] at hb⟩

/-! ### Notes -/

lemma appendOnly_kept (hr : db.getById k = some r) {qitem : QueueItem} {input : QueueUpdateInput}
    (hq : db.getById input.qitemId = some qitem) {deadline : Option Time}
    (h : appendOnly env db qitem input deadline = .ok db') : Kept k tag r db db' := by
  unfold appendOnly at h
  obtain ⟨-, -, h⟩ := bind_eq_ok.mp h
  split at h
  · split at h
    · obtain ⟨-, -, h⟩ := bind_eq_ok.mp h
      simp at h
    · simp at h
  · cases pure_eq_ok.mp h
    have hsum : Kept k tag r db (if input.hasValidSummary = true then
        db.updateRow input.qitemId fun r => { r with summary := input.summary } else db) := by
      split
      · exact (Kept.refl tag hr).updateRow (fun _ => rfl) fun _ _ _ =>
          ⟨rfl, rfl, rfl, rfl, rfl, rfl⟩
      · exact .refl tag hr
    refine Kept.emit (Kept.append ?_ _ ?_) _
    · cases deadline with
      | none => exact hsum
      | some t => exact hsum.updateRow (fun _ => rfl) fun _ _ _ => ⟨rfl, rfl, rfl, rfl, rfl, rfl⟩
    · rintro rfl
      cases hr.symm.trans hq
      exact ⟨rfl, id⟩

/-- The update moves no row to another phase or blocker: it appends a note, restates a park with
the blocker it has, or leaves an open row open. -/
inductive AppendsNote (db : Db) (input : QueueUpdateInput) : Prop
  | append {qitem : QueueItem} (hq : db.getById input.qitemId = some qitem)
      (ha : isStatePreservingAppend qitem input = true)
  | park {qitem : QueueItem} (hq : db.getById input.qitemId = some qitem)
      (hs : qitem.state = .blocked) (hi : input.state = some .blocked)
      (hb : input.blockedOn = none ∨ input.blockedOn = qitem.blockedOn)
  | opened {qitem : QueueItem} {state : QueueState} (hq : db.getById input.qitemId = some qitem)
      (hs : phaseOf qitem.state = "open") (hi : input.state = some state)
      (ho : phaseOf state = "open")

lemma classify_stays (i : ClassifyInput) (hc : i.create = false)
    (h : i.nextState = .blocked → i.previousState = some .blocked ∧
      i.nextBlockedOn = i.previousBlockedOn) :
    ((classifyOwnerNotification env i).any fun n => n.1 = .humanRequired) = false := by
  unfold classifyOwnerNotification
  split
  · rfl
  · split
    · rfl
    · rename_i people _
      have hno : ¬ ((decide (i.nextState = .blocked) &&
          (resolveRegisteredHumanAddress i.nextBlockedOn people).isSome &&
          (decide (i.previousState ≠ some .blocked) ||
            decide (resolveRegisteredHumanAddress i.previousBlockedOn people ≠
              resolveRegisteredHumanAddress i.nextBlockedOn people))) = true) := by
        intro hp
        simp only [Bool.and_eq_true, decide_eq_true_eq] at hp
        obtain ⟨hprev, hsame⟩ := h hp.1.1
        simp [hprev, hsame] at hp
      rw [if_neg hno]
      simp [hc]

lemma effectiveBlockedOn_park {qitem : QueueItem} {input : QueueUpdateInput}
    (hs : qitem.state = .blocked)
    (hb : input.blockedOn = none ∨ input.blockedOn = qitem.blockedOn) :
    effectiveBlockedOn db qitem .blocked input = qitem.blockedOn := by
  unfold effectiveBlockedOn
  rcases hb with hb | hb
  · cases hq : qitem.blockedOn <;> simp [hb, hs]
  · cases hq : qitem.blockedOn <;> simp [hb, hs, hq]

lemma applyUpdate_kept (hr : db.getById k = some r) {qitem : QueueItem} {input : QueueUpdateInput}
    {plan : UpdatePlan} {wake : Option ParkWake} {jobs : Jobs}
    (hq : db.getById input.qitemId = some qitem) (hlive : plan.state.isBlockerLive = true)
    (hphase : phaseOf plan.state = phaseOf qitem.state)
    (hblocker : (if plan.state = .blocked then plan.blocker else none) = qitem.blockedOn)
    (h : applyUpdate env (db.setJobs jobs) qitem plan wake input = .ok db') :
    Kept k tag r db db' := by
  have hid := Db.getById_id hq
  unfold applyUpdate at h
  simp only [hid, hlive, if_true] at h
  obtain ⟨_, hprop, h⟩ := bind_eq_ok.mp h
  cases pure_eq_ok.mp hprop
  cases pure_eq_ok.mp h
  have hblocked : qitem.state = .blocked ↔ plan.state = .blocked := by
    rw [← phaseOf_eq_blocked, ← phaseOf_eq_blocked, hphase]
  have hmoved : Kept k tag r db ((db.setJobs jobs).updateRow input.qitemId
      (movedRow env plan input (nextResolution qitem plan input))) := by
    refine ((Kept.refl tag hr).setJobs jobs).updateRow (fun _ => rfl) ?_
    rintro rfl r₁ hsame
    cases hr.symm.trans hq
    exact ⟨rfl, rfl, rfl, hphase.trans hsame.phase.symm, rfl, hblocker.trans hsame.blockedOn.symm⟩
  refine Kept.emit (Kept.congr (Kept.append hmoved env.now ?_) (items_settleParkWake _ _ _ _ _)
    (transitions_settleParkWake _ _ _ _ _)) _
  rintro rfl
  cases hr.symm.trans hq
  refine ⟨classify_stays _ rfl fun hb => ⟨congrArg some (hblocked.mpr hb), hblocker⟩, hblocked.mp⟩

lemma update_kept (hopen : OpenUnblocked db) (hr : db.getById k = some r)
    {input : QueueUpdateInput} (hn : AppendsNote db input) (h : update env db input = .ok db') :
    Kept k tag r db db' := by
  unfold update at h
  obtain ⟨qitem, hq, h⟩ := bind_eq_ok.mp h
  have hq := requireItem_eq_ok.mp hq
  obtain ⟨deadline, -, h⟩ := bind_eq_ok.mp h
  split at h
  · exact appendOnly_kept hr hq h
  · rename_i hmove
    split at h
    · exact appendOnly_kept hr hq h
    · rename_i state hstate
      obtain ⟨plan, hplan, hrest⟩ := bind_eq_ok.mp h
      obtain ⟨⟨wake, jobs⟩, -, happly⟩ := bind_eq_ok.mp hrest
      have hp := admitUpdate_eq_ok hplan
      cases hn with
      | append hq' ha =>
        cases hq.symm.trans hq'
        exact absurd ha hmove
      | park hq' hs hi hb =>
        cases hq.symm.trans hq'
        obtain rfl : state = .blocked := Option.some.inj (hstate.symm.trans hi)
        refine applyUpdate_kept hr hq (by rw [hp.state_eq]; rfl) (by rw [hp.state_eq, hs]) ?_ happly
        rw [if_pos hp.state_eq, hp.blocker, effectiveBlockedOn_park hs hb]
      | @opened qitem' state' hq' hs hi ho =>
        cases hq.symm.trans hq'
        obtain rfl : state = state' := Option.some.inj (hstate.symm.trans hi)
        have hnot : state ≠ .blocked := by
          rintro rfl
          exact absurd ho (by decide)
        refine applyUpdate_kept hr hq ?_ (by rw [hp.state_eq, ho, hs]) ?_ happly
        · rw [hp.state_eq]
          rcases phaseOf_eq_open.mp ho with rfl | rfl <;> rfl
        · rw [if_neg (by rw [hp.state_eq]; exact hnot)]
          exact (hopen _ _ hq hs).symm

/-! ### Wakes -/

lemma recordFired_kept {db₁ : Db} (h : Kept k tag r db db₁) (a : WakeAttempt)
    (target : String × ParkWake) : Kept k tag r db (recordFired env a db₁ target) := by
  have hnoted := h.append env.now (t :=
    { qitemId := target.1, state := .blocked, actorSession := "watchdog@system",
      transitionNote := some a.note }) fun _ => ⟨rfl, fun _ => rfl⟩
  unfold recordFired
  dsimp only
  split
  · exact (hnoted.recordWake _).emit _
  · exact hnoted.emit _

lemma accountWake_kept (hr : db.getById k = some r) {a : WakeAttempt}
    (hno : resolvedTargets db a = []) (h : accountWake env db a = .ok db') :
    Kept k tag r db db' := by
  have hfired : ∀ targets : List (String × ParkWake),
      Kept k tag r db (targets.foldl (recordFired env a) db) := fun targets =>
    (path_of_foldl (recordFired env a) targets db).invariant (I := Kept k tag r db)
      (by rintro d t _ rfl hI; exact recordFired_kept hI a t) (.refl tag hr)
  unfold accountWake at h
  split at h
  · rename_i hactive
    unfold recordWatchdogWakeAttempt at h
    split at h
    · cases pure_eq_ok.mp h
      exact .refl tag hr
    · simp only at h
      split at h
      · cases pure_eq_ok.mp h
        exact hfired _
      · rename_i howed
        split at h
        · cases pure_eq_ok.mp h
          obtain ⟨jobs, hj⟩ := settleFiredJob_eq env a
            (!(findCurrentQitemsByGeneratedTimer db a.jobId).isEmpty)
            ((findBlockedQitemsByWatchdog db a.jobId true).foldl (recordFired env a) db)
          rw [hj]
          exact (hfired _).setJobs jobs
        · rename_i hsome
          simp only [Bool.or_eq_true, decide_eq_true_eq, not_or, Bool.not_eq_true,
            Option.isSome_eq_false_iff] at howed
          unfold resolvedTargets at hno
          rw [if_pos (by simp [hactive, howed.1, howed.2])] at hno
          exact absurd (by simpa using hno) (by simpa using hsome)
  · cases pure_eq_ok.mp h
    exact .refl tag hr

end Verbs

end OpenRig.KeptDecisions
