import OpenRig.KeptDecisions

/-!
The revision over whole runs.

The acts that only claim, note or reply outside the decision keep the revision of a row that is not
parked, and of a parked one nobody claims. An act that changes the decision changes what is hashed:
a park begun in a run has an entry no earlier log holds, and a reply an id no earlier row has.
-/

namespace OpenRig.RevisionRuns

open OpenRig.JsText OpenRig.Sessions OpenRig.Closure OpenRig.QueueDb OpenRig.Outbox
open OpenRig.Watchdogs OpenRig.Verbs OpenRig.Handoff OpenRig.Update OpenRig.Firing
open OpenRig.Runs OpenRig.Lifecycle OpenRig.RowEffects OpenRig.Moves OpenRig.Refinement
open OpenRig.ClosureFields OpenRig.Appended OpenRig.Reroutes OpenRig.HumanAnswers
open OpenRig.DecisionRevision OpenRig.KeptDecisions

/-! ### Reachable stores -/

def performs (s : Store) (l : AnswerEnv × Act) (s' : Store) : Prop := perform l.1 s l.2 = .ok s'

/-- A daemon's store after some acts. -/
def Reachable (s : Store) : Prop := ∃ acts, Path performs Store.empty acts s

/-- What holds of the tables at any time: the log of a row ends in its state, an open row names no
blocker, and transition ids count the log. -/
structure Sound (db : Db) : Prop where
  logged : Logged db
  opened : OpenUnblocked db
  counted : Counted db.transitions

def openLife (l : Life) : Prop := phaseOf l.state = "open" → l.blockedOn = none

lemma openUnblocked_iff {db : Db} :
    OpenUnblocked db ↔ ∀ k l, view db k = some l → openLife l := by
  constructor
  · intro h k l hl
    obtain ⟨r, hr, rfl⟩ := view_eq_some.mp hl
    exact h k r hr
  · exact fun h k r hr => h k _ (view_of_getById hr)

/-- **A write of the life cycle** leaves an open row without a blocker. -/
lemma Step.openLife {v v' : Option Life} {w : RowWrite} (h : Step v w v')
    (hv : ∀ l, v = some l → openLife l) : ∀ l, v' = some l → openLife l := by
  rintro l' rfl
  cases h with
  | insert => exact fun _ => rfl
  | claim => exact fun _ => rfl
  | @release l n hs => exact fun _ => hv l rfl (phaseOf_eq_open.mpr (.inr hs))
  | @note l => exact hv l rfl
  | @reroute l => exact hv l rfl
  | close hopen hterm =>
    intro ho
    rcases phaseOf_eq_open.mp ho with rfl | rfl <;> cases hterm
  | @move l m =>
    intro ho
    have ho : phaseOf m.state = "open" := ho
    refine if_neg fun hb => ?_
    rw [hb] at ho
    exact absurd ho (by decide)
  | @rebind l s n hs =>
    intro ho
    have ho : phaseOf l.state = "open" := ho
    rw [hs] at ho
    exact absurd ho (by decide)
  | unpark => exact fun _ => rfl

lemma Sound.commits {db db' : Db} {l : Env × Op} (h : Sound db) (hc : commits db l db') :
    Sound db' := by
  refine ⟨logged_commits hc h.logged, openUnblocked_iff.mpr fun k => ?_,
    (exec_appends hc).counted h.counted⟩
  obtain ⟨ws, -, hpath⟩ := exec_touches hc k
  exact hpath.invariant (I := fun v : Option Life => ∀ l, v = some l → openLife l)
    (fun _ _ _ hstep hI => Step.openLife hstep hI) (openUnblocked_iff.mp h.opened k)

lemma Sound.nudged {db : Db} (h : Sound db) (env : Env) (q result : String) :
    Sound (recordNudgeAttempt env db q result) := by
  have hview := view_recordNudgeAttempt env db q result
  exact ⟨fun k l hl => h.logged k l (hview ▸ hl),
    openUnblocked_iff.mpr fun k l hl => openUnblocked_iff.mp h.opened k l (hview ▸ hl), h.counted⟩

/-! ### What an act does to the tables -/

/-- The tables after some operations, or with one row's last wake recorded. -/
def TablesStep (a : AnswerEnv) (db db' : Db) : Prop :=
  (∃ ls, Path commits db ls db') ∨ ∃ q result, db' = recordNudgeAttempt a.env db q result

lemma tables_same {a : AnswerEnv} {db db' : Db} (h : db' = db) : TablesStep a db db' :=
  .inl ⟨[], h ▸ .nil _⟩

lemma tables_update {a : AnswerEnv} {db db' : Db} {input : QueueUpdateInput}
    (h : update a.env db input = .ok db') : TablesStep a db db' :=
  .inl ⟨[(a.env, .update input)], .single h⟩

lemma closeDirectAsk_tables {a : AnswerEnv} {s s' : Store} {item : QueueItem}
    {actor text : String} {primaryUser : Bool}
    (h : closeDirectAsk a.env s item actor text primaryUser = .ok s') :
    TablesStep a s.db s'.db := by
  unfold closeDirectAsk at h
  obtain ⟨db, hu, h⟩ := bind_eq_ok.mp h
  cases pure_eq_ok.mp h
  -- the answers are written first, and are no part of the tables
  cases hp : placeTypedReply item (s.humanAnswers item.qitemId) text with
  | none =>
    rw [hp] at hu
    exact tables_update hu
  | some placed =>
    rw [hp] at hu
    exact tables_update hu

lemma resolveDirectHumanReply_tables {a : AnswerEnv} {s s' : Store} {input : DirectReplyInput}
    (h : resolveDirectHumanReply a s input = .ok s') : TablesStep a s.db s'.db := by
  unfold resolveDirectHumanReply at h
  split at h
  · exact tables_same (by rw [← pure_eq_ok.mp h])
  · split at h
    · exact tables_same (by rw [← pure_eq_ok.mp h])
    · split at h
      · exact closeDirectAsk_tables h
      · exact closeDirectAsk_tables h

lemma closeStaleRunnerPermission_tables {a : AnswerEnv} {db : Db} {q : String} {o : Option Db}
    (h : closeStaleRunnerPermission a db q = .ok o) : ∀ db',
    o = some db' → TablesStep a db db' := by
  rintro db' rfl
  unfold closeStaleRunnerPermission at h
  split at h
  · cases h
  · split at h
    · cases h
    · split at h
      · cases h
      · split at h
        · cases h
        · rename_i item _ _ _ _ _ _ _ _ _
          generalize hu : update a.env db _ = u at h
          cases u with
          | error e => cases h
          | ok db₁ =>
            cases h
            exact tables_update hu

lemma recordHumanAnswer_tables {a : AnswerEnv} {s s' : Store} {input : HumanAnswerInput}
    (h : recordHumanAnswer a s input = .ok s') : TablesStep a s.db s'.db := by
  unfold recordHumanAnswer at h
  obtain ⟨o, ho, h⟩ := bind_eq_ok.mp h
  cases o with
  | some db =>
    cases pure_eq_ok.mp h
    exact closeStaleRunnerPermission_tables ho db rfl
  | none =>
    dsimp only at h
    split at h
    · exact tables_same (by rw [← pure_eq_ok.mp h]; rfl)
    · exact resolveDirectHumanReply_tables h
    · exact tables_same (by rw [← pure_eq_ok.mp h])
    · exact tables_same (by rw [← pure_eq_ok.mp h])

lemma recordDelegatedDecision_tables {a : AnswerEnv} {s s' : Store}
    {input : DelegatedDecisionInput} (h : recordDelegatedDecision a.env s input = .ok s') :
    TablesStep a s.db s'.db := by
  unfold recordDelegatedDecision at h
  split at h
  · exact tables_same (by rw [← pure_eq_ok.mp h])
  · split at h
    · exact tables_same (by rw [← pure_eq_ok.mp h])
    · obtain ⟨db, hu, h⟩ := bind_eq_ok.mp h
      cases pure_eq_ok.mp h
      exact tables_update hu

/-- **What an act does to the tables.** -/
lemma performs_tables {s s' : Store} {l : AnswerEnv × Act} (h : performs s l s') :
    TablesStep l.1 s.db s'.db := by
  obtain ⟨a, act⟩ := l
  unfold performs at h
  cases act with
  | op op =>
    cases hx : exec a.env s.db op with
    | error e => simp [perform, hx, Except.map] at h
    | ok db =>
      obtain rfl : { s with db } = s' := by simpa [perform, hx, Except.map] using h
      exact .inl ⟨[(a.env, op)], .single hx⟩
  | recordNudgeAttempt q result =>
    cases pure_eq_ok.mp h
    exact .inr ⟨q, result, rfl⟩
  | recordHumanAnswer input => exact recordHumanAnswer_tables h
  | resolveDirectHumanReply input => exact resolveDirectHumanReply_tables h
  | recordParkedTypedReply q text =>
    cases pure_eq_ok.mp h
    refine tables_same ?_
    unfold recordParkedTypedReply
    split
    · rfl
    · split <;> rfl
  | recordDelegatedDecision input => exact recordDelegatedDecision_tables h

lemma TablesStep.sound {a : AnswerEnv} {db db' : Db} (h : TablesStep a db db') (hs : Sound db) :
    Sound db' := by
  rcases h with ⟨ls, hpath⟩ | ⟨q, result, rfl⟩
  · exact hpath.invariant (I := Sound) (fun _ _ _ hc hI => hI.commits hc) hs
  · exact hs.nudged a.env q result

lemma TablesStep.appends {a : AnswerEnv} {db db' : Db} (h : TablesStep a db db') :
    Appends (fun _ => True) db.transitions db'.transitions := by
  rcases h with ⟨ls, hpath⟩ | ⟨q, result, rfl⟩
  · exact hpath.invariant (I := fun d => Appends (fun _ => True) db.transitions d.transitions)
      (fun _ _ _ hc hI => hI.trans (exec_appends hc)) (.refl _)
  · exact .refl _

lemma Reachable.sound {s : Store} (h : Reachable s) : Sound s.db := by
  obtain ⟨acts, hpath⟩ := h
  refine hpath.invariant (I := fun s : Store => Sound s.db)
    (fun _ _ _ hp hI => (performs_tables hp).sound hI) ⟨?_, ?_, ?_⟩
  · exact fun k l hl => by cases hl
  · exact fun k r hr => by cases hr
  · exact ⟨by simp [Store.empty, Db.empty], List.Pairwise.nil⟩

/-! ### Quiet acts -/

/-- The new row is a reply to `k` that counts. -/
def Answers (k : String) (operation : Option String) (input : QueueCreateInput) : Prop :=
  (input.replyTo = some k ∨ input.inboundReplyTo = some k) ∧
    ∀ tag, excludeOp operation = some tag → tag ∉ input.tags.getD []

/-- The operations that only claim, unclaim, append notes, relabel the summary, record a wake's
attempt, or create a row that is no reply that counts. A claim is not of row `k` while it is
parked. -/
def Quiet (k : String) (operation : Option String) (db : Db) : Op → Prop
  | .create input => ¬ Answers k operation input
  | .claim input => input.qitemId = k → ∀ r, db.getById k = some r → r.state ≠ .blocked
  | .unclaim _ | .releaseClaims _ | .transferClaims _ _ _ => True
  | .update input => AppendsNote db input
  | .wakeAttempt a => resolvedTargets db a = []
  | .terminalBeforeDelivery _ | .refreshWaits _ _ | .job _ => True
  | .handoff _ | .handoffAndComplete _ | .closeCrossHost _ | .routeToFallback _ => False

def QuietAct (k : String) (operation : Option String) (s : Store) : Act → Prop
  | .op op => Quiet k operation s.db op
  | .recordNudgeAttempt _ _ => True
  | _ => False

def quietly (k : String) (operation : Option String) (s : Store) (l : AnswerEnv × Act)
    (s' : Store) : Prop := performs s l s' ∧ QuietAct k operation s l.2

lemma mem_withHumanAlertTag {tags : Option (List String)} {alert : Option Bool} {op t : String}
    (ht : t = mcOperationTag op) (hmem : t ∈ tags.getD []) :
    t ∈ (withHumanAlertTag tags alert).getD [] := by
  have hne : t ≠ humanAlertTag := by
    rintro rfl
    have := congrArg (fun x : String => x.toList.head?) ht
    simp [humanAlertTag, mcOperationTag] at this
  have hrest : t ∈ (tags.getD []).filter (· ≠ humanAlertTag) :=
    List.mem_filter.mpr ⟨hmem, by simpa using hne⟩
  have hsome : tags.isSome = true := by
    cases tags with
    | none => cases hmem
    | some l => rfl
  unfold withHumanAlertTag
  dsimp only
  split
  · exact List.mem_append_left _ hrest
  · exact hrest

lemma counts_newRow {env : Env} {db₁ : Db} {k : String} {operation : Option String}
    {input : QueueCreateInput} (h : ¬ Answers k operation input) (a : Option Time)
    (n : Option String) : counts k (excludeOp operation) { newRow env input with
      replyTo := effectiveReplyTo db₁ input, lastNudgeAttempt := a, lastNudgeResult := n } =
        false := by
  by_contra hc
  unfold counts at hc
  simp only [Bool.not_eq_false, Bool.and_eq_true, decide_eq_true_eq, Bool.not_eq_true'] at hc
  obtain ⟨hreply, htag⟩ := hc
  refine h ⟨?_, fun tag he hmem => ?_⟩
  · unfold effectiveReplyTo at hreply
    cases hr : input.replyTo with
    | some x => exact .inl (by simpa [hr] using hreply)
    | none =>
      have hreply : input.inboundReplyTo.filter (fun r => (db₁.getById r).isSome) = some k := by
        rw [hr] at hreply
        exact hreply
      exact .inr (Option.filter_eq_some_iff.mp hreply).1
  · rw [he] at htag
    have hop : tag = mcOperationTag (operation.getD "") := by
      unfold excludeOp at he
      cases operation with
      | none => cases he
      | some op =>
        rw [Option.filter_some] at he
        split at he
        · exact (Option.some.inj he).symm
        · cases he
    simp [newRow, mem_withHumanAlertTag hop hmem] at htag

/-- **One quiet operation** keeps the decision. -/
theorem exec_kept {k : String} {operation : Option String} {r : QueueItem} {env : Env}
    {db db' : Db} {op : Op} (hs : Sound db) (hr : db.getById k = some r)
    (hq : Quiet k operation db op) (h : exec env db op = .ok db') :
    Kept k (excludeOp operation) r db db' := by
  cases op with
  | create input =>
    obtain ⟨reply, h⟩ := map_snd_eq_ok h
    rcases create_new h with ⟨_, _, -, rfl, -⟩ | ⟨-, db₁, a, n, hins⟩
    · exact .refl _ hr
    · exact .inserted hr hins (counts_newRow hq a n)
  | claim input => exact claim_kept hs.opened hr (fun hk => hq hk r hr) h
  | unclaim input => exact unclaim_kept hr h
  | update input => exact update_kept hs.opened hr hq h
  | handoff input => exact hq.elim
  | handoffAndComplete input => exact hq.elim
  | closeCrossHost input => exact hq.elim
  | routeToFallback input => exact hq.elim
  | releaseClaims g =>
    cases pure_eq_ok.mp h
    exact releaseClaims_kept hr g
  | transferClaims a b note =>
    cases pure_eq_ok.mp h
    exact transferClaims_kept hr a b note
  | wakeAttempt a => exact accountWake_kept hr hq h
  | terminalBeforeDelivery j =>
    cases pure_eq_ok.mp h
    obtain ⟨jobs, hj⟩ := terminalBeforeDelivery_eq db j
    rw [hj]
    exact (Kept.refl _ hr).setJobs jobs
  | refreshWaits changed proof =>
    cases pure_eq_ok.mp h
    obtain ⟨jobs, hj⟩ := refreshQueueWaits_eq env changed proof db
    rw [hj]
    exact (Kept.refl _ hr).setJobs jobs
  | job op =>
    cases hj : execJob env db.jobs op with
    | error e => simp [exec, hj, Except.map] at h
    | ok jobs =>
      obtain rfl : db.setJobs jobs = db' := by simpa [exec, hj, Except.map] using h
      exact (Kept.refl _ hr).setJobs jobs

lemma decision_of_kept {s s' : Store} {k : String} {operation : Option String} {r r' : QueueItem}
    (hs : Sound s.db) (hr : s.db.getById k = some r)
    (h : Kept k (excludeOp operation) r s.db s'.db) (hr' : s'.db.getById k = some r')
    (hanswers : s'.humanAnswers = s.humanAnswers)
    (hdelegated : s'.delegatedDecision = s.delegatedDecision) :
    decision s' r' operation = decision s r operation := by
  obtain ⟨r₁, hr₁, hsame⟩ := h.row
  cases hr'.symm.trans hr₁
  obtain ⟨new, hnew, hstays⟩ := h.log
  have hk := Db.getById_id hr
  have hk' := Db.getById_id hr'
  have hepisode : currentHumanRequiredEpisode s'.db k = currentHumanRequiredEpisode s.db k := by
    have hnone : new.find? humanRequired = none :=
      List.find?_eq_none.mpr fun t ht => by simp [(hstays t ht).1]
    rw [currentHumanRequiredEpisode_eq, currentHumanRequiredEpisode_eq, hnew, List.find?_append,
      hnone, Option.none_or]
  have hpark : (if r'.state = .blocked then parkEntry (s'.db.historyOf k) else none) =
      if r.state = .blocked then parkEntry (s.db.historyOf k) else none := by
    by_cases hb : r.state = .blocked
    · have hhead : (s.db.historyOf k).head?.map Transition.state = some .blocked := by
        have := hs.logged k _ (view_of_getById hr)
        unfold Life.logged lifeOf marks at this
        rw [List.head?_map, Option.map_map] at this
        exact this.trans (congrArg some hb)
      rw [if_pos hb, if_pos (hsame.blocked_iff.mpr hb), hnew,
        parkEntry_append (fun t ht => (hstays t ht).2 hb) hhead]
    · rw [if_neg hb, if_neg fun hb' => hb (hsame.blocked_iff.mp hb')]
  unfold decision
  rw [hk', hk, hepisode, hpark, h.replies, hanswers, hdelegated, hsame.body, hsame.humanIntent,
    hsame.humanQuestions, hsame.phase, hsame.destinationSession, hsame.blockedOn]

/-- **One quiet act** keeps the decision. -/
lemma quietly_decision {s s' : Store} {l : AnswerEnv × Act} {k : String}
    {operation : Option String} {r : QueueItem} (hs : Sound s.db) (hr : s.db.getById k = some r)
    (h : quietly k operation s l s') :
    ∃ r', s'.db.getById k = some r' ∧ decision s' r' operation = decision s r operation := by
  obtain ⟨hp, hq⟩ := h
  obtain ⟨a, act⟩ := l
  cases act with
  | op op =>
    cases hx : exec a.env s.db op with
    | error e => simp [performs, perform, hx, Except.map] at hp
    | ok db =>
      obtain rfl : { s with db } = s' := by simpa [performs, perform, hx, Except.map] using hp
      have hkept := exec_kept hs hr hq hx
      obtain ⟨r', hr', -⟩ := hkept.row
      exact ⟨r', hr', decision_of_kept hs hr hkept hr' rfl rfl⟩
  | recordNudgeAttempt q result =>
    cases pure_eq_ok.mp hp
    have hkept : Kept k (excludeOp operation) r s.db (recordNudgeAttempt a.env s.db q result) :=
      (Kept.refl _ hr).updateRow (fun _ => rfl) fun _ _ _ => ⟨rfl, rfl, rfl, rfl, rfl, rfl⟩
    obtain ⟨r', hr', -⟩ := hkept.row
    exact ⟨r', hr', decision_of_kept hs hr hkept hr' rfl rfl⟩
  | recordHumanAnswer input => exact hq.elim
  | resolveDirectHumanReply input => exact hq.elim
  | recordParkedTypedReply q text => exact hq.elim
  | recordDelegatedDecision input => exact hq.elim

/-- **Quiet runs** keep the decision. -/
theorem quiet_run {s s' : Store} {acts : List (AnswerEnv × Act)} {k : String}
    {operation : Option String} {r : QueueItem} (hs : Sound s.db) (hr : s.db.getById k = some r)
    (h : Path (quietly k operation) s acts s') :
    ∃ r', s'.db.getById k = some r' ∧ decision s' r' operation = decision s r operation := by
  have := h.invariant (I := fun t : Store => Sound t.db ∧ ∃ r', t.db.getById k = some r' ∧
    decision t r' operation = decision s r operation) ?_ ⟨hs, r, hr, rfl⟩
  · exact this.2
  · rintro t l t' hq ⟨ht, r₁, hr₁, hd⟩
    obtain ⟨r', hr', hd'⟩ := quietly_decision ht hr₁ hq
    exact ⟨(performs_tables hq.1).sound ht, r', hr', hd'.trans hd⟩

/-! ### Acts on the decision -/

/-- What a run changed of the decision row `k` is: `r` before it and `r'` after. -/
inductive Alters (k : String) (operation : Option String) (s s' : Store) (r r' : QueueItem) : Prop
  | destination (h : r'.destinationSession ≠ r.destinationSession)
  | blocker (h : r'.blockedOn ≠ r.blockedOn)
  | answers (h : s'.humanAnswers k ≠ s.humanAnswers k)
  | delegated (h : s'.delegatedDecision k ≠ s.delegatedDecision k)
  /-- The row is in a park one of the run's transitions began. -/
  | park {newer older : List Transition} {t : Transition} (hb : r'.state = .blocked)
      (hlog : s'.db.historyOf k = newer ++ t :: older) (hnew : t ∉ s.db.historyOf k)
      (ht : t.state = .blocked) (hout : older.head?.map Transition.state ≠ some .blocked)
  /-- One of the run's transitions asked a person. -/
  | asked {t : Transition} (ht : t ∈ s'.db.historyOf k) (hnew : t ∉ s.db.historyOf k)
      (hr : humanRequired t = true)
  | closes (h : r.state.isBlockerLive = true) (h' : r'.state.isBlockerLive = false)
  | reopens (h : r.state.isBlockerLive = false) (h' : r'.state.isBlockerLive = true)
  | ends (h : r.state = .blocked) (h' : r'.state ≠ .blocked)
  | reply {x : QueueItem} (hx : s'.db.getById x.qitemId = some x)
      (hnew : s.db.getById x.qitemId = none) (hc : counts k (excludeOp operation) x = true)

lemma grown_log {s s' : Store} {acts : List (AnswerEnv × Act)} (h : Path performs s acts s')
    (hs : Sound s.db) (k : String) : ∃ new, s'.db.historyOf k = new ++ s.db.historyOf k ∧
      ∀ t ∈ new, ∀ x ∈ s.db.historyOf k, x.transitionId < t.transitionId := by
  have hgrown : Sound s'.db ∧
      Appends (fun _ => True) s.db.transitions s'.db.transitions :=
    h.invariant (I := fun t : Store => Sound t.db ∧
      Appends (fun _ => True) s.db.transitions t.db.transitions)
      (fun _ _ _ hp hI => ⟨(performs_tables hp).sound hI.1,
        hI.2.trans (performs_tables hp).appends⟩) ⟨hs, .refl _⟩
  obtain ⟨new, hnew, -⟩ := hgrown.2.split
  have hsorted := hgrown.1.counted.2
  rw [hnew, List.pairwise_append] at hsorted
  refine ⟨new.filter (·.qitemId = k), ?_, fun t ht x hx => ?_⟩
  · unfold Db.historyOf
    rw [hnew, List.filter_append]
  · exact hsorted.2.2 t (List.mem_filter.mp ht).1 x (List.mem_filter.mp hx).1

lemma parkEntry_new {new old newer older : List Transition} {t : Transition}
    (habove : ∀ x ∈ new, ∀ y ∈ old, y.transitionId < x.transitionId)
    (hlog : new ++ old = newer ++ t :: older) (hnew : t ∉ old) (ht : t.state = .blocked)
    (hout : older.head?.map Transition.state ≠ some .blocked) :
    parkEntry (new ++ old) ≠ parkEntry old := by
  obtain ⟨x, hx, hentry⟩ := @parkEntry_above newer older t ht hout
  have hnewer : ∀ y ∈ newer ++ [t], y ∈ new := by
    -- the run's transitions reach down to the one that began the park
    have hsplit : new ++ old = (newer ++ [t]) ++ older := by rw [hlog]; simp
    rcases List.append_eq_append_iff.mp hsplit with ⟨mid, hmid, hold⟩ | ⟨mid, hmid, -⟩
    · rcases mid.eq_nil_or_concat with rfl | ⟨mid, y, rfl⟩
      · rw [List.append_nil] at hmid
        exact fun y hy => hmid ▸ hy
      · rw [List.concat_eq_append, ← List.append_assoc] at hmid
        have hty : t = y := by
          have := congrArg List.getLast? hmid
          simpa using this
        exact absurd (hold ▸ by simp [hty]) hnew
    · exact fun y hy => hmid ▸ List.mem_append_left _ hy
  rw [hlog, hentry]
  intro he
  obtain ⟨y, hy, hid⟩ := parkEntry_mem he.symm
  exact absurd (habove x (hnewer x hx) y hy) (by omega)

lemma episode_new {db db' : Db} {k : String} {new : List Transition} {t : Transition}
    (hlog : db'.historyOf k = new ++ db.historyOf k)
    (habove : ∀ x ∈ new, ∀ y ∈ db.historyOf k, y.transitionId < x.transitionId)
    (ht : t ∈ new) (hr : humanRequired t = true) :
    currentHumanRequiredEpisode db' k ≠ currentHumanRequiredEpisode db k := by
  obtain ⟨x, hx⟩ := Option.isSome_iff_exists.mp (List.find?_isSome.mpr ⟨t, ht, hr⟩)
  rw [currentHumanRequiredEpisode_eq, currentHumanRequiredEpisode_eq, hlog, List.find?_append, hx,
    Option.some_or, Option.map_some]
  intro he
  obtain ⟨y, hy, hkey⟩ := Option.map_eq_some_iff.mp he.symm
  have hid : y.transitionId = x.transitionId := by
    refine toString_inj (String.toList_injective ?_)
    simpa using congrArg String.toList hkey
  exact absurd (habove x (List.mem_of_find?_eq_some hx) y (List.mem_of_find?_eq_some hy)) (by omega)

/-- **What a run changes of the decision shows in what is hashed.** -/
theorem altered_decision {s s' : Store} {acts : List (AnswerEnv × Act)} {k : String}
    {operation : Option String} {r r' : QueueItem} (hs : Sound s.db)
    (hr : s.db.getById k = some r) (h : Path performs s acts s')
    (hr' : s'.db.getById k = some r') (ha : Alters k operation s s' r r') :
    decision s' r' operation ≠ decision s r operation := by
  obtain ⟨new, hlog, habove⟩ := grown_log h hs k
  have hk := Db.getById_id hr
  have hk' := Db.getById_id hr'
  intro he
  have hphase : phaseOf r'.state = phaseOf r.state := congrArg Decision.phase he
  cases ha with
  | destination h => exact h (congrArg Decision.destinationSession he)
  | blocker h => exact h (congrArg Decision.blockedOn he)
  | answers h =>
    have := congrArg Decision.humanAnswers he
    exact h (by simpa [decision, hk, hk'] using this)
  | delegated h =>
    have := congrArg Decision.delegatedDecision he
    exact h (by simpa [decision, hk, hk'] using this)
  | @park newer older t hb hlog' hnew ht hout =>
    have hb₀ : r.state = .blocked := by
      rw [← phaseOf_eq_blocked, ← hphase, hb]
      rfl
    have hsame : parkEntry (s'.db.historyOf k) = parkEntry (s.db.historyOf k) := by
      have := congrArg Decision.parkEntry he
      simpa [decision, hk, hk', hb, hb₀] using this
    rw [hlog] at hsame hlog'
    exact parkEntry_new habove hlog' hnew ht hout hsame
  | @asked t ht hnew hreq =>
    have hsame : currentHumanRequiredEpisode s'.db k = currentHumanRequiredEpisode s.db k := by
      have := congrArg Decision.episode he
      simpa [decision, hk, hk'] using this
    rw [hlog] at ht
    exact episode_new hlog habove ((List.mem_append.mp ht).resolve_right hnew) hreq hsame
  | closes hl hd =>
    rw [phaseOf_live hphase, hl] at hd
    cases hd
  | reopens hd hl =>
    rw [phaseOf_live hphase, hd] at hl
    cases hl
  | ends hb hn =>
    refine hn (phaseOf_eq_blocked.mp ?_)
    rw [hphase, hb]
    rfl
  | @reply x hx hnew hc =>
    have hsame : replies s'.db k (excludeOp operation) = replies s.db k (excludeOp operation) := by
      have := congrArg Decision.replies he
      simpa [decision, hk, hk'] using this
    have hmem : x.qitemId ∈ replies s.db k (excludeOp operation) :=
      hsame ▸ mem_replies.mpr ⟨x, hx, hc⟩
    obtain ⟨y, hy, -⟩ := mem_replies.mp hmem
    rw [hnew] at hy
    cases hy

/-- **The revision is of what a person decides on.** From every reachable store and for every row:
a run of claims, releases, notes, relabelled summaries, recorded attempts and replies the operation
tag excludes leaves the revision alone, unless it claims the row out of a park; and a run that
changes the destination, the blocker, the answers or the delegated decision, begins a park or asks a
person again, ends a park, closes or reopens the row, or adds a reply that counts, changes the tuple
that is hashed. -/
theorem revision_follows_decision (sha256Hex : String → String) {s : Store} (hs : Reachable s)
    {k : String} {r : QueueItem} (hr : s.db.getById k = some r) (operation : Option String)
    (acts : List (AnswerEnv × Act)) (s' : Store) :
    (Path (quietly k operation) s acts s' → ∃ r', s'.db.getById k = some r' ∧
      decisionRevision sha256Hex s' r' operation = decisionRevision sha256Hex s r operation) ∧
    (Path performs s acts s' → ∀ r', s'.db.getById k = some r' → Alters k operation s s' r r' →
      decision s' r' operation ≠ decision s r operation) := by
  constructor
  · intro h
    obtain ⟨r', hr', hd⟩ := quiet_run hs.sound hr h
    refine ⟨r', hr', ?_⟩
    unfold decisionRevision
    rw [hd]
  · exact fun h r' hr' ha => altered_decision hs.sound hr h hr' ha

/-! ### A park claimed -/

/-- The store after a list of acts, unless one of them is refused. -/
def runActs (s : Store) (ls : List (AnswerEnv × Act)) : Result Store :=
  ls.foldlM (fun s l => perform l.1 s l.2) s

lemma exists_acts (s : Store) (ls : List (AnswerEnv × Act)) (p : Store → Bool)
    (h : (runActs s ls).toOption.any p = true) : ∃ s', Path performs s ls s' ∧ p s' = true :=
  exists_of_foldlM ls p h

/-- A daemon at one instant, with nobody registered. -/
def plainAnswerEnv (now : ℕ) : AnswerEnv := ⟨plainEnv now now "job", id, fun _ => none⟩

def claimedAct : List (AnswerEnv × Act) :=
  [(plainAnswerEnv 1, .op (.create
      { qitemId := some "qitem-1", sourceSession := "asker@rig", destinationSession := "owner@rig",
        body := "Work waiting on a check" })),
   (plainAnswerEnv 2, .op (.claim { qitemId := "qitem-1", destinationSession := "owner@rig" }))]

def parkAct : AnswerEnv × Act :=
  (plainAnswerEnv 3, .op (.update
    { qitemId := "qitem-1", actorSession := "owner@rig", state := some .blocked,
      blockedOn := some "external:qa-pass" }))

def claimAct : AnswerEnv × Act :=
  (plainAnswerEnv 4, .op (.claim { qitemId := "qitem-1", destinationSession := "owner@rig" }))

/-- Its owner appends a note to the park. -/
def noteAct : AnswerEnv × Act :=
  (plainAnswerEnv 5, .op (.update
    { qitemId := "qitem-1", actorSession := "owner@rig", state := some .blocked,
      transitionNote := some "The check is still running" }))

/-- A row that replies to it, for the operation of the tag if there is one. -/
def replyAct (qitemId : String) (tags : List String) : AnswerEnv × Act :=
  (plainAnswerEnv 6, .op (.create
    { qitemId := some qitemId, sourceSession := "asker@rig", destinationSession := "owner@rig",
      body := "On it", inboundReplyTo := some "qitem-1", tags := some tags }))

def stateIs (s : Store) (state : QueueState) : Bool :=
  (s.db.getById "qitem-1").any fun r => r.state = state

lemma row_of_stateIs {s : Store} {state : QueueState} (h : stateIs s state = true) :
    ∃ r, s.db.getById "qitem-1" = some r ∧ r.state = state := by
  unfold stateIs at h
  obtain ⟨r, hr, hs⟩ := (Option.any_eq_true _ _).mp h
  exact ⟨r, hr, by simpa using hs⟩

lemma exists_act {s : Store} {l : AnswerEnv × Act} {p : Store → Bool}
    (h : (runActs s [l]).toOption.any p = true) : ∃ s', Path performs s [l] s' ∧ p s' = true :=
  exists_acts s [l] p h

/-- A parked row keeps its revision through a note and a reply of the excluded operation, and loses
it to another reply. -/
theorem revision_follows_decision_parked : ∃ s s₁ s₂ r r₁ r₂,
    Reachable s ∧ s.db.getById "qitem-1" = some r ∧ s₁.db.getById "qitem-1" = some r₁ ∧
      s₂.db.getById "qitem-1" = some r₂ ∧ r.state = .blocked ∧
      Path performs s [noteAct, replyAct "qitem-2" ["mc-operation:mail"]] s₁ ∧
      decisionRevision id s₁ r₁ (some "mail") = decisionRevision id s r (some "mail") ∧
      Path performs s₁ [replyAct "qitem-3" []] s₂ ∧
      decision s₂ r₂ (some "mail") ≠ decision s₁ r₁ (some "mail") := by
  let replied (s : Store) : Bool :=
    (s.db.getById "qitem-1").isSome && (s.db.getById "qitem-3").any
      (counts "qitem-1" (excludeOp (some "mail")))
  obtain ⟨s, hrun, hp⟩ := exists_acts Store.empty (claimedAct ++ [parkAct])
    (fun s => stateIs s .blocked && (runActs s [noteAct]).toOption.any fun s' =>
      (runActs s' [replyAct "qitem-2" ["mc-operation:mail"]]).toOption.any fun s₁ =>
        (s₁.db.getById "qitem-3").isNone &&
          (runActs s₁ [replyAct "qitem-3" []]).toOption.any replied)
    (by decide +kernel)
  rw [Bool.and_eq_true] at hp
  obtain ⟨r, hr, hblocked⟩ := row_of_stateIs hp.1
  obtain ⟨s', hnote, hp'⟩ := exists_act hp.2
  obtain ⟨s₁, hreply, hp₁⟩ := exists_act hp'
  rw [Bool.and_eq_true] at hp₁
  obtain ⟨s₂, hcounting, hp₂⟩ := exists_act hp₁.2
  rw [Bool.and_eq_true] at hp₂
  have hquiet : Path (quietly "qitem-1" (some "mail")) s
      [noteAct, replyAct "qitem-2" ["mc-operation:mail"]] s₁ := by
    refine .cons ⟨Path.single_iff.mp hnote, ?_⟩ (.single ⟨Path.single_iff.mp hreply, ?_⟩)
    · exact .park hr hblocked rfl (.inl rfl)
    · rintro ⟨-, hcounts⟩
      exact hcounts _ rfl (by simp [mcOperationTag])
  have hs₁ : Reachable s₁ := ⟨_, (hrun.append hnote).append hreply⟩
  obtain ⟨r₁, hr₁, hsame⟩ :=
    (revision_follows_decision id ⟨_, hrun⟩ hr (some "mail") _ s₁).1 hquiet
  obtain ⟨r₂, hr₂⟩ := Option.isSome_iff_exists.mp hp₂.1
  obtain ⟨x, hx, hc⟩ := (Option.any_eq_true _ _).mp hp₂.2
  have hid : x.qitemId = "qitem-3" := Db.getById_id hx
  refine ⟨s, s₁, s₂, r, r₁, r₂, ⟨_, hrun⟩, hr, hr₁, hr₂, hblocked,
    hquiet.mono fun _ _ _ h => h.1, hsame, hcounting, ?_⟩
  exact (revision_follows_decision id hs₁ hr₁ (some "mail") _ s₂).2 hcounting r₂ hr₂
    (.reply (hid ▸ hx) (by simpa [hid] using hp₁.1) hc)

/-- **A claim ends a park**, and the revision of a parked row changes with it. -/
theorem claim_of_parked_row : ∃ s s' r r', Reachable s ∧ Path performs s [claimAct] s' ∧
    s.db.getById "qitem-1" = some r ∧ s'.db.getById "qitem-1" = some r' ∧
      decision s' r' none ≠ decision s r none := by
  obtain ⟨s, hrun, hp⟩ := exists_acts Store.empty (claimedAct ++ [parkAct])
    (fun s => stateIs s .blocked && (runActs s [claimAct]).toOption.any (stateIs · .inProgress))
    (by decide +kernel)
  simp only [Bool.and_eq_true] at hp
  obtain ⟨r, hr, hblocked⟩ := row_of_stateIs hp.1
  obtain ⟨s', hclaim, hp'⟩ := exists_act hp.2
  obtain ⟨r', hr', hclaimed⟩ := row_of_stateIs hp'
  refine ⟨s, s', r, r', ⟨_, hrun⟩, hclaim, hr, hr', fun he => ?_⟩
  have hphase : phaseOf r'.state = phaseOf r.state := congrArg Decision.phase he
  rw [hclaimed, hblocked] at hphase
  exact absurd hphase (by decide)

end OpenRig.RevisionRuns
