import OpenRig.Firing
import OpenRig.Lifecycle

/-!
Every verb refines the life cycle.

`Db.view` reads a daemon's tables as one life for each row id. `exec_touches` says, for every
operation and every row, which writes of the life cycle that row went through in the
operation's transaction.
-/

namespace OpenRig.RowEffects

open OpenRig.JsText OpenRig.Sessions OpenRig.Closure OpenRig.QueueDb OpenRig.Outbox
open OpenRig.Watchdogs OpenRig.Verbs OpenRig.Handoff OpenRig.Update OpenRig.Firing
open OpenRig.Runs OpenRig.Lifecycle

/-! ### The view -/

def markOf (t : Transition) : Mark := ⟨t.state, t.closureReason, t.closureTarget, t.transitionNote⟩

def markOfInput (t : TransitionInput) : Mark :=
  ⟨t.state, t.closureReason, t.closureTarget, t.transitionNote⟩

@[simp] lemma markOf_toTransition (t : TransitionInput) (id : ℕ) (ts : Time) :
    markOf (t.toTransition id ts) = markOfInput t := rfl

/-- A row and its log as a life. -/
def lifeOf (r : QueueItem) (history : List Mark) : Life where
  state := r.state
  blockedOn := r.blockedOn
  closureReason := r.closureReason
  closureTarget := r.closureTarget
  chain := r.chainOfRecord.getD []
  history

/-- The row's log, as marks. -/
def marks (db : Db) (id : String) : List Mark := (db.historyOf id).map markOf

def view (db : Db) (id : String) : Option Life :=
  (db.getById id).map fun r => lifeOf r (marks db id)

/-- A life with one more transition. -/
def logMark (m : Mark) (l : Life) : Life := { l with history := m :: l.history }

lemma view_eq_some {db : Db} {k : String} {l : Life} :
    view db k = some l ↔ ∃ r, db.getById k = some r ∧ lifeOf r (marks db k) = l := by
  simp [view]

lemma view_of_getById {db : Db} {k : String} {r : QueueItem} (h : db.getById k = some r) :
    view db k = some (lifeOf r (marks db k)) := by
  simp [view, h]

lemma view_eq_none {db : Db} {k : String} : view db k = none ↔ db.getById k = none := by
  simp [view]

lemma view_congr {db db' : Db} (hi : db'.items = db.items)
    (ht : db'.transitions = db.transitions) : view db' = view db := by
  funext k
  simp [view, marks, Db.getById, Db.historyOf, hi, ht]

section
variable (db : Db) (id : String) (f : QueueItem → QueueItem) (hf) (ts : Time)
variable (t : TransitionInput)

lemma view_updateRow (k : String) :
    view (db.updateRow id f hf) k =
      if k = id then (db.getById k).map fun r => lifeOf (f r) (marks db k) else view db k := by
  unfold view
  rw [Db.getById_updateRow]
  split
  · rw [Option.map_map]
    rfl
  · rfl

lemma view_updateRow_quiet (hq : ∀ r h, lifeOf (f r) h = lifeOf r h) :
    view (db.updateRow id f hf) = view db := by
  funext k
  rw [view_updateRow]
  split
  · simp only [hq]
    rfl
  · rfl

lemma view_append (k : String) :
    view (db.append ts t) k =
      if k = t.qitemId then (view db k).map (logMark (markOfInput t)) else view db k := by
  unfold view marks
  rw [Db.getById_append, Db.historyOf_append]
  split
  · cases db.getById k <;> rfl
  · rfl

lemma view_touch (ht : t.qitemId = id) (k : String) :
    view ((db.updateRow id f hf).append ts t) k =
      if k = id then (db.getById k).map fun r => lifeOf (f r) (markOfInput t :: marks db k)
      else view db k := by
  rw [view_append, view_updateRow, ht]
  split
  · cases db.getById k <;> rfl
  · rfl

end

@[simp] lemma view_recordWake (db : Db) (w : WakeRecord) : view (db.recordWake w) = view db := rfl
@[simp] lemma view_emit (db : Db) (e : RigEvent) : view (db.emit e) = view db := rfl
@[simp] lemma view_setJobs (db : Db) (jobs : Jobs) : view (db.setJobs jobs) = view db := rfl
@[simp] lemma view_setOutbox (db : Db) (o : Entries) : view (db.setOutbox o) = view db := rfl
@[simp] lemma view_retireParkGeneratedTimer (db : Db) (q reason : String) :
    view (retireParkGeneratedTimer db q reason) = view db :=
  view_congr (items_retireParkGeneratedTimer db q reason)
    (transitions_retireParkGeneratedTimer db q reason)
@[simp] lemma view_recordNudgeAttempt (env : Env) (db : Db) (q result : String) :
    view (recordNudgeAttempt env db q result) = view db :=
  view_updateRow_quiet _ _ _ _ fun _ _ => rfl

@[simp] lemma view_updateRow_replyTo (db : Db) (id : String) (x : Option String) (hf) :
    view (db.updateRow id (fun r => { r with replyTo := x }) hf) = view db :=
  view_updateRow_quiet _ _ _ _ fun _ _ => rfl

/-! ### Verbs on one row -/

/-- A row that went through one write, while the others stood still. -/
def Touched (db db' : Db) (id : String) (w : RowWrite) : Prop :=
  Step (view db id) w (view db' id) ∧ ∀ k, k ≠ id → view db' k = view db k

lemma touched_of_write {db db₁ db' : Db} {id : String} {f : QueueItem → QueueItem} {hf}
    {ts : Time} {t : TransitionInput} {r : QueueItem} {w : RowWrite} (hr : db.getById id = some r)
    (h₁ : db₁ = (db.updateRow id f hf).append ts t) (hv : view db' = view db₁)
    (ht : t.qitemId = id)
    (hstep : Step (some (lifeOf r (marks db id))) w
      (some (lifeOf (f r) (markOfInput t :: marks db id)))) :
    Touched db db' id w := by
  subst h₁
  constructor
  · rw [hv, view_touch _ _ _ _ _ _ ht, if_pos rfl, view_of_getById hr, hr]
    exact hstep
  · intro k hk
    rw [hv, view_touch _ _ _ _ _ _ ht, if_neg hk]

/-! ### Inserts -/

/-- `db'` is `db` with one new pending row, its `created` transition and nothing else the verbs
of the queue read back, except what an outbox write leaves. -/
structure Inserted (db db' : Db) (s : QueueItem) : Prop where
  fresh : db.getById s.qitemId = none
  rows : db'.items.rows = db.items.rows ++ [s]
  transitions : ∃ t : Transition, t.qitemId = s.qitemId ∧
    markOf t = ⟨.pending, none, none, t.transitionNote⟩ ∧
    db'.transitions = t :: db.transitions
  wakes : db'.wakes = db.wakes
  jobs : db'.jobs = db.jobs
  instances : db'.instances = db.instances
  state : s.state = .pending
  blockedOn : s.blockedOn = none
  closureReason : s.closureReason = none
  closureTarget : s.closureTarget = none

namespace Inserted

variable {db db' : Db} {s : QueueItem}

lemma fresh_rows (h : Inserted db db' s) : ∀ r ∈ db.items.rows, r.qitemId ≠ s.qitemId :=
  Table.get?_eq_none.mp h.fresh

lemma getById_self (h : Inserted db db' s) : db'.getById s.qitemId = some s :=
  Table.get?_eq_some.mpr ⟨by rw [h.rows]; simp, rfl⟩

lemma getById_other (h : Inserted db db' s) {k : String} (hk : k ≠ s.qitemId) :
    db'.getById k = db.getById k := by
  have hne : ¬ s.qitemId = k := fun e => hk e.symm
  unfold Db.getById Table.get?
  rw [h.rows, List.find?_append]
  simp [hne]

lemma touched (h : Inserted db db' s) :
    Touched db db' s.qitemId (.insert (s.chainOfRecord.getD [])) := by
  obtain ⟨t, ht, hmark, hlog⟩ := h.transitions
  constructor
  · have hm : marks db' s.qitemId = ⟨.pending, none, none, t.transitionNote⟩ ::
        marks db s.qitemId := by
      unfold marks Db.historyOf
      rw [hlog, List.filter_cons_of_pos (by simpa using ht), List.map_cons, hmark]
    rw [view_eq_none.mpr h.fresh, view_of_getById h.getById_self, hm]
    simp only [lifeOf, h.state, h.blockedOn, h.closureReason, h.closureTarget]
    exact .insert
  · intro k hk
    have hne : ¬ t.qitemId = k := fun e => hk (e.symm.trans ht)
    unfold view marks Db.historyOf
    rw [h.getById_other hk, hlog, List.filter_cons_of_neg (by simpa using hne)]

lemma rewritten (h : Inserted db db' s) (f : QueueItem → QueueItem) (hf)
    (hlife : ∀ r hist, lifeOf (f r) hist = lifeOf r hist) :
    Inserted db (db'.updateRow s.qitemId f hf) (f s) := by
  have hid : (f s).qitemId = s.qitemId := hf s
  have hl := hlife s []
  refine ⟨hid ▸ h.fresh, Db.rows_updateRow_last h.rows h.fresh_rows, hid ▸ h.transitions, h.wakes,
    h.jobs, h.instances, ?_, ?_, ?_, ?_⟩
  · exact (congrArg Life.state hl).trans h.state
  · exact (congrArg Life.blockedOn hl).trans h.blockedOn
  · exact (congrArg Life.closureReason hl).trans h.closureReason
  · exact (congrArg Life.closureTarget hl).trans h.closureTarget

lemma nudged (h : Inserted db db' s) (env : Env) (result : String) :
    Inserted db (recordNudgeAttempt env db' s.qitemId result)
      { s with lastNudgeAttempt := some env.now, lastNudgeResult := some result } :=
  h.rewritten (fun r => { r with lastNudgeAttempt := some env.now, lastNudgeResult := some result })
    (fun _ => rfl) fun _ _ => rfl

lemma congr (h : Inserted db db' s) {db'' : Db} (hi : db''.items = db'.items)
    (ht : db''.transitions = db'.transitions) (hw : db''.wakes = db'.wakes)
    (hj : db''.jobs = db'.jobs) (hins : db''.instances = db'.instances) : Inserted db db'' s where
  fresh := h.fresh
  rows := (congrArg Table.rows hi).trans h.rows
  transitions := ht ▸ h.transitions
  wakes := hw.trans h.wakes
  jobs := hj.trans h.jobs
  instances := hins.trans h.instances
  state := h.state
  blockedOn := h.blockedOn
  closureReason := h.closureReason
  closureTarget := h.closureTarget

lemma emit (h : Inserted db db' s) (e : RigEvent) : Inserted db (db'.emit e) s :=
  h.congr rfl rfl rfl rfl rfl

lemma setOutbox (h : Inserted db db' s) (o : Entries) : Inserted db (db'.setOutbox o) s :=
  h.congr rfl rfl rfl rfl rfl

end Inserted

lemma inserted_of_insertRow {db db₁ : Db} {s : QueueItem} (h : db.insertRow s = .ok db₁)
    (hs : s.state = .pending) (hb : s.blockedOn = none) (hr : s.closureReason = none)
    (ht : s.closureTarget = none) (ts : Time) {t : TransitionInput} (hq : t.qitemId = s.qitemId)
    (hm : markOfInput t = ⟨.pending, none, none, t.transitionNote⟩) :
    Inserted db (db₁.append ts t) s := by
  obtain ⟨hfresh, -, hdb⟩ := Db.insertRow_eq_ok h
  have hlog : (db₁.append ts t).transitions = t.toTransition db.nextTransitionId ts ::
      db.transitions := by
    rw [Db.transitions_append, hdb]
    rfl
  refine ⟨hfresh, (congrArg Table.rows (Db.items_append db₁ ts t)).trans (Db.insertRow_rows h),
    ⟨t.toTransition db.nextTransitionId ts, hq, hm, hlog⟩, ?_, ?_, ?_, hs, hb, hr, ht⟩
  · rw [Db.wakes_append, hdb]
  · rw [Db.jobs_append, hdb]
  · rw [Db.instances_append, hdb]

lemma createInTransactionalContext_new {env : Env} {db db' : Db} {input : QueueCreateInput}
    (h : createInTransactionalContext env db input = .ok db') :
    ∃ db₁, Inserted db db' { newRow env input with replyTo := effectiveReplyTo db₁ input } := by
  unfold createInTransactionalContext at h
  obtain ⟨-, -, h⟩ := bind_eq_ok.mp h
  obtain ⟨db₁, hins, h⟩ := bind_eq_ok.mp h
  cases pure_eq_ok.mp h
  -- the transition is appended after the reply column is written, which changes no log
  exact ⟨db₁, ((inserted_of_insertRow hins rfl rfl rfl rfl env.now rfl rfl).rewritten
    (fun r => { r with replyTo := effectiveReplyTo db₁ input }) (fun _ => rfl)
    fun _ _ => rfl).emit _⟩

lemma createInTransactionalContext_inserted {env : Env} {db db' : Db} {input : QueueCreateInput}
    (h : createInTransactionalContext env db input = .ok db') :
    ∃ replyTo, Inserted db db' { newRow env input with replyTo } := by
  obtain ⟨db₁, hins⟩ := createInTransactionalContext_new h
  exact ⟨_, hins⟩

/-- A create leaves the tables alone, when it absorbs a re-delivery, or inserts its row, with the
thread it answers and what the wake's staging said. -/
lemma create_new {env : Env} {db db' : Db} {input : QueueCreateInput} {reply : CreateReply}
    (h : create env db input = .ok (reply, db')) :
    (∃ r b, reply = .absorbed r b ∧ db' = db ∧ db.getById (input.id env) = some r ∧
        r.destinationSession = input.destinationSession ∧ r.sourceSession = input.sourceSession) ∨
      (reply = .created (input.id env) ∧ ∃ db₁ lastNudgeAttempt lastNudgeResult,
        Inserted db db' { newRow env input with
          replyTo := effectiveReplyTo db₁ input, lastNudgeAttempt, lastNudgeResult }) := by
  unfold create at h
  obtain ⟨-, -, h⟩ := bind_eq_ok.mp h
  split at h
  · rename_i db₂ htxn
    cases pure_eq_ok.mp h
    refine .inr ⟨rfl, ?_⟩
    unfold createTxn at htxn
    obtain ⟨db₁, h₁, htxn⟩ := bind_eq_ok.mp htxn
    obtain ⟨db₀, hins⟩ := createInTransactionalContext_new h₁
    split at htxn
    · simp only at htxn
      split at htxn
      · rename_i db₃ hst
        cases pure_eq_ok.mp htxn
        rw [stageWakeIntent_db hst]
        exact ⟨db₀, none, none, hins.setOutbox _⟩
      · cases pure_eq_ok.mp htxn
        exact ⟨db₀, _, _, hins.nudged env _⟩
    · cases pure_eq_ok.mp htxn
      exact ⟨db₀, none, none, hins⟩
  · split at h
    · cases h
    · rename_i q hq
      split at h
      · cases h
      · rename_i r hr
        split at h
        · rename_i hmatch
          cases pure_eq_ok.mp h
          obtain ⟨hq, -⟩ := Option.filter_eq_some_iff.mp hq
          have hid : input.id env = q := by simp [QueueCreateInput.id, hq]
          simp only [Bool.and_eq_true, decide_eq_true_eq] at hmatch
          exact .inl ⟨r, _, rfl, rfl, hid ▸ hr, hmatch.1, hmatch.2⟩
        · simp at h

/-- The columns of a new row that its create decides. -/
structure NewRow (env : Env) (input : QueueCreateInput) (s : QueueItem) : Prop where
  qitemId : s.qitemId = input.id env
  sourceSession : s.sourceSession = input.sourceSession
  destinationSession : s.destinationSession = input.destinationSession
  chainOfRecord : s.chainOfRecord = input.chainOfRecord
  handedOffFrom : s.handedOffFrom = input.handedOffFrom

lemma create_inserted {env : Env} {db db' : Db} {input : QueueCreateInput} {reply : CreateReply}
    (h : create env db input = .ok (reply, db')) :
    (∃ r b, reply = .absorbed r b ∧ db' = db ∧ db.getById (input.id env) = some r ∧
        r.destinationSession = input.destinationSession ∧ r.sourceSession = input.sourceSession) ∨
      (reply = .created (input.id env) ∧ ∃ s, NewRow env input s ∧ Inserted db db' s) := by
  rcases create_new h with habsorbed | ⟨hreply, db₁, a, n, hins⟩
  · exact .inl habsorbed
  · exact .inr ⟨hreply, _, ⟨rfl, rfl, rfl, rfl, rfl⟩, hins⟩

lemma claim_touched {env : Env} {db db' : Db} {input : QueueClaimInput}
    (h : claim env db input = .ok db') : Touched db db' input.qitemId .claim := by
  unfold claim at h
  obtain ⟨r, hr, h⟩ := bind_eq_ok.mp h
  obtain ⟨-, -, h⟩ := bind_eq_ok.mp h
  obtain ⟨_, hs, h⟩ := bind_eq_ok.mp h
  cases pure_eq_ok.mp h
  have hs : r.state = .pending ∨ r.state = .blocked := by
    by_contra hn
    push Not at hn
    simp [hn.1, hn.2] at hs
  exact touched_of_write (requireItem_eq_ok.mp hr) rfl
    ((view_emit _ _).trans (view_retireParkGeneratedTimer _ _ _)) rfl (.claim hs)

lemma unclaim_touched {env : Env} {db db' : Db} {input : QueueUnclaimInput}
    (h : unclaim env db input = .ok db') : Touched db db' input.qitemId .release := by
  unfold unclaim at h
  obtain ⟨r, hr, h⟩ := bind_eq_ok.mp h
  obtain ⟨_, hs, h⟩ := bind_eq_ok.mp h
  cases pure_eq_ok.mp h
  have hs : r.state = .inProgress := by simpa using hs
  exact touched_of_write (requireItem_eq_ok.mp hr) rfl (view_emit _ _) rfl (.release hs)

lemma routeToFallback_touched {env : Env} {db db' : Db} {input : FallbackInput}
    (h : routeToFallback env db input = .ok db') :
    ∃ seat, Touched db db' input.qitemId (.reroute ("fallback-from:" ++ seat)) := by
  unfold routeToFallback at h
  obtain ⟨r, hr, h⟩ := bind_eq_ok.mp h
  have hr := requireItem_eq_ok.mp hr
  cases pure_eq_ok.mp h
  refine ⟨r.destinationSession, ?_⟩
  have hv : ∀ db₁ : Db, view (if armedQueueWait db₁ input.qitemId = true then db₁ else
      retireParkGeneratedTimer db₁ input.qitemId "park_rerouted") = view db₁ := by
    intro db₁
    split
    · rfl
    · exact view_retireParkGeneratedTimer _ _ _
  have hu := view_updateRow db input.qitemId
    (fallbackRow env input (fallbackResolution db r input.reason)) (fun _ => rfl)
  constructor
  · rw [view_emit, view_append, if_pos rfl, hv, hu, if_pos rfl, hr, view_of_getById hr]
    exact .reroute
  · intro k hk
    rw [view_emit, view_append, if_neg hk, hv, hu, if_neg hk]

/-! ### Loops over rows -/

/-- **A sweep writes each row once**: a loop over distinct rows, whose body touches its own row
given only what that row was at the start, takes every row it names through one write and no
other row through any. -/
theorem sweep {ℓ : Type} {R : Db → ℓ → Db → Prop} {key : ℓ → String} {W : ℓ → RowWrite → Prop}
    (I : Db → Prop) (v : String → Option Life) {rows : List ℓ} {db db' : Db}
    (h : Path R db rows db') (hnodup : (rows.map key).Nodup) (hI : I db)
    (hv : ∀ x ∈ rows, view db (key x) = v (key x))
    (hstep : ∀ x ∈ rows, ∀ db₁ db₂, I db₁ → view db₁ (key x) = v (key x) → R db₁ x db₂ →
      I db₂ ∧ ∃ w, W x w ∧ Touched db₁ db₂ (key x) w) :
    I db' ∧ (∀ k, k ∉ rows.map key → view db' k = view db k) ∧
      ∀ x ∈ rows, ∃ w, W x w ∧ Step (v (key x)) w (view db' (key x)) := by
  induction h with
  | nil db => exact ⟨hI, fun _ _ => rfl, by simp⟩
  | @cons db₁ db₂ db₃ x rows hR hpath ih =>
    obtain ⟨hx, hnodup⟩ := List.nodup_cons.mp hnodup
    obtain ⟨hI₂, w, hw, hself, hother⟩ :=
      hstep x List.mem_cons_self db₁ db₂ hI (hv x List.mem_cons_self) hR
    have hne : ∀ y ∈ rows, key y ≠ key x := fun y hy e => hx (e ▸ List.mem_map_of_mem hy)
    obtain ⟨hI₃, hout, hin⟩ := ih hnodup hI₂
      (fun y hy => (hother _ (hne y hy)).trans (hv y (List.mem_cons_of_mem _ hy)))
      (fun y hy => hstep y (List.mem_cons_of_mem _ hy))
    refine ⟨hI₃, fun k hk => ?_, fun y hy => ?_⟩
    · simp only [List.map_cons, List.mem_cons, not_or] at hk
      rw [hout k hk.2, hother k hk.1]
    · rcases List.mem_cons.mp hy with rfl | hy
      · refine ⟨w, hw, ?_⟩
        rw [hout _ hx, ← hv y List.mem_cons_self]
        exact hself
      · exact hin y hy

lemma nodup_filter_ids (db : Db) (p : QueueItem → Bool) :
    ((db.items.filter p).map QueueItem.qitemId).Nodup :=
  db.items.nodup.sublist (List.filter_sublist.map _)

lemma mem_filter_ids {db : Db} {p : QueueItem → Bool} {k : String} :
    k ∈ (db.items.filter p).map QueueItem.qitemId ↔ ∃ r, db.getById k = some r ∧ p r = true := by
  constructor
  · intro h
    obtain ⟨r, hr, rfl⟩ := List.mem_map.mp h
    exact ⟨r, Table.mem_filter.mp hr⟩
  · rintro ⟨r, hr, hp⟩
    have hk := Db.getById_id hr
    subst hk
    exact List.mem_map_of_mem (Table.mem_filter.mpr ⟨hr, hp⟩)

def inProgressRow (db : Db) (k : String) : Prop :=
  ∃ r, db.getById k = some r ∧ r.state = .inProgress

lemma generation_sweep {db : Db} {g : String} {body : Db → String → Db} {w : RowWrite}
    (hbody : ∀ db k r, db.getById k = some r → r.state = .inProgress → Touched db (body db k) k w)
    (k : String) :
    view ((claimsOfGeneration db g).foldl body db) k = view db k ∨
      (inProgressRow db k ∧
        Step (view db k) w (view ((claimsOfGeneration db g).foldl body db) k)) := by
  have hkeys : ∀ k ∈ claimsOfGeneration db g, inProgressRow db k := by
    intro k hk
    obtain ⟨r, hr, hp⟩ := mem_filter_ids.mp hk
    simp only [Bool.and_eq_true, decide_eq_true_eq] at hp
    exact ⟨r, hr, hp.1⟩
  have hnodup : ((claimsOfGeneration db g).map id).Nodup := by
    rw [List.map_id]
    exact nodup_filter_ids db _
  obtain ⟨-, hout, hin⟩ := sweep (W := fun _ w' => w' = w) (fun _ => True) (view db)
    (path_of_foldl body (claimsOfGeneration db g) db) hnodup trivial (fun _ _ => rfl) (by
      intro k hk db₁ db₂ _ hv hR
      obtain ⟨r, hr, hs⟩ := hkeys k hk
      rw [id, view_of_getById hr] at hv
      obtain ⟨r₁, hr₁, hl⟩ := view_eq_some.mp hv
      have hs₁ : r₁.state = .inProgress := (congrArg Life.state hl).trans hs
      exact ⟨trivial, w, rfl, hR ▸ hbody db₁ k r₁ hr₁ hs₁⟩)
  by_cases hk : k ∈ claimsOfGeneration db g
  · obtain ⟨w', rfl, hstep⟩ := hin k hk
    exact .inr ⟨hkeys k hk, hstep⟩
  · exact .inl (hout k (by simpa using hk))

lemma releaseClaims_view (env : Env) (db : Db) (g k : String) :
    view (releaseClaimsByGeneration env db g) k = view db k ∨ (inProgressRow db k ∧
      Step (view db k) .release (view (releaseClaimsByGeneration env db g) k)) := by
  unfold releaseClaimsByGeneration
  split
  · exact .inl rfl
  · exact generation_sweep (fun db k r hr hs => touched_of_write hr rfl rfl rfl (.release hs)) k

lemma transferClaims_view (env : Env) (db : Db) (a b note k : String) :
    view (transferClaimsByGeneration env db a b note) k = view db k ∨ (inProgressRow db k ∧
      Step (view db k) .note (view (transferClaimsByGeneration env db a b note) k)) := by
  unfold transferClaimsByGeneration
  split
  · exact .inl rfl
  · refine generation_sweep (fun db k r hr hs => touched_of_write hr rfl rfl rfl ?_) k
    have hmark : lifeOf { r with claimedByGeneration := some b, tsUpdated := env.now }
        (⟨.inProgress, none, none, some note⟩ :: marks db k) =
        { lifeOf r (marks db k) with history :=
          ⟨(lifeOf r (marks db k)).state, none, none, some note⟩ :: marks db k } := by
      simp [lifeOf, hs]
    have hnote := Step.note (l := lifeOf r (marks db k)) (t := none) (n := some note)
    exact hmark ▸ hnote

end OpenRig.RowEffects
