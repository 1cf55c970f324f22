import OpenRig.ClassificationLedger

/-!
Runs of classification calls: what each call can change, and what no order of them breaks.

The calls of all sessions interleave freely; each is one transaction. `Move` says once what a call
can do to the tables, and the invariants are read off it.
-/

namespace OpenRig.ClassificationLedger

open OpenRig.Runs OpenRig.ClassifierLeases OpenRig.StreamStore
open Relation (ReflTransGen)

structure Label where
  env : Env
  call : Call
  outcome : Outcome Unit

def Step (opts : Options) (s : Db) (l : Label) (t : Db) : Prop :=
  exec opts l.env s l.call = (t, l.outcome)

/-- The run that calls make when they come one after the other, and where it ends. -/
def play (opts : Options) : Db → List (Env × Call) → List Label × Db
  | s, [] => ([], s)
  | s, (env, call) :: rest =>
    let (t, outcome) := exec opts env s call
    let (ls, u) := play opts t rest
    (⟨env, call, outcome⟩ :: ls, u)

lemma play_path (opts : Options) (s : Db) (calls : List (Env × Call)) :
    Path (Step opts) s (play opts s calls).1 (play opts s calls).2 := by
  induction calls generalizing s with
  | nil => exact .nil s
  | cons call rest ih =>
    obtain ⟨env, call⟩ := call
    exact .cons rfl (ih _)

/-! ### What the checks give -/

@[simp] lemma require_ok {p : Prop} [Decidable p] {e : Refusal} {u : Unit} :
    require p e = .ok u ↔ p := by
  unfold require
  split <;> simp_all

/-- A session holds a lease of this id. -/
def Held (leases : Leases) (leaseId session : String) : Prop :=
  ∃ r, leases.getById leaseId = some r ∧ r.classifierSession = session

lemma Held.unique {leases : Leases} {leaseId s s' : String} (h : Held leases leaseId s)
    (h' : Held leases leaseId s') : s = s' := by
  obtain ⟨r, hr, rfl⟩ := h
  obtain ⟨r', hr', rfl⟩ := h'
  rw [hr] at hr'
  cases hr'
  rfl

lemma requireHolder_ok {env : Env} {k : ℕ} {db : Db} {session leaseId : String}
    {r : ClassifierLease} (h : requireHolder env k db session leaseId = .ok r) :
    Held db.leases leaseId session := by
  unfold requireHolder at h
  cases hreq : requireActiveHolder db.leases (env.now k) session (some leaseId) with
  | error e =>
    rw [hreq] at h
    cases h
  | ok a =>
    obtain ⟨hactive, hsession, -, hid⟩ := requireActiveHolder_ok hreq
    obtain rfl := hid leaseId rfl
    exact ⟨a, (getActiveLease_eq_some hactive).1, hsession⟩

lemma finishing_ok {env : Env} {db : Db} {input : FinishInput} {row : ClassificationAttempt}
    (h : finishing env db input = .ok row) :
    Held db.leases input.leaseId input.classifierSession ∧
      db.attempts.get? input.attemptId = some row ∧ row.executionId = input.executionId ∧
      row.status = .inFlight ∧ row.leaseId = input.leaseId := by
  unfold finishing at h
  obtain ⟨-, -, h⟩ := bind_ok.mp h
  obtain ⟨r, hholder, h⟩ := bind_ok.mp h
  split at h
  · cases h
  · rename_i a ha
    obtain ⟨_, hexec, h⟩ := bind_ok.mp h
    obtain ⟨_, hstatus, h⟩ := bind_ok.mp h
    cases h
    rw [require_ok] at hexec hstatus
    exact ⟨requireHolder_ok hholder, ha, hexec, hstatus.1, hstatus.2⟩

lemma abstain_ok {env : Env} {db : Db} {input : FinishInput} {p : Db × ClassificationAttempt}
    (h : abstain env db input = .ok p) : ∃ row, finishing env db input = .ok row ∧
      p.1 = db.updateAttempt row.attemptId (abstained input.reason (env.now 1)) ∧
      p.1.attempts.get? input.attemptId = some p.2 := by
  unfold abstain at h
  obtain ⟨row, hrow, h⟩ := bind_ok.mp h
  obtain ⟨a, ha, h⟩ := bind_ok.mp h
  cases h
  refine ⟨row, hrow, rfl, ?_⟩
  unfold getByIdOrThrow at ha
  split at ha
  · rename_i b hb
    cases ha
    exact hb
  · cases ha

lemma fail_ok {opts : Options} {env : Env} {db : Db} {input : FinishInput}
    {p : Db × ClassificationAttempt} (h : fail opts env db input = .ok p) :
    ∃ row, finishing env db input = .ok row ∧ p.1 = db.updateAttempt row.attemptId
      (failed opts input.reason (env.now 1) (env.now 2)) := by
  unfold fail at h
  obtain ⟨row, hrow, h⟩ := bind_ok.mp h
  obtain ⟨a, -, h⟩ := bind_ok.mp h
  cases h
  exact ⟨row, hrow, rfl⟩

/-! ### Tables -/

lemma findRow_eq_some {db : Db} {id : AttemptIdentity} {a : ClassificationAttempt}
    (h : db.findRow id = some a) : db.attempts.get? a.attemptId = some a ∧ a.identity = id :=
  ⟨Table.get?_of_mem (List.mem_of_find?_eq_some h), by simpa using List.find?_some h⟩

lemma findRow_of_mem {db : Db} {a : ClassificationAttempt} (h : a ∈ db.attempts.rows) :
    db.findRow a.identity = some a := by
  cases hfind : db.findRow a.identity with
  | none => exact absurd (List.find?_eq_none.mp hfind a h) (by simp)
  | some b =>
    have hb := List.mem_of_find?_eq_some hfind
    have hid : b.identity = a.identity := (findRow_eq_some hfind).2
    exact congrArg some (List.inj_on_of_nodup_map db.identities hb h hid)

lemma insertAttempt_ok {db db' : Db} {a : ClassificationAttempt}
    (h : db.insertAttempt a = .ok db') :
    db.findRow a.identity = none ∧ db.attempts.insert? a = some db'.attempts ∧
      db' = { db with attempts := db'.attempts, identities := db'.identities } := by
  unfold Db.insertAttempt at h
  split at h
  · rename_i attempts hnone hins
    cases h
    exact ⟨hnone, hins, rfl⟩
  · cases h

lemma insertClassification_ok {db db' : Db} {c : ProjectClassification}
    (h : db.insertClassification c = .ok db') :
    db.getByStreamItemId c.streamItemId = none ∧
      db.classifications.insert? c = some db'.classifications ∧
      db' = { db with classifications := db'.classifications, oneEach := db'.oneEach } := by
  unfold Db.insertClassification at h
  split at h
  · rename_i classifications hnone hins
    cases h
    exact ⟨hnone, hins, rfl⟩
  · cases h

/-- The row of a new routing outcome. -/
structure Disposed (d : StreamDisposition) (projectId : Option String) (streamItemId : String)
    (input : StreamDispositionInput) (acceptedBy : String) : Prop where
  item : d.streamItemId = streamItemId
  payload : d.input = input
  project : d.projectId = projectId
  acceptor : d.acceptedBy = acceptedBy
  settled : input.disposition = .deferred → d.appliedAt = some d.acceptedAt

lemma insertDisposition_ok {db db' : Db} {projectId : Option String} {id session : String}
    {input : StreamDispositionInput} {at' : JsText.Time}
    (h : db.insertDisposition projectId id input at' session = .ok db') :
    ∃ d, Disposed d projectId id input session ∧
      db.dispositions.insert? d = some db'.dispositions ∧
      db' = { db with dispositions := db'.dispositions } := by
  unfold Db.insertDisposition at h
  split at h
  · cases h
  · dsimp only at h
    split at h
    · rename_i dispositions hins
      cases h
      exact ⟨_, ⟨rfl, rfl, rfl, rfl, fun hdef => by simp [hdef]⟩, hins, rfl⟩
    · cases h

lemma classification_of_item {db : Db} {id : String}
    (h : db.getByStreamItemId id = none) {p : String}
    {c : ProjectClassification} (hc : db.classifications.get? p = some c) :
    c.streamItemId ≠ id := by
  have := List.find?_eq_none.mp h c (Table.get?_eq_some.mp hc).1
  simpa using this

/-! ### What a call can do -/

structure SameExecution (a a' : ClassificationAttempt) : Prop where
  execution : a'.executionId = a.executionId
  count : a'.attemptCount = a.attemptCount
  lease : a'.leaseId = a.leaseId
  session : a'.classifierSession = a.classifierSession

/-- The row that a written attempt stands for. -/
structure Bound (a : ClassificationAttempt) (c : ProjectClassification) : Prop where
  item : c.streamItemId = a.identity.streamItemId
  lease : c.leaseId = a.leaseId
  classifier : c.classifierVersion = some a.identity.classifierVersion
  taxonomy : c.taxonomyVersion = some a.identity.taxonomyVersion

structure Started (s : Db) (after : Items) (a : ClassificationAttempt) : Prop where
  status : a.status = .inFlight
  count : a.attemptCount = 1
  held : Held s.leases a.leaseId a.classifierSession
  item : (after.get? a.identity.streamItemId).isSome
  vacant : s.findRow a.identity = none

/-- How a row of the ledger changes: a new execution, an end without a result, or the result. -/
inductive AttemptStep (opts : Options) (env : Env) (s : Db)
    (after : Table ProjectClassification.projectId) (a a' : ClassificationAttempt) : Prop
  | reissue (status : a'.status = .inFlight) (count : a'.attemptCount = a.attemptCount + 1)
      (budget : a.attemptCount < opts.retryBudget) (execution : a'.executionId = env.ulid 0)
      (held : Held s.leases a'.leaseId a'.classifierSession)
  | close (status : a'.status = .abstained ∨ a'.status = .error ∨ a'.status = .exhausted)
      (same : SameExecution a a')
  | write (status : a'.status = .written) (same : SameExecution a a')
      (unclassified : s.getByStreamItemId a.identity.streamItemId = none)
      (row : ∃ p c, after.get? p = some c ∧ Bound a c)

/-- The row goes on as the same attempt. -/
structure Changed (opts : Options) (env : Env) (s : Db)
    (after : Table ProjectClassification.projectId) (a a' : ClassificationAttempt) : Prop where
  id : a'.attemptId = a.attemptId
  identity : a'.identity = a.identity
  unfinished : a.status.terminal = false
  step : AttemptStep opts env s after a a'

structure Projected (s : Db) (after : Items) (c : ProjectClassification) : Prop where
  held : Held s.leases c.leaseId c.classifierSession
  unclassified : s.getByStreamItemId c.streamItemId = none
  item : (after.get? c.streamItemId).isSome

/-- An accepted judgment with its classification, or a deferral with its abstention. -/
inductive Routed (leases : Leases) (classifications : Table ProjectClassification.projectId)
    (attempts : Table ClassificationAttempt.attemptId) (d : StreamDisposition) : Prop
  | accepted (p : String) (c : ProjectClassification) (project : d.projectId = some p)
      (row : classifications.get? p = some c) (item : c.streamItemId = d.streamItemId)
      (acceptor : c.classifierSession = d.acceptedBy)
      (valid : validateDisposition d.input c.labels.classificationDestination .accepted = .ok ())
  | deferred (i : String) (a : ClassificationAttempt) (project : d.projectId = none)
      (row : attempts.get? i = some a) (status : a.status = .abstained)
      (item : a.identity.streamItemId = d.streamItemId)
      (acceptor : Held leases a.leaseId d.acceptedBy)
      (valid : validateDisposition d.input none .deferred = .ok ())
      (settled : d.appliedAt = some d.acceptedAt)

/-- Only the record of the effect's outcome is new. -/
structure Applies (d d' : StreamDisposition) : Prop where
  rest : d' = { d with appliedAt := d'.appliedAt, applied := d'.applied }
  once : d.appliedAt.isSome → d' = d

lemma Applies.refl (d : StreamDisposition) : Applies d d := ⟨rfl, fun _ => rfl⟩

/-- **What a call can do** to each of the tables. -/
structure Move (opts : Options) (env : Env) (s t : Db) : Prop where
  leases : ReflTransGen (ClassifierLeases.Move env.lease) s.leases t.leases
  items : ∀ id, s.referenced id = true → (s.items.get? id).isSome → (t.items.get? id).isSome
  classified : ∀ p c, t.classifications.get? p = some c →
    s.classifications.get? p = some c ∨ Projected s t.items c
  classifications : ∀ p c, s.classifications.get? p = some c → t.classifications.get? p = some c
  attempted : ∀ i a', t.attempts.get? i = some a' →
    s.attempts.get? i = some a' ∨ Started s t.items a' ∨
      ∃ a, s.attempts.get? i = some a ∧ Changed opts env s t.classifications a a'
  attempts : ∀ i a, s.attempts.get? i = some a → ∃ a', t.attempts.get? i = some a' ∧
    (a' = a ∨ Changed opts env s t.classifications a a')
  single : ∀ i j a b, t.attempts.get? i = some a → t.attempts.get? j = some b →
    s.attempts.get? i = some a ∨ s.attempts.get? j = some b ∨ i = j
  routed : ∀ i d', t.dispositions.get? i = some d' →
    (∃ d, s.dispositions.get? i = some d ∧ Applies d d') ∨
      Routed t.leases t.classifications t.attempts d'
  dispositions : ∀ i d, s.dispositions.get? i = some d → ∃ d', t.dispositions.get? i = some d' ∧
    Applies d d'

variable {opts : Options} {env : Env} {s t u : Db}

lemma Move.refl (opts : Options) (env : Env) (s : Db) : Move opts env s s where
  leases := .refl
  items _ _ h := h
  classified _ _ h := .inl h
  classifications _ _ h := h
  attempted _ _ h := .inl h
  attempts _ a h := ⟨a, h, .inl rfl⟩
  single _ _ _ _ h _ := .inl h
  routed _ d h := .inl ⟨d, h, .refl d⟩
  dispositions _ d h := ⟨d, h, .refl d⟩

lemma get?_updateAttempt (s : Db) (id : String) (f : Rewrite) (i : String) :
    (s.updateAttempt id f).attempts.get? i =
      if i = id then (s.attempts.get? i).map f.apply else s.attempts.get? i :=
  Table.get?_update s.attempts id f.apply f.id i

lemma move_updateAttempt {a : ClassificationAttempt} (f : Rewrite)
    (found : s.attempts.get? a.attemptId = some a)
    (h : Changed opts env s s.classifications a (f.apply a)) :
    Move opts env s (s.updateAttempt a.attemptId f) :=
  { Move.refl opts env s with
    attempted := fun i a' ha' => by
      rw [get?_updateAttempt] at ha'
      split at ha'
      · rename_i hi
        rw [hi, found] at ha'
        cases ha'
        exact .inr (.inr ⟨a, hi ▸ found, h⟩)
      · exact .inl ha'
    attempts := fun i b hb => by
      rw [get?_updateAttempt]
      split
      · rename_i hi
        rw [hi, found] at hb
        cases hb
        exact ⟨f.apply a, by rw [hi, found]; rfl, .inr h⟩
      · exact ⟨b, hb, .inl rfl⟩
    single := fun i j b c hb hc => by
      rw [get?_updateAttempt] at hb hc
      split at hb
      · split at hc
        · rename_i hi hj
          exact .inr (.inr (hi.trans hj.symm))
        · exact .inr (.inl hc)
      · exact .inl hb
    routed := fun i d hd => .inl ⟨d, hd, .refl d⟩ }

lemma move_insertAttempt {a : ClassificationAttempt} (h : s.insertAttempt a = .ok t)
    (hstarted : Started s s.items a) : Move opts env s t := by
  obtain ⟨-, hins, hrest⟩ := insertAttempt_ok h
  have hget := Table.get?_insert? hins
  rw [hrest]
  exact
    { Move.refl opts env s with
      attempted := fun i a' ha' => by
        rw [hget] at ha'
        split at ha'
        · cases ha'
          exact .inr (.inl hstarted)
        · exact .inl ha'
      attempts := fun i b hb => by
        refine ⟨b, ?_, .inl rfl⟩
        rw [hget, if_neg, hb]
        rintro rfl
        rw [(Table.insert?_eq_some hins).1] at hb
        cases hb
      single := fun i j b c hb hc => by
        rw [hget] at hb hc
        split at hb
        · split at hc
          · rename_i hi hj
            exact .inr (.inr (hi.trans hj.symm))
          · exact .inr (.inl hc)
        · exact .inl hb
      routed := fun i d hd => .inl ⟨d, hd, .refl d⟩ }

lemma Move.insertDisposition {projectId : Option String} {id session : String}
    {input : StreamDispositionInput} {acceptedAt : JsText.Time} (hmove : Move opts env s u)
    (hsame : u.dispositions = s.dispositions)
    (h : u.insertDisposition projectId id input acceptedAt session = .ok t)
    (hrouted : ∀ d, Disposed d projectId id input session →
      Routed u.leases u.classifications u.attempts d) : Move opts env s t := by
  obtain ⟨d, hd, hins, hrest⟩ := insertDisposition_ok h
  rw [hsame] at hins
  have hget := Table.get?_insert? hins
  rw [hrest]
  exact
    { hmove with
      routed := fun i d' hd' => by
        rw [hget] at hd'
        split at hd'
        · cases hd'
          exact .inr (hrouted _ hd)
        · exact .inl ⟨d', hd', .refl d'⟩
      dispositions := fun i d' hd' => by
        refine ⟨d', ?_, .refl d'⟩
        rw [hget, if_neg, hd']
        rintro rfl
        rw [(Table.insert?_eq_some hins).1] at hd'
        cases hd' }

/-! ### Each call -/

lemma terminal_inFlight : AttemptStatus.terminal .inFlight = false := rfl

/-- The ways a begin can commit: a first attempt, a spent budget, another execution. -/
inductive Begun (opts : Options) (env : Env) (s : Db) (input : BeginInput) :
    Db × String × Bool → Prop
  | first (t : Db) (vacant : s.findRow input.identity = none)
      (inserted : s.insertAttempt (started env input (env.now 1)) = .ok t) :
      Begun opts env s input (t, env.ulid 0, false)
  | spent (a : ClassificationAttempt) (found : s.findRow input.identity = some a)
      (unfinished : a.status.terminal = false) (budget : opts.retryBudget ≤ a.attemptCount) :
      Begun opts env s input
        (s.updateAttempt a.attemptId (spent (env.now 1)), a.attemptId, true)
  | reissued (a : ClassificationAttempt) (found : s.findRow input.identity = some a)
      (unfinished : a.status.terminal = false) (budget : a.attemptCount < opts.retryBudget) :
      Begun opts env s input (s.updateAttempt a.attemptId
        (reissued (env.ulid 0) input (env.now 1)), a.attemptId, false)

lemma beginTxn_ok {input : BeginInput} {p : Db × String × Bool}
    (h : beginTxn opts env s input = .ok p) :
    Held s.leases input.leaseId input.classifierSession ∧
      (s.items.get? input.identity.streamItemId).isSome ∧ Begun opts env s input p := by
  unfold beginTxn at h
  obtain ⟨r, hholder, h⟩ := bind_ok.mp h
  obtain ⟨_, hitem, h⟩ := bind_ok.mp h
  rw [require_ok] at hitem
  refine ⟨requireHolder_ok hholder, hitem, ?_⟩
  split at h
  · cases h
  split at h
  · rename_i hvacant
    obtain ⟨t, hins, h⟩ := bind_ok.mp h
    cases h
    exact .first t hvacant hins
  · rename_i a hfound
    obtain ⟨_, hopen, h⟩ := bind_ok.mp h
    obtain ⟨_, -, h⟩ := bind_ok.mp h
    obtain ⟨_, -, h⟩ := bind_ok.mp h
    rw [require_ok] at hopen
    split at h
    · rename_i hbudget
      cases h
      exact .spent a hfound hopen hbudget
    · rename_i hbudget
      cases h
      exact .reissued a hfound hopen (not_le.mp hbudget)

lemma begin_cases (opts : Options) (env : Env) (s : Db) (input : BeginInput) :
    (∃ e, begin opts env s input = (s, .error e)) ∨
      ∃ t id spent, beginTxn opts env s input = .ok (t, id, spent) ∧ begin opts env s input =
        (t, if spent then .error (.attemptExhausted id opts.retryBudget)
          else getByIdOrThrow t id) := by
  unfold begin
  dsimp only
  split
  · exact .inl ⟨_, rfl⟩
  · rename_i t id h
    obtain ⟨_, -, h⟩ := bind_ok.mp h
    obtain ⟨_, -, h⟩ := bind_ok.mp h
    exact .inr ⟨t, id, true, h, rfl⟩
  · rename_i t id h
    obtain ⟨_, -, h⟩ := bind_ok.mp h
    obtain ⟨_, -, h⟩ := bind_ok.mp h
    exact .inr ⟨t, id, false, h, rfl⟩

lemma begin_move (opts : Options) (env : Env) (s : Db) (input : BeginInput) :
    Move opts env s (begin opts env s input).1 := by
  rcases begin_cases opts env s input with ⟨e, h⟩ | ⟨t, id, spent, htxn, h⟩
  · rw [h]
    exact .refl ..
  · rw [h]
    obtain ⟨hheld, hitem, hbegun⟩ := beginTxn_ok htxn
    cases hbegun with
    | first t vacant inserted => exact move_insertAttempt inserted ⟨rfl, rfl, hheld, hitem, vacant⟩
    | spent a found unfinished budget =>
      exact move_updateAttempt _ (findRow_eq_some found).1
        ⟨rfl, rfl, unfinished, .close (.inr (.inr rfl)) ⟨rfl, rfl, rfl, rfl⟩⟩
    | reissued a found unfinished budget =>
      exact move_updateAttempt _ (findRow_eq_some found).1
        ⟨rfl, rfl, unfinished, .reissue rfl rfl budget rfl hheld⟩

lemma finishing_row {input : FinishInput} {row : ClassificationAttempt}
    (h : finishing env s input = .ok row) : s.attempts.get? row.attemptId = some row := by
  obtain ⟨-, hget, -⟩ := finishing_ok h
  rw [Table.get?_key hget]
  exact hget

lemma abstain_move {input : FinishInput} {p : Db × ClassificationAttempt}
    (h : abstain env s input = .ok p) : Move opts env s p.1 := by
  obtain ⟨row, hrow, hp, -⟩ := abstain_ok h
  obtain ⟨-, -, -, hstatus, -⟩ := finishing_ok hrow
  rw [hp]
  exact move_updateAttempt _ (finishing_row hrow)
    ⟨rfl, rfl, by rw [hstatus, terminal_inFlight], .close (.inl rfl) ⟨rfl, rfl, rfl, rfl⟩⟩

lemma fail_move {input : FinishInput} {p : Db × ClassificationAttempt}
    (h : fail opts env s input = .ok p) : Move opts env s p.1 := by
  obtain ⟨row, hrow, hp⟩ := fail_ok h
  obtain ⟨-, -, -, hstatus, -⟩ := finishing_ok hrow
  rw [hp]
  refine move_updateAttempt _ (finishing_row hrow)
    ⟨rfl, rfl, by rw [hstatus, terminal_inFlight], .close ?_ ⟨rfl, rfl, rfl, rfl⟩⟩
  dsimp only [failed]
  split
  · exact .inr (.inr rfl)
  · exact .inr (.inl rfl)

lemma validate_deferred {d : StreamDispositionInput} {dest : Option String}
    (h : validateDisposition d dest .deferred = .ok ()) : d.disposition = .deferred := by
  unfold validateDisposition at h
  obtain ⟨_, hkind, -⟩ := bind_ok.mp h
  rw [require_ok] at hkind
  exact hkind.mp rfl

lemma abstainDeferred_move {input : FinishInput} {d : StreamDispositionInput}
    {p : Db × ClassificationAttempt} (h : abstainDeferred env s input d = .ok p) :
    Move opts env s p.1 := by
  unfold abstainDeferred at h
  obtain ⟨_, hvalid, h⟩ := bind_ok.mp h
  obtain ⟨⟨u, a⟩, habstain, h⟩ := bind_ok.mp h
  obtain ⟨t, hins, h⟩ := bind_ok.mp h
  cases h
  obtain ⟨row, hrow, hu, ha⟩ := abstain_ok habstain
  obtain ⟨hheld, hget, -, -, hlease⟩ := finishing_ok hrow
  dsimp only at hu ha
  obtain rfl : (abstained input.reason (env.now 1)).apply row = a := by
    rw [hu, get?_updateAttempt, if_pos (Table.get?_key hget).symm, hget] at ha
    exact Option.some.inj ha
  refine (abstain_move habstain).insertDisposition (by rw [hu]; rfl) hins fun d' hd' => ?_
  refine .deferred input.attemptId _ hd'.project ha rfl hd'.item.symm ?_ (hd'.payload ▸ hvalid)
    (hd'.settled (validate_deferred hvalid))
  rw [hd'.acceptor, hu]
  exact hlease ▸ hheld

lemma markApplied_move {session leaseId id applied : String} {p : Db × StreamDisposition}
    (h : markApplied env s session leaseId id applied = .ok p) : Move opts env s p.1 := by
  unfold markApplied at h
  obtain ⟨_, -, h⟩ := bind_ok.mp h
  obtain ⟨_, -, h⟩ := bind_ok.mp h
  split at h
  · cases h
  rename_i current hcurrent
  split at h
  · cases h
    exact .refl ..
  · rename_i hopen
    cases h
    have hget := Table.get?_update s.dispositions id (fun d : StreamDisposition =>
      { d with appliedAt := some (env.now 1), applied := some applied }) (fun _ => rfl)
    exact
      { Move.refl opts env s with
        routed := fun i d' hd' => by
          refine .inl ?_
          dsimp only at hd'
          rw [hget] at hd'
          split at hd'
          · rename_i hi
            rw [hi, hcurrent] at hd'
            cases hd'
            exact ⟨current, hi ▸ hcurrent, rfl, fun happlied => absurd happlied hopen⟩
          · exact ⟨d', hd', .refl d'⟩
        dispositions := fun i d hd => by
          dsimp only
          rw [hget]
          split
          · rename_i hi
            rw [hi, hcurrent] at hd
            cases hd
            exact ⟨_, by rw [hi, hcurrent]; rfl, rfl, fun happlied => absurd happlied hopen⟩
          · exact ⟨d, hd, .refl d⟩ }

/-- An attempt bound to a result: in flight under the result's lease, for its item and versions. -/
structure Binds (s : Db) (input : ProjectClassifyInput) (a : ClassificationAttempt) : Prop where
  found : s.attempts.get? a.attemptId = some a
  execution : some a.executionId = input.executionId
  status : a.status = .inFlight
  lease : a.leaseId = input.leaseId
  item : a.identity.streamItemId = input.streamItemId
  classifier : some a.identity.classifierVersion = input.classifierVersion
  taxonomy : some a.identity.taxonomyVersion = input.taxonomyVersion

lemma bindAttemptWritten_ok {attemptId : String} {input : ProjectClassifyInput}
    (h : bindAttemptWritten env s attemptId input = .ok u) :
    ∃ a, a.attemptId = attemptId ∧ Binds s input a ∧
      u = s.updateAttempt a.attemptId (writtenBy (env.now 2)) := by
  unfold bindAttemptWritten at h
  dsimp only at h
  split at h
  · cases h
  rename_i a ha
  obtain ⟨_, hexec, h⟩ := bind_ok.mp h
  obtain ⟨_, hbound, h⟩ := bind_ok.mp h
  cases h
  rw [require_ok] at hexec hbound
  obtain ⟨hstatus, hlease, hitem, hclassifier, htaxonomy⟩ := hbound
  have hkey := Table.get?_key ha
  exact ⟨a, hkey, ⟨hkey ▸ ha, hexec, hstatus, hlease, hitem, hclassifier, htaxonomy⟩, rfl⟩

/-- What a committed result wrote, table after table. -/
structure Classified (env : Env) (s : Db) (input : ProjectClassifyInput) (t : Db) : Prop where
  held : Held s.leases input.leaseId input.classifierSession
  item : (s.items.get? input.streamItemId).isSome
  unclassified : s.getByStreamItemId input.streamItemId = none
  attempt : ∀ attemptId ∈ input.attemptId, ∃ a, a.attemptId = attemptId ∧ Binds s input a ∧
    t.attempts = (s.updateAttempt a.attemptId (writtenBy (env.now 2))).attempts
  unbound : input.attemptId = none → t.attempts = s.attempts
  row : s.classifications.insert? (projected env input) = some t.classifications
  leases : t.leases = s.leases
  items : t.items = s.items
  disposition : t.dispositions = s.dispositions ∨ ∃ d d', input.disposition = some d ∧
    validateDisposition d input.labels.classificationDestination .accepted = .ok () ∧
    Disposed d' (some (env.ulid 0)) input.streamItemId d input.classifierSession ∧
    s.dispositions.insert? d' = some t.dispositions

lemma classify_ok {input : ProjectClassifyInput} {p : Db × ProjectClassification}
    (h : classify env s input = .ok p) : Classified env s input p.1 := by
  unfold classify at h
  obtain ⟨_, -, h⟩ := bind_ok.mp h
  obtain ⟨_, hvalid, h⟩ := bind_ok.mp h
  obtain ⟨r, hholder, h⟩ := bind_ok.mp h
  obtain ⟨_, hitem, h⟩ := bind_ok.mp h
  obtain ⟨_, -, h⟩ := bind_ok.mp h
  rw [require_ok] at hitem
  split at h
  · cases h
  rename_i hunclassified
  obtain ⟨bound, hbound, h⟩ := bind_ok.mp h
  obtain ⟨inserted, hinserted, h⟩ := bind_ok.mp h
  obtain ⟨disposed, hdisposed, h⟩ := bind_ok.mp h
  cases h
  obtain ⟨-, hrow, hrest⟩ := insertClassification_ok hinserted
  -- What the binding left, when there was one.
  have hframe : bound.leases = s.leases ∧ bound.items = s.items ∧
      bound.classifications = s.classifications ∧ bound.dispositions = s.dispositions ∧
      (∀ attemptId ∈ input.attemptId, ∃ a, a.attemptId = attemptId ∧ Binds s input a ∧
        bound.attempts = (s.updateAttempt a.attemptId (writtenBy (env.now 2))).attempts) ∧
      (input.attemptId = none → bound.attempts = s.attempts) := by
    unfold bindAttempt at hbound
    cases hid : input.attemptId with
    | none =>
      rw [hid] at hbound
      cases hbound
      exact ⟨rfl, rfl, rfl, rfl, by simp, fun _ => rfl⟩
    | some attemptId =>
      rw [hid] at hbound
      obtain ⟨a, ha, hbinds, rfl⟩ := bindAttemptWritten_ok hbound
      refine ⟨rfl, rfl, rfl, rfl, ?_, by simp⟩
      rintro _ ⟨⟩
      exact ⟨a, ha, hbinds, rfl⟩
  obtain ⟨hleases, hitems, hclassifications, hdispositions, hattempt, hunbound⟩ := hframe
  rw [hclassifications] at hrow
  have hdone : disposed.leases = inserted.leases ∧ disposed.items = inserted.items ∧
      disposed.classifications = inserted.classifications ∧
      disposed.attempts = inserted.attempts ∧
      (disposed.dispositions = s.dispositions ∨ ∃ d d', input.disposition = some d ∧
        validateDisposition d input.labels.classificationDestination .accepted = .ok () ∧
        Disposed d' (some (env.ulid 0)) input.streamItemId d input.classifierSession ∧
        s.dispositions.insert? d' = some disposed.dispositions) := by
    unfold dispose at hdisposed
    unfold checkDisposition at hvalid
    cases hd : input.disposition with
    | none =>
      rw [hd] at hdisposed
      cases hdisposed
      refine ⟨rfl, rfl, rfl, rfl, .inl ?_⟩
      rw [hrest]
      exact hdispositions
    | some d =>
      rw [hd] at hdisposed hvalid
      obtain ⟨d', hd', hins, hrest'⟩ := insertDisposition_ok hdisposed
      have hsame : inserted.dispositions = s.dispositions := by
        rw [hrest]
        exact hdispositions
      rw [hsame] at hins
      exact ⟨by rw [hrest'], by rw [hrest'], by rw [hrest'], by rw [hrest'],
        .inr ⟨d, d', rfl, hvalid, hd', hins⟩⟩
  obtain ⟨hleases', hitems', hclassifications', hattempts', hdisposition⟩ := hdone
  have hsame : inserted.attempts = bound.attempts := by rw [hrest]
  exact
    { held := requireHolder_ok hholder
      item := hitem
      unclassified := hunclassified
      attempt := fun id hid => by
        obtain ⟨a, ha, hbinds, heq⟩ := hattempt id hid
        exact ⟨a, ha, hbinds, hattempts'.trans (hsame.trans heq)⟩
      unbound := fun hnone => hattempts'.trans (hsame.trans (hunbound hnone))
      row := by
        rw [hrow]
        exact congrArg some hclassifications'.symm
      leases := hleases'.trans (by rw [hrest]; exact hleases)
      items := hitems'.trans (by rw [hrest]; exact hitems)
      disposition := hdisposition }

lemma Classified.move {input : ProjectClassifyInput} (h : Classified env s input t) :
    Move opts env s t := by
  have hget := Table.get?_insert? h.row
  have hnew : t.classifications.get? (env.ulid 0) = some (projected env input) :=
    (hget _).trans (if_pos rfl)
  -- The ledger, whether or not an attempt was bound.
  have hattempts : ∀ i, t.attempts.get? i = s.attempts.get? i ∨
      ∃ a, a.attemptId = i ∧ Binds s input a ∧
        t.attempts.get? i = some ((writtenBy (env.now 2)).apply a) := by
    intro i
    cases hid : input.attemptId with
    | none => exact .inl (by rw [h.unbound hid])
    | some attemptId =>
      obtain ⟨a, -, hbinds, heq⟩ := h.attempt attemptId hid
      rw [heq, get?_updateAttempt]
      split
      · rename_i hi
        exact .inr ⟨a, hi.symm, hbinds, by rw [hi, hbinds.found]; rfl⟩
      · exact .inl rfl
  have hchanged : ∀ a, Binds s input a →
      Changed opts env s t.classifications a ((writtenBy (env.now 2)).apply a) := by
    intro a hbinds
    exact ⟨rfl, rfl, by rw [hbinds.status, terminal_inFlight], .write rfl ⟨rfl, rfl, rfl, rfl⟩
      (hbinds.item ▸ h.unclassified) ⟨_, _, hnew, hbinds.item.symm, hbinds.lease.symm,
        hbinds.classifier.symm, hbinds.taxonomy.symm⟩⟩
  exact
    { leases := by
        rw [h.leases]
      items := fun id _ hitem => by
        rw [h.items]
        exact hitem
      classified := fun p c hc => by
        rw [hget] at hc
        split at hc
        · cases hc
          exact .inr ⟨h.held, h.unclassified, h.items ▸ h.item⟩
        · exact .inl hc
      classifications := fun p c hc => by
        rw [hget, if_neg, hc]
        rintro rfl
        rw [(Table.insert?_eq_some h.row).1] at hc
        cases hc
      attempted := fun i a' ha' => by
        rcases hattempts i with hsame | ⟨a, hi, hbinds, hwritten⟩
        · exact .inl (hsame ▸ ha')
        · rw [hwritten] at ha'
          cases ha'
          exact .inr (.inr ⟨a, hi ▸ hbinds.found, hchanged a hbinds⟩)
      attempts := fun i a ha => by
        rcases hattempts i with hsame | ⟨b, hi, hbinds, hwritten⟩
        · exact ⟨a, hsame.trans ha, .inl rfl⟩
        · rw [← hi, hbinds.found] at ha
          cases ha
          exact ⟨_, hwritten, .inr (hchanged a hbinds)⟩
      single := fun i j b c hb hc => by
        cases hid : input.attemptId with
        | none =>
          rw [h.unbound hid] at hb
          exact .inl hb
        | some attemptId =>
          obtain ⟨a, -, -, heq⟩ := h.attempt attemptId hid
          rw [heq, get?_updateAttempt] at hb hc
          split at hb
          · split at hc
            · rename_i hi hj
              exact .inr (.inr (hi.trans hj.symm))
            · exact .inr (.inl hc)
          · exact .inl hb
      routed := fun i d' hd' => by
        rcases h.disposition with hsame | ⟨d, d'', -, hvalid, hd'', hins⟩
        · rw [hsame] at hd'
          exact .inl ⟨d', hd', .refl d'⟩
        · rw [Table.get?_insert? hins] at hd'
          split at hd'
          · cases hd'
            exact .inr (.accepted _ _ hd''.project hnew hd''.item.symm hd''.acceptor.symm
              (hd''.payload ▸ hvalid))
          · exact .inl ⟨d', hd', .refl d'⟩
      dispositions := fun i d hd => by
        rcases h.disposition with hsame | ⟨_, d'', -, -, -, hins⟩
        · exact ⟨d, by rw [hsame, hd], .refl d⟩
        · refine ⟨d, ?_, .refl d⟩
          rw [Table.get?_insert? hins, if_neg, hd]
          rintro rfl
          rw [(Table.insert?_eq_some hins).1] at hd
          cases hd }

lemma move_items {items : Items}
    (h : ∀ id, s.referenced id = true → (s.items.get? id).isSome → (items.get? id).isSome) :
    Move opts env s { s with items } :=
  { Move.refl opts env s with
    items := h
    classified := fun _ _ h => .inl h
    attempted := fun _ _ h => .inl h
    routed := fun _ d hd => .inl ⟨d, hd, .refl d⟩ }

lemma isSome_emit (now : JsText.Time) (ulid sortKey : String) (items : Items)
    (input : StreamEmitInput) {id : String} (h : (items.get? id).isSome) :
    ((StreamStore.emit now ulid sortKey items input).1.get? id).isSome := by
  unfold StreamStore.emit
  dsimp only
  split
  · exact h
  · cases hins : items.insert? (emitted now (input.streamItemId.getD ulid) sortKey input) with
    | none => exact h
    | some items' =>
      dsimp only [Option.getD_some]
      rw [Table.get?_insert? hins]
      split
      · rfl
      · exact h

lemma isSome_prune {items : Items} {gone : List String} {id : String} (hid : id ∉ gone)
    (h : (items.get? id).isSome) : ((StreamStore.prune items gone).get? id).isSome := by
  obtain ⟨item, hitem⟩ := Option.isSome_iff_exists.mp h
  obtain ⟨hmem, hkey⟩ := Table.get?_eq_some.mp hitem
  have : (StreamStore.prune items gone).get? id = some item := by
    refine Table.get?_eq_some.mpr ⟨List.mem_filter.mpr ⟨hmem, ?_⟩, hkey⟩
    rw [hkey]
    simpa using hid
  rw [this]
  rfl

/-- **Every call is a move**, refused or not. -/
lemma exec_move (opts : Options) (env : Env) (s : Db) (c : Call) :
    Move opts env s (exec opts env s c).1 := by
  have settled : ∀ {α : Type} {x : Outcome (Db × α)},
      (∀ p, x = .ok p → Move opts env s p.1) → Move opts env s (settleWith s x).1 := by
    intro α x h
    cases x with
    | ok p => exact h p rfl
    | error e => exact .refl ..
  cases c with
  | lease c =>
    unfold exec
    have hmoves := moves_after env.lease s.leases c
    unfold ClassifierLeases.after at hmoves
    split at hmoves
    · rename_i leases res h
      simp only [h]
      exact
        { Move.refl opts env s with
          leases := hmoves
          routed := fun _ d hd => .inl ⟨d, hd, .refl d⟩ }
    · rename_i e h
      simp only [h]
      exact .refl ..
  | emit input => exact move_items fun _ _ h => isSome_emit _ _ _ _ _ h
  | archive id =>
    refine move_items fun i _ h => ?_
    unfold StreamStore.archive
    rw [Table.get?_updateWhere, Option.isSome_map]
    exact h
  | prune ids =>
    refine move_items fun i hreferenced h => isSome_prune ?_ h
    simp [hreferenced]
  | begin input => exact begin_move opts env s input
  | abstain input deferral =>
    cases deferral with
    | none => exact settled fun p hp => abstain_move hp
    | some d => exact settled fun p hp => abstainDeferred_move hp
  | fail input => exact settled fun p hp => fail_move hp
  | classify input => exact settled fun p hp => (classify_ok hp).move
  | markApplied session leaseId id applied => exact settled fun p hp => markApplied_move hp

end OpenRig.ClassificationLedger
