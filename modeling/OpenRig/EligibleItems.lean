import Mathlib.Data.Prod.Lex
import OpenRig.ClassificationFence
import OpenRig.Paging
import OpenRig.SqlLike

/-!
What a classifier may attempt now, page by page.

`eligible` stores no cursor. A pass reads the pages one after the other while the tables change
under it; a page is found again by the sort key of its last item.
-/

namespace OpenRig.ClassificationLedger

open OpenRig.JsText OpenRig.Runs OpenRig.StreamStore OpenRig.ClassifierLeases

/-! ### The query -/

def MAX_ELIGIBLE_PAGE : ℤ := 100

structure EligibleOptions where
  classifierVersion : String
  taxonomyVersion : String
  evidenceEpoch : String
  limit : Option ℤ := none
  afterSortKey : Option String := none
  excludeAbstainedElsewhere : Bool := false

def EligibleOptions.identity (o : EligibleOptions) (streamItemId : String) : AttemptIdentity :=
  ⟨streamItemId, o.classifierVersion, o.taxonomyVersion, o.evidenceEpoch⟩

structure EligibleItem where
  streamItemId : String
  tsEmitted : Time
  streamSortKey : String
  sourceSession : String
  deriving DecidableEq

structure EligiblePage where
  items : List EligibleItem
  /-- Pass as `afterSortKey` to read the next page of this pass; none when done. -/
  nextAfterSortKey : Option String

def EligibleItem.position (x : EligibleItem) :
    Time ×ₗ String := toLex (x.tsEmitted, x.streamSortKey)

def shown (s : StreamItem) : EligibleItem where
  streamItemId := s.streamItemId
  tsEmitted := s.tsEmitted
  streamSortKey := s.streamSortKey
  sourceSession := s.sourceSession

/-- No attempt yet, an error whose retry is due, or one in flight for too long. -/
def attemptable (opts : Options) (env : Env) : Option ClassificationAttempt → Bool
  | none => true
  | some a =>
    (a.status = .error && a.retryAfter.all (· ≤ env.now 0)) ||
      (a.status = .inFlight && a.updatedAt + opts.inFlightTimeoutMs ≤ env.now 1)

/-- An abstention under another version; an experiment's do not count. -/
def abstainedElsewhere (db : Db) (o : EligibleOptions) (streamItemId : String) : Bool :=
  db.attempts.rows.any fun x =>
    x.identity.streamItemId = streamItemId && x.status = .abstained &&
      x.identity.classifierVersion ≠ o.classifierVersion &&
      !SqlLike.like "%+experiment".toList x.identity.classifierVersion.toList

def listed (opts : Options) (env : Env) (db : Db) (o : EligibleOptions) (s : StreamItem) : Bool :=
  s.archivedAt.isNone && (db.getByStreamItemId s.streamItemId).isNone &&
    attemptable opts env (db.findRow (o.identity s.streamItemId)) &&
    (!o.excludeAbstainedElsewhere || !abstainedElsewhere db o s.streamItemId)

/-- The position of the item that a page ended with. -/
def cursorOf (db : Db) (afterSortKey : Option String) : Outcome (Option (Time ×ₗ String)) :=
  match afterSortKey with
  | none => .ok none
  | some key =>
    if key = "" then .ok none
    else
      match db.items.rows.find? (·.streamSortKey = key) with
      | some s => .ok (some (position s))
      | none => .error (.unknownCursor key)

def EligibleOptions.pageSize (o : EligibleOptions) : ℕ :=
  (max 1 (min (o.limit.getD MAX_ELIGIBLE_PAGE) MAX_ELIGIBLE_PAGE)).toNat

def eligible (opts : Options) (env : Env) (db : Db) (o : EligibleOptions) :
    Outcome EligiblePage := do
  requireIdentity (o.identity "-")
  let limit := o.pageSize
  let cursor ← cursorOf db o.afterSortKey
  let rows := (Paging.rest position db.items.rows (listed opts env db o) cursor).take (limit + 1)
  let page := rows.take limit
  return {
    items := page.map shown
    nextAfterSortKey := if limit < rows.length then page.getLast?.map (·.streamSortKey) else none }

/-- The pages of a pass at successive readings, and whether it was done. -/
def passOver (opts : Options) (o : EligibleOptions) :
    Option String → List (Env × Db) → Outcome (List EligibleItem × Bool)
  | _, [] => .ok ([], false)
  | afterSortKey, (env, db) :: readings => do
    let page ← eligible opts env db { o with afterSortKey }
    match page.nextAfterSortKey with
    | none => return (page.items, true)
    | some key => do
      let (items, done) ← passOver opts o (some key) readings
      return (page.items ++ items, done)

/-! ### The stream over a run -/

variable {opts : Options} {env : Env} {o : EligibleOptions} {s t u : Db}

lemma begin_items (opts : Options) (env : Env) (s : Db) (input : BeginInput) :
    (begin opts env s input).1.items = s.items := by
  rcases begin_cases opts env s input with ⟨e, h⟩ | ⟨t, id, spent, htxn, h⟩
  · rw [h]
  · rw [h]
    obtain ⟨-, -, hbegun⟩ := beginTxn_ok htxn
    cases hbegun with
    | first t vacant inserted =>
      obtain ⟨-, -, hrest⟩ := insertAttempt_ok inserted
      rw [hrest]
    | spent a found unfinished budget => rfl
    | reissued a found unfinished budget => rfl

lemma abstain_items {input : FinishInput} {p : Db × ClassificationAttempt}
    (h : abstain env s input = .ok p) : p.1.items = s.items := by
  obtain ⟨row, -, hp, -⟩ := abstain_ok h
  rw [hp]
  rfl

lemma abstainDeferred_items {input : FinishInput} {d : StreamDispositionInput}
    {p : Db × ClassificationAttempt} (h : abstainDeferred env s input d = .ok p) :
    p.1.items = s.items := by
  unfold abstainDeferred at h
  obtain ⟨_, -, h⟩ := bind_ok.mp h
  obtain ⟨⟨u, a⟩, habstain, h⟩ := bind_ok.mp h
  obtain ⟨t, hins, h⟩ := bind_ok.mp h
  cases h
  obtain ⟨_, -, -, hrest⟩ := insertDisposition_ok hins
  rw [hrest]
  exact abstain_items (p := (u, a)) habstain

lemma fail_items {input : FinishInput} {p : Db × ClassificationAttempt}
    (h : fail opts env s input = .ok p) : p.1.items = s.items := by
  obtain ⟨row, -, hp⟩ := fail_ok h
  rw [hp]
  rfl

lemma markApplied_items {session leaseId id applied : String} {p : Db × StreamDisposition}
    (h : markApplied env s session leaseId id applied = .ok p) : p.1.items = s.items := by
  unfold markApplied at h
  obtain ⟨_, -, h⟩ := bind_ok.mp h
  obtain ⟨_, -, h⟩ := bind_ok.mp h
  split at h
  · cases h
  · split at h <;> cases h <;> rfl

lemma settleWith_items {α : Type} {x : Outcome (Db × α)}
    (h : ∀ p, x = .ok p → p.1.items = s.items) :
    (settleWith s x).1.items = s.items := by
  cases x with
  | ok p => exact h p rfl
  | error e => rfl

/-- The sort key that an emit draws, with its time. -/
def draws (env : Env) : Call → List (String × Time)
  | .emit _ => [(env.ulid 1, env.now 0)]
  | _ => []

lemma exec_stamps (opts : Options) (env : Env) (s : Db) (c : Call) :
    (stamps (exec opts env s c).1.items).Sublist (stamps s.items ++ draws env c) := by
  have same : ∀ {t : Db}, t.items = s.items →
      (stamps t.items).Sublist (stamps s.items ++ draws env c) := by
    intro t h
    rw [h]
    exact List.sublist_append_left _ _
  cases c with
  | lease c =>
    refine same ?_
    unfold exec
    dsimp only
    split <;> rfl
  | emit input => exact stamps_emit _ _ _ s.items input
  | archive id =>
    refine List.Sublist.trans ?_ (List.sublist_append_left _ _)
    exact (stamps_archive (env.now 0) s.items id).symm ▸ List.Sublist.refl _
  | prune ids => exact (stamps_prune s.items _).trans (List.sublist_append_left _ _)
  | begin input => exact same (begin_items opts env s input)
  | abstain input deferral =>
    cases deferral with
    | none => exact same (settleWith_items fun p hp => abstain_items hp)
    | some d => exact same (settleWith_items fun p hp => abstainDeferred_items hp)
  | fail input => exact same (settleWith_items fun p hp => fail_items hp)
  | classify input => exact same (settleWith_items fun p hp => (classify_ok hp).items)
  | markApplied session leaseId id applied =>
    exact same (settleWith_items fun p hp => markApplied_items hp)

def drawn (ls : List Label) : List (String × Time) := ls.flatMap fun l => draws l.env l.call

lemma stamps_run (keys : List (String × Time)) {ls : List Label} (h : Path (Step opts) s ls t)
    (hs : (stamps s.items).Sublist keys) : (stamps t.items).Sublist (keys ++ drawn ls) := by
  induction h generalizing keys with
  | nil s => simpa [drawn] using hs
  | @cons s u t l ls hstep _ ih =>
    have hone := exec_stamps opts l.env s l.call
    rw [show exec opts l.env s l.call = (u, l.outcome) from hstep] at hone
    have := ih _ (hone.trans (hs.append (List.Sublist.refl _)))
    rwa [List.append_assoc] at this

/-! ### One page -/

def Names (keys : List (String × Time)) (cursor : Option (Time ×ₗ String)) :
    Option String → Prop
  | none => cursor = none
  | some k => ∃ t, (k, t) ∈ keys ∧ cursor = some (toLex (t, k))

lemma cursorOf_names {keys : List (String × Time)} (hfresh : Fresh keys)
    (h : (stamps s.items).Sublist keys) {key : Option String} {cursor c : Option (Time ×ₗ String)}
    (hnames : Names keys cursor key) (hc : cursorOf s key = .ok c) : c = cursor := by
  unfold cursorOf at hc
  cases key with
  | none =>
    cases hc
    exact hnames.symm
  | some k =>
    obtain ⟨t, ht, rfl⟩ := hnames
    have hk : k ≠ "" := by
      rintro rfl
      exact hfresh.nonempty (List.mem_map.mpr ⟨_, ht, rfl⟩)
    dsimp only at hc
    rw [if_neg hk] at hc
    split at hc
    · rename_i a ha
      cases hc
      obtain rfl : a.streamSortKey = k := by simpa using List.find?_some ha
      rw [position, hfresh.time (mem_of_stamps h (List.mem_of_find?_eq_some ha)) ht]
    · cases hc

/-- A reading of the tables, as a read of the stream. -/
def readOf (opts : Options) (o : EligibleOptions) (env : Env) (db : Db)
    (h : (db.items.rows.map position).Nodup) : Paging.Read position where
  store := db.items.rows
  distinct := h
  want := listed opts env db o
  size := o.pageSize

lemma pageSize_pos (o : EligibleOptions) : 0 < o.pageSize := by
  unfold EligibleOptions.pageSize
  omega

lemma eligible_ok {keys : List (String × Time)} (hfresh : Fresh keys)
    (h : (stamps s.items).Sublist keys) {key : Option String} {cursor : Option (Time ×ₗ String)}
    (hnames : Names keys cursor key) {page : EligiblePage}
    (hpage : eligible opts env s { o with afterSortKey := key } = .ok page) :
    let r := readOf opts o env s (positions_distinct hfresh h)
    page.items = (r.page cursor).map shown ∧
      (page.nextAfterSortKey = none → (r.rest cursor).length ≤ r.size) ∧
      ∀ k, page.nextAfterSortKey = some k →
        Names keys (Paging.next position cursor (r.page cursor)) (some k) := by
  intro r
  unfold eligible at hpage
  obtain ⟨_, -, hpage⟩ := bind_ok.mp hpage
  obtain ⟨c, hc, hpage⟩ := bind_ok.mp hpage
  obtain rfl := cursorOf_names hfresh h hnames hc
  cases hpage
  -- The page is cut from one item more, which tells whether there is another page.
  have hcut : ((r.rest c).take (r.size + 1)).take r.size = r.page c := by
    rw [List.take_take, min_eq_left (Nat.le_succ _)]
    rfl
  have hmore : r.size < ((r.rest c).take (r.size + 1)).length ↔ r.size < (r.rest c).length := by
    rw [List.length_take]
    omega
  refine ⟨congrArg (List.map shown) hcut, fun hnone => ?_, fun k hk => ?_⟩
  · change (if r.size < ((r.rest c).take (r.size + 1)).length then _ else none) = none at hnone
    by_contra hlong
    rw [not_le] at hlong
    have hlen : (r.page c).length = r.size := by
      rw [Paging.Read.page, List.length_take, min_eq_left (le_of_lt hlong)]
    rw [if_pos (hmore.mpr hlong), Option.map_eq_none_iff, List.getLast?_eq_none_iff] at hnone
    change ((r.rest c).take (r.size + 1)).take r.size = [] at hnone
    rw [hcut] at hnone
    rw [hnone] at hlen
    exact absurd hlen (ne_of_lt (pageSize_pos o))
  · change (if r.size < ((r.rest c).take (r.size + 1)).length then
      (((r.rest c).take (r.size + 1)).take r.size).getLast?.map (·.streamSortKey)
        else none) = some k at hk
    rw [hcut] at hk
    split at hk
    · rw [Option.map_eq_some_iff] at hk
      obtain ⟨a, ha, rfl⟩ := hk
      have hmem := (Paging.mem_page (List.mem_of_getLast? ha)).1
      refine ⟨a.tsEmitted, mem_of_stamps h hmem, ?_⟩
      rw [Paging.next, ha]
      rfl
    · cases hk

/-! ### A pass -/

lemma passOver_pass {keys : List (String × Time)} (hfresh : Fresh keys)
    {readings : List (Env × Db)} (h : ∀ r ∈ readings, (stamps r.2.items).Sublist keys)
    {key : Option String} {cursor : Option (Time ×ₗ String)} (hnames : Names keys cursor key)
    {items : List EligibleItem} {done : Bool}
    (hpass : passOver opts o key readings = .ok (items, done)) :
    ∃ reads : List (Paging.Read position), items = (Paging.pass cursor reads).map shown ∧
      (∀ r ∈ reads, ∃ x ∈ readings, r.store = x.2.items.rows ∧ r.want = listed opts x.1 x.2 o) ∧
      (done = true → ∃ front last, reads = front ++ [last] ∧
        (last.rest (Paging.stop cursor front)).length ≤ last.size) := by
  induction readings generalizing key cursor items done with
  | nil =>
    cases hpass
    exact ⟨[], rfl, by simp, by simp⟩
  | cons reading readings ih =>
    obtain ⟨env, db⟩ := reading
    obtain ⟨hdb, hrest⟩ := List.forall_mem_cons.mp h
    unfold passOver at hpass
    obtain ⟨page, hpage, hpass⟩ := bind_ok.mp hpass
    obtain ⟨hitems, hlast, hnext⟩ := eligible_ok hfresh hdb hnames hpage
    split at hpass
    · rename_i hnone
      cases hpass
      refine ⟨[readOf opts o env db (positions_distinct hfresh hdb)], ?_, ?_, fun _ => ?_⟩
      · rw [hitems]
        simp [Paging.pass]
      · rintro r hr
        rw [List.mem_singleton] at hr
        exact ⟨(env, db), List.mem_cons_self, by rw [hr]; rfl, by rw [hr]; rfl⟩
      · exact ⟨[], _, rfl, hlast hnone⟩
    · rename_i k hk
      obtain ⟨⟨items', done'⟩, hpass', hpass⟩ := bind_ok.mp hpass
      cases hpass
      obtain ⟨reads, hitems', hreads, hdone⟩ := ih hrest (hnext k hk) hpass'
      refine ⟨readOf opts o env db (positions_distinct hfresh hdb) :: reads, ?_, ?_, fun hd => ?_⟩
      · rw [hitems, hitems', Paging.pass, List.map_append]
      · rintro r hr
        rcases List.mem_cons.mp hr with rfl | hr
        · exact ⟨(env, db), List.mem_cons_self, rfl, rfl⟩
        · obtain ⟨x, hx, hstore⟩ := hreads r hr
          exact ⟨x, List.mem_cons_of_mem _ hx, hstore⟩
      · obtain ⟨front, last, rfl, hlen⟩ := hdone hd
        exact ⟨_ :: front, last, rfl, hlen⟩

/-- The readings of a pass along a run: before each one, any calls. -/
inductive Visited (opts : Options) : Db → List Label → List (Env × Db) → Prop
  | nil (s : Db) : Visited opts s [] []
  | cons {s t : Db} {ls ls' : List Label} {readings : List (Env × Db)} (env : Env)
      (calls : Path (Step opts) s ls t) (rest : Visited opts t ls' readings) :
      Visited opts s (ls ++ ls') ((env, t) :: readings)

lemma Visited.stamps {ls : List Label} {readings : List (Env × Db)} (h : Visited opts s ls readings)
    {keys : List (String × Time)} (hs : (stamps s.items).Sublist keys) :
    ∀ r ∈ readings, (StreamStore.stamps r.2.items).Sublist (keys ++ drawn ls) := by
  induction h generalizing keys with
  | nil s => simp
  | @cons s t ls ls' readings env calls rest ih =>
    have ht := stamps_run _ calls hs
    have happend : keys ++ drawn (ls ++ ls') = keys ++ drawn ls ++ drawn ls' := by
      simp [drawn]
    rw [happend]
    refine List.forall_mem_cons.mpr ⟨?_, ih ht⟩
    exact ht.trans (List.sublist_append_left _ _)

/-! ### What is listed can be begun -/

/-- The lease holder may begin an attempt at the item: only its budget can be spent. -/
def Startable (opts : Options) (o : EligibleOptions) (seen : Env) (db : Db) (id : String) : Prop :=
  ∀ env input lease, input.identity = o.identity id →
    requireHolder env 0 db input.classifierSession input.leaseId = .ok lease →
    (∀ j k, seen.now j ≤ env.now k) → db.attempts.get? (env.ulid 0) = none →
    requireIdentity input.identity = .ok () →
    requireStringFields ""
      [("leaseId", input.leaseId), ("classifierSession", input.classifierSession)] = .ok () →
    (∃ a, (begin opts env db input).2 = .ok a ∧ a.identity = input.identity ∧
      a.status = .inFlight ∧ a.leaseId = input.leaseId) ∨
    ∃ attemptId, (begin opts env db input).2 = .error (.attemptExhausted attemptId opts.retryBudget)

lemma begin_of_txn {input : BeginInput} (hid : requireIdentity input.identity = .ok ())
    (hfields : requireStringFields ""
      [("leaseId", input.leaseId), ("classifierSession", input.classifierSession)] = .ok ())
    {id : String} {spent : Bool} (h : beginTxn opts env s input = .ok (t, id, spent)) :
    (begin opts env s input).2 =
      if spent then .error (.attemptExhausted id opts.retryBudget) else getByIdOrThrow t id := by
  unfold begin
  rw [hid, hfields, h]
  cases spent <;> rfl

lemma getByIdOrThrow_ok {i : String} {a : ClassificationAttempt} (h : s.attempts.get? i = some a) :
    getByIdOrThrow s i = .ok a := by
  unfold getByIdOrThrow
  rw [h]

lemma require_of {p : Prop} [Decidable p] (h : p) (e : Refusal) : require p e = .ok () :=
  require_ok.mpr h

lemma beginTxn_found (opts : Options) {input : BeginInput} {lease : ClassifierLease}
    {a : ClassificationAttempt}
    (hholder : requireHolder env 0 s input.classifierSession input.leaseId = .ok lease)
    (hitem : (s.items.get? input.identity.streamItemId).isSome)
    (hunclassified : s.getByStreamItemId input.identity.streamItemId = none)
    (hfound : s.findRow input.identity = some a) (hopen : a.status.terminal = false)
    (hflight : a.status = .inFlight → abandoned opts (env.now 2) input.leaseId a)
    (hdue : a.status = .error → a.retryAfter.all (· ≤ env.now 1)) :
    beginTxn opts env s input =
      if opts.retryBudget ≤ a.attemptCount then
        .ok (s.updateAttempt a.attemptId (spent (env.now 1)), a.attemptId, true)
      else .ok (s.updateAttempt a.attemptId (reissued (env.ulid 0) input (env.now 1)),
        a.attemptId, false) := by
  unfold beginTxn
  rw [hholder]
  simp only [bind, Except.bind, require_of hitem, hunclassified, hfound, require_of hopen,
    require_of hflight, require_of hdue]
  rfl

lemma beginTxn_vacant (opts : Options) {input : BeginInput} {lease : ClassifierLease}
    (hholder : requireHolder env 0 s input.classifierSession input.leaseId = .ok lease)
    (hitem : (s.items.get? input.identity.streamItemId).isSome)
    (hunclassified : s.getByStreamItemId input.identity.streamItemId = none)
    (hvacant : s.findRow input.identity = none) (hfresh : s.attempts.get? (env.ulid 0) = none) :
    ∃ t, beginTxn opts env s input = .ok (t, env.ulid 0, false) ∧
      t.attempts.get? (env.ulid 0) = some (started env input (env.now 1)) := by
  obtain ⟨t, ht⟩ : ∃ t, s.insertAttempt (started env input (env.now 1)) = .ok t := by
    unfold Db.insertAttempt
    split
    · exact ⟨_, rfl⟩
    · rename_i hnot
      cases hins : s.attempts.insert? (started env input (env.now 1)) with
      | some attempts => exact absurd hins (hnot attempts hvacant)
      | none =>
        rw [Table.insert?_eq_none] at hins
        change (s.attempts.get? (env.ulid 0)).isSome = true at hins
        rw [hfresh] at hins
        cases hins
  refine ⟨t, ?_, ?_⟩
  · unfold beginTxn
    rw [hholder]
    simp only [bind, Except.bind, require_of hitem, hunclassified, hvacant, ht]
    rfl
  · obtain ⟨-, hins, -⟩ := insertAttempt_ok ht
    exact (Table.get?_insert? hins _).trans (if_pos rfl)

lemma startable_of_listed {seen : Env} {a : StreamItem} (ha : a ∈ s.items.rows)
    (h : listed opts seen s o a = true) : Startable opts o seen s a.streamItemId := by
  intro env input lease hidentity hholder hlate hfresh hid hfields
  simp only [listed, Bool.and_eq_true, Option.isNone_iff_eq_none] at h
  obtain ⟨⟨⟨-, hunclassified⟩, hattempt⟩, -⟩ := h
  have hitem : (s.items.get? input.identity.streamItemId).isSome := by
    rw [hidentity]
    exact Option.isSome_iff_exists.mpr ⟨a, Table.get?_of_mem ha⟩
  have hunclassified' : s.getByStreamItemId input.identity.streamItemId = none := by
    rw [hidentity]
    exact hunclassified
  rw [← hidentity] at hattempt
  cases hrow : s.findRow input.identity with
  | none =>
    obtain ⟨t, htxn, hstarted⟩ :=
      beginTxn_vacant opts hholder hitem hunclassified' hrow hfresh
    exact .inl ⟨_, (begin_of_txn hid hfields htxn).trans (getByIdOrThrow_ok hstarted), rfl, rfl,
      rfl⟩
  | some b =>
    rw [hrow] at hattempt
    simp only [attemptable, Bool.or_eq_true, Bool.and_eq_true, decide_eq_true_eq] at hattempt
    obtain ⟨hget, hbid⟩ := findRow_eq_some hrow
    -- What was due at the reading is due at the begin.
    have htxn := beginTxn_found opts hholder hitem hunclassified' hrow
      (by rcases hattempt with h | h <;> rw [h.1] <;> rfl)
      (by
        intro hflight
        rcases hattempt with h | h
        · rw [h.1] at hflight
          cases hflight
        · simp [abandoned, h.2.trans (hlate 1 2)])
      (by
        intro herror
        rcases hattempt with h | h
        · rw [Option.all_eq_true] at h ⊢
          intro due hdue
          have := h.2 due hdue
          simp only [decide_eq_true_eq] at this ⊢
          exact this.trans (hlate 0 1)
        · rw [h.1] at herror
          cases herror)
    split at htxn
    · exact .inr ⟨_, begin_of_txn hid hfields htxn⟩
    · refine .inl ⟨(ClassificationLedger.reissued (env.ulid 0) input (env.now 1)).apply b,
        (begin_of_txn hid hfields htxn).trans (getByIdOrThrow_ok ?_), hbid, rfl, rfl⟩
      rw [get?_updateAttempt, if_pos rfl, hget]
      rfl

/-- **A pass over the eligible items.** Along a run of classification calls whose emits draw new
sort keys, the pages of a pass, with any calls between them, list items in ascending stream order,
so no item twice; each item listed could be begun at its reading, by the lease holder and up to its
budget; and a pass that is done has listed every item that was there and eligible at each of its
readings. -/
theorem eligible_pass {ls ls' : List Label} (h : Path (Step opts) .empty ls s)
    {readings : List (Env × Db)} (h' : Visited opts s ls' readings)
    (hfresh : Fresh (drawn ls ++ drawn ls')) {items : List EligibleItem} {done : Bool}
    (hpass : passOver opts o none readings = .ok (items, done)) :
    items.Pairwise (fun x y => x.position < y.position) ∧
      (∀ x ∈ items, ∃ r ∈ readings, (∃ a ∈ r.2.items.rows, x = shown a) ∧
        Startable opts o r.1 r.2 x.streamItemId) ∧
      (done = true → ∀ a, (∀ r ∈ readings, a ∈ r.2.items.rows ∧ listed opts r.1 r.2 o a = true) →
        shown a ∈ items) := by
  have hstart : (stamps s.items).Sublist (drawn ls) := by
    simpa using stamps_run [] h (List.Sublist.refl [])
  obtain ⟨reads, rfl, hreads, hdone⟩ := passOver_pass hfresh (h'.stamps hstart)
    (show Names (drawn ls ++ drawn ls') none none from rfl) hpass
  obtain ⟨hasc, -⟩ := Paging.pass_ascending none reads
  refine ⟨List.pairwise_map.mpr (hasc.imp id), fun x hx => ?_, fun hd a ha => ?_⟩
  · obtain ⟨a, hmem, rfl⟩ := List.mem_map.mp hx
    obtain ⟨r, hr, hstore, hwant⟩ := Paging.of_mem_pass hmem
    obtain ⟨reading, hreading, hrows, hlisted⟩ := hreads r hr
    rw [hrows] at hstore
    rw [hlisted] at hwant
    exact ⟨reading, hreading, ⟨a, hstore, rfl⟩, startable_of_listed hstore hwant⟩
  · obtain ⟨front, last, rfl, hlast⟩ := hdone hd
    refine List.mem_map.mpr ⟨a, Paging.mem_pass_of_finished (fun r hr => ?_) rfl hlast, rfl⟩
    obtain ⟨reading, hreading, hrows, hlisted⟩ := hreads r hr
    rw [hrows, hlisted]
    exact ha reading hreading

lemma ok_of_toOption {α : Type} {x : Outcome α} {a : α} (h : x.toOption = some a) : x = .ok a := by
  cases x with
  | ok b => exact congrArg Except.ok (Option.some.inj h)
  | error e => cases h

/-- Two pages of one item each, with a begin between them. -/
theorem eligible_pass_two : ∃ items : List EligibleItem,
    items.map (·.streamItemId) = ["m1", "m2"] ∧
      items.Pairwise fun x y => x.position < y.position := by
  let env (k : ℕ) (ids : ℕ → String) : Env := ⟨60000, fun _ => k, fun _ => true, ids⟩
  let item (id : String) : StreamEmitInput :=
    { streamItemId := some id, sourceSession := "a@rig", body := "hello", size := by decide }
  let o : EligibleOptions :=
    { classifierVersion := "v1", taxonomyVersion := "t1", evidenceEpoch := "0", limit := some 1 }
  let before : List (Env × Call) :=
    [(env 0 fun k => if k = 0 then "u" else "k1", .emit (item "m1")),
      (env 1 fun k => if k = 0 then "u" else "k2", .emit (item "m2")),
      (env 2 fun _ => "l1", .lease (.acquire "b@rig"))]
  let after : List (Env × Call) :=
    [(env 3 fun k => if k = 0 then "a1" else "e1", .begin ⟨o.identity "m1", "l1", "b@rig"⟩)]
  let s := (play {} .empty before).2
  let t := (play {} s after).2
  let now := env 4 fun _ => "u"
  have hvisited : Visited {} s ([] ++ ((play {} s after).1 ++ [])) [(now, s), (now, t)] :=
    .cons now (.nil s) (.cons now (play_path {} s after) (.nil t))
  have h := eligible_pass (o := o) (play_path {} .empty before) hvisited
    ⟨by decide +kernel, by decide +kernel⟩
    (ok_of_toOption (a := ([⟨"m1", 0, "k1", "a@rig"⟩, ⟨"m2", 1, "k2", "a@rig"⟩], true))
      (by decide +kernel))
  exact ⟨_, rfl, h.1⟩

end OpenRig.ClassificationLedger
