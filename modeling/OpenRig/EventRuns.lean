import OpenRig.EventDelivery

/-!
Runs of the event bus: calls from outside one after another, and subscribers coming and going
between them.

Every call hands each committed well-formed row to each subscriber once. It does so in order exactly
when no subscriber stores anything while a transaction still has rows to notify.
-/

namespace OpenRig.EventBus

open OpenRig.Runs

universe u
variable {α : Type u}

namespace Bus

/-! ### What a call did -/

/-- What a subscriber has been called with. -/
def heard (b : Bus α) (k : ℕ) : List ℕ := (b.calls.filter fun c => c.1 = k).map Prod.snd

def since (b t : Bus α) : List (EventRow α) := t.rows.drop b.rows.length

/-- The committed well-formed rows since. -/
def committed (b t : Bus α) : List ℕ :=
  ((b.since t).filter EventRow.wellFormed).map EventRow.seq

/-- The corrupt rows reported since. -/
def reported (b t : Bus α) : List ℕ := (b.since t).filterMap fun r => r.payload.reported

/-- Where the drain of a call starts, if it has one. -/
def drainStart (b : Bus α) : Act α → Option ℕ
  | .emit _ => some (b.sequence + 1)
  | .transaction events commits =>
    if commits && !events.isEmpty then some (b.sequence + events.length) else none
  | .envelope e => if e.throws || !e.matches_ then none else some b.watermark
  | .corrupt .. => none

/-- The corrupt rows a drain passes. -/
def passed (t : Bus α) : Option ℕ → List ℕ
  | none => []
  | some c => ((t.rowsAfter c).filter fun r => !r.wellFormed).map EventRow.seq

/-- **What a call does in any case**: the log gets what it and the subscribers' calls commit, and
nothing else but reports; each subscriber is called once for each well-formed row; the reports are
of the corrupt rows its drain passes, each once. -/
structure Served (b : Bus α) (a : Act α) (reactions : List (Reaction α)) (t : Bus α) : Prop where
  grows : b.rows <+: t.rows
  commits : ((b.since t).map EventRow.payload).filter (fun p => p.reported.isNone) =
    a.stored ++ (reactions.take (t.calls.length - b.calls.length)).flatMap Reaction.stored
  once : ∀ k ∈ b.subscribers, ∃ h, t.heard k = b.heard k ++ h ∧ h.Perm (b.committed t)
  others : ∀ k, k ∉ b.subscribers → t.heard k = b.heard k
  reports : b.reported t = t.passed (b.drainStart a)

/-- A subscriber is called once for each committed well-formed row, in order. -/
def InOrder (b t : Bus α) (k : ℕ) : Prop :=
  ∃ h, t.heard k = b.heard k ++ h ∧ h.Perm (b.committed t) ∧ h.Pairwise (· < ·)

/-- No subscriber stores anything before the last row of a transaction is handed over. -/
def Orderly (b : Bus α) : Op α → Prop
  | .act (.transaction events true) reactions =>
    (reactions.take ((events.length - 1) * b.subscribers.length)).flatMap Reaction.stored = []
  | _ => True

/-! ### Between calls -/

/-- **The invariant** between calls, on a log that had `n` rows when the bus was opened. -/
structure Settled (n : ℕ) (b : Bus α) : Prop where
  idle : Idle b
  delivered : ∀ r ∈ b.rows, r.wellFormed = true → r.seq ≤ b.watermark
  nodup : b.subscribers.Nodup
  base : n ≤ b.rows.length
  distinct : ((b.rows.drop n).filterMap fun r => r.payload.reported).Nodup
  below : ∀ m ∈ (b.rows.drop n).filterMap (fun r => r.payload.reported), m ≤ b.watermark

lemma settled_opened {rows : List (EventRow α)} {sequence : ℕ} (h : Log (opened rows sequence)) :
    Settled rows.length (opened rows sequence) where
  idle := ⟨h, rfl, rfl, Nat.le_refl _⟩
  delivered := fun _ hr _ => le_maxSeq hr
  nodup := .nil
  base := Nat.le_refl _
  distinct := by
    simp [opened]
  below := by
    simp [opened]

lemma rowsAfter_persistAll {b : Bus α} {c : ℕ} (hc : c ≤ b.sequence) (ps : List (Payload α)) :
    (b.persistAll ps).rowsAfter c = b.rowsAfter c ++ b.nextRows ps := by
  have hnew : (b.nextRows ps).filter (fun r => decide (c < r.seq)) = b.nextRows ps := by
    refine List.filter_eq_self.mpr fun r hr => ?_
    have hlo := (seq_of_mem_nextRows hr).1
    simp only [decide_eq_true_eq]
    omega
  rw [rowsAfter, persistAll_eq, List.filter_append, hnew]
  rfl

lemma Log.rowsAfter_sequence {b : Bus α} (h : Log b) {c : ℕ} (hc : b.sequence ≤ c) :
    b.rowsAfter c = [] := by
  refine List.filter_eq_nil_iff.mpr fun r hr => ?_
  have hle := h.bounded r hr
  simp only [decide_eq_true_eq]
  omega

lemma Idle.persistAll {b : Bus α} (h : Idle b) (ps : List (Payload α)) :
    Idle (b.persistAll ps) := by
  have hlog := h.log.persistAll ps
  have hmax : b.maxSeq ≤ (b.persistAll ps).maxSeq := by
    refine maxSeq_le_iff.mpr fun r hr => le_maxSeq ?_
    rw [persistAll_eq]
    exact List.mem_append_left _ hr
  refine ⟨hlog, ?_, ?_, ?_⟩
  · rw [notifying_persistAll, h.notifying]
  · rw [persistAll_eq]
    exact h.draining
  · refine Nat.le_trans ?_ hmax
    rw [persistAll_eq]
    exact h.watermark

/-- The account of a call: the rows it stores are its own, then those that came while they were
handled. -/
structure Account (b : Bus α) (a : Act α) (rows : List (EventRow α)) (ps : List (Payload α))
    (t : Bus α) : Prop where
  handled : Handled (b.persistAll a.stored) rows ps t
  idle : Idle t
  watermark : b.watermark ≤ t.watermark
  covers : ∀ r ∈ b.nextRows (a.stored ++ ps), r.wellFormed = true → r.seq ≤ t.watermark
  once : (rows.filter EventRow.wellFormed).Perm
    ((b.nextRows (a.stored ++ ps)).filter EventRow.wellFormed)
  passed : (rows.filter fun r => !r.wellFormed).map EventRow.seq = t.passed (b.drainStart a)
  ahead : ∀ m ∈ t.passed (b.drainStart a), b.watermark < m ∧ m ≤ t.watermark
  order : (rows.filter EventRow.wellFormed).map EventRow.seq =
      ((b.nextRows (a.stored ++ ps)).filter EventRow.wellFormed).map EventRow.seq ↔
    Orderly b (.act a b.reactions)

lemma Account.quiet {b t : Bus α} {a : Act α} (hb : Idle b) (ht : t = b.persistAll a.stored)
    (hstored : ∀ p ∈ a.stored, p.wellFormed = false) (hstart : b.drainStart a = none)
    (horder : Orderly b (.act a b.reactions)) : Account b a [] [] t := by
  have hwm : t.watermark = b.watermark := by rw [ht, persistAll_eq]
  have hnone : (b.nextRows (a.stored ++ [])).filter EventRow.wellFormed = [] := by
    refine List.filter_eq_nil_iff.mpr fun r hr => ?_
    rw [List.append_nil] at hr
    have hp := hstored _ (wellFormed_of_mem_nextRows hr)
    rw [EventRow.wellFormed, hp]
    decide
  constructor
  case handled => exact ht ▸ .refl _
  case idle => exact ht ▸ hb.persistAll _
  case watermark => exact Nat.le_of_eq hwm.symm
  case covers =>
    intro r hr hw
    have hmem := List.mem_filter.mpr ⟨hr, hw⟩
    rw [hnone] at hmem
    simp at hmem
  case once => rw [hnone]; exact .refl _
  case passed => rw [hstart]; rfl
  case ahead => rw [hstart]; simp [Bus.passed]
  case order => rw [hnone]; exact iff_of_true rfl horder

lemma wellFormed_of_mem_stored {b : Bus α} {ps : List (Payload α)}
    (hps : ∀ p ∈ ps, p.wellFormed = true) {r : EventRow α} (hr : r ∈ b.nextRows ps) :
    r.wellFormed = true :=
  hps _ (wellFormed_of_mem_nextRows hr)

/-- **A transaction** that notifies its rows, or an emit, which is one of a single event. -/
lemma Account.transaction (sha : String → String) (d : ℕ) {n : ℕ} {b : Bus α} (hb : Settled n b)
    {a : Act α} (hwf : ∀ p ∈ a.stored, p.wellFormed = true)
    (hstart : b.drainStart a = some (b.sequence + a.stored.length))
    (horder : Orderly b (.act a b.reactions) ↔
      (b.reactions.take ((a.stored.length - 1) * b.subscribers.length)).flatMap Reaction.stored =
        []) :
    ∃ rows ps, Account b a rows ps
      ((b.nextRows a.stored).foldl (level sha (d + 3)).notify (b.persistAll a.stored)) := by
  have hb₁ := hb.idle.persistAll a.stored
  have hown : ∀ r ∈ b.nextRows a.stored,
      r ∈ (b.persistAll a.stored).rows ∧ r.wellFormed = true := by
    intro r hr
    refine ⟨?_, wellFormed_of_mem_stored hwf hr⟩
    rw [persistAll_eq]
    exact List.mem_append_right _ hr
  obtain ⟨rows, ps, hh, hidle, hperm, hcorr, hmono, hall, hord⟩ := notifyAll_handled sha d hb₁ hown
  have hnext := nextRows_append b a.stored ps
  have hseq : (b.persistAll a.stored).sequence = b.sequence + a.stored.length := by
    rw [persistAll_eq]
  have hafter : Bus.rowsAfter ((b.nextRows a.stored).foldl (level sha (d + 3)).notify
      (b.persistAll a.stored)) (b.sequence + a.stored.length) =
        (b.persistAll a.stored).nextRows ps := by
    rw [hh.rowsAfter (Nat.le_of_eq hseq.symm), hb₁.log.rowsAfter_sequence (Nat.le_of_eq hseq),
      List.nil_append]
  refine ⟨rows, ps, ?_⟩
  constructor
  case handled => exact hh
  case idle => exact hidle
  case watermark =>
    have hwm : (b.persistAll a.stored).watermark = b.watermark := by rw [persistAll_eq]
    exact hwm ▸ hmono
  case covers =>
    intro r hr _
    exact hall r (hnext ▸ hr)
  case once =>
    rw [hnext]
    exact hperm.filter _
  case passed => rw [hstart, hcorr, Bus.passed, hafter]
  case ahead =>
    intro m hm
    rw [hstart, Bus.passed, hafter] at hm
    obtain ⟨r, hr, rfl⟩ := List.mem_map.mp hm
    have hr := (List.mem_filter.mp hr).1
    have hlo := (seq_of_mem_nextRows hr).1
    have hwm := hb.idle.watermark
    have hmax := hb.idle.log.maxSeq_le
    exact ⟨by omega, hall r (List.mem_append_right _ hr)⟩
  case order =>
    have hfilter : (b.nextRows a.stored).filter EventRow.wellFormed = b.nextRows a.stored :=
      List.filter_eq_self.mpr fun r hr => wellFormed_of_mem_stored hwf hr
    rw [hnext, List.filter_append, List.map_append, hfilter, hord, horder, length_nextRows,
      persistAll_eq]

/-- **A committed envelope**: the drain starts at the watermark. -/
lemma Account.envelope (sha : String → String) (d : ℕ) {n : ℕ} {b : Bus α} (hb : Settled n b)
    {e : Envelope α} (he : (e.throws || !e.matches_) = false) :
    ∃ rows ps, Account b (.envelope e) rows ps (drainWith sha (level sha (d + 2))
      (b.persistAll (Act.envelope e).stored) b.watermark) := by
  have hb₁ := hb.idle.persistAll (Act.envelope e).stored
  have hwm : (b.persistAll (Act.envelope e).stored).watermark = b.watermark := by
    rw [persistAll_eq]
  have hle : b.watermark ≤ b.sequence := Nat.le_trans hb.idle.watermark hb.idle.log.maxSeq_le
  obtain ⟨ps, hh, hidle, _, hmono, hall⟩ := drainWith_handled (delivers_level sha (d + 1)) sha hb₁
    (Nat.le_of_eq hwm) (hwm ▸ hb₁.watermark)
  have hnext := nextRows_append b (Act.envelope e).stored ps
  have hpast : (b.rowsAfter b.watermark).filter EventRow.wellFormed = [] := by
    refine List.filter_eq_nil_iff.mpr fun r hr hw => ?_
    obtain ⟨hin, hlt⟩ := List.mem_filter.mp hr
    have hdone := hb.delivered r hin hw
    simp only [decide_eq_true_eq] at hlt
    omega
  have hstart : b.drainStart (.envelope e) = some b.watermark := by
    rw [drainStart, he]
    rfl
  have hseq : b.watermark ≤ (b.persistAll (Act.envelope e).stored).sequence := by
    rw [persistAll_eq]
    exact Nat.le_trans hle (Nat.le_add_right _ _)
  have hafter := hh.rowsAfter hseq
  have hfilter : ((b.persistAll (Act.envelope e).stored).rowsAfter b.watermark ++
      (b.persistAll (Act.envelope e).stored).nextRows ps).filter EventRow.wellFormed =
        (b.nextRows ((Act.envelope e).stored ++ ps)).filter EventRow.wellFormed := by
    rw [rowsAfter_persistAll hle, hnext, List.append_assoc, List.filter_append, hpast,
      List.nil_append]
  refine ⟨(b.persistAll (Act.envelope e).stored).rowsAfter b.watermark ++
    (b.persistAll (Act.envelope e).stored).nextRows ps, ps, ?_⟩
  constructor
  case handled => exact hh
  case idle => exact hidle
  case watermark => exact hwm ▸ hmono
  case covers =>
    intro r hr _
    refine hall (.inl hwm) r ?_
    rw [hh.log_eq, persistAll_eq]
    simp only [List.append_assoc]
    refine List.mem_append_right _ ?_
    rw [hnext, persistAll_eq] at hr
    exact hr
  case once => rw [hfilter]
  case passed => rw [hstart, Bus.passed, hafter]
  case ahead =>
    intro m hm
    rw [hstart, Bus.passed] at hm
    obtain ⟨r, hr, rfl⟩ := List.mem_map.mp hm
    obtain ⟨hin, hlt⟩ := List.mem_filter.mp (List.mem_filter.mp hr).1
    exact ⟨by simpa using hlt, hall (.inl hwm) r hin⟩
  case order => exact iff_of_true (by rw [hfilter]) trivial

/-- **Every call** has an account. -/
theorem act_account (sha : String → String) (d : ℕ) {n : ℕ} {b : Bus α} (hb : Settled n b)
    (a : Act α) : ∃ rows ps, Account b a rows ps (act (level sha (d + 3)) b a) := by
  cases a with
  | emit a =>
    exact Account.transaction sha d hb (by simp [Act.stored, Payload.wellFormed]) rfl
      (iff_of_true trivial (by simp [Act.stored]))
  | transaction events commits =>
    cases commits with
    | false =>
      exact ⟨[], [], .quiet hb.idle rfl (by simp [Act.stored]) rfl trivial⟩
    | true =>
      have hstored : (Act.transaction events true).stored =
          events.map fun a => Payload.event (.domain a) := rfl
      by_cases hne : events = []
      · subst hne
        exact ⟨[], [], .quiet hb.idle rfl (by simp [hstored]) rfl (by simp [Orderly])⟩
      · refine Account.transaction sha d hb ?_ ?_ ?_
        · intro p hp
          obtain ⟨a, _, rfl⟩ := List.mem_map.mp hp
          rfl
        · simp [drainStart, hstored, hne]
        · rw [hstored, List.length_map]
          rfl
  | envelope e =>
    rw [act]
    cases he : e.throws || !e.matches_ with
    | true =>
      have hstored : (Act.envelope e).stored = [] := by rw [Act.stored, if_pos he]
      refine ⟨[], [], .quiet hb.idle ?_ (by simp [hstored]) ?_ trivial⟩
      · rw [hstored]
        rfl
      · rw [drainStart, if_pos he]
    | false =>
      have hstored : (Act.envelope e).stored = e.persisted.map fun a => .event (.domain a) := by
        rw [Act.stored, he]
        rfl
      obtain ⟨rows, ps, hacc⟩ := Account.envelope sha d hb he
      have hwm : (b.persistAll (Act.envelope e).stored).watermark = b.watermark := by
        rw [persistAll_eq]
      rw [hstored] at hwm hacc
      refine ⟨rows, ps, ?_⟩
      simp only [Bool.false_eq_true, if_false, hwm]
      exact hacc
  | corrupt text error =>
    exact ⟨[], [], .quiet hb.idle rfl (by simp [Act.stored, Payload.wellFormed]) rfl trivial⟩

/-! ### What the account says of a call -/

lemma Account.log_eq {b t : Bus α} {a : Act α} {rows : List (EventRow α)} {ps : List (Payload α)}
    (h : Account b a rows ps t) : t.rows = b.rows ++ b.nextRows (a.stored ++ ps) := by
  rw [h.handled.log_eq, nextRows_append]
  rw [persistAll_eq, List.append_assoc]

lemma since_eq {b t : Bus α} {rows : List (EventRow α)} (h : t.rows = b.rows ++ rows) :
    b.since t = rows := by
  rw [since, h, List.drop_left]

lemma filter_announce {b : Bus α} (hb : b.subscribers.Nodup) (rows : List (EventRow α)) (k : ℕ) :
    ((rows.flatMap b.announce).filter fun c => c.1 = k).map Prod.snd =
      if k ∈ b.subscribers then rows.map EventRow.seq else [] := by
  have hone : ∀ (subs : List ℕ) (seq : ℕ), subs.Nodup →
      ((subs.map fun s => (s, seq)).filter fun c => c.1 = k).map Prod.snd =
        if k ∈ subs then [seq] else [] := by
    intro subs seq hnodup
    induction subs with
    | nil => rfl
    | cons s subs ih =>
      obtain ⟨hs, hnodup⟩ := List.nodup_cons.mp hnodup
      have ih := ih hnodup
      rw [List.map_cons, List.filter_cons]
      by_cases hk : s = k
      · subst hk
        rw [if_neg hs] at ih
        simp [ih]
      · have hmem : k ∈ s :: subs ↔ k ∈ subs := by simp [Ne.symm hk]
        simp only [hk, decide_false, Bool.false_eq_true, if_false, ih, hmem]
  induction rows with
  | nil => simp
  | cons row rows ih =>
    rw [List.flatMap_cons, List.filter_append, List.map_append, ih, announce,
      hone _ _ hb]
    split <;> rfl

lemma Account.heard {b t : Bus α} {a : Act α} {rows : List (EventRow α)} {ps : List (Payload α)}
    (h : Account b a rows ps t) (hb : b.subscribers.Nodup) (k : ℕ) :
    t.heard k = b.heard k ++
      if k ∈ b.subscribers then (rows.filter EventRow.wellFormed).map EventRow.seq else [] := by
  have hcalls := h.handled.calls
  rw [persistAll_eq] at hcalls
  rw [Bus.heard, hcalls, List.filter_append, List.map_append]
  exact congrArg _ (filter_announce hb _ k)

lemma Account.committed {b t : Bus α} {a : Act α} {rows : List (EventRow α)}
    {ps : List (Payload α)} (h : Account b a rows ps t) :
    b.committed t =
      ((b.nextRows (a.stored ++ ps)).filter EventRow.wellFormed).map EventRow.seq := by
  rw [Bus.committed, since_eq h.log_eq]

lemma filterMap_reported (rows : List (EventRow α)) :
    (rows.filterMap fun r => r.payload.reported) =
      (rows.map EventRow.payload).filterMap Payload.reported := by
  rw [List.filterMap_map]
  rfl

lemma Account.reported {b t : Bus α} {a : Act α} {rows : List (EventRow α)} {ps : List (Payload α)}
    (h : Account b a rows ps t) : b.reported t = t.passed (b.drainStart a) := by
  have hown : a.stored.filterMap Payload.reported = [] :=
    List.filterMap_eq_nil_iff.mpr fun p hp => a.reported_of_mem_stored hp
  rw [Bus.reported, since_eq h.log_eq, filterMap_reported, map_payload_nextRows,
    List.filterMap_append, hown, List.nil_append, h.handled.reports, h.passed]

lemma Account.served {b t : Bus α} {a : Act α} {rows : List (EventRow α)} {ps : List (Payload α)}
    (h : Account b a rows ps t) (hb : b.subscribers.Nodup) : Served b a b.reactions t where
  grows := ⟨_, h.log_eq.symm⟩
  commits := by
    have hown : a.stored.filter (fun p => p.reported.isNone) = a.stored :=
      List.filter_eq_self.mpr fun p hp => by rw [a.reported_of_mem_stored hp]; rfl
    have hcount : t.calls.length - b.calls.length = (b.persistAll a.stored).callsFor rows := by
      have hlen : ∀ l : List (EventRow α), (l.flatMap (b.persistAll a.stored).announce).length =
          l.length * (b.persistAll a.stored).subscribers.length := by
        intro l
        induction l with
        | nil => simp
        | cons r l ih =>
          rw [List.flatMap_cons, List.length_append, ih, announce, List.length_map,
            List.length_cons, Nat.add_mul, Nat.one_mul, Nat.add_comm]
      have hb₁ : (b.persistAll a.stored).calls = b.calls := by rw [persistAll_eq]
      rw [h.handled.calls, List.length_append, hlen, hb₁, callsFor]
      omega
    have hreactions : (b.persistAll a.stored).reactions = b.reactions := by rw [persistAll_eq]
    rw [since_eq h.log_eq, map_payload_nextRows, List.filter_append, hown, h.handled.stored, hcount,
      hreactions]
  once := by
    intro k hk
    refine ⟨_, h.heard hb k, ?_⟩
    rw [if_pos hk, h.committed]
    exact h.once.map _
  others := by
    intro k hk
    rw [h.heard hb k, if_neg hk, List.append_nil]
  reports := h.reported

lemma Log.nodup_passed {t : Bus α} (h : Log t) (start : Option ℕ) : (t.passed start).Nodup := by
  cases start with
  | none => exact .nil
  | some c =>
    refine List.Pairwise.map _ (fun r r' hlt => ?_) ((h.ascending.filter _).filter _)
    exact Nat.ne_of_lt hlt

lemma Account.reports_drop {n : ℕ} {b t : Bus α} {a : Act α} {rows : List (EventRow α)}
    {ps : List (Payload α)} (h : Account b a rows ps t) (hn : n ≤ b.rows.length) :
    (t.rows.drop n).filterMap (fun r => r.payload.reported) =
      (b.rows.drop n).filterMap (fun r => r.payload.reported) ++ t.passed (b.drainStart a) := by
  have hreported := h.reported
  rw [Bus.reported, since_eq h.log_eq] at hreported
  rw [h.log_eq, List.drop_append_of_le_length hn, List.filterMap_append, hreported]

/-- **A call keeps the invariant.** -/
lemma Account.settled {n : ℕ} {b t : Bus α} {a : Act α} {rows : List (EventRow α)}
    {ps : List (Payload α)} (h : Account b a rows ps t) (hb : Settled n b) : Settled n t where
  idle := h.idle
  delivered := by
    intro r hr hw
    rw [h.log_eq] at hr
    rcases List.mem_append.mp hr with hr | hr
    · exact Nat.le_trans (hb.delivered r hr hw) h.watermark
    · exact h.covers r hr hw
  nodup := by
    have hsubs := h.handled.subscribers
    rw [persistAll_eq] at hsubs
    exact hsubs ▸ hb.nodup
  base := by
    rw [h.log_eq, List.length_append]
    exact Nat.le_trans hb.base (Nat.le_add_right _ _)
  distinct := by
    rw [h.reports_drop hb.base]
    refine List.nodup_append.mpr ⟨hb.distinct, h.idle.log.nodup_passed _, fun m hm m' hm' => ?_⟩
    have hlo := hb.below m hm
    have hhi := (h.ahead m' hm').1
    omega
  below := by
    intro m hm
    rw [h.reports_drop hb.base] at hm
    rcases List.mem_append.mp hm with hm | hm
    · exact Nat.le_trans (hb.below m hm) h.watermark
    · exact (h.ahead m hm).2

/-! ### Order -/

lemma inOrder_iff {b t : Bus α} (ht : Log t) (k : ℕ) :
    InOrder b t k ↔ t.heard k = b.heard k ++ b.committed t := by
  have hsorted : (b.committed t).Pairwise (· < ·) := by
    refine List.Pairwise.map _ (fun _ _ h => h) ?_
    exact (ht.ascending.sublist (List.drop_sublist _ _)).filter _
  constructor
  · rintro ⟨h, heq, hperm, hord⟩
    rw [heq, hperm.eq_of_pairwise (fun a b _ _ h h' => absurd (Nat.lt_trans h h') (Nat.lt_irrefl a))
      hord hsorted]
  · intro h
    exact ⟨_, h, .refl _, hsorted⟩

/-- **One call**: every subscriber hears its rows in order exactly when the call is orderly. -/
theorem act_inOrder_iff (sha : String → String) (d : ℕ) {n : ℕ} {b : Bus α} (hb : Settled n b)
    (a : Act α) :
    (∀ k ∈ b.subscribers, InOrder b (act (level sha (d + 3)) b a) k) ↔
      Orderly b (.act a b.reactions) := by
  obtain ⟨rows, ps, hacc⟩ := act_account sha d hb a
  rw [← hacc.order]
  have hstep : ∀ k ∈ b.subscribers, (InOrder b (act (level sha (d + 3)) b a) k ↔
      (rows.filter EventRow.wellFormed).map EventRow.seq =
        ((b.nextRows (a.stored ++ ps)).filter EventRow.wellFormed).map EventRow.seq) := by
    intro k hk
    rw [inOrder_iff hacc.idle.log, hacc.heard hb.nodup, if_pos hk, hacc.committed,
      List.append_cancel_left_eq]
  constructor
  · intro h
    cases hsubs : b.subscribers with
    | nil =>
      rw [hacc.order]
      match a with
      | .transaction events true => simp [Orderly, hsubs]
      | .transaction events false | .emit _ | .envelope _ | .corrupt .. => trivial
    | cons k subs =>
      have hk : k ∈ b.subscribers := hsubs ▸ List.mem_cons_self
      exact (hstep k hk).mp (h k hk)
  · intro h k hk
    exact (hstep k hk).mpr h

/-! ### Runs -/

def Step (sha : String → String) (d : ℕ) (b : Bus α) (op : Op α) (t : Bus α) : Prop :=
  perform sha d b op = t

lemma Settled.scripted {n : ℕ} {b : Bus α} (h : Settled n b) (reactions : List (Reaction α)) :
    Settled n { b with reactions } :=
  ⟨⟨h.idle.log.congr rfl rfl, h.idle.notifying, h.idle.draining, h.idle.watermark⟩, h.delivered,
    h.nodup, h.base, h.distinct, h.below⟩

lemma Settled.subscribed {n : ℕ} {b : Bus α} (h : Settled n b) {subs : List ℕ}
    (hsubs : subs.Nodup) : Settled n { b with subscribers := subs } :=
  ⟨⟨h.idle.log.congr rfl rfl, h.idle.notifying, h.idle.draining, h.idle.watermark⟩, h.delivered,
    hsubs, h.base, h.distinct, h.below⟩

/-- **Every step keeps the invariant.** -/
theorem perform_settled (sha : String → String) (d : ℕ) {n : ℕ} {b : Bus α} (hb : Settled n b)
    (op : Op α) : Settled n (perform sha d b op) := by
  cases op with
  | act a reactions =>
    obtain ⟨rows, ps, hacc⟩ := act_account sha d (hb.scripted reactions) a
    exact hacc.settled (hb.scripted reactions)
  | subscribe k =>
    rw [perform]
    split
    · exact hb
    · rename_i hk
      refine hb.subscribed ?_
      exact List.nodup_append.mpr ⟨hb.nodup, List.pairwise_singleton _ k,
        fun a ha b hb h => hk (by rw [← List.mem_singleton.mp hb, ← h]; exact ha)⟩
  | unsubscribe k => exact hb.subscribed (hb.nodup.erase k)

lemma inOrder_of_same {b t : Bus α} (hrows : t.rows = b.rows) (hcalls : t.calls = b.calls)
    (k : ℕ) : InOrder b t k := by
  refine ⟨[], ?_, ?_, .nil⟩
  · rw [heard, heard, hcalls, List.append_nil]
  · rw [committed, since, hrows, List.drop_length]
    exact .refl _

/-- **A step delivers in order exactly when it is orderly.** -/
theorem orderly_iff (sha : String → String) (d : ℕ) {n : ℕ} {b : Bus α} (hb : Settled n b)
    (op : Op α) : Orderly b op ↔ ∀ k ∈ b.subscribers, InOrder b (perform sha d b op) k := by
  cases op with
  | act a reactions => exact (act_inOrder_iff sha d (hb.scripted reactions) a).symm
  | subscribe k =>
    refine iff_of_true trivial fun j _ => ?_
    rw [perform]
    split
    · exact inOrder_of_same rfl rfl j
    · exact inOrder_of_same rfl rfl j
  | unsubscribe k => exact iff_of_true trivial fun j _ => inOrder_of_same rfl rfl j

lemma perform_grows (sha : String → String) (d : ℕ) {n : ℕ} {b : Bus α} (hb : Settled n b)
    (op : Op α) : b.rows <+: (perform sha d b op).rows := by
  cases op with
  | act a reactions =>
    obtain ⟨rows, ps, hacc⟩ := act_account sha d (hb.scripted reactions) a
    exact ⟨_, hacc.log_eq.symm⟩
  | subscribe k =>
    rw [perform]
    split
    · exact List.prefix_rfl
    · exact List.prefix_rfl
  | unsubscribe k => exact List.prefix_rfl

lemma committed_trans {s t u : Bus α} (hst : s.rows <+: t.rows) (htu : t.rows <+: u.rows) :
    s.committed u = s.committed t ++ t.committed u := by
  obtain ⟨new, hnew⟩ := hst
  obtain ⟨later, hlater⟩ := htu
  have hsu : u.rows = s.rows ++ (new ++ later) := by
    rw [← hlater, ← hnew, List.append_assoc]
  rw [committed, committed, committed, since_eq hsu, since_eq hnew.symm, since_eq hlater.symm,
    List.filter_append, List.map_append]

lemma perform_subscribers (sha : String → String) (d : ℕ) {n : ℕ} {b : Bus α} (hb : Settled n b)
    {op : Op α} {k : ℕ} (hk : k ∈ b.subscribers) (hop : op ≠ .unsubscribe k) :
    k ∈ (perform sha d b op).subscribers := by
  cases op with
  | act a reactions =>
    obtain ⟨rows, ps, hacc⟩ := act_account sha d (hb.scripted reactions) a
    have hsubs := hacc.handled.subscribers
    rw [persistAll_eq] at hsubs
    rw [perform, hsubs]
    exact hk
  | subscribe j =>
    rw [perform]
    split
    · exact hk
    · exact List.mem_append_left _ hk
  | unsubscribe j =>
    have hne : k ≠ j := fun h => hop (by rw [h])
    exact (List.mem_erase_of_ne hne).mpr hk

lemma perform_once (sha : String → String) (d : ℕ) {n : ℕ} {b : Bus α} (hb : Settled n b)
    (op : Op α) {k : ℕ} (hk : k ∈ b.subscribers) :
    ∃ h, (perform sha d b op).heard k = b.heard k ++ h ∧
      h.Perm (b.committed (perform sha d b op)) := by
  cases op with
  | act a reactions =>
    obtain ⟨rows, ps, hacc⟩ := act_account sha d (hb.scripted reactions) a
    exact (hacc.served (hb.scripted reactions).nodup).once k hk
  | subscribe j =>
    obtain ⟨h, heq, hperm, _⟩ := (orderly_iff sha d hb (.subscribe j)).mp trivial k hk
    exact ⟨h, heq, hperm⟩
  | unsubscribe j =>
    obtain ⟨h, heq, hperm, _⟩ := (orderly_iff sha d hb (.unsubscribe j)).mp trivial k hk
    exact ⟨h, heq, hperm⟩

/-- **Exactly once over a run**, for a subscriber that stays. -/
theorem run_once (sha : String → String) (d : ℕ) {n : ℕ} {s t : Bus α} {ops : List (Op α)}
    (h : Path (Step sha d) s ops t) (hs : Settled n s) {k : ℕ} (hk : k ∈ s.subscribers)
    (hops : ∀ op ∈ ops, op ≠ .unsubscribe k) :
    s.rows <+: t.rows ∧ ∃ l, t.heard k = s.heard k ++ l ∧ l.Perm (s.committed t) := by
  induction h with
  | nil s =>
    obtain ⟨l, heq, hperm, _⟩ := inOrder_of_same (b := s) (t := s) rfl rfl k
    exact ⟨List.prefix_rfl, l, heq, hperm⟩
  | @cons s u t op ops hstep _ ih =>
    subst hstep
    have hkeep := perform_subscribers sha d hs hk (hops op List.mem_cons_self)
    obtain ⟨hgrow, l', heq', hperm'⟩ := ih (perform_settled sha d hs op) hkeep
      fun op hop => hops op (List.mem_cons_of_mem _ hop)
    obtain ⟨l, heq, hperm⟩ := perform_once sha d hs op hk
    have hfirst := perform_grows sha d hs op
    refine ⟨hfirst.trans hgrow, l ++ l', ?_, ?_⟩
    · rw [heq', heq, List.append_assoc]
    · rw [committed_trans hfirst hgrow]
      exact hperm.append hperm'

/-- **In order over a run of orderly steps**. -/
theorem run_inOrder (sha : String → String) (d : ℕ) {n : ℕ} {s t : Bus α} {ops : List (Op α)}
    (h : Path (fun b op u => Step sha d b op u ∧ Orderly b op) s ops t) (hs : Settled n s) {k : ℕ}
    (hk : k ∈ s.subscribers) (hops : ∀ op ∈ ops, op ≠ .unsubscribe k) :
    Log t ∧ s.rows <+: t.rows ∧ t.heard k = s.heard k ++ s.committed t := by
  induction h with
  | nil s =>
    have hsame := inOrder_of_same (b := s) (t := s) rfl rfl k
    exact ⟨hs.idle.log, List.prefix_rfl, (inOrder_iff hs.idle.log k).mp hsame⟩
  | @cons s u t op ops hstep _ ih =>
    obtain ⟨rfl, horder⟩ := hstep
    have hnext := perform_settled sha d hs op
    have hkeep := perform_subscribers sha d hs hk (hops op List.mem_cons_self)
    obtain ⟨hlog, hgrow, heq'⟩ := ih hnext hkeep fun op hop => hops op (List.mem_cons_of_mem _ hop)
    have heq := (inOrder_iff hnext.idle.log k).mp ((orderly_iff sha d hs op).mp horder k hk)
    have hfirst := perform_grows sha d hs op
    refine ⟨hlog, hfirst.trans hgrow, ?_⟩
    rw [heq', heq, List.append_assoc, committed_trans hfirst hgrow]

lemma run_settled (sha : String → String) (d : ℕ) {n : ℕ} {s t : Bus α} {ops : List (Op α)}
    (h : Path (Step sha d) s ops t) (hs : Settled n s) : Settled n t :=
  h.invariant (fun s op t hstep hs => by
    subst hstep
    exact perform_settled sha d hs op) hs

end Bus

open Bus

/-- **Delivery of committed events**, from any state a bus opened on a log comes to. Every call
commits what it and the callbacks commit, delivers each row once and reports each corrupt row its
drain passes once; no drain stops before the log's end. The steps of a run deliver in order to
everyone exactly when each is orderly, and then a subscriber that stays hears the log. -/
theorem committed_events_delivered (sha : String → String) (d : ℕ) {rows : List (EventRow α)}
    {sequence : ℕ} (hlog : Log (opened rows sequence)) {before : List (Op α)} {s : Bus α}
    (hs : Path (Step sha d) (opened rows sequence) before s) :
    (∀ a reactions, Served s a reactions (perform sha d s (.act a reactions))) ∧
    (∀ (b : Bus α) (c fuel : ℕ), InDrain b → backlog (b, c) ≤ fuel →
      let t := drainLoop sha (level sha (d + 1)) fuel (b, c)
      t.1.rowsAfter t.2 = []) ∧
    ∀ ops t, Path (Step sha d) s ops t →
      ((t.rows.drop rows.length).filterMap fun r => r.payload.reported).Nodup ∧
      (Path (fun b op u => Step sha d b op u ∧ ∀ k ∈ b.subscribers, InOrder b u k) s ops t ↔
        Path (fun b op u => Step sha d b op u ∧ Orderly b op) s ops t) ∧
      ∀ k ∈ s.subscribers, (∀ op ∈ ops, op ≠ .unsubscribe k) →
        (∃ h, t.heard k = s.heard k ++ h ∧ h.Perm (s.committed t)) ∧
        (Path (fun b op u => Step sha d b op u ∧ Orderly b op) s ops t → InOrder s t k) := by
  have hsettled := run_settled sha d hs (settled_opened hlog)
  refine ⟨fun a reactions => ?_, fun b c fuel hb hfuel => ?_, fun ops t ht => ⟨?_, ?_, ?_⟩⟩
  · obtain ⟨handled, ps, hacc⟩ := act_account sha d (hsettled.scripted reactions) a
    have hserved := hacc.served hsettled.nodup
    exact ⟨hserved.grows, hserved.commits, hserved.once, hserved.others, hserved.reports⟩
  · obtain ⟨_, _, hdone⟩ := drainLoop_drains (delivers_level sha d) sha fuel (b, c) hb
    exact hdone hfuel
  · exact (run_settled sha d ht hsettled).distinct
  · refine Path.good_iff (I := Settled rows.length) ?_ ?_ hsettled
    · intro b op u hstep hb
      subst hstep
      exact perform_settled sha d hb op
    · intro b op u hstep hb
      subst hstep
      exact orderly_iff sha d hb op
  · intro k hk hops
    refine ⟨(run_once sha d ht hsettled hk hops).2, fun horderly => ?_⟩
    obtain ⟨hlog', _, heq⟩ := run_inOrder sha d horderly hsettled hk hops
    exact (inOrder_iff hlog' k).mpr heq

/-- A subscriber that stores only from the last row's fan-out hears the log in order. -/
theorem committed_events_delivered_last :
    let s : Bus Unit := perform id 0 (opened [] 0) (.subscribe 0)
    let op : Op Unit := .act (.transaction [(), ()] true) [⟨[], true⟩, ⟨[.emit ()], false⟩]
    InOrder s (perform id 0 s op) 0 ∧ (perform id 0 s op).heard 0 = [1, 2, 3] := by
  intro s op
  have hlog : Log (opened ([] : List (EventRow Unit)) 0) := ⟨.nil, by simp [opened]⟩
  have hrun :
    Path (Step id 0) (opened ([] : List (EventRow Unit)) 0) [.subscribe 0] s := .single rfl
  obtain ⟨_, _, hall⟩ := committed_events_delivered id 0 hlog hrun
  obtain ⟨_, _, hheard⟩ := hall [op] (perform id 0 s op) (.single rfl)
  exact ⟨(hheard 0 (by decide) (by simp [op])).2 (.single ⟨rfl, rfl⟩), by decide⟩

/-- A subscriber that emits while the first of two committed events is handed over hears the event
of its own before the second. -/
theorem nested_emit_overtakes :
    let s : Bus Unit := perform id 0 (opened [] 0) (.subscribe 0)
    let t := perform id 0 s (.act (.transaction [(), ()] true) [⟨[.emit ()], false⟩])
    Log (opened ([] : List (EventRow Unit)) 0) ∧ 0 ∈ s.subscribers ∧ t.heard 0 = [1, 3, 2] ∧
      ¬ InOrder s t 0 := by
  intro s t
  have hheard : t.heard 0 = [1, 3, 2] := by decide
  refine ⟨⟨.nil, by simp [opened]⟩, by decide, hheard, ?_⟩
  rintro ⟨h, heq, _, hord⟩
  have hs : s.heard 0 = [] := by decide
  rw [hheard, hs, List.nil_append] at heq
  rw [← heq] at hord
  exact absurd hord (by decide)

end OpenRig.EventBus
