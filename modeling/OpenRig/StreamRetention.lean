import Mathlib.Data.List.Sort
import Mathlib.Data.Prod.Lex
import OpenRig.Runs

/-!
Stream retention: bounded batches delete what nothing needs, oldest first, and a mark says how far
they went.

What a batch deletes is the start of the unneeded items in order of position. So a deletion takes
no item that stands above a survivor, and what is unneeded after a batch is what was unneeded
before it, less what it deleted.
-/

namespace OpenRig.StreamRetention

open OpenRig.Runs

/-! ### Ranks -/

section Ranks

variable {α P : Type} [LinearOrder P] (f : α → P)

def ascending (l : List α) : List α := l.insertionSort fun a b => f a ≤ f b

def descending (l : List α) : List α := l.insertionSort fun a b => f b ≤ f a

lemma mem_ascending {l : List α} {a : α} : a ∈ ascending f l ↔ a ∈ l :=
  List.mem_insertionSort _

lemma ascending_pairwise (l : List α) : (ascending f l).Pairwise fun a b => f a ≤ f b := by
  have : Std.Total fun a b : α => f a ≤ f b := ⟨fun a b => le_total _ _⟩
  have : IsTrans α fun a b : α => f a ≤ f b := ⟨fun _ _ _ => le_trans⟩
  exact List.pairwise_insertionSort _ l

lemma descending_pairwise (l : List α) : (descending f l).Pairwise fun a b => f b ≤ f a := by
  have : Std.Total fun a b : α => f b ≤ f a := ⟨fun a b => le_total _ _⟩
  have : IsTrans α fun a b : α => f b ≤ f a := ⟨fun _ _ _ h h' => le_trans h' h⟩
  exact List.pairwise_insertionSort _ l

/-- How many stand above a place. -/
def above (x : P) (l : List α) : ℕ := l.countP fun a => x < f a

variable {f}

lemma getElem?_descending {l : List α} (h : l.Pairwise fun a b => f b ≤ f a) (x : P) (n : ℕ) :
    (∃ a, l[n]? = some a ∧ x < f a) ↔ n < above f x l := by
  induction l generalizing n with
  | nil => simp [above]
  | cons b l ih =>
    obtain ⟨hb, hl⟩ := List.pairwise_cons.mp h
    have ih := ih hl
    unfold above at ih ⊢
    by_cases hx : x < f b
    · rw [List.countP_cons_of_pos (by simpa using hx)]
      match n with
      | 0 => simp [hx]
      | n + 1 =>
        rw [List.getElem?_cons_succ, ih n]
        omega
    · -- Nothing below a place that is not above it either.
      have hnone : ∀ a ∈ b :: l, ¬ x < f a := by
        intro a ha
        rcases List.mem_cons.mp ha with rfl | ha
        · exact hx
        · exact fun h => hx (lt_of_lt_of_le h (hb a ha))
      rw [List.countP_eq_zero.mpr (fun a ha => by simpa using hnone a ha)]
      constructor
      · rintro ⟨a, ha, hxa⟩
        exact absurd hxa (hnone a (List.mem_of_getElem? ha))
      · exact fun h => absurd h (Nat.not_lt_zero _)

lemma rank_iff (l : List α) (x : P) (n : ℕ) :
    (∃ a, (descending f l)[n]? = some a ∧ x < f a) ↔ n < above f x l := by
  rw [getElem?_descending (descending_pairwise f l)]
  unfold above descending
  rw [(List.perm_insertionSort _ l).countP_eq]

lemma not_above_of_mem_take {l : List α} (h : l.Pairwise fun a b => f a ≤ f b) {n : ℕ} {a b : α}
    (ha : a ∈ l.take n) (hb : b ∈ l) (hn : b ∉ l.take n) : f a ≤ f b := by
  rw [← List.take_append_drop n l] at h hb
  rcases List.mem_append.mp hb with hb | hb
  · exact absurd hb hn
  · exact (List.pairwise_append.mp h).2.2 a ha b hb

lemma le_getLast {l : List α} (h : l.Pairwise fun a b => f a ≤ f b) {a b : α} (ha : a ∈ l)
    (hb : l.getLast? = some b) : f a ≤ f b := by
  obtain ⟨front, rfl⟩ := List.getLast?_eq_some_iff.mp hb
  rcases List.mem_append.mp ha with ha | ha
  · exact (List.pairwise_append.mp h).2.2 a ha b (List.mem_singleton_self b)
  · rw [List.mem_singleton.mp ha]

end Ranks

/-! ### The tables

Ids, times and sort keys are texts that the code only compares. -/

variable {I T K : Type} [DecidableEq I] [LinearOrder T] [LinearOrder K]

structure StreamItem (I T K : Type) where
  streamItemId : I
  tsEmitted : T
  streamSortKey : K
  deriving DecidableEq

def StreamItem.position (s : StreamItem I T K) : T ×ₗ K := toLex (s.tsEmitted, s.streamSortKey)

/-- The row of `stream_retention_marks`. -/
structure Mark (T K : Type) where
  prunedThroughTs : T
  prunedThroughKey : K
  prunedItems : ℕ
  prunedAt : T

def Mark.position (m : Mark T K) : T ×ₗ K := toLex (m.prunedThroughTs, m.prunedThroughKey)

/-- The tables that name stream items. A classification and a reader action may also name the item
that theirs repeats. -/
structure References (I : Type) where
  projectClassifications : List (I × Option I) := []
  classificationAttempts : List I := []
  streamDispositions : List I := []
  streamReaderActions : List (I × Option I) := []

def References.ids (r : References I) : List I :=
  r.projectClassifications.map (·.1) ++ r.projectClassifications.filterMap (·.2) ++
    r.classificationAttempts ++ r.streamDispositions ++
    r.streamReaderActions.map (·.1) ++ r.streamReaderActions.filterMap (·.2)

structure Db (I T K : Type) where
  items : List (StreamItem I T K)
  /-- The primary key. -/
  ids : (items.map (·.streamItemId)).Nodup
  references : References I := {}
  /-- The newest item before retention arrived, if there was one. -/
  floor : Option (T ×ₗ K) := none
  mark : Option (Mark T K) := none

structure RetentionOptions (T : Type) where
  now : T
  /-- `now` less the retention days. -/
  cutoff : T
  streamMaxItems : ℕ
  batchSize : ℕ

/-- Nothing names the item, and it is above the floor. -/
def Db.eligible (db : Db I T K) (s : StreamItem I T K) : Bool :=
  s.streamItemId ∉ db.references.ids && db.floor.all (· < s.position)

def Db.candidates (db : Db I T K) : List (StreamItem I T K) := db.items.filter db.eligible

/-- The oldest item kept under the count limit. -/
def Db.oldestKept (db : Db I T K) (maxItems : ℕ) : Option (StreamItem I T K) :=
  (descending StreamItem.position db.candidates)[maxItems - 1]?

def Db.dropped (db : Db I T K) (opts : RetentionOptions T) (s : StreamItem I T K) : Bool :=
  s.tsEmitted < opts.cutoff ||
    (db.oldestKept opts.streamMaxItems).any (s.position < ·.position)

def Db.doomed (db : Db I T K) (opts : RetentionOptions T) : List (StreamItem I T K) :=
  ((ascending StreamItem.position db.candidates).filter (db.dropped opts)).take opts.batchSize

def markAfter (prior : Option (Mark T K)) (last : StreamItem I T K) (deleted : ℕ) (now : T) :
    Mark T K :=
  match prior with
  | none => ⟨last.tsEmitted, last.streamSortKey, deleted, now⟩
  | some p =>
    if p.prunedThroughTs < last.tsEmitted ∨
        (p.prunedThroughTs = last.tsEmitted ∧ p.prunedThroughKey < last.streamSortKey) then
      ⟨last.tsEmitted, last.streamSortKey, p.prunedItems + deleted, now⟩
    else ⟨p.prunedThroughTs, p.prunedThroughKey, p.prunedItems + deleted, now⟩

/-- Take these items out of the table. -/
def Db.remove (db : Db I T K) (gone : List (StreamItem I T K)) : Db I T K :=
  { db with
    items := db.items.filter fun s => s.streamItemId ∉ gone.map (·.streamItemId)
    ids := db.ids.sublist (List.filter_sublist.map _) }

/-- One batch, and how many rows it deleted. -/
def pruneStreamItems (db : Db I T K) (opts : RetentionOptions T) : Db I T K × ℕ :=
  let doomed := db.doomed opts
  match doomed.getLast? with
  | none => (db, 0)
  | some last =>
    let deleted := doomed.length
    ({ db.remove doomed with mark := some (markAfter db.mark last deleted opts.now) }, deleted)

/-- The loop of `runQueueRetentionSweep` over the stream. -/
def drain (opts : RetentionOptions T) : ℕ → Db I T K → Db I T K
  | 0, db => db
  | maxBatches + 1, db =>
    let (after, deleted) := pruneStreamItems db opts
    if deleted = 0 then after else drain opts maxBatches after

/-- Nothing names the item, it is above the floor, and it is older than the cutoff or not among the
newest items of its kind that the limit keeps. -/
def Db.unneeded (db : Db I T K) (opts : RetentionOptions T) (s : StreamItem I T K) : Bool :=
  db.eligible s && (s.tsEmitted < opts.cutoff ||
    opts.streamMaxItems ≤ above StreamItem.position s.position db.candidates)

/-! ### One batch -/

variable {db : Db I T K} {opts : RetentionOptions T}

lemma mem_candidates {s : StreamItem I T K} :
    s ∈ db.candidates ↔ s ∈ db.items ∧ db.eligible s = true :=
  List.mem_filter

lemma dropped_iff (hmax : 1 ≤ opts.streamMaxItems) (s : StreamItem I T K) :
    db.dropped opts s = true ↔ s.tsEmitted < opts.cutoff ∨
      opts.streamMaxItems ≤ above StreamItem.position s.position db.candidates := by
  have hrank := rank_iff (f := StreamItem.position) db.candidates s.position
    (opts.streamMaxItems - 1)
  unfold Db.dropped Db.oldestKept
  rw [Bool.or_eq_true, decide_eq_true_eq, Option.any_eq_true]
  simp only [decide_eq_true_eq]
  rw [hrank]
  refine or_congr_right ?_
  omega

lemma mem_queue (hmax : 1 ≤ opts.streamMaxItems) {s : StreamItem I T K} :
    s ∈ (ascending StreamItem.position db.candidates).filter (db.dropped opts) ↔
      s ∈ db.items ∧ db.unneeded opts s = true := by
  rw [List.mem_filter, mem_ascending, mem_candidates, dropped_iff hmax, Db.unneeded,
    Bool.and_eq_true, Bool.or_eq_true, decide_eq_true_eq, decide_eq_true_eq, and_assoc]

lemma mem_of_doomed (hmax : 1 ≤ opts.streamMaxItems) {s : StreamItem I T K}
    (h : s ∈ db.doomed opts) : s ∈ db.items ∧ db.unneeded opts s = true :=
  (mem_queue hmax).mp (List.mem_of_mem_take h)

lemma queue_pairwise : ((ascending StreamItem.position db.candidates).filter
    (db.dropped opts)).Pairwise fun a b => a.position ≤ b.position :=
  (ascending_pairwise _ _).sublist List.filter_sublist

omit [DecidableEq I] [LinearOrder T] [LinearOrder K] in
lemma Db.eq_of_id {a b : StreamItem I T K} (ha : a ∈ db.items) (hb : b ∈ db.items)
    (h : a.streamItemId = b.streamItemId) : a = b :=
  List.inj_on_of_nodup_map db.ids ha hb h

/-- **One batch** takes out what it doomed and counts it; nothing else of the tables changes but the
mark. -/
lemma prune_cases (db : Db I T K) (opts : RetentionOptions T) :
    (db.doomed opts = [] ∧ pruneStreamItems db opts = (db, 0)) ∨
      ∃ last, (db.doomed opts).getLast? = some last ∧ pruneStreamItems db opts =
        ({ db.remove (db.doomed opts) with
            mark := some (markAfter db.mark last (db.doomed opts).length opts.now) },
          (db.doomed opts).length) := by
  unfold pruneStreamItems
  dsimp only
  cases h : (db.doomed opts).getLast? with
  | none => exact .inl ⟨List.getLast?_eq_none_iff.mp h, rfl⟩
  | some last => exact .inr ⟨last, rfl, rfl⟩

lemma items_prune_eq : (pruneStreamItems db opts).1.items =
    db.items.filter fun a => a.streamItemId ∉ (db.doomed opts).map (·.streamItemId) := by
  rcases prune_cases db opts with ⟨hnone, heq⟩ | ⟨last, -, heq⟩
  · rw [heq, hnone]
    simp
  · rw [heq]
    rfl

lemma doomed_of_id (hmax : 1 ≤ opts.streamMaxItems) {s : StreamItem I T K} (hs : s ∈ db.items) :
    s.streamItemId ∈ (db.doomed opts).map (·.streamItemId) ↔ s ∈ db.doomed opts := by
  refine ⟨fun h => ?_, fun h => List.mem_map.mpr ⟨s, h, rfl⟩⟩
  obtain ⟨g, hg, he⟩ := List.mem_map.mp h
  exact db.eq_of_id (mem_of_doomed hmax hg).1 hs he ▸ hg

lemma items_prune (hmax : 1 ≤ opts.streamMaxItems) {s : StreamItem I T K} :
    s ∈ (pruneStreamItems db opts).1.items ↔ s ∈ db.items ∧ s ∉ db.doomed opts := by
  rw [items_prune_eq, List.mem_filter, decide_eq_true_eq]
  exact and_congr_right fun hs => not_congr (doomed_of_id hmax hs)

lemma items_prune_sublist : (pruneStreamItems db opts).1.items.Sublist db.items := by
  rw [items_prune_eq]
  exact List.filter_sublist

lemma eligible_prune : (pruneStreamItems db opts).1.eligible = db.eligible := by
  rcases prune_cases db opts with ⟨-, heq⟩ | ⟨last, -, heq⟩
  · rw [heq]
  · rw [heq]
    rfl

lemma above_prune (hmax : 1 ≤ opts.streamMaxItems) {s : StreamItem I T K} (hs : s ∈ db.items)
    (hun : db.unneeded opts s = true) (hleft : s ∉ db.doomed opts) :
    above StreamItem.position s.position (pruneStreamItems db opts).1.candidates =
      above StreamItem.position s.position db.candidates := by
  have hbelow : ∀ g ∈ db.doomed opts, ¬ s.position < g.position := fun g hg =>
    not_lt.mpr (not_above_of_mem_take queue_pairwise hg ((mem_queue hmax).mpr ⟨hs, hun⟩) hleft)
  unfold above Db.candidates
  rw [eligible_prune, items_prune_eq, List.filter_filter, List.countP_filter, List.countP_filter]
  refine List.countP_congr fun a ha => ?_
  by_cases hpos : s.position < a.position
  · have hkept : a.streamItemId ∉ (db.doomed opts).map (·.streamItemId) :=
      fun hin => hbelow a ((doomed_of_id hmax ha).mp hin) hpos
    simp [hkept]
  · simp [hpos]

lemma candidates_prune_sublist :
    (pruneStreamItems db opts).1.candidates.Sublist db.candidates := by
  unfold Db.candidates
  rw [eligible_prune]
  exact items_prune_sublist.filter _

/-- **What is unneeded after a batch is what was unneeded before it**, less what it deleted. -/
lemma unneeded_prune (hmax : 1 ≤ opts.streamMaxItems) {s : StreamItem I T K}
    (hs : s ∈ (pruneStreamItems db opts).1.items) :
    (pruneStreamItems db opts).1.unneeded opts s = db.unneeded opts s := by
  obtain ⟨hs, hleft⟩ := (items_prune hmax).mp hs
  rw [Bool.eq_iff_iff]
  constructor
  · intro h
    unfold Db.unneeded at h ⊢
    rw [eligible_prune, Bool.and_eq_true, Bool.or_eq_true, decide_eq_true_eq,
      decide_eq_true_eq] at h
    rw [Bool.and_eq_true, Bool.or_eq_true, decide_eq_true_eq, decide_eq_true_eq]
    exact ⟨h.1, h.2.imp_right fun hle => hle.trans candidates_prune_sublist.countP_le⟩
  · intro h
    rw [← h]
    unfold Db.unneeded
    rw [eligible_prune, above_prune hmax hs h hleft]

/-! ### The sweep -/

lemma doomed_eq_nil (hmax : 1 ≤ opts.streamMaxItems) (hbatch : 1 ≤ opts.batchSize)
    (h : db.doomed opts = []) {s : StreamItem I T K} (hs : s ∈ db.items) :
    db.unneeded opts s = false := by
  rcases List.take_eq_nil_iff.mp h with hzero | hnil
  · omega
  · by_contra hun
    have hmem := (mem_queue hmax).mpr ⟨hs, by simpa using hun⟩
    rw [hnil] at hmem
    cases hmem

lemma length_prune (hmax : 1 ≤ opts.streamMaxItems) (h : db.doomed opts ≠ []) :
    (pruneStreamItems db opts).1.items.length < db.items.length := by
  obtain ⟨s, hs⟩ := List.exists_mem_of_ne_nil _ h
  refine lt_of_le_of_ne items_prune_sublist.length_le fun hlen => ?_
  have hsame := items_prune_sublist.eq_of_length hlen
  have hin : s ∈ (pruneStreamItems db opts).1.items := hsame ▸ (mem_of_doomed hmax hs).1
  exact ((items_prune hmax).mp hin).2 hs

lemma filter_prune (hmax : 1 ≤ opts.streamMaxItems) :
    ((pruneStreamItems db opts).1.items.filter fun s =>
      !(pruneStreamItems db opts).1.unneeded opts s) =
        db.items.filter fun s => !db.unneeded opts s := by
  conv_lhs => rw [items_prune_eq]
  rw [List.filter_filter]
  refine List.filter_congr fun a ha => ?_
  by_cases hgone : a ∈ db.doomed opts
  · simp [(doomed_of_id hmax ha).mpr hgone, (mem_of_doomed hmax hgone).2]
  · have hleft := (items_prune hmax).mpr ⟨ha, hgone⟩
    have hid := mt (doomed_of_id hmax ha).mp hgone
    rw [unneeded_prune hmax hleft, decide_eq_true hid, Bool.and_true]

/-- **The sweep deletes exactly what is unneeded**, whatever the size of its batches. -/
lemma drain_items (hmax : 1 ≤ opts.streamMaxItems) (hbatch : 1 ≤ opts.batchSize)
    {maxBatches : ℕ} (hn : db.items.length < maxBatches) :
    (drain opts maxBatches db).items = db.items.filter fun s => !db.unneeded opts s := by
  induction maxBatches generalizing db with
  | zero => omega
  | succ n ih =>
    rw [drain]
    rcases prune_cases db opts with ⟨hnone, heq⟩ | ⟨last, hlast, heq⟩
    · rw [heq]
      refine (List.filter_eq_self.mpr fun s hs => ?_).symm
      rw [doomed_eq_nil hmax hbatch hnone hs]
      rfl
    · have hne : db.doomed opts ≠ [] := by
        rintro hnil
        rw [hnil] at hlast
        cases hlast
      have hdeleted : (pruneStreamItems db opts).2 ≠ 0 := by
        rw [heq]
        exact List.length_pos_iff.mpr hne |>.ne'
      have hshorter := length_prune hmax hne
      dsimp only
      rw [if_neg hdeleted, ih (by omega), filter_prune hmax]

/-! ### Runs -/

inductive Label (I T K : Type) where
  | batch (opts : RetentionOptions T)
  | append (s : StreamItem I T K)
  /-- References are written or removed. -/
  | refer (references : References I)

/-- The tables and, for the statement only, every item a batch ever deleted. -/
structure Stream (I T K : Type) where
  db : Db I T K
  deleted : List (StreamItem I T K) := []

/-- An id that stands in the table is not inserted again. -/
def Db.append (db : Db I T K) (s : StreamItem I T K) : Db I T K :=
  if h : s.streamItemId ∈ db.items.map (·.streamItemId) then db
  else { db with
    items := db.items ++ [s]
    ids := by
      rw [List.map_append, List.nodup_append]
      refine ⟨db.ids, List.nodup_singleton _, ?_⟩
      rintro a ha b hb rfl
      rw [List.map_singleton, List.mem_singleton] at hb
      exact h (hb ▸ ha) }

/-- The limits of a batch are at least one. -/
def step (s : Stream I T K) : Label I T K → Option (Stream I T K)
  | .batch opts =>
    if 1 ≤ opts.streamMaxItems ∧ 1 ≤ opts.batchSize then
      some ⟨(pruneStreamItems s.db opts).1, s.deleted ++ s.db.doomed opts⟩
    else none
  | .append item => some { s with db := s.db.append item }
  | .refer references => some { s with db := { s.db with references } }

/-- The mark is the highest position deleted. -/
def Marks (mark : Option (Mark T K)) (deleted : List (StreamItem I T K)) : Prop :=
  match mark with
  | none => deleted = []
  | some m => (∃ d ∈ deleted, d.position = m.position) ∧ ∀ d ∈ deleted, d.position ≤ m.position

omit [DecidableEq I] in
lemma markAfter_position (prior : Option (Mark T K)) (last : StreamItem I T K) (n : ℕ) (now : T) :
    (markAfter prior last n now).position =
      match prior with
      | none => last.position
      | some p => max p.position last.position := by
  cases prior with
  | none => rfl
  | some p =>
    have hlt : p.position < last.position ↔ p.prunedThroughTs < last.tsEmitted ∨
        (p.prunedThroughTs = last.tsEmitted ∧ p.prunedThroughKey < last.streamSortKey) :=
      Prod.Lex.toLex_lt_toLex
    dsimp only
    by_cases h : p.position < last.position
    · rw [markAfter, if_pos (hlt.mp h), max_eq_right h.le]
      rfl
    · rw [markAfter, if_neg (mt hlt.mpr h), max_eq_left (not_lt.mp h)]
      rfl

omit [DecidableEq I] in
lemma Marks.batch {mark : Option (Mark T K)} {deleted doomed : List (StreamItem I T K)}
    (h : Marks mark deleted) (hsorted : doomed.Pairwise fun a b => a.position ≤ b.position)
    {last : StreamItem I T K} (hlast : doomed.getLast? = some last) (n : ℕ) (now : T) :
    Marks (some (markAfter mark last n now)) (deleted ++ doomed) := by
  have hpos := markAfter_position mark last n now
  have hmem := List.mem_of_getLast? hlast
  have hmax : ∀ d ∈ doomed, d.position ≤ last.position := fun d hd => le_getLast hsorted hd hlast
  cases mark with
  | none =>
    obtain rfl : deleted = [] := h
    refine ⟨⟨last, by simpa using hmem, hpos.symm⟩, fun d hd => ?_⟩
    rw [hpos]
    exact hmax d (by simpa using hd)
  | some p =>
    dsimp only at hpos
    obtain ⟨⟨d₀, hd₀, he⟩, hle⟩ := h
    refine ⟨?_, fun d hd => ?_⟩
    · rcases le_total p.position last.position with hp | hp
      · exact ⟨last, List.mem_append_right _ hmem, by rw [hpos, max_eq_right hp]⟩
      · exact ⟨d₀, List.mem_append_left _ hd₀, by rw [hpos, max_eq_left hp, he]⟩
    · rw [hpos]
      rcases List.mem_append.mp hd with hd | hd
      · exact (hle d hd).trans (le_max_left _ _)
      · exact (hmax d hd).trans (le_max_right _ _)

lemma marks_step {s t : Stream I T K} {l : Label I T K} (h : step s l = some t)
    (hs : Marks s.db.mark s.deleted) : Marks t.db.mark t.deleted := by
  cases l with
  | batch opts =>
    obtain ⟨-, h⟩ := Option.ite_none_right_eq_some.mp h
    cases h
    rcases prune_cases s.db opts with ⟨hnone, heq⟩ | ⟨last, hlast, heq⟩
    · rw [heq, hnone, List.append_nil]
      exact hs
    · rw [heq]
      exact hs.batch (queue_pairwise.sublist (List.take_sublist _ _)) hlast _ _
  | append item =>
    cases h
    unfold Db.append
    split
    · exact hs
    · exact hs
  | refer references =>
    cases h
    exact hs

/-- **Stream retention.** A sweep with batches enough deletes exactly the unneeded items, whatever
the size of a batch. In any run of batches, appends and changes of references, a batch deletes an
item only when, at that moment, nothing refers to it, it is above the floor, and it is older than
the cutoff or outranked by as many items as the limit keeps; and the mark is the highest position
ever deleted. -/
theorem stream_retention (db : Db I T K) :
    (∀ opts : RetentionOptions T, 1 ≤ opts.streamMaxItems → 1 ≤ opts.batchSize →
      ∀ maxBatches, db.items.length < maxBatches →
        (drain opts maxBatches db).items = db.items.filter fun s => !db.unneeded opts s) ∧
    ∀ ls s, Path (fun s l t => step s l = some t) ⟨{ db with mark := none }, []⟩ ls s →
      Marks s.db.mark s.deleted ∧
      ∀ opts t, step s (.batch opts) = some t → ∀ d ∈ s.db.items, d ∉ t.db.items →
        d.streamItemId ∉ s.db.references.ids ∧ (∀ f ∈ s.db.floor, f < d.position) ∧
        (d.tsEmitted < opts.cutoff ∨ opts.streamMaxItems ≤
          above StreamItem.position d.position (s.db.items.filter s.db.eligible)) := by
  refine ⟨fun opts hmax hbatch n hn => drain_items hmax hbatch hn, fun ls s hrun => ⟨?_, ?_⟩⟩
  · have hfresh : Marks (none : Option (Mark T K)) ([] : List (StreamItem I T K)) := rfl
    exact Path.invariant (I := fun s : Stream I T K => Marks s.db.mark s.deleted)
      (fun _ _ _ h hs => marks_step h hs) hrun hfresh
  · intro opts t hstep d hd hgone
    obtain ⟨⟨hmax, -⟩, hstep⟩ := Option.ite_none_right_eq_some.mp hstep
    cases hstep
    have hdoomed : d ∈ s.db.doomed opts := by
      by_contra hleft
      exact hgone ((items_prune hmax).mpr ⟨hd, hleft⟩)
    have hun := (mem_of_doomed hmax hdoomed).2
    rw [Db.unneeded, Bool.and_eq_true, Db.eligible, Bool.and_eq_true, decide_eq_true_eq,
      Bool.or_eq_true, decide_eq_true_eq, decide_eq_true_eq] at hun
    obtain ⟨⟨hfree, habove⟩, hlimits⟩ := hun
    refine ⟨hfree, fun f hf => ?_, hlimits⟩
    rw [Option.mem_def.mp hf] at habove
    exact decide_eq_true_eq.mp habove

/-- Five items, the second of which an attempt names. -/
def named : Db ℕ ℕ ℕ where
  items := [⟨1, 1, 0⟩, ⟨2, 2, 0⟩, ⟨3, 3, 0⟩, ⟨4, 4, 0⟩, ⟨5, 4, 1⟩]
  ids := by decide
  references := { classificationAttempts := [2] }

/-- One row a batch, down to two. -/
def keepTwo : RetentionOptions ℕ := { now := 9, cutoff := 0, streamMaxItems := 2, batchSize := 1 }

/-- A sweep drains the unnamed items; between two batches the named one loses its reference, and the
later batch takes it. -/
theorem stream_retention_drained :
    (drain keepTwo 6 named).items.map (·.streamItemId) = [2, 4, 5] ∧
    ∃ s, Path (fun s l t => step s l = some t) ⟨named, []⟩
        [.batch keepTwo, .refer {}, .append ⟨6, 5, 0⟩] s ∧
      ∃ t, step s (.batch keepTwo) = some t ∧
        (∃ d ∈ s.db.items, d.streamItemId = 2 ∧ d ∉ t.db.items ∧
          d.streamItemId ∉ s.db.references.ids) ∧
        t.db.mark.map (·.prunedThroughTs) = some 2 ∧ Marks t.db.mark t.deleted := by
  obtain ⟨hdrain, hruns⟩ := stream_retention named
  have hpath := path_play (f := step) (s := (⟨named, []⟩ : Stream ℕ ℕ ℕ))
    [.batch keepTwo, .refer {}, .append ⟨6, 5, 0⟩] (by decide +kernel)
  obtain ⟨-, hbatch⟩ := hruns _ _ hpath
  refine ⟨?_, _, hpath, _, rfl, ?_, by decide +kernel, ?_⟩
  · rw [hdrain keepTwo (by decide) (by decide) 6 (by decide)]
    decide +kernel
  · refine ⟨⟨2, 2, 0⟩, by decide +kernel, rfl, by decide +kernel, ?_⟩
    exact (hbatch keepTwo _ rfl ⟨2, 2, 0⟩ (by decide +kernel) (by decide +kernel)).1
  · exact (hruns _ _ (hpath.snoc (l := .batch keepTwo) rfl)).1

end OpenRig.StreamRetention
