import Mathlib.Data.List.Find
import Mathlib.Data.List.Perm.Basic
import Mathlib.Data.List.Nodup
import OpenRig.RecoveryIndex

/-!
When a lookup inside a span answers as the query does.

The query compares bytes and the index the texts read from them. Where no row is counted in one of
the two readings only, up to the row that answers, a lookup answers the same inside a span and
outside, and nowhere else. Texts without lone surrogates and rows of valid bytes are such.

An index built from the rows read so far lists for each text the rows that hold it, in the order of
the query, and keeps for each row the texts it holds.
-/

namespace OpenRig.RecoveryIndex

open OpenRig.Closure OpenRig.Utf8

/-! ### The order -/

instance : Std.Total before := ⟨fun a b => le_total (orderKey a) (orderKey b)⟩

instance : IsTrans QueueRow before := ⟨fun _ _ _ h h' => le_trans h h'⟩

lemma qitemId_of_before {a b : QueueRow} (h : before a b) (h' : before b a) :
    a.qitemId = b.qitemId := by
  have hkey : orderKey a = orderKey b := le_antisymm h h'
  exact congrArg (fun k => OrderDual.ofDual (ofLex (ofLex k).2).2) hkey

lemma Db.row_ext (db : Db) {a b : QueueRow} (ha : a ∈ db.items) (hb : b ∈ db.items)
    (h : a.qitemId = b.qitemId) : a = b :=
  List.inj_on_of_nodup_map db.keyed ha hb h

lemma Db.eq_of_sorted (db : Db) {l l' : List QueueRow} (hl : ∀ a ∈ l, a ∈ db.items)
    (h : l.Pairwise before) (h' : l'.Pairwise before) (hn : l.Nodup) (hn' : l'.Nodup)
    (hmem : ∀ a, a ∈ l ↔ a ∈ l') : l = l' := by
  have hperm : l.Perm l' := (List.perm_ext_iff_of_nodup hn hn').mpr hmem
  refine hperm.eq_of_pairwise (fun a b ha hb hab hba => ?_) h h'
  exact db.row_ext (hl a ha) (hl b (hperm.mem_iff.mpr hb)) (qitemId_of_before hab hba)

/-! ### The rows of the index -/

variable (env : Env)

/-- A row has a text that is read as the given one. -/
def reads (row : QueueRow) (s : Text) : Bool :=
  (valuesOf env row).any fun
    | .text b => decode b = s
    | _ => false

lemma reads_iff {row : QueueRow} {s : Text} :
    reads env row s ↔ ∃ b, .text b ∈ valuesOf env row ∧ decode b = s := by
  rw [reads, List.any_eq_true]
  constructor
  · rintro ⟨value, hvalue, h⟩
    cases value with
    | text b => exact ⟨b, hvalue, of_decide_eq_true h⟩
    | null => cases h
    | integer n => cases h
    | real r => cases h
  · rintro ⟨b, hvalue, h⟩
    exact ⟨.text b, hvalue, decide_eq_true h⟩

lemma holds_iff {row : QueueRow} {s : Text} :
    holds env row s ↔ .text (encode s) ∈ valuesOf env row := by
  simp [holds]

lemma mem_indexRows {db : Db} {row : QueueRow} {v : Text} :
    (row, v) ∈ indexRows env db ↔ row ∈ db.items ∧ reads env row v := by
  rw [indexRows, List.mem_insertionSort, List.mem_flatMap, reads_iff]
  constructor
  · rintro ⟨row', hrow, hmem⟩
    obtain ⟨value, hvalue, heq⟩ := List.mem_filterMap.mp hmem
    cases value with
    | text b =>
      obtain ⟨rfl, rfl⟩ := Prod.mk.inj (Option.some.inj heq)
      exact ⟨hrow, b, hvalue, rfl⟩
    | null => cases heq
    | integer n => cases heq
    | real r => cases heq
  · rintro ⟨hrow, b, hvalue, rfl⟩
    exact ⟨row, hrow, List.mem_filterMap.mpr ⟨.text b, hvalue, rfl⟩⟩

lemma indexRows_sorted (db : Db) : (indexRows env db).Pairwise fun a b => before a.1 b.1 := by
  have : Std.Total fun a b : QueueRow × Text => before a.1 b.1 :=
    ⟨fun a b => total_of before a.1 b.1⟩
  have : IsTrans (QueueRow × Text) fun a b => before a.1 b.1 := ⟨fun _ _ _ h h' => le_trans h h'⟩
  exact List.pairwise_insertionSort _ _

/-! ### Building the index -/

/-- The entry of a row, empty before its first text. -/
def Index.entry (ix : Index) (row : QueueRow) : RecoveryRow :=
  (ix.byRow row.qitemId).getD ⟨pick row, []⟩

/-- An index of the rows read so far. -/
structure Indexed (db : Db) (read : List (QueueRow × Text)) (ix : Index) : Prop where
  byRow : ∀ row ∈ db.items, (ix.entry row).picked = pick row ∧
    ∀ v, v ∈ (ix.entry row).values ↔ (row, v) ∈ read
  byTag : ∀ v, ∃ rows : List QueueRow, ix.byTag v = rows.map (·.qitemId) ∧
    rows.Pairwise before ∧ rows.Nodup ∧ ∀ row, row ∈ rows ↔ (row, v) ∈ read

lemma addValue_old {ix : Index} {r : QueueRow × Text} (h : r.2 ∈ (ix.entry r.1).values) :
    addValue ix r =
      { ix with byRow := Function.update ix.byRow r.1.qitemId (some (ix.entry r.1)) } := by
  unfold addValue
  exact if_pos (List.contains_iff_mem.mpr h)

lemma addValue_new {ix : Index} {r : QueueRow × Text} (h : r.2 ∉ (ix.entry r.1).values) :
    addValue ix r =
      { byRow := Function.update ix.byRow r.1.qitemId
          (some { ix.entry r.1 with values := (ix.entry r.1).values ++ [r.2] })
        byTag := Function.update ix.byTag r.2 (ix.byTag r.2 ++ [r.1.qitemId]) } := by
  unfold addValue
  exact if_neg fun hc => h (List.contains_iff_mem.mp hc)

lemma entry_update (db : Db) {ix : Index} {row row' : QueueRow} (hrow : row ∈ db.items)
    (hrow' : row' ∈ db.items) (entry : RecoveryRow) (byTag : Text → List String) :
    Index.entry ⟨Function.update ix.byRow row.qitemId (some entry), byTag⟩ row' =
      if row' = row then entry else ix.entry row' := by
  unfold Index.entry
  dsimp only
  split
  · rename_i heq
    rw [heq, Function.update_self, Option.getD_some]
  · rename_i hne
    rw [Function.update_of_ne fun heq => hne (db.row_ext hrow' hrow heq)]

lemma mem_snoc_of_mem {read : List (QueueRow × Text)} {r p : QueueRow × Text} (h : r ∈ read) :
    p ∈ read ++ [r] ↔ p ∈ read := by
  constructor
  · intro hp
    rcases List.mem_append.mp hp with hp | hp
    · exact hp
    · rwa [List.mem_singleton.mp hp]
  · exact List.mem_append_left _

/-- **One row of the index read.** -/
lemma Indexed.addValue {db : Db} {read : List (QueueRow × Text)} {ix : Index}
    (h : Indexed db read ix) {r : QueueRow × Text} (hrow : r.1 ∈ db.items)
    (hsorted : ∀ p ∈ read, before p.1 r.1) : Indexed db (read ++ [r]) (addValue ix r) := by
  obtain ⟨row, v⟩ := r
  by_cases hv : v ∈ (ix.entry row).values
  · have hread : (row, v) ∈ read := ((h.byRow row hrow).2 v).mp hv
    rw [addValue_old hv]
    refine ⟨fun row' hrow' => ?_, fun w => ?_⟩
    · rw [entry_update db hrow hrow']
      split
      · rename_i heq
        subst heq
        exact ⟨(h.byRow row' hrow).1,
          fun w => ((h.byRow row' hrow).2 w).trans (mem_snoc_of_mem hread).symm⟩
      · exact ⟨(h.byRow row' hrow').1,
          fun w => ((h.byRow row' hrow').2 w).trans (mem_snoc_of_mem hread).symm⟩
    · obtain ⟨rows, htag, hpair, hnodup, hmem⟩ := h.byTag w
      exact ⟨rows, htag, hpair, hnodup, fun row' => (hmem row').trans (mem_snoc_of_mem hread).symm⟩
  · have hread : (row, v) ∉ read := fun hmem => hv (((h.byRow row hrow).2 v).mpr hmem)
    rw [addValue_new hv]
    refine ⟨fun row' hrow' => ?_, fun w => ?_⟩
    · rw [entry_update db hrow hrow']
      split
      · rename_i heq
        subst heq
        refine ⟨(h.byRow row' hrow).1, fun w => ?_⟩
        rw [List.mem_append, List.mem_append, (h.byRow row' hrow).2 w]
        simp
      · rename_i hne
        refine ⟨(h.byRow row' hrow').1, fun w => ?_⟩
        rw [(h.byRow row' hrow').2 w, List.mem_append]
        simp [hne]
    · by_cases hw : w = v
      · subst hw
        obtain ⟨rows, htag, hpair, hnodup, hmem⟩ := h.byTag w
        refine ⟨rows ++ [row], ?_, ?_, ?_, fun row' => ?_⟩
        · simp [htag]
        · refine List.pairwise_append.mpr ⟨hpair, List.pairwise_singleton _ _, fun a ha b hb => ?_⟩
          rw [List.mem_singleton.mp hb]
          exact hsorted _ ((hmem a).mp ha)
        · refine List.nodup_append.mpr ⟨hnodup, List.nodup_singleton _, fun a ha b hb heq => ?_⟩
          rw [heq, List.mem_singleton.mp hb] at ha
          exact hread ((hmem row).mp ha)
        · rw [List.mem_append, List.mem_append, hmem row']
          simp
      · obtain ⟨rows, htag, hpair, hnodup, hmem⟩ := h.byTag w
        refine ⟨rows, by simp [Function.update_of_ne hw, htag], hpair, hnodup, fun row' => ?_⟩
        rw [hmem row', List.mem_append]
        simp [hw]

lemma Indexed.foldl {db : Db} {read : List (QueueRow × Text)} {ix : Index}
    (h : Indexed db read ix) {rest : List (QueueRow × Text)} (hrows : ∀ r ∈ rest, r.1 ∈ db.items)
    (hsorted : (read ++ rest).Pairwise fun a b => before a.1 b.1) :
    Indexed db (read ++ rest) (rest.foldl RecoveryIndex.addValue ix) := by
  induction rest generalizing read ix with
  | nil => simpa using h
  | cons r rest ih =>
    have hread : ∀ p ∈ read, before p.1 r.1 := fun p hp =>
      (List.pairwise_append.mp hsorted).2.2 p hp r List.mem_cons_self
    have h' := h.addValue (hrows r List.mem_cons_self) hread
    rw [List.append_cons] at hsorted ⊢
    exact ih h' (fun q hq => hrows q (List.mem_cons_of_mem _ hq)) hsorted

/-- **The built index** lists every text of every row. -/
lemma indexed_build (db : Db) : Indexed db (indexRows env db) (buildRecoveryIndex env db) := by
  have hempty : Indexed db [] ⟨fun _ => none, fun _ => []⟩ :=
    ⟨fun row _ => ⟨rfl, by simp [Index.entry]⟩, fun v => ⟨[], by simp⟩⟩
  have hrows : ∀ r ∈ indexRows env db, r.1 ∈ db.items := fun r hr => ((mem_indexRows env).mp hr).1
  have h := hempty.foldl hrows (by simpa using indexRows_sorted env db)
  rwa [List.nil_append] at h

/-! ### The lookup -/

/-- **The index answers as the query would** over the texts read. -/
lemma lookup_build (db : Db) (tag : Text) (excludeTag : Option Text) :
    (buildRecoveryIndex env db).lookup tag excludeTag =
      (first db fun row => counts (reads env row) tag excludeTag).map pick := by
  have h := indexed_build env db
  obtain ⟨rows, htag, hsorted, hnodup, hmem⟩ := h.byTag tag
  have hrows : ∀ row ∈ rows, row ∈ db.items ∧ reads env row tag := fun row hrow =>
    (mem_indexRows env).mp ((hmem row).mp hrow)
  let ix := buildRecoveryIndex env db
  -- every row listed has an entry, since it holds the tag
  have hentries : (rows.map (·.qitemId)).filterMap ix.byRow = rows.map ix.entry := by
    rw [List.filterMap_map, ← List.filterMap_eq_map]
    refine List.filterMap_congr fun row hrow => ?_
    have hvalue := ((h.byRow row (hrows row hrow).1).2 tag).mpr ((hmem row).mp hrow)
    change ix.byRow row.qitemId = some (ix.entry row)
    change tag ∈ (ix.entry row).values at hvalue
    unfold Index.entry at hvalue ⊢
    cases hix : ix.byRow row.qitemId with
    | none =>
      rw [hix] at hvalue
      cases hvalue
    | some r => rw [Option.getD_some]
  have hexcluded : ∀ row ∈ rows, ∀ e, (ix.entry row).values.contains e = reads env row e := by
    intro row hrow e
    have hitem := (hrows row hrow).1
    rw [Bool.eq_iff_iff, List.contains_iff_mem, (h.byRow row hitem).2 e, mem_indexRows]
    exact and_iff_right hitem
  let kept := fun row => !excluded excludeTag (reads env row)
  have hfound : (rows.map ix.entry).find? (fun r =>
      !excluded excludeTag (r.values.contains ·)) = (rows.find? kept).map ix.entry := by
    rw [List.find?_map]
    refine congrArg (Option.map ix.entry) (List.find?_congr fun row hrow => ?_)
    simp only [Function.comp_apply, kept, show (fun e => (ix.entry row).values.contains e) =
      reads env row from funext (hexcluded row hrow)]
  have hquery : (db.items.filter fun row => counts (reads env row) tag excludeTag).insertionSort
      before = rows.filter kept := by
    have hnodup' := db.keyed.of_map.filter fun row => counts (reads env row) tag excludeTag
    refine db.eq_of_sorted (fun a ha => ?_) (List.pairwise_insertionSort _ _)
      (hsorted.filter _) ((List.perm_insertionSort _ _).nodup_iff.mpr hnodup') (hnodup.filter _)
      fun a => ?_
    · exact (List.mem_filter.mp ((List.mem_insertionSort _).mp ha)).1
    · rw [List.mem_insertionSort, List.mem_filter, List.mem_filter, hmem a, mem_indexRows,
        counts, Bool.and_eq_true, and_assoc]
  have hpicked : ∀ row ∈ rows, (ix.entry row).picked = pick row := fun row hrow =>
    (h.byRow row (hrows row hrow).1).1
  unfold Index.lookup first
  rw [htag, hentries, hfound, hquery, List.head?_filter, Option.map_map]
  refine Option.map_congr fun row hrow => hpicked row ?_
  exact List.mem_of_find?_eq_some hrow

/-! ### Two readings -/

/-- A row is the first of the rows in question. -/
structure IsFirst (db : Db) (p : QueueRow → Bool) (row : QueueRow) : Prop where
  mem : row ∈ db.items
  holds : p row
  first : ∀ row' ∈ db.items, p row' → before row row'

lemma first_eq_some_iff {db : Db} {p : QueueRow → Bool} {row : QueueRow} :
    first db p = some row ↔ IsFirst db p row := by
  have hsorted := List.pairwise_insertionSort before (db.items.filter p)
  have hmem : ∀ row, row ∈ (db.items.filter p).insertionSort before ↔ row ∈ db.items ∧ p row :=
    fun row => (List.mem_insertionSort _).trans List.mem_filter
  unfold first
  cases hlist : (db.items.filter p).insertionSort before with
  | nil =>
    rw [hlist] at hmem
    refine ⟨(nomatch ·), fun h => ?_⟩
    exact absurd ((hmem row).mpr ⟨h.mem, h.holds⟩) List.not_mem_nil
  | cons head rest =>
    rw [hlist] at hmem hsorted
    have hhead := (hmem head).mp List.mem_cons_self
    have hbefore : ∀ row' ∈ db.items, p row' → before head row' := fun row' hrow' hp => by
      rcases List.mem_cons.mp ((hmem row').mpr ⟨hrow', hp⟩) with rfl | hrest
      · exact le_refl _
      · exact (List.pairwise_cons.mp hsorted).1 row' hrest
    constructor
    · intro h
      obtain rfl := Option.some.inj h
      exact ⟨hhead.1, hhead.2, hbefore⟩
    · intro h
      have hids := qitemId_of_before (h.first head hhead.1 hhead.2) (hbefore row h.mem h.holds)
      exact congrArg some (db.row_ext hhead.1 h.mem hids.symm)

/-- Two readings count the same rows up to the one that answers in either, where one does. -/
def Agree (db : Db) (qitemId : Text) (p q : QueueRow → Bool) : Prop :=
  ∀ row, stands env db qitemId (pick row) → IsFirst db p row ∨ IsFirst db q row →
    ∀ row' ∈ db.items, before row' row → p row' = q row'

lemma Agree.symm {db : Db} {qitemId : Text} {p q : QueueRow → Bool}
    (h : Agree env db qitemId p q) : Agree env db qitemId q p :=
  fun row hstands hfirst row' hrow' hbefore => (h row hstands hfirst.symm row' hrow' hbefore).symm

lemma Agree.isFirst {db : Db} {qitemId : Text} {p q : QueueRow → Bool}
    (h : Agree env db qitemId p q) {row : QueueRow} (hstands : stands env db qitemId (pick row))
    (hfirst : IsFirst db p row) : IsFirst db q row := by
  have hsame := h row hstands (.inl hfirst)
  refine ⟨hfirst.mem, hsame row hfirst.mem (le_refl _) ▸ hfirst.holds, fun row' hrow' hq => ?_⟩
  rcases total_of before row row' with hbefore | hbefore
  · exact hbefore
  · exact hfirst.first row' hrow' ((hsame row' hrow' hbefore).trans hq)

lemma same_before {db : Db} {p q : QueueRow → Bool} {row : QueueRow} (hp : IsFirst db p row)
    (hq : IsFirst db q row) {row' : QueueRow} (hrow' : row' ∈ db.items)
    (hbefore : before row' row) : p row' = q row' := by
  by_cases heq : row' = row
  · rw [heq, hp.holds, hq.holds]
  · have hnot : ∀ {p}, IsFirst db p row → p row' = false := fun h =>
      Bool.eq_false_iff.mpr fun hcounts => heq <| db.row_ext hrow' h.mem <|
        qitemId_of_before hbefore (h.first row' hrow' hcounts)
    rw [hnot hp, hnot hq]

lemma answer_eq_some_iff {db : Db} {qitemId : Text} {p : QueueRow → Bool} {r : Recovery} :
    answer env db qitemId ((first db p).map pick) = some r ↔
      ∃ row, IsFirst db p row ∧ stands env db qitemId (pick row) ∧
        r = ⟨row.qitemId, row.state⟩ := by
  unfold answer
  simp only [Option.map_eq_some_iff, Option.filter_eq_some_iff]
  constructor
  · rintro ⟨picked, ⟨⟨row, hrow, rfl⟩, hstands⟩, rfl⟩
    exact ⟨row, first_eq_some_iff.mp hrow, hstands, rfl⟩
  · rintro ⟨row, hrow, hstands, rfl⟩
    exact ⟨pick row, ⟨⟨row, first_eq_some_iff.mpr hrow, rfl⟩, hstands⟩, rfl⟩

/-- **Two readings answer alike exactly when they agree.** -/
lemma answer_eq_iff {db : Db} {qitemId : Text} {p q : QueueRow → Bool} :
    answer env db qitemId ((first db p).map pick) = answer env db qitemId ((first db q).map pick) ↔
      Agree env db qitemId p q := by
  constructor
  · intro heq row hstands hfirst
    have hboth : IsFirst db p row ∧ IsFirst db q row := by
      have hother : ∀ {p q}, answer env db qitemId ((first db p).map pick) =
          answer env db qitemId ((first db q).map pick) → IsFirst db p row → IsFirst db q row := by
        intro p q heq hp
        have hanswer := (answer_eq_some_iff env).mpr ⟨row, hp, hstands, rfl⟩
        rw [heq] at hanswer
        obtain ⟨row', hq, -, hr⟩ := (answer_eq_some_iff env).mp hanswer
        obtain ⟨hid, -⟩ := Recovery.mk.inj hr
        rwa [db.row_ext hp.mem hq.mem hid]
      rcases hfirst with hp | hq
      · exact ⟨hp, hother heq hp⟩
      · exact ⟨hother heq.symm hq, hq⟩
    exact fun row' hrow' hbefore => same_before hboth.1 hboth.2 hrow' hbefore
  · intro h
    refine Option.ext fun r => ?_
    simp only [answer_eq_some_iff]
    constructor
    · rintro ⟨row, hp, hstands, rfl⟩
      exact ⟨row, h.isFirst env hstands hp, hstands, rfl⟩
    · rintro ⟨row, hq, hstands, rfl⟩
      exact ⟨row, (h.symm env).isFirst env hstands hq, hstands, rfl⟩

/-- **Where the readings of a row differ.** A text without lone surrogates is read and not held when
only bytes that are no UTF-8 are read as it; any other text is never read. -/
lemma reads_ne_holds_iff {row : QueueRow} {s : Text} :
    reads env row s ≠ holds env row s ↔
      if IsWellFormed s then
        ¬ holds env row s ∧ ∃ b, .text b ∈ valuesOf env row ∧ decode b = s ∧ ¬ IsUtf8 b
      else holds env row s := by
  have hread : ∀ b, .text b ∈ valuesOf env row → decode b = s → IsUtf8 b → holds env row s := by
    rintro b hb rfl hutf8
    rwa [holds_iff, hutf8.encode_decode]
  split
  · rename_i hs
    have hheld : holds env row s → reads env row s := fun h =>
      (reads_iff env).mpr ⟨encode s, (holds_iff env).mp h, hs.decode_encode⟩
    constructor
    · intro hne
      have hreads : reads env row s ∧ ¬ holds env row s := by
        cases hr : reads env row s <;> cases hh : holds env row s <;> simp_all
      obtain ⟨b, hb, hdecode⟩ := (reads_iff env).mp hreads.1
      exact ⟨hreads.2, b, hb, hdecode, fun hutf8 => hreads.2 (hread b hb hdecode hutf8)⟩
    · rintro ⟨hnot, b, hb, hdecode, -⟩ heq
      exact hnot (heq ▸ (reads_iff env).mpr ⟨b, hb, hdecode⟩)
  · rename_i hs
    have hnever : reads env row s = false := Bool.eq_false_iff.mpr fun h => by
      obtain ⟨b, -, rfl⟩ := (reads_iff env).mp h
      exact hs (isWellFormed_decode b)
    rw [hnever]
    cases holds env row s <;> simp

lemma reads_eq_holds {row : QueueRow} (hrow : ∀ b, .text b ∈ valuesOf env row → IsUtf8 b) {s : Text}
    (hs : IsWellFormed s) : reads env row s = holds env row s := by
  by_contra hne
  have hdiffer := (reads_ne_holds_iff env).mp hne
  rw [if_pos hs] at hdiffer
  obtain ⟨-, b, hb, -, hutf8⟩ := hdiffer
  exact hutf8 (hrow b hb)

/-! ### Spans -/

section Scopes

variable {δ : Type} [DecidableEq δ] (dbs : δ → Db)

/-- A lookup that answers the same from the index. -/
def Settled (db : Db) (qitemId : Text) (excludeTag : Option Text) : Prop :=
  Agree env db qitemId (fun row => counts (holds env row) (recoveryTag qitemId) excludeTag)
    fun row => counts (reads env row) (recoveryTag qitemId) excludeTag

/-- Every lookup that a program makes in a span of its database is settled. -/
def Program.Settled : Program δ → Option δ → Prop
  | .done, _ => True
  | .find name qitemId excludeTag k, span =>
    (span = some name → RecoveryIndex.Settled env (dbs name) qitemId excludeTag) ∧
      (k (findQueueRecovery env dbs name qitemId excludeTag none).1).Settled span
  | .within name body k, span =>
    body.Settled (some name) ∧ (k (body.alone env dbs)).Settled span

/-- An index in a scope is the one built from its database. -/
def Coherent (scope : Option (Scope δ)) : Prop :=
  ∀ s, scope = some s → ∀ ix, s.byTag = some ix → ix = buildRecoveryIndex env (dbs s.db)

def span (scope : Option (Scope δ)) : Option δ := scope.map (·.db)

lemma findQueueRecovery_of_ne {scope : Option (Scope δ)} {name : δ} (h : span scope ≠ some name)
    (qitemId : Text) (excludeTag : Option Text) :
    findQueueRecovery env dbs name qitemId excludeTag scope =
      ((findQueueRecovery env dbs name qitemId excludeTag none).1, scope) := by
  cases scope with
  | none => rfl
  | some s => exact if_neg fun hs => h (congrArg some hs)

/-- **A lookup in a scope of its database** reads the index, built if it is not. -/
lemma findQueueRecovery_of_eq {s : Scope δ} (h : Coherent env dbs (some s)) (qitemId : Text)
    (excludeTag : Option Text) :
    findQueueRecovery env dbs s.db qitemId excludeTag (some s) =
      (answer env (dbs s.db) qitemId ((first (dbs s.db) fun row =>
        counts (reads env row) (recoveryTag qitemId) excludeTag).map pick),
      some { s with byTag := some (buildRecoveryIndex env (dbs s.db)) }) := by
  have hix : s.byTag.getD (buildRecoveryIndex env (dbs s.db)) =
      buildRecoveryIndex env (dbs s.db) := by
    cases hbyTag : s.byTag with
    | none => rfl
    | some ix => exact h s rfl ix hbyTag
  unfold findQueueRecovery
  dsimp only
  rw [if_pos rfl, hix, lookup_build]

lemma find_coherent {scope : Option (Scope δ)} (h : Coherent env dbs scope) (name : δ)
    (qitemId : Text) (excludeTag : Option Text) :
    Coherent env dbs (findQueueRecovery env dbs name qitemId excludeTag scope).2 ∧
      span (findQueueRecovery env dbs name qitemId excludeTag scope).2 = span scope := by
  by_cases hspan : span scope = some name
  · obtain ⟨s, rfl, rfl⟩ := Option.map_eq_some_iff.mp hspan
    rw [findQueueRecovery_of_eq env dbs h]
    refine ⟨fun s' hs' ix hix => ?_, rfl⟩
    obtain rfl := Option.some.inj hs'
    exact (Option.some.inj hix).symm
  · rw [findQueueRecovery_of_ne env dbs hspan]
    exact ⟨h, rfl⟩

/-- **A lookup in a scope answers as outside** exactly when it is settled there. -/
lemma find_eq_iff {scope : Option (Scope δ)} (h : Coherent env dbs scope) (name : δ)
    (qitemId : Text) (excludeTag : Option Text) :
    (findQueueRecovery env dbs name qitemId excludeTag scope).1 =
        (findQueueRecovery env dbs name qitemId excludeTag none).1 ↔
      (span scope = some name → RecoveryIndex.Settled env (dbs name) qitemId excludeTag) := by
  by_cases hspan : span scope = some name
  · obtain ⟨s, rfl, rfl⟩ := Option.map_eq_some_iff.mp hspan
    rw [findQueueRecovery_of_eq env dbs h, eq_comm]
    exact (answer_eq_iff env).trans ⟨fun h _ => h, fun h => h rfl⟩
  · rw [findQueueRecovery_of_ne env dbs hspan]
    exact ⟨fun _ hs => absurd hs hspan, fun _ => rfl⟩

lemma within_scope {scope : Option (Scope δ)} (h : Coherent env dbs scope) (name : δ)
    {α : Type} (fn : Option (Scope δ) → α × Option (Scope δ))
    (hfn : ∀ scope, Coherent env dbs scope →
      Coherent env dbs (fn scope).2 ∧ span (fn scope).2 = span scope) :
    (∃ inner, Coherent env dbs inner ∧ span inner = some name ∧
      (withRecoveryIndex name fn scope).1 = (fn inner).1) ∧
    Coherent env dbs (withRecoveryIndex name fn scope).2 ∧
      span (withRecoveryIndex name fn scope).2 = span scope := by
  unfold withRecoveryIndex
  split
  · rename_i hany
    obtain ⟨s, rfl, hs⟩ := Option.any_eq_true _ _ |>.mp hany
    exact ⟨⟨some s, h, congrArg some (of_decide_eq_true hs), rfl⟩, hfn _ h⟩
  · have hfresh : Coherent env dbs (some ⟨name, none⟩) := fun s hs ix hix => by
      obtain rfl := Option.some.inj hs
      cases hix
    exact ⟨⟨some ⟨name, none⟩, hfresh, rfl, rfl⟩, h, rfl⟩

lemma run_coherent (program : Program δ) {scope : Option (Scope δ)} (h : Coherent env dbs scope) :
    Coherent env dbs (program.run env dbs scope).2 ∧
      span (program.run env dbs scope).2 = span scope := by
  induction program generalizing scope with
  | done => exact ⟨h, rfl⟩
  | find name qitemId excludeTag k ih =>
    obtain ⟨hcoherent, hspan⟩ := find_coherent env dbs h name qitemId excludeTag
    obtain ⟨hcoherent', hspan'⟩ := ih _ hcoherent
    exact ⟨hcoherent', hspan'.trans hspan⟩
  | within name body k ihbody ih =>
    obtain ⟨-, hcoherent, hspan⟩ := within_scope env dbs h name (body.run env dbs) fun _ => ihbody
    obtain ⟨hcoherent', hspan'⟩ := ih _ hcoherent
    exact ⟨hcoherent', hspan'.trans hspan⟩

/-! ### Results that part -/

/-- Two lists with a first place where they differ. -/
def Parts {α : Type} (l l' : List α) : Prop :=
  ∃ common a b rest rest', a ≠ b ∧ l = common ++ a :: rest ∧ l' = common ++ b :: rest'

variable {α : Type} {l l' : List α}

lemma Parts.ne (h : Parts l l') : l ≠ l' := by
  obtain ⟨common, a, b, rest, rest', hne, rfl, rfl⟩ := h
  intro heq
  exact hne (List.cons.inj (List.append_cancel_left heq)).1

lemma Parts.append_left (h : Parts l l') (before : List α) :
    Parts (before ++ l) (before ++ l') := by
  obtain ⟨common, a, b, rest, rest', hne, rfl, rfl⟩ := h
  exact ⟨before ++ common, a, b, rest, rest', hne, by simp, by simp⟩

lemma Parts.append_right (h : Parts l l') (after after' : List α) :
    Parts (l ++ after) (l' ++ after') := by
  obtain ⟨common, a, b, rest, rest', hne, rfl, rfl⟩ := h
  exact ⟨common, a, b, rest ++ after, rest' ++ after', hne, by simp, by simp⟩

/-- **A program's lookups answer as outside all spans** while they are settled, and part from that
at the first that is not. -/
lemma run_settled (program : Program δ) {scope : Option (Scope δ)} (h : Coherent env dbs scope) :
    (program.Settled env dbs (span scope) →
      (program.run env dbs scope).1 = program.alone env dbs) ∧
    (¬ program.Settled env dbs (span scope) →
      Parts (program.run env dbs scope).1 (program.alone env dbs)) := by
  induction program generalizing scope with
  | done => exact ⟨fun _ => rfl, fun hnot => absurd trivial hnot⟩
  | find name qitemId excludeTag k ih =>
    obtain ⟨hcoherent, hspan⟩ := find_coherent env dbs h name qitemId excludeTag
    have hone := find_eq_iff env dbs h name qitemId excludeTag
    have hrest := ih (findQueueRecovery env dbs name qitemId excludeTag none).1 hcoherent
    rw [hspan] at hrest
    rw [Program.run, Program.alone, Program.Settled]
    dsimp only
    constructor
    · rintro ⟨hfind, hk⟩
      rw [hone.mpr hfind, hrest.1 hk]
    · intro hnot
      by_cases hfind : span scope = some name →
          RecoveryIndex.Settled env (dbs name) qitemId excludeTag
      · have hk := hrest.2 fun hk => hnot ⟨hfind, hk⟩
        rw [hone.mpr hfind]
        exact hk.append_left [_]
      · exact ⟨[], _, _, _, _, fun heq => hfind (hone.mp heq), rfl, rfl⟩
  | within name body k ihbody ih =>
    obtain ⟨⟨inner, hinner, hname, heq⟩, hcoherent, hspan⟩ :=
      within_scope env dbs h name (body.run env dbs) fun _ => run_coherent env dbs body
    have hbody := ihbody hinner
    have hrest := ih (body.alone env dbs) hcoherent
    rw [hname] at hbody
    rw [hspan] at hrest
    rw [Program.run, Program.alone, Program.Settled]
    dsimp only
    rw [heq]
    constructor
    · rintro ⟨hsettled, hk⟩
      rw [hbody.1 hsettled, hrest.1 hk]
    · intro hnot
      by_cases hsettled : body.Settled env dbs (some name)
      · have hk := hrest.2 fun hk => hnot ⟨hsettled, hk⟩
        rw [hbody.1 hsettled]
        exact hk.append_left _
      · exact (hbody.2 hsettled).append_right _ _

/-! ### Texts without lone surrogates -/

def Db.IsUtf8 (db : Db) : Prop :=
  ∀ row ∈ db.items, ∀ b, .text b ∈ valuesOf env row → Utf8.IsUtf8 b

/-- A program asks for texts without lone surrogates only. -/
def Program.WellFormed : Program δ → Prop
  | .done => True
  | .find _ qitemId excludeTag k => IsWellFormed qitemId ∧ (∀ e ∈ excludeTag, IsWellFormed e) ∧
      ∀ one, (k one).WellFormed
  | .within _ body k => body.WellFormed ∧ ∀ results, (k results).WellFormed

lemma settled_of_wellFormed {db : Db} (h : db.IsUtf8 env) {qitemId : Text}
    {excludeTag : Option Text} (hid : IsWellFormed qitemId)
    (hexclude : ∀ e ∈ excludeTag, IsWellFormed e) :
    RecoveryIndex.Settled env db qitemId excludeTag := by
  intro row _ _ row' hrow' _
  have htag := reads_eq_holds env (h row' hrow') (hid.units_append "recovery-for:")
  have hexcluded : excluded excludeTag (reads env row') = excluded excludeTag (holds env row') := by
    cases excludeTag with
    | none => rfl
    | some e =>
      have he := reads_eq_holds env (h row' hrow') (hexclude e rfl)
      unfold excluded
      by_cases hempty : e = [] <;> simp [Option.filter, hempty, he]
  change counts (holds env row') (recoveryTag qitemId) excludeTag =
    counts (reads env row') (recoveryTag qitemId) excludeTag
  unfold counts recoveryTag
  rw [hexcluded, htag]

/-- **The recovery index answers as the query where the texts are well formed.** Whatever lookups a
program makes, in whatever nesting of spans over whatever databases, they return what they return
outside all spans, and no span outlives the program, exactly when each lookup in a span of its
database is settled; as are those for texts without lone surrogates over tags that are UTF-8. -/
theorem lookups_inside_as_outside (program : Program δ) :
    (program.run env dbs none = (program.alone env dbs, none) ↔ program.Settled env dbs none) ∧
      ((∀ name, (dbs name).IsUtf8 env) → program.WellFormed → program.Settled env dbs none) := by
  have hnone : Coherent env dbs (none : Option (Scope δ)) := fun _ hs => nomatch hs
  obtain ⟨hsame, hparts⟩ := run_settled env dbs program hnone
  obtain ⟨-, hspan⟩ := run_coherent env dbs program hnone
  refine ⟨⟨fun heq => ?_, fun h => Prod.ext (hsame h) (Option.map_eq_none_iff.mp hspan)⟩, ?_⟩
  · by_contra hnot
    exact (hparts hnot).ne (congrArg Prod.fst heq)
  · intro hdbs hprogram
    generalize (none : Option δ) = span
    clear hsame hparts hspan
    induction program generalizing span with
    | done => trivial
    | find name qitemId excludeTag k ih =>
      obtain ⟨hid, hexclude, hk⟩ := hprogram
      exact ⟨fun _ => settled_of_wellFormed env (hdbs name) hid hexclude, ih _ (hk _) _⟩
    | within name body k ihbody ih =>
      obtain ⟨hbody, hk⟩ := hprogram
      exact ⟨ihbody hbody _, ih _ (hk _) _⟩

end Scopes

/-! ### Two tables -/

/-- Rows with a tag each that JSON writes with an escape, the first with another and a number. -/
def escapedEnv : Env where
  jsonEach tags := some <| if tags = "[\"recovery-for:a\", 3, \"recovery-for:\\u0062\"]"
    then [.text (bytes "recovery-for:a"), .integer 3, .text (bytes "recovery-for:b")]
    else [.text (bytes "recovery-for:b")]
  dateParse _ := none

def escapedDb : Db where
  items := [
    ⟨"q1", "2", .pending, some "[\"recovery-for:a\", 3, \"recovery-for:\\u0062\"]", none, none⟩,
    ⟨"q2", "1", .done, some "[\"recovery-for:\\u0062\"]", none, none⟩]
  keyed := by decide
  transitions := some []
  wakes := none

/-- Who recovers `b`, in a span, and then apart from the rows that recover `a`. -/
def askTwice : Program Unit :=
  .within () (.find () (units "b") none fun _ =>
    .find () (units "b") (some (units "recovery-for:a")) fun _ => .done) fun _ => .done

lemma escaped_isUtf8 : escapedDb.IsUtf8 escapedEnv := by
  have hutf8 : ∀ tags, ∀ value ∈ (escapedEnv.jsonEach tags).getD [], ∀ b, value = .text b →
      IsUtf8 b := by
    intro tags value hvalue b hb
    subst hb
    simp only [escapedEnv, Option.getD_some] at hvalue
    split at hvalue
    · simp only [List.mem_cons, SqlValue.text.injEq, reduceCtorEq, List.not_mem_nil, or_false,
        false_or] at hvalue
      rcases hvalue with rfl | rfl <;> exact isUtf8_bytes _
    · obtain rfl := SqlValue.text.inj (List.mem_singleton.mp hvalue)
      exact isUtf8_bytes _
  intro row _ b hb
  unfold valuesOf at hb
  cases htags : row.tags.filter mayHoldRecoveryTag with
  | none => simp [htags] at hb
  | some tags => exact hutf8 tags _ (by simpa [htags] using hb) b rfl

theorem lookups_inside_as_outside_escaped :
    askTwice.run escapedEnv (fun _ => escapedDb) none =
        (askTwice.alone escapedEnv fun _ => escapedDb, none) ∧
      askTwice.alone escapedEnv (fun _ => escapedDb) =
        [some ⟨"q1", .pending⟩, some ⟨"q2", .done⟩] := by
  obtain ⟨hiff, hwellFormed⟩ := lookups_inside_as_outside escapedEnv (fun _ => escapedDb) askTwice
  refine ⟨hiff.mpr (hwellFormed (fun _ => escaped_isUtf8) ?_), by decide +kernel⟩
  have htag : ∀ e ∈ some (units "recovery-for:a"), IsWellFormed e := fun e he => by
    obtain rfl := Option.some.inj he
    exact isWellFormed_units _
  exact ⟨⟨isWellFormed_units _, (fun e he => nomatch he), fun _ =>
    ⟨isWellFormed_units _, htag, fun _ => trivial⟩⟩, fun _ => trivial⟩

/-- Tags as `JSON.stringify` writes them when one ends in a lone surrogate. -/
def LONE_TAGS : String := "[\"recovery-for:\\ud800\"]"

def loneEnv : Env where
  -- the escape becomes the three bytes of a surrogate, that no decoder takes
  jsonEach tags :=
    if tags = LONE_TAGS then some [.text (bytes "recovery-for:" ++ [0xED, 0xA0, 0x80])] else none
  dateParse _ := none

def loneDb : Db where
  items := [⟨"q1", "1", .pending, some LONE_TAGS, none, none⟩]
  keyed := List.nodup_singleton _
  transitions := some []
  wakes := none

/-- Who recovers the id that the three bytes are read as, in a span. -/
def askMisread : Program Unit :=
  .within () (.find () [0xFFFD, 0xFFFD, 0xFFFD] none fun _ => .done) fun _ => .done

/-- A row tagged for a lone surrogate recovers another id inside a span, and not outside. -/
theorem misread_inside :
    askMisread.run loneEnv (fun _ => loneDb) none = ([some ⟨"q1", .pending⟩], none) ∧
      askMisread.alone loneEnv (fun _ => loneDb) = [none] := by
  have hresults : (askMisread.run loneEnv (fun _ => loneDb) none).1 = [some ⟨"q1", .pending⟩] := by
    decide +kernel
  exact ⟨Prod.ext hresults rfl, by decide +kernel⟩

end OpenRig.RecoveryIndex
