import Mathlib.Data.List.Sort

/-!
Reading a changing store in pages, by position: a page is the first items wanted after the cursor,
and the cursor moves to its last item.

However the store changes between two pages, a pass never turns back, and it never passes over an
item that was there and wanted at every read.
-/

namespace OpenRig.Paging

variable {α P : Type} [LinearOrder P] (pos : α → P)

/-- Before the first page there is no cursor, and every position is ahead. -/
def ahead (cursor : Option P) (p : P) : Bool := cursor.all (· < p)

/-- What is wanted of a store from a cursor on, in order of position. -/
def rest (store : List α) (want : α → Bool) (cursor : Option P) : List α :=
  (store.filter fun a => want a && ahead cursor (pos a)).insertionSort fun a b => pos a ≤ pos b

/-- The cursor after a page. -/
def next (cursor : Option P) (page : List α) : Option P := (page.getLast?.map pos).or cursor

/-- One read of the store: no two of its items share a position. -/
structure Read where
  store : List α
  distinct : (store.map pos).Nodup
  want : α → Bool
  size : ℕ

variable {pos}

namespace Read

variable (r : Read pos)

def rest (cursor : Option P) : List α := Paging.rest pos r.store r.want cursor

def page (cursor : Option P) : List α := (r.rest cursor).take r.size

end Read

/-- The items of a pass, page after page. -/
def pass (cursor : Option P) : List (Read pos) → List α
  | [] => []
  | r :: rs => r.page cursor ++ pass (next pos cursor (r.page cursor)) rs

def stop (cursor : Option P) : List (Read pos) → Option P
  | [] => cursor
  | r :: rs => stop (next pos cursor (r.page cursor)) rs

/-! ### One page -/

lemma ahead_trans {cursor : Option P} {p q : P} (h : ahead cursor p = true) (hpq : p ≤ q) :
    ahead cursor q = true := by
  unfold ahead at h ⊢
  rw [Option.all_eq_true] at h ⊢
  intro c hc
  have := h c hc
  simp only [decide_eq_true_eq] at this ⊢
  exact lt_of_lt_of_le this hpq

lemma mem_rest {store : List α} {want : α → Bool} {cursor : Option P} {a : α} :
    a ∈ rest pos store want cursor ↔
      a ∈ store ∧ want a = true ∧ ahead cursor (pos a) = true := by
  simp [rest, List.mem_insertionSort]

lemma rest_ascending {store : List α} (hdistinct : (store.map pos).Nodup) (want : α → Bool)
    (cursor : Option P) :
    (rest pos store want cursor).Pairwise fun a b => pos a < pos b := by
  have : Std.Total fun a b : α => pos a ≤ pos b := ⟨fun a b => le_total _ _⟩
  have : IsTrans α fun a b : α => pos a ≤ pos b := ⟨fun _ _ _ => le_trans⟩
  have hle := List.pairwise_insertionSort (fun a b : α => pos a ≤ pos b)
    (store.filter fun a => want a && ahead cursor (pos a))
  have hne : (rest pos store want cursor).Pairwise fun a b => pos a ≠ pos b := by
    have hnodup : ((rest pos store want cursor).map pos).Nodup :=
      ((List.perm_insertionSort _ _).map pos).nodup_iff.mpr
        (hdistinct.sublist (List.filter_sublist.map pos))
    exact List.pairwise_map.mp hnodup
  exact (hle.and hne).imp fun h => lt_of_le_of_ne h.1 h.2

variable {r : Read pos} {cursor : Option P} {a : α}

lemma mem_page (h : a ∈ r.page cursor) :
    a ∈ r.store ∧ r.want a = true ∧ ahead cursor (pos a) = true :=
  mem_rest.mp (List.mem_of_mem_take h)

lemma page_ascending : (r.page cursor).Pairwise fun a b => pos a < pos b :=
  (rest_ascending r.distinct r.want cursor).sublist (List.take_sublist _ _)

lemma page_behind (h : ahead (next pos cursor (r.page cursor)) (pos a) = true) :
    ahead cursor (pos a) = true ∧ ∀ b ∈ r.page cursor, pos b < pos a := by
  unfold next at h
  cases hlast : (r.page cursor).getLast? with
  | none =>
    rw [List.getLast?_eq_none_iff] at hlast
    rw [hlast] at h ⊢
    exact ⟨by simpa using h, by simp⟩
  | some l =>
    obtain ⟨front, hfront⟩ := List.getLast?_eq_some_iff.mp hlast
    have hla : pos l < pos a := by
      rw [hlast] at h
      simpa [ahead] using h
    have hl : l ∈ r.page cursor := List.mem_of_getLast? hlast
    refine ⟨ahead_trans (mem_page hl).2.2 (le_of_lt hla), fun b hb => ?_⟩
    have hasc : (r.page cursor).Pairwise fun a b => pos a < pos b := page_ascending
    rw [hfront] at hb hasc
    rcases List.mem_append.mp hb with hb | hb
    · exact ((List.pairwise_append.mp hasc).2.2 b hb l (List.mem_singleton_self l)).trans hla
    · rw [List.mem_singleton.mp hb]
      exact hla

lemma mem_page_of_passed (hmem : a ∈ r.rest cursor)
    (hpassed : ahead (next pos cursor (r.page cursor)) (pos a) = false) : a ∈ r.page cursor := by
  by_contra hnot
  have hahead : ahead cursor (pos a) = true := (mem_rest.mp hmem).2.2
  have hafter : a ∈ (r.rest cursor).drop r.size := by
    rw [← List.take_append_drop r.size (r.rest cursor)] at hmem
    exact (List.mem_append.mp hmem).resolve_left hnot
  unfold next at hpassed
  cases hlast : (r.page cursor).getLast? with
  | none =>
    rw [hlast] at hpassed
    simp [hahead] at hpassed
  | some l =>
    have hasc : (r.rest cursor).Pairwise fun a b => pos a < pos b :=
      rest_ascending r.distinct r.want cursor
    have hlt : pos l < pos a := by
      rw [← List.take_append_drop r.size (r.rest cursor)] at hasc
      exact (List.pairwise_append.mp hasc).2.2 l (List.mem_of_getLast? hlast) a hafter
    rw [hlast] at hpassed
    simp [ahead, hlt] at hpassed

lemma passed_of_last (hlast : (r.rest cursor).length ≤ r.size) (hmem : a ∈ r.rest cursor) :
    ahead (next pos cursor (r.page cursor)) (pos a) = false := by
  by_contra hahead
  have hall : r.page cursor = r.rest cursor := List.take_of_length_le hlast
  have hlt := (page_behind (Bool.eq_true_of_not_eq_false hahead)).2 a (hall ▸ hmem)
  exact lt_irrefl _ hlt

/-! ### A pass -/

/-- **A pass never turns back**, whatever changes between its pages. -/
theorem pass_ascending (cursor : Option P) (rs : List (Read pos)) :
    (pass cursor rs).Pairwise (fun a b => pos a < pos b) ∧
      ∀ a ∈ pass cursor rs, ahead cursor (pos a) = true := by
  induction rs generalizing cursor with
  | nil => exact ⟨List.Pairwise.nil, by simp [pass]⟩
  | cons r rs ih =>
    obtain ⟨hasc, hahead⟩ := ih (next pos cursor (r.page cursor))
    unfold pass
    refine ⟨List.pairwise_append.mpr ⟨page_ascending, hasc, fun a ha b hb => ?_⟩, fun a ha => ?_⟩
    · exact (page_behind (hahead b hb)).2 a ha
    · rcases List.mem_append.mp ha with ha | ha
      · exact (mem_page ha).2.2
      · exact (page_behind (hahead a ha)).1

/-- **A pass passes over nothing**: an item there and wanted at every read, ahead of the start and
not ahead of the end, was in one of the pages. -/
theorem mem_pass {cursor : Option P} {rs : List (Read pos)}
    (hmem : ∀ r ∈ rs, a ∈ r.store ∧ r.want a = true) (hstart : ahead cursor (pos a) = true)
    (hstop : ahead (stop cursor rs) (pos a) = false) : a ∈ pass cursor rs := by
  induction rs generalizing cursor with
  | nil =>
    unfold stop at hstop
    rw [hstart] at hstop
    cases hstop
  | cons r rs ih =>
    obtain ⟨hr, hrs⟩ := List.forall_mem_cons.mp hmem
    unfold pass
    refine List.mem_append.mpr ?_
    cases hnext : ahead (next pos cursor (r.page cursor)) (pos a) with
    | true => exact .inr (ih hrs hnext hstop)
    | false => exact .inl (mem_page_of_passed (mem_rest.mpr ⟨hr.1, hr.2, hstart⟩) hnext)

lemma of_mem_pass {cursor : Option P} {rs : List (Read pos)} (h : a ∈ pass cursor rs) :
    ∃ r ∈ rs, a ∈ r.store ∧ r.want a = true := by
  induction rs generalizing cursor with
  | nil => simp [pass] at h
  | cons r rs ih =>
    unfold pass at h
    rcases List.mem_append.mp h with h | h
    · exact ⟨r, List.mem_cons_self, (mem_page h).1, (mem_page h).2.1⟩
    · obtain ⟨r', hr', hmem⟩ := ih h
      exact ⟨r', List.mem_cons_of_mem _ hr', hmem⟩

lemma pass_append (cursor : Option P) (rs rs' : List (Read pos)) :
    pass cursor (rs ++ rs') = pass cursor rs ++ pass (stop cursor rs) rs' := by
  induction rs generalizing cursor with
  | nil => rfl
  | cons r rs ih => simp [pass, stop, ih]

lemma stop_append (cursor : Option P) (rs rs' : List (Read pos)) :
    stop cursor (rs ++ rs') = stop (stop cursor rs) rs' := by
  induction rs generalizing cursor with
  | nil => rfl
  | cons r rs ih => simp [stop, ih]

/-- **A finished pass holds everything** that was there and wanted at every read. -/
theorem mem_pass_of_finished {rs : List (Read pos)} {last : Read pos}
    (hmem : ∀ r ∈ rs ++ [last], a ∈ r.store ∧ r.want a = true)
    (hstart : ahead cursor (pos a) = true)
    (hlast : (last.rest (stop cursor rs)).length ≤ last.size) :
    a ∈ pass cursor (rs ++ [last]) := by
  by_cases hpassed : ahead (stop cursor rs) (pos a) = true
  · have hend : a ∈ last.rest (stop cursor rs) :=
      mem_rest.mpr ⟨(hmem last (by simp)).1, (hmem last (by simp)).2, hpassed⟩
    refine mem_pass hmem hstart ?_
    rw [stop_append]
    exact passed_of_last hlast hend
  · rw [pass_append]
    refine List.mem_append_left _ (mem_pass (fun r hr => hmem r (by simp [hr])) hstart ?_)
    exact Bool.eq_false_of_not_eq_true hpassed

end OpenRig.Paging
