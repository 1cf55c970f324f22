import Mathlib.Data.List.Infix

/-!
The last place of a piece in a text, over any alphabet, and the pieces of texts made of lines.
-/

namespace OpenRig.TextSearch

variable {α : Type}

section Search

variable [DecidableEq α]

/-- `text.lastIndexOf(needle)`, for a needle that is not empty. -/
def lastIndexOf (needle : List α) : List α → Option ℕ
  | [] => none
  | c :: text =>
    match lastIndexOf needle text with
    | some i => some (i + 1)
    | none => if needle.isPrefixOf (c :: text) then some 0 else none

lemma lastIndexOf_eq_none {needle : List α} (hne : needle ≠ []) {text : List α} :
    lastIndexOf needle text = none ↔ ¬ needle <:+: text := by
  induction text with
  | nil => simpa [lastIndexOf] using hne
  | cons c text ih =>
    rw [List.infix_cons_iff, not_or, ← ih]
    cases h : lastIndexOf needle text with
    | some i => simp [lastIndexOf, h]
    | none => simp [lastIndexOf, h, List.isPrefixOf_iff_prefix]

lemma lastIndexOf_self {needle : List α} (hne : needle ≠ []) {text : List α}
    (hpre : needle <+: text) (h : ¬ needle <:+: text.tail) : lastIndexOf needle text = some 0 := by
  cases text with
  | nil => exact absurd (List.prefix_nil.mp hpre) hne
  | cons c text =>
    have hnone : lastIndexOf needle text = none := (lastIndexOf_eq_none hne).mpr h
    simp [lastIndexOf, hnone, List.isPrefixOf_iff_prefix.mpr hpre]

lemma lastIndexOf_append {needle : List α} {text : List α} {i : ℕ}
    (h : lastIndexOf needle text = some i) (before : List α) :
    lastIndexOf needle (before ++ text) = some (before.length + i) := by
  induction before with
  | nil => simpa using h
  | cons c before ih =>
    simp only [List.cons_append, lastIndexOf, ih, List.length_cons]
    congr 1
    omega

lemma lastIndexOf_lt {needle : List α} {text : List α} {i : ℕ}
    (h : lastIndexOf needle text = some i) : i < text.length := by
  induction text generalizing i with
  | nil => simp [lastIndexOf] at h
  | cons c text ih =>
    cases hi : lastIndexOf needle text with
    | none =>
      obtain ⟨-, rfl⟩ : _ ∧ 0 = i := by simpa [lastIndexOf, hi] using h
      simp
    | some j =>
      obtain rfl : j + 1 = i := by simpa [lastIndexOf, hi] using h
      simpa using ih hi

lemma exists_lastIndexOf {needle : List α} (hne : needle ≠ []) {text : List α}
    (h : needle <:+: text) : ∃ i, lastIndexOf needle text = some i := by
  cases hi : lastIndexOf needle text with
  | none => exact absurd h ((lastIndexOf_eq_none hne).mp hi)
  | some i => exact ⟨i, rfl⟩

end Search

lemma infix_append_cases {needle a b : List α} (h : needle <:+: a ++ b) :
    needle <:+: a ∨ needle <:+: b ∨
      ∃ x y, x ≠ [] ∧ y ≠ [] ∧ needle = x ++ y ∧ x <:+ a ∧ y <+: b := by
  obtain ⟨p, q, h⟩ := h
  rw [List.append_assoc, List.append_eq_append_iff] at h
  rcases h with ⟨as, ha, hb⟩ | ⟨bs, hp, hb⟩
  · -- the needle starts in `a`
    rcases List.append_eq_append_iff.mp hb with ⟨cs, hc, hd⟩ | ⟨cs, hc, hd⟩
    · exact .inl ⟨p, cs, by rw [List.append_assoc, ← hc, ← ha]⟩
    · rcases eq_or_ne cs [] with rfl | hcs
      · rw [List.append_nil] at hc
        exact .inl ⟨p, [], by rw [hc, ← ha, List.append_nil]⟩
      rcases eq_or_ne as [] with rfl | has
      · rw [List.nil_append] at hc
        exact .inr (.inl ⟨[], q, by rw [hc, List.nil_append, ← hd]⟩)
      · exact .inr (.inr ⟨as, cs, has, hcs, hc, ⟨p, ha.symm⟩, ⟨q, hd.symm⟩⟩)
  · exact .inr (.inl ⟨bs, q, by rw [hb, List.append_assoc]⟩)

/-! ### Texts of lines -/

def breakLines (nl : α) (lines : List (List α)) : List α := lines.flatMap (nl :: ·)

lemma not_blank_breakLines {nl : α} {lines : List (List α)} (h : ∀ l ∈ lines, l ≠ [] ∧ nl ∉ l) :
    ¬ [nl, nl] <:+: breakLines nl lines := by
  induction lines with
  | nil => simp [breakLines]
  | cons l lines ih =>
    obtain ⟨hne, hnl⟩ := h l List.mem_cons_self
    have hrest := ih fun l hl => h l (List.mem_cons_of_mem _ hl)
    obtain ⟨c, l, rfl⟩ := List.exists_cons_of_ne_nil hne
    rw [breakLines, List.flatMap_cons, ← breakLines, List.cons_append, List.cons_append,
      List.infix_cons_iff, List.infix_cons_iff]
    rintro (hpre | hpre | hin)
    · have hc : nl = c := by simpa using hpre
      simp [hc] at hnl
    · have hc : nl = c := by simpa using (List.cons_prefix_cons.mp hpre).1
      simp [hc] at hnl
    rcases infix_append_cases hin with hin | hin | ⟨x, y, hx, hy, hxy, hxs, _⟩
    · exact hnl (List.mem_cons_of_mem _ (hin.subset (by simp)))
    · exact hrest hin
    · obtain ⟨d, x, rfl⟩ := List.exists_cons_of_ne_nil hx
      have hd : nl = d := by simpa using congrArg List.head? hxy
      exact hnl (List.mem_cons_of_mem _ (hxs.subset (by simp [hd])))

end OpenRig.TextSearch
