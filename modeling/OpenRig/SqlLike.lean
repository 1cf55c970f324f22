import Mathlib.Data.List.Infix

/-!
The `LIKE` operator of the embedded database: `%` matches any text, `_` any one character,
and a letter matches itself in either ASCII case. A text used as a pattern matches itself,
so a containment probe never misses a text it names.
-/

namespace OpenRig.SqlLike

def fold (c : Char) : Char := if 'A' ≤ c ∧ c ≤ 'Z' then Char.ofNat (c.toNat + 32) else c

/-- `text LIKE pattern`. -/
def like : List Char → List Char → Bool
  | [], text => text.isEmpty
  | c :: pattern, text =>
    if c = '%' then text.tails.any (like pattern)
    else match text with
      | [] => false
      | d :: text => (c = '_' || fold c = fold d) && like pattern text

/-- `text LIKE pattern ESCAPE esc`: the character after `esc` stands for itself. -/
def likeEscape (esc : Char) : List Char → List Char → Bool
  | [], text => text.isEmpty
  | c :: pattern, text =>
    if c = '%' then text.tails.any (likeEscape esc pattern)
    else match text with
      | [] => false
      | d :: text =>
        if c = esc then match pattern with
          | [] => false
          | e :: pattern => fold e = fold d && likeEscape esc pattern text
        else (c = '_' || fold c = fold d) && likeEscape esc pattern text

def escapeWildcards (esc : Char) (s : List Char) : List Char :=
  s.flatMap fun c => if c = '%' ∨ c = '_' then [esc, c] else [c]

/-- An escaped text matches itself, unless it holds the escape character. -/
lemma likeEscape_self {esc : Char} (he : esc ≠ '%') {s : List Char} (h : esc ∉ s) :
    likeEscape esc (escapeWildcards esc s) s = true := by
  induction s with
  | nil => rfl
  | cons c s ih =>
    rw [List.mem_cons, not_or] at h
    have ih := ih h.2
    unfold escapeWildcards at ih ⊢
    rw [List.flatMap_cons]
    split
    · simp [likeEscape, he, ih]
    · rename_i hc
      rw [not_or] at hc
      rw [List.cons_append, List.nil_append, likeEscape.eq_def]
      simp [hc.1, Ne.symm h.1, ih]

/-- A pattern that starts with `%` matches whatever ends in a match of the rest. -/
lemma likeEscape_percent {esc : Char} {pattern : List Char} (before : List Char) {text : List Char}
    (h : likeEscape esc pattern text = true) :
    likeEscape esc ('%' :: pattern) (before ++ text) = true := by
  rw [likeEscape.eq_def]
  simp only [if_true, List.any_eq_true]
  exact ⟨text, (List.mem_tails _ _).mpr (List.suffix_append before text), h⟩

@[simp] lemma like_percent (pattern text : List Char) :
    like ('%' :: pattern) text = text.tails.any (like pattern) := by
  simp [like]

lemma like_cons_self {c : Char} {pattern text : List Char} (h : like pattern text = true) :
    like (c :: pattern) (c :: text) = true := by
  by_cases hc : c = '%'
  · subst hc
    rw [like_percent, List.any_eq_true]
    exact ⟨text, (List.mem_tails _ _).mpr (List.suffix_cons _ _), h⟩
  · simp [like, hc, h]

/-- A text followed by `%` matches every extension of it, whatever characters it has. -/
lemma like_append_percent (w rest : List Char) : like (w ++ ['%']) (w ++ rest) = true := by
  induction w with
  | nil =>
    rw [List.nil_append, List.nil_append, like_percent, List.any_eq_true]
    exact ⟨[], (List.mem_tails _ _).mpr (List.nil_suffix), rfl⟩
  | cons c w ih => exact like_cons_self ih

/-- **A containment probe has no false negatives**: `%w%` matches every text containing `w`. -/
theorem like_contains (before w after : List Char) :
    like ('%' :: w ++ ['%']) (before ++ w ++ after) = true := by
  rw [List.cons_append, like_percent, List.any_eq_true]
  refine ⟨w ++ after, ?_, like_append_percent w after⟩
  rw [List.mem_tails]
  exact ⟨before, by simp⟩

end OpenRig.SqlLike
