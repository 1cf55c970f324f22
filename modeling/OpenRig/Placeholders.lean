import Mathlib.Data.List.Count
import Mathlib.Data.List.GetD

/-!
Rewriting a text in passes while parts of it are set aside under numbered marks: the passes, texts
as units and marks, and what a pass conserves of the marks.

A pass replaces the matches of a matcher from left to right, none of which overlap. The marks share
no unit with what a match may start with, so that a pass goes over them.
-/

namespace OpenRig.Placeholders

universe u v
variable {α : Type u} {σ : Type v}

/-! ### A pass -/

/-- A match at the start of a text: how long it is, what replaces it, and the state after. -/
structure Found (α : Type u) (σ : Type v) where
  length : ℕ
  replacement : List α
  state : σ

/-- `replace` with the flag `g`. `skip` units of a match are still to be passed over. -/
def replaceAll (f : σ → List α → Option (Found α σ)) : σ → ℕ → List α → List α × σ
  | s, _, [] => ([], s)
  | s, skip + 1, _ :: rest => replaceAll f s skip rest
  | s, 0, c :: rest =>
    match f s (c :: rest) with
    | some found =>
      let out := replaceAll f found.state (found.length - 1) rest
      (found.replacement ++ out.1, out.2)
    | none =>
      let out := replaceAll f s 0 rest
      (c :: out.1, out.2)

variable {f : σ → List α → Option (Found α σ)} {s : σ}

@[simp] lemma replaceAll_nil (skip : ℕ) : replaceAll f s skip [] = ([], s) := by
  cases skip <;> rfl

lemma replaceAll_skip (m rest : List α) : replaceAll f s m.length (m ++ rest) =
    replaceAll f s 0 rest := by
  induction m with
  | nil => rfl
  | cons c m ih => exact ih

lemma replaceAll_found {m rest : List α} {found : Found α σ} (hne : m ≠ [])
    (hf : f s (m ++ rest) = some found) (hlength : found.length = m.length) :
    replaceAll f s 0 (m ++ rest) =
      (found.replacement ++ (replaceAll f found.state 0 rest).1,
        (replaceAll f found.state 0 rest).2) := by
  cases m with
  | nil => exact absurd rfl hne
  | cons c m =>
    rw [List.cons_append] at hf ⊢
    rw [replaceAll, hf]
    simp only [hlength, List.length_cons, Nat.add_sub_cancel, replaceAll_skip]

lemma replaceAll_over (m rest : List α)
    (hm : ∀ x y, m = x ++ y → y ≠ [] → f s (y ++ rest) = none) :
    replaceAll f s 0 (m ++ rest) =
      (m ++ (replaceAll f s 0 rest).1, (replaceAll f s 0 rest).2) := by
  induction m with
  | nil => rfl
  | cons c m ih =>
    have hc : f s (c :: (m ++ rest)) = none := hm [] (c :: m) rfl (List.cons_ne_nil c m)
    have ih' := ih fun x y h => hm (c :: x) y (congrArg (c :: ·) h)
    rw [List.cons_append, replaceAll, hc]
    simp only [ih', List.cons_append]

lemma replaceAll_pass {m : List α} (hm : ∀ c ∈ m, ∀ rest, f s (c :: rest) = none) (rest : List α) :
    replaceAll f s 0 (m ++ rest) =
      (m ++ (replaceAll f s 0 rest).1, (replaceAll f s 0 rest).2) := by
  refine replaceAll_over m rest fun x y h hy => ?_
  obtain ⟨c, y, rfl⟩ := List.exists_cons_of_ne_nil hy
  exact hm c (by simp [h]) (y ++ rest)

/-! ### Texts with marks -/

inductive Tok (α : Type u) where
  | unit (c : α)
  | held (i : ℕ)

def heldOf (toks : List (Tok α)) : List ℕ :=
  toks.filterMap fun
    | .unit _ => none
    | .held i => some i

def fill (text : ℕ → List α) (toks : List (Tok α)) : List α :=
  toks.flatMap fun
    | .unit c => [c]
    | .held i => text i

def units (text : List α) : List (Tok α) := text.map .unit

@[simp] lemma heldOf_append (t₁ t₂ : List (Tok α)) : heldOf (t₁ ++ t₂) = heldOf t₁ ++ heldOf t₂ :=
  List.filterMap_append

@[simp] lemma fill_append (text : ℕ → List α) (t₁ t₂ : List (Tok α)) :
    fill text (t₁ ++ t₂) = fill text t₁ ++ fill text t₂ :=
  List.flatMap_append

@[simp] lemma fill_unit (text : ℕ → List α) (c : α) (toks : List (Tok α)) :
    fill text (.unit c :: toks) = c :: fill text toks := rfl

@[simp] lemma fill_held (text : ℕ → List α) (i : ℕ) (toks : List (Tok α)) :
    fill text (.held i :: toks) = text i ++ fill text toks := rfl

@[simp] lemma fill_nil (text : ℕ → List α) : fill text [] = [] := rfl

@[simp] lemma heldOf_nil : heldOf ([] : List (Tok α)) = [] := rfl

@[simp] lemma heldOf_unit (c : α) (toks : List (Tok α)) :
    heldOf (.unit c :: toks) = heldOf toks := rfl

@[simp] lemma heldOf_held (i : ℕ) (toks : List (Tok α)) :
    heldOf (.held i :: toks) = i :: heldOf toks := rfl

@[simp] lemma fill_units (text : ℕ → List α) (t : List α) : fill text (units t) = t := by
  induction t with
  | nil => rfl
  | cons c t ih => exact congrArg (c :: ·) ih

@[simp] lemma heldOf_units (t : List α) : heldOf (units t) = [] := by
  induction t with
  | nil => rfl
  | cons c t ih => exact ih

lemma mem_heldOf {i : ℕ} {toks : List (Tok α)} : i ∈ heldOf toks ↔ .held i ∈ toks := by
  induction toks with
  | nil => simp
  | cons tok toks ih => cases tok <;> simp [ih]

lemma forall_mem_fill {text : ℕ → List α} {toks : List (Tok α)} {p : α → Prop}
    (hunit : ∀ c, Tok.unit c ∈ toks → p c) (hheld : ∀ i ∈ heldOf toks, ∀ c ∈ text i, p c) :
    ∀ c ∈ fill text toks, p c := by
  induction toks with
  | nil => simp
  | cons tok toks ih =>
    have ih' := ih (fun c hc => hunit c (List.mem_cons_of_mem _ hc))
    cases tok with
    | unit d =>
      intro c hc
      rcases List.mem_cons.mp hc with rfl | hc
      · exact hunit c List.mem_cons_self
      · exact ih' hheld c hc
    | held i =>
      intro c hc
      rcases List.mem_append.mp hc with hc | hc
      · exact hheld i List.mem_cons_self c hc
      · exact ih' (fun j hj => hheld j (List.mem_cons_of_mem _ hj)) c hc

/-! ### Marks -/

variable {mark : ℕ → List α}

/-- **A unit that no mark uses stands between the tokens.** -/
lemma split_at {c : α} (hc : ∀ i, c ∉ mark i) {toks : List (Tok α)} {a b : List α}
    (h : fill mark toks = a ++ c :: b) :
    ∃ t₁ t₂, toks = t₁ ++ .unit c :: t₂ ∧ fill mark t₁ = a ∧ fill mark t₂ = b := by
  induction toks generalizing a with
  | nil => simp at h
  | cons tok toks ih =>
    cases tok with
    | unit d =>
      rw [fill_unit] at h
      cases a with
      | nil =>
        obtain ⟨rfl, rfl⟩ := List.cons.inj h
        exact ⟨[], toks, rfl, rfl, rfl⟩
      | cons e a =>
        obtain ⟨rfl, hrest⟩ := List.cons.inj h
        obtain ⟨t₁, t₂, rfl, rfl, rfl⟩ := ih hrest
        exact ⟨.unit d :: t₁, t₂, rfl, rfl, rfl⟩
    | held i =>
      rw [fill_held] at h
      obtain ⟨a', ha, hb⟩ | ⟨b', hmark, hb⟩ := List.append_eq_append_iff.mp h
      · obtain ⟨t₁, t₂, rfl, rfl, rfl⟩ := ih hb
        exact ⟨.held i :: t₁, t₂, rfl, ha.symm, rfl⟩
      · cases b' with
        | nil =>
          obtain ⟨t₁, t₂, rfl, ht₁, rfl⟩ := ih (a := []) (by simpa using hb.symm)
          refine ⟨.held i :: t₁, t₂, rfl, ?_, rfl⟩
          rw [fill_held, ht₁, hmark, List.append_nil, List.append_nil]
        | cons d b' =>
          obtain ⟨rfl, -⟩ := List.cons.inj hb
          exact absurd (hmark ▸ List.mem_append_right _ List.mem_cons_self) (hc i)

lemma split_units {o : α} (ho : ∀ i, ∃ m, mark i = o :: m) {toks : List (Tok α)} {m rest : List α}
    (hm : o ∉ m) (h : fill mark toks = m ++ rest) :
    ∃ t, toks = units m ++ t ∧ fill mark t = rest := by
  induction m generalizing toks with
  | nil => exact ⟨toks, rfl, h⟩
  | cons c m ih =>
    obtain ⟨hc, hm'⟩ : o ≠ c ∧ o ∉ m := by simpa using hm
    cases toks with
    | nil => simp at h
    | cons tok toks =>
      cases tok with
      | unit d =>
        obtain ⟨rfl, hrest⟩ := List.cons.inj h
        obtain ⟨t, rfl, ht⟩ := ih hm' hrest
        exact ⟨t, rfl, ht⟩
      | held i =>
        obtain ⟨m', hi⟩ := ho i
        rw [fill_held, hi, List.cons_append] at h
        exact absurd (List.cons.inj h).1 hc

/-! ### What is set aside -/

/-- The texts set aside, and the indices of those already put back into kept text. -/
structure Stock (α : Type u) where
  held : List (List α) := []
  restored : List ℕ := []

def Stock.text (s : Stock α) (i : ℕ) : List α := s.held.getD i []

def Stock.hold (s : Stock α) (rendered : List α) : Stock α :=
  { s with held := s.held ++ [rendered] }

/-- Tokens were rewritten: nothing set aside is changed, and each index is put back or still in the
text as often as before, the new ones once. -/
structure Conserves (s : Stock α) (t : List (Tok α)) (s' : Stock α) (t' : List (Tok α)) :
    Prop where
  prefixed : ∃ more, s'.held = s.held ++ more
  once : ∀ i, s'.restored.count i + (heldOf t').count i =
    s.restored.count i + (heldOf t).count i +
      if s.held.length ≤ i ∧ i < s'.held.length then 1 else 0

lemma Conserves.rfl {s : Stock α} {t : List (Tok α)} : Conserves s t s t where
  prefixed := ⟨[], (List.append_nil _).symm⟩
  once i := by
    split
    · omega
    · rfl

lemma Conserves.length_le {s s' : Stock α} {t t' : List (Tok α)} (h : Conserves s t s' t') :
    s.held.length ≤ s'.held.length := by
  obtain ⟨more, hmore⟩ := h.prefixed
  rw [hmore, List.length_append]
  omega

lemma Conserves.text {s s' : Stock α} {t t' : List (Tok α)} (h : Conserves s t s' t') {i : ℕ}
    (hi : i < s.held.length) : s'.text i = s.text i := by
  obtain ⟨more, hmore⟩ := h.prefixed
  unfold Stock.text
  rw [hmore, List.getD_append _ _ _ _ hi]

lemma Conserves.append {s s' s'' : Stock α} {t₁ t₁' t₂ t₂' : List (Tok α)}
    (h₁ : Conserves s t₁ s' t₁') (h₂ : Conserves s' t₂ s'' t₂') :
    Conserves s (t₁ ++ t₂) s'' (t₁' ++ t₂') where
  prefixed := by
    obtain ⟨more, hmore⟩ := h₁.prefixed
    obtain ⟨more', hmore'⟩ := h₂.prefixed
    exact ⟨more ++ more', by rw [hmore', hmore, List.append_assoc]⟩
  once i := by
    have hle₁ := h₁.length_le
    have hle₂ := h₂.length_le
    have hone := h₁.once i
    have htwo := h₂.once i
    simp only [heldOf_append, List.count_append]
    split_ifs at hone htwo ⊢ <;> omega

lemma Conserves.trans {s s' s'' : Stock α} {t t' t'' : List (Tok α)}
    (h₁ : Conserves s t s' t') (h₂ : Conserves s' t' s'' t'') : Conserves s t s'' t'' where
  prefixed := by
    obtain ⟨more, hmore⟩ := h₁.prefixed
    obtain ⟨more', hmore'⟩ := h₂.prefixed
    exact ⟨more ++ more', by rw [hmore', hmore, List.append_assoc]⟩
  once i := by
    have hle₁ := h₁.length_le
    have hle₂ := h₂.length_le
    have hone := h₁.once i
    have htwo := h₂.once i
    split_ifs at hone htwo ⊢ <;> omega

lemma conserves_hold (s : Stock α) (t : List (Tok α)) (rendered : List α) :
    Conserves s t { (s.hold rendered) with restored := s.restored ++ heldOf t }
      [.held s.held.length] where
  prefixed := ⟨[rendered], rfl⟩
  once i := by
    simp only [Stock.hold, List.count_append, heldOf_held, heldOf_nil, List.length_append,
      List.length_singleton, List.count_singleton]
    by_cases h : i = s.held.length
    · subst h
      simp
    · have hne : ¬ (s.held.length ≤ i ∧ i < s.held.length + 1) := by omega
      rw [if_neg hne]
      simp [Ne.symm h]

lemma conserves_of_perm {s : Stock α} {t t' : List (Tok α)} (h : heldOf t' = heldOf t) :
    Conserves s t s t' where
  prefixed := ⟨[], (List.append_nil _).symm⟩
  once i := by
    rw [h, if_neg (by omega), Nat.add_zero]

/-! ### Passes over marked texts -/

/-- **A pass rewrites tokens**, when no mark has a unit that starts a match and every match is of
whole tokens. `Q` is what the tokens are known to be, `R` what they are after, and `I` what the
stock is. -/
lemma replaceAll_toks {f : Stock α → List α → Option (Found α (Stock α))} {Q R : Tok α → Prop}
    {I : Stock α → Prop} (hQR : ∀ tok, Q tok → R tok)
    (hmark : ∀ s i, ∀ c ∈ mark i, ∀ rest, f s (c :: rest) = none)
    (hfound : ∀ s toks found, I s → (∀ tok ∈ toks, Q tok) → f s (fill mark toks) = some found →
      ∃ t₁ t₂ t', toks = t₁ ++ t₂ ∧ t₁ ≠ [] ∧ fill mark t₁ ≠ [] ∧
        found.length = (fill mark t₁).length ∧ found.replacement = fill mark t' ∧
        (∀ tok ∈ t', R tok) ∧ I found.state ∧ Conserves s t₁ found.state t')
    (toks : List (Tok α)) (s : Stock α) (hs : I s) (htoks : ∀ tok ∈ toks, Q tok) :
    ∃ toks', (replaceAll f s 0 (fill mark toks)).1 = fill mark toks' ∧
      (∀ tok ∈ toks', R tok) ∧ I (replaceAll f s 0 (fill mark toks)).2 ∧
      Conserves s toks (replaceAll f s 0 (fill mark toks)).2 toks' := by
  induction hn : toks.length using Nat.strongRecOn generalizing toks s with
  | ind n ih =>
    subst hn
    cases hf : f s (fill mark toks) with
    | some found =>
      obtain ⟨t₁, t₂, t', rfl, hne, hunits, hlength, hrepl, hR, hI, hcons⟩ :=
        hfound s toks found hs htoks hf
      have hlt : t₂.length < (t₁ ++ t₂).length := by
        have := List.length_pos_iff.mpr hne
        rw [List.length_append]
        omega
      obtain ⟨t₂', htext, hR', hI', hcons'⟩ := ih _ hlt t₂ found.state hI
        (fun tok htok => htoks tok (List.mem_append_right _ htok)) rfl
      rw [fill_append] at hf ⊢
      rw [replaceAll_found hunits hf hlength]
      refine ⟨t' ++ t₂', by rw [hrepl, htext, fill_append], fun tok htok => ?_, hI',
        hcons.append hcons'⟩
      exact (List.mem_append.mp htok).elim (hR tok) (hR' tok)
    | none =>
      cases toks with
      | nil => exact ⟨[], by simp, by simp, by simpa using hs, by simpa using Conserves.rfl⟩
      | cons tok toks =>
        obtain ⟨toks', htext, hR', hI', hcons'⟩ := ih _ (Nat.lt_succ_self _) toks s hs
          (fun tok htok => htoks tok (List.mem_cons_of_mem _ htok)) rfl
        have hR'' : ∀ tok' ∈ tok :: toks', R tok' := fun tok' htok' => by
          rcases List.mem_cons.mp htok' with rfl | htok'
          · exact hQR _ (htoks _ List.mem_cons_self)
          · exact hR' tok' htok'
        cases tok with
        | unit c =>
          have hpass : replaceAll f s 0 (fill mark (.unit c :: toks)) =
              (c :: (replaceAll f s 0 (fill mark toks)).1,
                (replaceAll f s 0 (fill mark toks)).2) := by
            rw [fill_unit] at hf ⊢
            rw [replaceAll, hf]
          rw [hpass]
          exact ⟨.unit c :: toks', by rw [htext, fill_unit], hR'', hI',
            (Conserves.rfl (t := [.unit c])).append hcons'⟩
        | held i =>
          rw [fill_held, replaceAll_pass (hmark s i)]
          exact ⟨.held i :: toks', by rw [htext, fill_held], hR'', hI',
            (Conserves.rfl (t := [.held i])).append hcons'⟩

end OpenRig.Placeholders
