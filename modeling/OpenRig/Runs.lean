import Mathlib.Data.List.Basic

/-!
Labelled runs of a step relation, for any state and label types: composition, the invariant
rules and the loops that are runs of their body.
-/

namespace OpenRig.Runs

universe u v
variable {σ : Type u} {ℓ : Type v} {R S : σ → ℓ → σ → Prop}

/-- A finite run and the labels of its steps, in order. -/
inductive Path (R : σ → ℓ → σ → Prop) : σ → List ℓ → σ → Prop
  | nil (s : σ) : Path R s [] s
  | cons {s t u : σ} {l : ℓ} {ls : List ℓ} : R s l t → Path R t ls u → Path R s (l :: ls) u

namespace Path

lemma single {s t : σ} {l : ℓ} (h : R s l t) : Path R s [l] t := .cons h (.nil t)

lemma append {s t u : σ} {ls ls' : List ℓ} (h : Path R s ls t) (h' : Path R t ls' u) :
    Path R s (ls ++ ls') u := by
  induction h with
  | nil s => exact h'
  | cons hstep _ ih => exact .cons hstep (ih h')

lemma snoc {s t u : σ} {ls : List ℓ} {l : ℓ} (h : Path R s ls t) (h' : R t l u) :
    Path R s (ls ++ [l]) u := h.append (single h')

lemma mono (hRS : ∀ s l t, R s l t → S s l t) {s t : σ} {ls : List ℓ} (h : Path R s ls t) :
    Path S s ls t := by
  induction h with
  | nil s => exact .nil s
  | cons hstep _ ih => exact .cons (hRS _ _ _ hstep) ih

lemma mono_of_labels {p : ℓ → Prop} (hRS : ∀ s l t, p l → R s l t → S s l t) {s t : σ}
    {ls : List ℓ} (h : Path R s ls t) (hp : ∀ l ∈ ls, p l) : Path S s ls t := by
  induction h with
  | nil s => exact .nil s
  | cons hstep _ ih =>
    exact .cons (hRS _ _ _ (hp _ List.mem_cons_self) hstep)
      (ih fun l hl => hp l (List.mem_cons_of_mem _ hl))

@[simp] lemma nil_iff {s t : σ} : Path R s [] t ↔ s = t := by
  constructor
  · rintro ⟨⟩
    rfl
  · rintro rfl
    exact .nil s

@[simp] lemma cons_iff {s u : σ} {l : ℓ} {ls : List ℓ} :
    Path R s (l :: ls) u ↔ ∃ t, R s l t ∧ Path R t ls u := by
  constructor
  · rintro (_ | ⟨h, h'⟩)
    exact ⟨_, h, h'⟩
  · rintro ⟨t, h, h'⟩
    exact .cons h h'

lemma append_iff {s u : σ} {ls ls' : List ℓ} :
    Path R s (ls ++ ls') u ↔ ∃ t, Path R s ls t ∧ Path R t ls' u := by
  constructor
  · intro h
    induction ls generalizing s with
    | nil => exact ⟨s, .nil s, h⟩
    | cons l ls ih =>
      obtain ⟨s', hstep, hrest⟩ := cons_iff.mp h
      obtain ⟨t, ht, hu⟩ := ih hrest
      exact ⟨t, .cons hstep ht, hu⟩
  · rintro ⟨t, ht, hu⟩
    exact ht.append hu

@[simp] lemma single_iff {s t : σ} {l : ℓ} : Path R s [l] t ↔ R s l t := by
  simp

/-- **The invariant rule**: what every step keeps, every run keeps. -/
lemma invariant {I : σ → Prop} (hI : ∀ s l t, R s l t → I s → I t) {s t : σ} {ls : List ℓ}
    (h : Path R s ls t) (hs : I s) : I t := by
  induction h with
  | nil s => exact hs
  | cons hstep _ ih => exact ih (hI _ _ _ hstep hs)

lemma with_invariant {I : σ → Prop} (hI : ∀ s l t, R s l t → I s → I t) {s t : σ} {ls : List ℓ}
    (h : Path R s ls t) (hs : I s) : Path (fun s l t => R s l t ∧ I s ∧ I t) s ls t := by
  induction h with
  | nil s => exact .nil s
  | cons hstep _ ih =>
    have ht := hI _ _ _ hstep hs
    exact .cons ⟨hstep, hs, ht⟩ (ih ht)

lemma invariant_of_labels {I : σ → Prop} {p : ℓ → Prop}
    (hI : ∀ s l t, p l → R s l t → I s → I t) {s t : σ} {ls : List ℓ}
    (h : Path R s ls t) (hp : ∀ l ∈ ls, p l) (hs : I s) : I t := by
  induction h with
  | nil s => exact hs
  | cons hstep _ ih =>
    exact ih (fun l hl => hp l (List.mem_cons_of_mem _ hl))
      (hI _ _ _ (hp _ List.mem_cons_self) hstep hs)

lemma rel {P : σ → σ → Prop} (hrefl : ∀ s, P s s) (htrans : ∀ s t u, P s t → P t u → P s u)
    (hP : ∀ s l t, R s l t → P s t) {s t : σ} {ls : List ℓ} (h : Path R s ls t) : P s t := by
  induction h with
  | nil s => exact hrefl s
  | cons hstep _ ih => exact htrans _ _ _ (hP _ _ _ hstep) ih

lemma split {s u : σ} {ls : List ℓ} (h : Path R s ls u) {l : ℓ} (hl : l ∈ ls) :
    ∃ before after t t', ls = before ++ l :: after ∧ Path R s before t ∧ R t l t' ∧
      Path R t' after u := by
  induction h with
  | nil s => simp at hl
  | @cons s t u l₀ ls hstep hrest ih =>
    rcases List.mem_cons.mp hl with rfl | hl
    · exact ⟨[], ls, s, t, rfl, .nil s, hstep, hrest⟩
    · obtain ⟨before, after, t', t'', rfl, hb, hm, ha⟩ := ih hl
      exact ⟨l₀ :: before, after, t', t'', rfl, .cons hstep hb, hm, ha⟩

lemma lost {P : σ → Prop} {s t : σ} {ls : List ℓ} (h : Path R s ls t) (hs : P s) :
    P t ∨ ∃ before l after u u', ls = before ++ l :: after ∧ Path R s before u ∧ R u l u' ∧
      Path R u' after t ∧ P u ∧ ¬ P u' := by
  induction h with
  | nil s => exact .inl hs
  | @cons s u t l ls hstep hrest ih =>
    by_cases hu : P u
    · rcases ih hu with ht | ⟨before, l', after, v, v', rfl, hb, hl, ha, hv, hv'⟩
      · exact .inl ht
      · exact .inr ⟨l :: before, l', after, v, v', rfl, .cons hstep hb, hl, ha, hv, hv'⟩
    · exact .inr ⟨[], l, ls, s, u, rfl, .nil s, hstep, hrest, hs, hu⟩

/-- **When a condition on the steps is exactly what keeps a property** in the states of an
invariant, the runs whose steps all meet it are the runs that stay in the property. -/
lemma guarded_iff {I J : σ → Prop} {C : σ → ℓ → Prop} (hJ : ∀ s l t, R s l t → J s → J t)
    (hstep : ∀ s l t, R s l t → J s → I s → (C s l ↔ I t)) {s t : σ} {ls : List ℓ} (hJs : J s)
    (hs : I s) :
    Path (fun s l t => R s l t ∧ I t) s ls t ↔ Path (fun s l t => R s l t ∧ C s l) s ls t := by
  constructor
  · intro h
    induction h with
    | nil s => exact .nil s
    | cons h _ ih =>
      exact .cons ⟨h.1, (hstep _ _ _ h.1 hJs hs).mpr h.2⟩ (ih (hJ _ _ _ h.1 hJs) h.2)
  · intro h
    induction h with
    | nil s => exact .nil s
    | cons h _ ih =>
      have ht := (hstep _ _ _ h.1 hJs hs).mp h.2
      exact .cons ⟨h.1, ht⟩ (ih (hJ _ _ _ h.1 hJs) ht)

/-- When a condition on the steps is exactly what makes each step good, in the states of an
invariant, the runs whose steps all meet it are the runs of good steps. -/
lemma good_iff {I : σ → Prop} {C : σ → ℓ → Prop} {Q : σ → ℓ → σ → Prop}
    (hI : ∀ s l t, R s l t → I s → I t)
    (hstep : ∀ s l t, R s l t → I s → (C s l ↔ Q s l t)) {s t : σ} {ls : List ℓ} (hs : I s) :
    Path (fun s l t => R s l t ∧ Q s l t) s ls t ↔ Path (fun s l t => R s l t ∧ C s l) s ls t := by
  constructor
  · intro h
    have hI' := h.with_invariant (I := I) (fun s l t h => hI s l t h.1) hs
    exact hI'.mono fun s l t ⟨⟨hr, hq⟩, hs, _⟩ => ⟨hr, (hstep s l t hr hs).mpr hq⟩
  · intro h
    have hI' := h.with_invariant (I := I) (fun s l t h => hI s l t h.1) hs
    exact hI'.mono fun s l t ⟨⟨hr, hc⟩, hs, _⟩ => ⟨hr, (hstep s l t hr hs).mp hc⟩

end Path

/-! ### Loops -/

lemma path_iff_foldlM {f : σ → ℓ → Option σ} {ls : List ℓ} {s t : σ} :
    Path (fun s l t => f s l = some t) s ls t ↔ ls.foldlM f s = some t := by
  induction ls generalizing s with
  | nil => simp [pure]
  | cons l ls ih =>
    rw [Path.cons_iff, List.foldlM_cons, Option.bind_eq_bind, Option.bind_eq_some_iff]
    exact exists_congr fun u => and_congr_right fun _ => ih

lemma path_of_foldlM {ε : Type u} {f : σ → ℓ → Except ε σ} {ls : List ℓ} {s t : σ}
    (h : ls.foldlM f s = .ok t) : Path (fun s l t => f s l = .ok t) s ls t := by
  induction ls generalizing s with
  | nil =>
    obtain rfl : s = t := by simpa [pure, Except.pure] using h
    exact .nil s
  | cons l ls ih =>
    rw [List.foldlM_cons] at h
    cases hf : f s l with
    | error e => simp [hf, bind, Except.bind] at h
    | ok s' =>
      rw [hf] at h
      exact .cons hf (ih h)

/-- A computed run that passes a check at its end. -/
lemma exists_of_foldlM {ε : Type u} {f : σ → ℓ → Except ε σ} (ls : List ℓ) (p : σ → Bool) {s : σ}
    (h : (ls.foldlM f s).toOption.any p = true) :
    ∃ t, Path (fun s l t => f s l = .ok t) s ls t ∧ p t = true := by
  cases hr : ls.foldlM f s with
  | error e => simp [hr, Except.toOption] at h
  | ok t => exact ⟨t, path_of_foldlM hr, by simpa [hr, Except.toOption] using h⟩

/-- The state that labels lead to. -/
def play (f : σ → ℓ → Option σ) (s : σ) (ls : List ℓ) : σ := (ls.foldlM f s).getD s

lemma path_play {f : σ → ℓ → Option σ} {s : σ} (ls : List ℓ)
    (h : (ls.foldlM f s).isSome = true) :
    Path (fun s l t => f s l = some t) s ls (play f s ls) := by
  obtain ⟨t, ht⟩ := Option.isSome_iff_exists.mp h
  have hplay : play f s ls = t := by rw [play, ht, Option.getD_some]
  exact hplay ▸ path_iff_foldlM.mpr ht

def checked (f : σ → ℓ → Option σ) (C : σ → ℓ → Bool) (s : σ) (l : ℓ) : Option σ :=
  if C s l then f s l else none

lemma path_checked {f : σ → ℓ → Option σ} {C : σ → ℓ → Bool} {s : σ} (ls : List ℓ)
    (h : (ls.foldlM (checked f C) s).isSome = true) :
    Path (fun s l t => f s l = some t ∧ C s l = true) s ls (play (checked f C) s ls) := by
  refine (path_play ls h).mono fun s l t hstep => ?_
  obtain ⟨hC, hf⟩ := Option.ite_none_right_eq_some.mp hstep
  exact ⟨hf, hC⟩

lemma path_of_foldl (f : σ → ℓ → σ) (ls : List ℓ) (s : σ) :
    Path (fun s l t => f s l = t) s ls (ls.foldl f s) := by
  induction ls generalizing s with
  | nil => exact .nil s
  | cons l ls ih => exact .cons rfl (ih (f s l))

end OpenRig.Runs
