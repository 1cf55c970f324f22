import Mathlib.Data.List.Nodup
import Mathlib.Data.List.Basic

/-!
A table with a primary key, as one connection of an embedded database sees it.

Rows are kept in insertion order. No two rows share a key, and that fact is a field of
the table: an insert that would break it is refused, and an update must keep the key of
the rows it rewrites. Everything a client needs afterwards is said about `get?`, the
lookup by primary key.
-/

namespace OpenRig

universe u v
variable {κ : Type u} {ρ : Type v}

/-- Rows in insertion order, at most one for each key. -/
structure Table (key : ρ → κ) where
  rows : List ρ
  nodup : (rows.map key).Nodup

variable {key : ρ → κ}

namespace Table

@[ext] theorem ext {t t' : Table key} (h : t.rows = t'.rows) : t = t' := by
  cases t; cases t'; cases h; rfl

def empty : Table key := ⟨[], List.nodup_nil⟩

/-- The row with primary key `k`. -/
def get? [DecidableEq κ] (t : Table key) (k : κ) : Option ρ := t.rows.find? (fun r => key r = k)

/-- The rows satisfying a `WHERE` clause, in insertion order. -/
def filter (t : Table key) (p : ρ → Bool) : List ρ := t.rows.filter p

/-- `INSERT`: refused (the primary-key conflict) when the key is taken. -/
def insert? [DecidableEq κ] (t : Table key) (r : ρ) : Option (Table key) :=
  if h : key r ∈ t.rows.map key then none
  else some ⟨t.rows ++ [r], by
    rw [List.map_append, List.nodup_append]
    refine ⟨t.nodup, by simp, ?_⟩
    rintro a ha b hb rfl
    simp only [List.map_cons, List.map_nil, List.mem_singleton] at hb
    exact h (hb ▸ ha)⟩

/-- The rewrite `UPDATE … SET … WHERE p` does to one row. -/
def rewrite (p : ρ → Bool) (f : ρ → ρ) (r : ρ) : ρ := if p r then f r else r

/-- `UPDATE … SET … WHERE p`, for a rewrite that keeps the primary key. -/
def updateWhere (t : Table key) (p : ρ → Bool) (f : ρ → ρ)
    (hf : ∀ r, key (f r) = key r := by intro _; rfl) : Table key :=
  ⟨t.rows.map (rewrite p f), by
    have : (t.rows.map (rewrite p f)).map key = t.rows.map key := by
      rw [List.map_map]
      refine List.map_congr_left fun r _ => ?_
      simp only [Function.comp_apply, rewrite]
      split
      · exact hf r
      · rfl
    rw [this]
    exact t.nodup⟩

/-- `UPDATE … SET … WHERE key = k`. -/
def update [DecidableEq κ] (t : Table key) (k : κ) (f : ρ → ρ)
    (hf : ∀ r, key (f r) = key r := by intro _; rfl) : Table key :=
  t.updateWhere (fun r => key r = k) f hf

/-- `DELETE … WHERE key = k`. -/
def erase [DecidableEq κ] (t : Table key) (k : κ) : Table key :=
  ⟨t.rows.filter fun r => key r ≠ k, t.nodup.sublist (List.filter_sublist.map key)⟩

/-! ### Lookup -/

variable [DecidableEq κ]

@[simp] lemma get?_empty (k : κ) : (empty : Table key).get? k = none := rfl

lemma get?_eq_some {t : Table key} {k : κ} {r : ρ} :
    t.get? k = some r ↔ r ∈ t.rows ∧ key r = k := by
  constructor
  · intro h
    have hk := List.find?_some h
    exact ⟨List.mem_of_find?_eq_some h, by simpa using hk⟩
  · rintro ⟨hr, rfl⟩
    unfold get?
    obtain ⟨rows, nodup⟩ := t
    simp only at hr ⊢
    induction rows with
    | nil => simp at hr
    | cons a rows ih =>
      simp only [List.map_cons, List.nodup_cons] at nodup
      rcases List.mem_cons.mp hr with rfl | hr
      · simp
      · have hne : key a ≠ key r := fun e => nodup.1 (e ▸ List.mem_map_of_mem hr)
        rw [List.find?_cons_of_neg (by simpa using hne)]
        exact ih nodup.2 hr

lemma get?_key {t : Table key} {k : κ} {r : ρ} (h : t.get? k = some r) : key r = k :=
  (get?_eq_some.mp h).2

lemma get?_of_mem {t : Table key} {r : ρ} (h : r ∈ t.rows) : t.get? (key r) = some r :=
  get?_eq_some.mpr ⟨h, rfl⟩

lemma get?_eq_none {t : Table key} {k : κ} : t.get? k = none ↔ ∀ r ∈ t.rows, key r ≠ k := by
  simp [get?]

lemma mem_filter {t : Table key} {p : ρ → Bool} {r : ρ} :
    r ∈ t.filter p ↔ t.get? (key r) = some r ∧ p r = true := by
  simp [filter, get?_eq_some]

/-! ### Insertion -/

lemma insert?_eq_some {t t' : Table key} {r : ρ} (h : t.insert? r = some t') :
    t.get? (key r) = none ∧ t'.rows = t.rows ++ [r] := by
  unfold insert? at h
  split at h
  · cases h
  · rename_i hk
    cases h
    refine ⟨get?_eq_none.mpr fun a ha e => hk ?_, rfl⟩
    exact e ▸ List.mem_map_of_mem ha

lemma insert?_eq_none {t : Table key} {r : ρ} :
    t.insert? r = none ↔ (t.get? (key r)).isSome := by
  unfold insert?
  split
  · rename_i h
    obtain ⟨a, ha, hk⟩ := List.mem_map.mp h
    simp [get?_eq_some.mpr ⟨ha, hk⟩]
  · rename_i h
    have : t.get? (key r) = none := get?_eq_none.mpr fun a ha e => h (e ▸ List.mem_map_of_mem ha)
    simp [this]

lemma get?_insert? {t t' : Table key} {r : ρ} (h : t.insert? r = some t') (k : κ) :
    t'.get? k = if k = key r then some r else t.get? k := by
  obtain ⟨hn, hrows⟩ := insert?_eq_some h
  split
  · rename_i e
    subst e
    exact get?_eq_some.mpr ⟨by simp [hrows], rfl⟩
  · rename_i e
    have hne : ¬ key r = k := fun e' => e e'.symm
    simp [get?, hrows, List.find?_append, hne]

lemma rows_insert? {t t' : Table key} {r : ρ} (h : t.insert? r = some t') :
    t'.rows = t.rows ++ [r] ∧ ∀ a ∈ t.rows, key a ≠ key r :=
  ⟨(insert?_eq_some h).2, get?_eq_none.mp (insert?_eq_some h).1⟩

/-! ### Deletion -/

lemma mem_erase {t : Table key} {k : κ} {r : ρ} :
    r ∈ (t.erase k).rows ↔ r ∈ t.rows ∧ key r ≠ k := by
  simp [erase]

/-! ### Update -/

lemma get?_updateWhere (t : Table key) (p : ρ → Bool) (f : ρ → ρ) (hf) (k : κ) :
    (t.updateWhere p f hf).get? k = (t.get? k).map (rewrite p f) := by
  unfold get? updateWhere
  rw [List.find?_map]
  congr 2
  funext r
  have : key (rewrite p f r) = key r := by
    unfold rewrite
    split
    · exact hf r
    · rfl
  simp [this]

lemma get?_update (t : Table key) (k : κ) (f : ρ → ρ) (hf) (k' : κ) :
    (t.update k f hf).get? k' = if k' = k then (t.get? k').map f else t.get? k' := by
  unfold update
  rw [get?_updateWhere]
  cases h : t.get? k' with
  | none => simp
  | some r =>
    have hk := get?_key h
    by_cases e : k' = k
    · simp [rewrite, hk, e]
    · simp [rewrite, hk, e]

@[simp] lemma get?_update_self (t : Table key) (k : κ) (f : ρ → ρ) (hf) :
    (t.update k f hf).get? k = (t.get? k).map f := by
  simp [get?_update]

lemma get?_update_ne (t : Table key) {k k' : κ} (f : ρ → ρ) (hf) (h : k' ≠ k) :
    (t.update k f hf).get? k' = t.get? k' := by
  simp [get?_update, h]

end Table

end OpenRig
