import Mathlib.Data.List.Sort
import OpenRig.QueueDb

/-!
The history tables, and what reads them.

A transition is appended to the live table. A retention batch moves a closed row's whole log to
the archive, under the ids it had. The readers take the union of the two tables and order it by
id, so what they say depends on the union alone (`Ordered.eq_of_perm`); the walk of a park reads
the live table only.
-/

namespace OpenRig.HistoryTables

open OpenRig.JsText OpenRig.QueueDb

/-- A row of `rigs`. -/
structure RigRow where
  name : String
  archivedAt : Option Time

/-- The queue's rows and instances with the two history tables. No id stands twice. -/
structure Tables where
  items : Table QueueItem.qitemId
  rigs : List RigRow
  instances : List WorkflowInstance
  /-- `queue_transitions`, newest first. -/
  live : List Transition
  /-- `queue_transitions_archive`, with the time of each move. -/
  archive : List (Transition × Time)
  unique : ((live ++ archive.map Prod.fst).map Transition.transitionId).Nodup

/-- `historySource`: one projection of both tables. -/
def Tables.historySource (t : Tables) : List Transition := t.live ++ t.archive.map Prod.fst

lemma Tables.nodup (t : Tables) : (t.historySource.map Transition.transitionId).Nodup := t.unique

/-! ### Orders -/

/-- `ORDER BY transition_id DESC`. -/
def newer (a b : Transition) : Prop := b.transitionId ≤ a.transitionId

/-- `ORDER BY transition_id ASC`. -/
def older (a b : Transition) : Prop := a.transitionId ≤ b.transitionId

/-- `ORDER BY ts DESC, transition_id DESC`. -/
def later (a b : Transition) : Prop :=
  b.ts < a.ts ∨ (b.ts = a.ts ∧ b.transitionId ≤ a.transitionId)

instance : DecidableRel newer := fun _ _ => inferInstanceAs (Decidable (_ ≤ _))
instance : DecidableRel older := fun _ _ => inferInstanceAs (Decidable (_ ≤ _))
instance : DecidableRel later := fun _ _ => inferInstanceAs (Decidable (_ ∨ _))

/-- An order of transitions that tells two ids apart. -/
class Ordered (r : Transition → Transition → Prop) : Prop where
  total : ∀ a b, r a b ∨ r b a
  trans : ∀ a b c, r a b → r b c → r a c
  ids : ∀ a b, r a b → r b a → a.transitionId = b.transitionId

instance : Ordered newer where
  total a b := le_total b.transitionId a.transitionId
  trans _ _ _ h h' := le_trans h' h
  ids _ _ h h' := le_antisymm h' h

instance : Ordered older where
  total a b := le_total a.transitionId b.transitionId
  trans _ _ _ h h' := le_trans h h'
  ids _ _ h h' := le_antisymm h h'

instance : Ordered later where
  total a b := by
    rcases Nat.lt_trichotomy a.ts b.ts with h | h | h
    · exact .inr (.inl h)
    · exact (le_total b.transitionId a.transitionId).imp (fun hi => .inr ⟨h.symm, hi⟩)
        fun hi => .inr ⟨h, hi⟩
    · exact .inl (.inl h)
  trans a b c := by
    rintro (h | ⟨h, hi⟩) (h' | ⟨h', hi'⟩)
    · exact .inl (Nat.lt_trans h' h)
    · exact .inl (h' ▸ h)
    · exact .inl (h ▸ h')
    · exact .inr ⟨h'.trans h, le_trans hi' hi⟩
  ids a b := by
    rintro (h | ⟨h, hi⟩) (h' | ⟨h', hi'⟩)
    · exact absurd h' (Nat.lt_asymm h)
    · exact absurd h' (Nat.ne_of_gt h)
    · exact absurd h (Nat.ne_of_gt h')
    · exact le_antisymm hi' hi

/-- The rows of a query, in its order. -/
def ordered (r : Transition → Transition → Prop) [DecidableRel r] (l : List Transition) :
    List Transition := l.insertionSort r

lemma ordered_perm {r : Transition → Transition → Prop} [DecidableRel r] (l : List Transition) :
    (ordered r l).Perm l := List.perm_insertionSort r l

lemma Ordered.eq_of_perm {r : Transition → Transition → Prop} (ho : Ordered r)
    {l l' : List Transition} (h : l.Pairwise r) (h' : l'.Pairwise r) (hp : l.Perm l')
    (hn : (l.map Transition.transitionId).Nodup) : l = l' := by
  refine List.Perm.eq_of_pairwise (fun a b ha hb hab hba => ?_) h h' hp
  have hb : b ∈ l := hp.mem_iff.mpr hb
  exact List.inj_on_of_nodup_map hn ha hb (ho.ids a b hab hba)

section
variable {r : Transition → Transition → Prop} [DecidableRel r]

@[simp] lemma mem_ordered {l : List Transition} {x : Transition} : x ∈ ordered r l ↔ x ∈ l :=
  (ordered_perm l).mem_iff

lemma ordered_pairwise [ho : Ordered r] (l : List Transition) : (ordered r l).Pairwise r := by
  have : Std.Total r := ⟨ho.total⟩
  have : IsTrans Transition r := ⟨ho.trans⟩
  exact List.pairwise_insertionSort r l

/-- **A query's answer depends on the union of the tables only.** -/
lemma ordered_congr [ho : Ordered r] {l l' : List Transition} (hp : l.Perm l')
    (hn : (l.map Transition.transitionId).Nodup) : ordered r l = ordered r l' := by
  refine ho.eq_of_perm (ordered_pairwise l) (ordered_pairwise l') ?_ ?_
  · exact (ordered_perm l).trans (hp.trans (ordered_perm l').symm)
  · exact ((ordered_perm l).map _).nodup_iff.mpr hn

lemma nodup_filter {l : List Transition} (hn : (l.map Transition.transitionId).Nodup)
    (p : Transition → Bool) : ((l.filter p).map Transition.transitionId).Nodup :=
  hn.sublist (List.filter_sublist.map _)

lemma ordered_filter [ho : Ordered r] {l : List Transition}
    (hn : (l.map Transition.transitionId).Nodup)
    (p : Transition → Bool) : ordered r (l.filter p) = (ordered r l).filter p := by
  refine ho.eq_of_perm (ordered_pairwise _) ((ordered_pairwise l).filter p) ?_ ?_
  · exact (ordered_perm _).trans ((ordered_perm l).symm.filter p)
  · exact ((ordered_perm _).map _).nodup_iff.mpr (nodup_filter hn p)

end

/-- A statement's `LIMIT`: a negative one is none. -/
def sqlLimit {α : Type} (n : ℤ) (l : List α) : List α := if n < 0 then l else l.take n.toNat

end OpenRig.HistoryTables
