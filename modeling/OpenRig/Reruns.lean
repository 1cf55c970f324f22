import Mathlib.Data.Set.Basic
import Mathlib.Logic.Relation
import Mathlib.Order.WellFounded

/-!
Tasks that are done again, for any task type and any relation `needs x y` (`y` must finish before
`x` starts).

Each task carries the rank of its latest finish. A finish counts while it is newer than those of
the prerequisites, so a task done again puts the tasks that need it out of date. A scheduler that
looks one prerequisite deep starts a task on inputs that are themselves out of date; it does so
exactly where work is open above the task, or where a prerequisite that still counts rests on the
finish that started it. This needs two facts of every state (`Grounded`): what has begun has
prerequisites that finished once, and above every outdated finish some task is open.
-/

namespace OpenRig.Reruns

open Relation

universe u
variable {α : Type u}

/-- The latest finishes, and the tasks that are open: live, or failed and not resolved. -/
structure Ledger (α : Type u) where
  rank : α → ℕ
  active : Set α

/-- The finish of a task counts: it is newer than those of the prerequisites. -/
def Counts (needs : α → α → Prop) (rank : α → ℕ) (x : α) : Prop :=
  0 < rank x ∧ ∀ d, needs x d → rank d < rank x

def Needed (needs : α → α → Prop) (x : α) : Prop := ∃ y, needs y x

/-- **What every state has**, of the tasks that others need. -/
structure Grounded (needs : α → α → Prop) (L : Ledger α) : Prop where
  begun : ∀ x, Needed needs x → 0 < L.rank x ∨ x ∈ L.active → ∀ d, needs x d → 0 < L.rank d
  watched : ∀ x, Needed needs x → 0 < L.rank x → ¬ Counts needs L.rank x →
    ∃ z, ReflTransGen needs x z ∧ z ∈ L.active

/-- The task rests on nothing stale: everything above it counts, and nothing above it is open. -/
def Fresh (needs : α → α → Prop) (L : Ledger α) (x : α) : Prop :=
  ∀ p, TransGen needs x p → Counts needs L.rank p ∧ p ∉ L.active

/-! ### The moves -/

/-- The tasks a finish makes ready, as a scheduler sees it that looks one prerequisite deep. -/
def Ready (needs : α → α → Prop) (L : Ledger α) (rank : α → ℕ) (x y : α) : Prop :=
  needs y x ∧ (∀ d, needs y d → Counts needs rank d) ∧ ¬ Counts needs rank y ∧ y ∉ L.active

/-- The ranks after a finish: the task's is the newest, the others stay. -/
structure Newest (rank rank' : α → ℕ) (x : α) : Prop where
  top : ∀ y, y ≠ x → rank' y < rank' x
  same : ∀ y, y ≠ x → rank' y = rank y

/-- A finish that starts what it makes ready. -/
structure Finish (needs : α → α → Prop) (L : Ledger α) (x : α) (L' : Ledger α) : Prop where
  newest : Newest L.rank L'.rank x
  started : ∀ y, Ready needs L L'.rank x y → y ∈ L'.active
  kept : ∀ y ∈ L.active, y ≠ x → y ∈ L'.active
  only : ∀ y ∈ L'.active, y ∈ L.active ∨ Ready needs L L'.rank x y

/-- A jump: the task ends, finished or not, and one task starts in its place. -/
structure Jump (needs : α → α → Prop) (L : Ledger α) (x t : α) (L' : Ledger α) : Prop where
  newest : Newest L.rank L'.rank x ∨ L'.rank = L.rank
  kept : ∀ y ∈ L.active, y ≠ x → y ∈ L'.active
  only : ∀ y ∈ L'.active, y ∈ L.active ∨ y = t
  started : t ∈ L'.active

/-- The jump enters a task whose prerequisites have finished once, or one nobody needs, and if the
task is over, what it leaves outdated at or below it is the entered task or below that. -/
structure Returns (needs : α → α → Prop) (rank : α → ℕ) (ended : Prop) (x t : α) : Prop where
  entered : Needed needs t → ∀ d, needs t d → 0 < rank d
  outdated : ended → ∀ y, Needed needs y → ReflTransGen needs y x → 0 < rank y →
    ¬ Counts needs rank y → ReflTransGen needs y t

variable {needs : α → α → Prop} {L L' : Ledger α} {x t : α}

lemma needed_above {a b : α} (h : TransGen needs a b) : Needed needs b := by
  rcases TransGen.tail'_iff.mp h with ⟨c, -, hc⟩
  exact ⟨c, hc⟩

lemma Grounded.begun_above (h : Grounded needs L) {a b : α}
    (ha : ∀ d, needs a d → 0 < L.rank d) (hab : TransGen needs a b) : 0 < L.rank b := by
  induction hab with
  | single hstep => exact ha _ hstep
  | tail hbefore hstep ih => exact h.begun _ (needed_above hbefore) (.inl ih) _ hstep

lemma Newest.pos {rank rank' : α → ℕ} (h : Newest rank rank' x) {y : α} (hy : 0 < rank y)
    (hx : 0 < rank' x) : 0 < rank' y := by
  by_cases hyx : y = x
  · exact hyx ▸ hx
  · rw [h.same y hyx]
    exact hy

lemma Newest.outdates {rank rank' : α → ℕ} (h : Newest rank rank' x) {y : α} (hy : needs y x)
    (hne : y ≠ x) : ¬ Counts needs rank' y := by
  intro hc
  have hlt := hc.2 x hy
  have := h.top y hne
  omega

lemma Newest.counts_iff {rank rank' : α → ℕ} (h : Newest rank rank' x) {y : α}
    (hy : ¬ needs y x) (hne : y ≠ x) : Counts needs rank' y ↔ Counts needs rank y := by
  unfold Counts
  rw [h.same y hne]
  refine and_congr_right fun _ => forall_congr' fun d => ?_
  by_cases hd : d = x
  · subst hd
    exact ⟨fun _ hyd => absurd hyd hy, fun _ hyd => absurd hyd hy⟩
  · rw [h.same d hd]

lemma acyclic (hwf : WellFounded fun a b => needs b a) (a : α) : ¬ TransGen needs a a := by
  intro h
  exact hwf.transGen.irrefl.irrefl a (transGen_swap.mpr h)

section Moves

variable (hwf : WellFounded fun a b => needs b a)

/-! ### What the moves keep -/

include hwf in
lemma Newest.counts_self {rank rank' : α → ℕ} (h : Newest rank rank' x) (hpos : 0 < rank' x) :
    Counts needs rank' x := by
  refine ⟨hpos, fun d hd => h.top d ?_⟩
  rintro rfl
  exact acyclic hwf d (.single hd)

lemma Finish.begun (hg : Grounded needs L) (h : Finish needs L x L') (hx : x ∈ L.active)
    (hpos : 0 < L'.rank x) (y : α) (hy : Needed needs y) (hb : 0 < L'.rank y ∨ y ∈ L'.active)
    (d : α) (hd : needs y d) : 0 < L'.rank d := by
  have hold : 0 < L.rank y ∨ y ∈ L.active → 0 < L'.rank d := fun hb' =>
    h.newest.pos (hg.begun y hy hb' d hd) hpos
  by_cases hyx : y = x
  · exact hold (.inr (hyx ▸ hx))
  · rcases hb with hr | ha
    · rw [h.newest.same y hyx] at hr
      exact hold (.inl hr)
    · rcases h.only y ha with ha | hready
      · exact hold (.inr ha)
      · exact (hready.2.1 d hd).1

include hwf in
/-- **A finish that starts what it makes ready keeps every outdated task under an open one.** -/
lemma Finish.grounded (hg : Grounded needs L) (h : Finish needs L x L') (hx : x ∈ L.active)
    (hpos : 0 < L'.rank x) :
    Grounded needs L' := by
  have hbegun := h.begun hg hx hpos
  refine ⟨hbegun, fun y => ?_⟩
  -- every task above `y` comes first, at any distance
  induction y using hwf.transGen.induction with
  | _ y ih =>
  intro hy hr hc
  have habove : ∀ w, TransGen needs y w → 0 < L'.rank w := by
    intro w hw
    induction hw with
    | single hstep => exact hbegun y hy (.inl hr) _ hstep
    | tail hbefore hstep ihw => exact hbegun _ (needed_above hbefore) (.inl ihw) _ hstep
  have hlift : ∀ w, TransGen needs y w → ¬ Counts needs L'.rank w →
      ∃ z, ReflTransGen needs y z ∧ z ∈ L'.active := by
    intro w hw hcw
    have hw' : TransGen (fun a b => needs b a) w y := transGen_swap.mpr hw
    obtain ⟨z, hwz, hz⟩ := ih w hw' (needed_above hw) (habove w hw) hcw
    exact ⟨z, hw.to_reflTransGen.trans hwz, hz⟩
  by_cases hact : y ∈ L'.active
  · exact ⟨y, .refl, hact⟩
  · have hyx : y ≠ x := by
      rintro rfl
      exact hc (h.newest.counts_self hwf hpos)
    by_cases hyn : needs y x
    · -- the finish put `y` out of date and did not start it
      have hidle : y ∉ L.active := fun ha => hact (h.kept y ha hyx)
      have hnot : ¬ Ready needs L L'.rank x y := fun hready => hact (h.started y hready)
      have hwait : ∃ d, needs y d ∧ ¬ Counts needs L'.rank d := by
        by_contra hall
        push Not at hall
        exact hnot ⟨hyn, hall, hc, hidle⟩
      obtain ⟨d, hd, hcd⟩ := hwait
      exact hlift d (.single hd) hcd
    · rw [h.newest.counts_iff hyn hyx] at hc
      rw [h.newest.same y hyx] at hr
      obtain ⟨z, hyz, hz⟩ := hg.watched y hy hr hc
      by_cases hzx : z = x
      · -- the open task was the finished one: what needs it directly is out of date
        subst hzx
        rcases ReflTransGen.cases_tail hyz with heq | ⟨w, hyw, hwz⟩
        · exact absurd heq.symm hyx
        · have hwx : w ≠ z := by
            rintro rfl
            exact acyclic hwf w (.single hwz)
          rcases reflTransGen_iff_eq_or_transGen.mp hyw with heq | hyw
          · exact absurd (heq ▸ hwz) hyn
          · exact hlift w hyw (h.newest.outdates hwz hwx)
      · exact ⟨z, hyz, h.kept z hz hzx⟩

/-- **A jump that returns keeps both facts.** -/
lemma Jump.grounded (hg : Grounded needs L) (h : Jump needs L x t L') (hx : x ∈ L.active)
    (hpos : 0 < L.rank x → 0 < L'.rank x) {ended : Prop} (hover : ¬ ended → x ∈ L'.active)
    (hr : Returns needs L'.rank ended x t) : Grounded needs L' := by
  have hsame : ∀ y, y ≠ x → L'.rank y = L.rank y := by
    intro y hy
    rcases h.newest with hn | he
    · exact hn.same y hy
    · rw [he]
  have hkeep : ∀ d, 0 < L.rank d → 0 < L'.rank d := by
    intro d hd
    by_cases hdx : d = x
    · exact hdx ▸ hpos (hdx ▸ hd)
    · rw [hsame d hdx]
      exact hd
  constructor
  · intro y hy hb d hd
    have hold : 0 < L.rank y ∨ y ∈ L.active → 0 < L'.rank d := fun hb' =>
      hkeep d (hg.begun y hy hb' d hd)
    by_cases hyx : y = x
    · exact hold (.inr (hyx ▸ hx))
    · rcases hb with hry | ha
      · rw [hsame y hyx] at hry
        exact hold (.inl hry)
      · rcases h.only y ha with ha | rfl
        · exact hold (.inr ha)
        · exact hr.entered hy d hd
  · intro y hy hry hc
    by_cases hbelow : ReflTransGen needs y x
    · by_cases ho : ended
      · exact ⟨t, hr.outdated ho y hy hbelow hry hc, h.started⟩
      · exact ⟨x, hbelow, hover ho⟩
    · have hyx : y ≠ x := by
        rintro rfl
        exact hbelow .refl
      have hyn : ¬ needs y x := fun hn => hbelow (.single hn)
      have hc' : ¬ Counts needs L.rank y := by
        rcases h.newest with hn | he
        · rwa [hn.counts_iff hyn hyx] at hc
        · rwa [he] at hc
      rw [hsame y hyx] at hry
      obtain ⟨z, hyz, hz⟩ := hg.watched y hy hry hc'
      refine ⟨z, hyz, h.kept z hz ?_⟩
      rintro rfl
      exact hbelow hyz

/-! ### What a finish starts on -/

/-- What is open above the started task is the finished one alone, and no other prerequisite of it
rests on the finish. -/
structure Clear (needs : α → α → Prop) (active : Set α) (x y : α) : Prop where
  quiet : ∀ p, TransGen needs y p → p ∈ active → p = x
  apart : ∀ d, needs y d → d ≠ x → ¬ TransGen needs d x

include hwf in
/-- **A started task is fresh exactly where its surroundings are clear**, in the states that are
grounded. -/
theorem Finish.fresh_iff (hg : Grounded needs L') (h : Finish needs L x L') {y : α}
    (hy : Ready needs L L'.rank x y) :
    Fresh needs L' y ↔ x ∉ L'.active ∧ Clear needs L.active x y := by
  constructor
  · intro hf
    refine ⟨(hf x (.single hy.1)).2, fun p hp ha => ?_, fun d hd hdx hdp => ?_⟩
    · by_contra hpx
      exact (hf p hp).2 (h.kept p ha hpx)
    · obtain ⟨w, hdw, hwx⟩ := TransGen.tail'_iff.mp hdp
      have hw : TransGen needs y w := TransGen.head' hd hdw
      have hwne : w ≠ x := by
        rintro rfl
        exact acyclic hwf w (.single hwx)
      exact h.newest.outdates hwx hwne (hf w hw).1
  · rintro ⟨hclosed, hclear⟩ p hp
    have hidle : ∀ q, TransGen needs y q → q ∉ L'.active := by
      intro q hq ha
      rcases h.only q ha with ha' | hready
      · exact hclosed (hclear.quiet q hq ha' ▸ ha)
      · -- a task started beside `y` and above it rests on the finish
        obtain ⟨d, hd, hdq⟩ := TransGen.head'_iff.mp hq
        have hdx : TransGen needs d x := TransGen.tail' hdq hready.1
        refine hclear.apart d hd ?_ hdx
        rintro rfl
        exact acyclic hwf d hdx
    refine ⟨?_, hidle p hp⟩
    by_contra hc
    have hpos : 0 < L'.rank p :=
      hg.begun_above (fun d hd => (hy.2.1 d hd).1) hp
    obtain ⟨z, hpz, hz⟩ := hg.watched p (needed_above hp) hpos hc
    exact hidle z (TransGen.trans_left hp hpz) hz

end Moves

end OpenRig.Reruns
