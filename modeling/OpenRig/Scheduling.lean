import Mathlib.Data.Set.Basic
import Mathlib.Logic.Relation

/-!
Tasks behind prerequisites, for any task type and any relation `needs x y` (`y` must finish
before `x` starts).

A board says which tasks are done, live and failed. A scheduler that starts, at each finish, the
tasks the finish makes ready keeps two facts: whatever has started has finished prerequisites
(`Sound`), and whatever has not started waits for an unfinished one (`Covered`). Over a
well-founded relation they say that an idle board has finished every task, and that every
unfinished task waits, at the end of a chain, for a live or a failed one.
-/

namespace OpenRig.Scheduling

universe u
variable {α : Type u}

/-- Where the tasks of a schedule stand. -/
structure Board (α : Type u) where
  done : Set α
  live : Set α
  failed : Set α

namespace Board

def started (B : Board α) : Set α := B.done ∪ B.live ∪ B.failed

/-- A task stands in one place, and it started after its prerequisites finished. -/
structure Sound (needs : α → α → Prop) (B : Board α) : Prop where
  doneApart : ∀ x ∈ B.done, x ∉ B.live ∧ x ∉ B.failed
  liveApart : ∀ x ∈ B.live, x ∉ B.failed
  ready : ∀ x ∈ B.started, ∀ y, needs x y → y ∈ B.done

/-- A task that has not started waits for an unfinished prerequisite. -/
def Covered (tasks : Set α) (needs : α → α → Prop) (B : Board α) : Prop :=
  ∀ x ∈ tasks, x ∈ B.started ∨ ∃ y, needs x y ∧ y ∉ B.done

/-- The tasks the finish of `x` makes ready. -/
def readied (tasks : Set α) (needs : α → α → Prop) (B : Board α) (x : α) : Set α :=
  {y | y ∈ tasks ∧ needs y x ∧ (∀ z, needs y z → z ∈ insert x B.done) ∧ y ≠ x ∧ y ∉ B.started}

/-- A finish: the task is done, and what it makes ready starts. -/
def finish (tasks : Set α) (needs : α → α → Prop) (B : Board α) (x : α) : Board α where
  done := insert x B.done
  live := (B.live \ {x}) ∪ B.readied tasks needs x
  failed := B.failed

def fail (B : Board α) (x : α) : Board α where
  done := B.done
  live := B.live \ {x}
  failed := insert x B.failed

/-- A failed task starts again. -/
def retry (B : Board α) (x : α) : Board α where
  done := B.done
  live := insert x B.live
  failed := B.failed \ {x}

variable {tasks : Set α} {needs : α → α → Prop} {B : Board α} {x : α}

/-! ### What the moves keep -/

lemma Sound.not_self (h : B.Sound needs) (hx : x ∈ B.live) : ¬ needs x x := fun hself =>
  (h.doneApart x (h.ready x (.inl (.inr hx)) x hself)).1 hx

lemma Sound.finish (h : B.Sound needs) (hx : x ∈ B.live) :
    (B.finish tasks needs x).Sound needs where
  doneApart := by
    rintro y (rfl | hy)
    · refine ⟨?_, h.liveApart y hx⟩
      rintro (⟨-, hne⟩ | ⟨-, -, -, hne, -⟩)
      · exact hne rfl
      · exact hne rfl
    · refine ⟨?_, (h.doneApart y hy).2⟩
      rintro (⟨hl, -⟩ | ⟨-, -, -, -, hstart⟩)
      · exact (h.doneApart y hy).1 hl
      · exact hstart (.inl (.inl hy))
  liveApart := by
    rintro y (⟨hl, -⟩ | ⟨-, -, -, -, hstart⟩)
    · exact h.liveApart y hl
    · exact fun hf => hstart (.inr hf)
  ready := by
    rintro y (((rfl | hd) | (⟨hl, -⟩ | ⟨-, -, hall, -, -⟩)) | hf) z hz
    · exact .inr (h.ready y (.inl (.inr hx)) z hz)
    · exact .inr (h.ready y (.inl (.inl hd)) z hz)
    · exact .inr (h.ready y (.inl (.inr hl)) z hz)
    · exact hall z hz
    · exact .inr (h.ready y (.inr hf) z hz)

lemma Covered.finish (h : B.Covered tasks needs) :
    (B.finish tasks needs x).Covered tasks needs := by
  intro y hy
  by_cases hyx : y = x
  · exact .inl (.inl (.inl (.inl hyx)))
  · rcases h y hy with ((hd | hl) | hf) | ⟨z, hz, hzd⟩
    · exact .inl (.inl (.inl (.inr hd)))
    · exact .inl (.inl (.inr (.inl ⟨hl, hyx⟩)))
    · exact .inl (.inr hf)
    · by_cases hstart : y ∈ B.started
      · rcases hstart with (hd | hl) | hf
        · exact .inl (.inl (.inl (.inr hd)))
        · exact .inl (.inl (.inr (.inl ⟨hl, hyx⟩)))
        · exact .inl (.inr hf)
      · by_cases hall : ∀ z, needs y z → z ∈ insert x B.done
        · have hzx : z = x := (hall z hz).resolve_right hzd
          exact .inl (.inl (.inr (.inr ⟨hy, hzx ▸ hz, hall, hyx, hstart⟩)))
        · push Not at hall
          exact .inr hall

lemma Sound.fail (h : B.Sound needs) (hx : x ∈ B.live) : (B.fail x).Sound needs where
  doneApart := by
    intro y hy
    refine ⟨fun hl => (h.doneApart y hy).1 hl.1, ?_⟩
    rintro (rfl | hf)
    · exact (h.doneApart y hy).1 hx
    · exact (h.doneApart y hy).2 hf
  liveApart := by
    rintro y ⟨hl, hne⟩ (rfl | hf)
    · exact hne rfl
    · exact h.liveApart y hl hf
  ready := by
    rintro y ((hd | ⟨hl, -⟩) | (rfl | hf)) z hz
    · exact h.ready y (.inl (.inl hd)) z hz
    · exact h.ready y (.inl (.inr hl)) z hz
    · exact h.ready y (.inl (.inr hx)) z hz
    · exact h.ready y (.inr hf) z hz

lemma Covered.fail (h : B.Covered tasks needs) : (B.fail x).Covered tasks needs := by
  intro y hy
  rcases h y hy with ((hd | hl) | hf) | hwait
  · exact .inl (.inl (.inl hd))
  · by_cases hyx : y = x
    · exact .inl (.inr (.inl hyx))
    · exact .inl (.inl (.inr ⟨hl, hyx⟩))
  · exact .inl (.inr (.inr hf))
  · exact .inr hwait

lemma Sound.retry (h : B.Sound needs) (hx : x ∈ B.failed) : (B.retry x).Sound needs where
  doneApart := by
    intro y hy
    refine ⟨?_, fun hf => (h.doneApart y hy).2 hf.1⟩
    rintro (rfl | hl)
    · exact (h.doneApart y hy).2 hx
    · exact (h.doneApart y hy).1 hl
  liveApart := by
    rintro y (rfl | hl) ⟨hf, hne⟩
    · exact hne rfl
    · exact h.liveApart y hl hf
  ready := by
    rintro y ((hd | (rfl | hl)) | ⟨hf, -⟩) z hz
    · exact h.ready y (.inl (.inl hd)) z hz
    · exact h.ready y (.inr hx) z hz
    · exact h.ready y (.inl (.inr hl)) z hz
    · exact h.ready y (.inr hf) z hz

lemma Covered.retry (h : B.Covered tasks needs) : (B.retry x).Covered tasks needs := by
  intro y hy
  rcases h y hy with ((hd | hl) | hf) | hwait
  · exact .inl (.inl (.inl hd))
  · exact .inl (.inl (.inr (.inr hl)))
  · by_cases hyx : y = x
    · exact .inl (.inl (.inr (.inl hyx)))
    · exact .inl (.inr ⟨hf, hyx⟩)
  · exact .inr hwait

/-! ### What has started -/

lemma started_finish (hx : x ∈ B.live) :
    (B.finish tasks needs x).started = B.started ∪ B.readied tasks needs x := by
  ext y
  constructor
  · rintro (((rfl | hd) | (⟨hl, -⟩ | hr)) | hf)
    · exact .inl (.inl (.inr hx))
    · exact .inl (.inl (.inl hd))
    · exact .inl (.inl (.inr hl))
    · exact .inr hr
    · exact .inl (.inr hf)
  · rintro (((hd | hl) | hf) | hr)
    · exact .inl (.inl (.inr hd))
    · by_cases hyx : y = x
      · exact .inl (.inl (.inl hyx))
      · exact .inl (.inr (.inl ⟨hl, hyx⟩))
    · exact .inr hf
    · exact .inl (.inr (.inr hr))

lemma started_fail (hx : x ∈ B.live) : (B.fail x).started = B.started := by
  ext y
  constructor
  · rintro ((hd | ⟨hl, -⟩) | (rfl | hf))
    · exact .inl (.inl hd)
    · exact .inl (.inr hl)
    · exact .inl (.inr hx)
    · exact .inr hf
  · rintro ((hd | hl) | hf)
    · exact .inl (.inl hd)
    · by_cases hyx : y = x
      · exact .inr (.inl hyx)
      · exact .inl (.inr ⟨hl, hyx⟩)
    · exact .inr (.inr hf)

lemma started_retry (hx : x ∈ B.failed) : (B.retry x).started = B.started := by
  ext y
  constructor
  · rintro ((hd | (rfl | hl)) | ⟨hf, -⟩)
    · exact .inl (.inl hd)
    · exact .inr hx
    · exact .inl (.inr hl)
    · exact .inr hf
  · rintro ((hd | hl) | hf)
    · exact .inl (.inl hd)
    · exact .inl (.inr (.inr hl))
    · by_cases hyx : y = x
      · exact .inl (.inr (.inl hyx))
      · exact .inr ⟨hf, hyx⟩

/-! ### What the two facts say -/

/-- **No started task runs ahead**: everything it transitively needs is done. -/
theorem Sound.needs_done (h : B.Sound needs) (hx : x ∈ B.started) {y : α}
    (hxy : Relation.TransGen needs x y) : y ∈ B.done := by
  induction hxy with
  | single hstep => exact h.ready x hx _ hstep
  | tail _ hstep ih => exact h.ready _ (.inl (.inl ih)) _ hstep

/-- **Every unfinished task waits for a live or a failed one**, over a well-founded relation
whose prerequisites are tasks. -/
theorem Covered.waits (h : B.Covered tasks needs)
    (hclosed : ∀ x ∈ tasks, ∀ y, needs x y → y ∈ tasks)
    (hacc : Acc (fun y x => needs x y) x) (hx : x ∈ tasks) (hopen : x ∉ B.done) :
    ∃ y, Relation.ReflTransGen needs x y ∧ (y ∈ B.live ∨ y ∈ B.failed) := by
  induction hacc with
  | intro x _ ih =>
    rcases h x hx with ((hd | hl) | hf) | ⟨y, hxy, hy⟩
    · exact absurd hd hopen
    · exact ⟨x, .refl, .inl hl⟩
    · exact ⟨x, .refl, .inr hf⟩
    · obtain ⟨z, hyz, hz⟩ := ih y hxy (hclosed x hx y hxy) hy
      exact ⟨z, .head hxy hyz, hz⟩

/-- **An idle board without failures has finished every task.** -/
theorem Covered.all_done (h : B.Covered tasks needs)
    (hclosed : ∀ x ∈ tasks, ∀ y, needs x y → y ∈ tasks)
    (hacc : ∀ x ∈ tasks, Acc (fun y x => needs x y) x) (hlive : B.live = ∅)
    (hfailed : B.failed = ∅) :
    tasks ⊆ B.done := by
  intro x hx
  by_contra hopen
  obtain ⟨y, -, hy | hy⟩ := h.waits hclosed (hacc x hx) hx hopen
  · rw [hlive] at hy
    exact hy
  · rw [hfailed] at hy
    exact hy

lemma readied_fresh {y : α} (hy : y ∈ B.readied tasks needs x) : y ∉ B.started := hy.2.2.2.2

end Board

end OpenRig.Scheduling
