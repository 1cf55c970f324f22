import Mathlib.Algebra.Order.Group.Defs
import Mathlib.Data.List.Basic

/-!
Counting over a sliding window: what a log of timed entries holds of the last stretch of time, and
the bound that a check against it gives on every stretch.
-/

namespace OpenRig.SlidingWindow

variable {τ α : Type} [AddCommGroup τ] [LinearOrder τ]

/-- The entries less than `width` old. -/
def recent (time : α → τ) (width now : τ) (log : List α) : List α :=
  log.filter fun a => now - time a < width

/-- The entries from `start` on, for `width`. -/
def during (time : α → τ) (width start : τ) (log : List α) : List α :=
  log.filter fun a => start ≤ time a ∧ time a < start + width

/-- No stretch of `width` holds more than `n`. -/
def AtMost (time : α → τ) (width : τ) (n : ℕ) (log : List α) : Prop :=
  ∀ start, (during time width start log).length ≤ n

variable {time : α → τ} {width : τ} {log : List α}

lemma recent_append {now : τ} (log' : List α) :
    recent time width now (log ++ log') =
      recent time width now log ++ recent time width now log' :=
  List.filter_append ..

lemma atMost_nil {n : ℕ} : AtMost time width n [] := fun _ => by simp [during]

variable [IsOrderedAddMonoid τ]

lemma recent_recent {now later : τ} (h : now ≤ later) :
    recent time width later (recent time width now log) = recent time width later log := by
  unfold recent
  rw [List.filter_filter]
  refine List.filter_congr fun a _ => ?_
  simp only [Bool.and_eq_decide, decide_eq_true_eq, decide_eq_decide, and_iff_left_iff_imp]
  exact fun ha => lt_of_le_of_lt (sub_le_sub_right h _) ha

lemma length_during_le_recent {now start : τ} (hnow : now < start + width) :
    (during time width start log).length ≤ (recent time width now log).length := by
  refine List.Sublist.length_le (List.monotone_filter_right log fun a ha => ?_)
  simp only [decide_eq_true_eq] at ha ⊢
  calc now - time a ≤ now - start := sub_le_sub_left ha.1 now
    _ < width := by rwa [sub_lt_iff_lt_add']

/-- **The check against the last stretch bounds every stretch.** -/
lemma AtMost.snoc {n : ℕ} {a : α} (h : AtMost time width n log)
    (hroom : (recent time width (time a) log).length < n) : AtMost time width n (log ++ [a]) := by
  intro start
  by_cases ha : start ≤ time a ∧ time a < start + width
  · have hlen : (during time width start (log ++ [a])).length =
        (during time width start log).length + 1 := by
      simp [during, List.filter_append, ha]
    have hle : (during time width start log).length ≤ (recent time width (time a) log).length :=
      length_during_le_recent ha.2
    omega
  · have heq : during time width start (log ++ [a]) = during time width start log := by
      rw [during, List.filter_append, List.filter_singleton, decide_eq_false ha, cond_false,
        List.append_nil, during]
    rw [heq]
    exact h start

end OpenRig.SlidingWindow
