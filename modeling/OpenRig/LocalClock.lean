import Mathlib.Data.Int.LeastGreatest
import Mathlib.Algebra.Order.Group.Int
import Mathlib.Tactic.Linarith

/-!
A local clock: instants in milliseconds, and an offset that changes now and then.

A clock that goes back shows a minute twice, and one that jumps ahead never shows some. What decides
the rest is when the clock first comes to a time or passes it (`First`): that instant grows with the
time, and it is the first one to show the next minute that exists.
-/

namespace OpenRig.LocalClock

def MINUTE : ℤ := 60000

def HOUR : ℤ := 60 * MINUTE

def DAY : ℤ := 24 * HOUR

/-- Offsets are whole minutes of at most 14 hours; they change by at most a day, at instants at
least three days apart. -/
structure Timezone where
  offset : ℤ → ℤ
  aligned : ∀ t, MINUTE ∣ offset t
  bounded : ∀ t, |offset t| ≤ 14 * HOUR
  change : ∀ t, |offset t - offset (t - 1)| ≤ DAY
  apart : ∀ t u, t < u → offset t ≠ offset (t - 1) → offset u ≠ offset (u - 1) → 3 * DAY ≤ u - t

namespace Timezone

variable (z : Timezone)

/-- The offset changes only on a whole minute. -/
def OnMinutes : Prop := ∀ t, z.offset t ≠ z.offset (t - 1) → MINUTE ∣ t

def clock (t : ℤ) : ℤ := t + z.offset t

def minute (t : ℤ) : ℤ := MINUTE * (z.clock t / MINUTE)

/-- The first instant at which the clock has come to a time or passed it. -/
def First (x t : ℤ) : Prop := x ≤ z.minute t ∧ ∀ u < t, z.minute u < x

variable {z}

lemma minute_dvd (t : ℤ) : MINUTE ∣ z.minute t := dvd_mul_right _ _

lemma minute_le (t : ℤ) : z.minute t ≤ z.clock t := by
  unfold minute MINUTE
  omega

lemma lt_minute (t : ℤ) : z.clock t < z.minute t + MINUTE := by
  unfold minute MINUTE
  omega

lemma le_minute_iff {x : ℤ} (hx : MINUTE ∣ x) (t : ℤ) : x ≤ z.minute t ↔ x ≤ z.clock t := by
  refine ⟨fun h => h.trans (minute_le t), fun h => ?_⟩
  obtain ⟨k, rfl⟩ := hx
  unfold minute MINUTE at *
  omega

lemma offset_const {a b : ℤ} (h : ∀ v, a < v → v ≤ b → z.offset v = z.offset (v - 1)) {t : ℤ}
    (ha : a ≤ t) (hb : t ≤ b) : z.offset t = z.offset a := by
  induction t, ha using Int.leInduction with
  | base => rfl
  | succ t ha ih =>
    have hstep := h (t + 1) (by omega) hb
    rw [hstep, show t + 1 - 1 = t by omega]
    exact ih (by omega)

/-- **Within three days the offset changes at most once.** -/
lemma one_change {a b : ℤ} (hab : a ≤ b) (hshort : b - a < 3 * DAY) :
    ∃ c, (∀ t, a ≤ t → t < c → z.offset t = z.offset a) ∧
      (∀ t, a ≤ t → c ≤ t → t ≤ b → z.offset t = z.offset b) ∧
      |z.offset b - z.offset a| ≤ DAY := by
  by_cases h : ∃ v, a < v ∧ v ≤ b ∧ z.offset v ≠ z.offset (v - 1)
  · obtain ⟨c, hac, hcb, hc⟩ := h
    have hother : ∀ v, a < v → v ≤ b → v ≠ c → z.offset v = z.offset (v - 1) := by
      intro v hav hvb hne
      by_contra hv
      rcases lt_or_gt_of_ne hne with hlt | hlt
      · have := z.apart v c hlt hv hc
        omega
      · have := z.apart c v hlt hc hv
        omega
    have hbefore : ∀ t, a ≤ t → t < c → z.offset t = z.offset a := fun t ha ht =>
      offset_const (b := c - 1) (fun v h1 h2 => hother v h1 (by omega) (by omega)) ha (by omega)
    have hafter : ∀ t, c ≤ t → t ≤ b → z.offset t = z.offset c := fun t ht hb =>
      offset_const (b := b) (fun v h1 h2 => hother v (by omega) h2 (by omega)) ht hb
    refine ⟨c, hbefore, fun t _ ht hb => ?_, ?_⟩
    · rw [hafter t ht hb, hafter b hcb le_rfl]
    · rw [hafter b hcb le_rfl, ← hbefore (c - 1) (by omega) (by omega)]
      exact z.change c
  · have hconst : ∀ t, a ≤ t → t ≤ b → z.offset t = z.offset a := fun t ha hb =>
      offset_const (b := b) (fun v h1 h2 => by
        by_contra hv
        exact h ⟨v, h1, h2, hv⟩) ha hb
    refine ⟨b + 1, fun t ha ht => hconst t ha (by omega), fun t _ ht hb => by omega, ?_⟩
    rw [hconst b hab le_rfl, sub_self, abs_zero]
    decide

lemma clock_after {s t : ℤ} (h : 3 * DAY ≤ t - s) : z.clock s + DAY ≤ z.clock t := by
  have hs := abs_le.mp (z.bounded s)
  have ht := abs_le.mp (z.bounded t)
  unfold clock
  unfold DAY HOUR MINUTE at *
  omega

/-- **The clock never goes back by more than a day.** -/
lemma clock_back {s t : ℤ} (h : s ≤ t) : z.clock s - DAY ≤ z.clock t := by
  by_cases hshort : t - s < 3 * DAY
  · obtain ⟨c, -, -, hjump⟩ := one_change (z := z) h hshort
    have hjump := abs_le.mp hjump
    unfold clock
    omega
  · have hday : (0 : ℤ) ≤ DAY := by decide
    have := clock_after (z := z) (not_lt.mp hshort)
    omega

/-! ### First instants -/

lemma exists_first (x : ℤ) : ∃ t, z.First x t := by
  have hbelow : ∀ t, x ≤ z.minute t → x - 14 * HOUR ≤ t := by
    intro t ht
    have h := (abs_le.mp (z.bounded t)).2
    have := ht.trans (minute_le t)
    unfold clock at this
    omega
  have hsome : x ≤ z.minute (x + 15 * HOUR) := by
    have h := (abs_le.mp (z.bounded (x + 15 * HOUR))).1
    have hlt := lt_minute (z := z) (x + 15 * HOUR)
    unfold clock at hlt
    unfold HOUR MINUTE at *
    omega
  obtain ⟨t, ht, hmin⟩ := Int.exists_least_of_bdd (P := fun t => x ≤ z.minute t)
    ⟨x - 14 * HOUR, hbelow⟩ ⟨_, hsome⟩
  refine ⟨t, ht, fun u hu => ?_⟩
  by_contra hx
  have := hmin u (not_lt.mp hx)
  omega

variable {x y t u : ℤ}

lemma First.le_iff (h : z.First x t) : t ≤ u ↔ ∃ v ≤ u, x ≤ z.minute v := by
  constructor
  · exact fun hu => ⟨t, hu, h.1⟩
  · rintro ⟨v, hv, hx⟩
    by_contra hlt
    have := h.2 v (by omega)
    omega

lemma First.mono (h : z.First x t) (h' : z.First y u) (hxy : x ≤ y) : t ≤ u :=
  h.le_iff.mpr ⟨u, le_rfl, hxy.trans h'.1⟩

lemma First.minute_le (h : z.First x t) (hx : MINUTE ∣ x) : z.minute t ≤ x + DAY := by
  have hbefore := h.2 (t - 1) (by omega)
  have hclock : z.clock (t - 1) < x := by
    by_contra hle
    have := (le_minute_iff hx (t - 1)).mpr (not_lt.mp hle)
    omega
  have hjump := (abs_le.mp (z.change t)).2
  have := Timezone.minute_le (z := z) t
  unfold clock at *
  omega

/-- **The minute first shown is the next one that exists.** -/
lemma First.none_between (h : z.First x t) (hx : MINUTE ∣ x) (hxy : x ≤ y) (hy : y < z.minute t)
    (u : ℤ) : z.minute u ≠ y := by
  rintro rfl
  have htu : t < u := by
    refine lt_of_le_of_ne (h.le_iff.mpr ⟨u, le_rfl, hxy⟩) ?_
    rintro rfl
    omega
  have hback : z.clock u < z.clock t := by
    by_contra hle
    have := (le_minute_iff (minute_dvd t) u).mpr ((Timezone.minute_le t).trans (not_lt.mp hle))
    omega
  -- The clock jumped past the minute at `t`, and it went back over it within three days.
  have hjump : z.offset t ≠ z.offset (t - 1) := by
    intro hsame
    have hbefore := h.2 (t - 1) (by omega)
    have hlt : z.clock (t - 1) < x := by
      by_contra hle
      have := (le_minute_iff hx (t - 1)).mpr (not_lt.mp hle)
      omega
    have hat : z.clock t ≤ x := by
      unfold clock at *
      omega
    have := Timezone.minute_le (z := z) t
    omega
  by_cases hshort : u - t < 3 * DAY
  · have hconst : z.offset u = z.offset t := by
      refine offset_const (b := u) (fun v h1 h2 => ?_) htu.le le_rfl
      by_contra hv
      have := z.apart t v h1 hjump hv
      omega
    unfold clock at hback
    omega
  · have hday : (0 : ℤ) ≤ DAY := by decide
    have := clock_after (z := z) (not_lt.mp hshort)
    omega

lemma clock_of_earliest (hz : z.OnMinutes) (hmin : ∀ u < t, z.minute u ≠ z.minute t) :
    z.clock t = z.minute t := by
  by_cases hchange : z.offset t = z.offset (t - 1)
  · have hbefore := hmin (t - 1) (by omega)
    have hle := minute_le (z := z) t
    by_contra hne
    have hclock : z.clock (t - 1) = z.clock t - 1 := by
      unfold clock
      omega
    refine hbefore ?_
    unfold minute at *
    rw [hclock]
    unfold MINUTE at *
    omega
  · obtain ⟨k, hk⟩ := Int.dvd_add (hz t hchange) (z.aligned t)
    unfold minute clock
    rw [hk, Int.mul_ediv_cancel_left k (by decide)]

end Timezone

end OpenRig.LocalClock
