import Mathlib.Data.Nat.Digits.Defs

/-!
Natural numbers in decimal digits, as UTF-16 units.
-/

namespace OpenRig.Decimals

def ZERO : UInt16 := 48

def decimal (n : ℕ) : List UInt16 :=
  if n = 0 then [ZERO] else (Nat.digits 10 n).reverse.map fun d => UInt16.ofNat (48 + d)

/-- The number a text of digits stands for. -/
def parseDecimal (digits : List UInt16) : ℕ :=
  Nat.ofDigits 10 (digits.reverse.map fun c => c.toNat - 48)

def isDigitUnit (c : UInt16) : Bool := 48 ≤ c.toNat && c.toNat ≤ 57

lemma parseDecimal_decimal (n : ℕ) : parseDecimal (decimal n) = n := by
  by_cases hn : n = 0
  · subst hn
    rfl
  · simp only [parseDecimal, decimal, if_neg hn, List.map_reverse, List.reverse_reverse,
      List.map_map]
    have hid : (Nat.digits 10 n).map ((fun c : UInt16 => c.toNat - 48) ∘ fun d =>
        UInt16.ofNat (48 + d)) = Nat.digits 10 n := by
      refine List.map_congr_left (g := id) (fun d hd => ?_) |>.trans (List.map_id _)
      have hlt : d < 10 := Nat.digits_lt_base (by decide) hd
      simp only [Function.comp_apply, UInt16.toNat_ofNat', id]
      omega
    rw [hid, Nat.ofDigits_digits]

lemma decimal_ne_nil (n : ℕ) : decimal n ≠ [] := by
  by_cases hn : n = 0
  · simp [decimal, hn]
  · simpa [decimal, hn] using Nat.digits_ne_nil_iff_ne_zero.mpr hn

lemma isDigitUnit_of_mem_decimal {n : ℕ} {c : UInt16} (h : c ∈ decimal n) : isDigitUnit c := by
  by_cases hn : n = 0
  · obtain rfl : c = ZERO := by simpa [decimal, hn] using h
    decide
  · obtain ⟨d, hd, rfl⟩ := List.mem_map.mp (by simpa only [decimal, if_neg hn] using h)
    have hlt : d < 10 := Nat.digits_lt_base (by decide) (List.mem_reverse.mp hd)
    simp only [isDigitUnit, UInt16.toNat_ofNat', Bool.and_eq_true, decide_eq_true_eq]
    omega

end OpenRig.Decimals
