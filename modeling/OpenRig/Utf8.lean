import Mathlib.Algebra.Order.Ring.Nat
import Mathlib.Data.List.Basic
import Mathlib.Tactic.Common

/-!
Texts of UTF-16 units as UTF-8 bytes, and bytes read back.

A lone surrogate is written as U+FFFD. Bytes that are no UTF-8 are read as U+FFFD, one for each
longest part that could have begun a code point. So neither direction is the inverse of the other;
they are inverse between the texts without lone surrogates and the bytes that are UTF-8.
-/

namespace OpenRig.Utf8

def REPLACEMENT : ℕ := 0xFFFD

/-- The code points that are no surrogates. -/
def Scalar (c : ℕ) : Prop := c < 0xD800 ∨ 0xDFFF < c ∧ c < 0x110000

/-! ### Texts -/

def isHigh (u : UInt16) : Bool := 0xD800 ≤ u.toNat && u.toNat < 0xDC00

def isLow (u : UInt16) : Bool := 0xDC00 ≤ u.toNat && u.toNat < 0xE000

/-- A unit that is no part of a pair. -/
def single (u : UInt16) : ℕ := if isHigh u || isLow u then REPLACEMENT else u.toNat

def codePoints : List UInt16 → List ℕ
  | [] => []
  | [u] => [single u]
  | u :: v :: rest =>
    if isHigh u && isLow v then
      (0x10000 + (u.toNat - 0xD800) * 0x400 + (v.toNat - 0xDC00)) :: codePoints rest
    else single u :: codePoints (v :: rest)

def unitsOf (c : ℕ) : List UInt16 :=
  if c < 0x10000 then [UInt16.ofNat c]
  else [UInt16.ofNat (0xD800 + (c - 0x10000) / 0x400),
    UInt16.ofNat (0xDC00 + (c - 0x10000) % 0x400)]

/-- Every lone surrogate replaced. -/
def toWellFormed (s : List UInt16) : List UInt16 := (codePoints s).flatMap unitsOf

def IsWellFormed (s : List UInt16) : Prop := toWellFormed s = s

instance (s : List UInt16) : Decidable (IsWellFormed s) :=
  inferInstanceAs (Decidable (toWellFormed s = s))

/-! ### Bytes -/

def bytesOf (c : ℕ) : List UInt8 :=
  if c < 0x80 then [UInt8.ofNat c]
  else if c < 0x800 then [UInt8.ofNat (0xC0 + c / 64), UInt8.ofNat (0x80 + c % 64)]
  else if c < 0x10000 then
    [UInt8.ofNat (0xE0 + c / 64 / 64), UInt8.ofNat (0x80 + c / 64 % 64),
      UInt8.ofNat (0x80 + c % 64)]
  else
    [UInt8.ofNat (0xF0 + c / 64 / 64 / 64), UInt8.ofNat (0x80 + c / 64 / 64 % 64),
      UInt8.ofNat (0x80 + c / 64 % 64), UInt8.ofNat (0x80 + c % 64)]

def encode (s : List UInt16) : List UInt8 := (codePoints s).flatMap bytesOf

/-- A Unicode text as units, and as bytes. -/
def units (s : String) : List UInt16 := s.toList.flatMap fun c => unitsOf c.toNat

def bytes (s : String) : List UInt8 := s.toList.flatMap fun c => bytesOf c.toNat

/-- A code point begun: its bits so far, the bytes after the next one, and what the next one may
be. -/
structure Pending where
  bits : ℕ
  more : ℕ
  lower : ℕ
  upper : ℕ

/-- A byte where a code point may begin. -/
def lead (b : ℕ) : List ℕ × Option Pending :=
  if b < 0x80 then ([b], none)
  else if b < 0xC2 then ([REPLACEMENT], none)
  else if b < 0xE0 then ([], some ⟨b - 0xC0, 0, 0x80, 0xBF⟩)
  -- no longer form of a shorter code point, no surrogate
  else if b < 0xF0 then
    ([], some ⟨b - 0xE0, 1, if b = 0xE0 then 0xA0 else 0x80, if b = 0xED then 0x9F else 0xBF⟩)
  else if b < 0xF5 then
    ([], some ⟨b - 0xF0, 2, if b = 0xF0 then 0x90 else 0x80, if b = 0xF4 then 0x8F else 0xBF⟩)
  else ([REPLACEMENT], none)

/-- A byte after a code point begun. -/
def Pending.next (p : Pending) (b : ℕ) : List ℕ × Option Pending :=
  if p.lower ≤ b ∧ b ≤ p.upper then
    match p.more with
    | 0 => ([p.bits * 64 + b % 64], none)
    | more + 1 => ([], some ⟨p.bits * 64 + b % 64, more, 0x80, 0xBF⟩)
  else (REPLACEMENT :: (lead b).1, (lead b).2)

def feed (p : Option Pending) (b : ℕ) : List ℕ × Option Pending :=
  match p with
  | none => lead b
  | some p => p.next b

def scan : Option Pending → List UInt8 → List ℕ
  | none, [] => []
  | some _, [] => [REPLACEMENT]
  | p, b :: rest => (feed p b.toNat).1 ++ scan (feed p b.toNat).2 rest

def decode (bytes : List UInt8) : List UInt16 := (scan none bytes).flatMap unitsOf

/-- Bytes that some text is written as. -/
def IsUtf8 (bytes : List UInt8) : Prop := ∃ s, encode s = bytes

/-! ### A code point -/

lemma scalar_single (u : UInt16) : Scalar (single u) := by
  have hu := u.toNat_lt
  unfold single Scalar REPLACEMENT
  split
  · omega
  · rename_i h
    simp only [isHigh, isLow, Bool.or_eq_true, Bool.and_eq_true, decide_eq_true_eq] at h
    omega

lemma scalar_codePoints (s : List UInt16) : ∀ c ∈ codePoints s, Scalar c := by
  fun_induction codePoints s with
  | case1 => simp
  | case2 u => simpa using scalar_single u
  | case3 u v rest hpair ih =>
    refine List.forall_mem_cons.mpr ⟨?_, ih⟩
    simp only [isHigh, isLow, Bool.and_eq_true, decide_eq_true_eq] at hpair
    unfold Scalar
    omega
  | case4 u v rest _ ih => exact List.forall_mem_cons.mpr ⟨scalar_single u, ih⟩

lemma toNat_byte {n : ℕ} (h : n < 0x100) : (UInt8.ofNat n).toNat = n := by
  rw [UInt8.toNat_ofNat']
  exact Nat.mod_eq_of_lt h

lemma toNat_unit {n : ℕ} (h : n < 0x10000) : (UInt16.ofNat n).toNat = n := by
  rw [UInt16.toNat_ofNat']
  exact Nat.mod_eq_of_lt h

lemma scan_cons (p : Option Pending) (b : UInt8) (rest : List UInt8) :
    scan p (b :: rest) = (feed p b.toNat).1 ++ scan (feed p b.toNat).2 rest := by
  cases p <;> rfl

lemma scan_lead {b : ℕ} (hb : b < 0x100) {p : Pending} (h : lead b = ([], some p))
    (rest : List UInt8) : scan none (UInt8.ofNat b :: rest) = scan (some p) rest := by
  rw [scan_cons, toNat_byte hb, feed, h]
  rfl

lemma scan_last {c lower upper : ℕ} (hlower : lower ≤ 0x80 + c % 64)
    (hupper : 0x80 + c % 64 ≤ upper) (rest : List UInt8) :
    scan (some ⟨c / 64, 0, lower, upper⟩) (UInt8.ofNat (0x80 + c % 64) :: rest) =
      c :: scan none rest := by
  have hbits : c / 64 * 64 + (0x80 + c % 64) % 64 = c := by omega
  rw [scan_cons, toNat_byte (by omega), feed, Pending.next, if_pos ⟨hlower, hupper⟩, hbits]
  rfl

lemma scan_more {c more lower upper : ℕ} (hlower : lower ≤ 0x80 + c % 64)
    (hupper : 0x80 + c % 64 ≤ upper) (rest : List UInt8) :
    scan (some ⟨c / 64, more + 1, lower, upper⟩) (UInt8.ofNat (0x80 + c % 64) :: rest) =
      scan (some ⟨c, more, 0x80, 0xBF⟩) rest := by
  have hbits : c / 64 * 64 + (0x80 + c % 64) % 64 = c := by omega
  rw [scan_cons, toNat_byte (by omega), feed, Pending.next, if_pos ⟨hlower, hupper⟩, hbits]
  rfl

lemma lead_two {c : ℕ} (hc : 0x80 ≤ c) (hc' : c < 0x800) :
    lead (0xC0 + c / 64) = ([], some ⟨c / 64, 0, 0x80, 0xBF⟩) := by
  unfold lead
  rw [if_neg (by omega), if_neg (by omega), if_pos (by omega), Nat.add_sub_cancel_left]

lemma lead_three {c : ℕ} (hc : c < 0x10000) :
    lead (0xE0 + c / 64 / 64) = ([], some ⟨c / 64 / 64, 1,
      if 0xE0 + c / 64 / 64 = 0xE0 then 0xA0 else 0x80,
      if 0xE0 + c / 64 / 64 = 0xED then 0x9F else 0xBF⟩) := by
  unfold lead
  rw [if_neg (by omega), if_neg (by omega), if_neg (by omega), if_pos (by omega),
    Nat.add_sub_cancel_left]

lemma lead_four {c : ℕ} (hc : c < 0x110000) :
    lead (0xF0 + c / 64 / 64 / 64) = ([], some ⟨c / 64 / 64 / 64, 2,
      if 0xF0 + c / 64 / 64 / 64 = 0xF0 then 0x90 else 0x80,
      if 0xF0 + c / 64 / 64 / 64 = 0xF4 then 0x8F else 0xBF⟩) := by
  unfold lead
  rw [if_neg (by omega), if_neg (by omega), if_neg (by omega), if_neg (by omega),
    if_pos (by omega), Nat.add_sub_cancel_left]

lemma scan_bytesOf {c : ℕ} (hc : Scalar c) (rest : List UInt8) :
    scan none (bytesOf c ++ rest) = c :: scan none rest := by
  unfold Scalar at hc
  unfold bytesOf
  split
  · rename_i hone
    have hlead : lead c = ([c], none) := if_pos hone
    rw [List.singleton_append, scan_cons, toNat_byte (by omega), feed, hlead]
    rfl
  split
  · rename_i hone htwo
    simp only [List.cons_append, List.nil_append]
    rw [scan_lead (by omega) (lead_two (by omega) htwo), scan_last (by omega) (by omega)]
  split
  · rename_i htwo hthree
    simp only [List.cons_append, List.nil_append]
    rw [scan_lead (by omega) (lead_three hthree), scan_more (by split <;> omega)
      (by split <;> omega), scan_last (by omega) (by omega)]
  · rename_i hthree
    simp only [List.cons_append, List.nil_append]
    rw [scan_lead (by omega) (lead_four (by omega)), scan_more (by split <;> omega)
      (by split <;> omega), scan_more (by omega) (by omega), scan_last (by omega) (by omega)]

lemma codePoints_unitsOf {c : ℕ} (hc : Scalar c) (rest : List UInt16) :
    codePoints (unitsOf c ++ rest) = c :: codePoints rest := by
  unfold Scalar at hc
  unfold unitsOf
  split
  · rename_i hone
    have hhigh : isHigh (UInt16.ofNat c) = false := by
      rw [isHigh, toNat_unit hone, Bool.and_eq_false_iff, decide_eq_false_iff_not,
        decide_eq_false_iff_not]
      omega
    have hlow : isLow (UInt16.ofNat c) = false := by
      rw [isLow, toNat_unit hone, Bool.and_eq_false_iff, decide_eq_false_iff_not,
        decide_eq_false_iff_not]
      omega
    have hsingle : single (UInt16.ofNat c) = c := by
      rw [single, hhigh, hlow, toNat_unit hone]
      rfl
    cases rest with
    | nil => exact congrArg (fun u => [u]) hsingle
    | cons v rest =>
      rw [List.singleton_append, codePoints, hhigh, hsingle]
      rfl
  · have hhigh : isHigh (UInt16.ofNat (0xD800 + (c - 0x10000) / 0x400)) = true := by
      rw [isHigh, toNat_unit (by omega), Bool.and_eq_true, decide_eq_true_eq, decide_eq_true_eq]
      omega
    have hlow : isLow (UInt16.ofNat (0xDC00 + (c - 0x10000) % 0x400)) = true := by
      rw [isLow, toNat_unit (by omega), Bool.and_eq_true, decide_eq_true_eq, decide_eq_true_eq]
      omega
    simp only [List.cons_append, List.nil_append]
    rw [codePoints, hhigh, hlow, toNat_unit (by omega), toNat_unit (by omega), Bool.and_true,
      if_pos rfl]
    exact congrArg (· :: codePoints rest) (by omega)

/-! ### Both directions -/

lemma scan_flatMap {points : List ℕ} (h : ∀ c ∈ points, Scalar c) :
    scan none (points.flatMap bytesOf) = points := by
  induction points with
  | nil => rfl
  | cons c points ih =>
    have hpoints := ih fun c' hc' => h c' (List.mem_cons_of_mem _ hc')
    rw [List.flatMap_cons, scan_bytesOf (h c List.mem_cons_self), hpoints]

lemma codePoints_flatMap {points : List ℕ} (h : ∀ c ∈ points, Scalar c) :
    codePoints (points.flatMap unitsOf) = points := by
  induction points with
  | nil => rfl
  | cons c points ih =>
    have hpoints := ih fun c' hc' => h c' (List.mem_cons_of_mem _ hc')
    rw [List.flatMap_cons, codePoints_unitsOf (h c List.mem_cons_self), hpoints]

/-- **A text written and read** has its lone surrogates replaced. -/
theorem decode_encode (s : List UInt16) : decode (encode s) = toWellFormed s := by
  rw [decode, encode, scan_flatMap (scalar_codePoints s), toWellFormed]

lemma encode_toWellFormed (s : List UInt16) : encode (toWellFormed s) = encode s := by
  rw [encode, toWellFormed, codePoints_flatMap (scalar_codePoints s), encode]

lemma IsWellFormed.decode_encode {s : List UInt16} (h : IsWellFormed s) : decode (encode s) = s :=
  (Utf8.decode_encode s).trans h

lemma IsUtf8.encode_decode {bytes : List UInt8} (h : IsUtf8 bytes) :
    encode (decode bytes) = bytes := by
  obtain ⟨s, rfl⟩ := h
  rw [Utf8.decode_encode, encode_toWellFormed]

/-! ### Unicode texts -/

lemma scalar_char (c : Char) : Scalar c.toNat := by
  have h := c.valid
  rcases h with h | ⟨h, h'⟩
  · exact .inl h
  · exact .inr ⟨h, h'⟩

lemma codePoints_units_append (s : String) (t : List UInt16) :
    codePoints (units s ++ t) = s.toList.map Char.toNat ++ codePoints t := by
  unfold units
  induction s.toList with
  | nil => rfl
  | cons c l ih =>
    rw [List.flatMap_cons, List.append_assoc, codePoints_unitsOf (scalar_char c), ih]
    rfl

lemma IsWellFormed.units_append {t : List UInt16} (h : IsWellFormed t) (s : String) :
    IsWellFormed (units s ++ t) := by
  unfold IsWellFormed toWellFormed at h ⊢
  rw [codePoints_units_append, List.flatMap_append, h, List.flatMap_map]
  rfl

lemma isWellFormed_units (s : String) : IsWellFormed (units s) := by
  simpa using IsWellFormed.units_append (t := []) rfl s

lemma encode_units (s : String) : encode (units s) = bytes s := by
  have h := codePoints_units_append s []
  rw [List.append_nil, codePoints, List.append_nil] at h
  rw [encode, h, bytes, List.flatMap_map]

lemma isUtf8_bytes (s : String) : IsUtf8 (bytes s) := ⟨units s, encode_units s⟩

/-! ### What is read -/

/-- Every code point that can come of one begun is a scalar. -/
structure Pending.Sound (p : Pending) : Prop where
  lower : 0x80 ≤ p.lower
  upper : p.upper ≤ 0xBF
  scalar : ∀ c, (p.bits * 64 + (p.lower - 0x80)) * 64 ^ p.more ≤ c →
    c < (p.bits * 64 + (p.upper - 0x80) + 1) * 64 ^ p.more → Scalar c

lemma scalar_replacement : Scalar REPLACEMENT := by
  unfold Scalar REPLACEMENT
  omega

/-- What a byte gives and leaves. -/
structure Reads (r : List ℕ × Option Pending) : Prop where
  given : ∀ c ∈ r.1, Scalar c
  left : ∀ p, r.2 = some p → p.Sound

lemma Reads.given_only {points : List ℕ} (h : ∀ c ∈ points, Scalar c) : Reads (points, none) :=
  ⟨h, fun p (hp : none = some p) => nomatch hp⟩

lemma Reads.left_only {p : Pending} (h : p.Sound) : Reads ([], some p) := by
  refine ⟨List.forall_mem_nil _, fun q hq => ?_⟩
  rwa [← Option.some.inj hq]

lemma reads_lead (b : ℕ) : Reads (lead b) := by
  unfold lead
  split
  · refine .given_only fun c hc => ?_
    rw [List.mem_singleton.mp hc]
    unfold Scalar
    omega
  split
  · exact .given_only (List.forall_mem_singleton.mpr scalar_replacement)
  split
  · refine .left_only ⟨le_refl _, le_refl _, fun c hc hc' => ?_⟩
    simp only [pow_zero] at hc hc'
    unfold Scalar
    omega
  split
  · refine .left_only ⟨?_, ?_, fun c hc hc' => ?_⟩
    · dsimp only
      split <;> omega
    · dsimp only
      split <;> omega
    · simp only [pow_one] at hc hc'
      unfold Scalar
      split at hc <;> split at hc' <;> omega
  split
  · refine .left_only ⟨?_, ?_, fun c hc hc' => ?_⟩
    · dsimp only
      split <;> omega
    · dsimp only
      split <;> omega
    · simp only [Nat.reducePow] at hc hc'
      unfold Scalar
      split at hc <;> split at hc' <;> omega
  · exact .given_only (List.forall_mem_singleton.mpr scalar_replacement)

lemma Pending.Sound.reads_next {p : Pending} (h : p.Sound) (b : ℕ) : Reads (p.next b) := by
  unfold Pending.next
  have hlower := h.lower
  have hupper := h.upper
  split
  · rename_i hb
    have hmod : b % 64 = b - 0x80 := by omega
    split
    · rename_i hmore
      refine .given_only (List.forall_mem_singleton.mpr (h.scalar _ ?_ ?_))
      · rw [hmore, pow_zero]
        omega
      · rw [hmore, pow_zero]
        omega
    · rename_i more hmore
      refine .left_only ⟨le_refl _, le_refl _, fun c hc hc' => h.scalar c ?_ ?_⟩
      · refine le_trans ?_ hc
        rw [hmore, pow_succ', ← mul_assoc]
        exact Nat.mul_le_mul_right _ (by dsimp only; omega)
      · refine lt_of_lt_of_le hc' ?_
        rw [hmore, pow_succ', ← mul_assoc]
        exact Nat.mul_le_mul_right _ (by dsimp only; omega)
  · exact ⟨List.forall_mem_cons.mpr ⟨scalar_replacement, (reads_lead b).given⟩, (reads_lead b).left⟩

lemma scalar_scan {p : Option Pending} (h : ∀ q, p = some q → q.Sound) (bytes : List UInt8) :
    ∀ c ∈ scan p bytes, Scalar c := by
  induction bytes generalizing p with
  | nil =>
    cases p with
    | none => exact fun c hc => nomatch hc
    | some q => exact List.forall_mem_singleton.mpr scalar_replacement
  | cons b rest ih =>
    have hfeed : Reads (feed p b.toNat) := by
      cases p with
      | none => exact reads_lead _
      | some q => exact (h q rfl).reads_next _
    rw [scan_cons]
    intro c hc
    rcases List.mem_append.mp hc with hc | hc
    · exact hfeed.given c hc
    · exact ih hfeed.left c hc

/-- **Bytes are read as a text without lone surrogates.** -/
theorem isWellFormed_decode (bytes : List UInt8) : IsWellFormed (decode bytes) := by
  have hscalar := scalar_scan (p := none) (fun _ hq => nomatch hq) bytes
  rw [IsWellFormed, toWellFormed, decode, codePoints_flatMap hscalar]

end OpenRig.Utf8
