import Mathlib.Data.List.Basic
import Mathlib.Tactic.IntervalCases

/-!
Percent escapes of text: the bytes of a character, `encodeURIComponent`, `decodeURIComponent`, and
that decoding undoes an encoding that escapes the percent sign.
-/

namespace OpenRig.UriText

abbrev Text := List Char

/-! ### Bytes -/

def utf8 (c : Char) : List ℕ :=
  let n := c.toNat
  if n < 0x80 then [n]
  else if n < 0x800 then [0xC0 + n / 64, 0x80 + n % 64]
  else if n < 0x10000 then [0xE0 + n / 4096, 0x80 + n / 64 % 64, 0x80 + n % 64]
  else [0xF0 + n / 262144, 0x80 + n / 4096 % 64, 0x80 + n / 64 % 64, 0x80 + n % 64]

def hexDigit (n : ℕ) : Char := "0123456789ABCDEF".toList.getD n '0'

def hexValue (c : Char) : Option ℕ :=
  let n := c.toNat
  if 48 ≤ n ∧ n ≤ 57 then some (n - 48)
  else if 65 ≤ n ∧ n ≤ 70 then some (n - 55)
  else if 97 ≤ n ∧ n ≤ 102 then some (n - 87)
  else none

def percent (b : ℕ) : Text := ['%', hexDigit (b / 16), hexDigit (b % 16)]

/-- The escape at the head of a text, and what follows it. -/
def unescape : Text → Option (ℕ × Text)
  | '%' :: a :: b :: rest => do
    let high ← hexValue a
    let low ← hexValue b
    some (16 * high + low, rest)
  | _ => none

lemma hexValue_hexDigit {n : ℕ} (h : n < 16) : hexValue (hexDigit n) = some n := by
  interval_cases n <;> decide

@[simp] lemma unescape_percent {b : ℕ} (h : b < 256) (rest : Text) :
    unescape (percent b ++ rest) = some (b, rest) := by
  have hhigh : b / 16 < 16 := by omega
  have hlow : b % 16 < 16 := by omega
  have hsum : 16 * (b / 16) + b % 16 = b := by omega
  simp [percent, unescape, hexValue_hexDigit hhigh, hexValue_hexDigit hlow, hsum]

lemma unescape_length {l rest : Text} {b : ℕ} (h : unescape l = some (b, rest)) :
    rest.length < l.length := by
  unfold unescape at h
  split at h
  · rename_i a b rest'
    obtain ⟨high, -, h⟩ := Option.bind_eq_some_iff.mp h
    obtain ⟨low, -, h⟩ := Option.bind_eq_some_iff.mp h
    obtain ⟨-, rfl⟩ := Prod.mk.inj (Option.some.inj h)
    simp only [List.length_cons]
    omega
  · cases h

/-! ### Encoding -/

/-- The characters `encodeURIComponent` leaves as they are. -/
def unreserved (c : Char) : Bool :=
  c.isAlphanum || "-_.!~*'()".toList.contains c

def encodeURIComponent (s : Text) : Text :=
  s.flatMap fun c => if unreserved c then [c] else (utf8 c).flatMap percent

/-- `s.replace(pattern, (ch) => encodeURIComponent(ch))`. -/
def escapeWhere (p : Char → Bool) (s : Text) : Text :=
  s.flatMap fun c => if p c then encodeURIComponent [c] else [c]

/-! ### Decoding -/

/-- A continuation byte's six bits. -/
def continuation (l : Text) : Option (ℕ × Text) := do
  let (b, rest) ← unescape l
  if 0x80 ≤ b ∧ b < 0xC0 then some (b - 0x80, rest) else none

/-- The code point of the escapes at the head of a text; malformed ones have none. -/
def codePoint (l : Text) : Option (ℕ × Text) := do
  let (b, l) ← unescape l
  if b < 0x80 then some (b, l)
  else if b < 0xC0 then none
  else if b < 0xE0 then do
    let (c, l) ← continuation l
    let n := (b - 0xC0) * 64 + c
    if 0x80 ≤ n then some (n, l) else none
  else if b < 0xF0 then do
    let (c, l) ← continuation l
    let (d, l) ← continuation l
    let n := ((b - 0xE0) * 64 + c) * 64 + d
    if 0x800 ≤ n ∧ ¬(0xD800 ≤ n ∧ n < 0xE000) then some (n, l) else none
  else if b < 0xF8 then do
    let (c, l) ← continuation l
    let (d, l) ← continuation l
    let (e, l) ← continuation l
    let n := (((b - 0xF0) * 64 + c) * 64 + d) * 64 + e
    if 0x10000 ≤ n ∧ n < 0x110000 then some (n, l) else none
  else none

lemma continuation_length {l rest : Text} {b : ℕ} (h : continuation l = some (b, rest)) :
    rest.length < l.length := by
  obtain ⟨⟨b', rest'⟩, hu, h⟩ := Option.bind_eq_some_iff.mp h
  obtain ⟨-, h⟩ := Option.ite_none_right_eq_some.mp h
  obtain ⟨-, rfl⟩ := Prod.mk.inj (Option.some.inj h)
  exact unescape_length hu

lemma codePoint_length {l rest : Text} {n : ℕ} (h : codePoint l = some (n, rest)) :
    rest.length < l.length := by
  obtain ⟨⟨b, l₁⟩, h₁, h⟩ := Option.bind_eq_some_iff.mp h
  have hl₁ := unescape_length h₁
  dsimp only at h
  split at h
  · obtain ⟨-, rfl⟩ := Prod.mk.inj (Option.some.inj h)
    exact hl₁
  split at h
  · cases h
  split at h
  · obtain ⟨⟨c, l₂⟩, h₂, h⟩ := Option.bind_eq_some_iff.mp h
    obtain ⟨-, h⟩ := Option.ite_none_right_eq_some.mp h
    obtain ⟨-, rfl⟩ := Prod.mk.inj (Option.some.inj h)
    exact (continuation_length h₂).trans hl₁
  split at h
  · obtain ⟨⟨c, l₂⟩, h₂, h⟩ := Option.bind_eq_some_iff.mp h
    obtain ⟨⟨d, l₃⟩, h₃, h⟩ := Option.bind_eq_some_iff.mp h
    obtain ⟨-, h⟩ := Option.ite_none_right_eq_some.mp h
    obtain ⟨-, rfl⟩ := Prod.mk.inj (Option.some.inj h)
    exact (continuation_length h₃).trans ((continuation_length h₂).trans hl₁)
  split at h
  · obtain ⟨⟨c, l₂⟩, h₂, h⟩ := Option.bind_eq_some_iff.mp h
    obtain ⟨⟨d, l₃⟩, h₃, h⟩ := Option.bind_eq_some_iff.mp h
    obtain ⟨⟨e, l₄⟩, h₄, h⟩ := Option.bind_eq_some_iff.mp h
    obtain ⟨-, h⟩ := Option.ite_none_right_eq_some.mp h
    obtain ⟨-, rfl⟩ := Prod.mk.inj (Option.some.inj h)
    exact (continuation_length h₄).trans
      ((continuation_length h₃).trans ((continuation_length h₂).trans hl₁))
  · cases h

/-- `decodeURIComponent`; nothing where it throws. -/
def decodeURIComponent : Text → Option Text
  | [] => some []
  | c :: rest =>
    if c = '%' then
      match _h : codePoint (c :: rest) with
      | none => none
      | some (n, rest') => (decodeURIComponent rest').map (Char.ofNat n :: ·)
    else (decodeURIComponent rest).map (c :: ·)
termination_by l => l.length
decreasing_by
  · exact codePoint_length (by assumption)
  · simp

/-! ### The round trip -/

lemma continuation_percent {k : ℕ} (h : k < 64) (rest : Text) :
    continuation (percent (0x80 + k) ++ rest) = some (k, rest) := by
  have hb : 0x80 + k < 256 := by omega
  have hk : 0x80 + k < 0xC0 := by omega
  simp [continuation, hb, hk]

lemma codePoint_utf8 (c : Char) (rest : Text) :
    codePoint ((utf8 c).flatMap percent ++ rest) = some (c.toNat, rest) := by
  have hv : c.toNat < 0xD800 ∨ 0xDFFF < c.toNat ∧ c.toNat < 0x110000 := c.valid
  unfold utf8
  generalize c.toNat = n at hv ⊢
  dsimp only
  split
  · rename_i hn
    have hb : n < 256 := by omega
    simp only [codePoint, List.flatMap_cons, List.flatMap_nil, List.append_nil,
      unescape_percent hb, Option.bind_eq_bind, Option.bind_some, if_pos hn]
  split
  · have hb : 0xC0 + n / 64 < 256 := by omega
    have hlead : ¬0xC0 + n / 64 < 0x80 ∧ ¬0xC0 + n / 64 < 0xC0 ∧ 0xC0 + n / 64 < 0xE0 := by omega
    have hn : (0xC0 + n / 64 - 0xC0) * 64 + n % 64 = n := by omega
    have hmin : 0x80 ≤ n := by omega
    simp only [codePoint, List.flatMap_cons, List.flatMap_nil, List.append_nil, List.append_assoc,
      unescape_percent hb, Option.bind_eq_bind, Option.bind_some, if_neg hlead.1,
      if_neg hlead.2.1, if_pos hlead.2.2, continuation_percent (Nat.mod_lt n (by omega)), hn,
      if_pos hmin]
  split
  · have hb : 0xE0 + n / 4096 < 256 := by omega
    have hlead : ¬0xE0 + n / 4096 < 0x80 ∧ ¬0xE0 + n / 4096 < 0xC0 ∧ ¬0xE0 + n / 4096 < 0xE0 ∧
        0xE0 + n / 4096 < 0xF0 := by omega
    have hn : ((0xE0 + n / 4096 - 0xE0) * 64 + n / 64 % 64) * 64 + n % 64 = n := by omega
    have hrange : 0x800 ≤ n ∧ ¬(0xD800 ≤ n ∧ n < 0xE000) := by omega
    simp only [codePoint, List.flatMap_cons, List.flatMap_nil, List.append_nil, List.append_assoc,
      unescape_percent hb, Option.bind_eq_bind, Option.bind_some, if_neg hlead.1,
      if_neg hlead.2.1, if_neg hlead.2.2.1, if_pos hlead.2.2.2,
      continuation_percent (Nat.mod_lt (n / 64) (by omega)),
      continuation_percent (Nat.mod_lt n (by omega)), hn, if_pos hrange]
  · have hb : 0xF0 + n / 262144 < 256 := by omega
    have hlead : ¬0xF0 + n / 262144 < 0x80 ∧ ¬0xF0 + n / 262144 < 0xC0 ∧
        ¬0xF0 + n / 262144 < 0xE0 ∧ ¬0xF0 + n / 262144 < 0xF0 ∧ 0xF0 + n / 262144 < 0xF8 := by
      omega
    have hn : (((0xF0 + n / 262144 - 0xF0) * 64 + n / 4096 % 64) * 64 + n / 64 % 64) * 64 +
        n % 64 = n := by omega
    have hrange : 0x10000 ≤ n ∧ n < 0x110000 := by omega
    simp only [codePoint, List.flatMap_cons, List.flatMap_nil, List.append_nil, List.append_assoc,
      unescape_percent hb, Option.bind_eq_bind, Option.bind_some, if_neg hlead.1,
      if_neg hlead.2.1, if_neg hlead.2.2.1, if_neg hlead.2.2.2.1, if_pos hlead.2.2.2.2,
      continuation_percent (Nat.mod_lt (n / 4096) (by omega)),
      continuation_percent (Nat.mod_lt (n / 64) (by omega)),
      continuation_percent (Nat.mod_lt n (by omega)), hn, if_pos hrange]

lemma utf8_ne_nil (c : Char) : utf8 c ≠ [] := by
  unfold utf8
  dsimp only
  repeat' split
  all_goals simp

lemma decode_escape (c : Char) (rest : Text) :
    decodeURIComponent ((utf8 c).flatMap percent ++ rest) =
      (decodeURIComponent rest).map (c :: ·) := by
  have hcp := codePoint_utf8 c rest
  obtain ⟨b, bs, hb⟩ := List.exists_cons_of_ne_nil (utf8_ne_nil c)
  rw [hb, List.flatMap_cons] at hcp ⊢
  rw [percent, List.cons_append, List.cons_append] at hcp ⊢
  rw [decodeURIComponent, if_pos rfl]
  split
  · rename_i hnone
    rw [hcp] at hnone
    cases hnone
  · rename_i n rest' hsome
    rw [hcp] at hsome
    obtain ⟨rfl, rfl⟩ := Prod.mk.inj (Option.some.inj hsome)
    rw [Char.ofNat_toNat]

lemma decode_cons {c : Char} (h : c ≠ '%') (rest : Text) :
    decodeURIComponent (c :: rest) = (decodeURIComponent rest).map (c :: ·) := by
  rw [decodeURIComponent, if_neg h]

lemma unreserved_percent : unreserved '%' = false := by decide

lemma unreserved_range {c : Char} (h : unreserved c = true) : 33 ≤ c.toNat ∧ c.toNat < 127 := by
  unfold unreserved at h
  rw [Bool.or_eq_true] at h
  rcases h with h | h
  · unfold Char.isAlphanum Char.isAlpha Char.isUpper Char.isLower Char.isDigit at h
    simp only [Bool.or_eq_true, Bool.and_eq_true, decide_eq_true_eq, ge_iff_le,
      UInt32.le_iff_toNat_le] at h
    have hA : 'A'.val.toNat = 65 := rfl
    have hZ : 'Z'.val.toNat = 90 := rfl
    have ha : 'a'.val.toNat = 97 := rfl
    have hz : 'z'.val.toNat = 122 := rfl
    have h0 : '0'.val.toNat = 48 := rfl
    have h9 : '9'.val.toNat = 57 := rfl
    unfold Char.toNat
    omega
  · have hlist : ("-_.!~*'()".toList.all fun d => 33 ≤ d.toNat && d.toNat < 127) = true := by decide
    simpa using List.all_eq_true.mp hlist c (by simpa using h)

lemma decode_of_no_percent {s : Text} (h : '%' ∉ s) : decodeURIComponent s = some s := by
  induction s with
  | nil => rw [decodeURIComponent]
  | cons c s ih =>
    have hc : c ≠ '%' := fun heq => h (List.mem_cons.mpr (.inl heq.symm))
    rw [decode_cons hc, ih fun hm => h (List.mem_cons_of_mem c hm)]
    rfl

/-- **Decoding undoes `encodeURIComponent`.** -/
theorem decode_encodeURIComponent (s : Text) :
    decodeURIComponent (encodeURIComponent s) = some s := by
  induction s with
  | nil =>
    unfold encodeURIComponent
    rw [List.flatMap_nil, decodeURIComponent]
  | cons c s ih =>
    unfold encodeURIComponent at ih ⊢
    rw [List.flatMap_cons]
    split
    · rename_i hc
      have hne : c ≠ '%' := by
        rintro rfl
        simp [unreserved_percent] at hc
      rw [List.singleton_append, decode_cons hne, ih]
      rfl
    · rw [decode_escape, ih]
      rfl

/-- **Decoding undoes the escape** of any characters that take in the percent sign. -/
theorem decode_escapeWhere {p : Char → Bool} (h : p '%' = true) (s : Text) :
    decodeURIComponent (escapeWhere p s) = some s := by
  induction s with
  | nil =>
    unfold escapeWhere
    rw [List.flatMap_nil, decodeURIComponent]
  | cons c s ih =>
    unfold escapeWhere at ih ⊢
    rw [List.flatMap_cons]
    have hone : c ≠ '%' → decodeURIComponent ([c] ++ s.flatMap fun c =>
        if p c then encodeURIComponent [c] else [c]) = some (c :: s) := by
      intro hne
      rw [List.singleton_append, decode_cons hne, ih]
      rfl
    split
    · rename_i hc
      unfold encodeURIComponent
      rw [List.flatMap_cons, List.flatMap_nil, List.append_nil]
      split
      · rename_i hu
        refine hone ?_
        rintro rfl
        simp [unreserved_percent] at hu
      · unfold encodeURIComponent at ih
        rw [decode_escape]
        exact congrArg _ ih
    · rename_i hc
      refine hone ?_
      rintro rfl
      exact hc h

/-! ### What an encoding is made of -/

lemma mem_encodeURIComponent {s : Text} {c : Char} (h : c ∈ encodeURIComponent s) :
    unreserved c = true ∨ c = '%' := by
  obtain ⟨d, -, hd⟩ := List.mem_flatMap.mp h
  split at hd
  · rename_i hu
    exact .inl (List.mem_singleton.mp hd ▸ hu)
  · obtain ⟨b, -, hb⟩ := List.mem_flatMap.mp hd
    have hdigit : ∀ n, unreserved (hexDigit n) = true := by
      intro n
      by_cases hn : n < 16
      · interval_cases n <;> decide
      · have hlen : "0123456789ABCDEF".toList.length ≤ n := by
          have : "0123456789ABCDEF".toList.length = 16 := by decide
          omega
        rw [hexDigit, List.getD_eq_getElem?_getD, List.getElem?_eq_none hlen]
        decide
    simp only [percent, List.mem_cons, List.not_mem_nil, or_false] at hb
    rcases hb with rfl | rfl | rfl
    · exact .inr rfl
    · exact .inl (hdigit _)
    · exact .inl (hdigit _)

lemma mem_escapeWhere {p : Char → Bool} {s : Text} {c : Char} (h : c ∈ escapeWhere p s) :
    p c = false ∨ unreserved c = true ∨ c = '%' := by
  obtain ⟨d, -, hd⟩ := List.mem_flatMap.mp h
  split at hd
  · exact .inr (mem_encodeURIComponent hd)
  · rename_i hp
    exact .inl (List.mem_singleton.mp hd ▸ by simpa using hp)

lemma encodeURIComponent_ne_nil {s : Text} (h : s ≠ []) : encodeURIComponent s ≠ [] := by
  intro hnil
  have hs := decode_encodeURIComponent s
  rw [hnil, decodeURIComponent] at hs
  exact h (Option.some.inj hs).symm

lemma escapeWhere_ne_nil {p : Char → Bool} (hp : p '%' = true) {s : Text} (h : s ≠ []) :
    escapeWhere p s ≠ [] := by
  intro hnil
  have hs := decode_escapeWhere hp s
  rw [hnil, decodeURIComponent] at hs
  exact h (Option.some.inj hs).symm

end OpenRig.UriText
