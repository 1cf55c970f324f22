import Mathlib.Data.List.Basic
import Mathlib.Tactic.IntervalCases

/-!
String and date operations of the source language, on character lists so that closed
instances evaluate: prefix, suffix and containment tests, splitting at the first separator,
the whitespace that `trim` removes, zero-padded numbers and the text of an instant.
-/

namespace OpenRig.JsText

/-- `s.startsWith(p)`. -/
def startsWith (s p : String) : Bool := p.toList.isPrefixOf s.toList

/-- `s.endsWith(p)`. -/
def endsWith (s p : String) : Bool := p.toList.isSuffixOf s.toList

/-- `s.includes(p)`. -/
def includes (s p : String) : Bool := s.toList.tails.any p.toList.isPrefixOf

/-- `s.slice(n)`. -/
def sliceFrom (n : ℕ) (s : String) : String := String.ofList (s.toList.drop n)

/-- The text before the first `c` and the text after it, when there is one. -/
def splitFirst (c : Char) (s : String) : Option (List Char × List Char) :=
  match s.toList.span (· ≠ c) with
  | (before, _ :: after) => some (before, after)
  | (_, []) => none

/-- The characters `trim` removes: white space and line terminators. -/
def isWhitespace (c : Char) : Bool :=
  [0x09, 0x0A, 0x0B, 0x0C, 0x0D, 0x20, 0xA0, 0x1680, 0x2028, 0x2029, 0x202F, 0x205F, 0x3000,
    0xFEFF].contains c.toNat || (0x2000 ≤ c.toNat && c.toNat ≤ 0x200A)

/-- `s.trim().length === 0`. -/
def isBlank (s : String) : Bool := s.toList.all isWhitespace

/-- `typeof v === "string" && v.trim().length > 0`. -/
def nonBlank (v : Option String) : Bool := v.any fun s => !isBlank s

/-- `!!v`: the empty string is falsy. -/
def truthy (v : Option String) : Bool := v.any (· ≠ "")

/-- `s.length`: characters outside the basic plane count twice. -/
def utf16Length (s : String) : ℕ := (s.toList.map fun c => if 0xFFFF < c.toNat then 2 else 1).sum

lemma startsWith_append (p s : String) : startsWith (p ++ s) p = true := by
  simp [startsWith]

/-! ### JSON text -/

/-- A character `JSON.stringify` writes as itself. -/
def jsonPlainChar (c : Char) : Bool := c ≠ '"' && c ≠ '\\' && 0x20 ≤ c.toNat

/-- A string `JSON.stringify` only puts quotes around. -/
def jsonPlain (s : String) : Bool := s.toList.all jsonPlainChar

/-- The last `w` digits of `n` in base `b ≤ 16`, most significant first. -/
def digits (b : ℕ) : ℕ → ℕ → List Char
  | 0, _ => []
  | w + 1, n => digits b w (n / b) ++ [Nat.digitChar (n % b)]

def jsonChar (c : Char) : List Char :=
  if jsonPlainChar c then [c]
  else match c.toNat with
    | 0x22 => ['\\', '"']
    | 0x5C => ['\\', '\\']
    | 0x08 => ['\\', 'b']
    | 0x09 => ['\\', 't']
    | 0x0A => ['\\', 'n']
    | 0x0C => ['\\', 'f']
    | 0x0D => ['\\', 'r']
    | n => '\\' :: 'u' :: digits 16 4 n

/-- `JSON.stringify` of a string. -/
def jsonString (s : String) : List Char := '"' :: s.toList.flatMap jsonChar ++ ['"']

/-- `JSON.stringify` of an array of strings. -/
def jsonArray (l : List String) : List Char :=
  '[' :: [','].intercalate (l.map jsonString) ++ [']']

lemma jsonString_of_plain {s : String} (h : jsonPlain s = true) :
    jsonString s = '"' :: s.toList ++ ['"'] := by
  have key : ∀ l : List Char, l.all jsonPlainChar = true → l.flatMap jsonChar = l := by
    intro l hl
    induction l with
    | nil => rfl
    | cons c l ih =>
      rw [List.all_cons, Bool.and_eq_true] at hl
      rw [List.flatMap_cons, ih hl.2]
      simp [jsonChar, hl.1]
  rw [jsonString, key _ h]

lemma jsonArray_contains {l : List String} {s : String} (h : s ∈ l) :
    ∃ before after, jsonArray l = before ++ jsonString s ++ after := by
  obtain ⟨a, b, rfl⟩ := List.append_of_mem h
  unfold jsonArray
  rw [List.map_append, List.map_cons]
  have key : ∀ (xs ys : List (List Char)) (y : List Char),
      ∃ p q, [','].intercalate (xs ++ y :: ys) = p ++ y ++ q := by
    intro xs ys y
    induction xs with
    | nil =>
      cases ys with
      | nil => exact ⟨[], [], by simp [List.intercalate]⟩
      | cons z ys =>
        exact ⟨[], ',' :: [','].intercalate (z :: ys), by simp [List.intercalate]⟩
    | cons x xs ih =>
      obtain ⟨p, q, hpq⟩ := ih
      refine ⟨x ++ ',' :: p, q, ?_⟩
      cases hxs : xs ++ y :: ys with
      | nil => simp at hxs
      | cons z zs =>
        rw [List.cons_append, hxs]
        rw [hxs] at hpq
        have : [','].intercalate (x :: z :: zs) = x ++ ',' :: [','].intercalate (z :: zs) := by
          simp [List.intercalate]
        rw [this, hpq]
        simp
  obtain ⟨p, q, hpq⟩ := key (a.map jsonString) (b.map jsonString) (jsonString s)
  exact ⟨'[' :: p, q ++ [']'], by rw [hpq]; simp⟩

/-! ### Numbers and instants -/

/-- An instant, in milliseconds since the epoch. -/
abbrev Time := ℕ

/-- Year, month and day of the proleptic Gregorian calendar. -/
def civil (t : Time) : ℕ × ℕ × ℕ :=
  let z := t / 86400000 + 719468
  let era := z / 146097
  let doe := z % 146097
  let yoe := (doe - doe / 1460 + doe / 36524 - doe / 146096) / 365
  let doy := doe - (365 * yoe + yoe / 4 - yoe / 100)
  let mp := (5 * doy + 2) / 153
  let m := if mp < 10 then mp + 3 else mp - 9
  let y := yoe + era * 400 + if m ≤ 2 then 1 else 0
  (y, m, doy - (153 * mp + 2) / 5 + 1)

/-- The year of `toISOString`: four digits, or a sign and six from the year 10000 on. -/
def yearDigits (y : ℕ) : List Char :=
  if y < 10000 then digits 10 4 y else '+' :: digits 10 6 y

/-- `new Date(t).toISOString()`. -/
def toISOString (t : Time) : String :=
  let (y, m, d) := civil t
  String.ofList (yearDigits y ++ '-' :: digits 10 2 m ++ '-' :: digits 10 2 d ++
    'T' :: digits 10 2 (t / 3600000 % 24) ++ ':' :: digits 10 2 (t / 60000 % 60) ++
    ':' :: digits 10 2 (t / 1000 % 60) ++ '.' :: digits 10 3 (t % 1000) ++ ['Z'])

/-- `toISOString().replace(/[-:T.Z]/g, "").slice(0, 14)`. -/
def stamp14 (t : Time) : List Char :=
  let (y, m, d) := civil t
  (yearDigits y ++ digits 10 2 m ++ digits 10 2 d ++ digits 10 2 (t / 3600000 % 24) ++
    digits 10 2 (t / 60000 % 60) ++ digits 10 2 (t / 1000 % 60) ++
    digits 10 3 (t % 1000)).take 14

example : toISOString 1785542400123 = "2026-08-01T00:00:00.123Z" := by decide

lemma yearDigits_head (y : ℕ) : ∃ c l, yearDigits y = c :: l ∧ c ≠ 'x' := by
  unfold yearDigits
  split
  · refine ⟨Nat.digitChar (y / 10 / 10 / 10 % 10), _, by simp only [digits]; rfl, ?_⟩
    have h : y / 10 / 10 / 10 % 10 < 10 := Nat.mod_lt _ (by omega)
    generalize y / 10 / 10 / 10 % 10 = n at h
    interval_cases n <;> decide
  · exact ⟨'+', _, rfl, by decide⟩

lemma stamp14_head (t : Time) : ∃ c l, stamp14 t = c :: l ∧ c ≠ 'x' := by
  obtain ⟨c, l, h, hc⟩ := yearDigits_head (civil t).1
  exact ⟨c, _, by simp only [stamp14, h, List.cons_append, List.take_succ_cons]; rfl, hc⟩

end OpenRig.JsText
