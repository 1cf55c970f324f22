import Mathlib.Data.List.Basic

/-!
What no Slack message may carry: the tokens and webhook addresses that `redactSecrets` takes out.

Texts are lists of UTF-16 units. Each pattern is a head of single units, white space where the
source has `\s+`, and then a run of one class, as long as it goes.
-/

namespace OpenRig.SecretRedaction

def unitsOf (s : String) : List UInt16 := s.toList.map fun c => UInt16.ofNat c.toNat

def inRange (a b : Char) (c : UInt16) : Bool := a.toNat ≤ c.toNat && c.toNat ≤ b.toNat

def isAlphanumeric (c : UInt16) : Bool :=
  inRange 'A' 'Z' c || inRange 'a' 'z' c || inRange '0' '9' c

def oneOf (s : String) (c : UInt16) : Bool := (unitsOf s).contains c

/-- `\w`. -/
def isWordUnit (c : UInt16) : Bool := isAlphanumeric c || oneOf "_" c

/-- `\s`, which is also what `trimEnd` cuts. -/
def isSpaceUnit (c : UInt16) : Bool :=
  let n := c.toNat
  (9 ≤ n && n ≤ 13) || n == 0x20 || n == 0xA0 || n == 0x1680 || (0x2000 ≤ n && n ≤ 0x200A) ||
    n == 0x2028 || n == 0x2029 || n == 0x202F || n == 0x205F || n == 0x3000 || n == 0xFEFF

structure Pattern where
  /-- `\b` before the head. -/
  wordStart : Bool := false
  head : List (UInt16 → Bool)
  /-- `\s+` after the head. -/
  spaced : Bool := false
  run : UInt16 → Bool
  /-- The run is at least this long. -/
  least : ℕ := 1

def literal (s : String) : List (UInt16 → Bool) := (unitsOf s).map fun c d => d == c

/-- A literal under the flag `i`. -/
def anyCase (s : String) : List (UInt16 → Bool) :=
  s.toList.map fun c d =>
    d == UInt16.ofNat c.toLower.toNat || d == UInt16.ofNat c.toUpper.toNat

def SECRET_PATTERNS : List Pattern :=
  [{ head := literal "xox" ++ [oneOf "baprs"] ++ literal "-",
     run := fun c => isAlphanumeric c || oneOf "-" c },
   { head := literal "xapp-", run := fun c => isAlphanumeric c || oneOf "-" c },
   { head := literal "https://hooks.slack.com/services/",
     run := fun c => isAlphanumeric c || oneOf "/_-" c },
   { wordStart := true, head := anyCase "Bearer", spaced := true,
     run := fun c => isAlphanumeric c || oneOf "._-" c, least := 12 },
   { head := literal "xoxe.xox" ++ [oneOf "bp"] ++ literal "-",
     run := fun c => isAlphanumeric c || oneOf "-" c }]

def headMatches : List (UInt16 → Bool) → List UInt16 → Bool
  | [], _ => true
  | _ :: _, [] => false
  | p :: head, c :: rest => p c && headMatches head rest

/-- How long a match at the start of the text is; none is `0`. `prev` is the unit before it. -/
def Pattern.matchLength (p : Pattern) (prev : Option UInt16) (text : List UInt16) : ℕ :=
  if p.wordStart && prev.any isWordUnit then 0
  else if !headMatches p.head text then 0
  else
    let afterHead := text.drop p.head.length
    let gap := if p.spaced then (afterHead.takeWhile isSpaceUnit).length else 0
    if p.spaced && gap == 0 then 0
    else
      let run := ((afterHead.drop gap).takeWhile p.run).length
      if run < p.least then 0 else p.head.length + gap + run

/-- `replace` with the flag `g`. `skip` units of a match are still to be passed over. -/
def Pattern.replaceFrom (p : Pattern) (replacement : List UInt16) :
    Option UInt16 → ℕ → List UInt16 → List UInt16
  | _, _, [] => []
  | _, skip + 1, c :: rest => p.replaceFrom replacement (some c) skip rest
  | prev, 0, c :: rest =>
    match p.matchLength prev (c :: rest) with
    | 0 => c :: p.replaceFrom replacement (some c) 0 rest
    | n + 1 => replacement ++ p.replaceFrom replacement (some c) n rest

/-- `test`: the pattern matches somewhere. -/
def Pattern.test (p : Pattern) : Option UInt16 → List UInt16 → Bool
  | _, [] => false
  | prev, c :: rest => 0 < p.matchLength prev (c :: rest) || p.test (some c) rest

def containsSecret (text : List UInt16) : Bool := SECRET_PATTERNS.any fun p => p.test none text

def REDACTED_SECRET : List UInt16 := unitsOf "[redacted-secret]"

def redactSecrets (text : List UInt16) : List UInt16 :=
  SECRET_PATTERNS.foldl (fun out p => p.replaceFrom REDACTED_SECRET none 0 out) text

def trimEnd (text : List UInt16) : List UInt16 := (text.reverse.dropWhile isSpaceUnit).reverse

example : redactSecrets (unitsOf "use xoxb-1a now") = unitsOf "use [redacted-secret] now" := by
  decide

end OpenRig.SecretRedaction
