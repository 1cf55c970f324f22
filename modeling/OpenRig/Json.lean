import Mathlib.Data.Rat.Defs
import Mathlib.Data.List.Basic

/-!
JSON values as the workflow's decisions and evidence hold them, with the structural comparison
of two of them. An array is its length and its items, an object its keys and their values.
-/

namespace OpenRig

inductive Json where
  | null
  | bool (b : Bool)
  | num (n : ℚ)
  | str (s : String)
  | arr (length : ℕ) (item : ℕ → Json)
  | obj (keys : List String) (get : String → Json)

namespace Json

def ofFields (fields : List (String × Json)) : Json :=
  .obj (fields.map Prod.fst) fun k => (fields.lookup k).getD .null

def ofItems (items : List Json) : Json := .arr items.length fun i => items.getD i .null

/-- A text, or `null`. -/
def ofText? (s : Option String) : Json := (s.map .str).getD .null

/-- `v[k]` of an object. -/
def get? : Json → String → Option Json
  | .obj keys get, k => if k ∈ keys then some (get k) else none
  | _, _ => none

/-- `typeof v === "string"`, with the string. -/
def asText? : Json → Option String
  | .str s => some s
  | _ => none

/-- `isDeepEqual`: the keys may come in any order. -/
def isDeepEqual : Json → Json → Bool
  | .null, .null => true
  | .bool a, .bool b => a = b
  | .num a, .num b => a = b
  | .str a, .str b => a = b
  | .arr n f, .arr m g => n = m && (List.range n).all fun i => isDeepEqual (f i) (g i)
  | .obj ks f, .obj ls g =>
    ks.length = ls.length && ks.all fun k => k ∈ ls && isDeepEqual (f k) (g k)
  | _, _ => false

end Json

/-- `Record<string, unknown>`: the fields of an object. -/
structure Record where
  keys : List String
  get : String → Json

namespace Record

def empty : Record := ⟨[], fun _ => .null⟩

def toJson (r : Record) : Json := .obj r.keys r.get

/-- `r[k]`. -/
def get? (r : Record) (k : String) : Option Json := r.toJson.get? k

/-- `{ ...r, [k]: v }`. -/
def set (r : Record) (k : String) (v : Json) : Record :=
  ⟨if k ∈ r.keys then r.keys else r.keys ++ [k], fun j => if j = k then v else r.get j⟩

end Record

/-- `{ ...(r ?? {}), [k]: v }`. -/
def spread (r : Option Record) (k : String) (v : Json) : Record := (r.getD .empty).set k v

/-- `isDeepEqual(a ?? null, b ?? null)`. -/
def sameRecord (a b : Option Record) : Bool :=
  Json.isDeepEqual ((a.map Record.toJson).getD .null) ((b.map Record.toJson).getD .null)

end OpenRig
