import OpenRig.Delimited
import OpenRig.SecretRedaction

/-!
OpenRig's managed blocks in a guidance file that people write in too: how a block is merged into the
file, and what of the file is the people's own.

Texts are lists of UTF-16 units. A file that is not there is `none`.
-/

namespace OpenRig.ManagedBlocks

open OpenRig.Delimited OpenRig.SecretRedaction

abbrev Text := List UInt16

def NL : UInt16 := 10

/-! ### Markers -/

def MANAGED_BLOCK_START (id : Text) : Text :=
  unitsOf "<!-- BEGIN OpenRig MANAGED BLOCK: " ++ id ++ unitsOf " -->"

def MANAGED_BLOCK_END (id : Text) : Text :=
  unitsOf "<!-- END OpenRig MANAGED BLOCK: " ++ id ++ unitsOf " -->"

def LEGACY_BLOCK_START (id : Text) : Text :=
  unitsOf "<!-- BEGIN RIGGED MANAGED BLOCK: " ++ id ++ unitsOf " -->"

def LEGACY_BLOCK_END (id : Text) : Text :=
  unitsOf "<!-- END RIGGED MANAGED BLOCK: " ++ id ++ unitsOf " -->"

def current (id : Text) : Pair UInt16 := ⟨MANAGED_BLOCK_START id, MANAGED_BLOCK_END id⟩

def legacy (id : Text) : Pair UInt16 := ⟨LEGACY_BLOCK_START id, LEGACY_BLOCK_END id⟩

/-! ### Merging a block -/

def managedBlockText (blockId content : Text) : Text :=
  MANAGED_BLOCK_START blockId ++ [NL] ++ content ++ [NL] ++ MANAGED_BLOCK_END blockId

def MANAGED_BLOCK_APPEND_SEPARATOR : Text := [NL, NL]

def trim (text : Text) : Text := (trimEnd text).dropWhile isSpaceUnit

/-- A call of `mergeManagedBlock`, but for the file. -/
structure Merge where
  blockId : Text
  content : Text
  replaceBlockIds : List Text := []

namespace Merge

variable (c : Merge)

def block : Text := managedBlockText c.blockId c.content

/-- `Array.from(new Set([blockId, ...]))`. -/
def allReplaceIds : List Text := (c.blockId :: c.replaceBlockIds).eraseDups

end Merge

/-- Both markers of the id are somewhere in the file, in the current or in the legacy form. -/
def replaceable (existing id : Text) : Bool :=
  (includes existing (MANAGED_BLOCK_START id) && includes existing (MANAGED_BLOCK_END id)) ||
    (includes existing (LEGACY_BLOCK_START id) && includes existing (LEGACY_BLOCK_END id))

namespace Merge

variable (c : Merge)

def replaceableIds (existing : Text) : List Text := c.allReplaceIds.filter (replaceable existing)

/-- What the loop does to the text for one id. -/
def replaceId (updated id : Text) : Text :=
  let replacement := if id = c.blockId then c.block else []
  (legacy id).replace replacement ((current id).replace replacement updated)

end Merge

/-- One newline at the end, where there is none. -/
def endLine (text : Text) : Text := if [NL].isSuffixOf text then text else text ++ [NL]

/-- What `mergeManagedBlock` writes. -/
def mergeManagedBlock (c : Merge) : Option Text → Text
  | none => c.block
  | some existing =>
    if c.replaceableIds existing ≠ [] then
      let updated := (c.replaceableIds existing).foldl c.replaceId existing
      if !includes updated (MANAGED_BLOCK_START c.blockId) ||
          !includes updated (MANAGED_BLOCK_END c.blockId) then
        endLine (trim (trim updated ++ MANAGED_BLOCK_APPEND_SEPARATOR ++ c.block))
      else endLine updated
    else existing ++ MANAGED_BLOCK_APPEND_SEPARATOR ++ c.block

/-! ### The people's text -/

/-- A file's text with places where blocks of one id stand. -/
abbrev Placed := List (Option UInt16)

namespace Merge

variable (c : Merge)

/-- As `replaceId`, with a place for each block of the call's own id. -/
def placeId (s : Placed) (id : Text) : Placed :=
  let replacement := if id = c.blockId then [none] else []
  (legacy id).lift.replace replacement ((current id).lift.replace replacement s)

/-- The file without the matched blocks of the given ids. -/
def outside : Option Text → Placed
  | none => []
  | some existing => (c.replaceableIds existing).foldl c.placeId (plain existing)

/-- The text outside the matched blocks of the given ids. -/
def ownText (file : Option Text) : Text := (c.outside file).reduceOption

/-- How many blocks of the call's own id the file has. -/
def blocks (file : Option Text) : ℕ := (c.outside file).count none

end Merge

/-! ### What a merge keeps -/

/-- A merge keeps the text outside blocks, in its order, and adds the block at most once. -/
structure Kept (c : Merge) (before : Option Text) (after : Text) : Prop where
  block : c.block <:+: after
  added : c.blocks (some after) ≤ c.blocks before + 1
  own : (c.ownText before).Sublist (c.ownText (some after))

/-- The file after the merge was repeated. -/
def Merge.times (c : Merge) (file : Option Text) : ℕ → Option Text
  | 0 => file
  | n + 1 => some (mergeManagedBlock c (c.times file n))

/-- Each merge of a repeated one keeps the text, and after the second nothing changes any more. -/
structure KeepsText (c : Merge) (file : Option Text) : Prop where
  kept : ∀ n, Kept c (c.times file n) (mergeManagedBlock c (c.times file n))
  steady : ∀ n ≥ 2, c.times file (n + 1) = c.times file n

/-! ### When it does -/

/-- The text outside blocks, and a place at its end where the file has no block of the id. -/
def Merge.placed (c : Merge) (file : Option Text) : Placed :=
  if none ∈ c.outside file then c.outside file else c.outside file ++ [none]

/-- No opening marker of a given id stands before its closing one, and none of the block's own
before a place. -/
structure Quiet (c : Merge) (s : Placed) : Prop where
  own : (current c.blockId).Calm s
  current : ∀ id ∈ c.allReplaceIds, ¬ (current id).lift.Within s
  legacy : ∀ id ∈ c.allReplaceIds, ¬ (legacy id).lift.Within s

/-- No white space before and no more than three line breaks after, or at most one in all. -/
def Trimmed (text : Text) : Prop :=
  text = [] ∨ text = [NL] ∨ trim text ≠ [] ∧ ∃ n ≤ 3, text = trim text ++ List.replicate n NL

/-- The call replaces something in the file. -/
def Merge.Replaces (c : Merge) (file : Option Text) : Prop :=
  ∃ existing, file = some existing ∧ c.replaceableIds existing ≠ []

structure Settled (c : Merge) (file : Option Text) : Prop where
  quiet : Quiet c (c.placed file)
  trimmed : none ∉ c.outside file → c.Replaces file → Trimmed (c.ownText file)

/-- The markers of the given ids do not run into the block's text, but for its own two ends. -/
structure Merge.Apart (c : Merge) : Prop where
  own : (current c.blockId).Frames ([NL] ++ c.content ++ [NL])
  current : ∀ id ∈ c.allReplaceIds, id ≠ c.blockId →
    Delimited.Apart (MANAGED_BLOCK_START id) c.block ∧
      Delimited.Apart (MANAGED_BLOCK_END id) c.block
  legacy : ∀ id ∈ c.allReplaceIds,
    Delimited.Apart (LEGACY_BLOCK_START id) c.block ∧
      Delimited.Apart (LEGACY_BLOCK_END id) c.block

end OpenRig.ManagedBlocks
