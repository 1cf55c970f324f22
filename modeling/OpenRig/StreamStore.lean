import Mathlib.Data.String.Basic
import Mathlib.Data.Nat.Digits.Defs
import Mathlib.Data.Prod.Lex
import OpenRig.Table
import OpenRig.JsText
import OpenRig.StreamRetention

/-!
The stream of observations: an append-only table whose items do not change after their emit, with
bodies cut to a cap that a reader can see in the body itself.
-/

namespace OpenRig.StreamStore

open OpenRig.JsText

/-! ### Bodies -/

def STREAM_BODY_CAP_BYTES : ℕ := 16 * 1024

/-- `Buffer.byteLength`. -/
def byteLength (s : String) : ℕ := (s.toList.map Char.utf8Size).sum

def marker (kept originalBytes : ℕ) : String :=
  "\n[truncated by OpenRig: kept " ++ toString kept ++ " of " ++ toString originalBytes ++
    " bytes]"

/-- The loop over the body's characters: what fits, and its bytes. -/
def keep (room : ℕ) (used : ℕ) : List Char → List Char × ℕ
  | [] => ([], used)
  | ch :: rest =>
    let n := ch.utf8Size
    if room < used + n then ([], used)
    else
      let (kept, total) := keep room (used + n) rest
      (ch :: kept, total)

structure Truncation where
  keptBytes : ℕ
  originalBytes : ℕ
  deriving DecidableEq

def capStreamBody (body : String) : String × Option Truncation :=
  let originalBytes := byteLength body
  if originalBytes ≤ STREAM_BODY_CAP_BYTES then (body, none)
  else
    let room := STREAM_BODY_CAP_BYTES - byteLength (marker STREAM_BODY_CAP_BYTES originalBytes)
    let (kept, used) := keep room 0 body.toList
    (String.ofList kept ++ marker used originalBytes, some ⟨used, originalBytes⟩)

/-! ### Tags -/

/-- A value among an item's tags: a text, or what is none with its JSON. -/
inductive Tag where
  | text (s : String)
  /-- A number, a boolean or null. -/
  | plain (json : String)
  | nested (json : String)
  deriving DecidableEq

/-- The text that `json_each` gives of a value, if it is one. -/
def Tag.eachText : Tag → Option String
  | .text s => some s
  | .plain _ => none
  | .nested json => some json

/-- The text shown: the value's own or its JSON. -/
def Tag.shown : Tag → String
  | .text s => s
  | .plain json => json
  | .nested json => json

/-- The tags of an item as they are emitted: an array, as meant, or any other JSON. -/
inductive Tags where
  | array (tags : List Tag)
  | value (tag : Tag)
  | object (json : String) (members : List Tag)
  deriving DecidableEq

/-- The values of `json_each`. -/
def Tags.each : Tags → List Tag
  | .array tags => tags
  | .value tag => [tag]
  | .object _ members => members

/-- What is no array stands for the only tag. -/
def Tags.list : Tags → List Tag
  | .array tags => tags
  | .value tag => [tag]
  | .object json _ => [.nested json]

/-! ### The table -/

/-- A row of the table; its id, time and sort key are the retention model's. -/
structure StreamItem extends StreamRetention.StreamItem String Time String where
  sourceSession : String
  body : String
  format : String
  hintType : Option String
  hintUrgency : Option String
  hintDestination : Option String
  hintTags : Option Tags
  interrupt : Bool
  archivedAt : Option Time := none
  bodyTruncated : Option Truncation
  identityProvenance : Option String

def StreamItem.id (s : StreamItem) : String := s.streamItemId

structure StreamEmitInput where
  streamItemId : Option String := none
  sourceSession : String
  body : String
  /-- No text of the language is longer. -/
  size : byteLength body < 2 ^ 53
  format : Option String := none
  hintType : Option String := none
  hintUrgency : Option String := none
  hintDestination : Option String := none
  hintTags : Option Tags := none
  interrupt : Bool := false
  identityProvenance : Option String := none

/-- The row of a new item: two fresh ids, the second the sort key. -/
def emitted (now : Time) (id sortKey : String) (input : StreamEmitInput) : StreamItem :=
  let capped := capStreamBody input.body
  { streamItemId := id
    tsEmitted := now
    streamSortKey := sortKey
    sourceSession := input.sourceSession
    body := capped.1
    format := input.format.getD "text"
    hintType := input.hintType
    hintUrgency := input.hintUrgency
    hintDestination := input.hintDestination
    hintTags := input.hintTags
    interrupt := input.interrupt
    bodyTruncated := capped.2
    identityProvenance := input.identityProvenance }

abbrev Items := Table StreamItem.id

/-- The same id returns the row that is there. -/
def emit (now : Time) (ulid sortKey : String) (items : Items) (input : StreamEmitInput) :
    Items × StreamItem :=
  let id := input.streamItemId.getD ulid
  let item := emitted now id sortKey input
  match items.get? id with
  | some existing => (items, existing)
  | none => ((items.insert? item).getD items, item)

def archived (now : Time) (s : StreamItem) : StreamItem := { s with archivedAt := some now }

lemma archived_id (now : Time) (s : StreamItem) : (archived now s).id = s.id := rfl

def archive (now : Time) (items : Items) (id : String) : Items :=
  items.updateWhere (fun s => s.id = id && s.archivedAt.isNone) (archived now) (archived_id now)

/-- `DELETE` of a retention batch. -/
def prune (items : Items) (gone : List String) : Items :=
  ⟨items.rows.filter fun s => s.id ∉ gone, items.nodup.sublist (List.filter_sublist.map _)⟩

/-! ### Sort keys -/

def position (s : StreamItem) : Time ×ₗ String := toLex (s.tsEmitted, s.streamSortKey)

/-- The sort keys and times of the items, in order of their emits. -/
def stamps (items : Items) : List (String × Time) :=
  items.rows.map fun s => (s.streamSortKey, s.tsEmitted)

lemma stamps_emit (now : Time) (ulid sortKey : String) (items : Items) (input : StreamEmitInput) :
    (stamps (emit now ulid sortKey items input).1).Sublist (stamps items ++ [(sortKey, now)]) := by
  unfold emit
  dsimp only
  split
  · exact List.sublist_append_left _ _
  · cases hins : items.insert? (emitted now (input.streamItemId.getD ulid) sortKey input) with
    | none => exact List.sublist_append_left _ _
    | some items' =>
      unfold stamps
      rw [Option.getD_some, (Table.insert?_eq_some hins).2, List.map_append]
      exact List.Sublist.refl _

lemma stamps_archive (now : Time) (items : Items) (id : String) :
    stamps (archive now items id) = stamps items := by
  unfold stamps archive Table.updateWhere
  rw [List.map_map]
  refine List.map_congr_left fun s _ => ?_
  simp only [Function.comp_apply, Table.rewrite]
  split <;> rfl

lemma stamps_prune (items : Items) (gone : List String) :
    (stamps (prune items gone)).Sublist (stamps items) :=
  List.filter_sublist.map _

/-- Sort keys are ids that are drawn once. -/
structure Fresh (keys : List (String × Time)) : Prop where
  distinct : (keys.map Prod.fst).Nodup
  nonempty : "" ∉ keys.map Prod.fst

lemma Fresh.time {keys : List (String × Time)} (h : Fresh keys) {k : String} {t t' : Time}
    (ht : (k, t) ∈ keys) (ht' : (k, t') ∈ keys) : t = t' := by
  have := List.inj_on_of_nodup_map h.distinct ht ht' rfl
  exact congrArg Prod.snd this

lemma mem_of_stamps {keys : List (String × Time)} {items : Items} (h : (stamps items).Sublist keys)
    {a : StreamItem} (ha : a ∈ items.rows) : (a.streamSortKey, a.tsEmitted) ∈ keys :=
  h.subset (List.mem_map.mpr ⟨a, ha, rfl⟩)

lemma positions_distinct {keys : List (String × Time)} (hfresh : Fresh keys) {items : Items}
    (h : (stamps items).Sublist keys) : (items.rows.map position).Nodup := by
  have hkeys : ((stamps items).map Prod.fst).Nodup := hfresh.distinct.sublist (h.map _)
  have : (stamps items).map Prod.fst = (items.rows.map position).map fun p => (ofLex p).2 := by
    simp [stamps, position]
  rw [this] at hkeys
  exact hkeys.of_map _

/-! ### What a cut keeps -/

lemma byteLength_append (s t : String) : byteLength (s ++ t) = byteLength s + byteLength t := by
  simp [byteLength]

lemma byteLength_toString_le {n k : ℕ} (hk : 0 < k) (h : n < 10 ^ k) :
    byteLength (toString n) ≤ k := by
  have hlen : (Nat.toDigits 10 n).length ≤ k := Nat.toDigits_length 10 n k hk h
  have hone : ∀ c ∈ Nat.toDigits 10 n, c.utf8Size = 1 := by
    intro c hc
    have hdigit := Nat.isDigit_of_mem_toDigits (by decide) (by decide) hc
    simp only [Char.isDigit, Bool.and_eq_true, decide_eq_true_eq, UInt32.le_iff_toNat_le] at hdigit
    have h9 : c.val.toNat ≤ 57 := hdigit.2
    refine Char.utf8Size_eq_one_iff.mpr (UInt32.le_iff_toNat_le.mpr (h9.trans (by decide)))
  rw [Nat.toString_eq_ofList_toDigits, byteLength, String.toList_ofList,
    List.map_congr_left hone, List.map_const', List.sum_replicate_nat, Nat.mul_one]
  exact hlen

lemma keep_spec (room used : ℕ) (cs : List Char) (h : used ≤ room) :
    (keep room used cs).2 = used + ((keep room used cs).1.map Char.utf8Size).sum ∧
    (keep room used cs).2 ≤ room ∧
    ∃ rest, cs = (keep room used cs).1 ++ rest ∧
      ∀ c ∈ rest.head?, room < (keep room used cs).2 + c.utf8Size := by
  induction cs generalizing used with
  | nil => simp [keep, h]
  | cons ch cs ih =>
    unfold keep
    dsimp only
    split
    · rename_i hfull
      exact ⟨by simp, h, ch :: cs, rfl, by simpa using hfull⟩
    · rename_i hfits
      obtain ⟨hused, hroom, rest, hcs, hnext⟩ := ih (used + ch.utf8Size) (not_lt.mp hfits)
      refine ⟨?_, hroom, rest, ?_, hnext⟩
      · rw [List.map_cons, List.sum_cons, hused]
        omega
      · rw [List.cons_append, ← hcs]

lemma byteLength_ofList (cs : List Char) :
    byteLength (String.ofList cs) = (cs.map Char.utf8Size).sum := by
  rw [byteLength, String.toList_ofList]

lemma byteLength_marker (kept originalBytes : ℕ) :
    byteLength (marker kept originalBytes) =
      40 + byteLength (toString kept) + byteLength (toString originalBytes) := by
  have htexts : byteLength "\n[truncated by OpenRig: kept " + byteLength " of " +
      byteLength " bytes]" = 40 := by decide +kernel
  unfold marker
  simp only [byteLength_append]
  omega

/-- **A stored body fits the cap.** It is the emitted body, or as many of its characters as fit
before a marker that tells both lengths. -/
theorem capStreamBody_spec (body : String) (h : byteLength body < 2 ^ 53) :
    byteLength (capStreamBody body).1 ≤ STREAM_BODY_CAP_BYTES ∧
    (capStreamBody body = (body, none) ∨
      ∃ kept rest used, body.toList = kept ++ rest ∧ used = (kept.map Char.utf8Size).sum ∧
        capStreamBody body = (String.ofList kept ++ marker used (byteLength body),
          some ⟨used, byteLength body⟩) ∧
        STREAM_BODY_CAP_BYTES < byteLength body ∧
        ∀ c ∈ rest.head?, STREAM_BODY_CAP_BYTES <
          used + c.utf8Size + byteLength (marker STREAM_BODY_CAP_BYTES (byteLength body))) := by
  unfold capStreamBody
  dsimp only
  split
  · rename_i hfits
    exact ⟨hfits, .inl rfl⟩
  · rename_i hlong
    obtain ⟨hused, hroom, rest, hbody, hnext⟩ := keep_spec
      (STREAM_BODY_CAP_BYTES - byteLength (marker STREAM_BODY_CAP_BYTES (byteLength body))) 0
      body.toList (Nat.zero_le _)
    obtain ⟨kept, used, hkeep⟩ : ∃ kept used, keep
        (STREAM_BODY_CAP_BYTES - byteLength (marker STREAM_BODY_CAP_BYTES (byteLength body))) 0
        body.toList = (kept, used) := ⟨_, _, rfl⟩
    rw [hkeep] at hused hroom hbody hnext ⊢
    dsimp only at hused hroom hbody hnext ⊢
    rw [Nat.zero_add] at hused
    have hdigits : byteLength (toString (byteLength body)) ≤ 16 :=
      byteLength_toString_le (by decide) (lt_of_lt_of_le h (by norm_num))
    have hcap : byteLength (toString STREAM_BODY_CAP_BYTES) = 5 := by decide +kernel
    have hmarker := byteLength_marker STREAM_BODY_CAP_BYTES (byteLength body)
    rw [hcap] at hmarker
    have hkept : byteLength (toString used) ≤ 5 := by
      refine byteLength_toString_le (by decide) (lt_of_le_of_lt hroom ?_)
      exact lt_of_le_of_lt (Nat.sub_le _ _) (by decide)
    have hcapvalue : STREAM_BODY_CAP_BYTES = 16384 := rfl
    refine ⟨?_, .inr ⟨kept, rest, used, hbody, hused, rfl, not_le.mp hlong, fun c hc => ?_⟩⟩
    · rw [byteLength_append, byteLength_ofList, ← hused, byteLength_marker]
      omega
    · have := hnext c hc
      omega

end OpenRig.StreamStore
