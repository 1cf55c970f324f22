import OpenRig.StreamStore

/-!
A page of stream items for one reader: the excerpts and the clipped metadata of its items, and the
loop that fills it while the whole serialized page fits.

Sizes are those of the text that `JSON.stringify` writes.
-/

namespace OpenRig.ReaderPages

open OpenRig.JsText OpenRig.StreamStore

def READ_PAGE_ITEMS : ℕ := 20

def READ_EXCERPT_CHARS : ℕ := 2000

def READ_PAGE_BYTES : ℕ := 64 * 1024

def FIELD_CHARS : ℕ := 256

def TAGS_BYTES : ℕ := 2048

def MAX_SAFE_INTEGER : ℕ := 2 ^ 53 - 1

/-! ### Texts -/

/-- `Buffer.byteLength`. -/
def bytes (text : List Char) : ℕ := (text.map Char.utf8Size).sum

def commas : List (List Char) → List Char
  | [] => []
  | [x] => x
  | x :: y :: rest => x ++ ',' :: commas (y :: rest)

def array (items : List (List Char)) : List Char := '[' :: commas items ++ [']']

def field (f : String × List Char) : List Char := jsonString f.1 ++ ':' :: f.2

def object (fields : List (String × List Char)) : List Char :=
  '\x7b' :: commas (fields.map field) ++ ['\x7d']

def number (n : ℕ) : List Char := (toString n).toList

def boolean (b : Bool) : List Char := if b then "true".toList else "false".toList

def textOrNull (v : Option String) : List Char :=
  match v with
  | some s => jsonString s
  | none => "null".toList

def instant (t : Time) : List Char := jsonString (toISOString t)

/-- A field that is there only when the flag is set. -/
def flag (name : String) (b : Bool) : List (String × List Char) :=
  if b then [(name, boolean true)] else []

def units (c : Char) : ℕ := if 0xFFFF < c.toNat then 2 else 1

/-- `noLoneHigh(s.slice(0, n))`: a pair that the cut would split is left out. -/
def slice (n : ℕ) : List Char → List Char
  | [] => []
  | c :: rest => if units c ≤ n then c :: slice (n - units c) rest else []

def excerptOf (body : String) : String :=
  if utf16Length body ≤ READ_EXCERPT_CHARS then body
  else String.ofList (slice READ_EXCERPT_CHARS body.toList)

/-- The clipped text, and whether something was cut. -/
def clip (value : String) : String × Bool :=
  if utf16Length value ≤ FIELD_CHARS then (value, false)
  else (String.ofList (slice FIELD_CHARS value.toList) ++ "…", true)

def clipOptional (value : Option String) : Option String × Bool :=
  match value with
  | some v => (some (clip v).1, (clip v).2)
  | none => (none, false)

/-- The loop over the tags, with the bytes used so far. -/
def clipTags (used : ℕ) : List String → List String × Bool
  | [] => ([], false)
  | tag :: rest =>
    let (value, cut) := clip tag
    let n := bytes (jsonString value) + 1
    if TAGS_BYTES < used + n then ([], true)
    else
      let (kept, cut') := clipTags (used + n) rest
      (value :: kept, cut || cut')

/-! ### Items -/

structure PageItem where
  streamItemId : String
  streamSortKey : String
  tsEmitted : Time
  sourceSession : String
  hintType : Option String
  hintUrgency : Option String
  hintDestination : Option String
  hintTags : Option (List String)
  interrupt : Bool
  bytes : ℕ
  excerpt : String
  excerptTruncated : Bool
  bodyTruncated : Option Truncation
  metadataTruncated : Bool
  deriving DecidableEq

def shownTags (r : StreamItem) : Option (List String) :=
  r.hintTags.map fun tags => tags.list.map Tag.shown

def pageItem (r : StreamItem) : PageItem :=
  let excerpt := excerptOf r.body
  let tags := (shownTags r).map (clipTags 0)
  { streamItemId := (clip r.streamItemId).1
    streamSortKey := r.streamSortKey
    tsEmitted := r.tsEmitted
    sourceSession := (clip r.sourceSession).1
    hintType := (clipOptional r.hintType).1
    hintUrgency := (clipOptional r.hintUrgency).1
    hintDestination := (clipOptional r.hintDestination).1
    hintTags := tags.map (·.1)
    interrupt := r.interrupt
    bytes := byteLength r.body
    excerpt
    excerptTruncated := utf16Length excerpt < utf16Length r.body
    bodyTruncated := r.bodyTruncated
    metadataTruncated := (clip r.streamItemId).2 || (clip r.sourceSession).2 ||
      (clipOptional r.hintType).2 || (clipOptional r.hintUrgency).2 ||
      (clipOptional r.hintDestination).2 || tags.any (·.2) }

def truncationJson (t : Truncation) : List Char :=
  object [("keptBytes", number t.keptBytes), ("originalBytes", number t.originalBytes)]

def tagsJson (tags : Option (List String)) : List Char :=
  match tags with
  | some l => array (l.map jsonString)
  | none => "null".toList

def truncationField (t : Option Truncation) : List (String × List Char) :=
  match t with
  | some t => [("bodyTruncated", truncationJson t)]
  | none => []

def PageItem.fields (x : PageItem) : List (String × List Char) :=
  [("streamItemId", jsonString x.streamItemId), ("streamSortKey", jsonString x.streamSortKey),
      ("tsEmitted", instant x.tsEmitted), ("sourceSession", jsonString x.sourceSession),
      ("hintType", textOrNull x.hintType), ("hintUrgency", textOrNull x.hintUrgency),
      ("hintDestination", textOrNull x.hintDestination), ("hintTags", tagsJson x.hintTags),
      ("interrupt", boolean x.interrupt), ("bytes", number x.bytes),
      ("excerpt", jsonString x.excerpt)] ++
    flag "excerptTruncated" x.excerptTruncated ++ truncationField x.bodyTruncated ++
    flag "metadataTruncated" x.metadataTruncated

def PageItem.json (x : PageItem) : List Char := object x.fields

/-! ### Pages -/

structure StreamSubscription where
  readerSession : String
  hintTags : List String
  hintType : Option String
  readThroughTs : Time
  readThroughKey : String
  createdBy : String
  createdAt : Time
  updatedAt : Time

structure ShownSubscription where
  readerSession : String
  hintTags : List String
  hintType : Option String
  metadataTruncated : Bool
  deriving DecidableEq

def shownSubscription (s : StreamSubscription) : ShownSubscription where
  readerSession := (clip s.readerSession).1
  hintTags := (clipTags 0 s.hintTags).1
  hintType := (clipOptional s.hintType).1
  metadataTruncated := (clip s.readerSession).2 || (clipTags 0 s.hintTags).2 ||
    (clipOptional s.hintType).2

structure Gap where
  fromTs : Time
  through : Time
  prunedItemsTotal : ℕ
  deriving DecidableEq

structure Page where
  subscription : ShownSubscription
  items : List PageItem
  readThroughTs : Time
  readThroughKey : String
  more : Bool
  unreadItems : ℕ
  unreadBytes : ℕ
  gap : Option Gap
  deriving DecidableEq

def ShownSubscription.json (s : ShownSubscription) : List Char :=
  object
    ([("readerSession", jsonString s.readerSession),
        ("hintTags", array (s.hintTags.map jsonString)), ("hintType", textOrNull s.hintType)] ++
      flag "metadataTruncated" s.metadataTruncated)

def gapDetail : String :=
  "Items in this range that weren't classified, disposed or acted on were pruned before you " ++
    "read them; some may have matched your filter."

def Gap.json (g : Gap) : List Char :=
  object
    [("reason", jsonString "retention"), ("from", instant g.fromTs), ("through", instant g.through),
      ("prunedItemsTotal", number g.prunedItemsTotal), ("detail", jsonString gapDetail)]

def gapField (gap : Option Gap) : List (String × List Char) :=
  match gap with
  | some g => [("gap", g.json)]
  | none => []

/-- The response, from the texts of its parts. -/
def response (subscription : ShownSubscription) (items : List (List Char)) (ts key : List Char)
    (more : Bool) (unreadItems unreadBytes : ℕ) (gap : Option Gap) : List Char :=
  object
    ([("subscription", subscription.json), ("items", array items),
        ("readThrough", object [("ts", ts), ("key", key)]), ("more", boolean more),
        ("unread", object [("items", number unreadItems), ("bytes", number unreadBytes)])] ++
      gapField gap)

def Page.json (p : Page) : List Char :=
  response p.subscription (p.items.map (·.json)) (instant p.readThroughTs)
    (jsonString p.readThroughKey) p.more p.unreadItems p.unreadBytes p.gap

def xs64 : String := String.ofList (List.replicate 64 'x')

def envelope (subscription : ShownSubscription) (gap : Option Gap) : List Char :=
  response subscription [] (jsonString xs64) (jsonString xs64) false MAX_SAFE_INTEGER
    MAX_SAFE_INTEGER gap

/-- The loop over the rows: the items taken, while the whole page fits. -/
def fill (first : Bool) (pageBytes : ℕ) : List StreamItem → List StreamItem
  | [] => []
  | r :: rest =>
    let size := bytes (pageItem r).json + if first then 0 else 1
    if !first && READ_PAGE_BYTES < pageBytes + size then []
    else r :: fill false (pageBytes + size) rest

/-! ### Sizes of texts -/

@[simp] lemma bytes_nil : bytes [] = 0 := rfl

@[simp] lemma bytes_cons (c : Char) (l : List Char) : bytes (c :: l) = c.utf8Size + bytes l := by
  simp [bytes]

@[simp] lemma bytes_append (l l' : List Char) : bytes (l ++ l') = bytes l + bytes l' := by
  simp [bytes]

lemma bytes_commas (x : List Char) (rest : List (List Char)) :
    bytes (commas (x :: rest)) = bytes x + (rest.map fun y => bytes y + 1).sum := by
  induction rest generalizing x with
  | nil => simp [commas]
  | cons y rest ih =>
    rw [commas, bytes_append, bytes_cons, ih, List.map_cons, List.sum_cons]
    have : Char.utf8Size ',' = 1 := by decide
    omega

lemma bytes_array (items : List (List Char)) : bytes (array items) = 2 + bytes (commas items) := by
  unfold array
  rw [List.cons_append, bytes_cons, bytes_append, bytes_cons, bytes_nil]
  have h : Char.utf8Size '[' = 1 := by decide
  have h' : Char.utf8Size ']' = 1 := by decide
  omega

lemma bytes_array_le (items : List (List Char)) :
    bytes (array items) ≤ 2 + (items.map fun y => bytes y + 1).sum := by
  rw [bytes_array]
  cases items with
  | nil => simp [commas]
  | cons x rest =>
    rw [bytes_commas, List.map_cons, List.sum_cons]
    omega

lemma bytes_field (f : String × List Char) :
    bytes (field f) = bytes (jsonString f.1) + 1 + bytes f.2 := by
  unfold field
  rw [bytes_append, bytes_cons]
  have : Char.utf8Size ':' = 1 := by decide
  omega

lemma bytes_object (f : String × List Char) (rest : List (String × List Char)) :
    bytes (object (f :: rest)) =
      2 + bytes (field f) + (rest.map fun g => bytes (field g) + 1).sum := by
  unfold object
  rw [List.cons_append, bytes_cons, bytes_append, bytes_cons, bytes_nil, List.map_cons,
    bytes_commas, List.map_map]
  have h : Char.utf8Size '\x7b' = 1 := by decide
  have h' : Char.utf8Size '\x7d' = 1 := by decide
  simp only [Function.comp_def]
  omega

/-- The fields of an object, each with its comma. -/
def fieldBytes (fields : List (String × List Char)) : ℕ :=
  (fields.map fun g => bytes (field g) + 1).sum

lemma fieldBytes_nil : fieldBytes [] = 0 := rfl

lemma fieldBytes_cons (name : String) (v : List Char) (rest : List (String × List Char)) :
    fieldBytes ((name, v) :: rest) = bytes (jsonString name) + bytes v + 2 + fieldBytes rest := by
  have hfield : bytes (field (name, v)) = bytes (jsonString name) + 1 + bytes v := bytes_field _
  unfold fieldBytes
  rw [List.map_cons, List.sum_cons, hfield]
  omega

lemma fieldBytes_append (fs gs : List (String × List Char)) :
    fieldBytes (fs ++ gs) = fieldBytes fs + fieldBytes gs := by
  unfold fieldBytes
  rw [List.map_append, List.sum_append]

lemma bytes_object_eq (f : String × List Char) (rest : List (String × List Char)) :
    bytes (object (f :: rest)) = 1 + fieldBytes (f :: rest) := by
  rw [bytes_object, fieldBytes, List.map_cons, List.sum_cons]
  omega

lemma bytes_object_le (fields : List (String × List Char)) :
    bytes (object fields) ≤ 2 + fieldBytes fields := by
  cases fields with
  | nil => decide
  | cons f rest =>
    rw [bytes_object_eq]
    omega

lemma units_pos (c : Char) : 1 ≤ units c := by
  unfold units
  split <;> omega

lemma utf16Length_cons (c : Char) (l : List Char) :
    utf16Length (String.ofList (c :: l)) = units c + utf16Length (String.ofList l) := by
  simp [utf16Length, units]

lemma utf16Length_append (s t : String) :
    utf16Length (s ++ t) = utf16Length s + utf16Length t := by
  simp [utf16Length]

lemma utf16Length_slice (n : ℕ) (l : List Char) : utf16Length (String.ofList (slice n l)) ≤ n := by
  induction l generalizing n with
  | nil => simp [slice, utf16Length]
  | cons c rest ih =>
    unfold slice
    split
    · rw [utf16Length_cons]
      have := ih (n - units c)
      omega
    · simp [utf16Length]

lemma digitChar_plain (n : ℕ) :
    jsonPlainChar (Nat.digitChar n) = true ∧ (Nat.digitChar n).utf8Size = 1 := by
  by_cases h : n < 16
  · interval_cases n <;> decide
  · have hstar : Nat.digitChar n = '*' := by
      unfold Nat.digitChar
      repeat rw [if_neg (by omega)]
    rw [hstar]
    decide

lemma digits_plain (b w n : ℕ) :
    (digits b w n).length = w ∧
      ∀ c ∈ digits b w n, jsonPlainChar c = true ∧ c.utf8Size = 1 := by
  induction w generalizing n with
  | zero => simp [digits]
  | succ w ih =>
    obtain ⟨hlen, hall⟩ := ih (n / b)
    unfold digits
    refine ⟨by simp [hlen], fun c hc => ?_⟩
    rcases List.mem_append.mp hc with hc | hc
    · exact hall c hc
    · rw [List.mem_singleton.mp hc]
      exact digitChar_plain _

lemma bytes_of_one {l : List Char} (h : ∀ c ∈ l, c.utf8Size = 1) : bytes l = l.length := by
  rw [bytes, List.map_congr_left h, List.map_const', List.sum_replicate_nat, Nat.mul_one]

def plainByte (c : Char) : Bool := jsonPlainChar c && c.utf8Size == 1

lemma bytes_plain {s : String} {l : List Char} (hs : s.toList = l) (h : l.all plainByte = true) :
    bytes (jsonString s) = l.length + 2 := by
  have hall : ∀ c ∈ l, jsonPlainChar c = true ∧ c.utf8Size = 1 := by
    intro c hc
    simpa [plainByte] using List.all_eq_true.mp h c hc
  have hjson : jsonPlain s = true := by
    rw [jsonPlain, hs]
    exact List.all_eq_true.mpr fun c hc => (hall c hc).1
  have hquote : Char.utf8Size '"' = 1 := by decide
  rw [jsonString_of_plain hjson, hs, List.cons_append, bytes_cons, bytes_append, bytes_cons,
    bytes_nil, bytes_of_one fun c hc => (hall c hc).2, hquote]
  omega

lemma bytes_literal {l : List Char} (h : l.all plainByte = true) :
    bytes (jsonString (String.ofList l)) = l.length + 2 :=
  bytes_plain String.toList_ofList h

lemma bytes_digits (b w n : ℕ) : bytes (digits b w n) = w := by
  rw [bytes_of_one fun c hc => ((digits_plain b w n).2 c hc).2, (digits_plain b w n).1]

lemma bytes_jsonChar (c : Char) : bytes (jsonChar c) ≤ 6 * units c := by
  have hunits := units_pos c
  have hslash : Char.utf8Size '\\' = 1 := by decide
  unfold jsonChar
  split
  · rw [bytes_cons, bytes_nil]
    have := c.utf8Size_le_four
    omega
  · split <;> rw [bytes_cons, bytes_cons, hslash]
    on_goal 8 =>
      rw [bytes_digits]
      have : Char.utf8Size 'u' = 1 := by decide
      omega
    all_goals
      rw [bytes_nil]
      have h1 : Char.utf8Size '"' = 1 := by decide
      have h2 : Char.utf8Size 'b' = 1 := by decide
      have h3 : Char.utf8Size 't' = 1 := by decide
      have h4 : Char.utf8Size 'n' = 1 := by decide
      have h5 : Char.utf8Size 'f' = 1 := by decide
      have h6 : Char.utf8Size 'r' = 1 := by decide
      omega

lemma bytes_jsonString (s : String) : bytes (jsonString s) ≤ 2 + 6 * utf16Length s := by
  have hquote : Char.utf8Size '"' = 1 := by decide
  have hchars : ∀ l : List Char, bytes (l.flatMap jsonChar) ≤ 6 * (l.map units).sum := by
    intro l
    induction l with
    | nil => simp
    | cons c l ih =>
      rw [List.flatMap_cons, bytes_append, List.map_cons, List.sum_cons]
      have := bytes_jsonChar c
      omega
  have := hchars s.toList
  unfold jsonString
  rw [List.cons_append, bytes_cons, bytes_append, bytes_cons, bytes_nil, hquote]
  change _ ≤ 2 + 6 * (s.toList.map units).sum
  omega

/-- Characters of one byte that are written as themselves. -/
def Plain (l : List Char) : Prop := ∀ c ∈ l, jsonPlainChar c = true ∧ c.utf8Size = 1

lemma Plain.append {l l' : List Char} (h : Plain l) (h' : Plain l') : Plain (l ++ l') := by
  intro c hc
  exact (List.mem_append.mp hc).elim (h c) (h' c)

lemma plain_digits (w n : ℕ) : Plain (digits 10 w n) := (digits_plain 10 w n).2

lemma plain_after {c : Char} (hc : jsonPlainChar c = true ∧ c.utf8Size = 1) (w n : ℕ) :
    Plain (c :: digits 10 w n) :=
  List.forall_mem_cons.mpr ⟨hc, plain_digits w n⟩

lemma plain_toISOString (t : Time) :
    Plain (toISOString t).toList ∧ (toISOString t).toList.length ≤ 27 := by
  have hyear : ∀ y, Plain (yearDigits y) ∧ (yearDigits y).length ≤ 7 := by
    intro y
    unfold yearDigits
    split
    · exact ⟨plain_digits 4 y, by rw [(digits_plain 10 4 y).1]; omega⟩
    · refine ⟨plain_after (by decide) 6 y, ?_⟩
      rw [List.length_cons, (digits_plain 10 6 y).1]
  have hlen := fun w n => (digits_plain 10 w n).1
  obtain ⟨hplain, hyearlen⟩ := hyear (civil t).1
  unfold toISOString
  dsimp only
  rw [String.toList_ofList]
  constructor
  · have hdate := (hplain.append (plain_after (c := '-') (by decide) 2 (civil t).2.1)).append
      (plain_after (c := '-') (by decide) 2 (civil t).2.2)
    have htime := ((hdate.append (plain_after (c := 'T') (by decide) 2 (t / 3600000 % 24))).append
      (plain_after (c := ':') (by decide) 2 (t / 60000 % 60))).append
        (plain_after (c := ':') (by decide) 2 (t / 1000 % 60))
    exact (htime.append (plain_after (c := '.') (by decide) 3 (t % 1000))).append
      (plain_after (c := 'Z') (by decide) 0 0)
  · simp only [List.length_append, List.length_cons, List.length_nil, hlen]
    omega

lemma bytes_jsonString_plain {s : String} (h : Plain s.toList) :
    bytes (jsonString s) = 2 + s.toList.length := by
  have hquote : Char.utf8Size '"' = 1 := by decide
  rw [jsonString_of_plain (List.all_eq_true.mpr fun c hc => (h c hc).1), List.cons_append,
    bytes_cons, bytes_append, bytes_cons, bytes_nil, hquote, bytes_of_one fun c hc => (h c hc).2]
  omega

lemma bytes_instant (t : Time) : bytes (instant t) ≤ 29 := by
  obtain ⟨hplain, hlen⟩ := plain_toISOString t
  unfold instant
  rw [bytes_jsonString_plain hplain]
  omega

lemma bytes_number {n : ℕ} (h : n < 2 ^ 53) : bytes (number n) ≤ 16 :=
  byteLength_toString_le (by decide) (lt_of_lt_of_le h (by norm_num))

lemma bytes_boolean (b : Bool) : bytes (boolean b) ≤ 5 := by cases b <;> decide

/-! ### The size of an item -/

lemma utf16Length_clip (v : String) : utf16Length (clip v).1 ≤ 257 := by
  have hdots : utf16Length "…" = 1 := by decide
  unfold clip
  split
  · rename_i h
    exact h.trans (by decide)
  · rw [utf16Length_append, hdots]
    have := utf16Length_slice FIELD_CHARS v.toList
    have hfield : FIELD_CHARS = 256 := rfl
    omega

lemma bytes_clip (v : String) : bytes (jsonString (clip v).1) ≤ 1544 := by
  have h := bytes_jsonString (clip v).1
  have := utf16Length_clip v
  omega

lemma bytes_clipOptional (v : Option String) : bytes (textOrNull (clipOptional v).1) ≤ 1544 := by
  cases v with
  | some v => exact bytes_clip v
  | none => decide

lemma bytes_clipTags (used : ℕ) (h : used ≤ TAGS_BYTES) (tags : List String) :
    used + ((clipTags used tags).1.map fun v => bytes (jsonString v) + 1).sum ≤ TAGS_BYTES := by
  induction tags generalizing used with
  | nil => simpa [clipTags] using h
  | cons tag rest ih =>
    unfold clipTags
    dsimp only
    split
    · simpa using h
    · rename_i hfits
      have := ih _ (not_lt.mp hfits)
      rw [List.map_cons, List.sum_cons]
      omega

lemma bytes_tags (tags : List String) :
    bytes (array ((clipTags 0 tags).1.map jsonString)) ≤ 2050 := by
  have h := bytes_array_le ((clipTags 0 tags).1.map jsonString)
  have htags := bytes_clipTags 0 (Nat.zero_le _) tags
  rw [List.map_map] at h
  simp only [Function.comp_def] at h
  have hcap : TAGS_BYTES = 2048 := rfl
  omega

lemma bytes_tagsJson (tags : Option (List String)) :
    bytes (tagsJson ((tags.map (clipTags 0)).map (·.1))) ≤ 2050 := by
  cases tags with
  | some l => exact bytes_tags l
  | none => decide

lemma bytes_excerptOf (body : String) : bytes (jsonString (excerptOf body)) ≤ 12002 := by
  have h := bytes_jsonString (excerptOf body)
  have hlen : utf16Length (excerptOf body) ≤ 2000 := by
    unfold excerptOf
    split
    · assumption
    · exact utf16Length_slice 2000 body.toList
  omega

/-- What the store keeps of an item has numbers and a key of bounded size. -/
structure Stored (r : StreamItem) : Prop where
  key : bytes (jsonString r.streamSortKey) ≤ 66
  body : byteLength r.body < 2 ^ 53
  truncation : ∀ t ∈ r.bodyTruncated, t.keptBytes < 2 ^ 53 ∧ t.originalBytes < 2 ^ 53

lemma fieldBytes_flag (name : String) (b : Bool) :
    fieldBytes (flag name b) ≤ bytes (jsonString name) + 6 := by
  unfold flag
  split
  · rw [fieldBytes_cons, fieldBytes_nil]
    have : bytes (boolean true) = 4 := by decide
    omega
  · exact Nat.zero_le _

lemma bytes_truncationJson {t : Truncation} (h : t.keptBytes < 2 ^ 53)
    (h' : t.originalBytes < 2 ^ 53) : bytes (truncationJson t) ≤ 80 := by
  have hk : bytes (jsonString "keptBytes") = 11 := bytes_literal (by decide)
  have ho : bytes (jsonString "originalBytes") = 15 := bytes_literal (by decide)
  have hkn := bytes_number h
  have hon := bytes_number h'
  unfold truncationJson
  rw [bytes_object_eq, fieldBytes_cons, fieldBytes_cons, fieldBytes_nil]
  omega

lemma bytes_names : bytes (jsonString "streamItemId") = 14 ∧
    bytes (jsonString "streamSortKey") = 15 ∧
    bytes (jsonString "tsEmitted") = 11 ∧ bytes (jsonString "sourceSession") = 15 ∧
    bytes (jsonString "hintType") = 10 ∧ bytes (jsonString "hintUrgency") = 13 ∧
    bytes (jsonString "hintDestination") = 17 ∧ bytes (jsonString "hintTags") = 10 ∧
    bytes (jsonString "interrupt") = 11 ∧ bytes (jsonString "bytes") = 7 ∧
    bytes (jsonString "excerpt") = 9 ∧ bytes (jsonString "excerptTruncated") = 18 ∧
    bytes (jsonString "metadataTruncated") = 19 := by
  refine ⟨?_, ?_, ?_, ?_, ?_, ?_, ?_, ?_, ?_, ?_, ?_, ?_, ?_⟩ <;> exact bytes_literal (by decide)

lemma fieldBytes_truncation {t : Option Truncation}
    (h : ∀ u ∈ t, u.keptBytes < 2 ^ 53 ∧ u.originalBytes < 2 ^ 53) :
    fieldBytes (truncationField t) ≤ 100 := by
  cases t with
  | none => exact Nat.zero_le _
  | some u =>
    obtain ⟨hkept, horiginal⟩ := h u rfl
    have hsize := bytes_truncationJson hkept horiginal
    have hname : bytes (jsonString "bodyTruncated") = 15 := bytes_literal (by decide)
    rw [truncationField, fieldBytes_cons, fieldBytes_nil]
    omega

lemma fieldBytes_fields (x : PageItem) : fieldBytes x.fields ≤
    bytes (jsonString x.streamItemId) + bytes (jsonString x.streamSortKey) +
      bytes (instant x.tsEmitted) + bytes (jsonString x.sourceSession) +
      bytes (textOrNull x.hintType) + bytes (textOrNull x.hintUrgency) +
      bytes (textOrNull x.hintDestination) + bytes (tagsJson x.hintTags) +
      bytes (boolean x.interrupt) + bytes (number x.bytes) + bytes (jsonString x.excerpt) +
      fieldBytes (truncationField x.bodyTruncated) + 203 := by
  obtain ⟨h₁, h₂, h₃, h₄, h₅, h₆, h₇, h₈, h₉, h₁₀, h₁₁, h₁₂, h₁₃⟩ := bytes_names
  have hcut := fieldBytes_flag "excerptTruncated" x.excerptTruncated
  have hmeta := fieldBytes_flag "metadataTruncated" x.metadataTruncated
  unfold PageItem.fields
  rw [fieldBytes_append, fieldBytes_append, fieldBytes_append]
  repeat rw [fieldBytes_cons]
  rw [fieldBytes_nil, h₁, h₂, h₃, h₄, h₅, h₆, h₇, h₈, h₉, h₁₀, h₁₁]
  rw [h₁₂] at hcut
  rw [h₁₃] at hmeta
  omega

/-- **An item of a page is small**, whatever was emitted. -/
lemma bytes_pageItem {r : StreamItem} (h : Stored r) : bytes (pageItem r).json ≤ 24000 := by
  have hkey : bytes (jsonString (pageItem r).streamSortKey) ≤ 66 := h.key
  have hbody : bytes (number (pageItem r).bytes) ≤ 16 := bytes_number h.body
  have hid : bytes (jsonString (pageItem r).streamItemId) ≤ 1544 := bytes_clip _
  have hsource : bytes (jsonString (pageItem r).sourceSession) ≤ 1544 := bytes_clip _
  have htype : bytes (textOrNull (pageItem r).hintType) ≤ 1544 := bytes_clipOptional _
  have hurgency : bytes (textOrNull (pageItem r).hintUrgency) ≤ 1544 := bytes_clipOptional _
  have hdestination : bytes (textOrNull (pageItem r).hintDestination) ≤ 1544 :=
    bytes_clipOptional _
  have htags : bytes (tagsJson (pageItem r).hintTags) ≤ 2050 := bytes_tagsJson _
  have hexcerpt : bytes (jsonString (pageItem r).excerpt) ≤ 12002 := bytes_excerptOf _
  have hts := bytes_instant (pageItem r).tsEmitted
  have hinterrupt := bytes_boolean (pageItem r).interrupt
  have htruncation : fieldBytes (truncationField (pageItem r).bodyTruncated) ≤ 100 :=
    fieldBytes_truncation h.truncation
  have hall := fieldBytes_fields (pageItem r)
  have hobject := bytes_object_le (pageItem r).fields
  change bytes (object (pageItem r).fields) ≤ 24000
  generalize pageItem r = x at *
  omega

/-! ### The size of a page -/

lemma fill_take (first : Bool) (pageBytes : ℕ) (rows : List StreamItem) :
    ∃ n, fill first pageBytes rows = rows.take n := by
  induction rows generalizing first pageBytes with
  | nil => exact ⟨0, rfl⟩
  | cons r rest ih =>
    obtain ⟨n, hn⟩ := ih false (pageBytes + (bytes (pageItem r).json + if first then 0 else 1))
    rw [fill, hn]
    by_cases hfull : (!first && decide (READ_PAGE_BYTES <
        pageBytes + (bytes (pageItem r).json + if first then 0 else 1))) = true
    · exact ⟨0, by rw [if_pos hfull, List.take_zero]⟩
    · exact ⟨n + 1, by rw [if_neg hfull, List.take_succ_cons]⟩

lemma fill_first (pageBytes : ℕ) (r : StreamItem) (rest : List StreamItem) :
    fill true pageBytes (r :: rest) =
      r :: fill false (pageBytes + bytes (pageItem r).json) rest := by
  simp [fill]

lemma fill_next (pageBytes : ℕ) (r : StreamItem) (rest : List StreamItem) :
    fill false pageBytes (r :: rest) =
      if READ_PAGE_BYTES < pageBytes + (bytes (pageItem r).json + 1) then []
      else r :: fill false (pageBytes + (bytes (pageItem r).json + 1)) rest := by
  simp only [fill, Bool.not_false, Bool.true_and, decide_eq_true_eq, Bool.false_eq_true, if_false]

lemma fill_rest_bytes (pageBytes : ℕ) (h : pageBytes ≤ READ_PAGE_BYTES) (rows : List StreamItem) :
    pageBytes + ((fill false pageBytes rows).map fun r => bytes (pageItem r).json + 1).sum ≤
      READ_PAGE_BYTES := by
  induction rows generalizing pageBytes with
  | nil => exact h
  | cons r rest ih =>
    rw [fill_next]
    split
    · exact h
    · rename_i hfits
      have := ih _ (not_lt.mp hfits)
      rw [List.map_cons, List.sum_cons]
      omega

lemma fill_bytes (pageBytes : ℕ) (h : pageBytes + 24000 ≤ READ_PAGE_BYTES) {rows : List StreamItem}
    (hrows : ∀ r ∈ rows, Stored r) :
    pageBytes + bytes (commas ((fill true pageBytes rows).map fun r => (pageItem r).json)) ≤
      READ_PAGE_BYTES := by
  cases rows with
  | nil =>
    rw [fill, List.map_nil, commas, bytes_nil]
    omega
  | cons r rest =>
    have hitem := bytes_pageItem (hrows r List.mem_cons_self)
    have hrest := fill_rest_bytes (pageBytes + bytes (pageItem r).json) (by omega) rest
    rw [fill_first, List.map_cons, bytes_commas, List.map_map]
    simp only [Function.comp_def]
    omega

lemma bytes_response (subscription : ShownSubscription) (items : List (List Char))
    (ts key : List Char) (more : Bool) (unreadItems unreadBytes : ℕ) (gap : Option Gap) :
    bytes (response subscription items ts key more unreadItems unreadBytes gap) =
      bytes subscription.json + bytes (commas items) + bytes ts + bytes key +
        bytes (boolean more) + bytes (number unreadItems) + bytes (number unreadBytes) +
        fieldBytes (gapField gap) + 94 := by
  have h₁ : bytes (jsonString "subscription") = 14 := bytes_literal (by decide)
  have h₂ : bytes (jsonString "items") = 7 := bytes_literal (by decide)
  have h₃ : bytes (jsonString "readThrough") = 13 := bytes_literal (by decide)
  have h₄ : bytes (jsonString "more") = 6 := bytes_literal (by decide)
  have h₅ : bytes (jsonString "unread") = 8 := bytes_literal (by decide)
  have h₆ : bytes (jsonString "ts") = 4 := bytes_literal (by decide)
  have h₇ : bytes (jsonString "key") = 5 := bytes_literal (by decide)
  have h₈ : bytes (jsonString "bytes") = 7 := bytes_literal (by decide)
  unfold response
  rw [List.cons_append, bytes_object_eq, ← List.cons_append, fieldBytes_append]
  repeat rw [fieldBytes_cons]
  rw [fieldBytes_nil, bytes_array, bytes_object_eq, bytes_object_eq]
  repeat rw [fieldBytes_cons]
  rw [fieldBytes_nil, h₁, h₂, h₃, h₄, h₅, h₆, h₇, h₈]
  omega

lemma bytes_shownSubscription (s : StreamSubscription) :
    bytes (shownSubscription s).json ≤ 5400 := by
  have h₁ : bytes (jsonString "readerSession") = 15 := bytes_literal (by decide)
  have h₂ : bytes (jsonString "hintTags") = 10 := bytes_literal (by decide)
  have h₃ : bytes (jsonString "hintType") = 10 := bytes_literal (by decide)
  have h₄ : bytes (jsonString "metadataTruncated") = 19 := bytes_literal (by decide)
  have hreader : bytes (jsonString (shownSubscription s).readerSession) ≤ 1544 := bytes_clip _
  have htags : bytes (array ((shownSubscription s).hintTags.map jsonString)) ≤ 2050 := bytes_tags _
  have htype : bytes (textOrNull (shownSubscription s).hintType) ≤ 1544 := bytes_clipOptional _
  have hmeta := fieldBytes_flag "metadataTruncated" (shownSubscription s).metadataTruncated
  rw [h₄] at hmeta
  generalize shownSubscription s = x at *
  unfold ShownSubscription.json
  rw [List.cons_append, bytes_object_eq, ← List.cons_append, fieldBytes_append]
  repeat rw [fieldBytes_cons]
  rw [fieldBytes_nil, h₁, h₂, h₃]
  omega

lemma bytes_gapDetail : bytes (jsonString gapDetail) ≤ 200 := by
  have hdetail : gapDetail.toList = _ := String.toList_append.trans
    (congrArg₂ _ String.toList_ofList String.toList_ofList)
  refine (bytes_plain hdetail ?_).trans_le ?_
  · decide +kernel
  · decide +kernel

lemma fieldBytes_gap {gap : Option Gap} (h : ∀ g ∈ gap, g.prunedItemsTotal < 2 ^ 53) :
    fieldBytes (gapField gap) ≤ 500 := by
  cases gap with
  | none => exact Nat.zero_le _
  | some g =>
    have h₁ : bytes (jsonString "gap") = 5 := bytes_literal (by decide)
    have h₂ : bytes (jsonString "reason") = 8 := bytes_literal (by decide)
    have h₃ : bytes (jsonString "from") = 6 := bytes_literal (by decide)
    have h₄ : bytes (jsonString "through") = 9 := bytes_literal (by decide)
    have h₅ : bytes (jsonString "prunedItemsTotal") = 18 := bytes_literal (by decide)
    have h₆ : bytes (jsonString "detail") = 8 := bytes_literal (by decide)
    have h₇ : bytes (jsonString "retention") = 11 := bytes_literal (by decide)
    have h₈ := bytes_gapDetail
    have hpruned := bytes_number (h g rfl)
    have hfrom := bytes_instant g.fromTs
    have hthrough := bytes_instant g.through
    rw [gapField, fieldBytes_cons, fieldBytes_nil, Gap.json, bytes_object_eq]
    repeat rw [fieldBytes_cons]
    rw [fieldBytes_nil, h₁, h₂, h₃, h₄, h₅, h₆, h₇]
    omega

lemma bytes_xs64 : bytes (jsonString xs64) = 66 := bytes_literal (by decide)

lemma bytes_envelope (s : StreamSubscription) {gap : Option Gap}
    (h : ∀ g ∈ gap, g.prunedItemsTotal < 2 ^ 53) :
    bytes (envelope (shownSubscription s) gap) ≤ 6200 := by
  have hsubscription := bytes_shownSubscription s
  have hgap := fieldBytes_gap h
  have hmax : bytes (number MAX_SAFE_INTEGER) ≤ 16 := bytes_number (by decide)
  have hfalse := bytes_boolean false
  unfold envelope
  rw [bytes_response, bytes_xs64, commas, bytes_nil]
  omega

lemma bytes_response_le {subscription : ShownSubscription} {items : List (List Char)}
    {ts key : List Char} {more : Bool} {unreadItems unreadBytes : ℕ} {gap : Option Gap}
    (hts : bytes ts ≤ 66) (hkey : bytes key ≤ 66) (hitems : unreadItems < 2 ^ 53)
    (hbytes : unreadBytes < 2 ^ 53) :
    bytes (response subscription items ts key more unreadItems unreadBytes gap) ≤
      bytes (envelope subscription gap) + bytes (commas items) := by
  have hmax : bytes (number MAX_SAFE_INTEGER) = 16 := by decide +kernel
  have hfalse : bytes (boolean false) = 5 := by decide
  have hmore := bytes_boolean more
  have hn := bytes_number hitems
  have hm := bytes_number hbytes
  unfold envelope
  rw [bytes_response, bytes_response, bytes_xs64, hmax, hfalse, commas, bytes_nil]
  omega

end OpenRig.ReaderPages
