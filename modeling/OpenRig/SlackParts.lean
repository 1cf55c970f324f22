import Mathlib.Data.List.Basic
import Mathlib.Tactic.Linarith

/-!
The parts of a Slack post: a brief too long for one message is cut into pieces that fit, and the
cuts are kept so that a retry posts the same pieces.

Texts are lists of UTF-16 units. What a frame leaves of a message's limits is taken as it is.
-/

namespace OpenRig.SlackParts

abbrev Text := List UInt16

def isHighSurrogate (c : UInt16) : Bool := 0xD800 ≤ c && c ≤ 0xDBFF

/-- The length `escapeSlackText` gives one unit. -/
def escapedWidth (c : UInt16) : ℕ := if c = 0x26 then 5 else if c = 0x3C ∨ c = 0x3E then 4 else 1

/-- How many units of the text fit the budget, once escaped; a surrogate pair counts as one. -/
def fitting : ℕ → Text → ℕ
  | _, [] => 0
  | budget, [c] => if budget < escapedWidth c then 0 else 1
  | budget, c :: d :: rest =>
    if isHighSurrogate c then
      if budget < escapedWidth c + escapedWidth d then 0
      else 2 + fitting (budget - (escapedWidth c + escapedWidth d)) rest
    else if budget < escapedWidth c then 0
    else 1 + fitting (budget - escapedWidth c) (d :: rest)

def lastIndexOf (room pattern : Text) : Option ℕ :=
  ((List.range (room.length + 1)).filter fun i => pattern.isPrefixOf (room.drop i)).getLast?

/-- The place after the last occurrence; JavaScript's `-1` stands for none. -/
def boundary (room pattern : Text) : ℕ :=
  match lastIndexOf room pattern with
  | some i => i + pattern.length
  | none => pattern.length - 1

/-- Where to cut: after a blank line, a line end or a space, in the second half of the room. -/
def cutAt (rest : Text) (fit : ℕ) : ℕ :=
  let room := rest.take fit
  let boundaries := [boundary room [0x0A, 0x0A], boundary room [0x0A], boundary room [0x20]]
  (boundaries.find? fun at' => fit < 2 * at').getD fit

lemma cutAt_pos {rest : Text} {fit : ℕ} (h : fit ≠ 0) : 0 < cutAt rest fit := by
  unfold cutAt
  dsimp only
  cases hf : List.find? _ _ with
  | none => exact Nat.pos_of_ne_zero h
  | some b =>
    have hb := List.find?_some hf
    simp only [decide_eq_true_eq] at hb
    simp only [Option.getD_some]
    omega

/-- `splitForSlack`, from its piece `index` on. There is no result when a piece has no room, or its
frame does not render. -/
def splitFrom (budgetFor : ℕ → Option ℕ) (index : ℕ) (rest : Text) : Option (List Text) :=
  if rest = [] then some []
  else
    match budgetFor index with
    | none => none
    | some budget =>
      if fitting budget rest = rest.length then some [rest]
      else if hfit : fitting budget rest = 0 then none
      else
        (splitFrom budgetFor (index + 1) (rest.drop (cutAt rest (fitting budget rest)))).map
          fun pieces => rest.take (cutAt rest (fitting budget rest)) :: pieces
termination_by rest.length
decreasing_by
  have hpos : 0 < cutAt rest (fitting budget rest) := cutAt_pos hfit
  have hlen := List.length_pos_of_ne_nil (by assumption)
  simp only [List.length_drop]
  omega

def splitForSlack (text : Text) (budgetFor : ℕ → Option ℕ) : Option (List Text) :=
  splitFrom budgetFor 0 text

/-- **The pieces join back** to the text that was cut. -/
theorem splitFrom_flatten {budgetFor : ℕ → Option ℕ} {index : ℕ} {rest : Text}
    {pieces : List Text} (h : splitFrom budgetFor index rest = some pieces) :
    pieces.flatten = rest := by
  induction index, rest using splitFrom.induct budgetFor generalizing pieces with
  | case1 index =>
    unfold splitFrom at h
    simp only [↓reduceIte, Option.some.injEq] at h
    rw [← h]
    rfl
  | case2 index rest hrest hb =>
    unfold splitFrom at h
    simp [hrest, hb] at h
  | case3 index rest hrest budget hb hfit =>
    unfold splitFrom at h
    simp only [hrest, hb, ↓reduceIte] at h
    rw [if_pos hfit] at h
    obtain rfl := Option.some.inj h
    simp
  | case4 index rest hrest budget hb hne hfit =>
    unfold splitFrom at h
    simp only [hrest, hb, ↓reduceIte] at h
    rw [if_neg hne, dif_pos hfit] at h
    simp at h
  | case5 index rest hrest budget hb hne hfit ih =>
    unfold splitFrom at h
    simp only [hrest, hb, ↓reduceIte] at h
    rw [if_neg hne, dif_neg hfit] at h
    obtain ⟨tail, htail, rfl⟩ := Option.map_eq_some_iff.mp h
    rw [List.flatten_cons, ih htail]
    exact List.take_append_drop _ rest

lemma splitForSlack_flatten {text : Text} {budgetFor : ℕ → Option ℕ} {pieces : List Text}
    (h : splitForSlack text budgetFor = some pieces) : pieces.flatten = text :=
  splitFrom_flatten h

/-! ### Kept cuts -/

/-- Consecutive slices of these lengths. -/
def slices : List ℕ → Text → List Text
  | [], _ => []
  | n :: lengths, rest => rest.take n :: slices lengths (rest.drop n)

/-- The pieces of a kept plan, unless its lengths no longer add up. -/
def replayPieces (text : Text) (lengths : Option (List ℕ)) : Option (List Text) :=
  lengths.bind fun l => if l.sum = text.length then some (slices l text) else none

lemma slices_flatten (lengths : List ℕ) (text : Text) :
    (slices lengths text).flatten = text.take lengths.sum := by
  induction lengths generalizing text with
  | nil => simp [slices]
  | cons n lengths ih =>
    rw [slices, List.flatten_cons, ih, List.sum_cons, List.take_add]

lemma slices_lengths (pieces : List Text) :
    slices (pieces.map (·.length)) pieces.flatten = pieces := by
  induction pieces with
  | nil => rfl
  | cons p pieces ih =>
    rw [List.map_cons, List.flatten_cons, slices, List.take_left, List.drop_left, ih]

/-- **A retry replays its first attempt's cuts.** -/
theorem replayPieces_lengths {pieces : List Text} {text : Text} (h : pieces.flatten = text) :
    replayPieces text (some (pieces.map (·.length))) = some pieces := by
  subst h
  unfold replayPieces
  rw [Option.bind_some, if_pos (List.length_flatten (L := pieces)).symm, slices_lengths]

lemma replayPieces_flatten {text : Text} {lengths : Option (List ℕ)} {pieces : List Text}
    (h : replayPieces text lengths = some pieces) : pieces.flatten = text := by
  obtain ⟨l, -, hl⟩ := Option.bind_eq_some_iff.mp h
  obtain ⟨hsum, ⟨⟩⟩ := Option.ite_none_right_eq_some.mp hl
  rw [slices_flatten, hsum, List.take_length]

/-! ### Parts -/

inductive Title where
  /-- The ask's own summary. -/
  | subject
  | supplemental
  | continued (k n : ℕ)
  | detail (k n : ℕ)
  deriving DecidableEq

inductive Note where
  | continues
  | detail
  deriving DecidableEq

/-- One message of an ask: its title, its own piece of the text, and the note under it. -/
structure DeliveryPart where
  title : Title
  piece : Text
  note : Option Note := none
  deriving DecidableEq

structure Ask where
  body : Text
  humanDetail : Option Text := none
  deriving DecidableEq

def Ask.detail (q : Ask) : Option Text := q.humanDetail.filter (· ≠ [])

/-- What an ask's first attempt chose: the mention and, for a split, the length of each piece. -/
structure DeliveryPlan where
  mention : Option String := none
  body : Option (List ℕ) := none
  detail : Option (List ℕ) := none
  deriving DecidableEq

/-- The parts as they were authored: one message, or two with a supplemental detail. -/
def authored (q : Ask) : List DeliveryPart :=
  match q.detail with
  | none => [{ title := .subject, piece := q.body }]
  | some detail =>
    [{ title := .subject, piece := q.body, note := some .detail },
      { title := .supplemental, piece := detail }]

def numbered (title : ℕ → Title) (start : ℕ) : List Text → List DeliveryPart
  | [] => []
  | piece :: pieces => { title := title start, piece } :: numbered title (start + 1) pieces

def partsOf (body detail : List Text) : List DeliveryPart :=
  let note := if 1 < body.length then Note.continues else .detail
  { title := .subject, piece := body.headD [], note := some note } ::
    numbered (fun k => .continued k body.length) 2 body.tail ++
    numbered (fun k => .detail k detail.length) 1 detail

def MAX_HUMAN_MESSAGE_PARTS : ℕ := 20

/-- What the frames of the parts leave of the message limits; nothing when one does not render. -/
structure Rooms where
  body : ℕ → Option ℕ
  detail : ℕ → Option ℕ

/-- The pieces of a text: those of the kept cuts, or cut afresh. -/
def piecesOf (text : Text) (lengths : Option (List ℕ)) (rooms : ℕ → Option ℕ) :
    Option (List Text) :=
  (replayPieces text lengths).or (splitForSlack text rooms)

def detailOf (redact : Text → Text) (q : Ask) (lengths : Option (List ℕ)) (rooms : ℕ → Option ℕ) :
    Option (List Text) :=
  match q.detail with
  | none => some []
  | some text => piecesOf (redact text) lengths rooms

/-- The parts of a split and the plan of its cuts. `redact` takes out secrets and trailing
whitespace. -/
def splitIntoParts (redact : Text → Text) (rooms : Rooms) (q : Ask) (recorded : DeliveryPlan) :
    Option (List DeliveryPart × DeliveryPlan) := do
  let body ← piecesOf (redact q.body) recorded.body rooms.body
  let first := max body.length 1
  let detail ← detailOf redact q recorded.detail fun j => rooms.detail (first + j)
  if MAX_HUMAN_MESSAGE_PARTS < (partsOf body detail).length then none
  else some (partsOf body detail,
    { recorded with body := some (body.map (·.length)), detail := some (detail.map (·.length)) })

lemma piecesOf_flatten {text : Text} {lengths : Option (List ℕ)} {rooms : ℕ → Option ℕ}
    {pieces : List Text} (h : piecesOf text lengths rooms = some pieces) :
    pieces.flatten = text := by
  rcases Option.or_eq_some_iff.mp h with hr | ⟨-, hs⟩
  · exact replayPieces_flatten hr
  · exact splitForSlack_flatten hs

lemma piecesOf_lengths {text : Text} {pieces : List Text} (h : pieces.flatten = text)
    (rooms : ℕ → Option ℕ) : piecesOf text (some (pieces.map (·.length))) rooms = some pieces := by
  unfold piecesOf
  rw [replayPieces_lengths h, Option.some_or]

lemma numbered_pieces (title : ℕ → Title) (start : ℕ) (pieces : List Text) :
    (numbered title start pieces).map (·.piece) = pieces := by
  induction pieces generalizing start with
  | nil => rfl
  | cons p pieces ih => rw [numbered, List.map_cons, ih]

lemma partsOf_text (body detail : List Text) :
    ((partsOf body detail).map (·.piece)).flatten = body.flatten ++ detail.flatten := by
  unfold partsOf
  simp only [List.cons_append, List.map_cons, List.map_append, numbered_pieces, List.flatten_cons,
    List.flatten_append]
  cases body with
  | nil => simp
  | cons p body => simp

def splitText (redact : Text → Text) (q : Ask) : Text :=
  redact q.body ++ (q.detail.map redact).getD []

/-- **A split carries the whole text**: its parts, in order, join to the redacted brief and
detail; and its plan replays it, whatever the rooms are by then. -/
theorem splitIntoParts_spec {redact : Text → Text} {rooms : Rooms} {q : Ask}
    {recorded plan : DeliveryPlan} {parts : List DeliveryPart}
    (h : splitIntoParts redact rooms q recorded = some (parts, plan)) :
    (parts.map (·.piece)).flatten = splitText redact q ∧ plan.mention = recorded.mention ∧
      plan.body.isSome = true ∧
      ∀ rooms', splitIntoParts redact rooms' q plan = some (parts, plan) := by
  unfold splitIntoParts at h
  obtain ⟨body, hbody, h⟩ := Option.bind_eq_some_iff.mp h
  obtain ⟨detail, hdetail, h⟩ := Option.bind_eq_some_iff.mp h
  obtain ⟨hmax, h⟩ := Option.ite_none_left_eq_some.mp h
  obtain ⟨rfl, rfl⟩ := Prod.mk.inj (Option.some.inj h)
  have hb := piecesOf_flatten hbody
  have hd : detail.flatten = (q.detail.map redact).getD [] ∧
      ∀ rooms', detailOf redact q (some (detail.map (·.length))) rooms' = some detail := by
    unfold detailOf at hdetail ⊢
    cases hq : q.detail with
    | none =>
      rw [hq] at hdetail
      obtain rfl := Option.some.inj hdetail
      exact ⟨rfl, fun _ => rfl⟩
    | some text =>
      rw [hq] at hdetail
      have ht := piecesOf_flatten hdetail
      exact ⟨ht, piecesOf_lengths ht⟩
  refine ⟨?_, rfl, rfl, fun rooms' => ?_⟩
  · rw [partsOf_text, hb, hd.1]
    rfl
  · unfold splitIntoParts
    rw [piecesOf_lengths hb]
    simp only [Option.bind_eq_bind, Option.bind_some, hd.2, if_neg hmax]

end OpenRig.SlackParts
