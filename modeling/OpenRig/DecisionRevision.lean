import OpenRig.HumanAnswers
import OpenRig.Reroutes

/-!
The revision of what a person decides on.

It hashes the question and its decision state: the phase of the row, who it is addressed to or
parked on, its answers, the park it is in and the replies returned. The park and the latest ask are
read back from the transition log.
-/

namespace OpenRig.DecisionRevision

open OpenRig.JsText OpenRig.Sessions OpenRig.Closure OpenRig.QueueDb OpenRig.Outbox
open OpenRig.Watchdogs OpenRig.Verbs OpenRig.Handoff OpenRig.Update OpenRig.Firing
open OpenRig.Runs OpenRig.Lifecycle OpenRig.RowEffects OpenRig.Moves OpenRig.Refinement
open OpenRig.ClosureFields OpenRig.Appended OpenRig.Reroutes OpenRig.HumanAnswers

/-! ### The decision -/

/-- A pending and a claimed row are both open. -/
def phaseOf (state : QueueState) : String :=
  if state = .blocked then "blocked"
  else if state = .pending || state = .inProgress then "open" else state.text

/-- The transition into blocked from another state, latest first: a later blocked-to-blocked note
stays in the park it began. -/
def parkEntry : List Transition → Option ℕ
  | [] => none
  | t :: older =>
    if t.state = .blocked && older.head?.map Transition.state ≠ some .blocked then
      some t.transitionId
    else parkEntry older

structure Decision where
  body : String
  humanIntent : Option HumanIntent
  humanQuestions : Option (List HumanQuestion)
  phase : String
  destinationSession : String
  blockedOn : Option String
  humanAnswers : Option Answers
  delegatedDecision : Option DelegatedDecision
  episode : Option String
  parkEntry : Option ℕ
  replies : List String
  deriving DecidableEq

def mcOperationTag (operation : String) : String := "mc-operation:" ++ operation

/-- The tag of the operation whose replies are left out, if any. -/
def excludeOp (excludeOperationReply : Option String) : Option String :=
  (excludeOperationReply.filter (· ≠ "")).map mcOperationTag

/-- The `WHERE` clause of the replies. -/
def counts (qitemId : String) (tag : Option String) (r : QueueItem) : Bool :=
  r.replyTo = some qitemId && !tag.any fun t => (r.tags.getD []).contains t

/-- `ORDER BY ts_created, rowid`. -/
def firstCreated (a b : QueueItem) : Prop := a.tsCreated ≤ b.tsCreated

instance : DecidableRel firstCreated := fun _ _ => inferInstanceAs (Decidable (_ ≤ _))

def replies (db : Db) (qitemId : String) (tag : Option String) : List String :=
  ((db.items.filter (counts qitemId tag)).insertionSort firstCreated).map QueueItem.qitemId

/-- The decision a row is, without the replies of an operation. -/
def decision (s : Store) (item : QueueItem) (excludeOperationReply : Option String) : Decision where
  body := item.body
  humanIntent := item.humanIntent
  humanQuestions := item.humanQuestions
  phase := phaseOf item.state
  destinationSession := item.destinationSession
  blockedOn := item.blockedOn
  humanAnswers := s.humanAnswers item.qitemId
  delegatedDecision := s.delegatedDecision item.qitemId
  episode := currentHumanRequiredEpisode s.db item.qitemId
  parkEntry := if item.state = .blocked then parkEntry (s.db.historyOf item.qitemId) else none
  replies := replies s.db item.qitemId (excludeOp excludeOperationReply)

/-! ### Its text -/

section Text

def jsonText (s : String) : String := String.ofList (jsonString s)

def jsonOr {α : Type} (f : α → String) : Option α → String
  | none => "null"
  | some a => f a

def jsonList (l : List String) : String := "[" ++ ",".intercalate l ++ "]"

def jsonObject (fields : List (String × String)) : String :=
  "\x7b" ++ ",".intercalate (fields.map fun f => jsonText f.1 ++ ":" ++ f.2) ++ "\x7d"

def intentText : HumanIntent → String
  | .decision => "decision"
  | .update => "update"

def questionJson (q : HumanQuestion) : String :=
  jsonObject [("id", jsonText q.id), ("question", jsonText q.question),
    ("options", jsonList (q.options.map fun o =>
      jsonObject ([("id", jsonText o.id), ("label", jsonText o.label)] ++
        if o.recommended then [("recommended", "true")] else [])))]

def answerJson : HumanAnswer → String
  | .option optionId => jsonText optionId
  | .typed reply =>
    jsonObject [("kind", jsonText "typed-reply"), ("text", jsonText reply.text),
      ("placement", jsonText "first-unanswered"),
      ("unansweredCount", toString reply.unansweredCount)]

def delegatedJson (d : DelegatedDecision) : String :=
  jsonObject [("applicationId", jsonText d.applicationId), ("modeName", jsonText d.modeName),
    ("decisionRoom", jsonObject [("words", jsonText d.decisionRoom.words),
      ("exclusions", jsonList (d.decisionRoom.exclusions.map jsonText))]),
    ("decidedBy", jsonText d.decidedBy), ("decidedAt", jsonText (toISOString d.decidedAt)),
    ("choices", jsonList (d.choices.map fun c =>
      jsonObject [("questionId", jsonOr jsonText c.questionId), ("question", jsonText c.question),
        ("options", jsonList (c.options.map fun o =>
          jsonObject [("id", jsonText o.1), ("label", jsonText o.2)])),
        ("chosen", jsonText c.chosen)])),
    ("reason", jsonText d.reason), ("reversible", toString d.reversible)]

/-- `JSON.stringify(decision)`. -/
def Decision.json (d : Decision) : String :=
  jsonList [jsonText d.body, jsonOr (fun i => jsonText (intentText i)) d.humanIntent,
    jsonOr (fun qs => jsonList (qs.map questionJson)) d.humanQuestions, jsonText d.phase,
    jsonText d.destinationSession, jsonOr jsonText d.blockedOn,
    jsonOr (fun as => jsonObject (as.map fun a => (a.1, answerJson a.2))) d.humanAnswers,
    jsonOr delegatedJson d.delegatedDecision, jsonOr jsonText d.episode,
    jsonOr toString d.parkEntry, jsonList (d.replies.map jsonText)]

end Text

def decisionRevision (sha256Hex : String → String) (s : Store) (item : QueueItem)
    (excludeOperationReply : Option String) : String :=
  "dr1-" ++ String.ofList
    ((sha256Hex (decision s item excludeOperationReply).json).toList.take 24)

/-! ### Parks and asks in the log -/

lemma phaseOf_eq_blocked {s : QueueState} : phaseOf s = "blocked" ↔ s = .blocked := by
  cases s <;> decide

lemma phaseOf_eq_open {s : QueueState} : phaseOf s = "open" ↔ s = .pending ∨ s = .inProgress := by
  cases s <;> decide

lemma phaseOf_live {s s' : QueueState} (h : phaseOf s' = phaseOf s) :
    s'.isBlockerLive = s.isBlockerLive := by
  revert h
  cases s <;> cases s' <;> decide

lemma parkEntry_cons (t : Transition) (older : List Transition) :
    parkEntry (t :: older) =
      if t.state = .blocked && older.head?.map Transition.state ≠ some .blocked then
        some t.transitionId
      else parkEntry older := rfl

lemma parkEntry_append {new old : List Transition} (hnew : ∀ t ∈ new, t.state = .blocked)
    (hold : old.head?.map Transition.state = some .blocked) :
    parkEntry (new ++ old) = parkEntry old := by
  induction new with
  | nil => rfl
  | cons t new ih =>
    have hnew' : ∀ t ∈ new, t.state = .blocked := fun x hx => hnew x (List.mem_cons_of_mem _ hx)
    have hhead : (new ++ old).head?.map Transition.state = some .blocked := by
      cases new with
      | nil => exact hold
      | cons x new => exact congrArg some (hnew' x List.mem_cons_self)
    rw [List.cons_append, parkEntry_cons, hhead]
    simpa using ih hnew'

lemma parkEntry_mem {l : List Transition} {n : ℕ} (h : parkEntry l = some n) :
    ∃ t ∈ l, t.transitionId = n := by
  induction l with
  | nil => cases h
  | cons t l ih =>
    rw [parkEntry_cons] at h
    split at h
    · exact ⟨t, List.mem_cons_self, Option.some.inj h⟩
    · obtain ⟨x, hx, hn⟩ := ih h
      exact ⟨x, List.mem_cons_of_mem _ hx, hn⟩

lemma parkEntry_above {newer older : List Transition} {t : Transition} (ht : t.state = .blocked)
    (hout : older.head?.map Transition.state ≠ some .blocked) :
    ∃ x ∈ newer ++ [t], parkEntry (newer ++ t :: older) = some x.transitionId := by
  induction newer with
  | nil => exact ⟨t, List.mem_singleton.mpr rfl, by simp [parkEntry_cons, ht, hout]⟩
  | cons x newer ih =>
    rw [List.cons_append, List.cons_append, parkEntry_cons]
    split
    · exact ⟨x, List.mem_cons_self, rfl⟩
    · obtain ⟨y, hy, he⟩ := ih
      exact ⟨y, List.mem_cons_of_mem _ hy, he⟩

lemma currentHumanRequiredEpisode_eq (db : Db) (k : String) :
    currentHumanRequiredEpisode db k =
      ((db.historyOf k).find? humanRequired).map fun t => k ++ ":" ++ toString t.transitionId := by
  unfold currentHumanRequiredEpisode Db.listForQitem
  rw [List.filter_reverse, List.getLast?_reverse, List.head?_filter]

lemma toString_inj {m n : ℕ} (h : toString m = toString n) : m = n := by
  have h : Nat.toDigits 10 m = Nat.toDigits 10 n := by simpa using congrArg String.toList h
  rw [← Nat.ofDigitChars_toDigits (b := 10) (n := m) (by decide) (by decide), h,
    Nat.ofDigitChars_toDigits (by decide) (by decide)]

/-! ### Replies -/

/-- The columns of a row the replies read. -/
structure ReplyKey where
  qitemId : String
  tsCreated : Time
  replyTo : Option String
  tags : Option (List String)

def replyKey (r : QueueItem) : ReplyKey := ⟨r.qitemId, r.tsCreated, r.replyTo, r.tags⟩

/-- **The replies read these columns only.** -/
lemma replies_eq (db : Db) (k : String) (tag : Option String) :
    replies db k tag = (((db.items.rows.map replyKey).filter fun r =>
        r.replyTo = some k && !tag.any fun t => (r.tags.getD []).contains t).insertionSort
          fun a b => a.tsCreated ≤ b.tsCreated).map ReplyKey.qitemId := by
  unfold replies Table.filter
  have hsort := List.map_insertionSort (r := firstCreated)
    (s := fun a b : ReplyKey => a.tsCreated ≤ b.tsCreated) replyKey
    (db.items.rows.filter (counts k tag)) fun _ _ _ _ => Iff.rfl
  rw [List.filter_map]
  refine Eq.trans ?_ (congrArg (List.map ReplyKey.qitemId) hsort)
  rw [List.map_map]
  rfl

lemma replies_congr {db db' : Db} (h : db'.items.rows.map replyKey = db.items.rows.map replyKey)
    (k : String) (tag : Option String) : replies db' k tag = replies db k tag := by
  rw [replies_eq, replies_eq, h]

lemma replies_snoc {db db' : Db} {s : QueueItem} (h : db'.items.rows = db.items.rows ++ [s])
    {k : String} {tag : Option String} (hs : counts k tag s = false) :
    replies db' k tag = replies db k tag := by
  unfold replies Table.filter
  rw [h, List.filter_append, List.filter_cons_of_neg (by simp [hs]), List.filter_nil,
    List.append_nil]

lemma mem_replies {db : Db} {k : String} {tag : Option String} {q : String} :
    q ∈ replies db k tag ↔ ∃ r, db.getById q = some r ∧ counts k tag r = true := by
  unfold replies
  rw [List.mem_map]
  constructor
  · rintro ⟨r, hr, rfl⟩
    exact ⟨r, Table.mem_filter.mp ((List.mem_insertionSort _).mp hr)⟩
  · rintro ⟨r, hr, hc⟩
    have hq := Db.getById_id hr
    subst hq
    exact ⟨r, (List.mem_insertionSort _).mpr (Table.mem_filter.mpr ⟨hr, hc⟩), rfl⟩

end OpenRig.DecisionRevision
