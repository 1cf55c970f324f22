import OpenRig.Firing
import OpenRig.HistoryReaders
import OpenRig.RelayEnvelope
import OpenRig.SlackRecovery
import OpenRig.TextSearch

/-!
The answers a person gives to an ask, and a decision recorded on a person's behalf.

Both are columns of the ask's own row, `human_answers` and `delegated_decision`, beside the tables
the queue's verbs write. A click and a typed reply store an answer; a direct reply and a delegated
decision close the ask in the same transaction.
-/

namespace OpenRig.HumanAnswers

open OpenRig.JsText OpenRig.Sessions OpenRig.Closure OpenRig.QueueDb OpenRig.Outbox
open OpenRig.Verbs OpenRig.Handoff OpenRig.Update OpenRig.Firing

/-! ### Answers -/

/-- A whole thread reply, placed under the first unanswered question. -/
structure TypedHumanReply where
  text : String
  /-- Other question slots still empty after this reply's placement. -/
  unansweredCount : ℕ
  deriving DecidableEq

inductive HumanAnswer where
  | option (optionId : String)
  | typed (reply : TypedHumanReply)
  deriving DecidableEq

/-- Answers by question id, in the order they were first given. -/
abbrev Answers := List (String × HumanAnswer)

def ownAnswer (answers : Answers) (questionId : String) : Option HumanAnswer :=
  answers.lookup questionId

/-- `{ ...answers, [questionId]: answer }`. -/
def withAnswer (answers : Answers) (questionId : String) (answer : HumanAnswer) : Answers :=
  if (ownAnswer answers questionId).isSome then
    answers.map fun a => if a.1 = questionId then (questionId, answer) else a
  else answers ++ [(questionId, answer)]

def unansweredQuestions (questions : List HumanQuestion) (answers : Answers) :
    List HumanQuestion :=
  questions.filter fun q => (ownAnswer answers q.id).isNone

def describeTypedReplyPlacement (question : HumanQuestion) (reply : TypedHumanReply) : String :=
  "Whole typed reply, automatically placed under first unanswered question " ++
    String.ofList (jsonString question.question) ++ "; " ++ toString reply.unansweredCount ++
    " question" ++ (if reply.unansweredCount = 1 then "" else "s") ++ " left unanswered"

def formatHumanAnswers (questions : List HumanQuestion) (answers : Answers) : List String :=
  questions.filterMap fun q =>
    match ownAnswer answers q.id with
    | none => none
    | some (.typed reply) => some (describeTypedReplyPlacement q reply ++ ": " ++ reply.text)
    | some (.option optionId) =>
      some (q.question ++ ": " ++
        (((q.options.find? fun o => o.id = optionId).map HumanQuestionOption.label).getD optionId))

def humanAnswerText (body : String) : String :=
  match TextSearch.lastIndexOf "\n\n---\n".toList body.toList with
  | none => RelayEnvelope.trim body
  | some footer => RelayEnvelope.trim (String.ofList (body.toList.take footer))

/-! ### Delegated decisions -/

structure DecisionRoom where
  words : String
  exclusions : List String
  deriving DecidableEq

structure ModeApplication where
  applicationId : String
  entityId : String
  modeName : String
  decisionRoom : Option DecisionRoom
  deriving DecidableEq

structure DelegatedChoice where
  questionId : Option String
  question : String
  /-- Id and label of each option offered. -/
  options : List (String × String)
  chosen : String
  deriving DecidableEq

structure DelegatedDecision where
  applicationId : String
  modeName : String
  decisionRoom : DecisionRoom
  decidedBy : String
  decidedAt : Time
  choices : List DelegatedChoice
  reason : String
  reversible : Bool
  deriving DecidableEq

/-! ### The store -/

/-- The queue's tables, with the two columns of an ask its person's answer is kept in. -/
structure Store where
  db : Db
  humanAnswers : String → Option Answers
  delegatedDecision : String → Option DelegatedDecision

def Store.empty : Store := ⟨Db.empty, fun _ => none, fun _ => none⟩

/-- `UPDATE queue_items SET human_answers = ?`. -/
def Store.setAnswers (s : Store) (qitemId : String) (answers : Answers) : Store :=
  { s with humanAnswers := fun k => if k = qitemId then some answers else s.humanAnswers k }

/-- What the acts read besides the queue's own environment: the hash, and the generation a seat's
tenure ledger names (nothing when the ledger cannot be read). -/
structure AnswerEnv where
  env : Env
  sha256Hex : String → String
  currentGeneration : String → Option (Option String)

/-! ### Episodes and answer rows -/

def humanRequired (t : Transition) : Bool :=
  t.ownerNotification.any fun n => n.1 = .humanRequired

/-- `currentHumanRequiredEpisode`: the key of the row's latest ask. -/
def currentHumanRequiredEpisode (db : Db) (qitemId : String) : Option String :=
  ((db.listForQitem qitemId).filter humanRequired).getLast?.map fun t =>
    qitemId ++ ":" ++ toString t.transitionId

/-- The final post's receipt for a notification, in the row's log, newest first. -/
def episodeReceipt (db : Db) (qitemId key : String) : Option HistoryReaders.SlackReceipt :=
  ((db.historyOf qitemId).filter
    (HistoryReaders.prefixed HistoryReaders.SLACK_POSTED)).findSome? fun t => do
    let note ← t.transitionNote
    let fields := FieldText.words note.toList
    if fields.contains (FieldText.field "notification_key".toList key.toList) then
      some { messageTs := HistoryReaders.rawValueOf "message_ts" fields,
             threadTs := HistoryReaders.rawValueOf "thread_ts" fields,
             digest := HistoryReaders.rawValueOf "digest" fields }
    else none

/-- The id of an ask's answer row, or of the answer to one of its parks. -/
def humanAnswerId (sha256Hex : String → String) (askId : String) (episodeKey : Option String) :
    String :=
  let key := match episodeKey.filter (· ≠ "") with
    | some k => askId ++ "\n" ++ k
    | none => askId
  "qitem-human-answer-" ++ String.ofList ((sha256Hex key).toList.take 20)

def committedAnswerFromAnother (a : AnswerEnv) (db : Db) (qitemId actorSession : String)
    (episodeKey : Option String) : Option QueueItem :=
  (db.getById (humanAnswerId a.sha256Hex qitemId episodeKey)).filter fun r =>
    r.replyTo = some qitemId && r.sourceSession ≠ actorSession

/-- The actor's answer to the current question of a park. -/
def currentEpisodeAnswer (a : AnswerEnv) (db : Db) (qitemId actorSession : String) :
    Option QueueItem :=
  ((currentHumanRequiredEpisode db qitemId).bind fun key =>
    db.getById (humanAnswerId a.sha256Hex qitemId (some key))).filter fun r =>
      r.sourceSession = actorSession

/-! ### Who may answer -/

/-- `answersAsk`: the asked person, or another registered person, but no shared channel. -/
def answersAsk (env : Env) (item : QueueItem) (actorSession : String) : Bool :=
  item.destinationSession = actorSession ||
    (!(actorSession ≠ "" && env.sharedChannels.contains actorSession) &&
      match env.humanRegistry with
      | .ok entities => (resolveRegisteredHumanAddress (some actorSession) entities).isSome
      | .error _ _ => false)

/-- `answersPark`: an answer to a decision parked on a person came after its question was posted. -/
def answersPark (env : Env) (db : Db) (item : QueueItem) (actorSession : String)
    (answeredTs : Option String) : Bool :=
  item.state = .blocked && truthy item.blockedOn &&
    item.blockedOn.any (isPersonAddress env.humanRegistry) &&
    isPersonAddress env.humanRegistry item.destinationSession && answersAsk env item actorSession &&
    match ((currentHumanRequiredEpisode db item.qitemId).bind
          (episodeReceipt db item.qitemId)).bind (fun r => r.messageTs.bind fun ts =>
            SlackRecovery.slackMicros (String.ofList ts)),
              answeredTs.bind SlackRecovery.slackMicros with
    | some posted, some answered => posted < answered
    | _, _ => false

/-! ### Replies -/

/-- `placeTypedReply`: the answers with the reply under the first unanswered question, and the note
of where it went. -/
def placeTypedReply (item : QueueItem) (answers : Option Answers) (decision : String) :
    Option (Answers × String) :=
  let text := RelayEnvelope.trim decision
  let unanswered := if text ≠ "" && text ≠ "[file reply]" then
    unansweredQuestions (item.humanQuestions.getD []) (answers.getD []) else []
  match unanswered with
  | [] => none
  | question :: rest =>
    let reply : TypedHumanReply := ⟨text, rest.length⟩
    some (withAnswer (answers.getD []) question.id (.typed reply),
      describeTypedReplyPlacement question reply)

def UNATTRIBUTED_ACTOR : String := "human@host"

/-- The note of a direct close, by who answered whose ask. -/
def directReplyNote (item : QueueItem) (actor : String) (primaryUser : Bool) : String :=
  let asked := item.destinationSession
  if asked = actor then "direct human reply received"
  else if primaryUser && actor = UNATTRIBUTED_ACTOR then
    "reply from someone at the terminal OpenRig can't name (" ++ UNATTRIBUTED_ACTOR ++
      "), unattributed, on " ++ asked ++ "'s ask; not answered by " ++ asked
  else if primaryUser then
    "reply from " ++ actor ++ ", the primary user at the terminal, on " ++ asked ++
      "'s ask; not answered by " ++ asked
  else if (runnerPermissionOrigin item).isSome then
    "reply from " ++ actor ++ ", a registered person, on the runner permission request asked of " ++
      asked
  else
    "reply from " ++ actor ++ ", a registered person, on " ++ asked ++ "'s ask; not answered by " ++
      asked

/-- `closeDirectAsk`: the ask ends as the actor's, its typed words placed. -/
def closeDirectAsk (env : Env) (s : Store) (item : QueueItem) (actor decision : String)
    (primaryUser : Bool) : Result Store := do
  let note := directReplyNote item actor primaryUser
  let placed := placeTypedReply item (s.humanAnswers item.qitemId) decision
  let s := match placed with
    | some (answers, _) => s.setAnswers item.qitemId answers
    | none => s
  let db ← update env s.db
    { qitemId := item.qitemId, actorSession := actor, state := some .done,
      closureReason := some "no-follow-on",
      transitionNote := some (match placed with
        | some (_, where_) => note ++ "; " ++ where_
        | none => note),
      decisionResolved := true }
  return { s with db }

structure DirectReplyInput where
  qitemId : String
  actorSession : String
  decision : String
  primaryUser : Bool := false

def resolveDirectHumanReply (a : AnswerEnv) (s : Store) (input : DirectReplyInput) :
    Result Store :=
  match s.db.getById input.qitemId with
  | none => pure s
  | some item =>
    if item.state ≠ .pending || item.humanIntent = some .update ||
        (!answersAsk a.env item input.actorSession && !input.primaryUser) ||
        !isPersonAddress a.env.humanRegistry item.destinationSession then pure s
    else match committedAnswerFromAnother a s.db item.qitemId input.actorSession none with
      | some winner =>
        -- another person's committed return is the answer, and the ask closes as theirs
        let questions := item.humanQuestions.getD []
        let answers := (s.humanAnswers item.qitemId).getD []
        let decision :=
          if !questions.isEmpty && (unansweredQuestions questions answers).isEmpty then
          "; ".intercalate (formatHumanAnswers questions answers) else humanAnswerText winner.body
        closeDirectAsk a.env s item winner.sourceSession decision
          (!answersAsk a.env item winner.sourceSession)
      | none => closeDirectAsk a.env s item input.actorSession input.decision input.primaryUser

def recordParkedTypedReply (s : Store) (qitemId decision : String) : Store :=
  match s.db.getById qitemId with
  | none => s
  | some item =>
    match placeTypedReply item (s.humanAnswers item.qitemId) decision with
    | some (answers, _) => s.setAnswers item.qitemId answers
    | none => s

/-! ### Clicks -/

/-- `closeStaleRunnerPermission`: a runner's ask whose seat has been relaunched is canceled. -/
def closeStaleRunnerPermission (a : AnswerEnv) (db : Db) (qitemId : String) :
    Result (Option Db) :=
  match db.getById qitemId with
  | none => pure none
  | some item =>
    match if item.state = .pending then runnerPermissionOrigin item else none with
    | none => pure none
    | some (nodeId, generation) =>
      match a.currentGeneration nodeId with
      | none => pure none
      | some current =>
        if current = some generation then pure none
        else (update a.env db
          { qitemId, actorSession := item.sourceSession, state := some .canceled,
            transitionNote := some ("runner-permission-stale reason=relaunched: a later " ++
              "occupant holds this seat, so any answer here is not sent.") }).map some

structure HumanAnswerInput where
  qitemId : String
  actorSession : String
  questionId : String
  optionId : String
  primaryUser : Bool := false
  clickedTs : Option String := none

inductive ClickOutcome where
  | notApplicable
  | answeredBy
  | kept
  | recorded (answers : Answers)

/-- The transaction of `recordHumanAnswer`, up to its write. -/
def clickOutcome (a : AnswerEnv) (s : Store) (input : HumanAnswerInput) : ClickOutcome :=
  match s.db.getById input.qitemId with
  | none => .notApplicable
  | some item =>
    let questions := item.humanQuestions.getD []
    if questions.isEmpty then .notApplicable
    else if item.state ≠ .pending &&
        !answersPark a.env s.db item input.actorSession input.clickedTs then .notApplicable
    else if !answersAsk a.env item input.actorSession && !input.primaryUser then .notApplicable
    else
      let episodeKey := if item.state = .pending then none
        else currentHumanRequiredEpisode s.db item.qitemId
      let winner := if item.state = .pending || episodeKey.isSome then
        committedAnswerFromAnother a s.db item.qitemId input.actorSession episodeKey else none
      if winner.isSome then .answeredBy
      else match questions.find? fun q => q.id = input.questionId with
        | none => .notApplicable
        | some question =>
          if !question.options.any fun o => o.id = input.optionId then .notApplicable
          else
            let recorded := (s.humanAnswers item.qitemId).getD []
            if (unansweredQuestions questions recorded).isEmpty && (item.state = .pending ||
                (currentEpisodeAnswer a s.db item.qitemId input.actorSession).isSome) then .kept
            else .recorded (withAnswer recorded input.questionId (.option input.optionId))

/-- `recordHumanAnswer`. A pending ask another person answered closes as theirs. -/
def recordHumanAnswer (a : AnswerEnv) (s : Store) (input : HumanAnswerInput) : Result Store := do
  match ← closeStaleRunnerPermission a s.db input.qitemId with
  | some db => return { s with db }
  | none =>
    match clickOutcome a s input with
    | .recorded answers => return s.setAnswers input.qitemId answers
    | .answeredBy =>
      resolveDirectHumanReply a s
        { qitemId := input.qitemId, actorSession := input.actorSession, decision := "",
          primaryUser := input.primaryUser }
    | .kept | .notApplicable => return s

/-! ### Decisions made for a person -/

structure DelegatedDecisionInput where
  qitemId : String
  actorSession : String
  expectedApplicationId : String
  currentApplication : String → Option ModeApplication
  /-- Question id and the choice. -/
  choices : List (Option String × String)
  reason : String
  reversible : Bool

def PROMPT_ALERT_TAG : String := "wake-prompt-refusal"

/-- A permission prompt or gate work for the human role. -/
def neverDelegated (item : QueueItem) : Bool :=
  (item.tags.getD []).contains PROMPT_ALERT_TAG || (item.tags.getD []).contains "gate:human" ||
    item.tier = some "human-gate"

/-- The choices a decision records, one for each question, when they fit the ask. -/
def delegatedChoices (item : QueueItem) (choices : List (Option String × String)) :
    Option (List DelegatedChoice) :=
  let questions := item.humanQuestions.getD []
  if questions.isEmpty then
    match choices with
    | [(questionId, chosen)] =>
      let chosen := if truthy questionId then "" else RelayEnvelope.trim chosen
      if chosen = "" then none
      else some [⟨none, item.summary.getD (String.ofList (item.body.toList.take 200)), [], chosen⟩]
    | _ => none
  else
    let ids := choices.map fun c => c.1.getD ""
    if !ids.Nodup || questions.any (fun q => !ids.contains q.id) ||
        ids.any (fun i => !questions.any fun q => q.id = i) then none
    else questions.mapM fun q => do
      let chosen ← (choices.find? fun c => c.1.getD "" = q.id).map Prod.snd
      if q.options.any fun o => o.id = chosen then
        some ⟨some q.id, q.question, q.options.map fun o => (o.id, o.label), chosen⟩
      else none

def delegatedRecord (env : Env) (s : Store) (item : QueueItem) (input : DelegatedDecisionInput) :
    Option DelegatedDecision := do
  let .external person _ := parseSessionName item.destinationSession | none
  let person := String.ofList person
  if item.state ≠ .pending || item.humanIntent = some .update || neverDelegated item ||
      !((s.humanAnswers item.qitemId).getD []).isEmpty ||
      item.sourceSession ≠ input.actorSession then none
  let app ← input.currentApplication person
  if app.entityId ≠ person then none
  let room ← app.decisionRoom
  if app.applicationId ≠ input.expectedApplicationId || isBlank input.reason then none
  let choices ← delegatedChoices item input.choices
  return { applicationId := app.applicationId, modeName := app.modeName, decisionRoom := room,
           decidedBy := input.actorSession, decidedAt := env.now, choices,
           reason := RelayEnvelope.trim input.reason, reversible := input.reversible }

def delegatedNote (item : QueueItem) (d : DelegatedDecision) : String :=
  let chose := ", ".intercalate (d.choices.map fun c =>
    c.questionId.getD "choice" ++ "=" ++ c.chosen)
  let person := match parseSessionName item.destinationSession with
    | .external localPart _ => String.ofList localPart
    | _ => ""
  "delegated-decision application=" ++ d.applicationId ++ " mode=" ++ d.modeName ++
    " reversible=" ++ toString d.reversible ++ " chose " ++ chose ++ ": decided on " ++ person ++
    "'s behalf by " ++ d.decidedBy ++ ", not answered by them"

/-- `recordDelegatedDecision`: the decision is stored and the ask closed, or nothing is written. -/
def recordDelegatedDecision (env : Env) (s : Store) (input : DelegatedDecisionInput) :
    Result Store :=
  match s.db.getById input.qitemId with
  | none => pure s
  | some item =>
    match delegatedRecord env s item input with
    | none => pure s
    | some d => do
      let db ← update env s.db
        { qitemId := input.qitemId, actorSession := input.actorSession, state := some .done,
          closureReason := some "no-follow-on", transitionNote := some (delegatedNote item d) }
      return { s with
        db
        delegatedDecision := fun k => if k = input.qitemId then some d else s.delegatedDecision k }

/-! ### Acts -/

/-- One act on a daemon's queue: a verb, the record of a wake's send after its commit, or an answer
of a person. -/
inductive Act where
  | op (op : Op)
  | recordNudgeAttempt (qitemId result : String)
  | recordHumanAnswer (input : HumanAnswerInput)
  | resolveDirectHumanReply (input : DirectReplyInput)
  | recordParkedTypedReply (qitemId decision : String)
  | recordDelegatedDecision (input : DelegatedDecisionInput)

def perform (a : AnswerEnv) (s : Store) : Act → Result Store
  | .op op => (exec a.env s.db op).map fun db => { s with db }
  | .recordNudgeAttempt qitemId result =>
    pure { s with db := recordNudgeAttempt a.env s.db qitemId result }
  | .recordHumanAnswer input => recordHumanAnswer a s input
  | .resolveDirectHumanReply input => resolveDirectHumanReply a s input
  | .recordParkedTypedReply qitemId decision => pure (recordParkedTypedReply s qitemId decision)
  | .recordDelegatedDecision input => recordDelegatedDecision a.env s input

end OpenRig.HumanAnswers
