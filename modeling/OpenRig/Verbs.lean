import OpenRig.Outbox
import OpenRig.Watchdogs

/-!
The queue's verbs that move one row: create, claim, unclaim, the pod fallback and the two
acts on a generation's claims.

Each is a check of the row and the request, refusing before any write, and then the writes
of its transaction in the source's order. Event subscribers and wake sends run after the
commit and are not part of a verb.
-/

namespace OpenRig.Verbs

open OpenRig.JsText OpenRig.Sessions OpenRig.Closure OpenRig.QueueDb OpenRig.Outbox
open OpenRig.Watchdogs OpenRig.SqlLike

/-! ### Shared checks -/

/-- `getById`, or the error every verb gives for an unknown row. -/
def requireItem (db : Db) (qitemId : String) : Result QueueItem :=
  match db.getById qitemId with
  | some item => pure item
  | none => refuse .qitemNotFound ("qitem " ++ qitemId ++ " not found")

lemma requireItem_eq_ok {db : Db} {qitemId : String} {item : QueueItem} :
    requireItem db qitemId = .ok item ↔ db.getById qitemId = some item := by
  unfold requireItem
  cases db.getById qitemId with
  | none => simp
  | some r => simp [pure_eq_ok]

/-- `destinationValidationError`: an external person behind a registry that does not load, or
an unknown rig. -/
def destinationValidationError (env : Env) (field session : String) : Result Unit :=
  let unknown : Result Unit :=
    refuse .unknownDestinationRig (field ++ " " ++ session ++ " references an unknown rig")
  match parseSessionName session, env.humanRegistry with
  | .external localPart _, .error text noHumans =>
    if isSchemeRef localPart then unknown
    else refuse .humanRegistryUnavailable
      (field ++ " " ++ session ++ " cannot be admitted because " ++
        (if noHumans then "no human is registered yet: "
          else "the human registry failed to load: ") ++ text)
  | _, _ => unknown

/-- `validateRig`, or the refusal of the destination. -/
def validateDestination (env : Env) (field session : String) : Result Unit :=
  if env.validateRig session then pure () else destinationValidationError env field session

/-- `assertHumanAlert`: the mark is for an ask to a person. -/
def assertHumanAlert (env : Env) (humanAlert : Option Bool) (destination : String)
    (humanIntent : Option String) : Result Unit :=
  refuseIf (humanAlert = some true &&
      (!isPersonAddress env.humanRegistry destination || humanIntent = some "update"))
    .invalidHumanNotification
    ("humanAlert marks an ask to a person as alert-worthy: it needs a human destination, and " ++
      "an update isn't an ask.")

/-! ### Owner notifications -/

structure ClassifyInput where
  create : Bool
  destinationSession : String
  previousState : Option QueueState := none
  previousBlockedOn : Option String := none
  nextState : QueueState
  nextBlockedOn : Option String := none
  decisionResolved : Bool := false
  humanIntent : Option HumanIntent := none
  humanAlert : Option Bool := none
  gatewayInbound : Bool := false

def classifyOwnerNotification (env : Env) (i : ClassifyInput) :
    Option (NotificationKind × NotificationLevel) :=
  if i.decisionResolved then some (.humanDecisionResolved, .notice)
  else match registeredPeople env.humanRegistry with
  | none => none
  | some people =>
    let blockedHuman := resolveRegisteredHumanAddress i.nextBlockedOn people
    let previousBlockedHuman := resolveRegisteredHumanAddress i.previousBlockedOn people
    if i.nextState = .blocked && blockedHuman.isSome &&
        (i.previousState ≠ some .blocked || previousBlockedHuman ≠ blockedHuman) then
      some (.humanRequired, .alert)
    else
      let destinationHuman := resolveRegisteredHumanAddress (some i.destinationSession) people
      if i.create && destinationHuman.isSome then
        if i.gatewayInbound then some (.humanRequired, .record)
        else
          let person := people.find? fun e => some e.address = destinationHuman
          let primary := person.bind fun p => p.connectorBindings.find? fun b => b.2
          let posts := i.humanAlert = some true ||
            (if primary.any fun b => b.1 = "relay" then true
              else slackSubscriptionFor person = .everyAsk)
          if i.humanIntent = some .update then some (.humanUpdate, .notice)
          else some (.humanRequired, if posts then .alert else .record)
      else if i.create && endsWith i.destinationSession "@external" &&
          env.sharedChannels.contains i.destinationSession then
        some (.humanUpdate, .notice)
      else none

/-! ### Structured questions -/

/-- `/^[A-Za-z0-9_-]{1,40}$/`. -/
def questionId (s : String) : Bool :=
  let l := s.toList
  0 < l.length && l.length ≤ 40 && l.all fun c => c.isAlphanum || c = '_' || c = '-'

def questionIdRule : String := "id must be 1–40 letters, digits, \"-\" or \"_\"."

/-- The first fault of a question's options, numbered from `n`; `seen` are the ids before. -/
def optionsFault (place : String) : ℕ → List String → List HumanQuestionOption → Option String
  | _, _, [] => none
  | n, seen, o :: rest =>
    let here := place ++ " option " ++ toString n
    if !questionId o.id then some (here ++ ": " ++ questionIdRule)
    else if seen.contains o.id then
      some (here ++ ": duplicate option id \"" ++ o.id ++ "\".")
    else if isBlank o.label then some (here ++ ": label is required.")
    else if 75 < utf16Length o.label then
      some (here ++ ": label is over Slack's 75-character button limit.")
    else optionsFault place (n + 1) (o.id :: seen) rest

def questionsFault : ℕ → List String → List HumanQuestion → Option String
  | _, _, [] => none
  | n, seen, q :: rest =>
    let here := "question " ++ toString n
    if !questionId q.id then some (here ++ ": " ++ questionIdRule)
    else if seen.contains q.id then
      some (here ++ ": duplicate question id \"" ++ q.id ++ "\".")
    else if isBlank q.question then some (here ++ ": question text is required.")
    else if 500 < utf16Length q.question then
      some (here ++ ": question text is over 500 characters.")
    else if q.options.length < 2 || 4 < q.options.length then
      some (here ++ ": give 2 to 4 options.")
    else match optionsFault here 1 [] q.options with
      | some fault => some fault
      | none =>
        if 1 < (q.options.filter HumanQuestionOption.recommended).length then
          some (here ++ ": mark at most one option as recommended.")
        else questionsFault (n + 1) (q.id :: seen) rest

/-- `parseHumanQuestions`, on an array of question-shaped values. -/
def parseHumanQuestions (questions : List HumanQuestion) : Result Unit :=
  if questions.length < 1 || 4 < questions.length then
    refuse .invalidHumanQuestions
      ("Ask 1 to 4 questions (got " ++ toString questions.length ++ ").")
  else match questionsFault 1 [] questions with
    | some fault => refuse .invalidHumanQuestions fault
    | none => pure ()

/-! ### Create -/

structure QueueCreateInput where
  qitemId : Option String := none
  sourceSession : String
  destinationSession : String
  body : String
  priority : Option String := none
  tier : Option String := none
  tags : Option (List String) := none
  expiresAt : Option String := none
  chainOfRecord : Option (List String) := none
  targetRepo : Option String := none
  handedOffFrom : Option String := none
  summary : Option String := none
  evidenceRef : Option String := none
  humanIntent : Option String := none
  humanDetail : Option String := none
  humanQuestions : Option (List HumanQuestion) := none
  humanAlert : Option Bool := none
  replyTo : Option String := none
  inboundReplyTo : Option String := none
  gatewayInbound : Bool := false
  nudge : Option Bool := none
  wakeTrigger : Option WakeTrigger := none
  identityProvenance : Option String := none
  identityPrincipal : Option String := none

/-- The intent a create stores, once its text is admitted. -/
def parseHumanIntent : Option String → Option HumanIntent
  | some "decision" => some .decision
  | some "update" => some .update
  | _ => none

/-- The checks of `createInTransactionalContext`, in order. -/
def checkCreate (env : Env) (db : Db) (input : QueueCreateInput) : Result Unit := do
  validateHumanRoute input.tier input.destinationSession input.summary input.evidenceRef
  refuseIf (input.humanIntent.isSome && (parseHumanIntent input.humanIntent).isNone)
    .invalidHumanNotification
    "humanIntent must be decision or update; omission retains legacy decision behavior."
  refuseIf (input.humanDetail.any isBlank) .invalidHumanNotification
    "humanDetail must be nonempty supplemental text or omitted."
  refuseIf ((input.humanIntent.isSome || input.humanDetail.isSome) &&
      !isHumanSeatSessionRef input.destinationSession) .invalidHumanNotification
    ("humanIntent/humanDetail require a human destination; agent continuation belongs in its " ++
      "own qitem.")
  if let some replyTo := input.replyTo then
    refuseIf (input.humanIntent ≠ some "update") .replyToRequiresUpdate
      ("replyTo is accepted only with humanIntent update; a decision keeps its own thread so " ++
        "its reply stays unambiguous.")
    refuseIf (db.getById replyTo).isNone .replyToNotFound
      ("replyTo names no qitem on this host: " ++ replyTo ++ ".")
  if let some questions := input.humanQuestions then
    refuseIf (!isHumanSeatSessionRef input.destinationSession) .invalidHumanQuestions
      "humanQuestions require a human destination: only a human can click the options."
    refuseIf (input.humanIntent = some "update") .invalidHumanQuestions
      ("humanQuestions are refused on an update: they ask the human to decide. Use humanIntent " ++
        "decision.")
    parseHumanQuestions questions
  assertHumanAlert env input.humanAlert input.destinationSession input.humanIntent

/-- The id a create inserts under: the caller's, or a minted one. -/
def QueueCreateInput.id (env : Env) (input : QueueCreateInput) : String :=
  input.qitemId.getD (newQitemId env)

def newRow (env : Env) (input : QueueCreateInput) : QueueItem where
  qitemId := input.id env
  tsCreated := env.now
  tsUpdated := env.now
  sourceSession := input.sourceSession
  destinationSession := input.destinationSession
  state := .pending
  priority := input.priority.getD "routine"
  tier := input.tier
  tags := withHumanAlertTag input.tags input.humanAlert
  handedOffFrom := input.handedOffFrom
  expiresAt := input.expiresAt
  chainOfRecord := input.chainOfRecord
  body := input.body
  targetRepo := input.targetRepo
  summary := input.summary
  evidenceRef := input.evidenceRef
  humanIntent := parseHumanIntent input.humanIntent
  humanDetail := input.humanDetail
  humanQuestions := input.humanQuestions
  mintingGeneration := env.resolveOccupantGeneration input.sourceSession

/-- The thread a row answers: the caller's, or an inbound one that exists. -/
def effectiveReplyTo (db : Db) (input : QueueCreateInput) : Option String :=
  input.replyTo <|> input.inboundReplyTo.filter fun r => (db.getById r).isSome

/-- `createInTransactionalContext`: the checks, the insert, the `created` transition and its
event. -/
def createInTransactionalContext (env : Env) (db : Db) (input : QueueCreateInput) : Result Db := do
  checkCreate env db input
  let id := input.id env
  let db ← db.insertRow (newRow env input)
  let replyTo := effectiveReplyTo db input
  let db := db.updateRow id fun r => { r with replyTo }
  let db := db.append env.now
    { qitemId := id, state := .pending, actorSession := input.sourceSession,
      transitionNote := some "created",
      identityProvenance := input.identityProvenance,
      identityPrincipal := input.identityPrincipal,
      ownerNotification := classifyOwnerNotification env
        { create := true, destinationSession := input.destinationSession, nextState := .pending,
          humanIntent := parseHumanIntent input.humanIntent, humanAlert := input.humanAlert,
          gatewayInbound := input.gatewayInbound } }
  return db.emit (.created id input.sourceSession input.destinationSession
    (input.priority.getD "routine") input.tier input.summary)

/-- The sender a row OpenRig creates itself wakes as. -/
def openrigSender : String := "daemon@kernel"

def isOpenRigSender (sender : String) : Bool :=
  sender = openrigSender || startsWith sender "system:"

/-- The transaction of `create`: an ordinary create stands when staging its wake fails. -/
def createTxn (env : Env) (db : Db) (input : QueueCreateInput) : Result Db := do
  let db ← createInTransactionalContext env db input
  if env.outboxAttached && input.nudge ≠ some false then
    let wakeFrom := if input.wakeTrigger = some .openrig && !isOpenRigSender input.sourceSession
      then openrigSender else input.sourceSession
    match stageWakeIntent env db (input.id env) wakeFrom input.destinationSession
      (sideEffectProvenance input.identityProvenance) input.nudge
      (input.wakeTrigger.getD .agent) with
    | .ok db => return db
    | .error e => return recordNudgeAttempt env db (input.id env) (wakeNotRetained ++ e.message)
  else return db

/-- What a caller of `create` is answered: a new row, or the stored row of a re-delivery, with
a warning when its body differs. -/
inductive CreateReply where
  | created (qitemId : String)
  | absorbed (existing : QueueItem) (bodyNotSaved : Bool)
  deriving DecidableEq

/-- `create`: a primary-key conflict under the caller's own id is an idempotent re-delivery
when destination and source match, and a caller's id reuse otherwise. -/
def create (env : Env) (db : Db) (input : QueueCreateInput) : Result (CreateReply × Db) := do
  validateDestination env "destination_session" input.destinationSession
  match createTxn env db input with
  | .ok db' => return (.created (input.id env), db')
  | .error e =>
    match input.qitemId.filter fun q => e.code = .primaryKeyConflict && q ≠ "" with
    | none => .error e
    | some q =>
      match db.getById q with
      | none => .error e
      | some existing =>
        if existing.destinationSession = input.destinationSession &&
            existing.sourceSession = input.sourceSession then
          return (.absorbed existing (existing.body ≠ input.body), db)
        else
          refuse .qitemIdReuse
            ("qitem " ++ q ++ " already exists with a different destination/source — id reuse " ++
              "is a caller bug, not an idempotent retry")
            [("qitemId", q), ("existingDestination", existing.destinationSession),
             ("existingSource", existing.sourceSession)]

/-! ### Claim and unclaim -/

structure QueueClaimInput where
  qitemId : String
  destinationSession : String
  identityProvenance : Option String := none
  identityPrincipal : Option String := none

def claimRow (env : Env) (destinationSession : String) (r : QueueItem) : QueueItem :=
  { r with
    state := .inProgress, tsUpdated := env.now, claimedAt := some env.now,
    closureRequiredAt := computeClosureRequiredAt env.now r.tier,
    claimedByGeneration := env.resolveOccupantGeneration destinationSession,
    blockedOn := none }

/-- `claim`: a pending or parked row of the claimant's becomes in-progress. -/
def claim (env : Env) (db : Db) (input : QueueClaimInput) : Result Db := do
  let qitem ← requireItem db input.qitemId
  refuseIf (!(env.resolveSessionAddresses input.destinationSession).contains
      qitem.destinationSession) .claimDestinationMismatch
    ("qitem " ++ input.qitemId ++ " destination is " ++ qitem.destinationSession ++ ", not " ++
      input.destinationSession)
  refuseIf (qitem.state ≠ .pending && qitem.state ≠ .blocked) .qitemNotClaimable
    ("qitem " ++ input.qitemId ++ " is in state " ++ qitem.state.text ++
      "; only pending/blocked are claimable")
  let db := db.updateRow input.qitemId (claimRow env input.destinationSession)
  -- the former gate stays as an audit pointer, which is not a closure
  let db := db.append env.now
    { qitemId := input.qitemId, state := .inProgress, actorSession := input.destinationSession,
      transitionNote := some "claimed",
      closureTarget := if qitem.state = .blocked then qitem.blockedOn else none,
      identityProvenance := input.identityProvenance,
      identityPrincipal := input.identityPrincipal }
  let db := retireParkGeneratedTimer db input.qitemId "park_ended:claimed"
  return db.emit (.claimed input.qitemId input.destinationSession env.now
    (computeClosureRequiredAt env.now qitem.tier) qitem.summary)

structure QueueUnclaimInput where
  qitemId : String
  destinationSession : String
  reason : String
  identityProvenance : Option String := none
  identityPrincipal : Option String := none

def releaseRow (now : Time) (r : QueueItem) : QueueItem :=
  { r with state := .pending, tsUpdated := now, claimedAt := none, closureRequiredAt := none,
           claimedByGeneration := none }

def unclaim (env : Env) (db : Db) (input : QueueUnclaimInput) : Result Db := do
  let qitem ← requireItem db input.qitemId
  refuseIf (qitem.state ≠ .inProgress) .qitemNotInProgress
    ("qitem " ++ input.qitemId ++ " is in state " ++ qitem.state.text ++
      "; only in-progress can be unclaimed")
  let db := db.updateRow input.qitemId (releaseRow env.now)
  let db := db.append env.now
    { qitemId := input.qitemId, state := .pending, actorSession := input.destinationSession,
      transitionNote := some ("unclaimed: " ++ input.reason),
      identityProvenance := input.identityProvenance,
      identityPrincipal := input.identityPrincipal }
  return db.emit (.unclaimed input.qitemId input.destinationSession input.reason qitem.summary)

/-! ### Acts on a generation's claims -/

def claimsOfGeneration (db : Db) (generation : String) : List String :=
  (db.items.filter fun r =>
    r.state = .inProgress && r.claimedByGeneration = some generation).map QueueItem.qitemId

/-- One row of `releaseClaimsByGeneration`. -/
def releaseClaim (env : Env) (db : Db) (qitemId : String) : Db :=
  (db.updateRow qitemId (releaseRow env.now)).append env.now
    { qitemId, state := .pending, actorSession := "system",
      transitionNote := some "released: claimant generation retired (seat handover)" }

/-- `releaseClaimsByGeneration`: a retired occupant's claims return to pending. -/
def releaseClaimsByGeneration (env : Env) (db : Db) (retiringGeneration : String) : Db :=
  if retiringGeneration = "" then db
  else (claimsOfGeneration db retiringGeneration).foldl (releaseClaim env) db

/-- One row of `transferClaimsByGeneration`. -/
def transferClaim (env : Env) (toGeneration note : String) (db : Db) (qitemId : String) : Db :=
  (db.updateRow qitemId fun r =>
    { r with claimedByGeneration := some toGeneration, tsUpdated := env.now }).append env.now
    { qitemId, state := .inProgress, actorSession := "system", transitionNote := some note }

/-- `transferClaimsByGeneration`: a runtime switch moves a seat's claims to its successor. -/
def transferClaimsByGeneration (env : Env) (db : Db) (fromGeneration toGeneration note : String) :
    Db :=
  if fromGeneration = "" || toGeneration = "" then db
  else (claimsOfGeneration db fromGeneration).foldl (transferClaim env toGeneration note) db

/-! ### Fallback -/

def fallbackActor : String := "system:queue-fallback"

/-- The note of the latest reroute, newest first, and whether a close from an open state may
have appended an outcome after it. -/
def latestReroute : Bool → Bool → List Transition → Option (String × Bool)
  | _, _, [] => none
  | newerClosed, mayFollow, t :: rest =>
    let mayFollow := mayFollow || (newerClosed && t.state.isBlockerLive)
    match t.transitionNote with
    | some note =>
      if t.identityProvenance.isNone && t.actorSession = fallbackActor &&
          startsWith note "fallback-routed: " then some (note, mayFollow)
      else latestReroute (!t.state.isBlockerLive) mayFollow rest
    | none => latestReroute (!t.state.isBlockerLive) mayFollow rest

def lineStarts (r : List Char) : List ℕ :=
  (List.range r.length).filter fun i => i = 0 || r[i - 1]? = some '\n'

/-- `fallbackLineStart`: where the reroute's own line begins in `resolution`. -/
def fallbackLineStart (db : Db) (qitemId resolution : String) : Option ℕ :=
  match latestReroute false false (db.historyOf qitemId) with
  | none => none
  | some (printed, mayFollow) =>
    let r := resolution.toList
    let startsHere := fun i : ℕ =>
      "fallback: ".toList.isPrefixOf (r.drop i) && (i = 0 || r[i - 1]? = some '\n') &&
        (" (".toList ++ r.drop (i + 10) ++ [')']).isSuffixOf printed.toList
    if mayFollow then if startsHere 0 then some 0 else none
    else (lineStarts r).find? startsHere

/-- The `resolution` a reroute leaves: its own earlier line is replaced, anything else kept. -/
def fallbackResolution (db : Db) (qitem : QueueItem) (reason : String) : String :=
  let line := "fallback: " ++ reason
  let kept := match qitem.resolution.filter (· ≠ "") with
    | none => qitem.resolution
    | some text =>
      match fallbackLineStart db qitem.qitemId text with
      | some start => some (String.ofList (text.toList.take (start - 1)))
      | none => qitem.resolution
  match kept.filter (· ≠ "") with
  | some k => k ++ "\n" ++ line
  | none => line

structure FallbackInput where
  qitemId : String
  fallbackDestination : String
  reason : String

def fallbackRow (env : Env) (input : FallbackInput) (resolution : String) (r : QueueItem) :
    QueueItem :=
  { r with
    destinationSession := input.fallbackDestination, tsUpdated := env.now,
    chainOfRecord := some (r.chainOfRecord.getD [] ++
      ["fallback-from:" ++ r.destinationSession]),
    resolution := some resolution }

/-- The row's armed timer is a repeating wait, which finds its recipient at delivery. -/
def armedQueueWait (db : Db) (qitemId : String) : Bool :=
  match getStatus db qitemId with
  | some { wake := .timer j, .. } => (db.jobs.get? j).any fun j => j.spec.isQueueWait
  | _ => false

/-- `routeToFallback`: redirect the row; its one-shot park timer ends, as it targets the owner
that parked it. -/
def routeToFallback (env : Env) (db : Db) (input : FallbackInput) : Result Db := do
  let qitem ← requireItem db input.qitemId
  let resolution := fallbackResolution db qitem input.reason
  let db := db.updateRow input.qitemId (fallbackRow env input resolution)
  let db := if armedQueueWait db input.qitemId then db
    else retireParkGeneratedTimer db input.qitemId "park_rerouted"
  let db := db.append env.now
    { qitemId := input.qitemId, state := qitem.state, actorSession := fallbackActor,
      transitionNote := some ("fallback-routed: " ++ qitem.destinationSession ++ " → " ++
        input.fallbackDestination ++ " (" ++ input.reason ++ ")"),
      closureTarget := if qitem.state = .inProgress then db.retainedClaimBlocker input.qitemId
        else none }
  return db.emit (.fallbackRouted input.qitemId qitem.destinationSession
    input.fallbackDestination input.reason)

end OpenRig.Verbs
