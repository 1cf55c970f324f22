import OpenRig.ClassifierLeases
import OpenRig.StreamStore

/-!
Classifications of stream items and the ledger of the attempts to make them: begin, abstain, fail,
classify, and the routing outcome that may come with a result.

Every call runs in one transaction that checks the lease first. An attempt's execution id is a
fence: only the execution that the last begin started may finish the attempt.
-/

namespace OpenRig.ClassificationLedger

open OpenRig.JsText OpenRig.ClassifierLeases OpenRig.StreamStore

/-! ### The tables -/

inductive AttemptStatus where
  | inFlight
  | abstained
  | written
  | error
  | exhausted
  deriving DecidableEq

def AttemptStatus.text : AttemptStatus → String
  | .inFlight => "in_flight"
  | .abstained => "abstained"
  | .written => "written"
  | .error => "error"
  | .exhausted => "exhausted"

def AttemptStatus.terminal (s : AttemptStatus) : Bool := s ∈ [.abstained, .written, .exhausted]

structure AttemptIdentity where
  streamItemId : String
  classifierVersion : String
  taxonomyVersion : String
  evidenceEpoch : String
  deriving DecidableEq

structure ClassificationAttempt where
  attemptId : String
  identity : AttemptIdentity
  status : AttemptStatus
  attemptCount : ℕ
  executionId : String
  leaseId : String
  classifierSession : String
  retryAfter : Option Time
  reason : Option String
  createdAt : Time
  updatedAt : Time

/-- The label fields, which the daemon stores and does not judge. -/
structure Labels where
  classificationType : Option String := none
  classificationUrgency : Option String := none
  classificationMaturity : Option String := none
  classificationConfidence : Option String := none
  classificationDestination : Option String := none
  action : Option String := none
  area : Option String := none
  scopeRef : Option String := none
  duplicateOfStreamItemId : Option String := none
  needsHuman : Option Bool := none

structure ProjectClassification where
  projectId : String
  streamItemId : String
  labels : Labels
  leaseId : String
  classifierVersion : Option String
  taxonomyVersion : Option String
  candidateSetVersion : Option String
  classifierSession : String
  tsProjected : Time
  identityProvenance : Option String

inductive Disposition where
  | create
  | join
  | duplicate
  | noAction
  | deferred
  deriving DecidableEq

def Disposition.text : Disposition → String
  | .create => "create"
  | .join => "join"
  | .duplicate => "duplicate"
  | .noAction => "no_action"
  | .deferred => "deferred"

inductive EffectOperation where
  | create
  | note
  | none
  deriving DecidableEq

def EffectOperation.text : EffectOperation → String
  | .create => "create"
  | .note => "note"
  | .none => "none"

/-- The provenance and the result are kept as their JSON texts. -/
structure StreamDispositionInput where
  disposition : Disposition
  ownerSession : Option String := none
  workQitemId : Option String := none
  operation : EffectOperation
  effectQitemId : Option String := none
  effectDestination : Option String := none
  templateDigest : String
  templateText : String
  request : String
  provenance : String := "null"
  reason : Option String := none
  result : Option String := none

structure StreamDisposition where
  streamItemId : String
  input : StreamDispositionInput
  projectId : Option String
  acceptedBy : String
  acceptedAt : Time
  appliedAt : Option Time
  applied : Option String

/-- `project.classified`. -/
structure ClassifiedEvent where
  projectId : String
  streamItemId : String
  classifierSession : String
  classificationType : Option String
  classificationDestination : Option String

/-- The unique columns beside the primary keys are fields. -/
structure Db where
  leases : Leases
  items : Items
  classifications : Table ProjectClassification.projectId
  oneEach : (classifications.rows.map (·.streamItemId)).Nodup
  attempts : Table ClassificationAttempt.attemptId
  identities : (attempts.rows.map (·.identity)).Nodup
  dispositions : Table StreamDisposition.streamItemId
  events : List ClassifiedEvent := []

def Db.empty : Db where
  leases := .empty
  items := .empty
  classifications := .empty
  oneEach := List.nodup_nil
  attempts := .empty
  identities := List.nodup_nil
  dispositions := .empty

/-! ### Refusals -/

inductive Refusal where
  | lease (e : ClassifierLeaseError)
  | invalidField (field message : String)
  | invalidAttemptIdentity (field : String)
  | unknownStreamItem (streamItemId message : String)
  | alreadyClassified (streamItemId existingProjectId : String)
  | attemptTerminal (attemptId : String) (status : AttemptStatus)
  | attemptInFlight (attemptId : String)
  | attemptNotDue (attemptId : String) (retryAfter : Time)
  | attemptExhausted (attemptId : String) (retryBudget : ℕ)
  | attemptNotFound (attemptId : String)
  | attemptSuperseded (attemptId : String)
  | attemptMismatch (attemptId message : String) (status : Option AttemptStatus)
  | unknownCursor (afterSortKey : String)
  | leaseIdRequired
  | invalidDuplicateOf (message : String)
  | candidateSetVersionRequired
  | attemptVersionsRequired
  | executionIdRequired
  | idempotencyViolation (streamItemId existingProjectId existingClassifier : String)
  | invalidDisposition (message : String)
  | dispositionExists (streamItemId : String) (existing : Disposition)
  | dispositionNotFound (streamItemId : String)
  | sqlite

def Refusal.code : Refusal → String
  | .lease e => e.code
  | .invalidField .. => "invalid_field"
  | .invalidAttemptIdentity _ => "invalid_attempt_identity"
  | .unknownStreamItem .. => "unknown_stream_item"
  | .alreadyClassified .. => "already_classified"
  | .attemptTerminal .. => "attempt_terminal"
  | .attemptInFlight _ => "attempt_in_flight"
  | .attemptNotDue .. => "attempt_not_due"
  | .attemptExhausted .. => "attempt_exhausted"
  | .attemptNotFound _ => "attempt_not_found"
  | .attemptSuperseded _ => "attempt_superseded"
  | .attemptMismatch .. => "attempt_mismatch"
  | .unknownCursor _ => "unknown_cursor"
  | .leaseIdRequired => "lease_id_required"
  | .invalidDuplicateOf _ => "invalid_duplicate_of"
  | .candidateSetVersionRequired => "candidate_set_version_required"
  | .attemptVersionsRequired => "attempt_versions_required"
  | .executionIdRequired => "execution_id_required"
  | .idempotencyViolation .. => "idempotency_violation"
  | .invalidDisposition _ => "invalid_disposition"
  | .dispositionExists .. => "disposition_exists"
  | .dispositionNotFound _ => "disposition_not_found"
  | .sqlite => "internal_error"

def Refusal.message : Refusal → String
  | .lease e => e.message
  | .invalidField _ message | .unknownStreamItem _ message | .attemptMismatch _ message _
  | .invalidDuplicateOf message | .invalidDisposition message => message
  | .invalidAttemptIdentity field => field ++ " is required"
  | .alreadyClassified id _ => "stream_item_id " ++ id ++ " is already classified"
  | .attemptTerminal _ status => "attempt for this identity is " ++ status.text
  | .attemptInFlight _ => "an attempt for this identity is already in flight"
  | .attemptNotDue _ retryAfter => "retry is not due until " ++ toISOString retryAfter
  | .attemptExhausted _ budget => "retry budget of " ++ toString budget ++ " is spent"
  | .attemptNotFound id => "attempt " ++ id ++ " not found"
  | .attemptSuperseded _ => "this execution was superseded by a newer execution of the attempt"
  | .unknownCursor key => "afterSortKey " ++ key ++ " is not a stream sort key"
  | .leaseIdRequired =>
    "leaseId is required: bind the result to the lease it was computed under " ++
      "(rig project lease-acquire returns it)"
  | .candidateSetVersionRequired =>
    "scopeRef must be bound to the scope candidate-set version it was chosen from"
  | .attemptVersionsRequired =>
    "a result bound to an attemptId must carry classifierVersion and taxonomyVersion"
  | .executionIdRequired =>
    "a result bound to an attemptId must carry the executionId returned by its begin()"
  | .idempotencyViolation id project classifier =>
    "stream_item_id " ++ id ++ " is already projected as project_id " ++ project ++ " by " ++
      classifier
  | .dispositionExists id existing =>
    "stream item " ++ id ++ " already has a " ++ existing.text ++ " disposition"
  | .dispositionNotFound id => "no disposition for stream item " ++ id
  | .sqlite => "UNIQUE constraint failed"

abbrev Outcome (α : Type) := Except Refusal α

/-- What one call reads from outside, in order. -/
structure Env where
  ttlMs : ℕ
  now : ℕ → Time
  isAlive : String → Bool
  ulid : ℕ → String

def Env.lease (env : Env) : ClassifierLeases.Env := ⟨env.ttlMs, env.now, env.isAlive, env.ulid 0⟩

structure Options where
  retryBudget : ℕ := 3
  baseBackoffMs : ℕ := 5 * 60 * 1000
  maxBackoffMs : ℕ := 60 * 60 * 1000
  inFlightTimeoutMs : ℕ := 15 * 60 * 1000

def require (p : Prop) [Decidable p] (e : Refusal) : Outcome Unit := if p then .ok () else .error e

/-- The lease check, at reading `k` of the clock. -/
def requireHolder (env : Env) (k : ℕ) (db : Db) (classifierSession leaseId : String) :
    Outcome ClassifierLease :=
  (requireActiveHolder db.leases (env.now k) classifierSession (some leaseId)).mapError .lease

/-- The fields must hold more than blanks; the first that does not is named. -/
def requireStringFields (suffix : String) : List (String × String) → Outcome Unit
  | [] => .ok ()
  | (field, value) :: rest =>
    if isBlank value then
      .error (.invalidField field (field ++ " must be a non-empty string" ++ suffix))
    else requireStringFields suffix rest

def requireIdentity (id : AttemptIdentity) : Outcome Unit := do
  require (isBlank id.streamItemId = false) (.invalidAttemptIdentity "streamItemId")
  require (isBlank id.classifierVersion = false) (.invalidAttemptIdentity "classifierVersion")
  require (isBlank id.taxonomyVersion = false) (.invalidAttemptIdentity "taxonomyVersion")
  require (isBlank id.evidenceEpoch = false) (.invalidAttemptIdentity "evidenceEpoch")

/-! ### Reads and writes of rows -/

/-- An update of a row, which keeps its id and its identity. -/
structure Rewrite where
  apply : ClassificationAttempt → ClassificationAttempt
  id : ∀ a, (apply a).attemptId = a.attemptId
  identity : ∀ a, (apply a).identity = a.identity

namespace Db

variable (db : Db)

def findRow (id : AttemptIdentity) : Option ClassificationAttempt :=
  db.attempts.rows.find? (·.identity = id)

def getByStreamItemId (id : String) : Option ProjectClassification :=
  db.classifications.rows.find? (·.streamItemId = id)

def insertAttempt (a : ClassificationAttempt) : Outcome Db :=
  match h : db.findRow a.identity, h' : db.attempts.insert? a with
  | none, some attempts =>
    .ok
      { db with
        attempts := attempts
        identities := by
          rw [(Table.insert?_eq_some h').2, List.map_append, List.nodup_append]
          refine ⟨db.identities, by simp, ?_⟩
          rintro x hx y hy rfl
          obtain ⟨b, hb, rfl⟩ := List.mem_map.mp hx
          rw [List.map_singleton, List.mem_singleton] at hy
          exact absurd (List.find?_eq_none.mp h b hb) (by simp [hy]) }
  | _, _ => .error .sqlite

/-- `UPDATE classification_attempts … WHERE attempt_id = ?`. -/
def updateAttempt (id : String) (f : Rewrite) : Db :=
  { db with
    attempts := db.attempts.update id f.apply f.id
    identities := by
      have : (db.attempts.update id f.apply f.id).rows.map (·.identity) =
          db.attempts.rows.map (·.identity) := by
        simp only [Table.update, Table.updateWhere, List.map_map]
        refine List.map_congr_left fun a _ => ?_
        simp only [Function.comp_apply, Table.rewrite]
        split
        · exact f.identity a
        · rfl
      rw [this]
      exact db.identities }

def insertClassification (c : ProjectClassification) : Outcome Db :=
  match h : db.getByStreamItemId c.streamItemId, h' : db.classifications.insert? c with
  | none, some classifications =>
    .ok
      { db with
        classifications := classifications
        oneEach := by
          rw [(Table.insert?_eq_some h').2, List.map_append, List.nodup_append]
          refine ⟨db.oneEach, by simp, ?_⟩
          rintro x hx y hy rfl
          obtain ⟨b, hb, rfl⟩ := List.mem_map.mp hx
          rw [List.map_singleton, List.mem_singleton] at hy
          exact absurd (List.find?_eq_none.mp h b hb) (by simp [hy]) }
  | _, _ => .error .sqlite

/-- A deferral has no effect to apply: it is settled when written. -/
def insertDisposition (projectId : Option String) (streamItemId : String)
    (d : StreamDispositionInput) (acceptedAt : Time) (acceptedBy : String) : Outcome Db :=
  match db.dispositions.get? streamItemId with
  | some existing => .error (.dispositionExists streamItemId existing.input.disposition)
  | none =>
    let deferred := d.disposition = .deferred
    let row : StreamDisposition :=
      { streamItemId
        input := d
        projectId
        acceptedBy
        acceptedAt
        appliedAt := if deferred then some acceptedAt else none
        applied := if deferred then
            some "\x7b\"operation\":\"none\",\"outcome\":\"deferred_to_intake\"\x7d"
          else none }
    match db.dispositions.insert? row with
    | some dispositions => .ok { db with dispositions }
    | none => .error .sqlite

end Db

/-! ### Attempts -/

structure BeginInput where
  identity : AttemptIdentity
  leaseId : String
  classifierSession : String

def started (env : Env) (input : BeginInput) (now : Time) : ClassificationAttempt where
  attemptId := env.ulid 0
  identity := input.identity
  status := .inFlight
  attemptCount := 1
  executionId := env.ulid 1
  leaseId := input.leaseId
  classifierSession := input.classifierSession
  retryAfter := none
  reason := none
  createdAt := now
  updatedAt := now

def reissued (executionId : String) (input : BeginInput) (now : Time) : Rewrite where
  apply a :=
    { a with
      status := .inFlight
      attemptCount := a.attemptCount + 1
      executionId
      leaseId := input.leaseId
      classifierSession := input.classifierSession
      retryAfter := none
      updatedAt := now }
  id _ := rfl
  identity _ := rfl

def spent (now : Time) : Rewrite where
  apply a :=
    { a with
      status := .exhausted
      retryAfter := none
      updatedAt := now
      reason := a.reason.or (some "retry budget spent") }
  id _ := rfl
  identity _ := rfl

/-- In flight under another lease, or for too long. -/
def abandoned (opts : Options) (now : Time) (leaseId : String) (a : ClassificationAttempt) : Bool :=
  a.leaseId ≠ leaseId || a.updatedAt + opts.inFlightTimeoutMs ≤ now

/-- The transaction of `begin`: the row, and whether its budget turned out to be spent. -/
def beginTxn (opts : Options) (env : Env) (db : Db) (input : BeginInput) :
    Outcome (Db × String × Bool) := do
  let _ ← requireHolder env 0 db input.classifierSession input.leaseId
  let item := input.identity.streamItemId
  require (db.items.get? item).isSome
    (.unknownStreamItem item ("stream_item_id " ++ item ++ " does not exist"))
  match db.getByStreamItemId item with
  | some c => .error (.alreadyClassified item c.projectId)
  | none =>
    match db.findRow input.identity with
    | none => do
      let db' ← db.insertAttempt (started env input (env.now 1))
      return (db', env.ulid 0, false)
    | some existing => do
      require (existing.status.terminal = false)
        (.attemptTerminal existing.attemptId existing.status)
      require (existing.status = .inFlight → abandoned opts (env.now 2) input.leaseId existing)
        (.attemptInFlight existing.attemptId)
      require (existing.status = .error → existing.retryAfter.all (· ≤ env.now 1))
        (.attemptNotDue existing.attemptId (existing.retryAfter.getD 0))
      if opts.retryBudget ≤ existing.attemptCount then
        return (db.updateAttempt existing.attemptId (spent (env.now 1)), existing.attemptId, true)
      else
        return (db.updateAttempt existing.attemptId (reissued (env.ulid 0) input (env.now 1)),
          existing.attemptId, false)

def getByIdOrThrow (db : Db) (attemptId : String) : Outcome ClassificationAttempt :=
  match db.attempts.get? attemptId with
  | some a => .ok a
  | none => .error (.attemptNotFound attemptId)

/-- The refusal of a spent budget comes after the commit. -/
def begin (opts : Options) (env : Env) (db : Db) (input : BeginInput) :
    Db × Outcome ClassificationAttempt :=
  let txn := do
    requireIdentity input.identity
    requireStringFields ""
      [("leaseId", input.leaseId), ("classifierSession", input.classifierSession)]
    beginTxn opts env db input
  match txn with
  | .error e => (db, .error e)
  | .ok (db', attemptId, true) => (db', .error (.attemptExhausted attemptId opts.retryBudget))
  | .ok (db', attemptId, false) => (db', getByIdOrThrow db' attemptId)

structure FinishInput where
  attemptId : String
  executionId : String
  leaseId : String
  classifierSession : String
  reason : String

/-- The row that a finish may touch: the current execution's, in flight under this lease. -/
def finishing (env : Env) (db : Db) (input : FinishInput) : Outcome ClassificationAttempt := do
  requireStringFields ""
    [("attemptId", input.attemptId), ("executionId", input.executionId),
      ("leaseId", input.leaseId), ("classifierSession", input.classifierSession),
      ("reason", input.reason)]
  let _ ← requireHolder env 0 db input.classifierSession input.leaseId
  match db.attempts.get? input.attemptId with
  | none => .error (.attemptNotFound input.attemptId)
  | some row => do
    require (row.executionId = input.executionId) (.attemptSuperseded row.attemptId)
    require (row.status = .inFlight ∧ row.leaseId = input.leaseId)
      (.attemptMismatch row.attemptId "attempt is not in flight under this lease" row.status)
    return row

def abstained (reason : String) (now : Time) : Rewrite where
  apply a :=
    { a with
      status := .abstained
      reason := some reason
      retryAfter := none
      updatedAt := now }
  id _ := rfl
  identity _ := rfl

def backoffMs (opts : Options) (attemptCount : ℕ) : ℕ :=
  min (opts.baseBackoffMs * 2 ^ (attemptCount - 1)) opts.maxBackoffMs

/-- A retry is scheduled while the budget lasts. -/
def failed (opts : Options) (reason : String) (now retryNow : Time) : Rewrite where
  apply a :=
    let spent : Bool := opts.retryBudget ≤ a.attemptCount
    { a with
      status := if spent then .exhausted else .error
      reason := some reason
      retryAfter := if spent then none else some (retryNow + backoffMs opts a.attemptCount)
      updatedAt := now }
  id _ := rfl
  identity _ := rfl

def abstain (env : Env) (db : Db) (input : FinishInput) : Outcome (Db × ClassificationAttempt) := do
  let row ← finishing env db input
  let db' := db.updateAttempt row.attemptId (abstained input.reason (env.now 1))
  let a ← getByIdOrThrow db' input.attemptId
  return (db', a)

def fail (opts : Options) (env : Env) (db : Db) (input : FinishInput) :
    Outcome (Db × ClassificationAttempt) := do
  let row ← finishing env db input
  let db' := db.updateAttempt row.attemptId (failed opts input.reason (env.now 1) (env.now 2))
  let a ← getByIdOrThrow db' input.attemptId
  return (db', a)

/-! ### Routing outcomes -/

def idChar (c : Char) : Bool := c.isAlphanum || c ∈ ['.', '_', ':', '@', '-']

/-- `ID`. -/
def isId (s : String) : Bool := s.toList.all idChar && 1 ≤ s.length && s.length ≤ 200

def isTemplateDigest (s : String) : Bool :=
  startsWith s "sha256:" && s.length = 71 &&
    (s.toList.drop 7).all fun c => c.isDigit || ('a' ≤ c && c ≤ 'f')

inductive DispositionKind where
  | accepted
  | deferred
  deriving DecidableEq

def expectedEffect : Disposition → EffectOperation
  | .create => .create
  | .join => .note
  | _ => .none

def optionalId (name : String) (v : Option String) : Outcome Unit :=
  require (v.all isId) (.invalidDisposition (name ++ " must be an id"))

/-- A text that is there: `!v` is false. -/
def present (v : Option String) : Bool := truthy v

/-- The JSON text of an object or an array. -/
def isObjectText (json : String) : Bool := startsWith json "\x7b" || startsWith json "["

def validateDisposition (d : StreamDispositionInput) (classificationDestination : Option String)
    (kind : DispositionKind) : Outcome Unit := do
  require (kind = .deferred ↔ d.disposition = .deferred)
    (.invalidDisposition (if kind = .deferred then "a deferral's disposition is deferred"
      else "disposition is one of create, join, duplicate, no_action"))
  optionalId "ownerSession" d.ownerSession
  optionalId "workQitemId" d.workQitemId
  optionalId "effect.qitemId" d.effectQitemId
  optionalId "effect.destination" d.effectDestination
  require (isTemplateDigest d.templateDigest)
    (.invalidDisposition "templateDigest must be sha256:<hex>")
  require (d.templateText ≠ "" ∧ utf16Length d.templateText ≤ 64 * 1024)
    (.invalidDisposition "templateText must be the template's text, at most 64 KiB")
  require (d.request ≠ "" ∧ utf16Length d.request ≤ 32 * 1024)
    (.invalidDisposition "request must be the exact request sent, at most 32 KiB")
  require (utf16Length d.provenance ≤ 4096) (.invalidDisposition "provenance must be at most 4 KiB")
  require (d.operation = expectedEffect d.disposition)
    (.invalidDisposition ("a " ++ d.disposition.text ++ " disposition has effect " ++
      (expectedEffect d.disposition).text))
  require (d.disposition = .create → present d.ownerSession ∧ present d.effectQitemId ∧
      d.effectDestination = d.ownerSession ∧ classificationDestination = d.ownerSession)
    (.invalidDisposition ("create needs an owner, a derived effect qitemId, and the owner as " ++
      "both effect destination and classification destination"))
  require (d.disposition = .join → present d.workQitemId ∧ d.effectQitemId = d.workQitemId)
    (.invalidDisposition "join needs the work qitem as its effect target")
  require (d.disposition = .duplicate → present d.workQitemId)
    (.invalidDisposition "duplicate needs the work item it repeats")
  require (expectedEffect d.disposition = .none →
      present d.effectQitemId = false ∧ present d.effectDestination = false)
    (.invalidDisposition ("a " ++ d.disposition.text ++ " disposition has no effect target"))
  require (d.disposition = .deferred → present d.reason ∧
      d.reason.all (utf16Length · ≤ 1000) ∧
      d.result.any fun result => isObjectText result && utf16Length result ≤ 4096)
    (.invalidDisposition ("a deferral needs a reason (at most 1,000 characters) and its " ++
      "structured result (at most 4 KiB)"))

/-- The abstention and the deferral of the item to intake commit together. -/
def abstainDeferred (env : Env) (db : Db) (input : FinishInput) (d : StreamDispositionInput) :
    Outcome (Db × ClassificationAttempt) := do
  validateDisposition d none .deferred
  let (db', a) ← abstain env db input
  let db'' ← db'.insertDisposition none a.identity.streamItemId d (env.now 2)
    input.classifierSession
  return (db'', a)

/-- The effect's outcome is recorded once; a repeat returns the first record. -/
def markApplied (env : Env) (db : Db) (classifierSession leaseId streamItemId applied : String) :
    Outcome (Db × StreamDisposition) := do
  let _ ← requireHolder env 0 db classifierSession leaseId
  require (utf16Length applied ≤ 4096) (.invalidDisposition "applied must be at most 4 KiB")
  match db.dispositions.get? streamItemId with
  | none => .error (.dispositionNotFound streamItemId)
  | some current =>
    if current.appliedAt.isSome then return (db, current)
    else
      let record (d : StreamDisposition) : StreamDisposition :=
        { d with appliedAt := some (env.now 1), applied := some applied }
      return ({ db with dispositions := db.dispositions.update streamItemId record },
        record current)

/-! ### Classifications -/

structure ProjectClassifyInput where
  streamItemId : String
  classifierSession : String
  leaseId : String
  attemptId : Option String := none
  executionId : Option String := none
  labels : Labels := {}
  classifierVersion : Option String := none
  taxonomyVersion : Option String := none
  candidateSetVersion : Option String := none
  disposition : Option StreamDispositionInput := none
  identityProvenance : Option String := none

/-- The ids and versions that may be left out but not blank. -/
def nonBlankFields (input : ProjectClassifyInput) : List (String × String) :=
  [("attemptId", input.attemptId), ("executionId", input.executionId),
    ("scopeRef", input.labels.scopeRef),
    ("duplicateOfStreamItemId", input.labels.duplicateOfStreamItemId),
    ("classifierVersion", input.classifierVersion), ("taxonomyVersion", input.taxonomyVersion),
    ("candidateSetVersion", input.candidateSetVersion)].filterMap
      fun f => f.2.map fun v => (f.1, v)

def identityProvenances : List String :=
  ["transport:v1", "relay:v1", "claimed:v1", "origin-unknown:v1"]

def validateClassifyInput (input : ProjectClassifyInput) : Outcome Unit := do
  require (input.identityProvenance.all (· ∈ identityProvenances))
    (.invalidField "identityProvenance" "unknown identity provenance")
  requireStringFields ""
    [("streamItemId", input.streamItemId), ("classifierSession", input.classifierSession)]
  require (isBlank input.leaseId = false) .leaseIdRequired
  requireStringFields " when supplied" (nonBlankFields input)
  require (input.labels.duplicateOfStreamItemId ≠ some input.streamItemId)
    (.invalidDuplicateOf "an item cannot be a duplicate of itself")
  require (input.labels.scopeRef.isSome → truthy input.candidateSetVersion)
    .candidateSetVersionRequired
  require (input.attemptId.isSome →
    truthy input.classifierVersion ∧ truthy input.taxonomyVersion) .attemptVersionsRequired
  require (input.attemptId.isSome → input.executionId.isSome) .executionIdRequired

def streamItemExists (db : Db) (streamItemId : String) : Bool :=
  (db.items.get? streamItemId).isSome

def writtenBy (now : Time) : Rewrite where
  apply a :=
    { a with
      status := .written
      retryAfter := none
      updatedAt := now }
  id _ := rfl
  identity _ := rfl

/-- The attempt must be in flight under this lease, for this item and the same versions. -/
def bindAttemptWritten (env : Env) (db : Db) (attemptId : String) (input : ProjectClassifyInput) :
    Outcome Db := do
  let mismatch (status : Option AttemptStatus) : Refusal :=
    .attemptMismatch attemptId "attemptId is not in flight for this item, lease and versions" status
  match db.attempts.get? attemptId with
  | none => .error (mismatch none)
  | some a => do
    require (some a.executionId = input.executionId) (.attemptSuperseded attemptId)
    require (a.status = .inFlight ∧ a.leaseId = input.leaseId ∧
        a.identity.streamItemId = input.streamItemId ∧
        some a.identity.classifierVersion = input.classifierVersion ∧
        some a.identity.taxonomyVersion = input.taxonomyVersion) (mismatch a.status)
    return db.updateAttempt a.attemptId (writtenBy (env.now 2))

def projected (env : Env) (input : ProjectClassifyInput) : ProjectClassification where
  projectId := env.ulid 0
  streamItemId := input.streamItemId
  labels := input.labels
  leaseId := input.leaseId
  classifierVersion := input.classifierVersion
  taxonomyVersion := input.taxonomyVersion
  candidateSetVersion := input.candidateSetVersion
  classifierSession := input.classifierSession
  tsProjected := env.now 0
  identityProvenance := input.identityProvenance

def bindAttempt (env : Env) (db : Db) (input : ProjectClassifyInput) : Outcome Db :=
  match input.attemptId with
  | some attemptId => bindAttemptWritten env db attemptId input
  | none => .ok db

def checkDisposition (input : ProjectClassifyInput) : Outcome Unit :=
  match input.disposition with
  | some d => validateDisposition d input.labels.classificationDestination .accepted
  | none => .ok ()

def dispose (db : Db) (input : ProjectClassifyInput) (row : ProjectClassification) : Outcome Db :=
  match input.disposition with
  | some d =>
    db.insertDisposition (some row.projectId) input.streamItemId d row.tsProjected
      input.classifierSession
  | none => .ok db

def classify (env : Env) (db : Db) (input : ProjectClassifyInput) :
    Outcome (Db × ProjectClassification) := do
  validateClassifyInput input
  checkDisposition input
  -- From here on everything runs in the write transaction.
  let _ ← requireHolder env 1 db input.classifierSession input.leaseId
  require (streamItemExists db input.streamItemId)
    (.unknownStreamItem input.streamItemId ("stream_item_id " ++ input.streamItemId ++
      " does not exist in stream_items; emit it first via 'rig stream emit' or check the id"))
  require (input.labels.duplicateOfStreamItemId.all (streamItemExists db))
    (.invalidDuplicateOf ("duplicateOfStreamItemId " ++
      input.labels.duplicateOfStreamItemId.getD "" ++ " does not exist in stream_items"))
  match db.getByStreamItemId input.streamItemId with
  | some existing =>
    .error (.idempotencyViolation input.streamItemId existing.projectId existing.classifierSession)
  | none => do
    let bound ← bindAttempt env db input
    let row := projected env input
    let inserted ← bound.insertClassification row
    let disposed ← dispose inserted input row
    let event : ClassifiedEvent :=
      { projectId := row.projectId
        streamItemId := input.streamItemId
        classifierSession := input.classifierSession
        classificationType := input.labels.classificationType
        classificationDestination := input.labels.classificationDestination }
    return ({ disposed with events := event :: disposed.events }, row)

/-! ### Calls -/

def Db.referenced (db : Db) (id : String) : Bool :=
  db.classifications.rows.any (fun c =>
      c.streamItemId = id || c.labels.duplicateOfStreamItemId = some id) ||
    db.attempts.rows.any (·.identity.streamItemId = id) ||
    db.dispositions.rows.any (·.streamItemId = id)

inductive Call where
  | lease (c : ClassifierLeases.Call)
  | emit (input : StreamEmitInput)
  | archive (streamItemId : String)
  | prune (ids : List String)
  | begin (input : BeginInput)
  | abstain (input : FinishInput) (deferral : Option StreamDispositionInput)
  | fail (input : FinishInput)
  | classify (input : ProjectClassifyInput)
  | markApplied (classifierSession leaseId streamItemId applied : String)

/-- The state after a call, and the refusal if there was one. -/
def settleWith {α : Type} (db : Db) : Outcome (Db × α) → Db × Outcome Unit
  | .ok (db', _) => (db', .ok ())
  | .error e => (db, .error e)

/-- A retention batch takes items that nothing references. -/
def exec (opts : Options) (env : Env) (db : Db) : Call → Db × Outcome Unit
  | .lease c =>
    match ClassifierLeases.exec env.lease db.leases c with
    | .ok (leases, _) => ({ db with leases }, .ok ())
    | .error e => (db, .error (.lease e))
  | .emit input =>
    ({ db with items := (StreamStore.emit (env.now 0) (env.ulid 0) (env.ulid 1) db.items input).1 },
      .ok ())
  | .archive id => ({ db with items := StreamStore.archive (env.now 0) db.items id }, .ok ())
  | .prune ids =>
    ({ db with items := StreamStore.prune db.items (ids.filter fun id => !db.referenced id) },
      .ok ())
  | .begin input =>
    let (db', outcome) := begin opts env db input
    (db', outcome.map fun _ => ())
  | .abstain input none => settleWith db (abstain env db input)
  | .abstain input (some d) => settleWith db (abstainDeferred env db input d)
  | .fail input => settleWith db (fail opts env db input)
  | .classify input => settleWith db (classify env db input)
  | .markApplied session leaseId id applied =>
    settleWith db (markApplied env db session leaseId id applied)

end OpenRig.ClassificationLedger
