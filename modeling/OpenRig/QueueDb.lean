import OpenRig.Table
import OpenRig.Closure

/-!
The queue's data model: the rows of `queue_items`, the append-only transition log with its
transition-bound wakes, the watchdog jobs, the wake-intent outbox and the live workflow
instances, as one connection sees them inside a transaction.

The logs are kept newest first, so "the latest" is the head. Transition ids count the log.
Everything a verb gets from outside the database (the clock, minted ids, the seat and human
registries, the transport's targets) is a field of `Env`.
-/

namespace OpenRig.QueueDb

open OpenRig.JsText OpenRig.Sessions OpenRig.Closure

/-! ### Rows -/

inductive HumanIntent where
  | decision | update
  deriving DecidableEq, Repr

structure HumanQuestionOption where
  id : String
  label : String
  recommended : Bool
  deriving DecidableEq, Repr

structure HumanQuestion where
  id : String
  question : String
  options : List HumanQuestionOption
  deriving DecidableEq, Repr

/-- A row of `queue_items`. -/
structure QueueItem where
  qitemId : String
  tsCreated : Time
  tsUpdated : Time
  sourceSession : String
  destinationSession : String
  state : QueueState
  priority : String
  tier : Option String := none
  tags : Option (List String) := none
  blockedOn : Option String := none
  handedOffTo : Option String := none
  handedOffFrom : Option String := none
  expiresAt : Option String := none
  chainOfRecord : Option (List String) := none
  body : String
  targetRepo : Option String := none
  summary : Option String := none
  evidenceRef : Option String := none
  humanIntent : Option HumanIntent := none
  humanDetail : Option String := none
  humanQuestions : Option (List HumanQuestion) := none
  replyTo : Option String := none
  closureReason : Option ClosureReason := none
  closureTarget : Option String := none
  resolution : Option String := none
  claimedAt : Option Time := none
  closureRequiredAt : Option Time := none
  mintingGeneration : Option String := none
  claimedByGeneration : Option String := none
  lastNudgeAttempt : Option Time := none
  lastNudgeResult : Option String := none
  deriving DecidableEq

inductive NotificationLevel where
  | record | notice | alert
  deriving DecidableEq, Repr

inductive NotificationKind where
  | humanRequired | humanUpdate | humanDecisionResolved
  deriving DecidableEq, Repr

/-- A row of `queue_transitions`. -/
structure Transition where
  transitionId : ℕ
  qitemId : String
  ts : Time
  state : QueueState
  actorSession : String
  transitionNote : Option String
  closureReason : Option ClosureReason
  closureTarget : Option String
  identityProvenance : Option String
  identityPrincipal : Option String
  ownerNotification : Option (NotificationKind × NotificationLevel)
  deriving DecidableEq

/-! ### Wakes and watchdog jobs -/

/-- What a park names as its continuation. A watchdog was attached by an operator, a timer was
generated by the park, a blocker is another queue item. -/
inductive ParkWake where
  | watchdog (jobId : String)
  | timer (jobId : String)
  | blocker (qitemId : String)
  deriving DecidableEq, Repr

/-- The id space of a wake reference: `wake_kind` decides it. -/
inductive WakeRef where
  | job (jobId : String)
  | qitem (qitemId : String)
  deriving DecidableEq, Repr

/-- `wake_ref`. -/
def ParkWake.ref : ParkWake → WakeRef
  | .watchdog j => .job j
  | .timer j => .job j
  | .blocker q => .qitem q

inductive WakePhase where
  | armed
  | fired (deliveryStatus : String)
  deriving DecidableEq, Repr

/-- A row of `queue_transition_wakes`, keyed by its transition. -/
structure WakeRecord where
  transitionId : ℕ
  qitemId : String
  phase : WakePhase
  wake : ParkWake
  deriving DecidableEq

structure WaitNotice where
  transition : Option ℕ
  attentionRevision : Option String
  at_ : Time
  deliveryStatus : String
  deriving DecidableEq

/-- The metadata of a repeating wait, kept in its job's spec. -/
structure WaitState where
  qitemId : String
  blocker : Option String
  blockerTransition : Option ℕ
  evidence : Option String
  initialSeconds : ℕ
  maxSeconds : ℕ
  eventPending : Bool
  attentionRevision : Option String := none
  notice : Option WaitNotice := none
  deriving DecidableEq

/-- `spec_yaml`, parsed: only a spec with `context.queue_wait` is a repeating wait. -/
inductive WatchdogSpec where
  | reminder (target message : String)
  | queueWait (target message : String) (wait : WaitState)
  | other (text : String)
  deriving DecidableEq

def WatchdogSpec.isQueueWait : WatchdogSpec → Bool
  | .queueWait _ _ w => w.qitemId ≠ ""
  | _ => false

inductive WatchdogJobState where
  | active | stopped | terminal
  deriving DecidableEq, Repr

/-- A row of `watchdog_jobs`, with the columns the queue reads or writes. -/
structure WatchdogJob where
  jobId : String
  policy : String
  spec : WatchdogSpec
  targetSession : String
  intervalSeconds : ℕ
  lastEvaluationAt : Option Time
  lastFireAt : Option Time
  state : WatchdogJobState
  registeredBySession : String
  registeredAt : Time
  terminalReason : Option String
  registeredByGeneration : Option String
  deriving DecidableEq

/-! ### The outbox -/

inductive DeliveryState where
  | pending | sending | delivered | failed | indeterminate | retained | retired
  deriving DecidableEq, Repr

/-- The seat a held or guarded message is bound to. -/
structure GuardBinding where
  nodeId : String
  session : String
  occupant : Option String
  pane : Option String
  deriving DecidableEq, Repr

/-- A row of `outbox_entries`. -/
structure OutboxEntry where
  outboxId : String
  senderSession : String
  destinationSession : String
  body : String
  tags : Option (List String)
  urgency : String
  tsDispatched : Time
  deliveryState : DeliveryState
  deliveredAt : Option Time
  auditPointer : Option String
  guardBinding : Option GuardBinding
  identityProvenance : Option String
  retiredAt : Option Time
  retiredBy : Option String
  retirementReason : Option String
  deriving DecidableEq

/-! ### Workflow instances -/

inductive InstanceStatus where
  | active | waiting | completed | failed | aborted
  deriving DecidableEq, Repr

/-- An instance is live while it is active or waiting. -/
def InstanceStatus.isLive (s : InstanceStatus) : Bool := s = .active || s = .waiting

/-- What the queue's frontier guard reads of `workflow_instances`. Packet ids are minted by the
queue, so none of them needs escaping in the JSON column. -/
structure WorkflowInstance where
  instanceId : String
  named : instanceId ≠ ""
  workflowName : String
  status : InstanceStatus
  currentFrontier : List String
  plain : ∀ id ∈ currentFrontier, jsonPlain id = true
  deriving DecidableEq

/-! ### Events -/

/-- The bus events the queue's verbs persist with their writes. -/
inductive RigEvent where
  | created (qitemId sourceSession destinationSession priority : String)
      (tier summary : Option String)
  | handedOff (qitemId fromSession toSession : String) (summary : Option String)
  | claimed (qitemId destinationSession : String) (claimedAt : Time)
      (closureRequiredAt : Option Time) (summary : Option String)
  | unclaimed (qitemId destinationSession reason : String) (summary : Option String)
  | updated (qitemId : String) (fromState toState : QueueState)
      (closureReason : Option ClosureReason) (closureTarget : Option String)
      (actorSession : String) (summary : Option String)
  | fallbackRouted (qitemId originalDestination rerouteDestination reason : String)
  deriving DecidableEq

/-! ### The database -/

/-- One daemon's tables. The logs are newest first. -/
structure Db where
  items : Table QueueItem.qitemId
  transitions : List Transition
  wakes : List WakeRecord
  jobs : Table WatchdogJob.jobId
  outbox : Table OutboxEntry.outboxId
  instances : List WorkflowInstance
  events : List RigEvent

/-- A daemon's tables before any verb ran. -/
def Db.empty : Db :=
  { items := Table.empty, transitions := [], wakes := [], jobs := Table.empty,
    outbox := Table.empty, instances := [], events := [] }

inductive WakeTrigger where
  | agent | openrig
  deriving DecidableEq, Repr

/-- What a verb reads from outside the database, at the moment it runs. -/
structure Env where
  now : Time
  /-- The draw behind a minted queue item id. -/
  random : ℕ
  /-- The id minted for a watchdog job registered by this call. -/
  ulid : String
  validateRig : String → Bool
  humanRegistry : LoadResult
  sharedChannels : List String
  resolveSessionAddresses : String → List String
  resolveOccupantGeneration : String → Option String
  /-- Whether a wake-intent store is attached. -/
  outboxAttached : Bool
  retentionTarget : String → WakeTrigger → Bool → Option GuardBinding
  draftAwareTarget : String → Option GuardBinding
  deliveryTarget : String → Option GuardBinding
  /-- The frozen envelope around a wake's body: sender, recipient, body, generation, replied row. -/
  wrapPaneEnvelope : String → String → String → Option String → Option String → String
  /-- The body of a handoff nudge, from the row's id and summary. -/
  renderQueueHandoffNudge : String → Option String → String
  withUrgentLine : String → String → String
  /-- The readiness revision an evidence scope has now. -/
  attentionRevision : Option String → Option String

namespace Db

def getById (db : Db) (id : String) : Option QueueItem := db.items.get? id

/-- The row's transitions, newest first. -/
def historyOf (db : Db) (id : String) : List Transition :=
  db.transitions.filter (·.qitemId = id)

/-- `transitionLog.listForQitem`: the row's transitions, oldest first. -/
def listForQitem (db : Db) (id : String) : List Transition := (db.historyOf id).reverse

def nextTransitionId (db : Db) : ℕ := db.transitions.length + 1

end Db

/-- What a caller of `transitionLog.append` supplies. -/
structure TransitionInput where
  qitemId : String
  state : QueueState
  actorSession : String
  transitionNote : Option String
  closureReason : Option ClosureReason := none
  closureTarget : Option String := none
  identityProvenance : Option String := none
  identityPrincipal : Option String := none
  ownerNotification : Option (NotificationKind × NotificationLevel) := none

namespace TransitionInput

/-- A principal is kept only beside `principal:v1`. -/
def principal (t : TransitionInput) : Option String :=
  if t.identityProvenance = some "principal:v1" then t.identityPrincipal else none

def toTransition (t : TransitionInput) (id : ℕ) (ts : Time) : Transition where
  transitionId := id
  qitemId := t.qitemId
  ts := ts
  state := t.state
  actorSession := t.actorSession
  transitionNote := t.transitionNote
  closureReason := t.closureReason
  closureTarget := t.closureTarget
  identityProvenance :=
    if t.identityProvenance = some "principal:v1" && !truthy t.principal then some "transport:v1"
    else t.identityProvenance
  identityPrincipal := if truthy t.principal then t.principal else none
  ownerNotification := t.ownerNotification

end TransitionInput

/-- The provenance a verb's side effects carry. -/
def sideEffectProvenance (p : Option String) : Option String :=
  if p = some "principal:v1" then some "transport:v1" else p

namespace Db

/-! ### Writes -/

/-- `UPDATE queue_items SET … WHERE qitem_id = ?`. -/
def updateRow (db : Db) (id : String) (f : QueueItem → QueueItem)
    (hf : ∀ r, (f r).qitemId = r.qitemId := by intro _; rfl) : Db :=
  { db with items := db.items.update id f hf }

/-- `INSERT INTO queue_items`; the primary-key conflict aborts the transaction. -/
def insertRow (db : Db) (r : QueueItem) : Result Db :=
  match db.items.insert? r with
  | some items => pure { db with items }
  | none => refuse .primaryKeyConflict "UNIQUE constraint failed: queue_items.qitem_id"

/-- `transitionLog.append`. -/
def append (db : Db) (ts : Time) (t : TransitionInput) : Db :=
  { db with transitions := t.toTransition db.nextTransitionId ts :: db.transitions }

/-- `wakeRepo.record`. -/
def recordWake (db : Db) (w : WakeRecord) : Db := { db with wakes := w :: db.wakes }

/-- `eventBus.persistWithinTransaction`. -/
def emit (db : Db) (e : RigEvent) : Db := { db with events := e :: db.events }

def setJobs (db : Db) (jobs : Table WatchdogJob.jobId) : Db := { db with jobs }

def setOutbox (db : Db) (outbox : Table OutboxEntry.outboxId) : Db := { db with outbox }

/-! ### Reads after writes -/

section
variable (db : Db) (id : String) (f : QueueItem → QueueItem) (hf)
variable (ts : Time) (t : TransitionInput) (w : WakeRecord) (e : RigEvent)
variable (jobs : Table WatchdogJob.jobId) (outbox : Table OutboxEntry.outboxId)

lemma getById_updateRow (k : String) :
    (db.updateRow id f hf).getById k =
      if k = id then (db.getById k).map f else db.getById k :=
  Table.get?_update _ _ _ hf _

@[simp] lemma historyOf_updateRow (k : String) :
    (db.updateRow id f hf).historyOf k = db.historyOf k := rfl
@[simp] lemma transitions_updateRow : (db.updateRow id f hf).transitions = db.transitions := rfl
@[simp] lemma wakes_updateRow : (db.updateRow id f hf).wakes = db.wakes := rfl
@[simp] lemma jobs_updateRow : (db.updateRow id f hf).jobs = db.jobs := rfl
@[simp] lemma outbox_updateRow : (db.updateRow id f hf).outbox = db.outbox := rfl
@[simp] lemma instances_updateRow : (db.updateRow id f hf).instances = db.instances := rfl
@[simp] lemma events_updateRow : (db.updateRow id f hf).events = db.events := rfl

@[simp] lemma items_append : (db.append ts t).items = db.items := rfl
@[simp] lemma getById_append (k : String) : (db.append ts t).getById k = db.getById k := rfl
@[simp] lemma wakes_append : (db.append ts t).wakes = db.wakes := rfl
@[simp] lemma jobs_append : (db.append ts t).jobs = db.jobs := rfl
@[simp] lemma outbox_append : (db.append ts t).outbox = db.outbox := rfl
@[simp] lemma instances_append : (db.append ts t).instances = db.instances := rfl
@[simp] lemma events_append : (db.append ts t).events = db.events := rfl
@[simp] lemma transitions_append :
    (db.append ts t).transitions = t.toTransition db.nextTransitionId ts :: db.transitions := rfl

lemma historyOf_append (k : String) :
    (db.append ts t).historyOf k =
      if k = t.qitemId then t.toTransition db.nextTransitionId ts :: db.historyOf k
      else db.historyOf k := by
  unfold historyOf append
  rw [List.filter_cons]
  by_cases h : k = t.qitemId
  · simp [h, TransitionInput.toTransition]
  · have h' : ¬ t.qitemId = k := fun e => h e.symm
    simp [h, h', TransitionInput.toTransition]

@[simp] lemma items_recordWake : (db.recordWake w).items = db.items := rfl
@[simp] lemma getById_recordWake (k : String) : (db.recordWake w).getById k = db.getById k := rfl
@[simp] lemma historyOf_recordWake (k : String) :
    (db.recordWake w).historyOf k = db.historyOf k := rfl
@[simp] lemma transitions_recordWake : (db.recordWake w).transitions = db.transitions := rfl
@[simp] lemma wakes_recordWake : (db.recordWake w).wakes = w :: db.wakes := rfl
@[simp] lemma jobs_recordWake : (db.recordWake w).jobs = db.jobs := rfl
@[simp] lemma outbox_recordWake : (db.recordWake w).outbox = db.outbox := rfl
@[simp] lemma instances_recordWake : (db.recordWake w).instances = db.instances := rfl
@[simp] lemma events_recordWake : (db.recordWake w).events = db.events := rfl

@[simp] lemma items_emit : (db.emit e).items = db.items := rfl
@[simp] lemma getById_emit (k : String) : (db.emit e).getById k = db.getById k := rfl
@[simp] lemma historyOf_emit (k : String) : (db.emit e).historyOf k = db.historyOf k := rfl
@[simp] lemma transitions_emit : (db.emit e).transitions = db.transitions := rfl
@[simp] lemma wakes_emit : (db.emit e).wakes = db.wakes := rfl
@[simp] lemma jobs_emit : (db.emit e).jobs = db.jobs := rfl
@[simp] lemma outbox_emit : (db.emit e).outbox = db.outbox := rfl
@[simp] lemma instances_emit : (db.emit e).instances = db.instances := rfl
@[simp] lemma events_emit : (db.emit e).events = e :: db.events := rfl

@[simp] lemma items_setJobs : (db.setJobs jobs).items = db.items := rfl
@[simp] lemma getById_setJobs (k : String) : (db.setJobs jobs).getById k = db.getById k := rfl
@[simp] lemma historyOf_setJobs (k : String) :
    (db.setJobs jobs).historyOf k = db.historyOf k := rfl
@[simp] lemma transitions_setJobs : (db.setJobs jobs).transitions = db.transitions := rfl
@[simp] lemma wakes_setJobs : (db.setJobs jobs).wakes = db.wakes := rfl
@[simp] lemma jobs_setJobs : (db.setJobs jobs).jobs = jobs := rfl
@[simp] lemma outbox_setJobs : (db.setJobs jobs).outbox = db.outbox := rfl
@[simp] lemma instances_setJobs : (db.setJobs jobs).instances = db.instances := rfl
@[simp] lemma events_setJobs : (db.setJobs jobs).events = db.events := rfl

@[simp] lemma items_setOutbox : (db.setOutbox outbox).items = db.items := rfl
@[simp] lemma getById_setOutbox (k : String) :
    (db.setOutbox outbox).getById k = db.getById k := rfl
@[simp] lemma historyOf_setOutbox (k : String) :
    (db.setOutbox outbox).historyOf k = db.historyOf k := rfl
@[simp] lemma transitions_setOutbox : (db.setOutbox outbox).transitions = db.transitions := rfl
@[simp] lemma wakes_setOutbox : (db.setOutbox outbox).wakes = db.wakes := rfl
@[simp] lemma jobs_setOutbox : (db.setOutbox outbox).jobs = db.jobs := rfl
@[simp] lemma outbox_setOutbox : (db.setOutbox outbox).outbox = outbox := rfl
@[simp] lemma instances_setOutbox : (db.setOutbox outbox).instances = db.instances := rfl
@[simp] lemma events_setOutbox : (db.setOutbox outbox).events = db.events := rfl

end

lemma getById_id {db : Db} {id : String} {r : QueueItem} (h : db.getById id = some r) :
    r.qitemId = id :=
  Table.get?_key h

lemma insertRow_eq_ok {db db' : Db} {r : QueueItem} (h : db.insertRow r = .ok db') :
    db.getById r.qitemId = none ∧
      (∀ k, db'.getById k = if k = r.qitemId then some r else db.getById k) ∧
      db' = { db with items := db'.items } := by
  unfold insertRow at h
  split at h
  · rename_i items hi
    cases pure_eq_ok.mp h
    exact ⟨(Table.insert?_eq_some hi).1, fun k => Table.get?_insert? hi k, rfl⟩
  · simp at h

lemma insertRow_rows {db db' : Db} {r : QueueItem} (h : db.insertRow r = .ok db') :
    db'.items.rows = db.items.rows ++ [r] := by
  unfold insertRow at h
  split at h
  · rename_i items hi
    cases pure_eq_ok.mp h
    exact (Table.insert?_eq_some hi).2
  · simp at h

lemma rows_updateRow_last {db : Db} {rows : List QueueItem} {s : QueueItem}
    {f : QueueItem → QueueItem} {hf} (hrows : db.items.rows = rows ++ [s])
    (hfresh : ∀ r ∈ rows, r.qitemId ≠ s.qitemId) :
    (db.updateRow s.qitemId f hf).items.rows = rows ++ [f s] := by
  have h : rows.map (Table.rewrite (fun r => r.qitemId = s.qitemId) f) = rows.map id :=
    List.map_congr_left fun r hr => by simp [Table.rewrite, hfresh r hr]
  rw [List.map_id] at h
  change db.items.rows.map (Table.rewrite (fun r => r.qitemId = s.qitemId) f) = rows ++ [f s]
  rw [hrows, List.map_append, h]
  simp [Table.rewrite]

lemma insertRow_error {db : Db} {r : QueueItem} {e : QueueRepositoryError}
    (h : db.insertRow r = .error e) : (db.getById r.qitemId).isSome := by
  unfold insertRow at h
  split at h
  · cases h
  · rename_i hi
    exact Table.insert?_eq_none.mp hi

/-! ### Reads of the log -/

/-- `retainedClaimBlocker`: the gate an in-progress row's latest transition points at. -/
def retainedClaimBlocker (db : Db) (id : String) : Option String :=
  match (db.historyOf id).head? with
  | some t => if t.state = .inProgress && t.closureReason.isNone then t.closureTarget else none
  | none => none

end Db

/-- `newQitemId`: a stamp of the clock and eight random hex digits. -/
def newQitemId (env : Env) : String :=
  "qitem-" ++ String.ofList (stamp14 env.now ++ '-' :: digits 16 8 env.random)

lemma newQitemId_ne_crossHost (env : Env) (s : String) : newQitemId env ≠ "qitem-xh-" ++ s := by
  intro h
  obtain ⟨c, l, hl, hc⟩ := stamp14_head env.now
  have := congrArg String.toList h
  simp only [newQitemId, hl, String.toList_append, String.toList_ofList, List.cons_append] at this
  have hx : "qitem-xh-".toList = "qitem-".toList ++ "xh-".toList := by decide
  rw [hx, List.append_assoc] at this
  have h3 : "xh-".toList = ['x', 'h', '-'] := by decide
  rw [h3] at this
  exact hc (List.cons.inj (List.append_cancel_left this)).1

end OpenRig.QueueDb
