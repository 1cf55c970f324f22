import OpenRig.QueueDb

/-!
The outbox and the wake intents in it.

`OutboxHandler`'s writers of `delivery_state` are compare-and-set updates, each with the
states it starts from. A wake intent is staged by the verb that owes the wake, inside its
transaction; a full held-message quota refuses the intent, and the row then records that its
wake is owed.
-/

namespace OpenRig.Outbox

open OpenRig.JsText OpenRig.Closure OpenRig.QueueDb

abbrev Entries := Table OutboxEntry.outboxId

def wakeIntentPrefix : String := "wake-intent-"

/-! ### `OutboxHandler` -/

structure OutboxRecordInput where
  outboxId : String
  senderSession : String
  destinationSession : String
  body : String
  tags : Option (List String) := none
  urgency : Option String := none
  auditPointer : Option String := none
  identityProvenance : Option String := none

/-- `record`: idempotent on the id. -/
def record (now : Time) (o : Entries) (input : OutboxRecordInput) : Entries :=
  (o.insert? {
    outboxId := input.outboxId, senderSession := input.senderSession,
    destinationSession := input.destinationSession, body := input.body, tags := input.tags,
    urgency := input.urgency.getD "routine", tsDispatched := now, deliveryState := .pending,
    deliveredAt := none, auditPointer := input.auditPointer, guardBinding := none,
    identityProvenance := sideEffectProvenance input.identityProvenance,
    retiredAt := none, retiredBy := none, retirementReason := none }).getD o

/-- The retained entries bound to a node. -/
def heldForNode (o : Entries) (nodeId : String) : List OutboxEntry :=
  o.filter fun e => e.deliveryState = .retained && e.guardBinding.any fun b => b.nodeId = nodeId

/-- `assertRetentionCapacity`: at most 100 held messages and 8 MiB for a node, 1 MiB each. -/
def assertRetentionCapacity (o : Entries) (nodeId body : String) : Result Unit :=
  let held := heldForNode o nodeId
  let bytes := (held.map fun e => e.body.utf8ByteSize).sum
  refuseIf (1024 * 1024 < body.utf8ByteSize || 100 ≤ held.length ||
      8 * 1024 * 1024 < bytes + body.utf8ByteSize) .retainedQuotaFull
    ("Held-message quota is full. Retire a specific held message to release active quota; " ++
      "no input was written.")

/-- The sender a watchdog's reminders carry. -/
def watchdogSender : String := "watchdog@system"

/-- The retained reminders a newer reminder of the same watchdog job replaces. -/
def supersededReminder (input : OutboxRecordInput) (binding : GuardBinding) (e : OutboxEntry) :
    Bool :=
  e.deliveryState = .retained && e.senderSession = watchdogSender &&
    e.auditPointer = input.auditPointer && e.guardBinding.any fun b => b.nodeId = binding.nodeId

/-- `retain`: hold a fresh message, or one still pending or sending. -/
def retain (now : Time) (o : Entries) (input : OutboxRecordInput) (binding : GuardBinding)
    (precommitted : Bool) : Result Entries := do
  let existing := o.get? input.outboxId
  if let some e := existing then
    if e.senderSession ≠ input.senderSession || e.destinationSession ≠ input.destinationSession ||
        e.body ≠ input.body || e.guardBinding.any (· ≠ binding) then
      refuse .deliveryIdentityConflict
        "The delivery ID already names different content or target identity."
    else if e.deliveryState = .retained || e.deliveryState = .retired then
      return o
    else if e.deliveryState ≠ .pending && e.deliveryState ≠ .sending then
      refuse .deliveryAlreadyAttempted
        "This delivery already has a terminal outcome; it cannot be retained or retried."
  else if precommitted then
    refuse .outboxNotFound
      "Precommitted delivery is missing; no replacement custody is created."
  let o := if existing.isNone && !precommitted && input.senderSession = watchdogSender &&
      truthy input.auditPointer then
    o.updateWhere (supersededReminder input binding) fun e =>
      { e with
        deliveryState := .retired, retiredAt := some now, retiredBy := some watchdogSender,
        retirementReason := some "superseded by a newer reminder from the same watchdog job" }
    else o
  if !precommitted then assertRetentionCapacity o binding.nodeId input.body
  let o := if existing.isNone then record now o input else o
  return o.updateWhere
    (fun e => e.outboxId = input.outboxId &&
      (e.deliveryState = .pending || e.deliveryState = .sending))
    fun e => { e with deliveryState := .retained, guardBinding := some binding,
                      deliveredAt := none }

/-! ### Staging a wake -/

def wakeTriggerOpenrigTag : String := "queue:wake-trigger:openrig"
def autoUnparkWakeTag : String := "queue:auto-unpark:blocker"
def autoUnparkBlockerTagPrefix : String := "queue:auto-unpark:blocker-ref:"

/-- A row's nudge result when its wake could not be staged. -/
def wakeNotRetained : String := "failed:wake not retained: "

def recordNudgeAttempt (env : Env) (db : Db) (qitemId result : String) : Db :=
  db.updateRow qitemId fun r =>
    { r with lastNudgeAttempt := some env.now, lastNudgeResult := some result }

structure WakeIntentInput where
  outboxId : String
  auditPointer : String
  /-- The row this wake delivers, for the reply hint. -/
  qitemId : Option String
  fromSession : String
  toSession : String
  identityProvenance : Option String
  bareBody : String
  tags : Option (List String)

/-- `wakeAdmission`: whether the row's priority makes its wake urgent, and who marked it. -/
def wakeAdmission (db : Db) (qitemId : String) (trigger : WakeTrigger) : Bool × Option String :=
  match db.getById qitemId with
  | some row =>
    let urgent := row.priority = "urgent" || row.priority = "critical"
    (urgent, if !urgent then none
      else if trigger = .openrig then some "OpenRig" else some row.sourceSession)
  | none => (false, none)

/-- `recordWakeIntent`: freeze the envelope and keep the intent, held or pending. -/
def recordWakeIntent (env : Env) (db : Db) (input : WakeIntentInput) : Result Db :=
  if !env.outboxAttached then pure db
  else do
    let trigger := if (input.tags.getD []).contains wakeTriggerOpenrigTag then WakeTrigger.openrig
      else .agent
    let envelope := env.wrapPaneEnvelope input.fromSession input.toSession input.bareBody
      (env.resolveOccupantGeneration input.fromSession) input.qitemId
    let (urgent, urgentBy) := wakeAdmission db input.auditPointer trigger
    let entry : OutboxRecordInput :=
      { outboxId := input.outboxId, senderSession := input.fromSession,
        destinationSession := input.toSession,
        body := match urgentBy with
          | some who => env.withUrgentLine envelope who
          | none => envelope,
        tags := input.tags, auditPointer := some input.auditPointer,
        identityProvenance := input.identityProvenance,
        urgency := if urgent then some "urgent" else none }
    match env.retentionTarget input.toSession trigger urgent with
    | some target => do
      let o ← retain env.now db.outbox entry target false
      return db.setOutbox o
    | none => do
      if let some draftTarget := env.draftAwareTarget input.toSession then
        assertRetentionCapacity db.outbox draftTarget.nodeId envelope
      let o := record env.now db.outbox entry
      return db.setOutbox <| match env.deliveryTarget input.toSession with
        | some binding => o.updateWhere
            (fun e => e.outboxId = input.outboxId && e.guardBinding.isNone)
            fun e => { e with guardBinding := some binding }
        | none => o

/-- `stageWakeIntent`: the wake a successor row is owed; none was intended by `nudge: false`. -/
def stageWakeIntent (env : Env) (db : Db) (successorQitemId fromSession toSession : String)
    (identityProvenance : Option String) (nudge : Option Bool) (trigger : WakeTrigger) :
    Result Db :=
  if nudge = some false then pure db
  else
    let successor := db.getById successorQitemId
    let handedOffFrom := (successor.bind QueueItem.handedOffFrom).filter (· ≠ "")
    recordWakeIntent env db
      { outboxId := wakeIntentPrefix ++ successorQitemId
        auditPointer := successorQitemId
        qitemId := some successorQitemId
        fromSession, toSession, identityProvenance
        bareBody := env.renderQueueHandoffNudge successorQitemId
          (successor.bind QueueItem.summary)
        tags := if handedOffFrom.isSome || trigger = .openrig then
          some ((handedOffFrom.map ("queue:return:" ++ ·)).toList ++
            if trigger = .openrig then [wakeTriggerOpenrigTag] else [])
          else none }

/-- `stageHandoffWake`: a full held-message quota does not refuse the handoff. -/
def stageHandoffWake (env : Env) (db : Db) (successorQitemId fromSession toSession : String)
    (identityProvenance : Option String) (nudge : Option Bool) : Result Db :=
  match stageWakeIntent env db successorQitemId fromSession toSession identityProvenance nudge
    .agent with
  | .ok db' => .ok db'
  | .error e =>
    if e.code = .retainedQuotaFull then
      .ok (recordNudgeAttempt env db successorQitemId (wakeNotRetained ++ e.message))
    else .error e

def stageAutoUnparkWakeIntent (env : Env) (db : Db)
    (qitemId destinationSession fromSession : String)
    (identityProvenance : Option String) (blockerQitemId : String) (resumeTransitionId : ℕ) :
    Result Db :=
  recordWakeIntent env db
    { outboxId := wakeIntentPrefix ++ "blocker-" ++ toString resumeTransitionId
      auditPointer := qitemId
      qitemId := none
      fromSession
      toSession := destinationSession
      identityProvenance
      bareBody := "Blocker " ++ blockerQitemId ++ " resolved; parked qitem " ++ qitemId ++
        " is pending. Resume the recorded continuation and update the row."
      tags := some [autoUnparkWakeTag, wakeTriggerOpenrigTag,
        autoUnparkBlockerTagPrefix ++ blockerQitemId, "queue:return:" ++ blockerQitemId] }

/-- `assertTerminalClosureHasIntent`: the last statement of a close that intended a wake. -/
def assertTerminalClosureHasIntent (env : Env) (db : Db) (sourceQitemId successorQitemId : String)
    (nudge : Option Bool) : Result Unit :=
  if nudge = some false then pure ()
  else if !env.outboxAttached then
    refuse .wakeIntentStoreUnavailable
      ("a nudge-intended terminal act requires an attached wake-intent store to make its wake " ++
        "durable — none attached (pass nudge:false for a wake-less close, or attach an outbox)")
  else if !((db.getById sourceQitemId).any fun r => r.state.isTerminalState) then pure ()
  else refuseIf ((db.outbox.get? (wakeIntentPrefix ++ successorQitemId)).isNone &&
      !((db.getById successorQitemId).bind QueueItem.lastNudgeResult).any
        fun s => startsWith s wakeNotRetained)
    .terminalCloseWithoutWakeIntent
    ("terminal closure of " ++ sourceQitemId ++ " committed without staging its wake intent for " ++
      successorQitemId ++ " — one act or none is violated")

/-! ### What staging can touch -/

lemma recordWakeIntent_db {env : Env} {db db' : Db} {input : WakeIntentInput}
    (h : recordWakeIntent env db input = .ok db') : db' = db.setOutbox db'.outbox := by
  unfold recordWakeIntent at h
  split at h
  · cases pure_eq_ok.mp h
    rfl
  · simp only at h
    split at h
    · obtain ⟨o, -, ho⟩ := bind_eq_ok.mp h
      cases pure_eq_ok.mp ho
      rfl
    · split at h
      · obtain ⟨-, -, ho⟩ := bind_eq_ok.mp h
        cases pure_eq_ok.mp ho
        rfl
      · cases pure_eq_ok.mp h
        rfl

lemma stageWakeIntent_db {env : Env} {db db' : Db} {q a b : String} {p : Option String}
    {n : Option Bool} {tr : WakeTrigger} (h : stageWakeIntent env db q a b p n tr = .ok db') :
    db' = db.setOutbox db'.outbox := by
  unfold stageWakeIntent at h
  split at h
  · cases pure_eq_ok.mp h
    rfl
  · exact recordWakeIntent_db h

lemma stageAutoUnparkWakeIntent_db {env : Env} {db db' : Db} {q d f : String} {p : Option String}
    {b : String} {t : ℕ} (h : stageAutoUnparkWakeIntent env db q d f p b t = .ok db') :
    db' = db.setOutbox db'.outbox :=
  recordWakeIntent_db h

end OpenRig.Outbox
