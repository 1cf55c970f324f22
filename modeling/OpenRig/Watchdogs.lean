import Mathlib.Data.List.Dedup
import OpenRig.QueueDb
import OpenRig.SqlLike

/-!
Park wakes and the watchdog jobs behind them: the job repository's writes, the projection
of a row's current wake, the queries over armed and fired wakes, the repeating waits, and
the one place a park-generated timer is retired.
-/

namespace OpenRig.Watchdogs

open OpenRig.JsText OpenRig.Closure OpenRig.QueueDb OpenRig.SqlLike

abbrev Jobs := Table WatchdogJob.jobId

/-! ### The job repository -/

structure RegisterInput where
  policy : String
  spec : WatchdogSpec
  targetSession : String
  intervalSeconds : ℕ
  registeredBySession : String

/-- `register`: an active job under a fresh id; a target without `@` is refused. -/
def register (env : Env) (jobs : Jobs) (input : RegisterInput) : Result Jobs :=
  if !includes input.targetSession "@" then
    refuse .targetSessionInvalid
      ("target_session must be canonical '<member>@<rig>' (got '" ++ input.targetSession ++ "')")
  else
    match jobs.insert? {
      jobId := env.ulid, policy := input.policy, spec := input.spec,
      targetSession := input.targetSession, intervalSeconds := input.intervalSeconds,
      lastEvaluationAt := none, lastFireAt := none, state := .active,
      registeredBySession := input.registeredBySession, registeredAt := env.now,
      terminalReason := none,
      registeredByGeneration := env.resolveOccupantGeneration input.registeredBySession } with
    | some jobs => pure jobs
    | none => refuse .primaryKeyConflict "UNIQUE constraint failed: watchdog_jobs.job_id"

/-- `recordEvaluation` without a fire. -/
def recordEvaluation (jobs : Jobs) (jobId : String) (at_ : Time) : Jobs :=
  jobs.update jobId fun j => { j with lastEvaluationAt := some at_ }

/-- `updateSchedule`: only an active job is rescheduled. -/
def updateSchedule (jobs : Jobs) (jobId : String) (spec : WatchdogSpec) (intervalSeconds : ℕ)
    (lastEvaluationAt : Option Time) : Jobs :=
  jobs.updateWhere (fun j => j.jobId = jobId && j.state = .active) fun j =>
    { j with spec, intervalSeconds, lastEvaluationAt }

def markTerminal (jobs : Jobs) (jobId reason : String) : Jobs :=
  jobs.update jobId fun j => { j with state := .terminal, terminalReason := some reason }

/-- `stop`: a terminal job cannot be stopped. -/
def stop (jobs : Jobs) (jobId reason : String) : Result Jobs :=
  match jobs.get? jobId with
  | none => refuse .jobNotFound ("watchdog job " ++ jobId ++ " not found")
  | some j =>
    match j.state with
    | .terminal =>
      refuse .jobTerminal ("cannot stop watchdog job " ++ jobId ++ ": state is terminal")
    | .stopped => pure jobs
    | .active =>
      pure (jobs.update jobId fun j => { j with state := .stopped, terminalReason := some reason })

/-! ### Wake queries -/

/-- Whether the job is active and repeats. -/
def isRepeatingTimer (jobs : Jobs) (jobId : String) : Bool :=
  (jobs.get? jobId).any fun j => j.state = .active && j.spec.isQueueWait

/-- A wake is live while its job is active or its blocker is. -/
def isLive (db : Db) : ParkWake → Bool
  | .watchdog j | .timer j => (db.jobs.get? j).any fun r => r.state = .active
  | .blocker q => (db.getById q).any fun r => r.state.isBlockerLive

/-- The row's most recent armed wake. -/
def latestArmed (db : Db) (qitemId : String) : Option WakeRecord :=
  db.wakes.find? fun w => w.qitemId = qitemId && w.phase = .armed

/-- A fired record of the same continuation after it was armed, with its delivery status. -/
def firedAfter (armed w : WakeRecord) : Option String :=
  match w.phase with
  | .armed => none
  | .fired status =>
    if w.qitemId = armed.qitemId && w.wake.ref = armed.wake.ref &&
      armed.transitionId < w.transitionId then some status else none

/-- The latest attempt of an armed wake. -/
def latestFired (db : Db) (armed : WakeRecord) : Option String :=
  db.wakes.findSome? (firedAfter armed)

/-- An attempt that was not held back consumes a one-shot wake. -/
def consumed (db : Db) (armed : WakeRecord) : Bool :=
  db.wakes.any fun w => (firedAfter armed w).any (· ≠ "retained")

structure ParkWakeStatus where
  wake : ParkWake
  fired : Option String
  live : Bool
  unconsumed : Bool
  deriving DecidableEq

/-- `getStatus`: the row's current wake, whether it can still fire, and whether a fired wake
still waits for its owner. -/
def getStatus (db : Db) (qitemId : String) : Option ParkWakeStatus :=
  (latestArmed db qitemId).map fun armed =>
    let fired := latestFired db armed
    let repeating := match armed.wake.ref with
      | .job j => isRepeatingTimer db.jobs j
      | .qitem _ => false
    let heldBack := fired = some "retained" && !repeating
    { wake := armed.wake
      fired
      live := if fired.isSome && !repeating && !heldBack then false else isLive db armed.wake
      unconsumed := fired.isSome && !heldBack &&
        (db.getById qitemId).any fun r => r.state = .blocked }

/-- The row exists and is parked. -/
def isBlocked (db : Db) (qitemId : String) : Bool :=
  (db.getById qitemId).any fun r => r.state = .blocked

/-- The armed records that name a job as a watchdog or a timer. -/
def armedOn (db : Db) (jobId : String) : List WakeRecord :=
  db.wakes.filter fun w =>
    w.phase = .armed && (w.wake = .watchdog jobId || w.wake = .timer jobId)

def findBlockedQitemsByWatchdog (db : Db) (jobId : String) (latestArmedOnly : Bool) :
    List (String × ParkWake) :=
  (((armedOn db jobId).filter fun w =>
    isBlocked db w.qitemId && (!latestArmedOnly || latestArmed db w.qitemId = some w) &&
      (isRepeatingTimer db.jobs jobId || !consumed db w)).map
    fun w => (w.qitemId, w.wake)).dedup

/-- `findQitemsByGeneratedTimer`: the rows whose park generated the job. -/
def findQitemsByGeneratedTimer (db : Db) (jobId : String) : List String :=
  ((db.wakes.filter fun w => w.phase = .armed && w.wake = .timer jobId &&
    (db.getById w.qitemId).isSome).map WakeRecord.qitemId).dedup

/-- A failed attempt: it consumes an attachment only on a one-shot timer. -/
def isFailedStatus (status : String) : Bool :=
  status = "failed" || like "failed:%".toList status.toList

/-- `findLiveQitemsByAttachedWatchdog`: the parked rows an operator attached the job to, whose
attachment no attempt has consumed. -/
def findLiveQitemsByAttachedWatchdog (db : Db) (jobId : String) : List String :=
  ((db.wakes.filter fun w => w.phase = .armed && w.wake = .watchdog jobId &&
    isBlocked db w.qitemId && latestArmed db w.qitemId = some w &&
    !(db.wakes.any fun f => (firedAfter w f).any fun status =>
      status ≠ "retained" && (!isRepeatingTimer db.jobs jobId || !isFailedStatus status))).map
    WakeRecord.qitemId).dedup

/-- `findCurrentQitemsByGeneratedTimer`: generating rows whose current park uses the job. -/
def findCurrentQitemsByGeneratedTimer (db : Db) (jobId : String) : List String :=
  (findQitemsByGeneratedTimer db jobId).filter fun q =>
    isBlocked db q && (getStatus db q).any fun s => s.wake.ref = .job jobId

/-! ### Repeating waits -/

/-- The system actors whose same-state transitions carry no progress. -/
def quietActors : List String :=
  ["watchdog@system", "wake-ladder@system", "daemon@kernel", "daemon@system"]

/-- The first transition, newest first, that is no receipt: written by another actor, or a
change of state, and no fired wake's. -/
def firstMeaningful (wakes : List WakeRecord) : List Transition → Option ℕ
  | [] => none
  | t :: rest =>
    let changed := (rest.head?.map Transition.state) ≠ some t.state
    let isFire := wakes.any fun w => w.transitionId = t.transitionId && w.phase ≠ .armed
    if (!quietActors.contains t.actorSession || changed) && !isFire then some t.transitionId
    else firstMeaningful wakes rest

def lastMeaningfulTransition (db : Db) (id : String) : Option ℕ :=
  firstMeaningful db.wakes (db.historyOf id)

/-- The progress signal of a wait: its blocker's last meaningful transition. -/
def blockerTransition (db : Db) (blocker : Option String) : Option ℕ :=
  match blocker with
  | some b => if startsWith b "qitem-" then lastMeaningfulTransition db b else none
  | none => none

def readWait (j : WatchdogJob) : Option (String × String × WaitState) :=
  match j.spec with
  | .queueWait target message w => if w.qitemId ≠ "" then some (target, message, w) else none
  | _ => none

structure ArmInput where
  previousJobId : Option String
  qitemId : String
  blocker : Option String
  evidence : Option String
  initialSeconds : ℕ
  maxSeconds : ℕ
  message : String
  owner : String
  actor : String

/-- `armQueueWait`: reuse the row's own active wait, or register a new job. -/
def armQueueWait (env : Env) (db : Db) (input : ArmInput) : Result (Jobs × String) := do
  let prior := input.previousJobId.bind db.jobs.get?
  let old := (prior.filter fun j => j.state = .active).bind readWait
  let evidence := input.evidence <|> old.bind fun o => o.2.2.evidence
  let state : WaitState :=
    { qitemId := input.qitemId, blocker := input.blocker,
      blockerTransition := blockerTransition db input.blocker, evidence,
      initialSeconds := input.initialSeconds, maxSeconds := input.maxSeconds,
      eventPending := false, attentionRevision := env.attentionRevision evidence }
  let unchanged := old.any fun o =>
    ({ o.2.2 with eventPending := false, notice := none } : WaitState) = state
  let wait := match old with
    | some o => if unchanged then o.2.2 else state
    | none => state
  let spec := WatchdogSpec.queueWait input.owner input.message wait
  match prior, old with
  | some p, some _ =>
    if p.targetSession = input.owner then
      pure (updateSchedule db.jobs p.jobId spec
        (if unchanged then p.intervalSeconds else input.initialSeconds)
        (if unchanged then p.lastEvaluationAt else some env.now), p.jobId)
    else
      let jobs ← register env db.jobs ⟨"periodic-reminder", spec, input.owner,
        input.initialSeconds, input.actor⟩
      pure (recordEvaluation jobs env.ulid env.now, env.ulid)
  | _, _ =>
    let jobs ← register env db.jobs ⟨"periodic-reminder", spec, input.owner,
      input.initialSeconds, input.actor⟩
    pure (recordEvaluation jobs env.ulid env.now, env.ulid)

/-- `backOffQueueWait`: `none` when the job is no repeating wait. -/
def backOffQueueWait (env : Env) (jobs : Jobs) (jobId : String) (deliveryStatus : Option String) :
    Option Jobs := do
  let job ← jobs.get? jobId
  let (target, message, w) ← readWait job
  let delay := if w.eventPending then w.initialSeconds
    else min (job.intervalSeconds * 2) w.maxSeconds
  let notice := match deliveryStatus with
    | some s => some ⟨w.blockerTransition, w.attentionRevision, env.now, s⟩
    | none => w.notice
  return updateSchedule jobs jobId (.queueWait target message
    { w with notice, eventPending := false }) delay (some env.now)

/-- `retargetQueueWait`: rebind a repeating wait to another blocker, due at once. -/
def retargetQueueWait (db : Db) (jobId blocker : String) : Option Jobs := do
  let job ← db.jobs.get? jobId
  let (target, message, w) ← readWait job
  return updateSchedule db.jobs jobId (.queueWait target message
    { w with
      blocker := some blocker, blockerTransition := blockerTransition db (some blocker),
      eventPending := true, notice := none }) w.initialSeconds (some 0)

/-- One job of `refreshQueueWaits`: a wait whose park ended is retired unless it was ever
attached; a wait whose blocker moved is due at once. -/
def refreshQueueWait (env : Env) (changedQitem : Option String) (proofChanged : Bool) (db : Db)
    (jobId : String) : Db :=
  match (db.jobs.get? jobId).bind fun j => (readWait j).map (Prod.mk j) with
  | none => db
  | some (job, target, message, w) =>
    if truthy changedQitem && w.blocker ≠ changedQitem then db
    else if !((db.getById w.qitemId).any fun r =>
        r.state = .blocked && r.blockedOn = w.blocker) then
      if db.wakes.any fun k => k.wake = .watchdog jobId then db
      else db.setJobs (markTerminal db.jobs jobId "park_wait_ended")
    else
      let current := blockerTransition db w.blocker
      let due := match job.lastEvaluationAt with
        | none => true
        | some t => t + job.intervalSeconds * 1000 ≤ env.now
      let revision := if proofChanged || due then env.attentionRevision w.evidence
        else w.attentionRevision
      if current = w.blockerTransition && revision = w.attentionRevision then db
      else db.setJobs (updateSchedule db.jobs jobId (.queueWait target message
        { w with blockerTransition := current, attentionRevision := revision,
                 eventPending := true }) w.initialSeconds (some 0))

/-- `refreshQueueWaits`: one pass over the active jobs. -/
def refreshQueueWaits (env : Env) (changedQitem : Option String) (proofChanged : Bool) (db : Db) :
    Db :=
  ((db.jobs.filter fun j => j.state = .active).map WatchdogJob.jobId).foldl
    (refreshQueueWait env changedQitem proofChanged) db

/-! ### The end of a park -/

/-- `retireParkGeneratedTimer`: only a live timer the park generated, and only while no
attachment has custody of it. -/
def retireParkGeneratedTimer (db : Db) (qitemId reason : String) : Db :=
  match getStatus db qitemId with
  | some { wake := .timer j, live := true, .. } =>
    if (findLiveQitemsByAttachedWatchdog db j).isEmpty then
      db.setJobs (markTerminal db.jobs j reason)
    else db
  | _ => db

lemma retireParkGeneratedTimer_eq (db : Db) (qitemId reason : String) :
    retireParkGeneratedTimer db qitemId reason =
      db.setJobs (retireParkGeneratedTimer db qitemId reason).jobs := by
  unfold retireParkGeneratedTimer
  split
  · split
    · rfl
    · rfl
  · rfl

section
variable (db : Db) (qitemId reason : String)

@[simp] lemma items_retireParkGeneratedTimer :
    (retireParkGeneratedTimer db qitemId reason).items = db.items := by
  rw [retireParkGeneratedTimer_eq]
  rfl
@[simp] lemma transitions_retireParkGeneratedTimer :
    (retireParkGeneratedTimer db qitemId reason).transitions = db.transitions := by
  rw [retireParkGeneratedTimer_eq]
  rfl
@[simp] lemma wakes_retireParkGeneratedTimer :
    (retireParkGeneratedTimer db qitemId reason).wakes = db.wakes := by
  rw [retireParkGeneratedTimer_eq]
  rfl
@[simp] lemma outbox_retireParkGeneratedTimer :
    (retireParkGeneratedTimer db qitemId reason).outbox = db.outbox := by
  rw [retireParkGeneratedTimer_eq]
  rfl
@[simp] lemma instances_retireParkGeneratedTimer :
    (retireParkGeneratedTimer db qitemId reason).instances = db.instances := by
  rw [retireParkGeneratedTimer_eq]
  rfl
@[simp] lemma events_retireParkGeneratedTimer :
    (retireParkGeneratedTimer db qitemId reason).events = db.events := by
  rw [retireParkGeneratedTimer_eq]
  rfl

end

/-- `resolveWatchdogPreDeliveryTerminalReason`: a generated job ends when neither its park nor
an unfired attachment still owns it. -/
def resolveWatchdogPreDeliveryTerminalReason (db : Db) (jobId : String) : Option String :=
  if (findQitemsByGeneratedTimer db jobId).isEmpty ||
      !(findCurrentQitemsByGeneratedTimer db jobId).isEmpty then none
  else if !(findLiveQitemsByAttachedWatchdog db jobId).isEmpty then none
  else some "park_timer_target_terminal"

end OpenRig.Watchdogs
