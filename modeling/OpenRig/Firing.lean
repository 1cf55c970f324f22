import OpenRig.Update

/-!
What a watchdog delivery does to the queue, and the step function over every verb.

The engine delivers first and accounts for the attempt afterwards, only while the job is still
active. The accounting records the attempt on the rows parked on the job, ends a one-shot
timer, and resolves a provider-limit blocker. `exec` runs one operation in its transaction: a
refused operation has no outcome, so it leaves the tables as they were.
-/

namespace OpenRig.Firing

open OpenRig.JsText OpenRig.Closure OpenRig.QueueDb OpenRig.Watchdogs OpenRig.Verbs
open OpenRig.Handoff OpenRig.Update

/-- The tag of the shared provider-limit blocker. -/
def usageLimitBlockerTag : String := "usage-limit-blocker"

def isUsageLimitBlocker (db : Db) (qitemId : String) : Bool :=
  ((db.getById qitemId).bind QueueItem.tags).any fun t => t.contains usageLimitBlockerTag

structure WakeAttempt where
  jobId : String
  deliveryStatus : String
  /-- The occurrence remains owed until this instant. -/
  retryAt : Option String := none

def WakeAttempt.note (a : WakeAttempt) : String :=
  match a.retryAt with
  | some t => "park wake failed: watchdog " ++ a.jobId ++ "; delivery=" ++ a.deliveryStatus ++
      "; occurrence remains owed; retry at " ++ t
  | none =>
    if a.deliveryStatus = "retained" then
      "park wake retained: watchdog " ++ a.jobId ++ "; not delivered; blocked work unchanged"
    else "park wake fired: watchdog " ++ a.jobId ++ "; delivery=" ++ a.deliveryStatus ++
      "; awaiting owner consumption"

/-- The attempt, on one parked row: a receipt in the log, and a fired wake unless it is owed. -/
def recordFired (env : Env) (a : WakeAttempt) (db : Db) (target : String × ParkWake) : Db :=
  let transitionId := db.nextTransitionId
  let db := db.append env.now
    { qitemId := target.1, state := .blocked, actorSession := "watchdog@system",
      transitionNote := some a.note }
  let db := if a.retryAt.isNone then
    db.recordWake
      { transitionId, qitemId := target.1, phase := .fired a.deliveryStatus, wake := target.2 }
    else db
  db.emit (.updated target.1 .blocked .blocked none none "watchdog@system"
    ((db.getById target.1).bind QueueItem.summary))

/-- The close of a provider-limit blocker whose own timer reached its expiry. -/
def resolutionInput (jobId qitemId : String) : QueueUpdateInput where
  qitemId := qitemId
  actorSession := "watchdog@system"
  state := some .done
  closureReason := some "no-follow-on"
  transitionNote := some ("provider-limit timer " ++ jobId ++
    " reached its expiry; resolving the shared blocker once")

/-- An ordinary delivered attempt ends a one-shot timer at its park, and a generated one-shot
job nothing owns any more; a repeating wait backs off. -/
def settleFiredJob (env : Env) (a : WakeAttempt) (parkGenerated : Bool) (db : Db) : Db :=
  if parkGenerated then
    match backOffQueueWait env db.jobs a.jobId (some a.deliveryStatus) with
    | some jobs => db.setJobs jobs
    | none => db.setJobs (markTerminal db.jobs a.jobId "park_timer_fired_once")
  else
    match (db.jobs.get? a.jobId).filter fun j => !j.spec.isQueueWait with
    | none => db
    | some _ =>
      match resolveWatchdogPreDeliveryTerminalReason db a.jobId with
      | some reason => db.setJobs (markTerminal db.jobs a.jobId reason)
      | none => db

def recordWatchdogWakeAttempt (env : Env) (db : Db) (a : WakeAttempt) : Result Db :=
  if (findBlockedQitemsByWatchdog db a.jobId false).isEmpty then pure db
  else
    let targets := findBlockedQitemsByWatchdog db a.jobId true
    let usageLimitBlockers := targets.filter fun t => isUsageLimitBlocker db t.1
    let parkGenerated := !(findCurrentQitemsByGeneratedTimer db a.jobId).isEmpty
    let db := targets.foldl (recordFired env a) db
    if a.retryAt.isSome || a.deliveryStatus = "retained" then pure db
    else if usageLimitBlockers.isEmpty then pure (settleFiredJob env a parkGenerated db)
    else
      let db := db.setJobs (markTerminal db.jobs a.jobId "usage_limit_expiry_fired")
      usageLimitBlockers.foldlM (fun db t => update env db (resolutionInput a.jobId t.1)) db

/-- The engine's `accountWake`: the attempt counts while the job is still active. -/
def accountWake (env : Env) (db : Db) (a : WakeAttempt) : Result Db :=
  if (db.jobs.get? a.jobId).any fun j => j.state = .active then recordWatchdogWakeAttempt env db a
  else pure db

/-- The engine's pre-transport guard, on an active job. -/
def terminalBeforeDelivery (db : Db) (jobId : String) : Db :=
  if (db.jobs.get? jobId).any fun j => j.state = .active then
    match resolveWatchdogPreDeliveryTerminalReason db jobId with
    | some reason => db.setJobs (markTerminal db.jobs jobId reason)
    | none => db
  else db

/-! ### Operations -/

/-- An operator's or the engine's act on one watchdog job, outside the queue's verbs. -/
inductive JobOp where
  | register (input : RegisterInput)
  | stop (jobId reason : String)
  /-- A policy's own terminal outcome. -/
  | policyTerminal (jobId reason : String)
  | evaluated (jobId : String)
  /-- An in-place update of message and interval. -/
  | retune (jobId : String) (message : Option String) (intervalSeconds : ℕ)

/-- The spec an in-place update leaves: a wait keeps its packet, only its interval moves. -/
def retuneSpec (message : Option String) (intervalSeconds : ℕ) : WatchdogSpec → WatchdogSpec
  | .reminder target m => .reminder target (message.getD m)
  | .queueWait target m w =>
    .queueWait target m { w with initialSeconds := intervalSeconds,
                                 maxSeconds := max w.maxSeconds intervalSeconds }
  | .other text => .other text

def execJob (env : Env) (jobs : Jobs) : JobOp → Result Jobs
  | .register input => register env jobs input
  | .stop jobId reason => stop jobs jobId reason
  | .policyTerminal jobId reason =>
    pure (if (jobs.get? jobId).any fun j => j.state = .active then markTerminal jobs jobId reason
      else jobs)
  | .evaluated jobId => pure (recordEvaluation jobs jobId env.now)
  | .retune jobId message intervalSeconds =>
    pure (jobs.updateWhere (fun j => j.jobId = jobId && j.state = .active) fun j =>
      { j with spec := retuneSpec message intervalSeconds j.spec, intervalSeconds })

/-- One operation on a daemon's queue. -/
inductive Op where
  | create (input : QueueCreateInput)
  | claim (input : QueueClaimInput)
  | unclaim (input : QueueUnclaimInput)
  | update (input : QueueUpdateInput)
  | handoff (input : QueueHandoffInput)
  | handoffAndComplete (input : QueueHandoffInput)
  | closeCrossHost (input : CrossHostCloseInput)
  | routeToFallback (input : FallbackInput)
  | releaseClaims (generation : String)
  | transferClaims (fromGeneration toGeneration note : String)
  | wakeAttempt (attempt : WakeAttempt)
  | terminalBeforeDelivery (jobId : String)
  | refreshWaits (changedQitem : Option String) (proofChanged : Bool)
  | job (op : JobOp)

def exec (env : Env) (db : Db) : Op → Result Db
  | .create input => (create env db input).map Prod.snd
  | .claim input => claim env db input
  | .unclaim input => unclaim env db input
  | .update input => update env db input
  | .handoff input => handoff env db input
  | .handoffAndComplete input => handoffAndComplete env db input
  | .closeCrossHost input => (closeCrossHostHandoffSource env db input).map Prod.snd
  | .routeToFallback input => routeToFallback env db input
  | .releaseClaims generation => pure (releaseClaimsByGeneration env db generation)
  | .transferClaims a b note => pure (transferClaimsByGeneration env db a b note)
  | .wakeAttempt attempt => accountWake env db attempt
  | .terminalBeforeDelivery jobId => pure (terminalBeforeDelivery db jobId)
  | .refreshWaits changed proof => pure (refreshQueueWaits env changed proof db)
  | .job op => (execJob env db.jobs op).map db.setJobs

end OpenRig.Firing
