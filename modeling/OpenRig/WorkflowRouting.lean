import OpenRig.Update
import OpenRig.WorkflowStore

/-!
What a workflow transition resolves before it writes: the owner of a step, the gate of a gated
step, the queue closure of an exit, the acceptance payload and the route of an exception; and
the keepalive jobs armed and disarmed beside it.
-/

namespace OpenRig.WorkflowRouting

open OpenRig.JsText OpenRig.Sessions OpenRig.Closure OpenRig.QueueDb OpenRig.Outbox
open OpenRig.Watchdogs OpenRig.Verbs OpenRig.Update OpenRig.WorkflowTypes OpenRig.WorkflowStore

/-! ### Gates -/

inductive GateKind where
  | human | handlerRole
  deriving DecidableEq, Repr

structure GateCompileResult where
  destinationSession : String
  /-- Reserved for an override of the packet's tier. -/
  tier : Option String := none
  summary : Option String
  evidenceRef : Option String
  kind : GateKind
  /-- The human seat the packet parks on. -/
  parkOn : Option String
  deriving DecidableEq

/-! ### What a call reads from outside the tables -/

structure WorkflowEnv where
  base : Env
  /-- The draws behind the queue ids the call mints, in order. -/
  draw : ℕ → ℕ
  /-- The ids of the watchdog jobs the call registers, in order. -/
  ulid : ℕ → String
  /-- The id of an instance the call creates. -/
  instanceId : String
  /-- `nodeRuntimeOf`. -/
  runtimeOf : String → Option String
  /-- `selectRoleSeat` over a rig's inventory: `none` when no rig has that name, else the seat, or
  the verdicts of the seats that declare the role. -/
  roleSeat : String → String → Option String → Option (Except (List String) String)
  registeredRigs : List String
  rigDeclaresRole : String → String → Bool
  seatAlive : String → Bool
  hostRegistry : String → Bool × List String
  /-- The host-level default of the exception dial. -/
  hostDial : Option WorkflowExceptionDialPosition
  /-- `workflowHumanDestination`, or why no person can be selected. -/
  humanDestination : Except String String
  /-- Whether a watchdog repository is attached. -/
  watchdogJobs : Bool
  /-- `JSON.stringify` of evidence. -/
  stringify : Record → String
  /-- `workflowHandoffBody`: current step, next step, actor, note, gate, packet, owner. -/
  handoffBody : InstanceRow → WorkflowStepSpec → WorkflowStepSpec → String → Option String →
    Option GateCompileResult → String → String → String
  /-- `workflowInstantiateBody`: objective, gate, packet, owner. -/
  instantiateBody : InstanceRow → WorkflowStepSpec → String → Option GateCompileResult → String →
    String → String
  /-- The continuation a redrive or a re-routed packet carries: text, step, packet, owner. -/
  withContinuation : InstanceRow → String → Option WorkflowStepSpec → String → String → String
  /-- `workflowWaitWakeMessage`: step, packet, owner. -/
  waitWakeMessage : InstanceRow → WorkflowStepSpec → String → String → String

/-- The queue's environment at the `k`-th write of the call. -/
def WorkflowEnv.at (env : WorkflowEnv) (k : ℕ) : Env :=
  { env.base with random := env.draw k, ulid := env.ulid k }

/-! ### Queue writes inside the transaction -/

def createWithinTransaction (env : Env) (db : Db) (input : QueueCreateInput) : Result Db := do
  validateDestination env "destination_session" input.destinationSession
  createInTransactionalContext env db input

/-- A failed hop resolution, as the source's `??` and truthiness tests read an owner. -/
def requireOwner (owner : Option String) (code : WorkflowErrorCode) (message : String) :
    Outcome String :=
  match owner with
  | none | some "" => reject code message
  | some o => .ok o

/-! ### Owners -/

def resolveRoleOnBoundRig (env : WorkflowEnv) (roleName : String) (harness : Option String)
    (boundRig stepId : String) : Outcome String :=
  match env.roleSeat boundRig roleName harness with
  | none =>
    reject .boundRigNotFound
      (s!"cannot resolve role \"{roleName}\" for step \"{stepId}\": the instance's bound rig " ++
        s!"\"{boundRig}\" no longer resolves to a registered rig (torn down mid-run?). " ++
        "Recreate/import the rig under the same name, or instantiate a fresh run bound " ++
        "elsewhere.")
  | some (.ok seat) => .ok seat
  | some (.error []) =>
    reject .nextOwnerUnresolved
      (s!"cannot resolve role \"{roleName}\" for step \"{stepId}\" (no seats on rig " ++
        s!"\"{boundRig}\" declare role \"{roleName}\"). Add a member with role {roleName} to " ++
        s!"rig {boundRig} via rig add, declare role on an existing member, or add " ++
        "preferred_targets to the role in the spec.")
  | some (.error declaring) =>
    reject .nextOwnerUnresolved
      (s!"cannot resolve a live capable seat for role \"{roleName}\" for step \"{stepId}\" on " ++
        s!"rig \"{boundRig}\". Candidates: " ++ ", ".intercalate declaring ++ ". Start/repair a " ++
        s!"role seat (see rig ps), add a member with role {roleName} via rig add, or add " ++
        "preferred_targets to the role.")

/-- `roleResolutionContext`: an unbound instance has none. -/
def roleContext (boundRig : Option String) : Option String := boundRig.filter (· ≠ "")

/-- `c.session → c.runtime`, for each candidate of a pin. -/
def runtimesText (env : WorkflowEnv) (targets : List String) : String :=
  ", ".intercalate (targets.map fun t => t ++ " → " ++ (env.runtimeOf t).getD "unknown")

/-- `resolveDefaultOwner`: the first preferred target whose runtime the step's pin admits; a bound
instance's role without targets resolves by capability. -/
def resolveDefaultOwner (env : WorkflowEnv) (spec : WorkflowSpec) (step : WorkflowStepSpec)
    (roleCtx : Option String) : Outcome (Option String) :=
  let targets := spec.preferredTargets step.actorRole
  match targets, roleCtx with
  | [], some rig => do
    let seat ← resolveRoleOnBoundRig env step.actorRole step.harness rig step.id
    return some seat
  | _, _ =>
    match step.harness with
    | none | some "" => .ok targets.head?
    | some pin =>
      match targets.find? fun t => env.runtimeOf t = some pin with
      | some session => .ok (some session)
      | none =>
        reject .harnessPinUnsatisfied
          (s!"step \"{step.id}\" pins harness \"{pin}\" but no preferred_target of role " ++
            s!"\"{step.actorRole}\" runs it. Candidates: " ++
            (if targets.isEmpty then "(none declared)" else runtimesText env targets) ++
            s!". Add a {pin} seat to the role's preferred_targets, or change/remove the pin.")

def reconcileExplicitOwnerHarness (env : WorkflowEnv) (step : WorkflowStepSpec)
    (explicitOwner : String) : Outcome Unit :=
  match step.harness with
  | none | some "" => .ok ()
  | some pin =>
    rejectIf (env.runtimeOf explicitOwner ≠ some pin) .harnessPinUnsatisfied
      (s!"step \"{step.id}\" pins harness \"{pin}\" but the explicitly supplied owner " ++
        s!"{explicitOwner} runs " ++
        (env.runtimeOf explicitOwner).getD "unknown (not a managed node)" ++
        s!". Supply a {pin} seat or change/remove the pin.")

/-- The handler seat of a gate: the first target of the handler role that the step's pin admits. -/
def handlerSeat (env : WorkflowEnv) (gatedStep : WorkflowStepSpec) (handler : String)
    (targets : List String) : Outcome String :=
  match gatedStep.harness with
  | none | some "" => .ok (targets.headD "")
  | some pin =>
    match targets.find? fun t => env.runtimeOf t = some pin with
    | some session => .ok session
    | none =>
      reject .harnessPinUnsatisfied
        (s!"step \"{gatedStep.id}\" pins harness \"{pin}\" and gates on handler role " ++
          s!"\"{handler}\", but no preferred_target of that role runs it. Candidates: " ++
          runtimesText env targets ++ s!". Add a {pin} seat to the handler role's " ++
          "preferred_targets, or change/remove the pin.")

/-- `compileGate`: a human gate parks the step owner's packet on the human seat, a handler gate
routes to the handler role's seat. -/
def compileGate (env : WorkflowEnv) (spec : WorkflowSpec) (gatedStep : WorkflowStepSpec)
    (roleCtx : Option String) : Outcome GateCompileResult :=
  match gatedStep.gate with
  | none =>
    reject .gateMissing
      s!"compileGate called for step \"{gatedStep.id}\" which declares no gate"
  | some gate =>
    if isHumanSeatSession gate.target then do
      rejectIf (!truthy gate.summary || !truthy gate.evidenceRef) .gateHumanFieldsMissing
        (s!"step \"{gatedStep.id}\" gates on human seat {gate.target} but is missing " ++
          (if truthy gate.summary then "evidence_ref" else "summary") ++
          " — a human-parked item requires both (the shipped human-route contract).")
      let owner ← requireOwner (← resolveDefaultOwner env spec gatedStep roleCtx)
        .gateOwnerUnresolved
        (s!"step \"{gatedStep.id}\" gates on human seat {gate.target} but its role " ++
          s!"\"{gatedStep.actorRole}\" declares no preferred_targets — the parked packet has no " ++
          "owner to resume after resolve. Add preferred_targets to the role.")
      return { destinationSession := owner, summary := gate.summary,
               evidenceRef := gate.evidenceRef, kind := .human, parkOn := some gate.target }
    else if (spec.role? gate.target).isNone then
      reject .gateTargetUnresolved
        (s!"step \"{gatedStep.id}\" gates on \"{gate.target}\" which is neither a human seat " ++
          "session nor a role declared in workflow.roles. Declare the role or use a human seat " ++
          "session (human@kernel form).")
    else
      match spec.preferredTargets gate.target, roleCtx with
      | [], some rig => do
        let seat ← resolveRoleOnBoundRig env gate.target gatedStep.harness rig gatedStep.id
        return { destinationSession := seat, summary := gate.summary,
                 evidenceRef := gate.evidenceRef, kind := .handlerRole, parkOn := none }
      | [], none =>
        reject .gateHandlerUnresolved
          (s!"step \"{gatedStep.id}\" gates on handler role \"{gate.target}\" but that role " ++
            "declares no preferred_targets — the gate item has no seat to route to. Add " ++
            "preferred_targets to the role.")
      | targets, _ => do
        let seat ← handlerSeat env gatedStep gate.target targets
        return { destinationSession := seat, summary := gate.summary,
                 evidenceRef := gate.evidenceRef, kind := .handlerRole, parkOn := none }

/-! ### Exits -/

/-- The arguments of `project`. -/
structure ProjectStepInput where
  instanceId : String
  currentPacketId : String
  exit : WorkflowExitKind
  resultNote : Option String := none
  blockedOn : Option String := none
  closureEvidence : Option Record := none
  actorSession : String
  identityProvenance : Option String := none
  nextOwnerSession : Option String := none

structure QueueClosure where
  state : QueueState
  closureReason : String
  closureTarget : Option String
  handedOffTo : Option String := none
  blockedOn : Option String := none
  transitionNote : String
  deriving DecidableEq

/-- The blocker a wait without one parks on. -/
def externalGate : String := "external-gate"

def workflowExitToQueueClosure (exit : WorkflowExitKind) (resultNote blockedOn : Option String)
    (resolvedNextOwner : Option String) : Outcome QueueClosure :=
  match exit with
  | .handoff => do
    let owner ← requireOwner resolvedNextOwner .nextOwnerUnresolved
      "handoff exit requires a resolved next owner before queue closure"
    return { state := .handedOff, closureReason := "handed_off_to", closureTarget := some owner,
             handedOffTo := some owner, transitionNote := "workflow handoff to " ++ owner }
  | .waiting =>
    let blocker := blockedOn.getD externalGate
    .ok { state := .blocked, closureReason := "blocked_on", closureTarget := some blocker,
          blockedOn := some blocker, transitionNote := "workflow waiting on " ++ blocker }
  | .done =>
    .ok { state := .done, closureReason := "no-follow-on", closureTarget := none,
          transitionNote :=
            if truthy resultNote then "workflow done: " ++ resultNote.getD ""
            else "workflow done" }
  | .failed =>
    .ok { state := .done, closureReason := "denied",
          closureTarget := some (resultNote.getD "workflow_step_failed"),
          transitionNote :=
            if truthy resultNote then "workflow failed: " ++ resultNote.getD ""
            else "workflow failed" }

/-- The text under a key of a JSON value. -/
def textAt (v : Json) (key : String) : Option String := (v.get? key).bind Json.asText?

/-- `validateAcceptance`: an acceptance step leaves with its declared candidate, one of its
verdicts and its evidence. -/
def validateAcceptance (step : WorkflowStepSpec) (input : ProjectStepInput) : Outcome Unit :=
  match step.acceptance, input.exit with
  | none, _ | _, .waiting => .ok ()
  | some acceptance, _ =>
    match input.closureEvidence.bind fun e => e.get? "acceptance" with
    | some (.obj keys get) =>
      let payload := Json.obj keys get
      rejectIf (textAt payload "candidate" ≠ some acceptance.candidate ||
          !(textAt payload "verdict").any acceptance.verdicts.contains ||
          textAt payload "evidence_ref" ≠ some acceptance.evidenceRef) .acceptancePayloadMismatch
        (s!"step \"{step.id}\" acceptance payload does not match its declared " ++
          "candidate/verdict/evidence contract")
    | _ =>
      reject .acceptancePayloadRequired
        (s!"step \"{step.id}\" is an acceptance gate; delivery, a terminal producer row, or a " ++
          "liveness wake cannot advance it. Supply closureEvidence.acceptance with candidate, " ++
          "verdict, and evidence_ref.")

/-- The evidence of a close the hop guard turned into a failure. -/
def maxHopsEvidence (evidence : Option Record) (maxHops : Option ℚ) (hopCount : ℕ) : Record :=
  spread evidence "max_hops_guard"
    (Json.ofFields [("code", .str "max_hops_exceeded"),
      ("maxHops", (maxHops.map Json.num).getD .null), ("hopCount", .num hopCount),
      ("attemptedHop", .num (hopCount + 1))])

/-- The note of a close the hop guard turned into a failure. -/
def maxHopsNote (maxHops : Option ℚ) (hopCount : ℕ) : String :=
  s!"max_hops_exceeded: hop {hopCount + 1} would exceed loop_guards.max_hops=" ++
    ((maxHops.map toString).getD "undefined")

/-! ### Exceptions -/

inductive WorkflowExceptionClass where
  | unmappedFailed | humanGateTrip
  deriving DecidableEq, Repr

def WorkflowExceptionClass.text : WorkflowExceptionClass → String
  | unmappedFailed => "unmapped_failed"
  | humanGateTrip => "human_gate_trip"

def workflowExceptionTags (workflowName instanceId stepId : String)
    (exceptionClass : WorkflowExceptionClass) (occurrenceKey : String) : List String :=
  ["workflow-exception", "workflow:" ++ workflowName, "instance:" ++ instanceId] ++
    (if stepId = "" then [] else ["step:" ++ stepId]) ++
    ["exception:" ++ exceptionClass.text, "occurrence:" ++ occurrenceKey]

/-- The exception tags a human gate adds to its packet's own. -/
def gateExceptionTags (i : InstanceRow) (gate : Option GateCompileResult) (stepId : String)
    (packetId : String) : List String :=
  match gate with
  | some { kind := .human, .. } =>
    (workflowExceptionTags i.workflowName i.instanceId stepId .humanGateTrip packetId).filter
      fun t => !startsWith t "workflow:" && !startsWith t "instance:"
  | _ => []

structure ExceptionRoute where
  destinationSession : String
  tier : String
  humanRouted : Bool
  deriving DecidableEq

def humanRoute (env : WorkflowEnv) : Outcome ExceptionRoute :=
  match env.humanDestination with
  | .ok person => .ok ⟨person, "human-gate", true⟩
  | .error message => reject .humanDestinationUnavailable message

/-- `exceptionPolicy`, for the failure class. -/
def exceptionPolicy (env : WorkflowEnv) (spec : WorkflowSpec) : WorkflowExceptionDialPosition :=
  ((spec.exceptionRouting.bind fun r =>
      (r.classes.bind fun c => c.lookup WorkflowExceptionClass.unmappedFailed.text) <|>
        r.default) <|> env.hostDial).getD .orchestrator

def tryResolveRoleByCapability (env : WorkflowEnv) (roleCtx : Option String) (role : String) :
    Option String :=
  roleCtx.bind fun rig => (env.roleSeat rig role none).bind Except.toOption

/-- `resolveExceptionRoute`: the declared orchestrator's seat, else the selected person. -/
def resolveExceptionRoute (env : WorkflowEnv) (spec : WorkflowSpec) (roleCtx : Option String) :
    Outcome ExceptionRoute :=
  match exceptionPolicy env spec with
  | .humanOnly => humanRoute env
  | .orchestrator =>
    let roleName := (spec.exceptionRouting.bind (·.orchestratorRole)).filter (· ≠ "")
    let target := roleName.bind fun role =>
      (spec.preferredTargets role).head? <|> tryResolveRoleByCapability env roleCtx role
    match target with
    | none | some "" => humanRoute env
    | some session => .ok ⟨session, "mode2", false⟩

/-- `classifyFailureOccurrence(…).reason`. -/
def failureReasonText (failureReason : Option String) : String :=
  if truthy failureReason then
    "workflow step failed with no remediation branch: " ++ failureReason.getD ""
  else "workflow step failed with no remediation branch"

/-- The body of the exception item of a failed packet. -/
def exceptionBody (i : InstanceRow) (step : WorkflowStepSpec) (packetId reason : String)
    (occurrenceId : Option String) : String :=
  "WORKFLOW EXCEPTION (unmapped_failed)\n" ++
    s!"workflow: {i.workflowName} v{i.workflowVersion}\ninstance: {i.instanceId}\n" ++
    s!"step: {step.id} (role {step.actorRole})\noccurrence: {packetId}\nreason: {reason}\n" ++
    s!"evidence: rig workflow trace {i.instanceId}\nresolve: diagnose via the trace above, then " ++
    "`rig workflow resume " ++ i.instanceId ++
    ((occurrenceId.map fun o => " --occurrence " ++ o).getD "") ++
    " [--decision <text>]` re-drives from this step (completed steps never re-run)."

def exceptionItem (i : InstanceRow) (step : WorkflowStepSpec) (input : ProjectStepInput)
    (reason : String) (occurrenceId : Option String) (route : ExceptionRoute) :
    QueueCreateInput where
  sourceSession := input.actorSession
  identityProvenance := input.identityProvenance
  destinationSession := route.destinationSession
  body := exceptionBody i step input.currentPacketId reason occurrenceId
  priority := some "urgent"
  tier := some route.tier
  tags := some (workflowExceptionTags i.workflowName i.instanceId step.id .unmappedFailed
    input.currentPacketId ++ packetScopeTags i.scope step.id)
  summary := some reason
  evidenceRef := some ("rig workflow trace " ++ i.instanceId)
  chainOfRecord := some [input.currentPacketId]
  humanAlert := if route.humanRouted then some true else none

/-- The create of an exception item, under the ids `k` and `k + 1`: only an unknown destination rig
falls back to the selected person. Gives the item's id and its destination. -/
def createExceptionItem (env : WorkflowEnv) (db : Db) (item : ExceptionRoute → QueueCreateInput)
    (route : ExceptionRoute) (k : ℕ) : Outcome (String × String × Db) :=
  match createWithinTransaction (env.at k) db (item route) with
  | .ok db' => .ok (newQitemId (env.at k), route.destinationSession, db')
  | .error e =>
    if e.code ≠ .unknownDestinationRig || route.humanRouted then .error (.queue e)
    else do
      let person ← humanRoute env
      let db' ← inQueue (createWithinTransaction (env.at (k + 1)) db (item person))
      return (newQitemId (env.at (k + 1)), person.destinationSession, db')

/-- `admitFailureException`: the exception item and its wake. Gives the item's id. -/
def admitFailureException (env : WorkflowEnv) (db : Db) (i : InstanceRow)
    (input : ProjectStepInput) (step : WorkflowStepSpec)
    (failureReason occurrenceId : Option String)
    (k : ℕ) : Outcome (String × Db) := do
  let reason := failureReasonText failureReason
  let route ← resolveExceptionRoute env i.boundSpec (roleContext i.boundRig)
  let item := exceptionItem i step input reason occurrenceId
  let (id, destination, db) ← createExceptionItem env db item route k
  let db ← inQueue (stageHandoffWake env.base db id input.actorSession destination
    input.identityProvenance none)
  return (id, db)

/-! ### Keepalives -/

def buildKeepaliveSpecYaml (instanceId targetSession : String) (packetId : Option String) :
    String :=
  s!"policy: workflow-keepalive\ntarget:\n  session: {targetSession}\ncontext:\n" ++
    s!"  workflow_instance_id: {instanceId}\n" ++
    ((packetId.map fun p => s!"  workflow_packet_id: {p}\n").getD "") ++ "  deadline_gated: true\n"

/-- The value of the `workflow_packet_id:` line of a keepalive spec. -/
def packetLine (specYaml : String) : Option String :=
  (specYaml.toList.splitOn '\n').findSome? fun line =>
    let line := line.dropWhile isWhitespace
    let tag := "workflow_packet_id:".toList
    let value := ((line.drop tag.length).dropWhile isWhitespace).takeWhile fun c => !isWhitespace c
    if tag.isPrefixOf line && !value.isEmpty then some (String.ofList value) else none

/-- A keepalive of the instance: its policy and its spec name it. -/
def isKeepaliveOf (j : WatchdogJob) (instanceId : String) : Option String :=
  match j.spec with
  | .other specYaml =>
    if j.state = .active && j.policy = "workflow-keepalive" &&
      includes specYaml ("workflow_instance_id: " ++ instanceId) then some specYaml else none
  | _ => none

def findArmedKeepaliveJob (jobs : Jobs) (instanceId : String) (packetId : Option String) :
    Option WatchdogJob :=
  jobs.rows.find? fun j => (isKeepaliveOf j instanceId).any fun specYaml =>
    packetLine specYaml = packetId

/-- `ensureWorkflowKeepaliveArmed`, where a repository is attached. -/
def ensureWorkflowKeepaliveArmed (env : WorkflowEnv) (k : ℕ) (db : Db)
    (instanceId targetSession registeredBySession : String) (packetId : Option String) :
    Outcome Db :=
  if !env.watchdogJobs || (findArmedKeepaliveJob db.jobs instanceId packetId).isSome then .ok db
  else do
    let jobs ← inQueue (register (env.at k) db.jobs
      { policy := "workflow-keepalive"
        spec := .other (buildKeepaliveSpecYaml instanceId targetSession packetId)
        targetSession, intervalSeconds := 15 * 60, registeredBySession })
    return db.setJobs jobs

/-- `disarmWorkflowKeepalive`, where a repository is attached. -/
def disarmWorkflowKeepalive (env : WorkflowEnv) (db : Db) (instanceId reason : String)
    (packetId : Option String) : Db :=
  if !env.watchdogJobs then db
  else match findArmedKeepaliveJob db.jobs instanceId packetId with
    | some j => db.setJobs (markTerminal db.jobs j.jobId reason)
    | none => db

/-- `disarmAllWorkflowKeepalives`, where a repository is attached. -/
def disarmAllWorkflowKeepalives (env : WorkflowEnv) (db : Db) (instanceId reason : String) : Db :=
  if !env.watchdogJobs then db
  else db.setJobs ((db.jobs.rows.filter fun j => (isKeepaliveOf j instanceId).isSome).foldl
    (fun jobs j => markTerminal jobs j.jobId reason) db.jobs)

end OpenRig.WorkflowRouting
