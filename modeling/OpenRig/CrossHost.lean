import OpenRig.Refinement

/-!
The cross-host handoff: the successor is created on the target host, and then the source is closed
on its own.

Each daemon has its own tables, and nothing spans two of them. A request that passes its pre-flight
check becomes a leg: its forward is on the way, or the target has answered, and the origin may no
longer be waiting. Everything else a daemon does comes in between.
-/

namespace OpenRig.CrossHost

open OpenRig.Closure OpenRig.QueueDb OpenRig.Verbs OpenRig.Handoff OpenRig.Firing OpenRig.Runs

/-- What the daemons `δ` have in common: the digest, and each one's name and registry. -/
structure Net (δ : Type) where
  /-- The first 16 hex digits of the SHA-256 of `JSON.stringify([source, destination, host])`. -/
  digest : String → String → String → String
  /-- The daemon a host id names in the registry of an origin. -/
  resolveHost : δ → String → δ
  selfHostId : δ → Option String
  osHostname : δ → String

section
variable {δ : Type} (net : Net δ)

def deriveCrossHostSuccessorId (sourceQitemId destinationSession hostId : String) : String :=
  "qitem-xh-" ++ net.digest sourceQitemId destinationSession hostId

/-- `stampSelfHostSuffix`: a bare `member@rig` gains the daemon's own host id. -/
def stampSelfHostSuffix (selfHostId : Option String) (session : String) : String :=
  match selfHostId.filter (· ≠ "") with
  | none => session
  | some selfId => if session.toList.count '@' = 1 then session ++ "@" ++ selfId else session

def crossHostProvenanceTags (hostname : String) (existing : Option (List String)) : List String :=
  let base := existing.getD []
  base ++ ["cross-host", "from-host:" ++ hostname].filter fun t => !base.contains t

def resolvesToLocalHost (hostToken : String) (selfId : Option String) : Bool :=
  hostToken = "" || hostToken = "local" || selfId = some hostToken

/-- A handoff (or, with `done`, a handoff-and-complete) addressed to a seat on a host. -/
structure HandoffRequest where
  qitemId : String
  hostId : String
  terminalState : CloseState
  fromSession : String
  toSession : String
  body : Option String := none
  transitionNote : Option String := none
  priority : Option String := none
  tier : Option String := none
  tags : Option (List String) := none
  targetRepo : Option String := none
  summary : Option String := none
  evidenceRef : Option String := none
  nudge : Option Bool := none
  identityProvenance : Option String := none
  humanAlert : Option Bool := none
  /-- The request's `x-openrig-origin-unknown` header. -/
  originUnknown : Bool := false

namespace HandoffRequest

/-- The id of the successor this request creates. -/
def successorId (r : HandoffRequest) : String :=
  deriveCrossHostSuccessorId net r.qitemId r.toSession r.hostId

/-- `closureTarget`: the successor, on its host. -/
def closureTarget (r : HandoffRequest) : String := r.successorId net ++ "@" ++ r.hostId

/-- `legacyClosureTarget`: the key of rows closed before successors had derived ids. -/
def legacyClosureTarget (r : HandoffRequest) : String := r.toSession ++ "@" ++ r.hostId

/-- `forwardBody`, as the receiving `/create` reads it. -/
def forwardBody (d : δ) (r : HandoffRequest) (source : QueueItem) : QueueCreateInput where
  qitemId := some (r.successorId net)
  sourceSession :=
    if r.originUnknown then r.fromSession else stampSelfHostSuffix (net.selfHostId d) r.fromSession
  destinationSession := r.toSession
  body := r.body.getD source.body
  priority := some (r.priority.getD source.priority)
  tier := (r.tier <|> source.tier).filter (· ≠ "")
  tags := some (crossHostProvenanceTags (net.osHostname d) (r.tags <|> source.tags))
  chainOfRecord := some (source.chainOfRecord.getD [] ++ [source.qitemId])
  targetRepo := r.targetRepo <|> source.targetRepo.filter (· ≠ "")
  summary := r.summary
  evidenceRef := r.evidenceRef
  nudge := r.nudge
  humanAlert := r.humanAlert
  identityProvenance := some (if r.originUnknown then "origin-unknown:v1" else "claimed:v1")

/-- The daemon the successor is created on: a host id of the origin's own is itself. -/
def target (d : δ) (r : HandoffRequest) : δ :=
  if net.selfHostId d = some r.hostId then d else net.resolveHost d r.hostId

/-- The request takes the cross-host path: it names another host, or a self-forward of before. -/
def isCrossHost (d : δ) (db : Db) (r : HandoffRequest) : Bool :=
  !resolvesToLocalHost r.hostId (net.selfHostId d) ||
    (net.selfHostId d = some r.hostId && (db.getById (r.successorId net)).isSome)

end HandoffRequest

structure Leg (δ : Type) where
  origin : δ
  request : HandoffRequest
  closeTarget : String
  forward : QueueCreateInput
  /-- The origin still awaits the answer: no deadline passed, and it did not crash. -/
  waiting : Bool
  /-- What the target made of the create, once it did. -/
  accepted : Option Bool

/-- `crossHostHandoff` up to its forward: the source is read, and a close toward another target is
a conflict before anything is sent. -/
def preflight (d : δ) (db : Db) (r : HandoffRequest) : Result (Leg δ) := do
  let source ← requireItem db r.qitemId
  let sourceTerminal := source.state = .done || source.state = .handedOff
  let closeTarget := if sourceTerminal && source.closureTarget = some r.legacyClosureTarget
    then r.legacyClosureTarget else r.closureTarget net
  refuseIf (sourceTerminal && source.closureTarget ≠ some closeTarget) .crossHostCloseConflict
    ("qitem " ++ r.qitemId ++ " is already closed toward " ++
      source.closureTarget.getD "<no closure_target>" ++ " — this re-drive names " ++
      r.closureTarget net ++ "; surfacing the conflict, never overwriting")
    [("existingClosureTarget", source.closureTarget.getD "null"),
     ("attemptedClosureTarget", r.closureTarget net)]
  return { origin := d, request := r, closeTarget, forward := r.forwardBody net d source,
           waiting := true, accepted := none }

namespace Leg

/-- The daemon the forward goes to. -/
def target (leg : Leg δ) : δ := leg.request.target net leg.origin

/-- The call of `closeCrossHostHandoffSource` after an accepted forward. -/
def closeInput (leg : Leg δ) : CrossHostCloseInput where
  qitemId := leg.request.qitemId
  fromSession := leg.request.fromSession
  toSession := leg.request.toSession
  closureTarget := leg.closeTarget
  terminalState := leg.request.terminalState
  transitionNote := leg.request.transitionNote
  identityProvenance := leg.request.identityProvenance

end Leg

/-- Every daemon's tables, and the requests that passed their pre-flight check, oldest first. -/
structure World (δ : Type) where
  tables : δ → Db
  legs : List (Leg δ)

def World.start : World δ := ⟨fun _ => Db.empty, []⟩

inductive Label (δ : Type) where
  /-- A queue verb on one daemon. -/
  | verb (d : δ) (env : Env) (op : Op)
  /-- A handoff request reaches a daemon and passes its pre-flight check. -/
  | arrive (d : δ) (r : HandoffRequest)
  /-- The target runs the create of a forward. -/
  | receive (n : ℕ) (env : Env)
  /-- The forward never gets to a create: refused on the way, or before it. -/
  | lose (n : ℕ)
  /-- The origin takes the forward for failed, or crashes. -/
  | giveUp (n : ℕ)
  /-- The origin reads the accepted create and closes its source. -/
  | answer (n : ℕ) (env : Env)

namespace World

def setTables [DecidableEq δ] (w : World δ) (d : δ) (db : Db) : World δ :=
  { w with tables := Function.update w.tables d db }

def setLeg (w : World δ) (n : ℕ) (leg : Leg δ) : World δ := { w with legs := w.legs.set n leg }

end World

/-- The source close belongs to the handoff alone. -/
def isSourceClose : Op → Bool
  | .closeCrossHost _ => true
  | _ => false

variable [DecidableEq δ]

def perform (w : World δ) : Label δ → Option (World δ)
  | .verb d env op =>
    if isSourceClose op then none
    else (exec env (w.tables d) op).toOption.map fun db => w.setTables d db
  | .arrive d r =>
    if r.isCrossHost net d (w.tables d) then
      (preflight net d (w.tables d) r).toOption.map fun leg => { w with legs := w.legs ++ [leg] }
    else none
  | .receive n env =>
    (w.legs[n]?.filter fun leg => leg.accepted = none).map fun leg =>
      match create env (w.tables (leg.target net)) leg.forward with
      | .ok (_, db) =>
        (w.setTables (leg.target net) db).setLeg n { leg with accepted := some true }
      | .error _ => w.setLeg n { leg with accepted := some false }
  | .lose n =>
    (w.legs[n]?.filter fun leg => leg.accepted = none).map fun leg =>
      w.setLeg n { leg with accepted := some false }
  | .giveUp n => w.legs[n]?.map fun leg => w.setLeg n { leg with waiting := false }
  | .answer n env =>
    (w.legs[n]?.filter fun leg => leg.waiting && leg.accepted = some true).map fun leg =>
      match closeCrossHostHandoffSource env (w.tables leg.origin) leg.closeInput with
      | .ok (_, db) => (w.setTables leg.origin db).setLeg n { leg with waiting := false }
      | .error _ => w.setLeg n { leg with waiting := false }

def Step (w : World δ) (l : Label δ) (w' : World δ) : Prop := perform net w l = some w'

/-- An answer closes the source of its leg, and does not find it closed already. -/
def Closes (w : World δ) (n : ℕ) (env : Env) : Prop :=
  ∃ leg db, w.legs[n]? = some leg ∧
    closeCrossHostHandoffSource env (w.tables leg.origin) leg.closeInput = .ok (false, db)

end

end OpenRig.CrossHost
