import Mathlib.Data.List.MinMax
import Mathlib.Data.Prod.Lex
import Mathlib.Data.String.Basic

/-!
Who receives what a seat escalates: the seat's declared delegation parent, or else the one seat its
escalation edge names, when nothing that can follow from there comes back.

Ids and times are of one ordered type.
-/

namespace OpenRig.Escalation

/-! ### The recorded topology -/

inductive EdgeKind where
  | delegatesTo
  | escalatesTo
  | other (kind : String)
  deriving DecidableEq

inductive SessionStatus where
  | running
  | idle
  | superseded
  | detached
  | exited
  | other (status : String)
  deriving DecidableEq

structure Rig (ι : Type) where
  id : ι
  name : String
  archived : Bool

structure Node (ι : Type) where
  id : ι
  rigId : ι
  logicalId : String

structure Session (ι : Type) where
  id : ι
  nodeId : ι
  sessionName : String
  status : SessionStatus
  createdAt : ι

structure Binding (ι : Type) where
  nodeId : ι
  tmuxSession : Option String

/-- An edge. Its target is a node, or for an escalation the address of one. -/
structure Arc (ι : Type) where
  sourceId : ι
  targetId : Option ι
  targetRef : Option String
  kind : EdgeKind
  deriving DecidableEq

structure Topology (ι : Type) where
  rigs : List (Rig ι)
  nodes : List (Node ι)
  sessions : List (Session ι)
  bindings : List (Binding ι)
  edges : List (Arc ι)

/-- `pod.member` in a rig as the address `pod-member@rig`. -/
def senderAddress (logicalId rigName : String) : String :=
  (logicalId.map fun c => if c = '.' then '-' else c) ++ "@" ++ rigName

variable {ι : Type} [LinearOrder ι]

/-- `ORDER BY id DESC LIMIT 1`. -/
def latest (rows : List (Session ι)) : Option (Session ι) := rows.argmax (·.id)

def Topology.latestSession (t : Topology ι) (nodeId : ι) : Option (Session ι) :=
  latest (t.sessions.filter (·.nodeId = nodeId))

/-! ### Sessions and their nodes -/

structure CurrentSessionAddress (ι : Type) where
  nodeId : ι
  sessionId : ι
  sessionName : String
  senderAddress : String
  logicalId : String
  rigName : String

/-- A stopped or archived generation of the same seat. -/
def isStoppedSeatPredecessor (previousRig : Rig ι) (previous : Node ι)
    (latestStatus : Option SessionStatus) (currentRig : Rig ι) (current : Node ι) : Bool :=
  previousRig.name = currentRig.name && previous.logicalId = current.logicalId &&
    (previousRig.archived ||
      latestStatus.any fun s => s = .exited || s = .detached || s = .superseded)

def hasOtherSeatHistory (t : Topology ι) (address : String) (nodeId : ι) : Bool :=
  t.sessions.any fun s => s.sessionName = address && s.nodeId ≠ nodeId &&
    t.nodes.any fun n => n.id = s.nodeId && t.rigs.any fun r => r.id = n.rigId &&
      t.nodes.any fun target => target.id = nodeId && t.rigs.any fun targetRig =>
        targetRig.id = target.rigId &&
          !isStoppedSeatPredecessor r n ((t.latestSession n.id).map (·.status)) targetRig target

/-- The current bindings of the nodes, with the name and the archive mark of their rigs. -/
def currentBindings (t : Topology ι) : List (CurrentSessionAddress ι × Bool × SessionStatus) :=
  t.nodes.flatMap fun n => (t.rigs.filter (·.id = n.rigId)).flatMap fun r =>
    (t.bindings.filter (·.nodeId = n.id)).filterMap fun b =>
      (t.latestSession n.id).bind fun s =>
        if b.tmuxSession = some s.sessionName then
          some (⟨n.id, s.id, s.sessionName, senderAddress n.logicalId r.name, n.logicalId, r.name⟩,
            r.archived, s.status)
        else none

def resolveCurrentSessionAddress (t : Topology ι) (address : String) :
    Option (CurrentSessionAddress ι) :=
  let rows := (currentBindings t).filter fun (row, _) =>
    row.sessionName = address || row.senderAddress = address
  let active := rows.filterMap fun (row, archived, status) =>
    if !archived && status ≠ .superseded && status ≠ .detached && status ≠ .exited then some row
    else none
  let exact := active.filter (·.sessionName = address)
  let pool := if exact ≠ [] then exact
    else active.filter fun row => !hasOtherSeatHistory t address row.nodeId
  match pool with
  | [row] => some row
  | _ => none

def resolveSessionNodeId (t : Topology ι) (session : String) : Option ι :=
  ((latest (t.sessions.filter (·.sessionName = session))).map (·.nodeId)).or
    ((resolveCurrentSessionAddress t session).map (·.nodeId))

/-- The current session of the parent that delegates to the session's node. -/
def defaultResolveOrchestrator (t : Topology ι) (session : String) : Option String :=
  (resolveSessionNodeId t session).bind fun nodeId =>
    let rows := (t.edges.filter fun e => e.targetId = some nodeId && e.kind = .delegatesTo).flatMap
      fun e => t.sessions.filter (·.nodeId = e.sourceId)
    (rows.argmax fun s => toLex (s.createdAt, s.id)).map (·.sessionName)

/-! ### Seats and endpoints -/

structure Seat (ι : Type) where
  id : ι
  address : String
  sessionName : Option String
  status : Option SessionStatus

/-- The seats of the rigs that are not archived, with their latest session. -/
def seats (t : Topology ι) : List (Seat ι) :=
  t.nodes.flatMap fun n => (t.rigs.filter fun r => r.id = n.rigId && !r.archived).map fun r =>
    let s := t.latestSession n.id
    ⟨n.id, senderAddress n.logicalId r.name, s.map (·.sessionName), s.map (·.status)⟩

/-- The seats an edge may lead to. -/
def endpoints (t : Topology ι) (arc : Arc ι) : List (Seat ι) :=
  match arc.targetRef.filter (· ≠ "") with
  | some ref =>
    let exact := (seats t).filter (·.sessionName = some ref)
    if exact ≠ [] then exact else (seats t).filter (·.address = ref)
  | none => (seats t).filter fun s => arc.targetId = some s.id

def arcs (t : Topology ι) : List (Arc ι) :=
  t.edges.filter fun e => e.kind = .delegatesTo || e.kind = .escalatesTo

/-- The escalation edges of a seat. -/
def declared (t : Topology ι) (id : ι) : List (Arc ι) :=
  (arcs t).filter fun a => a.kind = .escalatesTo && a.sourceId = id

def parents (t : Topology ι) (id : ι) : List (Arc ι) :=
  (arcs t).filter fun a => a.kind = .delegatesTo && a.targetId = some id

/-- What each of a seat's edges leads to: its parents, or else its escalation edges. -/
def next (t : Topology ι) (id : ι) : List (List (Seat ι)) :=
  if parents t id ≠ [] then
    (parents t id).map fun a => (seats t).filter (·.id = a.sourceId)
  else (declared t id).map (endpoints t)

/-! ### The search -/

/-- `visiting`, `visited` and the flag `unknown`. -/
structure Search (ι : Type) where
  visiting : List ι
  visited : List ι
  unknown : Bool

/-- A loop that stops at the first element found; none when the search has run out of fuel. -/
def anyOf {σ α : Type} (f : σ → α → Option (Bool × σ)) : σ → List α → Option (Bool × σ)
  | s, [] => some (false, s)
  | s, a :: rest =>
    match f s a with
    | some (false, s) => anyOf f s rest
    | out => out

/-- `cyclic`, with fuel for its recursion. -/
def cyclic (t : Topology ι) : ℕ → Search ι → ι → Option (Bool × Search ι)
  | fuel, s, id =>
    if id ∈ s.visiting then some (true, s)
    else if id ∈ s.visited then some (false, s)
    else
      match fuel with
      | 0 => none
      | fuel + 1 =>
        let visit := fun (s : Search ι) (matched : List (Seat ι)) =>
          anyOf (fun s seat => cyclic t fuel s seat.id)
            { s with unknown := s.unknown || matched.length != 1 } matched
        let start : Search ι :=
          ⟨id :: s.visiting, s.visited, s.unknown || decide (1 < (next t id).length)⟩
        match anyOf visit start (next t id) with
        | some (false, s) => some (false, ⟨s.visiting.erase id, id :: s.visited, s.unknown⟩)
        | out => out

/-! ### The owner -/

inductive Outcome where
  | parent
  | none
  | routed
  | unavailable
  | ambiguous
  | self
  | cycle
  | unknown
  deriving DecidableEq

def Outcome.text : Outcome → String
  | .parent => "parent"
  | .none => "none"
  | .routed => "routed"
  | .unavailable => "unavailable"
  | .ambiguous => "ambiguous"
  | .self => "self"
  | .cycle => "cycle"
  | .unknown => "unknown"

structure EscalationOwner where
  owner : Option String
  outcome : Outcome
  reason : String

def fail (outcome : Outcome) (detail : String) : EscalationOwner :=
  ⟨none, outcome, s!"escalates_to {outcome.text}: {detail}; existing fallback retained"⟩

/-- What the target's session and the queue say, once the target is proved not to lie on a cycle. -/
def admitTarget (session : String) (target : Seat ι)
    (acceptsDestination : Option (String → Bool)) : EscalationOwner :=
  match target.sessionName with
  | some name =>
    if name = "" ∨ ¬ (target.status = some .running ∨ target.status = some .idle) then
      fail .unavailable "destination has no running recorded session"
    else if acceptsDestination.any (fun accepts => !accepts name) then
      fail .unavailable "destination not admitted by queue"
    else ⟨some name, .routed, s!"escalates_to routed: {session} -> {name} (one hop)"⟩
  | none => fail .unavailable "destination has no running recorded session"

/-- `resolveEscalationOwner`, with fuel for the search. -/
def resolveEscalationOwner (t : Topology ι) (fuel : ℕ) (session : String)
    (acceptsDestination : Option (String → Bool)) : Option EscalationOwner :=
  let parent := defaultResolveOrchestrator t session
  match resolveSessionNodeId t session with
  | none => some ⟨parent, .none, "no recorded source topology"⟩
  | some source =>
    if t.edges.any fun e => e.targetId = some source && e.kind = .delegatesTo then
      some ⟨parent, .parent, "declared delegation parent retained"⟩
    else if !t.edges.any fun e => e.sourceId = source && e.kind = .escalatesTo then
      some ⟨none, .none, "no escalation destination declared"⟩
    else
      match declared t source with
      | [] => some ⟨none, .none, "no escalation destination declared"⟩
      | [arc] =>
        match endpoints t arc with
        | [] => some (fail .unavailable "destination absent from this daemon's active topology")
        | [target] =>
          if target.id = source then some (fail .self "destination is the source seat")
          else
            match cyclic t fuel ⟨[source], [], false⟩ target.id with
            | none => none
            | some (true, _) =>
              some (fail .cycle "declared escalation/delegation topology contains a cycle")
            | some (false, s) =>
              if s.unknown then
                some (fail .unknown
                  "cycle check includes an unresolved or ambiguous declared endpoint")
              else some (admitTarget session target acceptsDestination)
        | _ => some (fail .ambiguous "destination names more than one seat")
      | _ => some (fail .ambiguous "multiple declared destinations")

end OpenRig.Escalation
