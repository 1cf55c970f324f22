import OpenRig.Paging
import OpenRig.Runs
import OpenRig.StreamStore

/-!
The intake of stream items into the queue, each noted on one intake row, from a persisted cursor.

The coordinator holds ids in memory: those it is to handle, and those emitted while it catches up.
It awaits after each item, between two pages of a catch-up and while a page drains; at every await
items are emitted, archived and pruned, rows are claimed, calls fail, and the process may stop. A
label is what runs between two awaits.
-/

namespace OpenRig.StreamIntake

open OpenRig.JsText OpenRig.StreamStore OpenRig.Runs

def RUNNER_PERMIT_TAG : String := "runner-permission-permit"

/-! ### State -/

inductive Priority where
  | routine
  | urgent
  | critical
  deriving DecidableEq

/-- A row with the intake tag. Its text is made of its first item, its notes of the others; here
they are the items' sort keys. -/
structure IntakeRow where
  qitemId : String
  destinationSession : String
  pending : Bool
  priority : Priority
  sortKeys : List String

/-- Where a catch-up is suspended: its page is draining, or it yields before the next one. -/
inductive CatchUp where
  | draining (bound last : String) (full : Bool)
  | yielded (bound current : String)

structure Coordinator where
  pendingStreamItemIds : List String := []
  heldLiveItemIds : List String := []
  catchUpIncomplete : Bool := false
  catchUp : Option CatchUp := none
  /-- A drain awaits the head's handler, which did its work or failed. -/
  processing : Option Bool := none

structure World where
  items : Items
  lastSortKey : Option String := none
  rows : Table IntakeRow.qitemId
  coordinator : Option Coordinator := none
  /-- The cursor's first value: what is not after it is history. -/
  floor : Option String := none

def World.empty : World := { items := .empty, rows := .empty }

structure Settings where
  /-- `streamIntakeQitemId`. -/
  streamIntakeQitemId : String → String
  pageSize : ℕ := 100
  pageSize_pos : 0 < pageSize := by decide

/-! ### Pages -/

def sortKey (s : StreamItem) : String := s.streamSortKey

def live (s : StreamItem) : Bool := s.archivedAt.isNone

/-- `MAX(stream_sort_key)` of the items that are not archived. -/
def newest (items : Items) : Option String :=
  (Paging.rest sortKey items.rows live none).getLast?.map sortKey

def nextItems (cfg : Settings) (items : Items) (current bound : String) : List StreamItem :=
  (Paging.rest sortKey items.rows (fun s => live s && sortKey s ≤ bound) (some current)).take
    cfg.pageSize

/-- Push the ids that are not there yet. -/
def push (ids : List String) : List String → List String
  | [] => ids
  | id :: rest => push (if id ∈ ids then ids else ids ++ [id]) rest

/-! ### Catch-up -/

/-- Which of the reads and writes of a catch-up's stretch throw, and whether intake is off. -/
structure CatchUpEnv where
  off : Bool := false
  cursorFails : Bool := false
  queryFails : Bool := false

/-- `completed`: what was held is released. -/
def completed (p : Coordinator) : Coordinator :=
  { p with
    catchUp := none
    catchUpIncomplete := false
    pendingStreamItemIds := push p.pendingStreamItemIds p.heldLiveItemIds
    heldLiveItemIds := [] }

def incomplete (p : Coordinator) : Coordinator :=
  { p with
    catchUp := none
    catchUpIncomplete := true }

/-- The head of the loop over the pages. -/
def nextPage (cfg : Settings) (env : CatchUpEnv) (items : Items) (p : Coordinator)
    (bound current : String) : Coordinator :=
  if ¬ current < bound then completed p
  else if env.queryFails then incomplete p
  else
    let page := nextItems cfg items current bound
    match page.getLast? with
    | none => completed p
    | some last =>
      { p with
        pendingStreamItemIds := push p.pendingStreamItemIds (page.map (·.streamItemId))
        catchUp := some (.draining bound (sortKey last) (cfg.pageSize ≤ page.length)) }

/-- `catchUp`, up to its first await. -/
def catchUp (cfg : Settings) (env : CatchUpEnv) (w : World) (p : Coordinator) : World :=
  let p := { p with catchUpIncomplete := false }
  let become (p : Coordinator) : World := { w with coordinator := some p }
  if env.cursorFails then become (incomplete p)
  else
    match w.lastSortKey with
    | none =>
      -- The first start records the newest item and replays nothing.
      if env.queryFails then become (incomplete p)
      else
        let first := (newest w.items).getD ""
        { w with
          lastSortKey := some first
          floor := some first
          coordinator := some (completed p) }
    | some cursor =>
      if env.off then become (completed p)
      else if env.queryFails then become (incomplete p)
      else
        match newest w.items with
        | none => become (completed p)
        | some bound =>
          if bound ≤ cursor then become (completed p)
          else become (nextPage cfg env w.items p bound cursor)

/-- A catch-up goes on after an await. -/
def resumeCatchUp (cfg : Settings) (env : CatchUpEnv) (w : World) (p : Coordinator) :
    Option Coordinator :=
  match p.catchUp with
  | none => none
  | some (.draining bound last full) =>
    if p.pendingStreamItemIds ≠ [] then some (incomplete p)
    else if env.cursorFails then some (incomplete p)
    else if full then
      some { p with catchUp := some (.yielded bound (w.lastSortKey.getD last)) }
    else some (completed p)
  | some (.yielded bound current) => some (nextPage cfg env w.items p bound current)

/-! ### Handling an item -/

/-- What a drain meets: whether intake is off, where the destination resolves to, the pending
intake row that the query gives, and what throws: the read of the cursor, the handler's
transaction, or what comes after its commit. -/
structure DrainEnv where
  off : Bool := false
  destination : Option String := none
  existing : Option String := none
  cursorFails : Bool := false
  fails : Bool := false
  failsAfter : Bool := false

def isUrgent (s : StreamItem) : Bool := s.hintUrgency = some "critical" || s.interrupt

/-- `hintTags?.includes`, which throws on what is no array and no text. -/
def permit (s : StreamItem) : Option Bool :=
  match s.hintTags with
  | none => some false
  | some (.array tags) => some (tags.contains (.text RUNNER_PERMIT_TAG))
  | some (.value (.text tag)) => some (includes tag RUNNER_PERMIT_TAG)
  | some _ => none

def behind (cursor : Option String) (s : StreamItem) : Bool :=
  cursor.any fun c => c ≠ "" && sortKey s ≤ c

def opened (cfg : Settings) (s : StreamItem) (destination : String) : IntakeRow where
  qitemId := cfg.streamIntakeQitemId s.streamSortKey
  destinationSession := destination
  pending := true
  priority := if isUrgent s then .urgent else .routine
  sortKeys := [s.streamSortKey]

def noted (s : StreamItem) (r : IntakeRow) : IntakeRow :=
  { r with
    priority := if isUrgent s && r.priority = .routine then .urgent else r.priority
    sortKeys := r.sortKeys ++ [s.streamSortKey] }

lemma noted_qitemId (s : StreamItem) (r : IntakeRow) : (noted s r).qitemId = r.qitemId := rfl

def writeCursor (w : World) (s : StreamItem) : World := { w with lastSortKey := some (sortKey s) }

/-- The row at the destination that the item can be noted on. -/
def unclaimed (w : World) (destination : String) (qitemId : String) : Bool :=
  (w.rows.get? qitemId).any fun r => r.destinationSession = destination && r.pending

/-- The transaction of an item: its note on the unclaimed row there is, or a new row, with the
cursor. There is none when the answer of the query in `env` is not one. -/
def noteItem (cfg : Settings) (env : DrainEnv) (w : World) (s : StreamItem)
    (destination : String) : Option World :=
  match env.existing with
  | some qitemId =>
    if unclaimed w destination qitemId then
      some (writeCursor
        { w with rows := w.rows.update qitemId (noted s) (noted_qitemId s) } s)
    else none
  | none =>
    if w.rows.rows.any (fun r => r.destinationSession = destination && r.pending) then none
    else
      match w.rows.insert? (opened cfg s destination) with
      | some rows => some (writeCursor { w with rows } s)
      -- A row of this id is there already: the item counts as handled.
      | none => some (writeCursor w s)

/-- `handleStreamItem`, up to its first await: the world after it, and whether it did not throw. -/
def handleStreamItem (cfg : Settings) (env : DrainEnv) (w : World) (s : StreamItem)
    (destination : String) : Option (World × Bool) :=
  if env.cursorFails then some (w, false)
  else if behind w.lastSortKey s then some (w, true)
  else if env.fails then some (w, false)
  else match permit s with
    | none => some (w, false)
    | some true => some (writeCursor w s, true)
    | some false => (noteItem cfg env w s destination).map fun w' => (w', !env.failsAfter)

/-! ### Draining -/

/-- The loop of `drain`, up to the await of the next handler. -/
def drainLoop (cfg : Settings) (env : DrainEnv) (w : World) (p : Coordinator) : Option World :=
  let left := p.pendingStreamItemIds.dropWhile fun id => (w.items.get? id).isNone
  let stopAt : World :=
    { w with coordinator := some { p with pendingStreamItemIds := left, processing := none } }
  match left with
  | [] => some stopAt
  | id :: _ =>
    match w.items.get? id, env.destination with
    | some s, some destination =>
      (handleStreamItem cfg env w s destination).map fun (w', done) =>
        { w' with
          coordinator := some { p with pendingStreamItemIds := left, processing := some done } }
    | _, _ => some stopAt

/-- A drain begins, or goes on after the handler of the head. -/
def drain (cfg : Settings) (env : DrainEnv) (w : World) (p : Coordinator) : Option World :=
  match p.processing with
  | none =>
    if p.catchUpIncomplete || env.off then none
    else drainLoop cfg env w p
  | some true =>
    drainLoop cfg env w { p with pendingStreamItemIds := p.pendingStreamItemIds.tail }
  | some false => some { w with coordinator := some { p with processing := none } }

/-! ### Steps -/

inductive Label where
  | emit (now : Time) (ulid sortKey : String) (input : StreamEmitInput) (off : Bool)
  | archive (now : Time) (streamItemId : String)
  | prune (gone : List String)
  | claim (qitemId : String) (pending : Bool)
  | start (env : CatchUpEnv)
  | stop
  | retry (env : CatchUpEnv)
  | resume (env : CatchUpEnv)
  | drain (env : DrainEnv)

/-- `enqueue`, on the event of an emit. -/
def enqueue (off : Bool) (p : Coordinator) (id : String) : Coordinator :=
  if off then p
  else if p.catchUp.isSome || p.catchUpIncomplete then
    { p with heldLiveItemIds := push p.heldLiveItemIds [id] }
  else { p with pendingStreamItemIds := push p.pendingStreamItemIds [id] }

def setPending (pending : Bool) (r : IntakeRow) : IntakeRow := { r with pending }

lemma setPending_qitemId (pending : Bool) (r : IntakeRow) :
    (setPending pending r).qitemId = r.qitemId := rfl

def step (cfg : Settings) (w : World) : Label → Option World
  | .emit now ulid key input off =>
    let (items, s) := StreamStore.emit now ulid key w.items input
    -- The event is sent only for a new item.
    if (w.items.get? (input.streamItemId.getD ulid)).isSome then some w
    else
      some
        { w with
          items := items
          coordinator := w.coordinator.map fun p => enqueue off p s.streamItemId }
  | .archive now id => some { w with items := StreamStore.archive now w.items id }
  | .prune gone => some { w with items := StreamStore.prune w.items gone }
  | .claim qitemId pending =>
    some
      { w with
        rows := w.rows.update qitemId (setPending pending) (setPending_qitemId pending) }
  | .start env =>
    if w.coordinator.isSome then none else some (catchUp cfg env w {})
  | .stop => some { w with coordinator := none }
  | .retry env =>
    w.coordinator.bind fun p =>
      if p.catchUpIncomplete && p.catchUp.isNone then some (catchUp cfg env w p) else none
  | .resume env =>
    w.coordinator.bind fun p =>
      (resumeCatchUp cfg env w p).map fun p => { w with coordinator := some p }
  | .drain env => w.coordinator.bind fun p => drain cfg env w p

def Step (cfg : Settings) (w : World) (l : Label) (w' : World) : Prop := step cfg w l = some w'

end OpenRig.StreamIntake
