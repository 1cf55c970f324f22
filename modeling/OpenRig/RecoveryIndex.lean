import Mathlib.Data.List.Sort
import Mathlib.Data.Prod.Lex
import Mathlib.Data.String.Basic
import Mathlib.Logic.Function.Basic
import Mathlib.Order.BooleanAlgebra.Basic
import OpenRig.Closure
import OpenRig.SqlLike
import OpenRig.Utf8

/-!
Which row owns the recovery of another: the query over the tags of the queue's rows, and the index
that a listing builds once and asks instead.

The database compares bytes: a string asked for is encoded and compared with the bytes of each text.
The index holds the texts as they are read, decoded. An escaped lone surrogate in the tags makes a
text that is no UTF-8, where the two differ.

The functions of the database on JSON texts and the parser of dates are parameters. Nothing is
written while an index is in use.
-/

namespace OpenRig.RecoveryIndex

open OpenRig.Closure OpenRig.SqlLike OpenRig.Utf8

/-- UTF-16 units. -/
abbrev Text := List UInt16

/-! ### The tables -/

/-- What is read of a row of `queue_items`. -/
structure QueueRow where
  qitemId : String
  tsUpdated : String
  state : QueueState
  tags : Option String
  lastNudgeAttempt : Option String
  lastNudgeResult : Option String
  deriving DecidableEq

structure Transition where
  transitionId : ℕ
  qitemId : String
  ts : String
  state : QueueState
  actorSession : String

structure Wake where
  transitionId : ℕ
  fired : Bool

/-- A database; the tables of the log may be absent. -/
structure Db where
  items : List QueueRow
  keyed : (items.map (·.qitemId)).Nodup
  transitions : Option (List Transition)
  wakes : Option (List Wake)

/-- A value of `json_each`. -/
inductive SqlValue where
  | null
  | integer (n : ℤ)
  | real (r : ℚ)
  | text (bytes : List UInt8)
  deriving DecidableEq

structure Env where
  /-- The values of `json_each`, with none for a text that `json_valid` refuses. -/
  jsonEach : String → Option (List SqlValue)
  /-- `Date.parse`, with none for `NaN`. -/
  dateParse : String → Option ℤ

/-! ### The log -/

/-- `LAG(state) OVER (ORDER BY transition_id)`. -/
def withPrevious : Option QueueState → List Transition → List (Transition × Option QueueState)
  | _, [] => []
  | previous, t :: rest => (t, previous) :: withPrevious (some t.state) rest

def machineActors : List String :=
  ["watchdog@system", "wake-ladder@system", "daemon@kernel", "daemon@system"]

def lastMeaningfulTransition (db : Db) (id : List UInt8) : Option (ℕ × String) :=
  db.transitions.bind fun log =>
    let rows := (log.filter (bytes ·.qitemId = id)).insertionSort (·.transitionId ≤ ·.transitionId)
    let meaningful := (withPrevious none rows).filter fun (t, previous) =>
      (!machineActors.contains t.actorSession || some t.state ≠ previous) &&
        !db.wakes.any (·.any fun w => w.transitionId = t.transitionId && w.fired)
    meaningful.getLast?.map fun (t, _) => (t.transitionId, t.ts)

/-- When the last wake failed or was retained. -/
def failedAttempt (db : Db) (qitemId : List UInt8) : Option String :=
  (db.items.find? fun row => bytes row.qitemId = qitemId && row.lastNudgeResult.any fun result =>
    like "failed:%".toList result.toList || like "retained:%".toList result.toList).bind
      (·.lastNudgeAttempt)

/-! ### The query -/

def recoveryTag (qitemId : Text) : Text := units "recovery-for:" ++ qitemId

/-- `RECOVERY_TAG_ROWS`. -/
def mayHoldRecoveryTag (tags : String) : Bool :=
  like "%\"recovery-for:%".toList tags.toList || like ['%', '\\', '%'] tags.toList

/-- What `RECOVERY_ORDER` compares: active rows first, then by `ts_updated` and id, descending. -/
def orderKey (row : QueueRow) : Bool ×ₗ Stringᵒᵈ ×ₗ Stringᵒᵈ :=
  toLex (!row.state.isBlockerLive,
    toLex (OrderDual.toDual row.tsUpdated, OrderDual.toDual row.qitemId))

def before (a b : QueueRow) : Prop := orderKey a ≤ orderKey b

instance : DecidableRel before := fun _ _ => inferInstanceAs (Decidable (_ ≤ _))

variable (env : Env)

/-- The values of a row that may hold a recovery tag in valid JSON. -/
def valuesOf (row : QueueRow) : List SqlValue :=
  ((row.tags.filter mayHoldRecoveryTag).bind env.jsonEach).getD []

/-- `EXISTS (SELECT 1 FROM json_each(tags) WHERE value = ?)`. -/
def holds (row : QueueRow) (tag : Text) : Bool := (valuesOf env row).contains (.text (encode tag))

structure Picked where
  qitemId : String
  state : QueueState
  tsUpdated : String
  deriving DecidableEq

def pick (row : QueueRow) : Picked := ⟨row.qitemId, row.state, row.tsUpdated⟩

/-- The first of the rows in question, in `RECOVERY_ORDER`. -/
def first (db : Db) (p : QueueRow → Bool) : Option QueueRow :=
  ((db.items.filter p).insertionSort before).head?

/-- An empty `excludeTag` excludes nothing. -/
def excluded (excludeTag : Option Text) (holds : Text → Bool) : Bool :=
  (excludeTag.filter (· ≠ [])).any holds

/-- A row that has a tag and is not excluded. -/
def counts (holds : Text → Bool) (tag : Text) (excludeTag : Option Text) : Bool :=
  holds tag && !excluded excludeTag holds

def queryRecovery (db : Db) (tag : Text) (excludeTag : Option Text) : Option Picked :=
  (first db fun row => counts (holds env row) tag excludeTag).map pick

/-! ### The index -/

/-- A row of the index, with the set of its values. -/
structure RecoveryRow where
  picked : Picked
  values : List Text

/-- `byRow`, and `byTag` with the rows by their ids. -/
structure Index where
  byRow : String → Option RecoveryRow
  byTag : Text → List String

/-- The rows of `RECOVERY_INDEX_SQL`: each row with each of its texts, read. -/
def indexRows (db : Db) : List (QueueRow × Text) :=
  (db.items.flatMap fun row => (valuesOf env row).filterMap fun
    | .text v => some (row, decode v)
    | _ => none).insertionSort fun a b => before a.1 b.1

/-- One row of the index read. -/
def addValue (ix : Index) (r : QueueRow × Text) : Index :=
  let row := (ix.byRow r.1.qitemId).getD ⟨pick r.1, []⟩
  if row.values.contains r.2 then
    { ix with byRow := Function.update ix.byRow r.1.qitemId (some row) }
  else
    { byRow :=
        Function.update ix.byRow r.1.qitemId (some { row with values := row.values ++ [r.2] })
      byTag := Function.update ix.byTag r.2 (ix.byTag r.2 ++ [r.1.qitemId]) }

def buildRecoveryIndex (db : Db) : Index :=
  (indexRows env db).foldl addValue ⟨fun _ => none, fun _ => []⟩

def Index.lookup (ix : Index) (tag : Text) (excludeTag : Option Text) : Option Picked :=
  (((ix.byTag tag).filterMap ix.byRow).find? fun r =>
    !excluded excludeTag (r.values.contains ·)).map (·.picked)

/-! ### Lookups -/

structure Recovery where
  qitemId : String
  state : QueueState
  deriving DecidableEq

/-- A comparison of dates, false when one is `NaN`. -/
def laterThan (a b : Option ℤ) : Bool :=
  match a, b with
  | some a, some b => b < a
  | _, _ => false

/-- Something newer happened to the row that a recovery is for. -/
def overtaken (db : Db) (qitemId : Text) (row : Picked) : Bool :=
  let changed := lastMeaningfulTransition db (encode qitemId)
  let disposition := lastMeaningfulTransition db (bytes row.qitemId)
  let updated := env.dateParse row.tsUpdated
  changed.any (fun c => disposition.any fun d => d.1 < c.1) ||
    changed.any (fun c => laterThan (env.dateParse c.2) updated) ||
    laterThan (env.dateParse ((failedAttempt db (encode qitemId)).getD "")) updated

/-- A recovery that has ended counts until it is overtaken. -/
def stands (db : Db) (qitemId : Text) (row : Picked) : Bool :=
  row.state.isBlockerLive || !overtaken env db qitemId row

def answer (db : Db) (qitemId : Text) (row : Option Picked) : Option Recovery :=
  (row.filter (stands env db qitemId)).map fun row => ⟨row.qitemId, row.state⟩

section Scopes

variable {δ : Type} [DecidableEq δ]

/-- The span of a listing over one database, with the index once it is built. -/
structure Scope (δ : Type) where
  db : δ
  byTag : Option Index

variable (dbs : δ → Db)

/-- `findQueueRecovery` in a scope, with the scope after. -/
def findQueueRecovery (name : δ) (qitemId : Text) (excludeTag : Option Text)
    (scope : Option (Scope δ)) : Option Recovery × Option (Scope δ) :=
  let tag := recoveryTag qitemId
  let outside := answer env (dbs name) qitemId (queryRecovery env (dbs name) tag excludeTag)
  match scope with
  | none => (outside, none)
  | some s =>
    if s.db = name then
      let ix := s.byTag.getD (buildRecoveryIndex env (dbs name))
      (answer env (dbs name) qitemId (ix.lookup tag excludeTag), some { s with byTag := some ix })
    else (outside, some s)

/-- `withRecoveryIndex`: a nested span of the same database shares the scope. -/
def withRecoveryIndex {α : Type} (name : δ) (fn : Option (Scope δ) → α × Option (Scope δ))
    (scope : Option (Scope δ)) : α × Option (Scope δ) :=
  if scope.any (·.db = name) then fn scope else ((fn (some ⟨name, none⟩)).1, scope)

/-! ### Programs -/

/-- Code that makes lookups and opens spans, and goes on as their results say. -/
inductive Program (δ : Type) where
  | done
  | find (name : δ) (qitemId : Text) (excludeTag : Option Text)
      (k : Option Recovery → Program δ)
  | within (name : δ) (body : Program δ) (k : List (Option Recovery) → Program δ)

/-- The results of a program's lookups, in order. -/
def Program.run : Program δ → Option (Scope δ) → List (Option Recovery) × Option (Scope δ)
  | .done, scope => ([], scope)
  | .find name qitemId excludeTag k, scope =>
    let one := findQueueRecovery env dbs name qitemId excludeTag scope
    let rest := (k one.1).run one.2
    (one.1 :: rest.1, rest.2)
  | .within name body k, scope =>
    let inner := withRecoveryIndex name body.run scope
    let rest := (k inner.1).run inner.2
    (inner.1 ++ rest.1, rest.2)

/-- The same program with every lookup made outside all spans. -/
def Program.alone : Program δ → List (Option Recovery)
  | .done => []
  | .find name qitemId excludeTag k =>
    let one := (findQueueRecovery env dbs name qitemId excludeTag none).1
    one :: (k one).alone
  | .within _ body k => body.alone ++ (k body.alone).alone

end Scopes

end OpenRig.RecoveryIndex
