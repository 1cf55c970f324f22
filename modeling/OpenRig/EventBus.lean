import OpenRig.Runs
import Mathlib.Algebra.GroupWithZero.Nat
import Mathlib.Data.List.Perm.Basic

/-!
The event bus: the log of committed events, and the fan-out of each event to the subscribers.

A standalone emit and a caller's transaction notify their own rows; a notify envelope leaves its
rows to a drain of the log behind the watermark. What a subscriber stores from its callback waits
for the fan-out to end, and is drained from the log. A corrupt row is not delivered: its drain
stores a report of it.
-/

namespace OpenRig.EventBus

universe u

/-! ### Rows -/

/-- `RigEvent`: an event of the domain, or `event.delivery_poisoned`. -/
inductive RigEvent (α : Type u) where
  | domain (a : α)
  | deliveryPoisoned (poisonedSeq : ℕ) (error payloadSha : String)
  deriving DecidableEq

/-- Why `rowToPersistedEvent` rejects a payload. -/
inductive PayloadError where
  | json | shape
  deriving DecidableEq

def PayloadError.text : PayloadError → String
  | .json => "invalid event payload JSON"
  | .shape => "invalid event payload shape"

/-- A stored payload: the event it reads as, or a text that reads as none. -/
inductive Payload (α : Type u) where
  | event (e : RigEvent α)
  | corrupt (text : String) (error : PayloadError)
  deriving DecidableEq

def Payload.wellFormed {α : Type u} : Payload α → Bool
  | .event _ => true
  | .corrupt .. => false

/-- A row of `events`. -/
structure EventRow (α : Type u) where
  seq : ℕ
  payload : Payload α
  deriving DecidableEq

/-! ### What callers do -/

/-- A token a body registers: the one its `k`-th persist returned, or another object. -/
inductive TokenRef where
  | own (k : ℕ)
  | other (k : ℕ)
  deriving DecidableEq

/-- The body of a notify envelope: what it persists and registers, and whether it throws. -/
structure Envelope (α : Type u) where
  persisted : List α
  registered : List TokenRef
  throws : Bool := false
  deriving DecidableEq

/-- `setsEqual(envelope.persisted, envelope.registered)`. -/
def Envelope.matches_ {α : Type u} (e : Envelope α) : Bool :=
  e.persisted.length = e.registered.dedup.length &&
    (List.range e.persisted.length).all fun k => e.registered.contains (.own k)

/-- An emit, a caller's transaction that notifies what it stored, an envelope, or a row whose
payload reads as no event. -/
inductive Act (α : Type u) where
  | emit (a : α)
  | transaction (events : List α) (commits : Bool)
  | envelope (e : Envelope α)
  | corrupt (text : String) (error : PayloadError)
  deriving DecidableEq

/-- What one call of a subscriber does before it returns or throws. -/
structure Reaction (α : Type u) where
  acts : List (Act α) := []
  throws : Bool := false
  deriving DecidableEq

def Act.stored {α : Type u} : Act α → List (Payload α)
  | .emit a => [.event (.domain a)]
  | .transaction events commits => if commits then events.map (.event ∘ .domain) else []
  | .envelope e =>
    if e.throws || !e.matches_ then [] else e.persisted.map (.event ∘ .domain)
  | .corrupt text error => [.corrupt text error]

def Reaction.stored {α : Type u} (r : Reaction α) : List (Payload α) := r.acts.flatMap Act.stored

/-! ### The bus -/

/-- The bus and its log. `reactions` is what the coming calls of subscribers will do, in order, and
`calls` the calls so far: the subscriber and the row's seq. -/
structure Bus (α : Type u) where
  rows : List (EventRow α) := []
  sequence : ℕ := 0
  subscribers : List ℕ := []
  watermark : ℕ := 0
  lastPoison : Option (ℕ × String × String) := none
  notifyingSubscribers : Bool := false
  drainingNotifyRows : Bool := false
  reactions : List (Reaction α) := []
  calls : List (ℕ × ℕ) := []

namespace Bus

variable {α : Type u}

def maxSeq (b : Bus α) : ℕ := (b.rows.map EventRow.seq).foldl max 0

def persist (b : Bus α) (p : Payload α) : Bus α :=
  { b with rows := b.rows ++ [⟨b.sequence + 1, p⟩], sequence := b.sequence + 1 }

/-- The inserts of one committed transaction. -/
def persistAll (b : Bus α) (ps : List (Payload α)) : Bus α := ps.foldl persist b

def nextRows (b : Bus α) (ps : List (Payload α)) : List (EventRow α) :=
  ps.zipIdx.map fun (p, k) => ⟨b.sequence + 1 + k, p⟩

/-- `WHERE seq > ? ORDER BY seq`. -/
def rowsAfter (b : Bus α) (cursor : ℕ) : List (EventRow α) := b.rows.filter fun r => cursor < r.seq

/-- `notifySubscribers` and `drainNotifyRowsToQuiescence` as they are called from inside one
another, some levels deep. -/
structure Level (α : Type u) where
  notify : Bus α → EventRow α → Bus α
  drain : Bus α → ℕ → Bus α

/-- `emit`, a transaction with its notifications, `withNotifyEnvelope`. -/
def act (l : Level α) (b : Bus α) : Act α → Bus α
  | .emit a =>
    let row : EventRow α := ⟨b.sequence + 1, .event (.domain a)⟩
    l.notify (b.persist row.payload) row
  | .transaction events commits =>
    if commits then
      let payloads := events.map fun a => Payload.event (.domain a)
      (b.nextRows payloads).foldl l.notify (b.persistAll payloads)
    else b
  | .envelope e =>
    if e.throws || !e.matches_ then b
    else
      let b := b.persistAll (e.persisted.map fun a => .event (.domain a))
      l.drain b b.watermark
  | .corrupt text error => b.persist (.corrupt text error)

/-- One call of a subscriber. What it throws is caught. -/
def callSubscriber (l : Level α) (seq : ℕ) (b : Bus α) (subscriber : ℕ) : Bus α :=
  let b := { b with calls := b.calls ++ [(subscriber, seq)] }
  match b.reactions with
  | [] => b
  | r :: rest => r.acts.foldl (act l) { b with reactions := rest }

/-- The loop over the subscribers. -/
def fanOut (l : Level α) (b : Bus α) (row : EventRow α) : Bus α :=
  b.subscribers.foldl (callSubscriber l row.seq) b

/-- `notifySubscribers`. -/
def notifyWith (l : Level α) (b : Bus α) (row : EventRow α) : Bus α :=
  if b.notifyingSubscribers then b
  else
    let nestedRowsStartAfter := b.maxSeq
    let b := fanOut l { b with notifyingSubscribers := true } row
    let b := { b with notifyingSubscribers := false, watermark := max b.watermark row.seq }
    if b.drainingNotifyRows then b else l.drain b nestedRowsStartAfter

/-- One row of a drain, and the cursor behind it. -/
def drainRow (sha : String → String) (l : Level α) (s : Bus α × ℕ) (row : EventRow α) : Bus α × ℕ :=
  match row.payload with
  | .event _ => (l.notify s.1 row, row.seq)
  | .corrupt text error =>
    ({ s.1 with
        watermark := row.seq
        lastPoison := some (row.seq, error.text, sha text) }.persist
      (.event (.deliveryPoisoned row.seq error.text (sha text))), row.seq)

/-- The loop of a drain, five hundred rows at a time. -/
def drainLoop (sha : String → String) (l : Level α) : ℕ → Bus α × ℕ → Bus α × ℕ
  | 0, s => s
  | fuel + 1, s =>
    match (s.1.rowsAfter s.2).take 500 with
    | [] => s
    | row :: rows => drainLoop sha l fuel ((row :: rows).foldl (drainRow sha l) s)

/-- The rows a drain may still have to pass: a corrupt one brings its report. -/
def weight (ps : List (Payload α)) : ℕ := (ps.map fun p => if p.wellFormed then 1 else 2).sum

def backlog (s : Bus α × ℕ) : ℕ :=
  weight ((s.1.rowsAfter s.2).map EventRow.payload) +
    weight (s.1.reactions.flatMap Reaction.stored)

/-- `drainNotifyRowsToQuiescence`. -/
def drainWith (sha : String → String) (l : Level α) (b : Bus α) (startAfter : ℕ) : Bus α :=
  if b.drainingNotifyRows || b.notifyingSubscribers then b
  else
    let b := { b with drainingNotifyRows := true }
    { (drainLoop sha l (backlog (b, startAfter)) (b, startAfter)).1 with
      drainingNotifyRows := false }

/-- The two functions, with calls of one another down to the given depth. -/
def level (sha : String → String) : ℕ → Level α
  | 0 => ⟨fun b _ => b, fun b _ => b⟩
  | d + 1 => ⟨notifyWith (level sha d), drainWith sha (level sha d)⟩

/-- A call from outside, with what the subscribers' calls will do during it; `subscribe` and the
function it returns. -/
inductive Op (α : Type u) where
  | act (a : Act α) (reactions : List (Reaction α))
  | subscribe (k : ℕ)
  | unsubscribe (k : ℕ)

def perform (sha : String → String) (d : ℕ) (b : Bus α) : Op α → Bus α
  | .act a reactions => act (level sha (d + 3)) { b with reactions } a
  | .subscribe k =>
    if k ∈ b.subscribers then b else { b with subscribers := b.subscribers ++ [k] }
  | .unsubscribe k => { b with subscribers := b.subscribers.erase k }

def opened (rows : List (EventRow α)) (sequence : ℕ) : Bus α :=
  let b : Bus α := { rows, sequence }
  { b with watermark := b.maxSeq }

/-! ### The log -/

@[simp] lemma nextRows_nil (b : Bus α) : b.nextRows [] = [] := rfl

lemma nextRows_cons (b : Bus α) (p : Payload α) (ps : List (Payload α)) :
    b.nextRows (p :: ps) = ⟨b.sequence + 1, p⟩ :: (b.persist p).nextRows ps := by
  simp only [nextRows, List.zipIdx_cons, List.map_cons, persist, Nat.add_zero, List.cons.injEq,
    true_and]
  rw [List.zipIdx_succ, List.map_map]
  apply List.map_congr_left
  intro x _
  simp only [Function.comp_apply, EventRow.mk.injEq, and_true]
  omega

@[simp] lemma persistAll_nil (b : Bus α) : b.persistAll [] = b := rfl

lemma persistAll_append (b : Bus α) (ps qs : List (Payload α)) :
    b.persistAll (ps ++ qs) = (b.persistAll ps).persistAll qs := List.foldl_append

lemma persistAll_eq (b : Bus α) (ps : List (Payload α)) :
    b.persistAll ps =
      { b with rows := b.rows ++ b.nextRows ps, sequence := b.sequence + ps.length } := by
  induction ps generalizing b with
  | nil => simp
  | cons p ps ih =>
    have hstep : b.persistAll (p :: ps) = (b.persist p).persistAll ps := rfl
    rw [hstep, ih, nextRows_cons]
    simp only [persist, List.append_assoc, List.cons_append, List.nil_append, List.length_cons,
      Bus.mk.injEq, true_and, and_true]
    omega

@[simp] lemma map_payload_nextRows (b : Bus α) (ps : List (Payload α)) :
    (b.nextRows ps).map EventRow.payload = ps := by
  induction ps generalizing b with
  | nil => rfl
  | cons p ps ih => rw [nextRows_cons, List.map_cons, ih]

@[simp] lemma length_nextRows (b : Bus α) (ps : List (Payload α)) :
    (b.nextRows ps).length = ps.length := by
  simp [nextRows]

lemma nextRows_append (b : Bus α) (ps qs : List (Payload α)) :
    b.nextRows (ps ++ qs) = b.nextRows ps ++ (b.persistAll ps).nextRows qs := by
  induction ps generalizing b with
  | nil => rfl
  | cons p ps ih =>
    have hstep : b.persistAll (p :: ps) = (b.persist p).persistAll ps := rfl
    rw [List.cons_append, nextRows_cons, nextRows_cons, ih, hstep, List.cons_append]

lemma nextRows_congr {b c : Bus α} (h : b.sequence = c.sequence) (ps : List (Payload α)) :
    b.nextRows ps = c.nextRows ps := by
  rw [nextRows, nextRows, h]

lemma seq_of_mem_nextRows {b : Bus α} {ps : List (Payload α)} {r : EventRow α}
    (h : r ∈ b.nextRows ps) : b.sequence < r.seq ∧ r.seq ≤ b.sequence + ps.length := by
  induction ps generalizing b with
  | nil => simp at h
  | cons p ps ih =>
    rw [nextRows_cons] at h
    rcases List.mem_cons.mp h with rfl | h
    · simp
    · obtain ⟨hlo, hhi⟩ := ih h
      simp only [persist] at hlo hhi
      simp only [List.length_cons]
      omega

/-- Rows in seq order, none past the sequence. -/
structure Log (b : Bus α) : Prop where
  ascending : b.rows.Pairwise fun r r' => r.seq < r'.seq
  bounded : ∀ r ∈ b.rows, r.seq ≤ b.sequence

lemma ascending_nextRows (b : Bus α) (ps : List (Payload α)) :
    (b.nextRows ps).Pairwise fun r r' => r.seq < r'.seq := by
  induction ps generalizing b with
  | nil => exact .nil
  | cons p ps ih =>
    rw [nextRows_cons]
    refine .cons (fun r hr => ?_) (ih _)
    have h := (seq_of_mem_nextRows hr).1
    simpa [persist] using h

lemma Log.persistAll {b : Bus α} (h : Log b) (ps : List (Payload α)) : Log (b.persistAll ps) := by
  rw [persistAll_eq]
  constructor
  · refine List.pairwise_append.mpr ⟨h.ascending, ascending_nextRows b ps, fun r hr r' hr' => ?_⟩
    have hlo := h.bounded r hr
    have hhi := (seq_of_mem_nextRows hr').1
    omega
  · intro r hr
    rcases List.mem_append.mp hr with hr | hr
    · exact Nat.le_trans (h.bounded r hr) (Nat.le_add_right _ _)
    · exact (seq_of_mem_nextRows hr).2

lemma Log.congr {b c : Bus α} (h : Log b) (hrows : c.rows = b.rows)
    (hseq : c.sequence = b.sequence) : Log c :=
  ⟨hrows ▸ h.ascending, hrows ▸ hseq ▸ h.bounded⟩

lemma foldl_max_le_iff {l : List ℕ} {a n : ℕ} : l.foldl max a ≤ n ↔ a ≤ n ∧ ∀ x ∈ l, x ≤ n := by
  induction l generalizing a with
  | nil => simp
  | cons x l ih =>
    rw [List.foldl_cons, ih, Nat.max_le, List.forall_mem_cons, and_assoc]

lemma maxSeq_le_iff {b : Bus α} {n : ℕ} : b.maxSeq ≤ n ↔ ∀ r ∈ b.rows, r.seq ≤ n := by
  rw [maxSeq, foldl_max_le_iff, List.forall_mem_map]
  exact and_iff_right (Nat.zero_le n)

lemma le_maxSeq {b : Bus α} {r : EventRow α} (h : r ∈ b.rows) : r.seq ≤ b.maxSeq :=
  maxSeq_le_iff.mp (Nat.le_refl _) r h

lemma Log.maxSeq_le {b : Bus α} (h : Log b) : b.maxSeq ≤ b.sequence := maxSeq_le_iff.mpr h.bounded

lemma Log.rowsAfter_nextRows {b t : Bus α} {ps : List (Payload α)} (h : Log b)
    (ht : t.rows = b.rows ++ b.nextRows ps) : t.rowsAfter b.maxSeq = b.nextRows ps := by
  have hold : b.rows.filter (fun r => decide (b.maxSeq < r.seq)) = [] := by
    refine List.filter_eq_nil_iff.mpr fun r hr => ?_
    have hle := le_maxSeq hr
    simpa using hle
  have hnew : (b.nextRows ps).filter (fun r => decide (b.maxSeq < r.seq)) = b.nextRows ps := by
    refine List.filter_eq_self.mpr fun r hr => ?_
    have hlo := (seq_of_mem_nextRows hr).1
    have hmax := h.maxSeq_le
    simp only [decide_eq_true_eq]
    omega
  rw [rowsAfter, ht, List.filter_append, hold, hnew, List.nil_append]

end Bus

end OpenRig.EventBus
