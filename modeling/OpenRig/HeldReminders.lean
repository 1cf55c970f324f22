import OpenRig.DeliverySchedules
import Mathlib.Data.List.Nodup
import Mathlib.Data.List.Perm.Subperm

/-!
Reminders held for the end of a scheduler pass.

A turn of a seat's loop drops the members that are no longer current and sends at most one call,
whose members leave the loop. The trace of a pass is therefore a sequence of such turns, and what
the pass does with a reminder is read off them.
-/

namespace OpenRig.HeldReminders

open OpenRig.DeliverySchedules

structure ParkReminderEntry where
  qitemId : String
  summary : Option String := none
  continuation : Option String := none
  deriving DecidableEq

/-- A due reminder whose send waits for the end of its pass. -/
structure HeldReminder where
  jobId : String
  targetSession : String
  message : String
  evaluatedAt : String
  occurrenceId : String
  deriving DecidableEq

inductive DeliveryStatus where
  | ok | failed | retained
  deriving DecidableEq

structure Outcome where
  status : DeliveryStatus
  /-- The error is an interactive prompt's refusal. -/
  refusedInteractive : Bool := false
  deferred : Bool := false
  reconciled : Bool := false
  occurrenceTracked : Bool := false
  occurrenceComplete : Bool := false
  retryAt : Option String := none
  terminalReason : Option String := none
  deriving DecidableEq

structure DeliveryOutcome extends Outcome where
  memberOutcomes : List (String × Outcome) := []
  deriving DecidableEq

inductive HistoryOutcome where
  | sent | skipped | refused | failed | terminal
  deriving DecidableEq

structure HistoryRow where
  jobId : String
  evaluatedAt : String
  outcome : HistoryOutcome
  skipReason : Option String := none
  deliveryTargetSession : Option String := none
  deliveryStatus : Option DeliveryStatus := none
  deriving DecidableEq

/-- The daemon, with everything else it stores. -/
structure World (ρ : Type) where
  repo : Repository
  history : List HistoryRow := []
  shuttingDown : Bool := false
  rows : ρ

/-- One call of `deliver`. -/
inductive Call where
  | alone (seat : String) (held : HeldReminder) (entry : Option ParkReminderEntry)
  | digest (seat : String) (members : List (HeldReminder × ParkReminderEntry))
  deriving DecidableEq

namespace Call

def seat : Call → String
  | alone seat _ _ | digest seat _ => seat

def members : Call → List HeldReminder
  | alone _ held _ => [held]
  | digest _ members => members.map Prod.fst

def outcomeFor (d : DeliveryOutcome) (held : HeldReminder) : Call → Outcome
  | alone .. => d.toOutcome
  | digest .. => (d.memberOutcomes.lookup held.jobId).getD d.toOutcome

end Call

/-- What a pass meets: the domain's answers, and what others do while it waits. -/
structure Env (ρ : Type) where
  resolveDigestEntry : World ρ → (jobId message : String) → Option ParkReminderEntry
  resolvePreDeliveryTerminalReason : World ρ → (jobId : String) → Option String
  /-- The receipt of an occurrence that was sent before. -/
  reconcile : World ρ → HeldReminder → Option Outcome
  /-- An evaluation up to its decision to send, with what happens meanwhile. -/
  decide : ℕ → (jobId : String) → World ρ → World ρ × Option HeldReminder
  /-- A call with what happens until it returns, or throws. -/
  deliver : ℕ → Call → World ρ → World ρ × Option DeliveryOutcome
  /-- What happens at another await. -/
  others : ℕ → World ρ → World ρ
  /-- The queue's observer of a wake. -/
  onWakeAttempt : (jobId : String) → Outcome → World ρ → World ρ

inductive Event (ρ : Type) where
  /-- The reminders that a turn checks, each with what it was checked in. -/
  | scan (checks : List (HeldReminder × World ρ))
  | call (c : Call)
  | returned (c : Call) (d : DeliveryOutcome)
  /-- The accounting of one attempt, with the row it writes. -/
  | recorded (held : HeldReminder) (o : Outcome) (row : Option HistoryRow)
  | recovered (held : HeldReminder) (o : Outcome)
  | threw
  | stopped

/-- The pass: the world, the awaits so far and what it did. -/
structure State (ρ : Type) where
  world : World ρ
  turn : ℕ := 0
  trace : List (Event ρ) := []

variable {ρ : Type} (E : Env ρ)

def State.emit (s : State ρ) (e : Event ρ) : State ρ := { s with trace := s.trace ++ [e] }

def State.wait (s : State ρ) : State ρ :=
  { s with world := E.others s.turn s.world, turn := s.turn + 1 }

/-! ### Accounting -/

/-- The history row of an attempt. A deferred one has none. -/
def attemptRow (held : HeldReminder) (o : Outcome) : Option HistoryRow :=
  if o.deferred then none
  else some {
    jobId := held.jobId
    evaluatedAt := held.evaluatedAt
    outcome :=
      if o.reconciled then .skipped
      else match o.status with
        | .retained => .skipped
        | .ok => .sent
        | .failed => if o.refusedInteractive then .refused else .failed
    skipReason :=
      if o.reconciled then some "delivery_receipt_reconciled"
      else if o.status = .retained then some "typing_guard_retained" else none
    deliveryTargetSession := some held.targetSession
    deliveryStatus := some o.status }

/-- The occurrence is still owed. -/
def retryPending (o : Outcome) : Bool :=
  o.occurrenceTracked && o.status = .failed && !o.occurrenceComplete

def accountWake (held : HeldReminder) (schedule : WatchdogJob) (o : Outcome) (w : World ρ) :
    World ρ :=
  let told := (w.repo.jobs held.jobId).any fun current =>
    current.state = .active ∧
      w.repo.scheduleUnchanged held.jobId current.toSchedule schedule.toSchedule ∧
      (current.lastEvaluationAt = some held.evaluatedAt ∨
        (retryPending o ∧ current.lastEvaluationAt = schedule.lastEvaluationAt))
  let w' := if told then E.onWakeAttempt held.jobId o w else w
  match o.terminalReason with
  | some reason => { w' with repo := w'.repo.markTerminal held.jobId reason }
  | none => w'

def recordAttempt (held : HeldReminder) (schedule : WatchdogJob) (o : Outcome) (s : State ρ) :
    State ρ :=
  let w := s.world
  let w := if o.deferred then w
    else
      let w := { w with history := w.history ++ (attemptRow held o).toList }
      let w := if retryPending o then w
        else { w with
          repo := w.repo.recordEvaluation held.jobId held.evaluatedAt true (some schedule) }
      accountWake E held schedule o w
  { s with
    world := { w with repo := w.repo.deliveryAccounted held.jobId }
    trace := s.trace ++ [.recorded held o (attemptRow held o)] }

/-! ### Sending -/

def deliverySchedules : List HeldReminder → Repository → Option (List WatchdogJob × Repository)
  | [], r => some ([], r)
  | held :: rest, r => do
    let (schedule, r) ← r.deliverySchedule held.jobId
    let (schedules, r) ← deliverySchedules rest r
    some (schedule :: schedules, r)

def deliver (c : Call) (s : State ρ) : State ρ × Option DeliveryOutcome :=
  let (w, reply) := E.deliver s.turn c s.world
  let e : Event ρ := match reply with
    | some d => .returned c d
    | none => .threw
  ({ s with world := w, turn := s.turn + 1, trace := s.trace ++ [.call c, e] }, reply)

/-- The attempts of a call accounted in turn. -/
def recordAll (c : Call) (d : DeliveryOutcome) :
    List (HeldReminder × WatchdogJob) → State ρ → State ρ
  | [], s => s
  | (held, schedule) :: rest, s =>
    recordAll c d rest (recordAttempt E held schedule (c.outcomeFor d held) s)

/-- A call and its accounting. False is a throw. -/
def attempt (c : Call) (s : State ρ) : State ρ × Bool :=
  match deliverySchedules c.members s.world.repo with
  | none => (s.emit .threw, false)
  | some (schedules, repo) =>
    match deliver E c { s with world := { s.world with repo := repo } } with
    | (s, some d) => (recordAll E c d (c.members.zip schedules) s, true)
    | (s, none) => (s, false)

def deliverAlone (seat : String) (held : HeldReminder) (entry : Option ParkReminderEntry)
    (s : State ρ) : State ρ × Bool :=
  attempt E (.alone seat held entry) s

def deliverDigest (seat : String) (digest : List (HeldReminder × ParkReminderEntry))
    (s : State ρ) : State ρ × Bool :=
  attempt E (.digest seat digest) s

/-! ### A seat's loop -/

def isActive (w : World ρ) (jobId : String) : Bool :=
  (w.repo.jobs jobId).any fun job => job.state = .active

/-- The job is active, and nothing proves it is no longer actionable. -/
def IsCurrent (w : World ρ) (held : HeldReminder) : Prop :=
  isActive w held.jobId ∧ E.resolvePreDeliveryTerminalReason w held.jobId = none

instance (w : World ρ) (held : HeldReminder) : Decidable (IsCurrent E w held) :=
  inferInstanceAs (Decidable (_ ∧ _))

/-- The guard's writes. -/
def terminalBeforeDelivery (held : HeldReminder) (w : World ρ) : World ρ :=
  match E.resolvePreDeliveryTerminalReason w held.jobId with
  | none => w
  | some reason =>
    { w with
      repo := w.repo.markTerminal held.jobId reason
      history := w.history ++ [{
        jobId := held.jobId
        evaluatedAt := held.evaluatedAt
        outcome := .terminal
        skipReason := some reason }] }

structure Scan (ρ : Type) where
  world : World ρ
  checks : List (HeldReminder × World ρ) := []
  /-- Those still to send, each with its current entry. -/
  alive : List (HeldReminder × Option ParkReminderEntry) := []
  /-- False where a job is not found. -/
  found : Bool := true

def scan : List HeldReminder → World ρ → Scan ρ
  | [], w => { world := w }
  | held :: rest, w =>
    if (w.repo.jobs held.jobId).isNone then { world := w, found := false }
    else
      let w' := if isActive w held.jobId then terminalBeforeDelivery E held w else w
      let r := scan rest w'
      { r with
        checks := (held, w) :: r.checks
        alive := if IsCurrent E w held then
            (held, E.resolveDigestEntry w held.jobId held.message) :: r.alive
          else r.alive }

/-- The first that goes alone, with the others, or else the members of a digest. -/
def nextSend : List (HeldReminder × Option ParkReminderEntry) →
    (HeldReminder × List HeldReminder) ⊕ List (HeldReminder × ParkReminderEntry)
  | [] => .inr []
  | (held, none) :: rest => .inl (held, rest.map Prod.fst)
  | (held, some entry) :: rest =>
    match nextSend rest with
    | .inl (alone, left) => .inl (alone, held :: left)
    | .inr digest => .inr ((held, entry) :: digest)

/-- The loop over the members not yet finished, for this many turns. -/
def turns (seat : String) : ℕ → List HeldReminder → State ρ → State ρ
  | 0, _, s => s
  | n + 1, unfinished, s =>
    if s.world.shuttingDown then s.emit .stopped
    else
      let r := scan E unfinished s.world
      let s := { s with world := r.world, trace := s.trace ++ [.scan r.checks] }
      if r.found then
        match nextSend r.alive with
        | .inl (held, left) =>
          match deliverAlone E seat held none s with
          | (s, true) => turns seat n left (s.wait E)
          | (s, false) => s
        | .inr [] => s
        | .inr [(held, entry)] => (deliverAlone E seat held (some entry) s).1
        | .inr digest => (deliverDigest E seat digest s).1
      else s.emit .threw

/-- Every turn that does not return finishes a member. -/
def deliverHeldGroup (seat : String) (group : List HeldReminder) (s : State ρ) : State ρ :=
  turns E seat (group.length + 1) group s

/-! ### The pass -/

/-- The seats in the order of their first reminder. -/
def hold (bySeat : List (String × List HeldReminder)) (held : HeldReminder) :
    List (String × List HeldReminder) :=
  match bySeat with
  | [] => [(held.targetSession, [held])]
  | (seat, group) :: rest =>
    if seat = held.targetSession then (seat, group ++ [held]) :: rest
    else (seat, group) :: hold rest held

/-- A throw leaves the rest of its group, and the pass goes on. -/
def deliverSeats : List (String × List HeldReminder) → State ρ → State ρ
  | [], s => s
  | (seat, group) :: rest, s =>
    if s.world.shuttingDown then s.emit .stopped
    else deliverSeats rest ((deliverHeldGroup E seat group s).wait E)

def deliverHeldReminders (held : List HeldReminder) (s : State ρ) : State ρ :=
  deliverSeats E (held.foldl hold []) s

def evaluate (jobId : String) (s : State ρ) : State ρ × List HeldReminder :=
  match E.decide s.turn jobId s.world with
  | (w, none) => ({ s with world := w, turn := s.turn + 1 }, [])
  | (w, some send) =>
    let held := { send with jobId := jobId }
    let s := { s with world := w, turn := s.turn + 1 }
    match E.resolvePreDeliveryTerminalReason w jobId with
    | some _ => ({ s with world := terminalBeforeDelivery E held w }, [])
    | none =>
      match E.reconcile w held with
      | some o =>
        match w.repo.deliverySchedule jobId with
        | none => (s.emit .threw, [])
        | some (schedule, repo) =>
          let s := { s with world := { w with repo := repo } }
          ((recordAttempt E held schedule o s).emit (.recovered held o), [])
      | none =>
        match E.resolveDigestEntry w jobId held.message with
        | some _ => (s, [held])
        | none => ((deliverAlone E held.targetSession held none s).1, [])

/-- The active jobs in turn, with what they hold. False is a stop. -/
def collect : List String → State ρ → State ρ × List HeldReminder × Bool
  | [], s => (s, [], true)
  | jobId :: rest, s =>
    if s.world.shuttingDown then (s, [], false)
    else
      let (s, held) := evaluate E jobId s
      let (s, more, go) := collect rest (s.wait E)
      (s, held ++ more, go)

/-- A pass: what it is when its jobs are evaluated, what they held, and what it is in the end. -/
structure Pass (ρ : Type) where
  collected : State ρ
  held : List HeldReminder
  final : State ρ

/-- The scheduler's pass over the active jobs. -/
def tick (active : List String) (s : State ρ) : Pass ρ :=
  let (s, held, go) := collect E active s
  { collected := s
    held := held
    final := if go ∧ ¬ s.world.shuttingDown then deliverHeldReminders E held s
      else s.emit .stopped }

/-! ### What a trace says -/

def callOf : Event ρ → Option Call
  | .call c => some c
  | _ => none

def returnOf : Event ρ → Option (Call × DeliveryOutcome)
  | .returned c d => some (c, d)
  | _ => none

def recordOf : Event ρ → Option (HeldReminder × Outcome × Option HistoryRow)
  | .recorded held o row => some (held, o, row)
  | _ => none

/-- The reminders of a turn that are current, and those that are not. -/
def currentOf (checks : List (HeldReminder × World ρ)) : List HeldReminder :=
  (checks.filter fun c => IsCurrent E c.2 c.1).map Prod.fst

def droppedOf (checks : List (HeldReminder × World ρ)) : List HeldReminder :=
  (checks.filter fun c => ¬ IsCurrent E c.2 c.1).map Prod.fst

def droppedBy : Event ρ → List HeldReminder
  | .scan checks => droppedOf E checks
  | _ => []

def calledIn (T : List (Event ρ)) : List HeldReminder := (T.filterMap callOf).flatMap Call.members

def droppedIn (T : List (Event ρ)) : List HeldReminder := T.flatMap (droppedBy E)

def returnedIn (T : List (Event ρ)) : List HeldReminder :=
  (T.filterMap returnOf).flatMap fun r => r.1.members

/-- How a call that returned is accounted. -/
def accounted (c : Call) (d : DeliveryOutcome) :
    List (HeldReminder × Outcome × Option HistoryRow) :=
  c.members.map fun held => (held, c.outcomeFor d held, attemptRow held (c.outcomeFor d held))

def recordEvents (c : Call) (d : DeliveryOutcome) : List (Event ρ) :=
  (accounted c d).map fun r => .recorded r.1 r.2.1 r.2.2

/-- The traces of a seat's loop over these members. -/
inductive Turns (seat : String) : List HeldReminder → List (Event ρ) → Prop
  | nil : Turns seat [] []
  | stopped (unfinished : List HeldReminder) : Turns seat unfinished [.stopped]
  /-- A job is not found. -/
  | lost (checks : List (HeldReminder × World ρ)) (rest : List HeldReminder) :
      Turns seat (checks.map Prod.fst ++ rest) [.scan checks, .threw]
  | done (checks : List (HeldReminder × World ρ)) (h : currentOf E checks = []) :
      Turns seat (checks.map Prod.fst) [.scan checks]
  | fails (checks : List (HeldReminder × World ρ)) (c : Call) (left : List HeldReminder)
      (hseat : c.seat = seat) (hperm : (c.members ++ left).Perm (currentOf E checks)) :
      Turns seat (checks.map Prod.fst) [.scan checks, .call c, .threw]
  | sends (checks : List (HeldReminder × World ρ)) (c : Call) (left : List HeldReminder)
      (hseat : c.seat = seat) (hperm : (c.members ++ left).Perm (currentOf E checks))
      (d : DeliveryOutcome) {rest : List (Event ρ)} (h : Turns seat left rest) :
      Turns seat (checks.map Prod.fst)
        (.scan checks :: .call c :: .returned c d :: (recordEvents c d ++ rest))

/-- The traces of a pass over these groups. -/
inductive Seats : List (String × List HeldReminder) → List (Event ρ) → Prop
  | nil : Seats [] []
  | stopped (groups : List (String × List HeldReminder)) : Seats groups [.stopped]
  | seat {seat : String} {group : List HeldReminder} {rest : List (String × List HeldReminder)}
      {T T' : List (Event ρ)} (h : Turns E seat group T) (h' : Seats rest T') :
      Seats ((seat, group) :: rest) (T ++ T')

def boundary (w : World ρ) (jobId : String) : Option (Option String) :=
  (w.repo.jobs jobId).map (·.lastEvaluationAt)

/-- Nothing outside the pass moves the job's due boundary. -/
structure Env.Keeps (jobId : String) : Prop where
  deliver : ∀ n c w, boundary (E.deliver n c w).1 jobId = boundary w jobId
  others : ∀ n w, boundary (E.others n w) jobId = boundary w jobId
  onWakeAttempt : ∀ id o w, boundary (E.onWakeAttempt id o w) jobId = boundary w jobId

variable {E}

/-! ### Accounting and the due boundary -/

@[simp] lemma emit_trace (s : State ρ) (e : Event ρ) : (s.emit e).trace = s.trace ++ [e] := rfl

@[simp] lemma emit_world (s : State ρ) (e : Event ρ) : (s.emit e).world = s.world := rfl

@[simp] lemma wait_trace (s : State ρ) : (s.wait E).trace = s.trace := rfl

lemma boundary_markTerminal (r : Repository) (id reason jobId : String) :
    ((r.markTerminal id reason).jobs jobId).map (·.lastEvaluationAt) =
      (r.jobs jobId).map (·.lastEvaluationAt) := by
  by_cases h : jobId = id
  · subst h
    simp [Repository.markTerminal, Option.map_map, Function.comp_def]
  · simp [Repository.markTerminal, h]

lemma boundary_terminalBeforeDelivery (held : HeldReminder) (w : World ρ) (jobId : String) :
    boundary (terminalBeforeDelivery E held w) jobId = boundary w jobId := by
  unfold terminalBeforeDelivery
  split
  · rfl
  · exact boundary_markTerminal ..

lemma boundary_accountWake {jobId : String} (hk : E.Keeps jobId) (held : HeldReminder)
    (schedule : WatchdogJob) (o : Outcome) (w : World ρ) :
    boundary (accountWake E held schedule o w) jobId = boundary w jobId := by
  have htold : ∀ told : Bool,
      boundary (if told then E.onWakeAttempt held.jobId o w else w) jobId =
        boundary w jobId := by
    intro told
    split
    · exact hk.onWakeAttempt ..
    · rfl
  unfold accountWake
  split
  · exact (boundary_markTerminal ..).trans (htold _)
  · exact htold _

lemma boundary_recordAttempt {jobId : String} (hk : E.Keeps jobId) {held : HeldReminder}
    (hne : jobId ≠ held.jobId) (schedule : WatchdogJob) (o : Outcome) (s : State ρ) :
    boundary (recordAttempt E held schedule o s).world jobId = boundary s.world jobId := by
  have hrecord : ∀ r : Repository, ((r.recordEvaluation held.jobId held.evaluatedAt true
      (some schedule)).jobs jobId) = r.jobs jobId := fun r => by
    simp [Repository.recordEvaluation, hne]
  cases hd : o.deferred with
  | true => simp [recordAttempt, hd, boundary, Repository.deliveryAccounted]
  | false =>
    cases hp : retryPending o with
    | true =>
      simp only [recordAttempt, hd, hp, if_true, Bool.false_eq_true, if_false]
      exact boundary_accountWake hk ..
    | false =>
      simp only [recordAttempt, hd, hp, Bool.false_eq_true, if_false]
      refine (boundary_accountWake hk ..).trans ?_
      simp [boundary, hrecord]

lemma recordAttempt_trace (held : HeldReminder) (schedule : WatchdogJob) (o : Outcome)
    (s : State ρ) : (recordAttempt E held schedule o s).trace =
      s.trace ++ [.recorded held o (attemptRow held o)] := rfl

lemma recordAll_trace (c : Call) (d : DeliveryOutcome) (pairs : List (HeldReminder × WatchdogJob))
    (s : State ρ) : (recordAll E c d pairs s).trace =
      s.trace ++ pairs.map fun p =>
        .recorded p.1 (c.outcomeFor d p.1) (attemptRow p.1 (c.outcomeFor d p.1)) := by
  induction pairs generalizing s with
  | nil => simp [recordAll]
  | cons p pairs ih =>
    rw [recordAll, ih, recordAttempt_trace, List.map_cons, List.append_assoc]
    rfl

lemma boundary_recordAll {jobId : String} (hk : E.Keeps jobId) (c : Call) (d : DeliveryOutcome)
    {pairs : List (HeldReminder × WatchdogJob)} (h : ∀ p ∈ pairs, jobId ≠ p.1.jobId)
    (s : State ρ) : boundary (recordAll E c d pairs s).world jobId = boundary s.world jobId := by
  induction pairs generalizing s with
  | nil => rfl
  | cons p pairs ih =>
    rw [recordAll, ih fun q hq => h q (List.mem_cons_of_mem _ hq)]
    exact boundary_recordAttempt hk (h p List.mem_cons_self) ..

/-! ### A call -/

lemma deliverySchedules_spec {hs : List HeldReminder} {r r' : Repository}
    {schedules : List WatchdogJob} (h : deliverySchedules hs r = some (schedules, r')) :
    schedules.length = hs.length ∧ r'.jobs = r.jobs := by
  induction hs generalizing r schedules with
  | nil =>
    obtain ⟨rfl, rfl⟩ : [] = schedules ∧ r = r' := by simpa [deliverySchedules] using h
    exact ⟨rfl, rfl⟩
  | cons held hs ih =>
    cases hjob : r.jobs held.jobId with
    | none => simp [deliverySchedules, Repository.deliverySchedule, hjob] at h
    | some job =>
      simp only [deliverySchedules, Repository.deliverySchedule, hjob, Option.bind_eq_bind,
        Option.bind_some, Option.bind_eq_some_iff, Option.some.injEq, Prod.mk.injEq] at h
      obtain ⟨⟨schedules', r''⟩, hrest, rfl, rfl⟩ := h
      obtain ⟨hlen, hjobs⟩ := ih hrest
      exact ⟨by simp [hlen], hjobs⟩

/-- **What a call does**: it throws before it is made, throws, or returns and is accounted. -/
lemma attempt_spec (c : Call) (s : State ρ) :
    (∃ s', attempt E c s = (s', false) ∧
      (s'.trace = s.trace ++ [.threw] ∨ s'.trace = s.trace ++ [.call c, .threw]) ∧
      ∀ jobId, E.Keeps jobId → boundary s'.world jobId = boundary s.world jobId) ∨
    ∃ s' d, attempt E c s = (s', true) ∧
      s'.trace = s.trace ++ .call c :: .returned c d :: recordEvents c d ∧
      ∀ jobId, E.Keeps jobId → jobId ∉ c.members.map (·.jobId) →
        boundary s'.world jobId = boundary s.world jobId := by
  cases hs : deliverySchedules c.members s.world.repo with
  | none => exact .inl ⟨s.emit .threw, by simp [attempt, hs], .inl rfl, fun _ _ => rfl⟩
  | some p =>
    obtain ⟨schedules, repo⟩ := p
    obtain ⟨hlen, hjobs⟩ := deliverySchedules_spec hs
    set w : World ρ := { s.world with repo := repo } with hw
    have hbw : ∀ jobId, boundary w jobId = boundary s.world jobId := fun jobId => by
      simp [boundary, hw, hjobs]
    cases hreply : (E.deliver s.turn c w).2 with
    | none =>
      refine .inl ⟨(deliver E c { s with world := w }).1, ?_, .inr ?_, fun jobId hk => ?_⟩
      · simp [attempt, hs, deliver, ← hw, hreply]
      · simp [deliver, hreply]
      · exact (hk.deliver ..).trans (hbw jobId)
    | some d =>
      refine .inr ⟨recordAll E c d (c.members.zip schedules)
        (deliver E c { s with world := w }).1, d, ?_, ?_, fun jobId hk hne => ?_⟩
      · simp [attempt, hs, deliver, ← hw, hreply]
      · rw [recordAll_trace]
        have hzip : c.members = (c.members.zip schedules).map Prod.fst := by
          rw [List.map_fst_zip hlen.ge]
        conv_rhs => rw [recordEvents, accounted, hzip]
        simp [deliver, hreply, List.map_map, Function.comp_def]
      · refine (boundary_recordAll hk c d (fun p hp heq => hne ?_) _).trans
          ((hk.deliver ..).trans (hbw jobId))
        rw [heq]
        exact List.mem_map_of_mem (List.of_mem_zip hp).1

/-! ### A turn -/

lemma scan_spec (hs : List HeldReminder) (w : World ρ) :
    let r := scan E hs w
    (∃ rest, hs = r.checks.map Prod.fst ++ rest ∧ (r.found = true → rest = [])) ∧
      r.alive.map Prod.fst = currentOf E r.checks ∧
      ∀ jobId, boundary r.world jobId = boundary w jobId := by
  induction hs generalizing w with
  | nil => exact ⟨⟨[], rfl, fun _ => rfl⟩, rfl, fun _ => rfl⟩
  | cons held hs ih =>
    cases hjob : (w.repo.jobs held.jobId).isNone with
    | true =>
      have hscan : scan E (held :: hs) w = { world := w, found := false } := by
        simp [scan, hjob]
      rw [hscan]
      exact ⟨⟨held :: hs, rfl, nofun⟩, rfl, fun _ => rfl⟩
    | false =>
      simp only [scan, hjob, Bool.false_eq_true, if_false]
      obtain ⟨⟨rest, hrest, hfound⟩, halive, hb⟩ :=
        ih (if isActive w held.jobId then terminalBeforeDelivery E held w else w)
      refine ⟨⟨rest, ?_, hfound⟩, ?_, fun jobId => (hb jobId).trans ?_⟩
      · rw [List.map_cons, List.cons_append, ← hrest]
      · by_cases hc : IsCurrent E w held
        · simp [currentOf, hc, halive]
        · simp [currentOf, hc, halive]
      · split
        · exact boundary_terminalBeforeDelivery ..
        · rfl

lemma nextSend_alone {alive : List (HeldReminder × Option ParkReminderEntry)} {held : HeldReminder}
    {left : List HeldReminder} (h : nextSend alive = .inl (held, left)) :
    (held :: left).Perm (alive.map Prod.fst) := by
  induction alive generalizing left with
  | nil => simp [nextSend] at h
  | cons p alive ih =>
    obtain ⟨first, entry⟩ := p
    cases entry with
    | none =>
      obtain ⟨rfl, rfl⟩ : first = held ∧ alive.map Prod.fst = left := by simpa [nextSend] using h
      exact .refl _
    | some entry =>
      cases hn : nextSend alive with
      | inl q =>
        obtain ⟨alone, left'⟩ := q
        obtain ⟨rfl, rfl⟩ : alone = held ∧ first :: left' = left := by
          simpa [nextSend, hn] using h
        exact (List.Perm.swap ..).trans ((ih hn).cons first)
      | inr digest => simp [nextSend, hn] at h

lemma nextSend_digest {alive : List (HeldReminder × Option ParkReminderEntry)}
    {digest : List (HeldReminder × ParkReminderEntry)} (h : nextSend alive = .inr digest) :
    digest.map Prod.fst = alive.map Prod.fst := by
  induction alive generalizing digest with
  | nil =>
    obtain rfl : [] = digest := by simpa [nextSend] using h
    rfl
  | cons p alive ih =>
    obtain ⟨first, entry⟩ := p
    cases entry with
    | none => simp [nextSend] at h
    | some entry =>
      cases hn : nextSend alive with
      | inl q => simp [nextSend, hn] at h
      | inr digest' =>
        obtain rfl : (first, entry) :: digest' = digest := by simpa [nextSend, hn] using h
        simp [ih hn]

/-- A piece of the pass: the trace it adds, and the boundaries it leaves. -/
structure Piece (E : Env ρ) (s s' : State ρ) (T : List (Event ρ)) : Prop where
  trace : s'.trace = s.trace ++ T
  boundary : ∀ jobId, E.Keeps jobId → jobId ∉ (returnedIn T).map (·.jobId) →
    boundary s'.world jobId = boundary s.world jobId

section Readers

variable (T : List (Event ρ)) (checks : List (HeldReminder × World ρ)) (c : Call)
  (d : DeliveryOutcome)

@[simp] lemma calledIn_nil : calledIn ([] : List (Event ρ)) = [] := rfl

@[simp] lemma calledIn_scan : calledIn (.scan checks :: T) = calledIn T := rfl

@[simp] lemma calledIn_call : calledIn (.call c :: T) = c.members ++ calledIn T := rfl

@[simp] lemma calledIn_returned : calledIn (.returned c d :: T) = calledIn T := rfl

@[simp] lemma calledIn_threw : calledIn (.threw :: T) = calledIn T := rfl

@[simp] lemma calledIn_stopped : calledIn (.stopped :: T) = calledIn T := rfl

@[simp] lemma droppedIn_nil : droppedIn E [] = [] := rfl

@[simp] lemma droppedIn_scan :
    droppedIn E (.scan checks :: T) = droppedOf E checks ++ droppedIn E T := rfl

@[simp] lemma droppedIn_call : droppedIn E (.call c :: T) = droppedIn E T := rfl

@[simp] lemma droppedIn_returned : droppedIn E (.returned c d :: T) = droppedIn E T := rfl

@[simp] lemma droppedIn_threw : droppedIn E (.threw :: T) = droppedIn E T := rfl

@[simp] lemma droppedIn_stopped : droppedIn E (.stopped :: T) = droppedIn E T := rfl

end Readers

@[simp] lemma calledIn_append (T T' : List (Event ρ)) :
    calledIn (T ++ T') = calledIn T ++ calledIn T' := by
  simp [calledIn]

@[simp] lemma returnedIn_append (T T' : List (Event ρ)) :
    returnedIn (T ++ T') = returnedIn T ++ returnedIn T' := by
  simp [returnedIn]

@[simp] lemma droppedIn_append (T T' : List (Event ρ)) :
    droppedIn E (T ++ T') = droppedIn E T ++ droppedIn E T' := by
  simp [droppedIn]

lemma callOf_recordEvents (c : Call) (d : DeliveryOutcome) :
    (recordEvents c d : List (Event ρ)).filterMap callOf = [] := by
  simp [recordEvents, List.filterMap_map, callOf]

lemma returnOf_recordEvents (c : Call) (d : DeliveryOutcome) :
    (recordEvents c d : List (Event ρ)).filterMap returnOf = [] := by
  simp [recordEvents, List.filterMap_map, returnOf]

lemma recordOf_recordEvents (c : Call) (d : DeliveryOutcome) :
    (recordEvents c d : List (Event ρ)).filterMap recordOf = accounted c d := by
  simp [recordEvents, List.filterMap_map, recordOf, Function.comp_def]

@[simp] lemma calledIn_recordEvents (c : Call) (d : DeliveryOutcome) :
    calledIn (recordEvents c d : List (Event ρ)) = [] := by
  rw [calledIn, callOf_recordEvents]
  rfl

@[simp] lemma droppedIn_recordEvents (c : Call) (d : DeliveryOutcome) :
    droppedIn E (recordEvents c d) = [] := by
  simp [droppedIn, recordEvents, List.flatMap_map, droppedBy]

lemma returnedIn_call (c : Call) (d : DeliveryOutcome) :
    returnedIn (.call c :: .returned c d :: recordEvents c d : List (Event ρ)) = c.members := by
  rw [returnedIn, List.filterMap_cons_none rfl,
    List.filterMap_cons_some (f := returnOf) (b := (c, d)) rfl, returnOf_recordEvents,
    List.flatMap_singleton]

namespace Piece

variable {s s' s'' : State ρ} {T T' : List (Event ρ)}

lemma refl (s : State ρ) : Piece E s s [] := ⟨by simp, fun _ _ _ => rfl⟩

lemma trans (h : Piece E s s' T) (h' : Piece E s' s'' T') : Piece E s s'' (T ++ T') where
  trace := by rw [h'.trace, h.trace, List.append_assoc]
  boundary jobId hk hne := by
    rw [returnedIn_append, List.map_append, List.mem_append, not_or] at hne
    exact (h'.boundary jobId hk hne.2).trans (h.boundary jobId hk hne.1)

lemma wait (h : Piece E s s' T) : Piece E s (s'.wait E) T where
  trace := h.trace
  boundary jobId hk hne := (hk.others ..).trans (h.boundary jobId hk hne)

lemma emit (s : State ρ) (e : Event ρ) : Piece E s (s.emit e) [e] := ⟨rfl, fun _ _ _ => rfl⟩

end Piece

lemma attempt_turn {seat : String} {s s₁ : State ρ} {checks : List (HeldReminder × World ρ)}
    (hs : Piece E s s₁ [.scan checks]) {c : Call} (hseat : c.seat = seat)
    {left : List HeldReminder} (hperm : (c.members ++ left).Perm (currentOf E checks)) :
    (∃ s' T, attempt E c s₁ = (s', false) ∧ Piece E s s' T ∧
      Turns E seat (checks.map Prod.fst) T) ∨
    ∃ s' d, attempt E c s₁ = (s', true) ∧
      Piece E s s' (.scan checks :: .call c :: .returned c d :: recordEvents c d) := by
  obtain ⟨s', hs', htrace, hb⟩ | ⟨s', d, hs', htrace, hb⟩ := attempt_spec (E := E) c s₁
  · refine .inl ⟨s', ?_⟩
    rcases htrace with htrace | htrace
    · have hp : Piece E s₁ s' [.threw] := ⟨htrace, fun jobId hk _ => hb jobId hk⟩
      have hlost : Turns E seat (checks.map Prod.fst ++ []) _ := .lost checks []
      rw [List.append_nil] at hlost
      exact ⟨_, hs', hs.trans hp, hlost⟩
    · have hp : Piece E s₁ s' [.call c, .threw] := ⟨htrace, fun jobId hk _ => hb jobId hk⟩
      exact ⟨_, hs', hs.trans hp, .fails checks c left hseat hperm⟩
  · have hp : Piece E s₁ s' (.call c :: .returned c d :: recordEvents c d) := by
      refine ⟨htrace, fun jobId hk hne => hb jobId hk ?_⟩
      rwa [returnedIn_call] at hne
    exact .inr ⟨s', d, hs', hs.trans hp⟩

lemma attempt_last {seat : String} {s s₁ : State ρ} {checks : List (HeldReminder × World ρ)}
    (hs : Piece E s s₁ [.scan checks]) {c : Call} (hseat : c.seat = seat)
    (hc : c.members = currentOf E checks) :
    ∃ T, Piece E s (attempt E c s₁).1 T ∧ Turns E seat (checks.map Prod.fst) T := by
  have hperm : (c.members ++ []).Perm (currentOf E checks) := by rw [List.append_nil, hc]
  obtain ⟨s', T, hs', hp, hT⟩ | ⟨s', d, hs', hp⟩ := attempt_turn hs hseat hperm
  · exact ⟨T, by rwa [hs'], hT⟩
  · refine ⟨_, by rw [hs']; exact hp, ?_⟩
    have hsends := Turns.sends (E := E) checks c [] hseat hperm d .nil
    rwa [List.append_nil] at hsends

/-- **The loop of a seat** is a sequence of turns, given more turns than members. -/
theorem turns_spec (seat : String) {n : ℕ} {unfinished : List HeldReminder}
    (hn : unfinished.length < n) (s : State ρ) :
    ∃ T, Piece E s (turns E seat n unfinished s) T ∧ Turns E seat unfinished T := by
  induction n generalizing unfinished s with
  | zero => omega
  | succ n ih =>
    unfold turns
    split
    · exact ⟨[.stopped], .emit s _, .stopped unfinished⟩
    obtain ⟨⟨rest, hrest, hfound⟩, halive, hb⟩ := scan_spec (E := E) unfinished s.world
    set r := scan E unfinished s.world
    set s₁ : State ρ := { s with world := r.world, trace := s.trace ++ [.scan r.checks] }
      with hs₁def
    have hs₁ : Piece E s s₁ [.scan r.checks] := ⟨rfl, fun jobId _ _ => hb jobId⟩
    cases hf : r.found with
    | false =>
      simp only [hf, Bool.false_eq_true, if_false]
      refine ⟨[.scan r.checks, .threw], hs₁.trans (.emit s₁ _), ?_⟩
      rw [hrest]
      exact .lost r.checks rest
    | true =>
      obtain rfl := hfound hf
      rw [List.append_nil] at hrest
      simp only [hf, if_true]
      cases hnext : nextSend r.alive with
      | inl p =>
        obtain ⟨held, left⟩ := p
        have hperm : ((Call.alone seat held none).members ++ left).Perm
            (currentOf E r.checks) := by
          rw [← halive]
          exact nextSend_alone hnext
        obtain ⟨s', T, hs', hp, hT⟩ | ⟨s', d, hs', hp⟩ := attempt_turn hs₁ rfl hperm
        · refine ⟨T, ?_, hrest ▸ hT⟩
          have hs'' : deliverAlone E seat held none s₁ = (s', false) := hs'
          simp only [← hs₁def, hs'']
          exact hp
        · have hlen : left.length < n := by
            have h₁ := hperm.length_eq
            have h₂ : (currentOf E r.checks).length ≤ unfinished.length := by
              rw [hrest, currentOf, List.length_map, List.length_map]
              exact List.length_filter_le ..
            simp only [Call.members, List.length_append, List.length_singleton] at h₁
            omega
          obtain ⟨T, hT, hturns⟩ := ih hlen (s'.wait E)
          refine ⟨_, ?_, hrest ▸ Turns.sends r.checks _ left rfl hperm d hturns⟩
          have hs'' : deliverAlone E seat held none s₁ = (s', true) := hs'
          simp only [← hs₁def, hs'']
          exact hp.wait.trans hT
      | inr digest =>
        have hdigest : digest.map Prod.fst = currentOf E r.checks :=
          (nextSend_digest hnext).trans halive
        rw [hrest]
        match digest, hdigest with
        | [], hdigest => exact ⟨_, hs₁, .done r.checks hdigest.symm⟩
        | [(held, entry)], hdigest => exact attempt_last hs₁ rfl hdigest
        | first :: second :: more, hdigest => exact attempt_last hs₁ rfl hdigest

/-! ### What the turns of a seat say -/

lemma count_checks (checks : List (HeldReminder × World ρ)) (a : HeldReminder) :
    (currentOf E checks).count a + (droppedOf E checks).count a =
      (checks.map Prod.fst).count a := by
  have h := (List.filter_append_perm (fun c => decide (IsCurrent E c.2 c.1)) checks).map Prod.fst
  rw [← h.count_eq a, List.map_append, List.count_append]
  simp [currentOf, droppedOf]

lemma mem_checks {checks : List (HeldReminder × World ρ)} {held : HeldReminder}
    (h : held ∈ checks.map Prod.fst) :
    held ∈ currentOf E checks ∨ held ∈ droppedOf E checks := by
  have hcount := count_checks (E := E) checks held
  have hpos := List.count_pos_iff.mpr h
  rcases Nat.eq_zero_or_pos ((currentOf E checks).count held) with h₀ | h₁
  · exact .inr (List.count_pos_iff.mp (by omega))
  · exact .inl (List.count_pos_iff.mp h₁)

lemma Turns.count_le {seat : String} {u : List HeldReminder} {T : List (Event ρ)}
    (h : Turns E seat u T) (a : HeldReminder) :
    (calledIn T).count a + (droppedIn E T).count a ≤ u.count a := by
  induction h with
  | nil => simp
  | stopped u => simp
  | lost checks rest =>
    have := count_checks (E := E) checks a
    simp only [calledIn_scan, calledIn_threw, calledIn_nil, droppedIn_scan, droppedIn_threw,
      droppedIn_nil, List.append_nil, List.count_append, List.count_nil]
    omega
  | done checks hd =>
    have := count_checks (E := E) checks a
    simp only [calledIn_scan, calledIn_nil, droppedIn_scan, droppedIn_nil, List.append_nil,
      List.count_nil]
    omega
  | fails checks c left hseat hperm =>
    have := count_checks (E := E) checks a
    have hc := hperm.count_eq a
    simp only [calledIn_scan, calledIn_call, calledIn_threw, calledIn_nil, droppedIn_scan,
      droppedIn_call, droppedIn_threw, droppedIn_nil, List.append_nil, List.count_append] at hc ⊢
    omega
  | sends checks c left hseat hperm d h ih =>
    have := count_checks (E := E) checks a
    have hc := hperm.count_eq a
    simp only [calledIn_scan, calledIn_call, calledIn_returned, calledIn_append,
      calledIn_recordEvents, droppedIn_scan, droppedIn_call, droppedIn_returned, droppedIn_append,
      droppedIn_recordEvents, List.nil_append, List.count_append] at hc ⊢
    omega

lemma Turns.left {seat : String} {u : List HeldReminder} {T : List (Event ρ)}
    (h : Turns E seat u T) (hstop : .stopped ∉ T) (hthrew : .threw ∉ T) {held : HeldReminder}
    (hmem : held ∈ u) : held ∈ calledIn T ∨ held ∈ droppedIn E T := by
  induction h with
  | nil => simp at hmem
  | stopped u => simp at hstop
  | lost checks rest => simp at hthrew
  | done checks hd =>
    rcases mem_checks (E := E) hmem with hc | hc
    · rw [hd] at hc
      simp at hc
    · exact .inr (by simpa using hc)
  | fails checks c left hseat hperm => simp at hthrew
  | sends checks c left hseat hperm d h ih =>
    simp only [calledIn_scan, calledIn_call, calledIn_returned, calledIn_append,
      calledIn_recordEvents, droppedIn_scan, droppedIn_call, droppedIn_returned, droppedIn_append,
      droppedIn_recordEvents, List.nil_append, List.mem_append]
    rcases mem_checks (E := E) hmem with hc | hc
    · rcases List.mem_append.mp (hperm.mem_iff.mpr hc) with hc | hc
      · exact .inl (.inl hc)
      · have hrest := ih (fun h => hstop (by simp [h])) (fun h => hthrew (by simp [h])) hc
        exact hrest.imp .inr .inr
    · exact .inr (.inl hc)

lemma Turns.records {seat : String} {u : List HeldReminder} {T : List (Event ρ)}
    (h : Turns E seat u T) :
    T.filterMap recordOf = (T.filterMap returnOf).flatMap fun r => accounted r.1 r.2 := by
  induction h with
  | nil | stopped | lost | done | fails => rfl
  | sends checks c left hseat hperm d h ih =>
    rw [List.filterMap_cons_none rfl, List.filterMap_cons_none rfl, List.filterMap_cons_none rfl,
      List.filterMap_append, recordOf_recordEvents, ih, List.filterMap_cons_none rfl,
      List.filterMap_cons_none rfl, List.filterMap_cons_some (f := returnOf) (b := (c, d)) rfl,
      List.filterMap_append, returnOf_recordEvents, List.nil_append, List.flatMap_cons]

/-! ### When a call is built -/

/-- A property of every call of a trace and what came before it. -/
def Calls (P : List (Event ρ) → Call → Prop) (T : List (Event ρ)) : Prop :=
  ∀ before c after, T = before ++ .call c :: after → P before c

/-- A call is built from the turn just before it. Its members are current in that turn, which
checks every reminder of the seat that is in no earlier call and was not dropped. -/
def Built (E : Env ρ) (held : List HeldReminder) (before : List (Event ρ)) (c : Call) : Prop :=
  ∃ earlier checks, before = earlier ++ [.scan checks] ∧
    (∀ h ∈ c.members, h ∈ currentOf E checks) ∧
    ∀ h ∈ held, h.targetSession = c.seat →
      h ∈ checks.map Prod.fst ∨ h ∈ calledIn earlier ∨ h ∈ droppedIn E earlier

lemma calls_nil {P : List (Event ρ) → Call → Prop} : Calls P [] := by
  intro before c after h
  simp at h

lemma calls_cons {P : List (Event ρ) → Call → Prop} {e : Event ρ} {T : List (Event ρ)}
    (he : ∀ c, e = .call c → P [] c) (hT : Calls (fun before => P (e :: before)) T) :
    Calls P (e :: T) := by
  intro before c after h
  cases before with
  | nil =>
    obtain ⟨rfl, -⟩ := List.cons.inj h
    exact he c rfl
  | cons e' before =>
    obtain ⟨rfl, htail⟩ := List.cons.inj h
    exact hT before c after htail

lemma calls_append {P : List (Event ρ) → Call → Prop} {T T' : List (Event ρ)}
    (hT : Calls P T) (hT' : Calls (fun before => P (T ++ before)) T') : Calls P (T ++ T') := by
  induction T generalizing P with
  | nil => exact hT'
  | cons e T ih =>
    refine calls_cons (fun c he => hT [] c T (by rw [he]; rfl)) (ih ?_ hT')
    intro before c after h
    exact hT (e :: before) c after (by rw [h]; rfl)

lemma calls_recordEvents {P : List (Event ρ) → Call → Prop} (c : Call) (d : DeliveryOutcome) :
    Calls P (recordEvents c d) := by
  intro before c' after h
  have hmem : Event.call c' ∈ (recordEvents c d : List (Event ρ)) := by simp [h]
  simp [recordEvents] at hmem

lemma Turns.calls {seat : String} {u : List HeldReminder} {T : List (Event ρ)}
    (h : Turns E seat u T) {held : List HeldReminder} (prior : List (Event ρ))
    (hprior : ∀ h ∈ held, h.targetSession = seat →
      h ∈ u ∨ h ∈ calledIn prior ∨ h ∈ droppedIn E prior) :
    Calls (fun before => Built E held (prior ++ before)) T := by
  have built : ∀ {checks : List (HeldReminder × World ρ)} {c : Call} {left : List HeldReminder}
      {prior : List (Event ρ)},
      c.seat = seat → (c.members ++ left).Perm (currentOf E checks) →
      (∀ h ∈ held, h.targetSession = seat → h ∈ checks.map Prod.fst ∨ h ∈ calledIn prior ∨
        h ∈ droppedIn E prior) → Built E held (prior ++ [.scan checks]) c := by
    rintro checks c left prior rfl hperm hprior
    exact ⟨prior, checks, rfl, fun h hm => hperm.subset (List.mem_append_left _ hm), hprior⟩
  induction h generalizing prior with
  | nil => exact calls_nil
  | stopped => exact calls_cons (by simp) calls_nil
  | lost => exact calls_cons (by simp) (calls_cons (by simp) calls_nil)
  | done => exact calls_cons (by simp) calls_nil
  | fails checks c left hseat hperm =>
    refine calls_cons (by simp) (calls_cons ?_ (calls_cons (by simp) calls_nil))
    rintro _ ⟨⟩
    exact built hseat hperm hprior
  | sends checks c left hseat hperm d h ih =>
    refine calls_cons (by simp) (calls_cons ?_ (calls_cons (by simp)
      (calls_append (calls_recordEvents c d) ?_)))
    · rintro _ ⟨⟩
      exact built hseat hperm hprior
    · have hnext := ih (prior ++ (.scan checks :: .call c :: .returned c d ::
        recordEvents c d)) ?_
      · simpa using hnext
      · intro x hx hxseat
        simp only [calledIn_append, droppedIn_append, calledIn_scan, calledIn_call,
          calledIn_returned, calledIn_recordEvents, droppedIn_scan, droppedIn_call,
          droppedIn_returned, droppedIn_recordEvents, List.append_nil, List.mem_append]
        rcases hprior x hx hxseat with hm | hm | hm
        · rcases mem_checks (E := E) hm with hm | hm
          · rcases List.mem_append.mp (hperm.mem_iff.mpr hm) with hm | hm
            · exact .inr (.inl (.inr hm))
            · exact .inl hm
          · exact .inr (.inr (.inr hm))
        · exact .inr (.inl (.inl hm))
        · exact .inr (.inr (.inl hm))

/-! ### The seats of a pass -/

/-- The seats in turn are the held reminders, each seat's together. -/
structure Grouped (groups : List (String × List HeldReminder)) (held : List HeldReminder) :
    Prop where
  nodup : (groups.map Prod.fst).Nodup
  seat : ∀ p ∈ groups, ∀ h ∈ p.2, h.targetSession = p.1
  perm : (groups.flatMap Prod.snd).Perm held

lemma mem_hold {groups : List (String × List HeldReminder)} {held : HeldReminder} {seat : String} :
    seat ∈ (hold groups held).map Prod.fst ↔
      seat ∈ groups.map Prod.fst ∨ seat = held.targetSession := by
  induction groups with
  | nil => simp [hold]
  | cons p groups ih =>
    obtain ⟨first, group⟩ := p
    by_cases h : first = held.targetSession
    · simp only [hold, h, if_true, List.map_cons, List.mem_cons]
      tauto
    · simp only [hold, h, if_false, List.map_cons, List.mem_cons, ih]
      tauto

lemma Grouped.hold {groups : List (String × List HeldReminder)} {held : List HeldReminder}
    (hg : Grouped groups held) (h : HeldReminder) :
    Grouped (hold groups h) (held ++ [h]) := by
  induction groups generalizing held with
  | nil =>
    obtain rfl : held = [] := by simpa using hg.perm.symm
    exact ⟨by simp [HeldReminders.hold], by simp [HeldReminders.hold], .refl _⟩
  | cons p groups ih =>
    obtain ⟨seat, group⟩ := p
    have hnodup := List.nodup_cons.mp hg.nodup
    by_cases hseat : seat = h.targetSession
    · subst hseat
      have hhold : HeldReminders.hold ((h.targetSession, group) :: groups) h =
          (h.targetSession, group ++ [h]) :: groups := by simp [HeldReminders.hold]
      rw [hhold]
      refine ⟨hg.nodup, ?_, ?_⟩
      · intro p hp x hx
        rcases List.mem_cons.mp hp with rfl | hp
        · rcases List.mem_append.mp hx with hx | hx
          · exact hg.seat _ List.mem_cons_self x hx
          · rw [List.mem_singleton.mp hx]
        · exact hg.seat p (List.mem_cons_of_mem _ hp) x hx
      · refine .trans ?_ (hg.perm.append_right [h])
        simp only [List.flatMap_cons, List.append_assoc]
        exact List.perm_append_comm.append_left group
    · have hhold : HeldReminders.hold ((seat, group) :: groups) h =
          (seat, group) :: HeldReminders.hold groups h := by simp [HeldReminders.hold, hseat]
      have hrest : Grouped groups (groups.flatMap Prod.snd) :=
        ⟨hnodup.2, fun p hp => hg.seat p (List.mem_cons_of_mem _ hp), .refl _⟩
      have hnext := ih hrest
      rw [hhold]
      refine ⟨?_, ?_, ?_⟩
      · refine List.nodup_cons.mpr ⟨fun hm => ?_, hnext.nodup⟩
        exact (mem_hold.mp hm).elim hnodup.1 hseat
      · intro p hp x hx
        rcases List.mem_cons.mp hp with rfl | hp
        · exact hg.seat _ List.mem_cons_self x hx
        · exact hnext.seat p hp x hx
      · refine .trans ?_ (hg.perm.append_right [h])
        simp only [List.flatMap_cons, List.append_assoc]
        exact hnext.perm.append_left group

lemma grouped_foldl (held : List HeldReminder) : Grouped (held.foldl hold []) held := by
  induction held using List.reverseRecOn with
  | nil => exact ⟨.nil, by simp, .refl _⟩
  | append_singleton held h ih =>
    rw [List.foldl_append]
    exact ih.hold h

theorem deliverSeats_spec (groups : List (String × List HeldReminder)) (s : State ρ) :
    ∃ T, Piece E s (deliverSeats E groups s) T ∧ Seats E groups T := by
  induction groups generalizing s with
  | nil => exact ⟨[], .refl s, .nil⟩
  | cons p groups ih =>
    obtain ⟨seat, group⟩ := p
    unfold deliverSeats
    split
    · exact ⟨[.stopped], .emit s _, .stopped _⟩
    · obtain ⟨T, hT, hturns⟩ := turns_spec (E := E) seat (Nat.lt_succ_self group.length) s
      obtain ⟨T', hT', hseats⟩ := ih ((deliverHeldGroup E seat group s).wait E)
      exact ⟨T ++ T', hT.wait.trans hT', .seat hturns hseats⟩

lemma Seats.count_le {groups : List (String × List HeldReminder)} {T : List (Event ρ)}
    (h : Seats E groups T) (a : HeldReminder) :
    (calledIn T).count a + (droppedIn E T).count a ≤ (groups.flatMap Prod.snd).count a := by
  induction h with
  | nil => simp
  | stopped => simp
  | seat h h' ih =>
    have := h.count_le a
    simp only [calledIn_append, droppedIn_append, List.flatMap_cons, List.count_append]
    omega

lemma Seats.left {groups : List (String × List HeldReminder)} {T : List (Event ρ)}
    (h : Seats E groups T) (hstop : .stopped ∉ T) (hthrew : .threw ∉ T) {held : HeldReminder}
    (hmem : held ∈ groups.flatMap Prod.snd) : held ∈ calledIn T ∨ held ∈ droppedIn E T := by
  induction h with
  | nil => simp at hmem
  | stopped => simp at hstop
  | seat h h' ih =>
    rw [List.mem_append, not_or] at hstop hthrew
    rw [calledIn_append, droppedIn_append, List.mem_append, List.mem_append]
    rcases List.mem_append.mp hmem with hm | hm
    · exact (h.left hstop.1 hthrew.1 hm).imp .inl .inl
    · exact (ih hstop.2 hthrew.2 hm).imp .inr .inr

lemma Seats.records {groups : List (String × List HeldReminder)} {T : List (Event ρ)}
    (h : Seats E groups T) :
    T.filterMap recordOf = (T.filterMap returnOf).flatMap fun r => accounted r.1 r.2 := by
  induction h with
  | nil | stopped => rfl
  | seat h h' ih =>
    rw [List.filterMap_append, List.filterMap_append, List.flatMap_append, h.records, ih]

lemma Built.append {held : List HeldReminder} {prior before : List (Event ρ)} {c : Call}
    (h : Built E held before c) : Built E held (prior ++ before) c := by
  obtain ⟨earlier, checks, rfl, hcurrent, hall⟩ := h
  refine ⟨prior ++ earlier, checks, by simp, hcurrent, fun x hx hseat => ?_⟩
  rw [calledIn_append, droppedIn_append]
  rcases hall x hx hseat with hm | hm | hm
  · exact .inl hm
  · exact .inr (.inl (List.mem_append_right _ hm))
  · exact .inr (.inr (List.mem_append_right _ hm))

lemma Seats.calls {groups : List (String × List HeldReminder)} {T : List (Event ρ)}
    (h : Seats E groups T) {held : List HeldReminder}
    (hheld : ∀ p ∈ groups, ∀ x ∈ held, x.targetSession = p.1 → x ∈ p.2) :
    Calls (Built E held) T := by
  induction h with
  | nil => exact calls_nil
  | stopped => exact calls_cons (by simp) calls_nil
  | seat h h' ih =>
    refine calls_append ?_ fun before c after hT => ?_
    · exact h.calls [] fun x hx hseat =>
        .inl (hheld _ List.mem_cons_self x hx hseat)
    · exact (ih (fun p hp => hheld p (List.mem_cons_of_mem _ hp)) before c after hT).append

lemma Grouped.mem {groups : List (String × List HeldReminder)} {held : List HeldReminder}
    (hg : Grouped groups held) {p : String × List HeldReminder} (hp : p ∈ groups)
    {x : HeldReminder} (hx : x ∈ held) (hseat : x.targetSession = p.1) : x ∈ p.2 := by
  obtain ⟨q, hq, hxq⟩ := List.mem_flatMap.mp (hg.perm.mem_iff.mpr hx)
  obtain rfl : q = p := List.inj_on_of_nodup_map hg.nodup hq hp
    ((hg.seat q hq x hxq).symm.trans hseat)
  exact hxq

/-! ### Holding and sending -/

/-- The jobs that a trace calls for, and those that are held. -/
def jobIds (T : List (Event ρ)) (held : List HeldReminder) : List String :=
  (calledIn T ++ held).map (·.jobId)

lemma evaluate_spec (jobId : String) (s : State ρ) :
    ∃ T, (evaluate E jobId s).1.trace = s.trace ++ T ∧
      (jobIds T (evaluate E jobId s).2).Sublist [jobId] := by
  have quiet : ∀ s' : State ρ, s'.trace = s.trace →
      ∃ T, s'.trace = s.trace ++ T ∧ (jobIds T []).Sublist [jobId] := fun s' h =>
    ⟨[], by simp [h], by simp [jobIds]⟩
  unfold evaluate
  split
  · exact quiet _ rfl
  · next w send hdecide =>
    dsimp only
    split
    · exact quiet _ rfl
    set held : HeldReminder := { send with jobId := jobId }
    split
    · next o hrecovered =>
      split
      · exact ⟨[.threw], rfl, by simp [jobIds]⟩
      · refine ⟨[.recorded held o (attemptRow held o), .recovered held o], ?_,
          by simp [jobIds, calledIn, callOf]⟩
        rw [emit_trace, recordAttempt_trace, List.append_assoc]
        rfl
    split
    · exact ⟨[], by simp, .refl _⟩
    · rw [deliverAlone]
      obtain ⟨s', hs', htrace, _⟩ | ⟨s', d, hs', htrace, _⟩ := attempt_spec (E := E)
        (.alone held.targetSession held none)
        { s with world := w, turn := s.turn + 1 }
      · rw [hs']
        rcases htrace with htrace | htrace
        · exact ⟨_, htrace, by simp [jobIds]⟩
        · exact ⟨_, htrace, by simp [jobIds, Call.members, held]⟩
      · rw [hs']
        exact ⟨_, htrace, by simp [jobIds, Call.members, held]⟩

lemma jobIds_append (T T' : List (Event ρ)) (held held' : List HeldReminder) :
    (jobIds (T ++ T') (held ++ held')).Perm (jobIds T held ++ jobIds T' held') := by
  unfold jobIds
  rw [← List.map_append, calledIn_append]
  refine .map _ ?_
  simp only [List.append_assoc]
  refine .append_left _ ?_
  simp only [← List.append_assoc]
  exact List.perm_append_comm.append_right held'

lemma collect_spec (active : List String) (s : State ρ) :
    ∃ T, (collect E active s).1.trace = s.trace ++ T ∧
      (jobIds T (collect E active s).2.1).Subperm active := by
  induction active generalizing s with
  | nil => exact ⟨[], by simp [collect], by simp [jobIds, collect]⟩
  | cons jobId active ih =>
    unfold collect
    split
    · exact ⟨[], by simp, by simp [jobIds]⟩
    · obtain ⟨T, hT, hsub⟩ := evaluate_spec (E := E) jobId s
      obtain ⟨T', hT', hsub'⟩ := ih ((evaluate E jobId s).1.wait E)
      refine ⟨T ++ T', ?_, ?_⟩
      · rw [← List.append_assoc, ← hT, ← wait_trace (E := E)]
        exact hT'
      · exact (jobIds_append ..).subperm.trans (hsub.subperm.append hsub')

lemma nodup_of_subperm {α : Type} {l l' : List α} (h : l.Subperm l') (hn : l'.Nodup) : l.Nodup := by
  obtain ⟨m, hperm, hsub⟩ := h
  exact hperm.nodup_iff.mp (hsub.nodup hn)

/-- Every call gets this reply. -/
def replying (reply : DeliveryOutcome) : Env Unit where
  resolveDigestEntry _ jobId _ := some { qitemId := jobId }
  resolvePreDeliveryTerminalReason _ _ := none
  reconcile _ _ := none
  decide _ jobId w := (w, some {
    jobId := jobId
    targetSession := "dev@rig"
    message := "resume"
    evaluatedAt := "10:00"
    occurrenceId := jobId })
  deliver _ _ w := (w, some reply)
  others _ w := w
  onWakeAttempt _ _ w := w

def parked : State Unit where
  world := {
    repo := {
      jobs := fun id =>
        if id ∈ ["w1", "w2"] then some { specYaml := "wake", intervalSeconds := 900 } else none }
    rows := () }

end OpenRig.HeldReminders
