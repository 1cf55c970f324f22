import OpenRig.Runs
import Mathlib.Data.List.Nodup

/-!
The outbound driver: sweeps that offer the human alerts, and the dispatch buffer that holds each
offer until its delivery is acked.

A dispatch enqueues and starts a delivery without awaiting. A delivery marks its key seen and
releases it at any of its awaits, or before the first; the ack comes after it has returned.
-/

namespace OpenRig.OutboundDriver

open OpenRig.Runs

/-- What the sweep reads of an active human alert. -/
structure QueueItem where
  qitemId : String
  notificationKey : Option String := none
  deriving DecidableEq

def notificationKey (q : QueueItem) : String := q.notificationKey.getD q.qitemId

/-- The alerts of one listing: one for each notification, none without a name. -/
structure HumanAlerts where
  items : List QueueItem
  distinct : (items.map notificationKey).Nodup
  named : ∀ q ∈ items, notificationKey q ≠ ""

structure OutboundPostPayload where
  qitemId : String
  notificationKey : Option String := none
  deriving DecidableEq

def toPayload (q : QueueItem) : OutboundPostPayload :=
  { qitemId := q.qitemId, notificationKey := q.notificationKey }

/-- A `post_message` decision of the driver. -/
structure OutboundDecision where
  decisionId : ℕ
  payload : OutboundPostPayload
  deriving DecidableEq

def OutboundDecision.key (d : OutboundDecision) : String :=
  d.payload.notificationKey.getD d.payload.qitemId

/-- A delivery under way, and whether it has released its key. -/
structure Delivery where
  decision : OutboundDecision
  released : Bool := false
  deriving DecidableEq

def Delivery.key (v : Delivery) : String := v.decision.key

inductive Sweep where
  | none
  /-- The alert list is awaited. -/
  | listing
  /-- The fresh alerts still to dispatch. -/
  | dispatching (todo : List QueueItem)
  deriving DecidableEq

inductive Phase where
  | down | replaying | live
  deriving DecidableEq

/-- The daemon. `buffer` and `seen` are files; ids count the decisions minted. `unread` records the
keys that a failed read of the buffer has left in flight since the daemon began. -/
structure Daemon where
  buffer : List OutboundDecision := []
  minted : ℕ := 0
  seen : List String := []
  inflight : List String := []
  deliveries : List Delivery := []
  sweep : Sweep := .none
  phase : Phase := .down
  unread : List String := []
  deriving DecidableEq

/-- How a dispatch ends. Each flag tells whether a read of the buffer succeeds: that of the
enqueue, and that of the check after a throw. -/
inductive DispatchOutcome where
  | refused
  | threwBefore (checkReads : Bool)
  | threwAfter (enqueueReads checkReads : Bool)
  | accepted (enqueueReads : Bool)
  deriving DecidableEq

/-- The read of the enqueue a dispatch comes to, if it does. -/
def DispatchOutcome.enqueues : DispatchOutcome → Option Bool
  | .refused => none
  | .threwBefore _ => none
  | .threwAfter readable _ => some readable
  | .accepted readable => some readable

/-- Whether a dispatch begins a delivery. -/
def DispatchOutcome.sends : DispatchOutcome → Bool
  | .accepted _ => true
  | _ => false

inductive DeliveryOutcome where
  | failed
  | ok (ackReads : Bool)
  deriving DecidableEq

namespace Daemon

/-! ### The dispatch buffer -/

/-- `readState`, which fails closed to empty. -/
def readState (s : Daemon) (readable : Bool) : List OutboundDecision :=
  if readable then s.buffer else []

/-- `enqueue` of a decision with a new id. -/
def enqueue (s : Daemon) (payload : OutboundPostPayload) (readable : Bool) : Daemon :=
  let d : OutboundDecision := { decisionId := s.minted, payload }
  let pending := s.readState readable
  { s with
    minted := s.minted + 1
    buffer := if pending.any fun p => p.decisionId = d.decisionId then s.buffer else pending ++ [d]
    unread := if readable then s.unread else s.unread ++ s.buffer.map (·.key) }

def ack (s : Daemon) (decisionId : ℕ) (readable : Bool) : Daemon :=
  let pending := s.readState readable
  let next := pending.filter fun d => d.decisionId ≠ decisionId
  if next.length ≠ pending.length then { s with buffer := next } else s

/-- `send`: the delivery begins. -/
def send (s : Daemon) (d : OutboundDecision) : Daemon :=
  { s with deliveries := s.deliveries ++ [{ decision := d }] }

/-! ### The driver -/

def release (s : Daemon) (key : String) : Daemon :=
  { s with inflight := s.inflight.filter fun k => k ≠ key }

/-- `pendingInBuffer`: a buffer that cannot be read counts as pending. -/
def pendingInBuffer (s : Daemon) (key : String) (readable : Bool) : Bool :=
  if readable then s.buffer.any fun d => d.key = key else true

/-- The seeding of `start`. -/
def start (s : Daemon) (readable : Bool) : Daemon :=
  let keys := ((s.readState readable).map (·.key)).filter fun k => k ≠ ""
  { s with inflight := s.inflight ++ keys, phase := .live }

def fresh (s : Daemon) (alerts : HumanAlerts) : List QueueItem :=
  alerts.items.filter fun q => notificationKey q ∉ s.seen ∧ notificationKey q ∉ s.inflight

/-- The body of the sweep's loop for one alert. -/
def offer (s : Daemon) (alert : QueueItem) : DispatchOutcome → Daemon
  | .refused => ({ s with inflight := s.inflight ++ [notificationKey alert] } : Daemon).release
      (notificationKey alert)
  | .threwBefore checkReads =>
    let key := notificationKey alert
    let s := { s with inflight := s.inflight ++ [key] }
    if !s.pendingInBuffer key checkReads then s.release key
    else { s with unread := if checkReads then s.unread else s.unread ++ [key] }
  | .threwAfter enqueueReads checkReads =>
    let key := notificationKey alert
    let s := ({ s with inflight := s.inflight ++ [key] } : Daemon).enqueue (toPayload alert)
      enqueueReads
    if !s.pendingInBuffer key checkReads then s.release key else s
  | .accepted enqueueReads =>
    let s := { s with inflight := s.inflight ++ [notificationKey alert] }
    (s.enqueue (toPayload alert) enqueueReads).send
      { decisionId := s.minted, payload := toPayload alert }

/-! ### Deliveries -/

/-- The delivery of a decision is under way. -/
def delivering (s : Daemon) (decisionId : ℕ) : Bool :=
  s.deliveries.any fun v => v.decision.decisionId = decisionId

/-- `releaseRef` by a delivery, with the notification key of its decision. -/
def releaseRef (s : Daemon) (decisionId : ℕ) : Daemon :=
  let keys := (s.deliveries.filter fun v => v.decision.decisionId = decisionId).map (·.key)
  { s with
    inflight := s.inflight.filter fun k => k ∉ keys
    deliveries := s.deliveries.map fun v =>
      if v.decision.decisionId = decisionId then { v with released := true } else v }

/-- A delivery's end. -/
def settle (s : Daemon) (decisionId : ℕ) (outcome : DeliveryOutcome) : Daemon :=
  let s := { s with
    deliveries := s.deliveries.filter fun v => v.decision.decisionId ≠ decisionId }
  match outcome with
  | .failed => s
  | .ok ackReads => s.ack decisionId ackReads

/-- A delivery that has released a key nothing has marked seen: it returns ok with no further
await. -/
def returning (s : Daemon) (v : Delivery) : Bool := v.released ∧ v.key ∉ s.seen

end Daemon

/-- What happens next. A flag tells whether the step's read of the buffer succeeds. -/
inductive Label where
  | restart
  | replayPending (readable : Bool)
  | start (readable : Bool)
  | sweepOnce
  | alerts (alerts : HumanAlerts)
  | alertsThrow
  | dispatch (outcome : DispatchOutcome)
  | sweepEnd
  | release (decisionId : ℕ)
  | mark (key : String)
  | delivered (decisionId : ℕ) (outcome : DeliveryOutcome)

/-- One step, if it can be taken. The services replay before the driver starts, with no await
between. No delivery returns while a sweep dispatches, and one that is about to return does so
before a sweep reads its alerts. -/
def step (s : Daemon) : Label → Option Daemon
  | .restart => some
      { s with inflight := [], deliveries := [], sweep := .none, phase := .down, unread := [] }
  | .replayPending readable =>
    if s.phase = .down then
      some { s with
        deliveries := (s.readState readable).map fun d => { decision := d }
        phase := .replaying }
    else none
  | .start readable => if s.phase = .replaying then some (s.start readable) else none
  | .sweepOnce =>
    if s.phase = .live ∧ s.sweep = .none then some { s with sweep := .listing } else none
  | .alerts alerts =>
    if s.sweep = .listing ∧ ¬ s.deliveries.any s.returning then
      some { s with sweep := .dispatching (s.fresh alerts) }
    else none
  | .alertsThrow => if s.sweep = .listing then some { s with sweep := .none } else none
  | .dispatch outcome =>
    match s.sweep with
    | .dispatching (alert :: rest) =>
      some ({ s with sweep := .dispatching rest }.offer alert outcome)
    | _ => none
  | .sweepEnd =>
    if s.sweep = .dispatching [] then some { s with sweep := .none } else none
  | .release decisionId =>
    if s.delivering decisionId then some (s.releaseRef decisionId) else none
  | .mark key => some { s with seen := s.seen ++ [key] }
  | .delivered decisionId outcome =>
    match s.sweep with
    | .dispatching _ => none
    | _ =>
      if s.phase = .live ∧ s.delivering decisionId ∧ (outcome = .failed →
          ¬ s.deliveries.any fun v => v.decision.decisionId = decisionId ∧ s.returning v) then
        some (s.settle decisionId outcome)
      else none

namespace Daemon

/-! ### What the operations do -/

/-- The decisions that are pending or under delivery. -/
def decisions (s : Daemon) : List OutboundDecision := s.buffer ++ s.deliveries.map (·.decision)

@[simp] lemma mem_decisions {s : Daemon} {d : OutboundDecision} :
    d ∈ s.decisions ↔ d ∈ s.buffer ∨ ∃ v ∈ s.deliveries, v.decision = d := by
  simp [decisions]

def pending (s : Daemon) (key : String) : List OutboundDecision :=
  s.buffer.filter fun d => d.key = key

@[simp] lemma mem_pending {s : Daemon} {key : String} {d : OutboundDecision} :
    d ∈ s.pending key ↔ d ∈ s.buffer ∧ d.key = key := by
  simp [pending]

/-- Ids tell decisions apart, and the next one is new. -/
structure Ids (s : Daemon) : Prop where
  minted : ∀ d ∈ s.decisions, d.decisionId < s.minted
  unique : ∀ d ∈ s.decisions, ∀ e ∈ s.decisions, d.decisionId = e.decisionId → d = e

@[simp] lemma toPayload_key (q : QueueItem) (n : ℕ) :
    OutboundDecision.key { decisionId := n, payload := toPayload q } = notificationKey q := rfl

/-- The decision an offer mints. -/
def next (s : Daemon) (alert : QueueItem) : OutboundDecision :=
  { decisionId := s.minted, payload := toPayload alert }

@[simp] lemma next_key (s : Daemon) (alert : QueueItem) :
    (s.next alert).key = notificationKey alert :=
  rfl

lemma readState_sub (s : Daemon) (readable : Bool) : ∀ d ∈ s.readState readable, d ∈ s.buffer := by
  cases readable <;> simp [readState]

lemma Ids.enqueue {s : Daemon} (h : s.Ids) (alert : QueueItem) (readable : Bool) :
    s.enqueue (toPayload alert) readable =
      { s with
        minted := s.minted + 1
        buffer := s.readState readable ++ [s.next alert]
        unread := if readable then s.unread else s.unread ++ s.buffer.map (·.key) } := by
  have hnew : ((s.readState readable).any fun p => p.decisionId = s.minted) = false := by
    simp only [List.any_eq_false, decide_eq_true_eq]
    intro d hd
    have := h.minted d (by simp [s.readState_sub readable d hd])
    omega
  simp only [Daemon.enqueue, hnew]
  rfl

lemma ack_eq (s : Daemon) (decisionId : ℕ) (readable : Bool) :
    s.ack decisionId readable =
      { s with
        buffer := if readable then s.buffer.filter fun d => d.decisionId ≠ decisionId
          else s.buffer } := by
  cases readable with
  | false => simp [ack, readState]
  | true =>
    simp only [ack, readState, if_true]
    split
    · rfl
    · rename_i h
      simp only [ne_eq, not_not] at h
      rw [List.filter_eq_self.mpr (List.length_filter_eq_length_iff.mp h)]

/-- **An offer**: what one dispatch does, by how it ends. -/
structure Offered (s : Daemon) (alert : QueueItem) (outcome : DispatchOutcome) (t : Daemon) :
    Prop where
  seen : t.seen = s.seen
  sweep : t.sweep = s.sweep
  phase : t.phase = s.phase
  others : ∀ k ≠ notificationKey alert, k ∈ t.inflight ↔ k ∈ s.inflight
  buffer : t.buffer =
    outcome.enqueues.elim s.buffer fun readable => s.readState readable ++ [s.next alert]
  deliveries : t.deliveries =
    s.deliveries ++ if outcome.sends then [{ decision := s.next alert }] else []
  minted : t.minted = s.minted + if outcome.enqueues.isSome then 1 else 0
  unread : ∀ k ∈ s.unread, k ∈ t.unread
  /-- What a failed read drops stays in flight. -/
  dropped : ∀ d ∈ s.buffer, d ∉ t.buffer → d.key ∈ t.unread
  /-- The offered key is in flight when a decision was minted, or the check could not tell. -/
  inflight : s.next alert ∈ t.buffer → notificationKey alert ∈ t.inflight
  standing : notificationKey alert ∈ t.inflight →
    s.next alert ∈ t.buffer ∨ notificationKey alert ∈ t.unread ∨
      ∃ d ∈ s.buffer, d.key = notificationKey alert

lemma Ids.offer {s : Daemon} (h : s.Ids) (alert : QueueItem) (outcome : DispatchOutcome) :
    s.Offered alert outcome (s.offer alert outcome) := by
  have hnew : s.next alert ∉ s.buffer := fun hd => by
    have := h.minted (s.next alert) (by simp [hd])
    simp [next] at this
  have hids : Ids { s with inflight := s.inflight ++ [notificationKey alert] } :=
    ⟨h.minted, h.unique⟩
  cases outcome with
  | refused =>
    refine ⟨rfl, rfl, rfl, ?_, rfl,
      by simp [Daemon.offer, release, DispatchOutcome.sends], rfl, fun k hk => hk, ?_, ?_, ?_⟩
    · intro k hk
      simp [Daemon.offer, release, hk]
    · exact fun d hd hn => absurd hd hn
    · exact fun hd => absurd hd hnew
    · intro hk
      simp [Daemon.offer, release] at hk
  | threwBefore readable =>
    simp only [Daemon.offer]
    split
    · refine ⟨rfl, rfl, rfl, ?_, rfl,
        by simp [release, DispatchOutcome.sends], rfl, fun k hk => hk, ?_, ?_, ?_⟩
      · intro k hk
        simp [release, hk]
      · exact fun d hd hn => absurd hd hn
      · exact fun hd => absurd hd hnew
      · intro hk
        simp [release] at hk
    · rename_i hp
      refine ⟨rfl, rfl, rfl, ?_, rfl, by simp [DispatchOutcome.sends], rfl, ?_, ?_, ?_, ?_⟩
      · intro k hk
        simp [hk]
      · intro k hk
        cases readable <;> simp [hk]
      · exact fun d hd hn => absurd hd hn
      · exact fun hd => absurd hd hnew
      · intro _
        cases readable with
        | false => simp
        | true =>
          simp only [pendingInBuffer, if_true, Bool.not_eq_true', Bool.not_eq_false,
            List.any_eq_true, decide_eq_true_eq] at hp
          exact .inr (.inr hp)
  | threwAfter readable checkReads =>
    have hp : ({ s with inflight := s.inflight ++ [notificationKey alert] }.enqueue
        (toPayload alert) readable).pendingInBuffer (notificationKey alert) checkReads = true := by
      rw [hids.enqueue]
      cases checkReads <;> simp [pendingInBuffer, next]
    simp only [Daemon.offer, hp, Bool.not_true, Bool.false_eq_true, if_false]
    rw [hids.enqueue]
    refine ⟨rfl, rfl, rfl, ?_, rfl, by simp [DispatchOutcome.sends], rfl, ?_, ?_, ?_, ?_⟩
    · intro k hk
      simp [hk]
    · intro k hk
      cases readable <;> simp [hk]
    · intro d hd hn
      cases readable with
      | false => simpa using .inr ⟨d, hd, rfl⟩
      | true => simp [readState, hd] at hn
    · simp
    · simp [next]
  | accepted readable =>
    simp only [Daemon.offer, send]
    rw [hids.enqueue]
    refine ⟨rfl, rfl, rfl, ?_, rfl, by simp [DispatchOutcome.sends, next], rfl, ?_, ?_, ?_, ?_⟩
    · intro k hk
      simp [hk]
    · intro k hk
      cases readable <;> simp [hk]
    · intro d hd hn
      cases readable with
      | false => simpa using .inr ⟨d, hd, rfl⟩
      | true => simp [readState, hd] at hn
    · simp
    · simp [next]

lemma Offered.minted_le {s t : Daemon} {alert : QueueItem} {outcome : DispatchOutcome}
    (h : s.Offered alert outcome t) : s.minted ≤ t.minted := by
  rw [h.minted]
  omega

lemma Offered.delivery {s t : Daemon} {alert : QueueItem} {outcome : DispatchOutcome}
    (h : s.Offered alert outcome t) {v : Delivery} (hv : v ∈ t.deliveries) :
    v ∈ s.deliveries ∨ v = { decision := s.next alert } ∧ outcome.sends = true := by
  rw [h.deliveries] at hv
  cases hs : outcome.sends <;> simpa [hs] using hv

lemma Offered.keeps {s t : Daemon} {alert : QueueItem} {outcome : DispatchOutcome}
    (h : s.Offered alert outcome t) {v : Delivery} (hv : v ∈ s.deliveries) : v ∈ t.deliveries := by
  rw [h.deliveries]
  exact List.mem_append_left _ hv

lemma Offered.pendingNow {s t : Daemon} {alert : QueueItem} {outcome : DispatchOutcome}
    (h : s.Offered alert outcome t) {d : OutboundDecision} (hd : d ∈ t.buffer) :
    d ∈ s.buffer ∨ d = s.next alert ∧ outcome.enqueues.isSome = true := by
  rw [h.buffer] at hd
  cases he : outcome.enqueues with
  | none => exact .inl (by simpa [he] using hd)
  | some readable =>
    simp only [he, Option.elim_some, List.mem_append, List.mem_singleton] at hd
    exact hd.imp (s.readState_sub readable d) fun h => ⟨h, rfl⟩

lemma Offered.decisions {s t : Daemon} {alert : QueueItem} {outcome : DispatchOutcome}
    (h : s.Offered alert outcome t) {d : OutboundDecision} (hd : d ∈ t.decisions) :
    d ∈ s.decisions ∨ d = s.next alert ∧ t.minted = s.minted + 1 ∧ s.next alert ∈ t.buffer := by
  have hminted : outcome.enqueues.isSome = true →
      t.minted = s.minted + 1 ∧ s.next alert ∈ t.buffer := by
    intro he
    obtain ⟨readable, he⟩ := Option.isSome_iff_exists.mp he
    simp [h.minted, h.buffer, he]
  rcases mem_decisions.mp hd with hd | ⟨v, hv, rfl⟩
  · exact (h.pendingNow hd).imp (fun hd => mem_decisions.mpr (.inl hd))
      fun ⟨hd, he⟩ => ⟨hd, hminted he⟩
  · rcases h.delivery hv with hv | ⟨rfl, hs⟩
    · exact .inl (mem_decisions.mpr (.inr ⟨v, hv, rfl⟩))
    · refine .inr ⟨rfl, hminted ?_⟩
      cases outcome <;> simp_all [DispatchOutcome.sends, DispatchOutcome.enqueues]

/-! ### One decision for a notification -/

/-- The decisions of a notification are one, pending or under delivery. -/
structure Sole (key : String) (s : Daemon) : Prop where
  ids : s.Ids
  one : (s.pending key).length ≤ 1
  sole : ∀ d ∈ s.decisions, ∀ e ∈ s.decisions, d.key = key → e.key = key → d = e
  named : ∀ d ∈ s.decisions, d.key ≠ ""

variable {key : String} {s t : Daemon}

lemma Sole.mono (h : Sole key s) (hb : t.buffer.Sublist s.buffer) (hm : t.minted = s.minted)
    (hv : ∀ v ∈ t.deliveries, v.decision ∈ s.decisions) :
    Sole key t := by
  have hsub : ∀ d ∈ t.decisions, d ∈ s.decisions := by
    intro d hd
    rcases mem_decisions.mp hd with hd | ⟨v, hv', rfl⟩
    · exact mem_decisions.mpr (.inl (hb.subset hd))
    · exact hv v hv'
  exact {
    ids := ⟨fun d hd => hm ▸ h.ids.minted d (hsub d hd),
      fun d hd e he => h.ids.unique d (hsub d hd) e (hsub e he)⟩
    one := Nat.le_trans (hb.filter _).length_le h.one
    sole := fun d hd e he => h.sole d (hsub d hd) e (hsub e he)
    named := fun d hd => h.named d (hsub d hd) }

lemma Sole.offered {alert : QueueItem} {outcome : DispatchOutcome} (h : Sole key s)
    (ho : s.Offered alert outcome t) (hn : notificationKey alert ≠ "")
    (hk : notificationKey alert = key → ∀ d ∈ s.decisions, d.key ≠ key) : Sole key t := by
  refine ⟨⟨?_, ?_⟩, ?_, ?_, ?_⟩
  · intro d hd
    rcases ho.decisions hd with hd | ⟨rfl, hm, -⟩
    · exact Nat.lt_of_lt_of_le (h.ids.minted d hd) ho.minted_le
    · simp [next, hm]
  · intro d hd e he hde
    rcases ho.decisions hd with hd | ⟨rfl, -⟩ <;> rcases ho.decisions he with he | ⟨rfl, -⟩
    · exact h.ids.unique d hd e he hde
    · have := h.ids.minted d hd
      simp only [next] at hde
      omega
    · have := h.ids.minted e he
      simp only [next] at hde
      omega
    · rfl
  · have hnone : notificationKey alert = key → s.pending key = [] := fun hkey =>
      List.filter_eq_nil_iff.mpr fun d hd =>
        by simpa using hk hkey d (mem_decisions.mpr (.inl hd))
    have hread : ∀ readable, ((s.readState readable ++ [s.next alert]).filter
        fun d => d.key = key).length ≤ 1 := by
      intro readable
      have hle : ((s.readState readable).filter fun d => d.key = key).length
          ≤ (s.pending key).length := by
        cases readable <;> simp [readState, pending]
      rw [List.filter_append, List.length_append]
      by_cases hkey : notificationKey alert = key
      · rw [hnone hkey] at hle
        simp only [List.length_nil] at hle
        have : ([s.next alert].filter fun d => d.key = key).length ≤ 1 := List.length_filter_le _ _
        omega
      · have := h.one
        simp only [List.filter_cons, next_key, hkey, decide_false, List.filter_nil,
          Bool.false_eq_true, if_false, List.length_nil]
        omega
    unfold pending
    rw [ho.buffer]
    cases outcome.enqueues with
    | none => exact h.one
    | some readable => exact hread readable
  · intro d hd e he hdk hek
    rcases ho.decisions hd with hd | ⟨rfl, -⟩ <;> rcases ho.decisions he with he | ⟨rfl, -⟩
    · exact h.sole d hd e he hdk hek
    · exact absurd hdk (hk hek d hd)
    · exact absurd hek (hk hdk e he)
    · rfl
  · intro d hd
    rcases ho.decisions hd with hd | ⟨rfl, -⟩
    · exact h.named d hd
    · exact hn

/-- What the steps keep for one notification. -/
structure Sound (key : String) (s : Daemon) : Prop extends Sole key s where
  /-- While the driver runs, a decision keeps its key from being offered until it is released. -/
  guarded : s.phase = .live → ∀ d ∈ s.decisions, d.key = key →
    key ∈ s.inflight ∨ key ∈ s.seen ∨ ∃ v ∈ s.deliveries, v.key = key ∧ v.released = true
  /-- A sweep's alerts are of different notifications, and no decision exists for them. -/
  todo : ∀ l, s.sweep = .dispatching l → (l.map notificationKey).Nodup ∧
    (∀ q ∈ l, notificationKey q ≠ "") ∧
    (key ∈ l.map notificationKey → ∀ d ∈ s.decisions, d.key ≠ key)
  offline : s.phase ≠ .live → s.inflight = [] ∧ s.sweep = .none
  replayed : s.phase = .replaying → ∀ v ∈ s.deliveries, v.decision ∈ s.buffer
  down : s.phase = .down → s.deliveries = []

end Daemon

/-- What the runs must meet for one notification: the driver starts on a buffer it can read, and the
ack of a released key reads the buffer. -/
def Careful (key : String) (s : Daemon) : Label → Prop
  | .start readable => readable = true ∨ s.pending key = []
  | .delivered decisionId (.ok ackReads) =>
      ackReads = true ∨ key ∈ s.seen ∨ key ∈ s.inflight ∨
        ∀ d ∈ s.pending key, d.decisionId ≠ decisionId
  | _ => True

namespace Daemon

variable {key : String} {s t : Daemon}

lemma Sound.restart (h : Sound key s) : Sound key
    { s with inflight := [], deliveries := [], sweep := .none, phase := .down, unread := [] } := by
  refine ⟨h.toSole.mono (List.Sublist.refl _) rfl (by simp), ?_, ?_, ?_, ?_, ?_⟩ <;> simp

lemma Sound.replayPending (h : Sound key s) (hp : s.phase = .down) (readable : Bool) : Sound key
    { s with
      deliveries := (s.readState readable).map fun d => { decision := d }
      phase := .replaying } := by
  obtain ⟨hi, hs⟩ := h.offline (by simp [hp])
  have hv : ∀ v ∈ (s.readState readable).map fun d => ({ decision := d } : Delivery),
      v.decision ∈ s.buffer := by
    intro v hv
    obtain ⟨d, hd, rfl⟩ := List.mem_map.mp hv
    exact s.readState_sub readable d hd
  refine ⟨h.toSole.mono (List.Sublist.refl _) rfl ?_, ?_, ?_, ?_, ?_, ?_⟩
  · exact fun v hv' => mem_decisions.mpr (.inl (hv v hv'))
  · simp
  · simp [hs]
  · exact fun _ => ⟨hi, hs⟩
  · exact fun _ => hv
  · simp

lemma mem_start_inflight {readable : Bool} {k : String} :
    k ∈ (s.start readable).inflight ↔
      k ∈ s.inflight ∨ ∃ d ∈ s.readState readable, d.key = k ∧ k ≠ "" := by
  simp only [start, ne_eq, List.mem_append, List.mem_filter, List.mem_map, decide_not,
    Bool.not_eq_true', decide_eq_false_iff_not]
  constructor
  · rintro (hk | ⟨⟨d, hd, rfl⟩, hne⟩)
    · exact .inl hk
    · exact .inr ⟨d, hd, rfl, hne⟩
  · rintro (hk | ⟨d, hd, rfl, hne⟩)
    · exact .inl hk
    · exact .inr ⟨⟨d, hd, rfl⟩, hne⟩

lemma Sound.start (h : Sound key s) (hp : s.phase = .replaying) {readable : Bool}
    (hc : Careful key s (.start readable)) : Sound key (s.start readable) := by
  obtain ⟨hi, hs⟩ := h.offline (by simp [hp])
  refine ⟨h.toSole.mono (List.Sublist.refl _) rfl ?_, ?_, ?_, ?_, ?_, ?_⟩
  · exact fun v hv => mem_decisions.mpr (.inr ⟨v, hv, rfl⟩)
  · intro _ d hd hk
    have hbuf : d ∈ s.buffer := by
      rcases mem_decisions.mp hd with hd | ⟨v, hv, rfl⟩
      · exact hd
      · exact h.replayed hp v hv
    have hmem : d ∈ s.pending key := by simp [hbuf, hk]
    rcases hc with rfl | hnone
    · refine .inl (mem_start_inflight.mpr (.inr ⟨d, by simpa [readState] using hbuf, hk, ?_⟩))
      exact hk ▸ h.named d (mem_decisions.mpr (.inl hbuf))
    · simp [hnone] at hmem
  · intro l hl
    rw [show (s.start readable).sweep = s.sweep from rfl, hs] at hl
    simp at hl
  all_goals simp [Daemon.start]

lemma Sound.quiet {sweep : Sweep} (h : Sound key s) (hl : s.phase = .live)
    (hs : ∀ l, sweep ≠ .dispatching l) : Sound key { s with sweep } := by
  refine ⟨h.toSole.mono (List.Sublist.refl _) rfl ?_, h.guarded, ?_, ?_, h.replayed, h.down⟩
  · exact fun v hv => mem_decisions.mpr (.inr ⟨v, hv, rfl⟩)
  · exact fun l hl => absurd hl (hs l)
  · exact fun hn => absurd hl hn

lemma Sound.live (h : Sound key s) (hs : s.sweep ≠ .none) : s.phase = .live := by
  by_contra hp
  exact hs (h.offline hp).2

lemma Sound.alerts (h : Sound key s) (hs : s.sweep = .listing)
    (hr : s.deliveries.any s.returning = false) (alerts : HumanAlerts) :
    Sound key { s with sweep := .dispatching (s.fresh alerts) } := by
  have hlive := h.live (by simp [hs])
  refine ⟨h.toSole.mono (List.Sublist.refl _) rfl ?_, h.guarded, ?_, ?_, h.replayed, h.down⟩
  · exact fun v hv => mem_decisions.mpr (.inr ⟨v, hv, rfl⟩)
  · intro l hl
    obtain rfl : s.fresh alerts = l := by simpa using hl
    refine ⟨alerts.distinct.sublist (List.filter_sublist.map _), ?_, ?_⟩
    · exact fun q hq => alerts.named q (List.mem_filter.mp hq).1
    · intro hk d hd hdk
      -- the key is fresh, so only a delivery about to return could still be of it
      have hfresh : key ∉ s.seen ∧ key ∉ s.inflight := by
        obtain ⟨q, hq, rfl⟩ := List.mem_map.mp hk
        simpa using (List.mem_filter.mp hq).2
      rcases h.guarded hlive d hd hdk with hi | hseen | ⟨v, hv, hvk, hvr⟩
      · exact hfresh.2 hi
      · exact hfresh.1 hseen
      · have hno := List.any_eq_false.mp hr v hv
        simp [returning, hvr, hvk, hfresh.1] at hno
  · exact fun hn => absurd hlive hn

lemma Sound.offer (h : Sound key s) {alert : QueueItem} {rest : List QueueItem}
    (hs : s.sweep = .dispatching (alert :: rest)) {outcome : DispatchOutcome}
    (ho : ({ s with sweep := .dispatching rest } : Daemon).Offered alert outcome t) :
    Sound key t := by
  have hlive := h.live (by simp [hs])
  obtain ⟨hnodup, hnamed, hnone⟩ := h.todo _ hs
  have hphase : t.phase = .live := ho.phase.trans hlive
  have hdec : ∀ d ∈ t.decisions, d ∈ s.decisions ∨ d = s.next alert ∧ s.next alert ∈ t.buffer :=
    fun d hd => (ho.decisions hd).imp id fun ⟨h, _, h'⟩ => ⟨h, h'⟩
  have hsole : Sole key t := by
    refine (h.toSole.mono (t := { s with sweep := .dispatching rest }) (List.Sublist.refl _) rfl
      ?_).offered ho (hnamed alert List.mem_cons_self) ?_
    · exact fun v hv => mem_decisions.mpr (.inr ⟨v, hv, rfl⟩)
    · exact fun hk d hd => hnone (by simp [hk]) d hd
  refine ⟨hsole, ?_, ?_, ?_, ?_, ?_⟩
  · intro _ d hd hdk
    rcases hdec d hd with hd | ⟨rfl, hnew⟩
    · by_cases hk : notificationKey alert = key
      · exact absurd hdk (hnone (by simp [hk]) d hd)
      · rcases h.guarded hlive d hd hdk with hi | hseen | ⟨v, hv, hvk, hvr⟩
        · exact .inl ((ho.others key (Ne.symm hk)).mpr hi)
        · exact .inr (.inl (ho.seen ▸ hseen))
        · exact .inr (.inr ⟨v, ho.keeps hv, hvk, hvr⟩)
    · exact .inl (hdk ▸ ho.inflight hnew)
  · intro l hl
    rw [ho.sweep] at hl
    obtain rfl : rest = l := by simpa using hl
    simp only [List.map_cons, List.nodup_cons] at hnodup
    refine ⟨hnodup.2, fun q hq => hnamed q (List.mem_cons_of_mem _ hq), ?_⟩
    intro hk d hd hdk
    rcases hdec d hd with hd | ⟨rfl, -⟩
    · exact hnone (by simp [hk]) d hd hdk
    · rw [next_key] at hdk
      exact hnodup.1 (hdk ▸ hk)
  · exact fun hn => absurd hphase hn
  · exact fun hr => absurd (hphase ▸ hr) (by simp)
  · exact fun hd => absurd (hphase ▸ hd) (by simp)

lemma Sound.mark (h : Sound key s) (k : String) : Sound key { s with seen := s.seen ++ [k] } := by
  refine ⟨h.toSole.mono (List.Sublist.refl _) rfl ?_, ?_, h.todo, h.offline, h.replayed, h.down⟩
  · exact fun v hv => mem_decisions.mpr (.inr ⟨v, hv, rfl⟩)
  · intro hl d hd hdk
    rcases h.guarded hl d hd hdk with hi | hseen | hv
    · exact .inl hi
    · exact .inr (.inl (List.mem_append_left _ hseen))
    · exact .inr (.inr hv)

lemma mem_releaseRef {decisionId : ℕ} {v : Delivery} :
    v ∈ (s.releaseRef decisionId).deliveries ↔
      ∃ w ∈ s.deliveries, v.decision = w.decision ∧
        v.released = (w.released || decide (w.decision.decisionId = decisionId)) := by
  simp only [releaseRef, List.mem_map]
  constructor
  · rintro ⟨w, hw, rfl⟩
    refine ⟨w, hw, ?_⟩
    by_cases hid : w.decision.decisionId = decisionId <;> simp [hid]
  · rintro ⟨w, hw, hd, hr⟩
    refine ⟨w, hw, ?_⟩
    obtain ⟨vd, vr⟩ := v
    simp only at hd hr
    subst hd hr
    by_cases hid : w.decision.decisionId = decisionId <;> simp [hid]

lemma releaseRef_inflight {decisionId : ℕ} {k : String} :
    k ∈ (s.releaseRef decisionId).inflight ↔ k ∈ s.inflight ∧
      ∀ v ∈ s.deliveries, v.decision.decisionId = decisionId → v.key ≠ k := by
  simp only [releaseRef, List.mem_filter, List.mem_map, not_exists, not_and, decide_eq_true_eq,
    and_imp]

@[simp] lemma releaseRef_decisions {decisionId : ℕ} {d : OutboundDecision} :
    d ∈ (s.releaseRef decisionId).decisions ↔ d ∈ s.decisions := by
  simp only [mem_decisions, mem_releaseRef]
  constructor
  · rintro (hd | ⟨v, ⟨w, hw, hvw, -⟩, rfl⟩)
    · exact .inl hd
    · exact .inr ⟨w, hw, hvw.symm⟩
  · rintro (hd | ⟨v, hv, rfl⟩)
    · exact .inl hd
    · exact .inr ⟨{ v with released := v.released || v.decision.decisionId = decisionId },
        ⟨v, hv, rfl, by simp⟩, rfl⟩

lemma Sound.release (h : Sound key s) (decisionId : ℕ) : Sound key (s.releaseRef decisionId) := by
  refine ⟨h.toSole.mono (List.Sublist.refl _) rfl ?_, ?_, ?_, ?_, ?_, ?_⟩
  · intro v hv
    obtain ⟨w, hw, hd, -⟩ := mem_releaseRef.mp hv
    exact mem_decisions.mpr (.inr ⟨w, hw, hd.symm⟩)
  · intro hl d hd hdk
    rcases h.guarded hl d (releaseRef_decisions.mp hd) hdk with hi | hseen | ⟨v, hv, hvk, hvr⟩
    · by_cases hk : ∃ v ∈ s.deliveries, v.decision.decisionId = decisionId ∧ v.key = key
      · obtain ⟨v, hv, hid, hvk⟩ := hk
        refine .inr
          (.inr ⟨{ v with released := true }, mem_releaseRef.mpr ⟨v, hv, rfl, ?_⟩, hvk, rfl⟩)
        simp [hid]
      · exact .inl (releaseRef_inflight.mpr ⟨hi, fun v hv hid hvk => hk ⟨v, hv, hid, hvk⟩⟩)
    · exact .inr (.inl hseen)
    · exact .inr (.inr ⟨v, mem_releaseRef.mpr ⟨v, hv, rfl, by simp [hvr]⟩, hvk, hvr⟩)
  · intro l hl
    obtain ⟨hnodup, hnamed, hnone⟩ := h.todo l hl
    exact ⟨hnodup, hnamed, fun hk d hd => hnone hk d (releaseRef_decisions.mp hd)⟩
  · intro hn
    obtain ⟨hi, hs⟩ := h.offline hn
    exact ⟨by simp [releaseRef, hi], hs⟩
  · intro hr v hv
    obtain ⟨w, hw, hd, -⟩ := mem_releaseRef.mp hv
    exact hd ▸ h.replayed hr w hw
  · intro hd
    simp [releaseRef, h.down hd]

lemma settle_buffer {decisionId : ℕ} {outcome : DeliveryOutcome} :
    (s.settle decisionId outcome).buffer =
      if outcome = .ok true then s.buffer.filter fun d => d.decisionId ≠ decisionId
      else s.buffer := by
  rcases outcome with _ | (_ | _) <;> simp [settle, ack_eq]

lemma settle_eq (s : Daemon) (decisionId : ℕ) (outcome : DeliveryOutcome) :
    s.settle decisionId outcome =
      { s with
        deliveries := s.deliveries.filter fun v => v.decision.decisionId ≠ decisionId
        buffer := (s.settle decisionId outcome).buffer } := by
  cases outcome <;> simp [settle, ack_eq]

lemma mem_settle_deliveries {decisionId : ℕ} {outcome : DeliveryOutcome} {v : Delivery} :
    v ∈ (s.settle decisionId outcome).deliveries ↔
      v ∈ s.deliveries ∧ v.decision.decisionId ≠ decisionId := by
  rw [settle_eq]
  simp

lemma settle_sublist {decisionId : ℕ} {outcome : DeliveryOutcome} :
    (s.settle decisionId outcome).buffer.Sublist s.buffer := by
  rw [settle_buffer]
  split
  · exact List.filter_sublist
  · exact List.Sublist.refl _

lemma decisions_settle {decisionId : ℕ} {outcome : DeliveryOutcome} {d : OutboundDecision}
    (hd : d ∈ (s.settle decisionId outcome).decisions) :
    d ∈ s.decisions ∧ (d.decisionId ≠ decisionId ∨ d ∈ s.buffer ∧ outcome ≠ .ok true) := by
  rcases mem_decisions.mp hd with hd | ⟨v, hv, rfl⟩
  · refine ⟨mem_decisions.mpr (.inl (settle_sublist.subset hd)), ?_⟩
    rw [settle_buffer] at hd
    split at hd
    · exact .inl (by simpa using (List.mem_filter.mp hd).2)
    · exact .inr ⟨hd, ‹_›⟩
  · obtain ⟨hv, hid⟩ := mem_settle_deliveries.mp hv
    exact ⟨mem_decisions.mpr (.inr ⟨v, hv, rfl⟩), .inl hid⟩

lemma seen_of_released {decisionId : ℕ}
    (hb : (s.deliveries.any fun v => v.decision.decisionId = decisionId ∧ s.returning v) = false)
    {v : Delivery} (hv : v ∈ s.deliveries) (hid : v.decision.decisionId = decisionId)
    (hr : v.released = true) : v.key ∈ s.seen := by
  by_contra hn
  have hno := List.any_eq_false.mp hb v hv
  simp [hid, returning, hr, hn] at hno

lemma Sound.settle (h : Sound key s) (hl : s.phase = .live) (hs : ∀ l, s.sweep ≠ .dispatching l)
    {decisionId : ℕ} {outcome : DeliveryOutcome}
    (hb : outcome = .failed →
      (s.deliveries.any fun v => v.decision.decisionId = decisionId ∧ s.returning v) = false)
    (hc : Careful key s (.delivered decisionId outcome)) :
    Sound key (s.settle decisionId outcome) := by
  have heq := s.settle_eq decisionId outcome
  have hphase : (s.settle decisionId outcome).phase = .live := by
    rw [heq]
    exact hl
  have hsweep : (s.settle decisionId outcome).sweep = s.sweep := by rw [heq]
  have hseen : (s.settle decisionId outcome).seen = s.seen := by rw [heq]
  have hinflight : (s.settle decisionId outcome).inflight = s.inflight := by rw [heq]
  refine ⟨h.toSole.mono settle_sublist (by rw [heq]) ?_, ?_, ?_, ?_, ?_, ?_⟩
  · intro v hv
    exact mem_decisions.mpr (.inr ⟨v, (mem_settle_deliveries.mp hv).1, rfl⟩)
  · intro _ d hd hdk
    rw [hseen, hinflight]
    obtain ⟨hd, hrest⟩ := decisions_settle hd
    rcases h.guarded hl d hd hdk with hi | hk | ⟨v, hv, hvk, hvr⟩
    · exact .inl hi
    · exact .inr (.inl hk)
    · by_cases hid : v.decision.decisionId = decisionId
      · -- the delivery that released the key is the one that ends
        have hdv : d = v.decision := h.sole d hd v.decision
          (mem_decisions.mpr (.inr ⟨v, hv, rfl⟩)) hdk hvk
        rcases hrest with hne | ⟨hbuf, hout⟩
        · exact absurd (hdv ▸ hid) hne
        · cases outcome with
          | failed => exact .inr (.inl (hvk ▸ seen_of_released (hb rfl) hv hid hvr))
          | ok readable =>
            rcases hc with rfl | hk | hi | hnone
            · exact absurd rfl hout
            · exact .inr (.inl hk)
            · exact .inl hi
            · exact absurd (hdv ▸ hid) (hnone d (by simp [hbuf, hdk]))
      · exact .inr (.inr ⟨v, mem_settle_deliveries.mpr ⟨hv, hid⟩, hvk, hvr⟩)
  · exact fun l hl' => absurd (hsweep ▸ hl') (hs l)
  · exact fun hn => absurd hphase hn
  · exact fun hr => absurd (hphase ▸ hr) (by simp)
  · exact fun hd => absurd (hphase ▸ hd) (by simp)

end Daemon

variable {key : String} {s t : Daemon}

/-- **A step keeps one decision for a notification.** -/
lemma sound_step {l : Label} (h : s.Sound key) (hstep : step s l = some t) (hc : Careful key s l) :
    t.Sound key := by
  cases l with
  | restart =>
    obtain rfl := Option.some.inj hstep
    exact h.restart
  | replayPending readable =>
    simp only [step, Option.ite_none_right_eq_some, Option.some.injEq] at hstep
    obtain ⟨hp, rfl⟩ := hstep
    exact h.replayPending hp readable
  | start readable =>
    simp only [step, Option.ite_none_right_eq_some, Option.some.injEq] at hstep
    obtain ⟨hp, rfl⟩ := hstep
    exact h.start hp hc
  | sweepOnce =>
    simp only [step, Option.ite_none_right_eq_some, Option.some.injEq] at hstep
    obtain ⟨⟨hl, -⟩, rfl⟩ := hstep
    exact h.quiet hl (by simp)
  | alerts alerts =>
    simp only [step, Option.ite_none_right_eq_some, Option.some.injEq] at hstep
    obtain ⟨⟨hs, hr⟩, rfl⟩ := hstep
    exact h.alerts hs (by simpa using hr) alerts
  | alertsThrow =>
    simp only [step, Option.ite_none_right_eq_some, Option.some.injEq] at hstep
    obtain ⟨hs, rfl⟩ := hstep
    exact h.quiet (h.live (by simp [hs])) (by simp)
  | dispatch outcome =>
    simp only [step] at hstep
    split at hstep
    · rename_i alert rest hs
      obtain rfl := Option.some.inj hstep
      have hids : Daemon.Ids { s with sweep := .dispatching rest } := ⟨h.ids.minted, h.ids.unique⟩
      exact h.offer hs (hids.offer alert outcome)
    · simp at hstep
  | sweepEnd =>
    simp only [step, Option.ite_none_right_eq_some, Option.some.injEq] at hstep
    obtain ⟨hs, rfl⟩ := hstep
    exact h.quiet (h.live (by simp [hs])) (by simp)
  | release decisionId =>
    simp only [step, Option.ite_none_right_eq_some, Option.some.injEq] at hstep
    obtain ⟨-, rfl⟩ := hstep
    exact h.release decisionId
  | mark k =>
    obtain rfl := Option.some.inj hstep
    exact h.mark k
  | delivered decisionId outcome =>
    simp only [step] at hstep
    split at hstep
    · simp at hstep
    · rename_i hs
      simp only [Option.ite_none_right_eq_some, Option.some.injEq, Bool.not_eq_true] at hstep
      obtain ⟨⟨hl, -, hb⟩, rfl⟩ := hstep
      exact h.settle hl hs hb hc

/-! ### Keys in flight -/

/-- What is promised of the delivery layer: a decision it acks has its key marked seen or
released. -/
def Settles (key : String) (s : Daemon) : Label → Prop
  | .delivered decisionId (.ok _) => ∀ v ∈ s.deliveries, v.decision.decisionId = decisionId →
      v.key = key → v.released = true ∨ key ∈ s.seen
  | _ => True

/-- A start undoes no release: what a replayed delivery has released already is marked seen. -/
def SeedsHeld (key : String) (s : Daemon) : Label → Prop
  | .start _ => ∀ v ∈ s.deliveries, v.key = key → v.released = true → key ∈ s.seen
  | _ => True

/-- A key in flight is seen, or left by a failed read, or has a pending decision whose delivery has
not released it. -/
def Standing (key : String) (s : Daemon) : Prop :=
  key ∈ s.inflight → key ∈ s.seen ∨ key ∈ s.unread ∨
    ∃ d ∈ s.buffer, d.key = key ∧ ∀ v ∈ s.deliveries, v.key = key → v.released = false

lemma standing_start (hp : s.phase = .replaying) (h : s.Sound key) {readable : Bool}
    (hc : SeedsHeld key s (.start readable)) : Standing key (s.start readable) := by
  intro hk
  rcases Daemon.mem_start_inflight.mp hk with hk | ⟨d, hd, hdk, -⟩
  · simp [(h.offline (by simp [hp])).1] at hk
  · by_cases hr : ∃ v ∈ s.deliveries, v.key = key ∧ v.released = true
    · obtain ⟨v, hv, hvk, hvr⟩ := hr
      exact .inl (hc v hv hvk hvr)
    · refine .inr (.inr ⟨d, s.readState_sub readable d hd, hdk, ?_⟩)
      intro v hv hvk
      simpa using fun hvr => hr ⟨v, hv, hvk, hvr⟩

lemma standing_offer (h : s.Sound key) (hs' : Standing key s) {alert : QueueItem}
    {rest : List QueueItem} (hs : s.sweep = .dispatching (alert :: rest))
    {outcome : DispatchOutcome}
    (ho : ({ s with sweep := .dispatching rest } : Daemon).Offered alert outcome t) :
    Standing key t := by
  obtain ⟨-, -, hnone⟩ := h.todo _ hs
  intro hk
  by_cases hkey : notificationKey alert = key
  · have hno : ∀ d ∈ s.decisions, d.key ≠ key := hnone (by simp [hkey])
    rcases ho.standing (hkey ▸ hk) with hnew | hun | ⟨d, hd, hdk⟩
    · refine .inr (.inr ⟨_, hnew, hkey, ?_⟩)
      intro v hv hvk
      rcases ho.delivery hv with hv | ⟨rfl, -⟩
      · exact absurd hvk (hno v.decision (Daemon.mem_decisions.mpr (.inr ⟨v, hv, rfl⟩)))
      · rfl
    · exact .inr (.inl (hkey ▸ hun))
    · exact absurd (hdk.trans hkey) (hno d (Daemon.mem_decisions.mpr (.inl hd)))
  · rcases hs' ((ho.others key (Ne.symm hkey)).mp hk) with hseen | hun | ⟨d, hd, hdk, hv⟩
    · exact .inl (ho.seen ▸ hseen)
    · exact .inr (.inl (ho.unread key hun))
    · by_cases hd' : d ∈ t.buffer
      · refine .inr (.inr ⟨d, hd', hdk, ?_⟩)
        intro v hv' hvk
        rcases ho.delivery hv' with hv' | ⟨rfl, -⟩
        · exact hv v hv' hvk
        · rfl
      · exact .inr (.inl (hdk ▸ ho.dropped d hd hd'))

lemma standing_release (hs : Standing key s) (decisionId : ℕ) :
    Standing key (s.releaseRef decisionId) := by
  intro hk
  obtain ⟨hk, hnone⟩ := Daemon.releaseRef_inflight.mp hk
  refine (hs hk).imp id (Or.imp id ?_)
  rintro ⟨d, hd, hdk, hv⟩
  refine ⟨d, hd, hdk, ?_⟩
  intro v hv' hvk
  obtain ⟨w, hw, hvw, hr⟩ := Daemon.mem_releaseRef.mp hv'
  have hwk : w.key = key := by
    rw [← hvk, Delivery.key, Delivery.key, hvw]
  have hid : w.decision.decisionId ≠ decisionId := fun hid => hnone w hw hid hwk
  simp [hr, hv w hw hwk, hid]

lemma standing_settle (h : s.Sound key) (hs : Standing key s) {decisionId : ℕ}
    {outcome : DeliveryOutcome} (hd : s.delivering decisionId = true)
    (hc : Settles key s (.delivered decisionId outcome)) :
    Standing key (s.settle decisionId outcome) := by
  intro hk
  have heq := s.settle_eq decisionId outcome
  rw [heq] at hk
  have hkeep : ∀ d ∈ s.buffer, d.key = key →
      (∀ v ∈ s.deliveries, v.key = key → v.released = false) →
      key ∈ s.seen ∨ d ∈ (s.settle decisionId outcome).buffer := by
    intro d hd' hdk hv
    by_cases hout : outcome = .ok true ∧ d.decisionId = decisionId
    · -- the decision is acked, so its delivery has released the key or marked it
      obtain ⟨rfl, rfl⟩ := hout
      obtain ⟨v, hv', hid⟩ := List.any_eq_true.mp hd
      simp only [decide_eq_true_eq] at hid
      have hvd : v.decision = d := h.ids.unique _ (Daemon.mem_decisions.mpr (.inr ⟨v, hv', rfl⟩)) d
        (Daemon.mem_decisions.mpr (.inl hd')) hid
      have hvk : v.key = key := by rw [Delivery.key, hvd, hdk]
      rcases hc v hv' hid hvk with hr | hseen
      · simp [hv v hv' hvk] at hr
      · exact .inl hseen
    · refine .inr ?_
      rw [Daemon.settle_buffer]
      split
      · rename_i hok
        simpa [hd'] using fun hid => hout ⟨hok, hid⟩
      · exact hd'
  rcases hs hk with hseen | hun | ⟨d, hd', hdk, hv⟩
  · exact .inl (by rw [heq]; exact hseen)
  · exact .inr (.inl (by rw [heq]; exact hun))
  · rcases hkeep d hd' hdk hv with hseen | hmem
    · exact .inl (by rw [heq]; exact hseen)
    · exact .inr (.inr ⟨d, hmem, hdk, fun v hv' => hv v (Daemon.mem_settle_deliveries.mp hv').1⟩)

/-- **A step leaves no key in flight for nothing.** -/
lemma standing_step {l : Label} (h : s.Sound key) (hs : Standing key s) (hstep : step s l = some t)
    (hc : SeedsHeld key s l) (hl : Settles key s l) : Standing key t := by
  cases l with
  | restart =>
    obtain rfl := Option.some.inj hstep
    simp [Standing]
  | replayPending readable =>
    simp only [step, Option.ite_none_right_eq_some, Option.some.injEq] at hstep
    obtain ⟨hp, rfl⟩ := hstep
    simp [Standing, (h.offline (by simp [hp])).1]
  | start readable =>
    simp only [step, Option.ite_none_right_eq_some, Option.some.injEq] at hstep
    obtain ⟨hp, rfl⟩ := hstep
    exact standing_start hp h hc
  | sweepOnce =>
    simp only [step, Option.ite_none_right_eq_some, Option.some.injEq] at hstep
    obtain ⟨-, rfl⟩ := hstep
    exact hs
  | alerts alerts =>
    simp only [step, Option.ite_none_right_eq_some, Option.some.injEq] at hstep
    obtain ⟨-, rfl⟩ := hstep
    exact hs
  | alertsThrow =>
    simp only [step, Option.ite_none_right_eq_some, Option.some.injEq] at hstep
    obtain ⟨-, rfl⟩ := hstep
    exact hs
  | dispatch outcome =>
    simp only [step] at hstep
    split at hstep
    · rename_i alert rest hsw
      obtain rfl := Option.some.inj hstep
      have hids : Daemon.Ids { s with sweep := .dispatching rest } := ⟨h.ids.minted, h.ids.unique⟩
      exact standing_offer h hs hsw (hids.offer alert outcome)
    · simp at hstep
  | sweepEnd =>
    simp only [step, Option.ite_none_right_eq_some, Option.some.injEq] at hstep
    obtain ⟨-, rfl⟩ := hstep
    exact hs
  | release decisionId =>
    simp only [step, Option.ite_none_right_eq_some, Option.some.injEq] at hstep
    obtain ⟨-, rfl⟩ := hstep
    exact standing_release hs decisionId
  | mark k =>
    obtain rfl := Option.some.inj hstep
    exact fun hk => (hs hk).imp (fun h => List.mem_append_left _ h) id
  | delivered decisionId outcome =>
    simp only [step] at hstep
    split at hstep
    · simp at hstep
    · simp only [Option.ite_none_right_eq_some, Option.some.injEq] at hstep
      obtain ⟨⟨-, hd, -⟩, rfl⟩ := hstep
      exact standing_settle h hs hd hl

/-! ### Pending decisions -/

lemma offer_keeps {alert : QueueItem} {outcome : DispatchOutcome}
    (ho : outcome.enqueues ≠ some false) {d : OutboundDecision} (hd : d ∈ s.buffer) :
    d ∈ (s.offer alert outcome).buffer := by
  have henqueue : ∀ (s : Daemon) payload, d ∈ s.buffer → d ∈ (s.enqueue payload true).buffer := by
    intro s payload hd
    simp only [Daemon.enqueue, Daemon.readState, if_true]
    split
    · exact hd
    · exact List.mem_append_left _ hd
  cases outcome with
  | refused => exact hd
  | threwBefore readable =>
    simp only [Daemon.offer]
    split <;> exact hd
  | threwAfter readable checkReads =>
    obtain rfl : readable = true := by simpa [DispatchOutcome.enqueues] using ho
    simp only [Daemon.offer]
    split <;> exact henqueue _ _ hd
  | accepted readable =>
    obtain rfl : readable = true := by simpa [DispatchOutcome.enqueues] using ho
    exact henqueue _ _ hd

/-- **A pending decision leaves the buffer by its ack**, or by an enqueue that could not read it. -/
lemma leaves_buffer {l : Label} (hstep : step s l = some t) {d : OutboundDecision}
    (hd : d ∈ s.buffer) (hn : d ∉ t.buffer) :
    l = .delivered d.decisionId (.ok true) ∨
      ∃ outcome, l = .dispatch outcome ∧ outcome.enqueues = some false := by
  cases l with
  | dispatch outcome =>
    refine .inr ⟨outcome, rfl, ?_⟩
    by_contra ho
    simp only [step] at hstep
    split at hstep
    · obtain rfl := Option.some.inj hstep
      exact hn (offer_keeps ho hd)
    · simp at hstep
  | delivered decisionId outcome =>
    simp only [step] at hstep
    split at hstep
    · simp at hstep
    · simp only [Option.ite_none_right_eq_some, Option.some.injEq] at hstep
      obtain ⟨-, rfl⟩ := hstep
      rw [Daemon.settle_buffer] at hn
      split at hn
      · rename_i hok
        left
        simp only [ne_eq, decide_not, List.mem_filter, hd, true_and, Bool.not_eq_true',
          decide_eq_false_iff_not, not_not] at hn
        rw [hok, hn]
      · exact absurd hd hn
  | restart =>
    obtain rfl := Option.some.inj hstep
    exact absurd hd hn
  | mark k =>
    obtain rfl := Option.some.inj hstep
    exact absurd hd hn
  | replayPending | start | sweepOnce | alerts | alertsThrow | sweepEnd | release =>
    simp only [step, Option.ite_none_right_eq_some, Option.some.injEq] at hstep
    obtain ⟨-, rfl⟩ := hstep
    exact absurd hd hn

/-! ### Runs -/

/-- The first start of a machine: nothing pending. -/
def opened (seen : List String) : Daemon := { seen }

lemma sound_opened (seen : List String) : (opened seen).Sound key := by
  refine ⟨⟨⟨?_, ?_⟩, ?_, ?_, ?_⟩, ?_, ?_, ?_, ?_, ?_⟩ <;>
    simp [opened, Daemon.pending]

/-- **At most one pending decision for a notification**: in every run that starts on what it can
read and lists no key between its release and its ack, the buffer holds at most one decision for a
key; in those that seed no released key, a key in flight is seen, pending or left by a failed read
of the buffer. In every step a pending decision stays until it is acked, or an enqueue cannot read
the buffer. -/
theorem one_pending_per_notification (key : String) (seen : List String) :
    (∀ ls s, Path (fun s l t => step s l = some t ∧ Careful key s l) (opened seen) ls s →
      (s.pending key).length ≤ 1) ∧
    (∀ s l t, step s l = some t → ∀ d ∈ s.buffer, d ∉ t.buffer →
      l = .delivered d.decisionId (.ok true) ∨
        ∃ outcome, l = .dispatch outcome ∧ outcome.enqueues = some false) ∧
    ∀ ls s, Path (fun s l t => step s l = some t ∧
        Careful key s l ∧ SeedsHeld key s l ∧ Settles key s l) (opened seen) ls s →
      (key ∈ s.inflight → key ∈ s.seen ∨ s.pending key ≠ [] ∨ key ∈ s.unread) ∧
      ∀ alerts : HumanAlerts, ∀ q ∈ alerts.items, notificationKey q = key →
        key ∉ s.seen → s.pending key = [] → key ∉ s.unread → q ∈ s.fresh alerts := by
  refine ⟨?_, fun s l t h d hd hn => leaves_buffer h hd hn, ?_⟩
  · intro ls s h
    have hs : s.Sound key :=
      Path.invariant (I := fun s => Daemon.Sound key s)
        (fun _ _ _ h hs => sound_step hs h.1 h.2) h (sound_opened seen)
    exact hs.one
  · intro ls s h
    have hs : s.Sound key ∧ Standing key s :=
      Path.invariant (I := fun s => Daemon.Sound key s ∧ Standing key s)
        (fun _ _ _ h hs =>
          ⟨sound_step hs.1 h.1 h.2.1, standing_step hs.1 hs.2 h.1 h.2.2.1 h.2.2.2⟩)
        h ⟨sound_opened seen, by simp [Standing, opened]⟩
    have hstand : key ∈ s.inflight → key ∈ s.seen ∨ s.pending key ≠ [] ∨ key ∈ s.unread := by
      intro hk
      rcases hs.2 hk with hseen | hun | ⟨d, hd, hdk, -⟩
      · exact .inl hseen
      · exact .inr (.inr hun)
      · exact .inr (.inl (List.ne_nil_of_mem (a := d) (by simp [hd, hdk])))
    refine ⟨hstand, ?_⟩
    intro alerts q hq hqk hseen hpend hun
    have hin : key ∉ s.inflight := by
      intro hk
      rcases hstand hk with h | h | h
      · exact hseen h
      · exact h hpend
      · exact hun h
    simp [Daemon.fresh, hq, hqk, hseen, hin]

def asked (qitemId : String) : QueueItem :=
  { qitemId, notificationKey := some (qitemId ++ ":t") }

def ask : HumanAlerts := ⟨[asked "q"], by decide, by decide⟩

def asks : HumanAlerts := ⟨[asked "p", asked "q"], by decide, by decide⟩

/-- The labels of a run from a first start in which the driver starts at once. -/
def begun (ls : List Label) : List Label := [.replayPending true, .start true] ++ ls

/-- A check that a step meets what the runs must for one notification. -/
def meets (key : String) (s : Daemon) : Label → Bool
  | .start readable => (readable || s.pending key = []) && s.deliveries.all fun v => !v.released
  | .delivered decisionId (.ok ackReads) => ackReads &&
      s.deliveries.all fun v => v.decision.decisionId ≠ decisionId || v.released
  | _ => true

lemma meets_spec {l : Label} (h : meets key s l = true) :
    Careful key s l ∧ SeedsHeld key s l ∧ Settles key s l := by
  cases l with
  | start readable =>
    simp only [meets, Bool.and_eq_true, Bool.or_eq_true, decide_eq_true_eq, List.all_eq_true,
      Bool.not_eq_true'] at h
    exact ⟨h.1, fun v hv _ hr => absurd hr (by simp [h.2 v hv]), trivial⟩
  | delivered decisionId outcome =>
    cases outcome with
    | failed => exact ⟨trivial, trivial, trivial⟩
    | ok ackReads =>
      simp only [meets, Bool.and_eq_true, List.all_eq_true, Bool.or_eq_true, decide_eq_true_eq] at h
      exact ⟨.inl h.1, trivial, fun v hv hid _ => .inl ((h.2 v hv).resolve_left (· hid))⟩
  | _ => exact ⟨trivial, trivial, trivial⟩

/-- A decision is dispatched, and replayed and seeded after a restart; its delivery releases the key
and is acked, and the next sweep offers the alert again. -/
theorem one_pending_per_notification_restarted :
    let before := begun [.sweepOnce, .alerts ask, .dispatch (.accepted true), .sweepEnd, .restart,
      .replayPending true, .start true]
    let s := play (checked step (meets "q:t")) (opened []) before
    let t := play (checked step (meets "q:t")) s [.release 0, .delivered 0 (.ok true)]
    (s.pending "q:t").length = 1 ∧ t.pending "q:t" = [] ∧ asked "q" ∈ t.fresh ask := by
  intro before s t
  obtain ⟨hone, -, hstands⟩ := one_pending_per_notification "q:t" []
  have hs : Path (fun s l t => step s l = some t ∧ meets "q:t" s l = true) (opened []) before s :=
    path_checked before (by decide)
  have ht : Path (fun s l t => step s l = some t ∧ meets "q:t" s l = true) s
      [.release 0, .delivered 0 (.ok true)] t := path_checked _ (by decide)
  have hmeets : ∀ s l t, step s l = some t ∧ meets "q:t" s l = true →
      step s l = some t ∧ Careful "q:t" s l ∧ SeedsHeld "q:t" s l ∧ Settles "q:t" s l :=
    fun _ _ _ h => ⟨h.1, meets_spec h.2⟩
  have hle : (s.pending "q:t").length ≤ 1 :=
    hone _ _ (hs.mono fun s l t h => ⟨h.1, (meets_spec h.2).1⟩)
  have hpending : s.pending "q:t" ≠ [] := by
    rcases (hstands _ _ (hs.mono hmeets)).1 (by decide) with h | h | h
    · exact absurd h (by decide)
    · exact h
    · exact absurd h (by decide)
  have hpos := List.length_pos_iff.mpr hpending
  refine ⟨by omega, by decide, ?_⟩
  exact (hstands _ _ ((hs.append ht).mono hmeets)).2 ask _ (by decide) (by decide) (by decide)
    (by decide) (by decide)

/-- A failed read leaves a key in flight for nothing, drops a pending decision, or lets a second one
be minted; and the driver seeds a key that a replayed delivery has already released. -/
theorem failed_reads_lose_decisions :
    (∃ ls s, Path (fun s l t => step s l = some t) {} ls s ∧ s.sweep = .none ∧
      s.deliveries = [] ∧ "q:t" ∈ s.inflight ∧ "q:t" ∉ s.seen ∧ s.pending "q:t" = []) ∧
    (∃ ls s t, Path (fun s l t => step s l = some t) {} ls s ∧
      step s (.dispatch (.accepted false)) = some t ∧
      s.pending "p:t" ≠ [] ∧ t.pending "p:t" = []) ∧
    (∃ ls s, Path (fun s l t => step s l = some t) {} ls s ∧ (s.pending "q:t").length = 2) ∧
    ∃ ls s, Path (fun s l t => step s l = some t) {} ls s ∧ s.sweep = .none ∧
      s.deliveries = [] ∧ "q:t" ∈ s.inflight ∧ "q:t" ∉ s.seen ∧ s.pending "q:t" = [] ∧
      s.unread = [] :=
  ⟨⟨_, _, path_play (begun [.sweepOnce, .alerts ask, .dispatch (.threwBefore false), .sweepEnd])
      (by decide), by decide⟩,
    ⟨_, _, _, path_play (begun [.sweepOnce, .alerts asks, .dispatch (.accepted true)])
      (by decide), rfl, by decide, by decide⟩,
    ⟨_, _, path_play (begun [.sweepOnce, .alerts ask, .dispatch (.accepted true), .sweepEnd,
      .restart, .replayPending true, .start false, .sweepOnce, .alerts ask,
      .dispatch (.accepted true)]) (by decide), by decide⟩,
    ⟨_, _, path_play (begun [.sweepOnce, .alerts ask, .dispatch (.accepted true), .sweepEnd,
      .restart, .replayPending true, .release 0, .start true, .delivered 0 (.ok true)])
      (by decide), by decide⟩⟩

end OpenRig.OutboundDriver
