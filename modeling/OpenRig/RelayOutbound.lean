import OpenRig.RelayEnvelope
import OpenRig.Runs

/-!
The relay transport: the dispatch buffer, the deliveries under way, and the journal of all that is
written durably or sent.

A delivery runs without an await from its reads of the stores to its POST, and again from the
answer to its return. The journal holds the newest event first; the stores are read off it.
-/

namespace OpenRig.RelayOutbound

open OpenRig.Runs OpenRig.RelayEnvelope

/-- What the gateway writes or sends. `posted` is told with the era of its delivery: how often the
engine had by then dropped a decision of that id by a verdict of its own. -/
inductive Event where
  | enqueued (d : OutboundDecision)
  | attempted (decisionId : String)
  | posted (d : OutboundDecision) (envelope : RelayOutboundEnvelope) (era : ℕ)
  /-- A 2xx answer. -/
  | accepted (decisionId : String)
  | receipt (info : RelayAcceptedReceiptInfo)
  | seen (key : String)
  | delivered (decisionId : String)
  /-- `deliver` returned ok. -/
  | returnedOk (d : OutboundDecision)
  | acked (decisionId : String)
  /-- Acked on a verdict of the engine, which did not hand the decision to `deliver`. -/
  | dropped (decisionId : String)
  deriving DecidableEq

inductive Stage where
  | waiting
  /-- The engine found no attempt on record and weighs the decision. -/
  | considering
  /-- The answer to a POST is awaited, with the stores as they were read before it. -/
  | posting (outboundSeen delivered : List String)
  /-- Returned ok, by `deliver` or by a verdict of the engine; not yet acked. -/
  | returned (verdict : Bool)
  deriving DecidableEq

structure Delivery where
  decision : OutboundDecision
  era : ℕ
  stage : Stage := .waiting
  deriving DecidableEq

structure Gateway where
  buffer : List OutboundDecision := []
  deliveries : List Delivery := []
  journal : List Event := []
  deriving DecidableEq

/-- How the writes of `completeLocalGuards` go. -/
structure GuardIo where
  seenRecorded : Bool := true
  deliveredRecorded : Bool := true
  /-- No crash between the delivered mark and the return. -/
  returns : Bool := true
  deriving DecidableEq

/-- How an attempt goes, up to its POST. -/
structure AttemptIo where
  storesRead : Bool := true
  receiptsRead : Bool := true
  profileReady : Bool := true
  stopped : Bool := false
  attemptRecorded : Bool := true
  /-- `postRelayEnvelope` comes to its fetch: the endpoint, the token and the envelope pass. -/
  sends : Bool := true
  guards : GuardIo := {}
  deriving DecidableEq

namespace Gateway

/-! ### The stores -/

def attempted (s : Gateway) : List String :=
  s.journal.filterMap fun | .attempted id => some id | _ => none

def delivered (s : Gateway) : List String :=
  s.journal.filterMap fun | .delivered id => some id | _ => none

def outboundSeen (s : Gateway) : List String :=
  s.journal.filterMap fun | .seen key => some key | _ => none

def receipts (s : Gateway) : List RelayAcceptedReceiptInfo :=
  s.journal.filterMap fun | .receipt info => some info | _ => none

def hasAcceptedReceipt (s : Gateway) (key : String × String) : Bool :=
  s.receipts.any fun i => i.key = key

/-- How often the engine has dropped a decision of this id. -/
def era (s : Gateway) (decisionId : String) : ℕ := s.journal.count (.dropped decisionId)

def log (s : Gateway) (e : Event) : Gateway := { s with journal := e :: s.journal }

def logIf (s : Gateway) (c : Prop) [Decidable c] (e : Event) : Gateway := if c then s.log e else s

/-! ### The dispatcher and its buffer -/

def pending (s : Gateway) (decisionId : String) : Bool :=
  s.buffer.any fun d => d.decisionId = decisionId

def enqueue (s : Gateway) (d : OutboundDecision) : Gateway :=
  if s.pending d.decisionId then s
  else ({ s with buffer := s.buffer ++ [d] } : Gateway).log (.enqueued d)

/-- The delivery of a decision begins. -/
def send (s : Gateway) (d : OutboundDecision) : Gateway :=
  { s with deliveries := s.deliveries ++ [{ decision := d, era := s.era d.decisionId }] }

/-- `dispatch`, with an id of the caller's or one newly made. -/
def dispatch (r : Rendering) (o : PrepareRelayDecisionOpts) (s : Gateway) (d : OutboundDecision)
    (supplied : Bool) : Gateway :=
  if supplied ∧ s.pending d.decisionId then s
  else
    let d := prepareRelayDecision r o d
    (s.enqueue d).send d

def replayPending (s : Gateway) : Gateway :=
  { s with deliveries := s.deliveries ++
      s.buffer.map fun d => { decision := d, era := s.era d.decisionId } }

/-! ### A delivery -/

/-- The delivery ends without an ack; the decision stays in the buffer. -/
def retain (s : Gateway) (i : ℕ) : Gateway := { s with deliveries := s.deliveries.eraseIdx i }

def setStage (s : Gateway) (i : ℕ) (v : Delivery) (stage : Stage) : Gateway :=
  { s with deliveries := s.deliveries.set i { v with stage } }

/-- `completeLocalGuards`, given the stores as the attempt read them. -/
def completeLocalGuards (s : Gateway) (i : ℕ) (v : Delivery) (outboundSeen delivered : List String)
    (io : GuardIo) : Gateway :=
  let p := v.decision.payload
  let marksSeen := p.qitemId ≠ "" ∧ p.deliveryDigestPost = false ∧ p.key ∉ outboundSeen
  if marksSeen ∧ io.seenRecorded = false then s.retain i
  else
    let s := s.logIf marksSeen (.seen p.key)
    if v.decision.decisionId ∉ delivered ∧ io.deliveredRecorded = false then s.retain i
    else
      let s := s.logIf (v.decision.decisionId ∉ delivered) (.delivered v.decision.decisionId)
      if !io.returns then s.retain i
      else (s.log (.returnedOk v.decision)).setStage i v (.returned false)

/-- All the receipts a decision owes are recorded, and it owes some. -/
def alreadyReceipted (s : Gateway) (expected : List RelayAcceptedReceiptInfo) : Bool :=
  expected ≠ [] ∧ expected.all fun i => s.hasAcceptedReceipt i.key

/-- `deliver`, up to the answer to its POST. -/
def attempt (r : Rendering) (s : Gateway) (i : ℕ) (v : Delivery) (io : AttemptIo) : Gateway :=
  let d := v.decision
  if !io.storesRead then s.retain i
  else
    match d.payload.relayConnectorRef.filter (· ≠ ""), d.payload.relayEnvelope with
    | some connectorRef, some envelope =>
      let expected := buildExpectedReceipts r.hashRelayReplyRef d connectorRef envelope
      if !io.receiptsRead then s.retain i
      else if d.decisionId ∈ s.delivered ∨ s.alreadyReceipted expected then
        s.completeLocalGuards i v s.outboundSeen s.delivered io.guards
      else if !io.profileReady then s.retain i
      else if io.stopped then s.retain i
      else if d.decisionId ∉ s.attempted ∧ io.attemptRecorded = false then s.retain i
      else
        let before := s
        let s := s.logIf (d.decisionId ∉ s.attempted) (.attempted d.decisionId)
        if !io.sends then s.retain i
        else
          (s.log (.posted d envelope v.era)).setStage i v
            (.posting before.outboundSeen before.delivered)
    | _, _ => s.retain i

/-- The loop of `deliver` that records acceptance. -/
def recordReceipts (s : Gateway) : List RelayAcceptedReceiptInfo → Gateway
  | [] => s
  | receipt :: rest =>
    (if s.hasAcceptedReceipt receipt.key then s else s.log (.receipt receipt)).recordReceipts rest

/-- `deliver`, from the answer to its return. `recorded` is how many receipts the loop comes to
before a write throws. -/
def answer (r : Rendering) (s : Gateway) (i : ℕ) (v : Delivery)
    (outboundSeen delivered : List String) (accepted : Bool) (recorded : ℕ) (io : GuardIo) :
    Gateway :=
  let d := v.decision
  if !accepted then s.retain i
  else
    match d.payload.relayConnectorRef.filter (· ≠ ""), d.payload.relayEnvelope with
    | some connectorRef, some envelope =>
      let expected := buildExpectedReceipts r.hashRelayReplyRef d connectorRef envelope
      let s := (s.log (.accepted d.decisionId)).recordReceipts (expected.take recorded)
      if recorded < expected.length then s.retain i
      else s.completeLocalGuards i v outboundSeen delivered io
    | _, _ => s.retain i

/-- `onAck`, and whether the buffer could be written. -/
def ack (s : Gateway) (i : ℕ) (v : Delivery) (verdict written : Bool) : Gateway :=
  let id := v.decision.decisionId
  let s := s.retain i
  if !written then s
  else
    ({ s with buffer := s.buffer.filter fun d => d.decisionId ≠ id } : Gateway).log
      (if verdict then .dropped id else .acked id)

end Gateway

/-- What a dispatched decision may be. An id newly made is new; an id of the caller's names the
notifications it stands for. Callers pass unprepared payloads; the recipient is a relay's. -/
structure Mintable (r : Rendering) (o : PrepareRelayDecisionOpts) (s : Gateway)
    (d : OutboundDecision) (supplied : Bool) : Prop where
  unprepared : d.payload.relayEnvelope = none
  prepared : (prepareRelayDecision r o d).payload.frozen = true
  fresh : supplied = false → ∀ e, Event.enqueued e ∈ s.journal → e.decisionId ≠ d.decisionId
  stable : ∀ e, Event.enqueued e ∈ s.journal → e.decisionId = d.decisionId →
    ∀ k, k ∈ expectedKeys e.payload ↔ k ∈ expectedKeys d.payload

inductive Label where
  | dispatch (o : PrepareRelayDecisionOpts) (d : OutboundDecision) (supplied : Bool)
  | crash
  | replay
  /-- The engine reads the attempts. -/
  | consider (i : ℕ)
  /-- The engine rules the decision out: held, digested, deferred or stale. -/
  | verdict (i : ℕ)
  /-- The engine throws or retains. -/
  | giveUp (i : ℕ)
  | attempt (i : ℕ) (io : AttemptIo)
  | answer (i : ℕ) (accepted : Bool) (recorded : ℕ) (io : GuardIo)
  | ack (i : ℕ) (written : Bool)
  /-- Another writer of the outbound seen store. -/
  | seen (key : String)

/-- One step, if it can be taken. Deliveries interleave in any order; a crash takes those under
way. -/
def step (r : Rendering) (s : Gateway) : Label → Option Gateway
  | .dispatch o d supplied => some (s.dispatch r o d supplied)
  | .crash => some { s with deliveries := [] }
  | .replay => some s.replayPending
  | .consider i => do
    let v ← s.deliveries[i]?
    if v.stage = .waiting ∧ v.decision.decisionId ∉ s.attempted then
      some (s.setStage i v .considering)
    else none
  | .verdict i => do
    let v ← s.deliveries[i]?
    if v.stage = .considering then some (s.setStage i v (.returned true)) else none
  | .giveUp i => do
    let v ← s.deliveries[i]?
    if v.stage = .waiting ∨ v.stage = .considering then some (s.retain i) else none
  | .attempt i io => do
    let v ← s.deliveries[i]?
    if v.stage = .waiting ∨ v.stage = .considering then some (s.attempt r i v io) else none
  | .answer i accepted recorded io => do
    let v ← s.deliveries[i]?
    match v.stage with
    | .posting outboundSeen delivered =>
      some (s.answer r i v outboundSeen delivered accepted recorded io)
    | _ => none
  | .ack i written => do
    let v ← s.deliveries[i]?
    match v.stage with
    | .returned verdict => some (s.ack i v verdict written)
    | _ => none
  | .seen key => some (s.log (.seen key))

def Permitted (r : Rendering) (s : Gateway) : Label → Prop
  | .dispatch o d supplied => Mintable r o s d supplied
  | _ => True

def Step (r : Rendering) (s : Gateway) (l : Label) (t : Gateway) : Prop :=
  Permitted r s l ∧ step r s l = some t

/-! ### Reading the journal -/

section Stores

variable {s : Gateway}

@[simp] lemma mem_attempted {id : String} : id ∈ s.attempted ↔ .attempted id ∈ s.journal := by
  unfold Gateway.attempted
  rw [List.mem_filterMap]
  constructor
  · rintro ⟨e, he, h⟩
    cases e <;> simp_all
  · exact fun h => ⟨_, h, rfl⟩

@[simp] lemma mem_delivered {id : String} : id ∈ s.delivered ↔ .delivered id ∈ s.journal := by
  unfold Gateway.delivered
  rw [List.mem_filterMap]
  constructor
  · rintro ⟨e, he, h⟩
    cases e <;> simp_all
  · exact fun h => ⟨_, h, rfl⟩

@[simp] lemma mem_receipts {i : RelayAcceptedReceiptInfo} :
    i ∈ s.receipts ↔ .receipt i ∈ s.journal := by
  unfold Gateway.receipts
  rw [List.mem_filterMap]
  constructor
  · rintro ⟨e, he, h⟩
    cases e <;> simp_all
  · exact fun h => ⟨_, h, rfl⟩

end Stores

def Recorded (j : List Event) (key : String × String) : Prop :=
  ∃ i, .receipt i ∈ j ∧ i.key = key

/-- Every receipt the decision owes is recorded. -/
def AllRecorded (j : List Event) (d : OutboundDecision) : Prop :=
  ∀ key ∈ expectedKeys d.payload, Recorded j key

/-- The decision's own POST was answered 2xx, or the receipts it owes (some) were all recorded for
other deliveries. -/
def Earned (j : List Event) (d : OutboundDecision) : Prop :=
  .accepted d.decisionId ∈ j ∨
    (expectedKeys d.payload ≠ [] ∧ ∀ key ∈ expectedKeys d.payload,
      ∃ i, .receipt i ∈ j ∧ i.key = key ∧ i.deliveryId ≠ d.decisionId)

lemma hasAcceptedReceipt_iff {s : Gateway} {key : String × String} :
    s.hasAcceptedReceipt key = true ↔ Recorded s.journal key := by
  simp [Gateway.hasAcceptedReceipt, Recorded]

/-- What must have come before an event. -/
def Accounted (before : List Event) : Event → Prop
  | .posted d envelope era =>
    .enqueued d ∈ before ∧ d.payload.relayEnvelope = some envelope ∧
      envelope.deliveryId = d.decisionId ∧ .attempted d.decisionId ∈ before ∧
      .delivered d.decisionId ∉ before ∧ ¬(expectedKeys d.payload ≠ [] ∧ AllRecorded before d) ∧
      ∀ d' envelope', .posted d' envelope' era ∈ before → d'.decisionId = d.decisionId →
        envelope' = envelope
  | .accepted id => ∃ d envelope era, .posted d envelope era ∈ before ∧ d.decisionId = id
  | .receipt i => .accepted i.deliveryId ∈ before
  | .delivered id =>
    ∃ d, .enqueued d ∈ before ∧ d.decisionId = id ∧ Earned before d ∧ AllRecorded before d
  | .returnedOk d => Earned before d ∧ AllRecorded before d
  | .acked id => ∃ d, .returnedOk d ∈ before ∧ d.decisionId = id
  | _ => True

/-- Every event of a journal, newest first, is accounted for. -/
def Sound : List Event → Prop
  | [] => True
  | e :: before => Accounted before e ∧ Sound before

lemma Sound.at {after before : List Event} {e : Event} (h : Sound (after ++ e :: before)) :
    Accounted before e := by
  induction after with
  | nil => exact h.1
  | cons _ after ih => exact ih h.2

lemma Sound.of_mem {j : List Event} (h : Sound j) {e : Event} (he : e ∈ j) :
    ∃ before, before ⊆ j ∧ Accounted before e := by
  obtain ⟨after, before, rfl⟩ := List.append_of_mem he
  exact ⟨before, fun x hx => by simp [hx], h.at⟩

lemma Sound.receipt_accepted {j : List Event} (h : Sound j) {i : RelayAcceptedReceiptInfo}
    (hi : .receipt i ∈ j) : .accepted i.deliveryId ∈ j := by
  obtain ⟨before, hsub, ha⟩ := h.of_mem hi
  exact hsub ha

lemma Sound.posted_envelope {j : List Event} (h : Sound j) {d : OutboundDecision}
    {envelope : RelayOutboundEnvelope} {era : ℕ} (hp : .posted d envelope era ∈ j) :
    d.payload.relayEnvelope = some envelope := by
  obtain ⟨_, -, ha⟩ := h.of_mem hp
  exact ha.2.1

section Growth

variable {j j' : List Event} {d d' : OutboundDecision}

lemma AllRecorded.mono (h : AllRecorded j d) (hj : j ⊆ j') : AllRecorded j' d :=
  fun key hk => (h key hk).imp fun _ ⟨hi, hkey⟩ => ⟨hj hi, hkey⟩

lemma Earned.mono (h : Earned j d) (hj : j ⊆ j') : Earned j' d := by
  rcases h with h | ⟨hne, h⟩
  · exact .inl (hj h)
  · exact .inr ⟨hne, fun key hk => (h key hk).imp fun _ ⟨hi, hi'⟩ => ⟨hj hi, hi'⟩⟩

lemma AllRecorded.congr (h : AllRecorded j d)
    (hk : ∀ k, k ∈ expectedKeys d.payload ↔ k ∈ expectedKeys d'.payload) : AllRecorded j d' :=
  fun key hkey => h key ((hk key).mpr hkey)

lemma Earned.congr (h : Earned j d) (hid : d.decisionId = d'.decisionId)
    (hk : ∀ k, k ∈ expectedKeys d.payload ↔ k ∈ expectedKeys d'.payload) : Earned j d' := by
  rcases h with h | ⟨hne, h⟩
  · exact .inl (hid ▸ h)
  · refine .inr ⟨?_, fun key hkey => ?_⟩
    · obtain ⟨k, hmem⟩ := List.exists_mem_of_ne_nil _ hne
      exact List.ne_nil_of_mem ((hk k).mp hmem)
    · rw [← hid]
      exact h key ((hk key).mpr hkey)

lemma earned_of_recorded (hs : Sound j) (hne : expectedKeys d.payload ≠ [])
    (h : AllRecorded j d) : Earned j d := by
  by_cases ha : .accepted d.decisionId ∈ j
  · exact .inl ha
  · refine .inr ⟨hne, fun key hk => ?_⟩
    obtain ⟨i, hi, hkey⟩ := h key hk
    refine ⟨i, hi, hkey, fun hid => ha ?_⟩
    rw [← hid]
    exact hs.receipt_accepted hi

end Growth

/-! ### The invariant -/

/-- What a delivery's stage says of the journal. -/
def StageOk (j : List Event) (v : Delivery) : Prop :=
  match v.stage with
  | .posting _ delivered =>
    (∀ id ∈ delivered, .delivered id ∈ j) ∧ ∃ envelope era, .posted v.decision envelope era ∈ j
  | .returned false => .returnedOk v.decision ∈ j ∧ .delivered v.decision.decisionId ∈ j
  | _ => True

lemma StageOk.mono {j j' : List Event} {v : Delivery} (h : StageOk j v) (hj : j ⊆ j') :
    StageOk j' v := by
  unfold StageOk at h ⊢
  split
  · rename_i heq
    rw [heq] at h
    exact ⟨fun id hid => hj (h.1 id hid), h.2.imp fun _ => Exists.imp fun _ => @hj _⟩
  · rename_i heq
    rw [heq] at h
    exact ⟨hj h.1, hj h.2⟩
  · trivial

/-- The decision is or was in a delivery, or in a POST, of that era. -/
def Holds (s : Gateway) (d : OutboundDecision) (era : ℕ) : Prop :=
  (∃ v ∈ s.deliveries, v.decision = d ∧ v.era = era) ∨
    ∃ envelope, .posted d envelope era ∈ s.journal

structure Inv (s : Gateway) : Prop where
  sound : Sound s.journal
  unique : ∀ d ∈ s.buffer, ∀ d' ∈ s.buffer, d.decisionId = d'.decisionId → d = d'
  enqueued : ∀ d ∈ s.buffer, .enqueued d ∈ s.journal
  started : ∀ v ∈ s.deliveries, .enqueued v.decision ∈ s.journal
  stages : ∀ v ∈ s.deliveries, StageOk s.journal v
  /-- The envelope frozen onto an enqueued decision is sent under its id. -/
  named : ∀ d, .enqueued d ∈ s.journal →
    ∃ envelope, d.payload.relayEnvelope = some envelope ∧ envelope.deliveryId = d.decisionId
  stable : ∀ d d', .enqueued d ∈ s.journal → .enqueued d' ∈ s.journal →
    d.decisionId = d'.decisionId → ∀ k, k ∈ expectedKeys d.payload ↔ k ∈ expectedKeys d'.payload
  kept : ∀ d, .enqueued d ∈ s.journal →
    d ∈ s.buffer ∨ .acked d.decisionId ∈ s.journal ∨ .dropped d.decisionId ∈ s.journal
  /-- What is held in the present era is in the buffer, or delivered. -/
  present : ∀ d era, Holds s d era → era ≤ s.era d.decisionId ∧
    (era = s.era d.decisionId → d ∈ s.buffer ∨ .delivered d.decisionId ∈ s.journal)
  /-- One era holds one decision of an id, until it is delivered. -/
  one : ∀ d d' era, Holds s d era → Holds s d' era → d.decisionId = d'.decisionId →
    d = d' ∨ .delivered d.decisionId ∈ s.journal

/-- Events that touch neither the buffer nor what is held. -/
def Event.quiet : Event → Bool
  | .enqueued _ | .posted _ _ _ | .dropped _ => false
  | _ => true

section Steps

variable {s : Gateway}

lemma Inv.settled (h : Inv s) {d : OutboundDecision} (he : .enqueued d ∈ s.journal)
    (hd : .delivered d.decisionId ∈ s.journal) : Earned s.journal d ∧ AllRecorded s.journal d := by
  obtain ⟨before, hsub, e, hen, hid, hearned, hall⟩ := h.sound.of_mem hd
  have hk := h.stable e d (hsub hen) he hid
  exact ⟨(hearned.mono hsub).congr hid hk, (hall.mono hsub).congr hk⟩

lemma mem_log_of_not_quiet {e x : Event} (hq : e.quiet = true) (hx : x.quiet = false) :
    x ∈ (s.log e).journal ↔ x ∈ s.journal := by
  unfold Gateway.log
  constructor
  · intro h
    rcases List.mem_cons.mp h with rfl | h
    · simp [hq] at hx
    · exact h
  · exact List.mem_cons_of_mem _

lemma era_log_of_quiet {e : Event} (hq : e.quiet = true) (id : String) :
    (s.log e).era id = s.era id := by
  unfold Gateway.era Gateway.log
  apply List.count_cons_of_ne
  rintro rfl
  simp [Event.quiet] at hq

lemma holds_log_of_quiet {e : Event} (hq : e.quiet = true) {d : OutboundDecision} {era : ℕ} :
    Holds (s.log e) d era ↔ Holds s d era := by
  unfold Holds
  simp only [mem_log_of_not_quiet hq (x := .posted d _ era) rfl]
  rfl

lemma log_subset (e : Event) : s.journal ⊆ (s.log e).journal := List.subset_cons_self _ _

lemma Inv.log (h : Inv s) {e : Event} (hq : e.quiet = true) (ha : Accounted s.journal e) :
    Inv (s.log e) := by
  have hsub := log_subset (s := s) e
  have hen : ∀ d, .enqueued d ∈ (s.log e).journal ↔ .enqueued d ∈ s.journal := fun d =>
    mem_log_of_not_quiet hq rfl
  refine ⟨⟨ha, h.sound⟩, h.unique, fun d hd => hsub (h.enqueued d hd),
    fun v hv => hsub (h.started v hv), fun v hv => (h.stages v hv).mono hsub,
    fun d hd => h.named d ((hen d).mp hd),
    fun d d' hd hd' => h.stable d d' ((hen d).mp hd) ((hen d').mp hd'), ?_, ?_, ?_⟩
  · intro d hdj
    rcases h.kept d ((hen d).mp hdj) with hb | ha | hdr
    · exact .inl hb
    · exact .inr (.inl (hsub ha))
    · exact .inr (.inr (hsub hdr))
  · intro d era hh
    rw [era_log_of_quiet hq]
    obtain ⟨hle, hp⟩ := h.present d era ((holds_log_of_quiet hq).mp hh)
    exact ⟨hle, fun he => (hp he).imp_right (@hsub _)⟩
  · intro d d' era hh hh' hid
    exact (h.one d d' era ((holds_log_of_quiet hq).mp hh) ((holds_log_of_quiet hq).mp hh')
      hid).imp_right (@hsub _)

lemma Inv.moved (h : Inv s) {l : List Delivery}
    (hl : ∀ v ∈ l, (∃ v₀ ∈ s.deliveries, v₀.decision = v.decision ∧ v₀.era = v.era) ∧
      StageOk s.journal v) : Inv { s with deliveries := l } := by
  have hh : ∀ d era, Holds { s with deliveries := l } d era → Holds s d era := by
    rintro d era (⟨v, hv, hd, he⟩ | hp)
    · obtain ⟨⟨v₀, hv₀, hd₀, he₀⟩, -⟩ := hl v hv
      exact .inl ⟨v₀, hv₀, hd₀.trans hd, he₀.trans he⟩
    · exact .inr hp
  refine ⟨h.sound, h.unique, h.enqueued, ?_, fun v hv => (hl v hv).2, h.named, h.stable,
    h.kept, fun d era hd => h.present d era (hh d era hd),
    fun d d' era hd hd' => h.one d d' era (hh d era hd) (hh d' era hd')⟩
  intro v hv
  obtain ⟨⟨v₀, hv₀, hd₀, -⟩, -⟩ := hl v hv
  exact hd₀ ▸ h.started v₀ hv₀

lemma Inv.retain (h : Inv s) (i : ℕ) : Inv (s.retain i) := by
  refine h.moved fun v hv => ?_
  have hv := List.mem_of_mem_eraseIdx hv
  exact ⟨⟨v, hv, rfl, rfl⟩, h.stages v hv⟩

lemma Inv.setStage (h : Inv s) {i : ℕ} {v : Delivery} (hv : v ∈ s.deliveries) {stage : Stage}
    (hs : StageOk s.journal { v with stage }) : Inv (s.setStage i v stage) := by
  refine h.moved fun w hw => ?_
  rcases List.mem_or_eq_of_mem_set hw with hw | rfl
  · exact ⟨⟨w, hw, rfl, rfl⟩, h.stages w hw⟩
  · exact ⟨⟨v, hv, rfl, rfl⟩, hs⟩

lemma Inv.begun (h : Inv s) {l : List OutboundDecision} (hl : ∀ d ∈ l, d ∈ s.buffer) :
    Inv { s with deliveries := s.deliveries ++
      (l.map fun d => { decision := d, era := s.era d.decisionId }) } := by
  have hh : ∀ d era, Holds { s with deliveries := s.deliveries ++
      (l.map fun d => { decision := d, era := s.era d.decisionId }) } d era →
      Holds s d era ∨ (d ∈ s.buffer ∧ era = s.era d.decisionId) := by
    rintro d era (⟨v, hv, rfl, rfl⟩ | hp)
    · rcases List.mem_append.mp hv with hv | hv
      · exact .inl (.inl ⟨v, hv, rfl, rfl⟩)
      · obtain ⟨d, hd, rfl⟩ := List.mem_map.mp hv
        exact .inr ⟨hl d hd, rfl⟩
    · exact .inl (.inr hp)
  refine ⟨h.sound, h.unique, h.enqueued, ?_, ?_, h.named, h.stable, h.kept, ?_, ?_⟩
  · intro v hv
    rcases List.mem_append.mp hv with hv | hv
    · exact h.started v hv
    · obtain ⟨d, hd, rfl⟩ := List.mem_map.mp hv
      exact h.enqueued d (hl d hd)
  · intro v hv
    rcases List.mem_append.mp hv with hv | hv
    · exact h.stages v hv
    · obtain ⟨d, hd, rfl⟩ := List.mem_map.mp hv
      trivial
  · intro d era hd
    rcases hh d era hd with hd | ⟨hb, rfl⟩
    · exact h.present d era hd
    · exact ⟨le_rfl, fun _ => .inl hb⟩
  · intro d d' era hd hd' hid
    rcases hh d era hd with hd | ⟨hb, rfl⟩ <;> rcases hh d' _ hd' with hd' | ⟨hb', he'⟩
    · exact h.one d d' era hd hd' hid
    · subst he'
      rcases (h.present d _ hd).2 (by rw [hid]) with hb | hdel
      · exact .inl (h.unique d hb d' hb' hid)
      · exact .inr hdel
    · rcases (h.present d' _ hd').2 (by rw [hid]) with hb' | hdel
      · exact .inl (h.unique d hb d' hb' hid)
      · exact .inr (hid ▸ hdel)
    · exact .inl (h.unique d hb d' hb' hid)


lemma Inv.enqueue (h : Inv s) {d : OutboundDecision} (hp : s.pending d.decisionId = false)
    (hn : ∃ envelope, d.payload.relayEnvelope = some envelope ∧
      envelope.deliveryId = d.decisionId)
    (hk : ∀ e, Event.enqueued e ∈ s.journal → e.decisionId = d.decisionId →
      ∀ k, k ∈ expectedKeys e.payload ↔ k ∈ expectedKeys d.payload) : Inv (s.enqueue d) := by
  have hnew : ∀ e ∈ s.buffer, e.decisionId ≠ d.decisionId := by
    intro e he heq
    have : s.pending d.decisionId = true := List.any_eq_true.mpr ⟨e, he, by simpa using heq⟩
    simp [this] at hp
  unfold Gateway.enqueue
  rw [if_neg (by simp [hp])]
  have hmem : ∀ x : Event, x ≠ .enqueued d →
      (x ∈ Event.enqueued d :: s.journal ↔ x ∈ s.journal) := by
    intro x hx
    simp [hx]
  have hsub : s.journal ⊆ Event.enqueued d :: s.journal := List.subset_cons_self _ _
  have hera : ∀ id, List.count (Event.dropped id) (Event.enqueued d :: s.journal) = s.era id :=
    fun id => List.count_cons_of_ne (by simp)
  have hholds : ∀ {d' era}, Holds (({ s with buffer := s.buffer ++ [d] } : Gateway).log
      (.enqueued d)) d' era → Holds s d' era := by
    rintro d' era (hv | ⟨envelope, hp⟩)
    · exact .inl hv
    · exact .inr ⟨envelope, (hmem _ (by simp)).mp hp⟩
  refine ⟨⟨trivial, h.sound⟩, ?_, ?_, fun v hv => hsub (h.started v hv),
    fun v hv => (h.stages v hv).mono hsub, ?_, ?_, ?_, ?_, ?_⟩
  · intro e he e' he' hid
    rcases List.mem_append.mp he with hb | hb <;> rcases List.mem_append.mp he' with hb' | hb'
    · exact h.unique e hb e' hb' hid
    · obtain rfl := List.mem_singleton.mp hb'
      exact absurd hid (hnew e hb)
    · obtain rfl := List.mem_singleton.mp hb
      exact absurd hid.symm (hnew e' hb')
    · rw [List.mem_singleton.mp hb, List.mem_singleton.mp hb']
  · intro e he
    rcases List.mem_append.mp he with he | he
    · exact hsub (h.enqueued e he)
    · obtain rfl := List.mem_singleton.mp he
      exact List.mem_cons_self
  · intro e he
    rcases List.mem_cons.mp he with heq | he
    · obtain rfl := Event.enqueued.inj heq
      exact hn
    · exact h.named e he
  · intro e e' he he' hid k
    rcases List.mem_cons.mp he with heq | he <;> rcases List.mem_cons.mp he' with heq' | he'
    · rw [Event.enqueued.inj heq, Event.enqueued.inj heq']
    · obtain rfl := Event.enqueued.inj heq
      exact (hk e' he' hid.symm k).symm
    · obtain rfl := Event.enqueued.inj heq'
      exact hk e he hid k
    · exact h.stable e e' he he' hid k
  · intro e he
    rcases List.mem_cons.mp he with heq | he
    · obtain rfl := Event.enqueued.inj heq
      exact .inl (by simp [Gateway.log])
    · rcases h.kept e he with hb | ha | hdr
      · exact .inl (by simp [Gateway.log, hb])
      · exact .inr (.inl (hsub ha))
      · exact .inr (.inr (hsub hdr))
  · intro e era he
    obtain ⟨hle, hp⟩ := h.present e era (hholds he)
    refine ⟨by rw [← hera] at hle; exact hle, fun heq => ?_⟩
    rcases hp (heq.trans (hera _)) with hb | hdel
    · exact .inl (by simp [Gateway.log, hb])
    · exact .inr (hsub hdel)
  · intro e e' era he he' hid
    exact (h.one e e' era (hholds he) (hholds he') hid).imp_right (@hsub _)

lemma Inv.dispatch {r : Rendering} {o : PrepareRelayDecisionOpts} (h : Inv s)
    {d : OutboundDecision} {supplied : Bool} (hm : Mintable r o s d supplied) :
    Inv (s.dispatch r o d supplied) := by
  unfold Gateway.dispatch
  split
  · exact h
  rename_i hnot
  have hp : s.pending (prepareRelayDecision r o d).decisionId = false := by
    rw [prepare_decisionId, Bool.eq_false_iff]
    intro hpend
    cases supplied with
    | true => exact hnot ⟨rfl, hpend⟩
    | false =>
      obtain ⟨e, he, heq⟩ := List.any_eq_true.mp hpend
      exact hm.fresh rfl e (h.enqueued e he) (by simpa using heq)
  have hframe := hm.prepared
  unfold RelayPayloadCarry.frozen at hframe
  rw [Bool.and_eq_true] at hframe
  obtain ⟨envelope, henv⟩ := Option.isSome_iff_exists.mp hframe.1
  have hid := prepare_deliveryId r o hm.unprepared henv
  have hk : ∀ e, Event.enqueued e ∈ s.journal →
      e.decisionId = (prepareRelayDecision r o d).decisionId → ∀ k, k ∈ expectedKeys e.payload ↔
        k ∈ expectedKeys (prepareRelayDecision r o d).payload := by
    intro e he heq k
    rw [prepare_expectedKeys]
    exact hm.stable e he (by rw [heq, prepare_decisionId]) k
  have hq := h.enqueue hp ⟨envelope, henv, by rw [hid, prepare_decisionId]⟩ hk
  refine hq.begun (l := [prepareRelayDecision r o d]) fun e he => ?_
  obtain rfl := List.mem_singleton.mp he
  unfold Gateway.enqueue
  rw [if_neg (by rw [hp]; exact Bool.false_ne_true)]
  simp [Gateway.log]

/-! ### A delivery keeps it -/

lemma Inv.logIf (h : Inv s) {c : Prop} [Decidable c] {e : Event} (hq : e.quiet = true)
    (ha : c → Accounted s.journal e) : Inv (s.logIf c e) := by
  unfold Gateway.logIf
  split
  · rename_i hc
    exact h.log hq (ha hc)
  · exact h

@[simp] lemma logIf_deliveries {c : Prop} [Decidable c] {e : Event} :
    (s.logIf c e).deliveries = s.deliveries := by
  unfold Gateway.logIf
  split <;> rfl

lemma logIf_subset {c : Prop} [Decidable c] {e : Event} : s.journal ⊆ (s.logIf c e).journal := by
  unfold Gateway.logIf
  split
  · exact log_subset e
  · exact List.Subset.refl _

lemma mem_logIf {c : Prop} [Decidable c] {e : Event} (hc : c) : e ∈ (s.logIf c e).journal := by
  unfold Gateway.logIf
  rw [if_pos hc]
  exact List.mem_cons_self

lemma mem_of_logIf {c : Prop} [Decidable c] {e x : Event} (hne : x ≠ e)
    (hx : x ∈ (s.logIf c e).journal) : x ∈ s.journal := by
  unfold Gateway.logIf at hx
  split at hx
  · exact (List.mem_cons.mp hx).resolve_left hne
  · exact hx

lemma Inv.completeLocalGuards (h : Inv s) {i : ℕ} {v : Delivery} (hv : v ∈ s.deliveries)
    {outboundSeen delivered : List String} (hdel : ∀ id ∈ delivered, .delivered id ∈ s.journal)
    (he : Earned s.journal v.decision) (ha : AllRecorded s.journal v.decision) (io : GuardIo) :
    Inv (s.completeLocalGuards i v outboundSeen delivered io) := by
  unfold Gateway.completeLocalGuards
  dsimp only
  split
  · exact h.retain i
  set s₁ := s.logIf (v.decision.payload.qitemId ≠ "" ∧
    v.decision.payload.deliveryDigestPost = false ∧ v.decision.payload.key ∉ outboundSeen)
    (.seen v.decision.payload.key) with hs₁
  have h₁ : Inv s₁ := h.logIf rfl fun _ => trivial
  have hsub₁ : s.journal ⊆ s₁.journal := logIf_subset
  split
  · exact h₁.retain i
  set s₂ := s₁.logIf (v.decision.decisionId ∉ delivered) (.delivered v.decision.decisionId) with hs₂
  have hsub₂ : s.journal ⊆ s₂.journal := List.Subset.trans hsub₁ logIf_subset
  have h₂ : Inv s₂ := h₁.logIf rfl fun _ =>
    ⟨v.decision, hsub₁ (h.started v hv), rfl, he.mono hsub₁, ha.mono hsub₁⟩
  split
  · exact h₂.retain i
  have hmark : .delivered v.decision.decisionId ∈ s₂.journal := by
    by_cases hd : v.decision.decisionId ∈ delivered
    · exact hsub₂ (hdel _ hd)
    · exact mem_logIf hd
  have h₃ : Inv (s₂.log (.returnedOk v.decision)) := h₂.log rfl ⟨he.mono hsub₂, ha.mono hsub₂⟩
  refine h₃.setStage ?_ ⟨List.mem_cons_self, log_subset _ hmark⟩
  change v ∈ s₂.deliveries
  rw [hs₂, hs₁]
  simpa using hv

lemma allRecorded_of_alreadyReceipted {hash : String → String} {d : OutboundDecision}
    {connectorRef : String} {envelope : RelayOutboundEnvelope} :
    s.alreadyReceipted (buildExpectedReceipts hash d connectorRef envelope) = true ↔
      expectedKeys d.payload ≠ [] ∧ AllRecorded s.journal d := by
  unfold Gateway.alreadyReceipted AllRecorded
  rw [← buildExpectedReceipts_keys hash d connectorRef envelope]
  simp only [ne_eq, List.map_eq_nil_iff, decide_eq_true_eq, List.all_eq_true, List.mem_map,
    forall_exists_index, and_imp, forall_apply_eq_imp_iff₂, hasAcceptedReceipt_iff]

lemma Inv.post (h : Inv s) {v : Delivery} (hv : v ∈ s.deliveries)
    {envelope : RelayOutboundEnvelope} (henv : v.decision.payload.relayEnvelope = some envelope)
    (hatt : .attempted v.decision.decisionId ∈ s.journal)
    (hdel : .delivered v.decision.decisionId ∉ s.journal)
    (hrec : ¬(expectedKeys v.decision.payload ≠ [] ∧ AllRecorded s.journal v.decision)) :
    Inv (s.log (.posted v.decision envelope v.era)) := by
  have hsub := log_subset (s := s) (.posted v.decision envelope v.era)
  have hheld : Holds s v.decision v.era := .inl ⟨v, hv, rfl, rfl⟩
  have hmem : ∀ x : Event, (∀ d e n, x ≠ .posted d e n) →
      (x ∈ (s.log (.posted v.decision envelope v.era)).journal ↔ x ∈ s.journal) := by
    intro x hx
    simp [Gateway.log, hx]
  have hera : ∀ id, (s.log (.posted v.decision envelope v.era)).era id = s.era id := fun id =>
    List.count_cons_of_ne (by simp)
  have hholds : ∀ {d era}, Holds (s.log (.posted v.decision envelope v.era)) d era →
      Holds s d era := by
    rintro d era (hd | ⟨e, hp⟩)
    · exact .inl hd
    · rcases List.mem_cons.mp hp with heq | hp
      · obtain ⟨rfl, -, rfl⟩ := Event.posted.inj heq
        exact hheld
      · exact .inr ⟨e, hp⟩
  have hacc : Accounted s.journal (.posted v.decision envelope v.era) := by
    have hen := h.started v hv
    obtain ⟨envelope', henv', hid⟩ := h.named _ hen
    obtain rfl := Option.some.inj (henv.symm.trans henv')
    refine ⟨hen, henv, hid, hatt, hdel, hrec, fun d' e' hp hid' => ?_⟩
    rcases h.one d' v.decision v.era (.inr ⟨e', hp⟩) hheld hid' with rfl | hd
    · exact Option.some.inj ((h.sound.posted_envelope hp).symm.trans henv)
    · exact absurd (hid' ▸ hd) hdel
  refine ⟨⟨hacc, h.sound⟩, h.unique, fun d hd => hsub (h.enqueued d hd),
    fun v hv => hsub (h.started v hv), fun v hv => (h.stages v hv).mono hsub,
    fun d hd => h.named d ((hmem _ (by simp)).mp hd),
    fun d d' hd hd' => h.stable d d' ((hmem _ (by simp)).mp hd) ((hmem _ (by simp)).mp hd'),
    ?_, ?_, ?_⟩
  · intro d hd
    rcases h.kept d ((hmem _ (by simp)).mp hd) with hb | ha | hdr
    · exact .inl hb
    · exact .inr (.inl (hsub ha))
    · exact .inr (.inr (hsub hdr))
  · intro d era hd
    rw [hera]
    obtain ⟨hle, hp⟩ := h.present d era (hholds hd)
    exact ⟨hle, fun he => (hp he).imp_right (@hsub _)⟩
  · intro d d' era hd hd' hid
    exact (h.one d d' era (hholds hd) (hholds hd') hid).imp_right (@hsub _)

lemma Inv.attempt {r : Rendering} (h : Inv s) {i : ℕ} {v : Delivery} (hv : v ∈ s.deliveries)
    (io : AttemptIo) : Inv (s.attempt r i v io) := by
  unfold Gateway.attempt
  dsimp only
  split
  · exact h.retain i
  split
  case h_2 => exact h.retain i
  rename_i connectorRef envelope _ henv
  split
  · exact h.retain i
  split
  · rename_i hdone
    have hearned : Earned s.journal v.decision ∧ AllRecorded s.journal v.decision := by
      rcases hdone with hd | hr
      · exact h.settled (h.started v hv) (mem_delivered.mp hd)
      · obtain ⟨hne, hall⟩ := allRecorded_of_alreadyReceipted.mp hr
        exact ⟨earned_of_recorded h.sound hne hall, hall⟩
    exact h.completeLocalGuards hv (fun id => mem_delivered.mp) hearned.1 hearned.2 _
  rename_i hnot
  split
  · exact h.retain i
  split
  · exact h.retain i
  split
  · exact h.retain i
  push Not at hnot
  set s₁ := s.logIf (v.decision.decisionId ∉ s.attempted) (.attempted v.decision.decisionId)
    with hs₁
  have h₁ : Inv s₁ := h.logIf rfl fun _ => trivial
  have hsub : s.journal ⊆ s₁.journal := logIf_subset
  have hv₁ : v ∈ s₁.deliveries := by simpa [hs₁] using hv
  split
  · exact h₁.retain i
  have hatt : .attempted v.decision.decisionId ∈ s₁.journal := by
    by_cases ha : v.decision.decisionId ∈ s.attempted
    · exact hsub (mem_attempted.mp ha)
    · exact mem_logIf ha
  have h₂ : Inv (s₁.log (.posted v.decision envelope v.era)) := by
    refine h₁.post hv₁ henv hatt ?_ ?_
    · intro hd
      exact hnot.1 (mem_delivered.mpr (mem_of_logIf (by simp) hd))
    · rintro ⟨hne, hall⟩
      refine hnot.2 (allRecorded_of_alreadyReceipted.mpr ⟨hne, fun key hk => ?_⟩)
      obtain ⟨i, hi, hkey⟩ := hall key hk
      exact ⟨i, mem_of_logIf (by simp) hi, hkey⟩
  have hok : StageOk (s₁.log (.posted v.decision envelope v.era)).journal
      { v with stage := .posting s.outboundSeen s.delivered } :=
    ⟨fun id hid => log_subset _ (hsub (mem_delivered.mp hid)), envelope, v.era,
      List.mem_cons_self⟩
  exact h₂.setStage hv₁ hok

lemma Inv.recordReceipts {l : List RelayAcceptedReceiptInfo} (h : Inv s)
    (hl : ∀ i ∈ l, .accepted i.deliveryId ∈ s.journal) :
    Inv (s.recordReceipts l) ∧ (s.recordReceipts l).deliveries = s.deliveries ∧
      s.journal ⊆ (s.recordReceipts l).journal ∧
      ∀ i ∈ l, Recorded (s.recordReceipts l).journal i.key := by
  induction l generalizing s with
  | nil => exact ⟨h, rfl, List.Subset.refl _, by simp⟩
  | cons receipt rest ih =>
    rw [Gateway.recordReceipts]
    set s₁ := if s.hasAcceptedReceipt receipt.key then s else s.log (.receipt receipt) with hs₁
    have h₁ : Inv s₁ ∧ s₁.deliveries = s.deliveries ∧ s.journal ⊆ s₁.journal ∧
        Recorded s₁.journal receipt.key := by
      rw [hs₁]
      split
      · rename_i hr
        exact ⟨h, rfl, List.Subset.refl _, hasAcceptedReceipt_iff.mp hr⟩
      · exact ⟨h.log rfl (hl receipt List.mem_cons_self), rfl, log_subset _, receipt,
          List.mem_cons_self, rfl⟩
    obtain ⟨hi, hd, hsub, hr⟩ := h₁
    obtain ⟨hi', hd', hsub', hr'⟩ :=
      ih hi fun i hmem => hsub (hl i (List.mem_cons_of_mem _ hmem))
    refine ⟨hi', hd'.trans hd, List.Subset.trans hsub hsub', fun i hmem => ?_⟩
    rcases List.mem_cons.mp hmem with rfl | hmem
    · obtain ⟨x, hx, hkey⟩ := hr
      exact ⟨x, hsub' hx, hkey⟩
    · exact hr' i hmem

lemma Inv.answer {r : Rendering} (h : Inv s) {i : ℕ} {v : Delivery} (hv : v ∈ s.deliveries)
    {outboundSeen delivered : List String} (hstage : v.stage = .posting outboundSeen delivered)
    (accepted : Bool) (recorded : ℕ) (io : GuardIo) :
    Inv (s.answer r i v outboundSeen delivered accepted recorded io) := by
  have hok := h.stages v hv
  unfold StageOk at hok
  rw [hstage] at hok
  obtain ⟨hdel, envelope₀, era₀, hposted⟩ := hok
  unfold Gateway.answer
  dsimp only
  split
  · exact h.retain i
  split
  case h_2 => exact h.retain i
  rename_i connectorRef envelope _ _
  set expected := buildExpectedReceipts r.hashRelayReplyRef v.decision connectorRef envelope with hx
  have h₁ : Inv (s.log (.accepted v.decision.decisionId)) :=
    h.log rfl ⟨v.decision, envelope₀, era₀, hposted, rfl⟩
  have hacc : .accepted v.decision.decisionId ∈ (s.log (.accepted v.decision.decisionId)).journal :=
    List.mem_cons_self
  obtain ⟨h₂, hd₂, hsub₂, hrec⟩ := h₁.recordReceipts (l := expected.take recorded) fun x hmem => by
    rw [buildExpectedReceipts_deliveryId (List.mem_of_mem_take hmem)]
    exact hacc
  split
  · exact h₂.retain i
  rename_i hall
  rw [List.take_of_length_le (by omega)] at h₂ hd₂ hsub₂ hrec ⊢
  refine h₂.completeLocalGuards (by rw [hd₂]; exact hv)
    (fun id hid => hsub₂ (log_subset _ (hdel id hid))) (.inl (hsub₂ hacc)) ?_ io
  intro key hk
  rw [← buildExpectedReceipts_keys r.hashRelayReplyRef v.decision connectorRef envelope] at hk
  obtain ⟨x, hmem, rfl⟩ := List.mem_map.mp hk
  exact hrec x hmem

/-- A decision leaves the buffer once its ack is on the journal; what is held of it in the present
era is delivered. -/
lemma Inv.removed (h : Inv s) {id : String}
    (hk : .acked id ∈ s.journal ∨ .dropped id ∈ s.journal)
    (hp : ∀ d, Holds s d (s.era id) → d.decisionId = id → .delivered id ∈ s.journal) :
    Inv { s with buffer := s.buffer.filter fun d => d.decisionId ≠ id } := by
  have hmem : ∀ d, d ∈ s.buffer.filter (fun d => d.decisionId ≠ id) ↔
      d ∈ s.buffer ∧ d.decisionId ≠ id := by
    intro d
    simp
  refine ⟨h.sound, fun d hd d' hd' => h.unique d ((hmem d).mp hd).1 d' ((hmem d').mp hd').1,
    fun d hd => h.enqueued d ((hmem d).mp hd).1, h.started, h.stages, h.named, h.stable, ?_, ?_,
    h.one⟩
  · intro d hd
    by_cases hid : d.decisionId = id
    · exact .inr (hid ▸ hk)
    · exact (h.kept d hd).imp_left fun hb => (hmem d).mpr ⟨hb, hid⟩
  · intro d era hd
    obtain ⟨hle, hb⟩ := h.present d era hd
    refine ⟨hle, fun he => ?_⟩
    by_cases hid : d.decisionId = id
    · subst hid
      exact .inr (hp d (he ▸ hd) rfl)
    · exact (hb he).imp_left fun hb => (hmem d).mpr ⟨hb, hid⟩

lemma Inv.logDropped (h : Inv s) (id : String) :
    Inv (s.log (.dropped id)) ∧
      ∀ d era, Holds s d era → d.decisionId = id → era < (s.log (.dropped id)).era id := by
  have hsub := log_subset (s := s) (.dropped id)
  have hera : ∀ id', s.era id' ≤ (s.log (.dropped id)).era id' := fun id' =>
    List.count_le_count_cons
  have hself : (s.log (.dropped id)).era id = s.era id + 1 := List.count_cons_self
  have hother : ∀ id', id' ≠ id → (s.log (.dropped id)).era id' = s.era id' := by
    intro id' hne
    exact List.count_cons_of_ne (by simpa using hne.symm)
  have hlt : ∀ d era, Holds s d era → d.decisionId = id →
      era < (s.log (.dropped id)).era id := by
    intro d era hd hid
    have := (h.present d era hd).1
    rw [hid] at this
    omega
  have hholds : ∀ {d era}, Holds (s.log (.dropped id)) d era → Holds s d era := by
    rintro d era (hd | ⟨e, hp⟩)
    · exact .inl hd
    · exact .inr ⟨e, by simpa [Gateway.log] using hp⟩
  have hen : ∀ {d}, .enqueued d ∈ (s.log (.dropped id)).journal → .enqueued d ∈ s.journal := by
    intro d hd
    simpa [Gateway.log] using hd
  refine ⟨⟨⟨trivial, h.sound⟩, h.unique, fun d hd => hsub (h.enqueued d hd),
    fun v hv => hsub (h.started v hv), fun v hv => (h.stages v hv).mono hsub,
    fun d hd => h.named d (hen hd), fun d d' hd hd' => h.stable d d' (hen hd) (hen hd'),
    fun d hd => ?_, fun d era hd => ?_, fun d d' era hd hd' hid =>
      (h.one d d' era (hholds hd) (hholds hd') hid).imp_right (@hsub _)⟩, hlt⟩
  · rcases h.kept d (hen hd) with hb | ha | hdr
    · exact .inl hb
    · exact .inr (.inl (hsub ha))
    · exact .inr (.inr (hsub hdr))
  · obtain ⟨hle, hp⟩ := h.present d era (hholds hd)
    refine ⟨hle.trans (hera _), fun he => ?_⟩
    by_cases hid : d.decisionId = id
    · have := hlt d era (hholds hd) hid
      rw [he, hid] at this
      exact absurd this (lt_irrefl _)
    · exact (hp (he.trans (hother _ hid))).imp_right (@hsub _)

lemma Inv.ack (h : Inv s) {i : ℕ} {v : Delivery} (hv : v ∈ s.deliveries) {verdict : Bool}
    (hstage : v.stage = .returned verdict) (written : Bool) :
    Inv (s.ack i v verdict written) := by
  have h₁ := h.retain i
  unfold Gateway.ack
  dsimp only
  split
  · exact h₁
  cases verdict with
  | true =>
    obtain ⟨h₂, hlt⟩ := h₁.logDropped v.decision.decisionId
    refine h₂.removed (.inr List.mem_cons_self) fun d hd hid => ?_
    have hd : Holds (s.retain i) d
        (((s.retain i).log (.dropped v.decision.decisionId)).era v.decision.decisionId) := by
      rcases hd with hd | ⟨e, hp⟩
      · exact .inl hd
      · exact .inr ⟨e, by simpa [Gateway.log] using hp⟩
    exact absurd (hlt d _ hd hid) (lt_irrefl _)
  | false =>
    have hok := h.stages v hv
    unfold StageOk at hok
    rw [hstage] at hok
    have h₂ : Inv ((s.retain i).log (.acked v.decision.decisionId)) :=
      h₁.log rfl ⟨v.decision, hok.1, rfl⟩
    exact h₂.removed (.inl List.mem_cons_self) fun _ _ _ => log_subset _ hok.2

theorem Inv.step {r : Rendering} {l : Label} {t : Gateway} (h : Inv s) (hs : Step r s l t) :
    Inv t := by
  obtain ⟨hp, hs⟩ := hs
  have hat : ∀ {i : ℕ} {f : Delivery → Option Gateway}, (s.deliveries[i]?.bind f) = some t →
      ∃ v ∈ s.deliveries, f v = some t := by
    intro i f hf
    obtain ⟨v, hv, hf⟩ := Option.bind_eq_some_iff.mp hf
    exact ⟨v, List.mem_of_getElem? hv, hf⟩
  cases l with
  | dispatch o d supplied =>
    obtain rfl := Option.some.inj hs
    exact h.dispatch hp
  | crash =>
    obtain rfl := Option.some.inj hs
    exact h.moved (by simp)
  | replay =>
    obtain rfl := Option.some.inj hs
    exact h.begun fun d hd => hd
  | consider i =>
    obtain ⟨v, hv, hf⟩ := hat hs
    obtain ⟨-, ⟨⟩⟩ := Option.ite_none_right_eq_some.mp hf
    exact h.setStage hv trivial
  | verdict i =>
    obtain ⟨v, hv, hf⟩ := hat hs
    obtain ⟨-, ⟨⟩⟩ := Option.ite_none_right_eq_some.mp hf
    exact h.setStage hv trivial
  | giveUp i =>
    obtain ⟨v, hv, hf⟩ := hat hs
    obtain ⟨-, ⟨⟩⟩ := Option.ite_none_right_eq_some.mp hf
    exact h.retain i
  | attempt i io =>
    obtain ⟨v, hv, hf⟩ := hat hs
    obtain ⟨-, ⟨⟩⟩ := Option.ite_none_right_eq_some.mp hf
    exact h.attempt hv io
  | answer i accepted recorded io =>
    obtain ⟨v, hv, hf⟩ := hat hs
    split at hf
    · rename_i outboundSeen delivered hstage
      obtain rfl := Option.some.inj hf
      exact h.answer hv hstage accepted recorded io
    · exact absurd hf.symm (Option.some_ne_none _)
  | ack i written =>
    obtain ⟨v, hv, hf⟩ := hat hs
    split at hf
    · rename_i verdict hstage
      obtain rfl := Option.some.inj hf
      exact h.ack hv hstage written
    · exact absurd hf.symm (Option.some_ne_none _)
  | seen key =>
    obtain rfl := Option.some.inj hs
    exact h.log rfl trivial

lemma Inv.initial : Inv {} := by
  refine ⟨trivial, ?_, ?_, ?_, ?_, ?_, ?_, ?_, ?_, ?_⟩ <;> simp [Holds]

end Steps

/-! ### Every run -/

/-- What the journal of a run must show. -/
structure Accountable (s : Gateway) : Prop where
  /-- A POST is of an enqueued decision, carries its frozen envelope under its own id, the one any
  earlier POST of that id in that era carried, comes after a durable attempt record, and never
  after the delivered mark or all the receipts it owes. -/
  posts : ∀ after before d envelope era, s.journal = after ++ .posted d envelope era :: before →
    .enqueued d ∈ before ∧ d.payload.relayEnvelope = some envelope ∧
      envelope.deliveryId = d.decisionId ∧ .attempted d.decisionId ∈ before ∧
      .delivered d.decisionId ∉ before ∧ ¬(expectedKeys d.payload ≠ [] ∧ AllRecorded before d) ∧
      ∀ d' envelope', .posted d' envelope' era ∈ before → d'.decisionId = d.decisionId →
        envelope' = envelope
  /-- `deliver` returns ok only for a decision that was earned, with all it owes recorded. -/
  returns : ∀ after before d, s.journal = after ++ .returnedOk d :: before →
    Earned before d ∧ AllRecorded before d
  /-- A receipt is recorded only for a delivery that was answered 2xx. -/
  receipts : ∀ after before i, s.journal = after ++ .receipt i :: before →
    .accepted i.deliveryId ∈ before
  /-- An ack follows a return of `deliver`; otherwise the engine dropped the decision. -/
  acks : ∀ after before id, s.journal = after ++ .acked id :: before →
    ∃ d, .returnedOk d ∈ before ∧ d.decisionId = id
  /-- A decision stays in the buffer until then. -/
  kept : ∀ d, .enqueued d ∈ s.journal →
    d ∈ s.buffer ∨ .acked d.decisionId ∈ s.journal ∨ .dropped d.decisionId ∈ s.journal

/-- **Relay delivery**: whatever the order of dispatches, attempts, answers, crashes, replays and
failing stores, every POST of a decision carries the envelope frozen onto it, after a durable
attempt record; `deliver` returns ok only after a 2xx or once all the receipts were there, with
every receipt recorded; nothing is posted after the delivered mark or the last receipt; and no
decision leaves the buffer before. -/
theorem relay_delivery {r : Rendering} {ls : List Label} {s : Gateway}
    (h : Path (Step r) {} ls s) : Accountable s := by
  have hi : Inv s := Path.invariant (I := fun s => Inv s) (fun _ _ _ hs h => h.step hs) h .initial
  refine ⟨?_, ?_, ?_, ?_, hi.kept⟩
  · rintro after before d envelope era hj
    exact (hj ▸ hi.sound).at
  · rintro after before d hj
    exact (hj ▸ hi.sound).at
  · rintro after before i hj
    exact (hj ▸ hi.sound).at
  · rintro after before id hj
    exact (hj ▸ hi.sound).at

/-- A digest of two, whose first POST is lost in a crash, and whose receipts are recorded in two
goes around a failed write. -/
theorem relay_delivery_digest :
    let r : Rendering :=
      { summary := fun text fallback => text.getD fallback
        body := fun p => p.body.getD ""
        itemBody := fun _ body => body.getD ""
        encodeRelayReplyRef := fun ref => ref.decisionId ++ ":" ++ ref.qitemId
        hashRelayReplyRef := id }
    let bridge : HumanConnectorBinding :=
      { kind := "relay", connectorRef := "bridge", primary := true }
    let ann : HumanFragment :=
      { entityId := "ann", address := "ann@external", connectorBindings := [bridge] }
    let o : PrepareRelayDecisionOpts :=
      { loadHumanRegistry := some [ann]
        lookupQuestionState := fun _ _ => none
        resolveOutcome := fun _ => .notify }
    let members : List MemberReceipt :=
      [{ qitemId := "q1", notificationKey := "k1", level := "NOTICE", kind := "note" },
        { qitemId := "q2", notificationKey := "k2", level := "NOTICE", kind := "note" }]
    let d : OutboundDecision :=
      { decisionId := "digest:1"
        op := OUTBOUND_OP
        entityBindingRef := "ann@external"
        payload :=
          { qitemId := "q1", deliveryDigestPost := true, memberReceipts := members } }
    ∃ s, Path (Step r) {} [.dispatch o d true, .attempt 0 {}, .crash, .replay, .attempt 0 {},
        .answer 0 true 1 {}, .replay, .attempt 0 {}, .answer 0 true 2 {}, .ack 0 true] s ∧
      s.buffer = [] ∧ s.receipts.map (·.key) = [("q2", "k2"), ("q1", "k1")] ∧ Accountable s := by
  intro r bridge ann o members d
  have hm : Mintable r o {} d true := ⟨rfl, by decide +kernel, by simp, by simp⟩
  let ls : List Label := [.attempt 0 {}, .crash, .replay, .attempt 0 {}, .answer 0 true 1 {},
    .replay, .attempt 0 {}, .answer 0 true 2 {}, .ack 0 true]
  have hplay : (ls.foldlM (step r) (Gateway.dispatch r o {} d true)).any (fun s => s.buffer = [] ∧
      s.receipts.map (·.key) = [("q2", "k2"), ("q1", "k1")]) = true := by
    decide +kernel
  obtain ⟨s, hs, hfinal⟩ := (Option.any_eq_true _ _).mp hplay
  obtain ⟨hb, hr⟩ := of_decide_eq_true hfinal
  have hfirst : Step r {} (.dispatch o d true) (Gateway.dispatch r o {} d true) := ⟨hm, rfl⟩
  have hrest : Path (Step r) (Gateway.dispatch r o {} d true) ls s :=
    (path_iff_foldlM.mpr hs).mono_of_labels (p := fun l => ∀ s, Permitted r s l)
      (fun s _ _ hl hstep => ⟨hl s, hstep⟩) (by simp [ls, Permitted])
  have h := Path.cons hfirst hrest
  exact ⟨s, h, hb, hr, relay_delivery h⟩

end OpenRig.RelayOutbound
