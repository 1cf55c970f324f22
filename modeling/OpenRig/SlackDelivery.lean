import OpenRig.SlackParts
import OpenRig.Runs
import Mathlib.Data.List.Nodup

/-!
The delivery of one decision to Slack: the calls of `subsystemSlackDeliver`, one after another, each
cut at its awaits, against the stores that survive it and what is in Slack.

A scan is complete and correct for the place it reads. Everything that can fail does so by a flag.
-/

namespace OpenRig.SlackDelivery

open OpenRig.Runs OpenRig.SlackParts

/-- `partIdFor`: the decision's own id, or that of one of its parts. -/
inductive PartId where
  | whole
  | part (index : ℕ)
  deriving DecidableEq

def partIdFor (count index : ℕ) : PartId := if count = 1 then .whole else .part index

/-- A keyed record of the attempted store. -/
inductive Key where
  | attempt (id : PartId)
  /-- `::channel::` -/
  | channel (id : PartId) (channel : String)
  /-- `::delivery-plan::` -/
  | plan (plan : DeliveryPlan)
  /-- `::primary-receipt::` -/
  | primaryReceipt (messageTs : String) (threadTs : Option String)
  /-- `::transport-failure-receipt::` -/
  | failure (id : PartId) (failureClass detail : String) (payloadHash : Option String)
  /-- The same, `::repaired`. -/
  | repaired (id : PartId) (failureClass detail : String) (payloadHash : Option String)
  /-- `::payload-attempt::` -/
  | payload (id : PartId) (hash : String) (nonce : ℕ)
  deriving DecidableEq

def INVALID_BLOCKS_CLASS : String := "slack-invalid-blocks"

/-- Where a message is looked for, or posted: a channel, and a thread in it or its top level. -/
structure Place where
  channel : String
  thread : Option String
  deriving DecidableEq

/-- A message in Slack. Its text carries the marker of its part id. -/
structure Message where
  partId : PartId
  part : DeliveryPart
  ts : String
  place : Place
  deriving DecidableEq

/-- Whether the scan of a place reads the message: a thread's scan reads its root too. -/
def Message.visible (m : Message) (p : Place) : Bool :=
  m.place.channel == p.channel &&
    match p.thread with
    | none => m.place.thread == none
    | some t => m.place.thread == some t || (m.place.thread == none && m.ts == t)

/-- What a call holds of its parts while it posts them. -/
structure Posting where
  parts : List DeliveryPart
  mention : Option String
  index : ℕ := 0
  primary : Option (String × Option String) := none
  deriving DecidableEq

def Posting.id (r : Posting) : PartId := partIdFor r.parts.length r.index

/-- Only the primary mentions. -/
def Posting.mentioned (r : Posting) : Option String := if r.index = 0 then r.mention else none

/-- A call, at one of its awaits or between two parts. -/
inductive Call where
  /-- `firstMessageMayHaveLanded` scans. -/
  | landing (place : Place)
  | ready (r : Posting)
  | scanning (r : Posting) (place : Place)
  | posting (r : Posting) (place : Place)
  | finishing (primary : Option (String × Option String))
  deriving DecidableEq

/-- The stores, the row's receipts, what is in Slack, and the call under way. `returnedOk` records
that a call has returned ok. -/
structure Delivery where
  attempted : List Key := []
  delivered : List PartId := []
  receipts : List String := []
  slack : List Message := []
  call : Option Call := none
  returnedOk : Bool := false
  deriving DecidableEq

/-- What a stretch of a call reads of its configuration: the channels and the thread map, the
mention, and how parts render. -/
structure Opts where
  channel : String
  resolveChannel : Option String := none
  pinChannel : Bool := false
  resolveThreadTs : String → Option String := fun _ => none
  mention : Option String := none
  rooms : Option String → Rooms := fun _ => ⟨fun _ => some 3000, fun _ => some 3000⟩
  renders : Option String → PartId → DeliveryPart → Bool := fun _ _ _ => true
  payloadHash : Option String → PartId → DeliveryPart → Place → String := fun _ _ _ _ => ""

/-- The receipts of a message found or posted, and the marks after it. -/
structure ReceiptIo where
  /-- `onThreadMissing`, `onPostedRoot` and `onPostedPart`. -/
  hooks : Bool := true
  /-- `onPosted`, or the record of the primary. -/
  posted : Bool := true
  deliveredRecorded : Bool := true
  seenRecorded : Bool := true
  deriving DecidableEq

/-- The records of a failed post. -/
structure FailureIo where
  failureClass : String := "transport"
  detail : String := ""
  /-- The hash of the payload, for a permanent rejection. -/
  permanent : Option String := none
  kept : Bool := true
  rowWritten : Bool := true
  repairRecorded : Bool := true
  deriving DecidableEq

/-- The writes of a part's stretch before its scan or its post. -/
structure PartIo where
  channelRecorded : Bool := true
  rowWritten : Bool := true
  repairRecorded : Bool := true
  attemptRecorded : Bool := true
  payloadRecorded : Bool := true
  nonce : ℕ := 0
  deriving DecidableEq

/-- What becomes of a post. `thread` is where Slack puts it; `told`, whether its answer says so. -/
inductive PostOutcome where
  | landed (ts : String) (thread : Option String) (told : Bool) (io : ReceiptIo)
  | lost (ts : String) (thread : Option String) (io : FailureIo)
  | refused (io : FailureIo)
  /-- A rate-limit wait is aborted. -/
  | threw
  deriving DecidableEq

/-! ### Choosing the parts -/

/-- Each part still to post renders. -/
def preflight (o : Opts) (mention : Option String) (delivered : List PartId)
    (parts : List DeliveryPart) : Bool :=
  parts.zipIdx.all fun (part, index) =>
    let id := partIdFor parts.length index
    id ∈ delivered ∨ o.renders (if index = 0 then mention else none) id part

/-- The parts a plan renders to; with no plan, one decided from the real render. -/
def choose (redact : Text → Text) (o : Opts) (q : Ask) (delivered : List PartId)
    (kept : Option DeliveryPlan) : Option (List DeliveryPart × DeliveryPlan) :=
  match kept with
  | some plan =>
    if plan.body.isSome then do
      let (parts, _) ← splitIntoParts redact (o.rooms plan.mention) q plan
      if preflight o plan.mention delivered parts then some (parts, plan) else none
    else if preflight o plan.mention delivered (authored q) then some (authored q, plan)
    else none
  | none =>
    if preflight o o.mention [] (authored q) then some (authored q, { mention := o.mention })
    else do
      let (parts, plan) ← splitIntoParts redact (o.rooms o.mention) q { mention := o.mention }
      if parts.length < 2 then none
      else if preflight o o.mention [] parts then some (parts, plan)
      else none

/-- The id of the first message of a recorded plan. -/
def firstId (q : Ask) (plan : DeliveryPlan) : PartId :=
  partIdFor (if plan.body.isSome then 2 else (authored q).length) 0

namespace Delivery

/-! ### The stores -/

/-- The attempted store loads as a set in the order of first records. -/
def mark (s : Delivery) (k : Key) : Delivery :=
  if k ∈ s.attempted then s else { s with attempted := s.attempted ++ [k] }

def recordedPlan (s : Delivery) : Option DeliveryPlan :=
  (s.attempted.filterMap fun | .plan p => some p | _ => none).getLast?

def primaryReceipt (s : Delivery) : Option (String × Option String) :=
  s.attempted.findSome? fun | .primaryReceipt ts thread => some (ts, thread) | _ => none

def decidedChannel (s : Delivery) (id : PartId) : Option String :=
  (s.attempted.findSome? fun
    | .channel i c => if i = id then some c else none
    | _ => none).filter (· ≠ "")

def firstAttemptChannel (s : Delivery) (o : Opts) (id : PartId) : Option String :=
  (s.decidedChannel id).or
    (if o.pinChannel ∧ .attempt id ∈ s.attempted then some o.channel else none)

def pendingFailure (s : Delivery) (id : PartId) : Option Key :=
  s.attempted.findSome? fun
    | .failure i c d h =>
      if i = id ∧ Key.repaired i c d h ∉ s.attempted then some (.repaired i c d h) else none
    | _ => none

def hasRejection (s : Delivery) (id : PartId) : Bool :=
  s.attempted.any fun | .failure i c _ _ => i = id ∧ c = INVALID_BLOCKS_CLASS | _ => false

def rejectedHash (s : Delivery) (id : PartId) (hash : String) : Bool :=
  .failure id INVALID_BLOCKS_CLASS "invalid_blocks" (some hash) ∈ s.attempted

/-- The payload of the last attempt, once one was rejected. -/
def lastHash (s : Delivery) (id : PartId) : Option String :=
  (s.attempted.filterMap fun
    | .payload i hash _ => if i = id then some hash else none
    | _ => none).getLast?

/-- The call ends without success. -/
def stop (s : Delivery) : Delivery := { s with call := none }

/-! ### Up to the first part -/

/-- The call goes on to its parts. -/
def start (s : Delivery) (parts : List DeliveryPart) (mention : Option String) : Delivery :=
  { s with call := some (.ready
      { parts, mention, primary := if parts.length = 1 then none else s.primaryReceipt }) }

/-- A plan is decided and recorded, unless the ask does not render or the record fails. -/
def planAfresh (redact : Text → Text) (q : Ask) (s : Delivery) (o : Opts) (planRecorded : Bool) :
    Delivery :=
  match choose redact o q [] none with
  | none => s.stop
  | some (parts, plan) =>
    if !planRecorded then s.stop else (s.mark (.plan plan)).start parts plan.mention

/-- A plan that no longer renders, its first message being in Slack: one message that is the whole
ask is acknowledged; anything else is refused. -/
def found (q : Ask) (s : Delivery) (plan : DeliveryPlan) : Delivery :=
  if plan.body.isSome = false ∧ (authored q).length = 1 then s.start (authored q) plan.mention
  else s.stop

/-- Where `firstMessageMayHaveLanded` looks. -/
def landingPlace (s : Delivery) (o : Opts) (id : PartId) : Place :=
  let channel := (s.firstAttemptChannel o id).getD (o.resolveChannel.getD o.channel)
  { channel, thread := o.resolveThreadTs channel }

/-- A call, up to its first part or its first await. -/
def deliver (redact : Text → Text) (q : Ask) (s : Delivery) (o : Opts) (planRecorded : Bool) :
    Delivery :=
  if .whole ∈ s.delivered then { s with returnedOk := true }
  else
    match s.recordedPlan with
    | none => s.planAfresh redact q o planRecorded
    | some plan =>
      match choose redact o q s.delivered (some plan) with
      | some (parts, _) => s.start parts plan.mention
      | none =>
        let id := firstId q plan
        if id ∈ s.delivered ∨ s.primaryReceipt.isSome then s.found q plan
        else if .attempt id ∉ s.attempted then s.planAfresh redact q o planRecorded
        else { s with call := some (.landing (s.landingPlace o id)) }

/-- The answer to the scan for the first message. -/
def landed (redact : Text → Text) (q : Ask) (s : Delivery) (place : Place) (o : Opts)
    (planRecorded : Bool) : Delivery :=
  match s.recordedPlan with
  | none => s.stop
  | some plan =>
    if s.slack.any fun m => m.partId = firstId q plan ∧ m.visible place then s.found q plan
    else s.planAfresh redact q o planRecorded

/-! ### One part -/

/-- On to the next part, or to the end. -/
def advance (s : Delivery) (r : Posting) : Delivery :=
  if r.parts.length = 1 then { s with call := none, returnedOk := true }
  else if r.index + 1 < r.parts.length then
    { s with call := some (.ready { r with index := r.index + 1 }) }
  else { s with call := some (.finishing r.primary) }

/-- Where a part goes, and where its earlier post is looked for. -/
def placeOf (s : Delivery) (o : Opts) (r : Posting) : Place :=
  let resolved :=
    if r.index = 0 then o.resolveChannel.getD o.channel
    else (s.firstAttemptChannel o (partIdFor r.parts.length 0)).getD
      (o.resolveChannel.getD o.channel)
  let channel := (s.firstAttemptChannel o r.id).getD resolved
  { channel
    thread := if r.index = 0 then o.resolveThreadTs channel
      else r.primary.map fun p => p.2.getD p.1 }

/-- The receipts of a message found or posted, the delivered mark, and on. -/
def receipt (s : Delivery) (r : Posting) (ts : String) (thread : Option String) (io : ReceiptIo) :
    Delivery :=
  if !io.hooks then s.stop
  else if r.index = 0 ∧ !io.posted then s.stop
  else
    let s :=
      if r.parts.length = 1 then { s with receipts := s.receipts ++ [ts] }
      else if r.index = 0 then s.mark (.primaryReceipt ts thread)
      else s
    let r := if r.parts.length ≠ 1 ∧ r.index = 0 then { r with primary := some (ts, thread) } else r
    if !io.deliveredRecorded then s.stop
    else
      let s := { s with delivered := s.delivered ++ [r.id] }
      if r.parts.length = 1 ∧ !io.seenRecorded then s.stop else s.advance r

def rejected (s : Delivery) (o : Opts) (r : Posting) (part : DeliveryPart) (place : Place) : Bool :=
  s.hasRejection r.id &&
    s.rejectedHash r.id (o.payloadHash r.mentioned r.id part place)

/-- The post of a part, marked attempted first. -/
def post (s : Delivery) (o : Opts) (r : Posting) (part : DeliveryPart) (place : Place)
    (io : PartIo) : Delivery :=
  if s.rejected o r part place then s.stop
  else if !o.renders r.mentioned r.id part then s.stop
  else if !io.attemptRecorded then s.stop
  else
    let rejection := s.hasRejection r.id
    let s := s.mark (.attempt r.id)
    if rejection ∧ !io.payloadRecorded then s.stop
    else
      let s :=
        if rejection then
          s.mark (.payload r.id (o.payloadHash r.mentioned r.id part place) io.nonce)
        else s
      { s with call := some (.posting r place) }

/-- A failed receipt of an earlier post is repaired first. -/
def repair (s : Delivery) (r : Posting) (io : PartIo) : Option Delivery :=
  match s.pendingFailure r.id with
  | none => some s
  | some key => if io.rowWritten ∧ io.repairRecorded then some (s.mark key) else none

/-- `deliverSinglePart`, up to its scan or its post. -/
def part (s : Delivery) (o : Opts) (r : Posting) (io : PartIo) : Delivery :=
  match r.parts[r.index]? with
  | none => s.stop
  | some part =>
    if 0 < r.index ∧ r.primary.isNone then s.stop
    else if r.id ∈ s.delivered then s.advance r
    else
      let place := s.placeOf o r
      let pins := (s.firstAttemptChannel o r.id).isNone ∧ o.pinChannel
      if pins ∧ !io.channelRecorded then s.stop
      else
        let s := if pins then s.mark (.channel r.id place.channel) else s
        match s.repair r io with
        | none => s.stop
        | some s =>
          if s.hasRejection r.id ∧ (s.lastHash r.id).all (s.rejectedHash r.id) ∧
              s.rejected o r part place then s.stop
          else if .attempt r.id ∈ s.attempted then { s with call := some (.scanning r place) }
          else s.post o r part place io

/-- The answer to the scan for an earlier post of a part. -/
def scanned (s : Delivery) (o : Opts) (r : Posting) (place : Place) (pio : PartIo)
    (rio : ReceiptIo) : Delivery :=
  match s.slack.find? fun m => m.partId = r.id ∧ m.visible place with
  | some m => s.receipt r m.ts place.thread rio
  | none =>
    match r.parts[r.index]? with
    | none => s.stop
    | some part => s.post o r part place pio

def lands (s : Delivery) (r : Posting) (place : Place) (ts : String) (thread : Option String) :
    Delivery :=
  match r.parts[r.index]? with
  | none => s
  | some part =>
    { s with slack := s.slack ++
        [{ partId := r.id, part, ts, place := { channel := place.channel, thread } }] }

def failed (s : Delivery) (r : Posting) (io : FailureIo) : Delivery :=
  let s := if io.kept then s.mark (.failure r.id io.failureClass io.detail io.permanent) else s
  if io.rowWritten ∧ io.kept ∧ io.repairRecorded then
    (s.mark (.repaired r.id io.failureClass io.detail io.permanent)).stop
  else s.stop

def posted (s : Delivery) (r : Posting) (place : Place) : PostOutcome → Delivery
  | .landed ts thread told io =>
    (s.lands r place ts thread).receipt r ts (if told then thread else place.thread) io
  | .lost ts thread io => (s.lands r place ts thread).failed r io
  | .refused io => s.failed r io
  | .threw => s.stop

/-- The row's receipt and the last mark of an ask in several parts. -/
def finish (s : Delivery) (primary : Option (String × Option String)) (posted deliveredRecorded
    seenRecorded : Bool) : Delivery :=
  match primary with
  | none => s.stop
  | some (ts, _) =>
    if !posted then s.stop
    else
      let s := { s with receipts := s.receipts ++ [ts] }
      if !deliveredRecorded then s.stop
      else
        let s := { s with delivered := s.delivered ++ [PartId.whole] }
        if !seenRecorded then s.stop else { s with call := none, returnedOk := true }

end Delivery

inductive Label where
  | deliver (o : Opts) (planRecorded : Bool)
  | landed (o : Opts) (planRecorded : Bool)
  | part (o : Opts) (io : PartIo)
  | scanned (o : Opts) (pio : PartIo) (rio : ReceiptIo)
  | posted (outcome : PostOutcome)
  | finish (posted deliveredRecorded seenRecorded : Bool)
  /-- A crash; a post under way may have landed. -/
  | crash (inFlight : Option (String × Option String))

/-- One step of the calls for the decision, if it can be taken. -/
def step (redact : Text → Text) (q : Ask) (s : Delivery) : Label → Option Delivery
  | .deliver o planRecorded =>
    if s.call = none then some (s.deliver redact q o planRecorded) else none
  | .landed o planRecorded =>
    match s.call with
    | some (.landing place) => some (s.landed redact q place o planRecorded)
    | _ => none
  | .part o io =>
    match s.call with
    | some (.ready r) => some (s.part o r io)
    | _ => none
  | .scanned o pio rio =>
    match s.call with
    | some (.scanning r place) => some (s.scanned o r place pio rio)
    | _ => none
  | .posted outcome =>
    match s.call with
    | some (.posting r place) => some (s.posted r place outcome)
    | _ => none
  | .finish posted deliveredRecorded seenRecorded =>
    match s.call with
    | some (.finishing primary) => some (s.finish primary posted deliveredRecorded seenRecorded)
    | _ => none
  | .crash inFlight =>
    match s.call, inFlight with
    | some (.posting r place), some (ts, thread) => some (s.lands r place ts thread).stop
    | _, _ => some s.stop

/-! ### Plans and their parts -/

section Plans

variable {redact : Text → Text} {q : Ask}

/-- The parts a plan stands for, whatever the rooms are when it is rendered. -/
def planParts (redact : Text → Text) (q : Ask) (plan : DeliveryPlan) : List DeliveryPart :=
  if plan.body.isSome then
    ((splitIntoParts redact ⟨fun _ => none, fun _ => none⟩ q plan).map (·.1)).getD []
  else authored q

/-- A plan as one is recorded: the authored parts, or a split that replays. -/
def Proper (redact : Text → Text) (q : Ask) (plan : DeliveryPlan) : Prop :=
  plan.body.isSome = true → 2 ≤ (planParts redact q plan).length ∧
    ((planParts redact q plan).map (·.piece)).flatten = splitText redact q ∧
    ∀ rooms, splitIntoParts redact rooms q plan = some (planParts redact q plan, plan)

lemma authored_length : (authored q).length = 1 ∨ (authored q).length = 2 := by
  unfold authored
  split
  · exact .inl rfl
  · exact .inr rfl

lemma planParts_authored {plan : DeliveryPlan} (h : plan.body.isSome = false) :
    planParts redact q plan = authored q := by
  unfold planParts
  simp [h]

lemma planParts_length_pos {plan : DeliveryPlan} (h : Proper redact q plan) :
    0 < (planParts redact q plan).length := by
  cases hb : plan.body.isSome with
  | true => exact lt_of_lt_of_le Nat.zero_lt_two (h hb).1
  | false =>
    rw [planParts_authored hb]
    rcases authored_length (q := q) with hl | hl <;> omega

lemma firstId_eq {plan : DeliveryPlan} (h : Proper redact q plan) :
    firstId q plan = partIdFor (planParts redact q plan).length 0 := by
  unfold firstId
  cases hb : plan.body.isSome with
  | true =>
    have := (h hb).1
    simp only [partIdFor, ↓reduceIte]
    rw [if_neg (by decide), if_neg (by omega)]
  | false =>
    rw [planParts_authored hb]
    simp

lemma choose_kept {o : Opts} {delivered : List PartId} {plan plan' : DeliveryPlan}
    {parts : List DeliveryPart} (hp : Proper redact q plan)
    (h : choose redact o q delivered (some plan) = some (parts, plan')) :
    parts = planParts redact q plan := by
  unfold choose at h
  dsimp only at h
  split at h
  · rename_i hb
    rw [(hp hb).2.2] at h
    simp only [Option.bind_eq_bind, Option.bind_some, Option.ite_none_right_eq_some,
      Option.some.injEq, Prod.mk.injEq] at h
    exact h.2.1.symm
  · rename_i hb
    obtain ⟨-, h⟩ := Option.ite_none_right_eq_some.mp h
    rw [planParts_authored (by simpa using hb)]
    exact (Prod.mk.inj (Option.some.inj h)).1.symm

lemma choose_fresh {o : Opts} {delivered : List PartId} {plan : DeliveryPlan}
    {parts : List DeliveryPart} (h : choose redact o q delivered none = some (parts, plan)) :
    Proper redact q plan ∧ parts = planParts redact q plan := by
  unfold choose at h
  dsimp only at h
  split at h
  · obtain ⟨rfl, rfl⟩ := Prod.mk.inj (Option.some.inj h)
    refine ⟨fun hb => ?_, (planParts_authored rfl).symm⟩
    simp at hb
  · obtain ⟨⟨parts', plan'⟩, hs, h⟩ := Option.bind_eq_some_iff.mp h
    obtain ⟨hlen, h⟩ := Option.ite_none_left_eq_some.mp h
    obtain ⟨-, h⟩ := Option.ite_none_right_eq_some.mp h
    obtain ⟨rfl, rfl⟩ := Prod.mk.inj (Option.some.inj h)
    obtain ⟨htext, -, hsome, hrooms⟩ := splitIntoParts_spec hs
    have heq : planParts redact q plan' = parts' := by
      unfold planParts
      rw [if_pos hsome, hrooms]
      rfl
    rw [← heq] at hlen htext hrooms
    exact ⟨fun _ => ⟨Nat.le_of_not_lt hlen, htext, hrooms⟩, heq.symm⟩

end Plans

/-! ### Marks -/

section Marks

variable {s : Delivery} {k : Key}

/-- A record that is neither a plan nor the primary's receipt. -/
def Key.plain : Key → Bool
  | .plan _ | .primaryReceipt _ _ => false
  | _ => true

lemma mem_mark {x : Key} : x ∈ (s.mark k).attempted ↔ x ∈ s.attempted ∨ x = k := by
  unfold Delivery.mark
  split
  · rename_i hk
    constructor
    · exact .inl
    · rintro (h | rfl)
      · exact h
      · exact hk
  · simp

@[simp] lemma mark_delivered : (s.mark k).delivered = s.delivered := by
  unfold Delivery.mark
  split <;> rfl

@[simp] lemma mark_receipts : (s.mark k).receipts = s.receipts := by
  unfold Delivery.mark
  split <;> rfl

@[simp] lemma mark_slack : (s.mark k).slack = s.slack := by
  unfold Delivery.mark
  split <;> rfl

@[simp] lemma mark_returnedOk : (s.mark k).returnedOk = s.returnedOk := by
  unfold Delivery.mark
  split <;> rfl

lemma recordedPlan_mark (h : k.plain = true ∨ ∃ ts th, k = .primaryReceipt ts th) :
    (s.mark k).recordedPlan = s.recordedPlan := by
  unfold Delivery.mark
  split
  · rfl
  · unfold Delivery.recordedPlan
    rw [List.filterMap_append]
    rcases h with h | ⟨ts, th, rfl⟩
    · cases k <;> simp_all [Key.plain]
    · simp

lemma recordedPlan_mark_plan {plan : DeliveryPlan}
    (h : .plan plan ∈ s.attempted → s.recordedPlan = some plan) :
    (s.mark (.plan plan)).recordedPlan = some plan := by
  unfold Delivery.mark
  split
  · rename_i hk
    exact h hk
  · unfold Delivery.recordedPlan
    rw [List.filterMap_append]
    simp

lemma mem_of_recordedPlan {plan : DeliveryPlan} (h : s.recordedPlan = some plan) :
    .plan plan ∈ s.attempted := by
  obtain ⟨k, hk, hp⟩ := List.mem_filterMap.mp (List.mem_of_getLast? h)
  cases k <;> simp_all

lemma mem_of_primaryReceipt {ts : String} {th : Option String}
    (h : s.primaryReceipt = some (ts, th)) : .primaryReceipt ts th ∈ s.attempted := by
  obtain ⟨k, hk, hp⟩ := List.exists_of_findSome?_eq_some h
  cases k <;> simp_all

end Marks

/-! ### The invariant -/

section Invariant

variable (redact : Text → Text) (q : Ask)

/-- Every part of the plan is in Slack, and the row's receipt has the first one's timestamp. -/
def Complete (s : Delivery) (plan : DeliveryPlan) : Prop :=
  (∀ k part, (planParts redact q plan)[k]? = some part →
    ∃ m ∈ s.slack, m.partId = partIdFor (planParts redact q plan).length k ∧ m.part = part) ∧
  ∃ m ∈ s.slack, m.partId = partIdFor (planParts redact q plan).length 0 ∧ m.ts ∈ s.receipts

/-- The message is the part of the plan at the place. -/
def IsPart (plan : DeliveryPlan) (k : ℕ) (m : Message) : Prop :=
  m.partId = partIdFor (planParts redact q plan).length k ∧
    (planParts redact q plan)[k]? = some m.part

structure Sound (s : Delivery) : Prop where
  proper : ∀ plan, .plan plan ∈ s.attempted → Proper redact q plan
  order : ∀ (i : ℕ) m, s.slack[i]? = some m →
    ∃ plan, s.recordedPlan = some plan ∧ IsPart redact q plan i m
  tried : ∀ m ∈ s.slack, .attempt m.partId ∈ s.attempted
  primary : ∀ ts th, .primaryReceipt ts th ∈ s.attempted →
    ∃ m ∈ s.slack, m.partId = .part 0 ∧ m.ts = ts
  deliveredPart : ∀ k, .part k ∈ s.delivered → ∃ m ∈ s.slack, m.partId = .part k
  deliveredWhole : .whole ∈ s.delivered →
    ∃ plan, s.recordedPlan = some plan ∧ Complete redact q s plan
  returned : s.returnedOk = true → .whole ∈ s.delivered

/-- The primary a call holds is in Slack. -/
def RealPrimary (s : Delivery) (primary : Option (String × Option String)) : Prop :=
  ∀ ts th, primary = some (ts, th) → ∃ m ∈ s.slack, m.partId = .part 0 ∧ m.ts = ts

/-- What a call at its parts knows. -/
structure PostingOk (s : Delivery) (r : Posting) (plan : DeliveryPlan) : Prop where
  recorded : s.recordedPlan = some plan
  parts : r.parts = planParts redact q plan
  index : r.index < r.parts.length
  before : r.parts.length ≠ 1 → ∀ k < r.index, .part k ∈ s.delivered
  primary : RealPrimary s r.primary

def CallOk (s : Delivery) : Call → Prop
  | .landing place => ∀ plan, s.recordedPlan = some plan →
      ∀ m ∈ s.slack, m.partId = firstId q plan → m.visible place = true
  | .ready r => ∃ plan, PostingOk redact q s r plan
  | .scanning r place => (∃ plan, PostingOk redact q s r plan) ∧
      ∀ m ∈ s.slack, m.partId = r.id → m.visible place = true
  | .posting r _ => (∃ plan, PostingOk redact q s r plan) ∧ .attempt r.id ∈ s.attempted ∧
      ∀ m ∈ s.slack, m.partId ≠ r.id
  | .finishing primary => ∃ plan, s.recordedPlan = some plan ∧
      2 ≤ (planParts redact q plan).length ∧
      (∀ k < (planParts redact q plan).length, .part k ∈ s.delivered) ∧ RealPrimary s primary

structure Inv (s : Delivery) : Prop where
  sound : Sound redact q s
  call : ∀ c, s.call = some c → CallOk redact q s c

end Invariant

section Keeps

variable {redact : Text → Text} {q : Ask} {s : Delivery} {r : Posting} {plan : DeliveryPlan}

lemma Sound.withCall (h : Sound redact q s) (c : Option Call) :
    Sound redact q { s with call := c } :=
  ⟨h.proper, h.order, h.tried, h.primary, h.deliveredPart, h.deliveredWhole,
    h.returned⟩

lemma Sound.stop (h : Sound redact q s) : Inv redact q s.stop :=
  ⟨h.withCall none, by simp [Delivery.stop]⟩

lemma Sound.mark {k : Key} (h : Sound redact q s) (hk : k.plain = true) :
    Sound redact q (s.mark k) := by
  have hplan : (s.mark k).recordedPlan = s.recordedPlan := recordedPlan_mark (.inl hk)
  refine ⟨fun p hp => ?_, ?_, ?_, ?_,
    by simpa using h.deliveredPart, ?_, by simpa using h.returned⟩
  · rcases mem_mark.mp hp with hp | rfl
    · exact h.proper p hp
    · simp [Key.plain] at hk
  · rw [hplan, mark_slack]
    exact h.order
  · intro m hm
    rw [mark_slack] at hm
    exact mem_mark.mpr (.inl (h.tried m hm))
  · intro ts th hp
    rw [mark_slack]
    rcases mem_mark.mp hp with hp | rfl
    · exact h.primary ts th hp
    · simp [Key.plain] at hk
  · intro hw
    rw [mark_delivered] at hw
    obtain ⟨plan, hp, hc⟩ := h.deliveredWhole hw
    refine ⟨plan, hplan.trans hp, ?_⟩
    unfold Complete
    rw [mark_slack, mark_receipts]
    exact hc

lemma PostingOk.mark {k : Key} (h : PostingOk redact q s r plan) (hk : k.plain = true) :
    PostingOk redact q (s.mark k) r plan := by
  refine ⟨(recordedPlan_mark (.inl hk)).trans h.recorded, h.parts, h.index, ?_, ?_⟩
  · rw [mark_delivered]
    exact h.before
  · unfold RealPrimary
    rw [mark_slack]
    exact h.primary

lemma Sound.ofPlan (h : Sound redact q s) {m : Message} (hm : m ∈ s.slack) :
    ∃ plan k, s.recordedPlan = some plan ∧ IsPart redact q plan k m := by
  obtain ⟨i, hi, rfl⟩ := List.mem_iff_getElem.mp hm
  obtain ⟨plan, hp, hpart⟩ := h.order i _ (List.getElem?_eq_getElem hi)
  exact ⟨plan, i, hp, hpart⟩

lemma IsPart.index_eq {m : Message} {i k : ℕ} (h : IsPart redact q plan i m)
    (hk : k < (planParts redact q plan).length)
    (hid : m.partId = partIdFor (planParts redact q plan).length k) : i = k := by
  have hlt := (List.getElem?_eq_some_iff.mp h.2).1
  have heq := h.1.symm.trans hid
  unfold partIdFor at heq
  split at heq
  · omega
  · exact PartId.part.inj heq

lemma Sound.part_eq (h : Sound redact q s) (hp : s.recordedPlan = some plan) {m : Message}
    (hm : m ∈ s.slack) {k : ℕ} {part : DeliveryPart}
    (hid : m.partId = partIdFor (planParts redact q plan).length k)
    (hk : (planParts redact q plan)[k]? = some part) : m.part = part := by
  obtain ⟨plan', i, hp', hpart⟩ := h.ofPlan hm
  obtain rfl := Option.some.inj (hp.symm.trans hp')
  obtain rfl := hpart.index_eq (List.getElem?_eq_some_iff.mp hk).1 hid
  exact Option.some.inj (hpart.2.symm.trans hk)

lemma Sound.slack_nil (h : Sound redact q s) (hp : s.recordedPlan = some plan)
    (hf : ∀ m ∈ s.slack, m.partId ≠ firstId q plan) : s.slack = [] := by
  cases hs : s.slack with
  | nil => rfl
  | cons m rest =>
    obtain ⟨plan', hp', hid, -⟩ := h.order 0 m (by rw [hs]; rfl)
    obtain rfl := Option.some.inj (hp.symm.trans hp')
    refine absurd (hid.trans (firstId_eq (h.proper plan (mem_of_recordedPlan hp))).symm)
      (hf m ?_)
    rw [hs]
    exact List.mem_cons_self

lemma Sound.markPlan (h : Sound redact q s) (hs : s.slack = [])
    (hp : Proper redact q plan) (hf : .plan plan ∈ s.attempted → s.recordedPlan = some plan) :
    Sound redact q (s.mark (.plan plan)) ∧ (s.mark (.plan plan)).recordedPlan = some plan := by
  have hwhole : .whole ∉ s.delivered := by
    intro hw
    obtain ⟨_, -, -, m, hm, -⟩ := h.deliveredWhole hw
    simp [hs] at hm
  refine ⟨⟨fun p hk => ?_, by simp [hs], by simp [hs], ?_, ?_, ?_, ?_⟩,
    recordedPlan_mark_plan hf⟩
  · rcases mem_mark.mp hk with hk | heq
    · exact h.proper p hk
    · exact Key.plan.inj heq ▸ hp
  · intro ts th hk
    rcases mem_mark.mp hk with hk | heq
    · obtain ⟨m, hm, -⟩ := h.primary ts th hk
      simp [hs] at hm
    · cases heq
  · intro k hk
    rw [mark_delivered] at hk
    rw [mark_slack]
    exact h.deliveredPart k hk
  · intro hw
    rw [mark_delivered] at hw
    exact absurd hw hwhole
  · intro hr
    rw [mark_returnedOk] at hr
    exact absurd (h.returned hr) hwhole

lemma Sound.start (h : Sound redact q s) (hp : s.recordedPlan = some plan)
    (mention : Option String) : Inv redact q (s.start (planParts redact q plan) mention) := by
  refine ⟨h.withCall _, fun c hc => ?_⟩
  obtain rfl := Option.some.inj hc
  have hproper := h.proper plan (mem_of_recordedPlan hp)
  refine ⟨plan, hp, rfl, planParts_length_pos hproper, by simp, fun ts th hprim => ?_⟩
  split at hprim
  · simp at hprim
  · exact h.primary ts th (mem_of_primaryReceipt hprim)

lemma Sound.planAfresh (h : Sound redact q s) (hs : s.slack = []) {o : Opts} {planRecorded : Bool}
    (hf : ∀ parts plan, choose redact o q [] none = some (parts, plan) →
      .plan plan ∈ s.attempted → s.recordedPlan = some plan) :
    Inv redact q (s.planAfresh redact q o planRecorded) := by
  unfold Delivery.planAfresh
  split
  · exact h.stop
  · rename_i parts plan hc
    split
    · exact h.stop
    obtain ⟨hproper, rfl⟩ := choose_fresh hc
    obtain ⟨hsound, hrec⟩ := h.markPlan hs hproper (hf _ _ hc)
    exact hsound.start hrec plan.mention

lemma Sound.found (h : Sound redact q s) (hp : s.recordedPlan = some plan) :
    Inv redact q (s.found q plan) := by
  unfold Delivery.found
  split
  · rename_i hb
    have := h.start hp plan.mention
    rwa [planParts_authored hb.1] at this
  · exact h.stop

end Keeps

/-- A plan decided afresh is not one recorded before the newest. -/
def Renewed (redact : Text → Text) (q : Ask) (s : Delivery) (o : Opts) (plan : DeliveryPlan) :
    Prop :=
  ∀ c ∈ choose redact o q [] none, .plan c.2 ∈ s.attempted → c.2 = plan

/-- The first message of a plan that no longer renders is where it is looked for; a plan that was
not attempted is renewed. -/
def PlanSighted (redact : Text → Text) (q : Ask) (s : Delivery) (o : Opts) (plan : DeliveryPlan) :
    Prop :=
  choose redact o q s.delivered (some plan) = none →
    if .attempt (firstId q plan) ∈ s.attempted then
      firstId q plan ∉ s.delivered → s.primaryReceipt = none → ∀ m ∈ s.slack,
        m.partId = firstId q plan → m.visible (s.landingPlace o (firstId q plan)) = true
    else Renewed redact q s o plan

/-- What the calls must meet: where a call looks for an earlier post of a part, or for the first
message of a plan that no longer renders, that post is, if it is in Slack; and plans are renewed. -/
def Sighted (redact : Text → Text) (q : Ask) (s : Delivery) (l : Label) : Prop :=
  match l, s.call with
  | .deliver o _, _ => ∀ plan ∈ s.recordedPlan, PlanSighted redact q s o plan
  | .landed o _, some (.landing place) => ∀ plan ∈ s.recordedPlan,
      (s.slack.any fun m => m.partId = firstId q plan ∧ m.visible place) = false →
        Renewed redact q s o plan
  | .part o _, some (.ready r) => .attempt r.id ∈ s.attempted → r.id ∉ s.delivered →
      ∀ m ∈ s.slack, m.partId = r.id → m.visible (s.placeOf o r) = true
  | _, _ => True

section Decidable

variable (redact : Text → Text) (q : Ask) (s : Delivery)

instance (o : Opts) (plan : DeliveryPlan) : Decidable (Renewed redact q s o plan) := by
  unfold Renewed
  infer_instance

instance (o : Opts) (plan : DeliveryPlan) : Decidable (PlanSighted redact q s o plan) := by
  unfold PlanSighted
  infer_instance

instance (l : Label) : Decidable (Sighted redact q s l) := by
  unfold Sighted
  split <;> infer_instance

end Decidable

section Calls

variable {redact : Text → Text} {q : Ask} {s : Delivery}

lemma Inv.deliver (h : Inv redact q s) {o : Opts} {planRecorded : Bool} (hcall : s.call = none)
    (hc : Sighted redact q s (.deliver o planRecorded)) :
    Inv redact q (s.deliver redact q o planRecorded) := by
  unfold Delivery.deliver
  split
  · rename_i hw
    exact ⟨⟨h.sound.proper, h.sound.order, h.sound.tried, h.sound.primary, h.sound.deliveredPart,
      h.sound.deliveredWhole, fun _ => hw⟩,
      by simp [hcall]⟩
  split
  · rename_i hnone
    have hs : s.slack = [] := by
      rw [List.eq_nil_iff_forall_not_mem]
      intro m hm
      obtain ⟨plan, -, hp, -⟩ := h.sound.ofPlan hm
      simp [hnone] at hp
    refine h.sound.planAfresh hs fun parts plan _ hk => ?_
    have hne : (s.attempted.filterMap fun | Key.plan p => some p | _ => none) ≠ [] :=
      List.ne_nil_of_mem (List.mem_filterMap.mpr ⟨_, hk, rfl⟩)
    exact absurd (List.getLast?_eq_none_iff.mp hnone) hne
  · rename_i plan hp
    have hproper := h.sound.proper plan (mem_of_recordedPlan hp)
    split
    · rename_i parts plan' hch
      obtain rfl := choose_kept hproper hch
      exact h.sound.start hp plan.mention
    · rename_i hch
      have hsight := hc plan hp hch
      dsimp only
      split
      · exact h.sound.found hp
      rename_i hnot
      rw [not_or] at hnot
      split
      · rename_i hatt
        rw [if_neg hatt] at hsight
        have hs : s.slack = [] := h.sound.slack_nil hp fun m hm hid =>
          hatt (hid ▸ h.sound.tried m hm)
        refine h.sound.planAfresh hs fun parts plan' hch' hk => ?_
        have heq : plan' = plan := hsight (parts, plan') hch' hk
        rw [heq, hp]
      · rename_i hatt
        rw [not_not] at hatt
        rw [if_pos hatt] at hsight
        refine ⟨h.sound.withCall _, fun c hcall => ?_⟩
        obtain rfl := Option.some.inj hcall
        intro plan' hp' m hm hid
        obtain rfl := Option.some.inj (hp.symm.trans hp')
        exact hsight hnot.1 (by simpa using hnot.2) m hm hid

lemma Inv.landed (h : Inv redact q s) {place : Place} {o : Opts} {planRecorded : Bool}
    (hcall : s.call = some (.landing place)) (hc : Sighted redact q s (.landed o planRecorded)) :
    Inv redact q (s.landed redact q place o planRecorded) := by
  unfold Delivery.landed
  split
  · exact h.sound.stop
  · rename_i plan hp
    split
    · exact h.sound.found hp
    · rename_i hnot
      have hnot : (s.slack.any fun m => m.partId = firstId q plan ∧ m.visible place) = false := by
        simpa using hnot
      have hs : s.slack = [] := by
        refine h.sound.slack_nil hp fun m hm hid => ?_
        have hv := h.call _ hcall plan hp m hm hid
        have := List.any_eq_false.mp hnot m hm
        simp [hid, hv] at this
      refine h.sound.planAfresh hs fun parts plan' hch hk => ?_
      simp only [Sighted, hcall] at hc
      have heq : plan' = plan := hc plan hp hnot (parts, plan') hch hk
      rw [heq, hp]

lemma Sound.advance (h : Sound redact q s) {r : Posting} {plan : DeliveryPlan}
    (hr : PostingOk redact q s r plan) (hd : r.id ∈ s.delivered) : Inv redact q (s.advance r) := by
  unfold Delivery.advance
  by_cases hone : r.parts.length = 1
  · rw [if_pos hone]
    unfold Posting.id partIdFor at hd
    rw [if_pos hone] at hd
    exact ⟨⟨h.proper, h.order, h.tried, h.primary, h.deliveredPart,
      h.deliveredWhole, fun _ => hd⟩, by simp⟩
  unfold Posting.id partIdFor at hd
  rw [if_neg hone] at hd
  rw [if_neg hone]
  have hbefore : ∀ k < r.index + 1, .part k ∈ s.delivered := by
    intro k hk
    rcases Nat.lt_succ_iff_lt_or_eq.mp hk with hk | rfl
    · exact hr.before hone k hk
    · exact hd
  split
  · rename_i hlt
    refine ⟨h.withCall _, fun c hc => ?_⟩
    obtain rfl := Option.some.inj hc
    exact ⟨plan, hr.recorded, hr.parts, hlt, fun _ => hbefore, hr.primary⟩
  · rename_i hlast
    refine ⟨h.withCall _, fun c hc => ?_⟩
    obtain rfl := Option.some.inj hc
    have hlen := hr.index
    refine ⟨plan, hr.recorded, by rw [← hr.parts]; omega, fun k hk => ?_, hr.primary⟩
    rw [← hr.parts] at hk
    exact hbefore k (by omega)

lemma PostingOk.congr {t : Delivery} {r : Posting} {plan : DeliveryPlan}
    (hr : PostingOk redact q s r plan) (hp : t.recordedPlan = s.recordedPlan)
    (hd : s.delivered ⊆ t.delivered) (hs : ∀ m ∈ s.slack, m ∈ t.slack) :
    PostingOk redact q t r plan :=
  ⟨hp.trans hr.recorded, hr.parts, hr.index, fun hn k hk => hd (hr.before hn k hk),
    fun ts th hprim => (hr.primary ts th hprim).imp fun _ ⟨hm, hm'⟩ => ⟨hs _ hm, hm'⟩⟩

lemma Sound.markPrimary (h : Sound redact q s) {m : Message} (hm : m ∈ s.slack)
    (hid : m.partId = .part 0) (thread : Option String) :
    Sound redact q (s.mark (.primaryReceipt m.ts thread)) := by
  have hplan : (s.mark (.primaryReceipt m.ts thread)).recordedPlan = s.recordedPlan :=
    recordedPlan_mark (.inr ⟨_, _, rfl⟩)
  refine ⟨fun p hp => ?_, ?_, ?_, ?_,
    by simpa using h.deliveredPart, ?_, by simpa using h.returned⟩
  · rcases mem_mark.mp hp with hp | heq
    · exact h.proper p hp
    · cases heq
  · rw [hplan, mark_slack]
    exact h.order
  · intro m' hm'
    rw [mark_slack] at hm'
    exact mem_mark.mpr (.inl (h.tried m' hm'))
  · intro ts th hp
    rw [mark_slack]
    rcases mem_mark.mp hp with hp | heq
    · exact h.primary ts th hp
    · obtain ⟨rfl, rfl⟩ := Key.primaryReceipt.inj heq
      exact ⟨m, hm, hid, rfl⟩
  · intro hw
    rw [mark_delivered] at hw
    obtain ⟨plan, hp, hc⟩ := h.deliveredWhole hw
    refine ⟨plan, hplan.trans hp, ?_⟩
    unfold Complete
    rw [mark_slack, mark_receipts]
    exact hc

lemma Sound.deliverPart (h : Sound redact q s) {m : Message} (hm : m ∈ s.slack) {k : ℕ}
    (hid : m.partId = .part k) :
    Sound redact q { s with delivered := s.delivered ++ [.part k] } := by
  refine ⟨h.proper, h.order, h.tried, h.primary, fun k' hk => ?_, fun hw => ?_,
    fun hret => List.mem_append_left _ (h.returned hret)⟩
  · rcases List.mem_append.mp hk with hk | hk
    · exact h.deliveredPart k' hk
    · obtain rfl := PartId.part.inj (List.mem_singleton.mp hk)
      exact ⟨m, hm, hid⟩
  · rcases List.mem_append.mp hw with hw | hw
    · exact h.deliveredWhole hw
    · simp at hw

lemma Sound.receipt (h : Sound redact q s) {r : Posting} {plan : DeliveryPlan}
    (hr : PostingOk redact q s r plan) {m : Message} (hm : m ∈ s.slack) (hid : m.partId = r.id)
    (thread : Option String) (io : ReceiptIo) : Inv redact q (s.receipt r m.ts thread io) := by
  unfold Delivery.receipt
  split
  · exact h.stop
  split
  · exact h.stop
  dsimp only
  by_cases hone : r.parts.length = 1
  · have hidx : r.index = 0 := by
      have := hr.index
      omega
    have hwhole : r.id = .whole := by
      unfold Posting.id partIdFor
      rw [if_pos hone]
    simp only [hone, ↓reduceIte, ne_eq, not_true_eq_false, false_and]
    set s₁ : Delivery := { s with receipts := s.receipts ++ [m.ts] } with hs₁
    have hgrow : ∀ plan', Complete redact q s plan' → Complete redact q s₁ plan' :=
      fun plan' hc => ⟨hc.1, hc.2.imp fun _ ⟨hm', hid', hts⟩ =>
        ⟨hm', hid', List.mem_append_left _ hts⟩⟩
    have h₁ : Sound redact q s₁ := ⟨h.proper, h.order, h.tried, h.primary,
      h.deliveredPart, fun hw => (h.deliveredWhole hw).imp fun _ ⟨hp, hc⟩ => ⟨hp, hgrow _ hc⟩,
      h.returned⟩
    split
    · exact h₁.stop
    have hcomplete : Complete redact q s₁ plan := by
      have hlen : (planParts redact q plan).length = 1 := by rw [← hr.parts]; exact hone
      have hmid : m.partId = partIdFor (planParts redact q plan).length 0 := by
        rw [hid, hwhole, hlen]
        rfl
      refine ⟨fun k part hk => ⟨m, hm, ?_, ?_⟩, m, hm, hmid, by simp [hs₁]⟩
      · have hlt := (List.getElem?_eq_some_iff.mp hk).1
        obtain rfl : k = 0 := by omega
        exact hmid
      · have hlt := (List.getElem?_eq_some_iff.mp hk).1
        obtain rfl : k = 0 := by omega
        exact h.part_eq hr.recorded hm hmid hk
    set s₂ : Delivery := { s₁ with delivered := s₁.delivered ++ [r.id] } with hs₂
    have h₂ : Sound redact q s₂ := by
      refine ⟨h₁.proper, h₁.order, h₁.tried, h₁.primary, fun k hk => ?_,
        fun _ => ⟨plan, hr.recorded, hcomplete⟩, fun hret => List.mem_append_left _
          (h₁.returned hret)⟩
      rcases List.mem_append.mp hk with hk | hk
      · exact h₁.deliveredPart k hk
      · rw [hwhole] at hk
        simp at hk
    split
    · exact h₂.stop
    · exact h₂.advance (hr.congr rfl (List.subset_append_left _ _) fun _ hm => hm) (by simp [hs₂])
  have hpart : r.id = .part r.index := by
    unfold Posting.id partIdFor
    rw [if_neg hone]
  have hlast : ∀ {t : Delivery} {r' : Posting}, Sound redact q t → PostingOk redact q t r' plan →
      r'.parts.length ≠ 1 → r'.id = .part r.index → m ∈ t.slack →
      Inv redact q (if !io.deliveredRecorded then t.stop
        else if r'.parts.length = 1 ∧ !io.seenRecorded then
          Delivery.stop { t with delivered := t.delivered ++ [r'.id] }
        else Delivery.advance { t with delivered := t.delivered ++ [r'.id] } r') := by
    intro t r' ht hr' hone' hid' hmt
    split
    · exact ht.stop
    rw [if_neg (by simp [hone'])]
    have h₂ := ht.deliverPart hmt (hid.trans hpart)
    rw [hid']
    exact h₂.advance (hr'.congr rfl (List.subset_append_left _ _) fun _ hm => hm) (by simp [hid'])
  by_cases hidx : r.index = 0
  · have hid0 : m.partId = .part 0 := by rw [hid, hpart, hidx]
    have hboth : r.parts.length ≠ 1 ∧ r.index = 0 := ⟨hone, hidx⟩
    rw [if_neg hone, if_pos hidx, if_pos hboth]
    refine hlast (h.markPrimary hm hid0 thread) ?_ hone hpart (by simpa using hm)
    have hr' := hr.congr (t := s.mark (.primaryReceipt m.ts thread))
      (recordedPlan_mark (.inr ⟨_, _, rfl⟩)) (by simp) (by simp)
    refine ⟨hr'.recorded, hr'.parts, hr'.index, hr'.before, fun ts th hprim => ?_⟩
    obtain ⟨rfl, -⟩ := Prod.mk.inj (Option.some.inj hprim)
    exact ⟨m, by simpa using hm, hid0, rfl⟩
  · have hnot : ¬(r.parts.length ≠ 1 ∧ r.index = 0) := fun h => hidx h.2
    rw [if_neg hone, if_neg hidx, if_neg hnot]
    exact hlast h hr hone hpart hm

lemma Sound.post (h : Sound redact q s) {r : Posting} {plan : DeliveryPlan}
    (hr : PostingOk redact q s r plan)
    (hnot : ∀ m ∈ s.slack, m.partId ≠ r.id) (o : Opts) (part : DeliveryPart) (place : Place)
    (io : PartIo) : Inv redact q (s.post o r part place io) := by
  unfold Delivery.post
  dsimp only
  split
  · exact h.stop
  split
  · exact h.stop
  split
  · exact h.stop
  have h₁ : Sound redact q (s.mark (.attempt r.id)) := h.mark rfl
  have hr₁ : PostingOk redact q (s.mark (.attempt r.id)) r plan := hr.mark rfl
  split
  · exact h₁.stop
  have hcall : ∀ t : Delivery, Sound redact q t → PostingOk redact q t r plan →
      .attempt r.id ∈ t.attempted → t.slack = s.slack →
      Inv redact q { t with call := some (.posting r place) } := by
    intro t ht hrt hatt hslack
    refine ⟨ht.withCall _, fun c hc => ?_⟩
    obtain rfl := Option.some.inj hc
    refine ⟨⟨plan, hrt.recorded, hrt.parts, hrt.index, hrt.before, hrt.primary⟩, hatt, ?_⟩
    intro m hm
    exact hnot m (hslack ▸ hm)
  split
  · exact hcall _ (h₁.mark rfl) (hr₁.mark rfl) (mem_mark.mpr (.inl (mem_mark.mpr (.inr rfl))))
      (by simp)
  · exact hcall _ h₁ hr₁ (mem_mark.mpr (.inr rfl)) (by simp)

lemma repair_cases {t : Delivery} {r : Posting} {io : PartIo} (h : s.repair r io = some t) :
    t = s ∨ ∃ id c d hash, t = s.mark (.repaired id c d hash) := by
  unfold Delivery.repair at h
  split at h
  · exact .inl (Option.some.inj h).symm
  · rename_i key hkey
    obtain ⟨-, h⟩ := Option.ite_none_right_eq_some.mp h
    obtain ⟨k, -, hk⟩ := List.exists_of_findSome?_eq_some hkey
    have hkey : ∃ id c d hash, key = .repaired id c d hash := by
      cases k <;> simp only [Option.ite_none_right_eq_some, reduceCtorEq] at hk
      exact ⟨_, _, _, _, (Option.some.inj hk.2).symm⟩
    obtain ⟨id, c, d, hash, rfl⟩ := hkey
    exact .inr ⟨id, c, d, hash, (Option.some.inj h).symm⟩

lemma attempt_mark {k : Key} {id : PartId} (hk : ∀ id, k ≠ .attempt id) :
    .attempt id ∈ (s.mark k).attempted ↔ .attempt id ∈ s.attempted := by
  rw [mem_mark]
  constructor
  · rintro (h | h)
    · exact h
    · exact absurd h.symm (hk id)
  · exact .inl

lemma Sound.partFrom (h : Sound redact q s) {r : Posting} {plan : DeliveryPlan}
    (hr : PostingOk redact q s r plan)
    {place : Place} (hsee : .attempt r.id ∈ s.attempted → ∀ m ∈ s.slack, m.partId = r.id →
      m.visible place = true) (o : Opts) (part : DeliveryPart) (io : PartIo) :
    Inv redact q (if s.hasRejection r.id ∧ (s.lastHash r.id).all (s.rejectedHash r.id) ∧
        s.rejected o r part place then s.stop
      else if .attempt r.id ∈ s.attempted then { s with call := some (.scanning r place) }
      else s.post o r part place io) := by
  split
  · exact h.stop
  split
  · rename_i hatt
    refine ⟨h.withCall _, fun c hc => ?_⟩
    obtain rfl := Option.some.inj hc
    exact ⟨⟨plan, hr.recorded, hr.parts, hr.index, hr.before, hr.primary⟩, hsee hatt⟩
  · rename_i hatt
    exact h.post hr (fun m hm hid => hatt (hid ▸ h.tried m hm)) o part place io

lemma Inv.part (h : Inv redact q s) {r : Posting} {o : Opts} {io : PartIo}
    (hcall : s.call = some (.ready r)) (hc : Sighted redact q s (.part o io)) :
    Inv redact q (s.part o r io) := by
  obtain ⟨plan, hr⟩ := h.call _ hcall
  simp only [Sighted, hcall] at hc
  unfold Delivery.part
  split
  · exact h.sound.stop
  rename_i part hpart
  split
  · exact h.sound.stop
  split
  · rename_i hd
    exact h.sound.advance hr hd
  rename_i hd
  dsimp only
  split
  · exact h.sound.stop
  -- The channel's record and a repair are plain: what is in Slack and what was attempted stand.
  have hrest : ∀ t : Delivery, Sound redact q t → PostingOk redact q t r plan →
      t.slack = s.slack → (.attempt r.id ∈ t.attempted → .attempt r.id ∈ s.attempted) →
      Inv redact q (match t.repair r io with
        | none => t.stop
        | some u =>
          if u.hasRejection r.id ∧ (u.lastHash r.id).all (u.rejectedHash r.id) ∧
              u.rejected o r part (s.placeOf o r) then u.stop
          else if .attempt r.id ∈ u.attempted then
            { u with call := some (.scanning r (s.placeOf o r)) }
          else u.post o r part (s.placeOf o r) io) := by
    intro t ht hrt hslack hatt
    split
    · exact ht.stop
    · rename_i u hu
      have hu : Sound redact q u ∧ PostingOk redact q u r plan ∧ u.slack = s.slack ∧
          (.attempt r.id ∈ u.attempted → .attempt r.id ∈ s.attempted) := by
        rcases repair_cases hu with rfl | ⟨id, c, d, hash, rfl⟩
        · exact ⟨ht, hrt, hslack, hatt⟩
        · refine ⟨ht.mark rfl, hrt.mark rfl, by simpa using hslack, fun hu => hatt ?_⟩
          exact (attempt_mark (by simp)).mp hu
      obtain ⟨hsu, hru, hslacku, hattu⟩ := hu
      refine hsu.partFrom hru (fun hau m hm hid => ?_) o part io
      exact hc (hattu hau) hd m (hslacku ▸ hm) hid
  by_cases hpins : (s.firstAttemptChannel o r.id).isNone = true ∧ o.pinChannel = true
  · rw [if_pos hpins]
    exact hrest _ (h.sound.mark rfl) (hr.mark rfl) (by simp) (attempt_mark (by simp)).mp
  · rw [if_neg hpins]
    exact hrest s h.sound hr rfl id

lemma Inv.scanned (h : Inv redact q s) {r : Posting} {place : Place} {o : Opts} {pio : PartIo}
    {rio : ReceiptIo} (hcall : s.call = some (.scanning r place)) :
    Inv redact q (s.scanned o r place pio rio) := by
  obtain ⟨⟨plan, hr⟩, hsee⟩ := h.call _ hcall
  unfold Delivery.scanned
  split
  · rename_i m hm
    have hid := List.find?_some hm
    simp only [Bool.decide_and, Bool.decide_eq_true, Bool.and_eq_true, decide_eq_true_eq] at hid
    exact h.sound.receipt hr (List.mem_of_find?_eq_some hm) hid.1 place.thread rio
  · rename_i hnone
    split
    · exact h.sound.stop
    · rename_i part hpart
      refine h.sound.post hr (fun m hm hid => ?_) o part place pio
      have := List.find?_eq_none.mp hnone m hm
      simp [hid, hsee m hm hid] at this

/-! ### Posts -/

lemma Complete.mono {t : Delivery} {plan : DeliveryPlan} (h : Complete redact q s plan)
    (hs : s.slack ⊆ t.slack) (hr : s.receipts ⊆ t.receipts) : Complete redact q t plan := by
  obtain ⟨hparts, m, hm, hid, hts⟩ := h
  refine ⟨fun k part hk => ?_, m, hs hm, hid, hr hts⟩
  obtain ⟨m', hm', hid', hpart⟩ := hparts k part hk
  exact ⟨m', hs hm', hid', hpart⟩

lemma Sound.slack_length (h : Sound redact q s) {r : Posting} {plan : DeliveryPlan}
    (hr : PostingOk redact q s r plan) (hnot : ∀ m ∈ s.slack, m.partId ≠ r.id) :
    s.slack.length = r.index := by
  have hle : s.slack.length ≤ r.index := by
    by_contra hlt
    rw [not_le] at hlt
    obtain ⟨plan', hp', hid, -⟩ := h.order r.index _ (List.getElem?_eq_getElem hlt)
    obtain rfl := Option.some.inj (hr.recorded.symm.trans hp')
    refine hnot _ (List.getElem_mem hlt) (hid.trans ?_)
    rw [← hr.parts]
    rfl
  -- Each earlier part is delivered, so it is in Slack, at its own place.
  have hge : ∀ k < r.index, k < s.slack.length := by
    intro k hk
    have hone : r.parts.length ≠ 1 := by
      have := hr.index
      omega
    obtain ⟨m, hm, hid⟩ := h.deliveredPart k (hr.before hone k hk)
    obtain ⟨i, hi, rfl⟩ := List.mem_iff_getElem.mp hm
    obtain ⟨plan', hp', hpart⟩ := h.order i _ (List.getElem?_eq_getElem hi)
    obtain rfl := Option.some.inj (hr.recorded.symm.trans hp')
    have hlen := hr.index
    rw [hr.parts] at hlen hone
    have hik := hpart.index_eq (k := k) (by omega) (by rw [hid, partIdFor, if_neg hone])
    omega
  rcases Nat.eq_zero_or_pos r.index with h0 | hpos
  · omega
  · have := hge (r.index - 1) (by omega)
    omega

lemma Sound.lands (h : Sound redact q s) {r : Posting} {plan : DeliveryPlan}
    (hr : PostingOk redact q s r plan) (hatt : .attempt r.id ∈ s.attempted)
    (hnot : ∀ m ∈ s.slack, m.partId ≠ r.id) (place : Place) (ts : String)
    (thread : Option String) :
    Sound redact q (s.lands r place ts thread) ∧
      PostingOk redact q (s.lands r place ts thread) r plan ∧
      ∃ m ∈ (s.lands r place ts thread).slack, m.partId = r.id ∧ m.ts = ts := by
  have hlen := h.slack_length hr hnot
  unfold Delivery.lands
  obtain ⟨part, hget⟩ : ∃ part, r.parts[r.index]? = some part :=
    ⟨_, List.getElem?_eq_getElem hr.index⟩
  rw [hget]
  set m : Message := ⟨r.id, part, ts, ⟨place.channel, thread⟩⟩ with hm
  have hsub : s.slack ⊆ s.slack ++ [m] := List.subset_append_left _ _
  have hself : m ∈ s.slack ++ [m] := List.mem_append_right _ (List.mem_singleton_self m)
  refine ⟨⟨h.proper, fun i m' hi => ?_, fun m' hm' => ?_, fun ts' th hp => ?_, fun k hk => ?_,
    fun hw => ?_, h.returned⟩, hr.congr rfl (fun _ hd => hd) fun _ hm => hsub hm,
    m, hself, rfl, rfl⟩
  · rw [List.getElem?_append] at hi
    split at hi
    · exact h.order i m' hi
    · rename_i hlt
      rw [List.getElem?_singleton] at hi
      obtain ⟨hi0, ⟨⟩⟩ := Option.ite_none_right_eq_some.mp hi
      obtain rfl : i = r.index := by omega
      refine ⟨plan, hr.recorded, ?_, ?_⟩
      · rw [← hr.parts]
        rfl
      · rw [← hr.parts]
        exact hget
  · rcases List.mem_append.mp hm' with hm' | hm'
    · exact h.tried m' hm'
    · rw [List.mem_singleton.mp hm']
      exact hatt
  · obtain ⟨m', hm', hid'⟩ := h.primary ts' th hp
    exact ⟨m', hsub hm', hid'⟩
  · obtain ⟨m', hm', hid'⟩ := h.deliveredPart k hk
    exact ⟨m', hsub hm', hid'⟩
  · obtain ⟨plan', hp, hc⟩ := h.deliveredWhole hw
    exact ⟨plan', hp, hc.mono hsub fun _ hx => hx⟩

lemma Sound.failed (h : Sound redact q s) (r : Posting) (io : FailureIo) :
    Inv redact q (s.failed r io) := by
  unfold Delivery.failed
  dsimp only
  have h₁ : Sound redact q
      (if io.kept then s.mark (.failure r.id io.failureClass io.detail io.permanent) else s) := by
    split
    · exact h.mark rfl
    · exact h
  split
  · exact (h₁.mark rfl).stop
  · exact h₁.stop

lemma Inv.posted (h : Inv redact q s) {r : Posting} {place : Place} {outcome : PostOutcome}
    (hcall : s.call = some (.posting r place)) : Inv redact q (s.posted r place outcome) := by
  obtain ⟨⟨plan, hr⟩, hatt, hnot⟩ := h.call _ hcall
  cases outcome with
  | landed ts thread told io =>
    obtain ⟨hs, hr', m, hm, hid, rfl⟩ := h.sound.lands hr hatt hnot place ts thread
    exact hs.receipt hr' hm hid _ io
  | lost ts thread io =>
    exact (h.sound.lands hr hatt hnot place ts thread).1.failed r io
  | refused io => exact h.sound.failed r io
  | threw => exact h.sound.stop

lemma Inv.crash (h : Inv redact q s) {r : Posting} {place : Place} {ts : String}
    {thread : Option String} (hcall : s.call = some (.posting r place)) :
    Inv redact q (s.lands r place ts thread).stop := by
  obtain ⟨⟨plan, hr⟩, hatt, hnot⟩ := h.call _ hcall
  exact (h.sound.lands hr hatt hnot place ts thread).1.stop

lemma Inv.finish (h : Inv redact q s) {primary : Option (String × Option String)}
    {posted deliveredRecorded seenRecorded : Bool} (hcall : s.call = some (.finishing primary)) :
    Inv redact q (s.finish primary posted deliveredRecorded seenRecorded) := by
  obtain ⟨plan, hp, hlen, hall, hprim⟩ := h.call _ hcall
  unfold Delivery.finish
  split
  · exact h.sound.stop
  rename_i ts th
  dsimp only
  split
  · exact h.sound.stop
  set s₁ : Delivery := { s with receipts := s.receipts ++ [ts] } with hs₁
  have hgrow : s.receipts ⊆ s₁.receipts := List.subset_append_left _ _
  have h₁ : Sound redact q s₁ :=
    ⟨h.sound.proper, h.sound.order, h.sound.tried, h.sound.primary, h.sound.deliveredPart,
    fun hw => (h.sound.deliveredWhole hw).imp fun _ ⟨hp, hc⟩ =>
      ⟨hp, hc.mono (fun _ hx => hx) hgrow⟩,
    h.sound.returned⟩
  split
  · exact h₁.stop
  have hne : (planParts redact q plan).length ≠ 1 := by omega
  have hcomplete : Complete redact q s₁ plan := by
    obtain ⟨m₀, hm₀, hid₀, hts₀⟩ := hprim ts th rfl
    refine ⟨fun k part hk => ?_, m₀, hm₀, ?_, ?_⟩
    · obtain ⟨m, hm, hid⟩ := h₁.deliveredPart k (hall k (List.getElem?_eq_some_iff.mp hk).1)
      have hid : m.partId = partIdFor (planParts redact q plan).length k := by
        rw [hid, partIdFor, if_neg hne]
      exact ⟨m, hm, hid, h₁.part_eq hp hm hid hk⟩
    · rw [hid₀, partIdFor, if_neg hne]
    · rw [hts₀]
      exact List.mem_append_right _ (List.mem_singleton_self ts)
  have h₂ : Sound redact q { s₁ with delivered := s₁.delivered ++ [PartId.whole] } := by
    refine ⟨h₁.proper, h₁.order, h₁.tried, h₁.primary, fun k hk => ?_,
      fun _ => ⟨plan, hp, hcomplete⟩, fun hret => List.mem_append_left _ (h₁.returned hret)⟩
    rcases List.mem_append.mp hk with hk | hk
    · exact h₁.deliveredPart k hk
    · cases List.mem_singleton.mp hk
  split
  · exact h₂.stop
  · refine ⟨⟨h₂.proper, h₂.order, h₂.tried, h₂.primary, h₂.deliveredPart,
      h₂.deliveredWhole, fun _ => ?_⟩, by simp⟩
    exact List.mem_append_right _ (List.mem_singleton_self _)

lemma Inv.step {t : Delivery} {l : Label} (h : Inv redact q s) (hc : Sighted redact q s l)
    (hst : step redact q s l = some t) : Inv redact q t := by
  cases l with
  | deliver o planRecorded =>
    obtain ⟨hcall, ⟨⟩⟩ := Option.ite_none_right_eq_some.mp hst
    exact h.deliver hcall hc
  | landed o planRecorded =>
    unfold SlackDelivery.step at hst
    dsimp only at hst
    split at hst
    · rename_i place hcall
      obtain rfl := Option.some.inj hst
      exact h.landed hcall hc
    · cases hst
  | part o io =>
    unfold SlackDelivery.step at hst
    dsimp only at hst
    split at hst
    · rename_i r hcall
      obtain rfl := Option.some.inj hst
      exact h.part hcall hc
    · cases hst
  | scanned o pio rio =>
    unfold SlackDelivery.step at hst
    dsimp only at hst
    split at hst
    · rename_i r place hcall
      obtain rfl := Option.some.inj hst
      exact h.scanned hcall
    · cases hst
  | posted outcome =>
    unfold SlackDelivery.step at hst
    dsimp only at hst
    split at hst
    · rename_i r place hcall
      obtain rfl := Option.some.inj hst
      exact h.posted hcall
    · cases hst
  | finish posted deliveredRecorded seenRecorded =>
    unfold SlackDelivery.step at hst
    dsimp only at hst
    split at hst
    · rename_i primary hcall
      obtain rfl := Option.some.inj hst
      exact h.finish hcall
    · cases hst
  | crash inFlight =>
    unfold SlackDelivery.step at hst
    dsimp only at hst
    split at hst
    · rename_i r place ts thread hcall
      obtain rfl := Option.some.inj hst
      exact h.crash hcall
    · obtain rfl := Option.some.inj hst
      exact h.sound.stop

end Calls

/-! ### Runs -/

/-- The text a plan's parts carry: the authored one, or the redacted one of a split. -/
def planText (redact : Text → Text) (q : Ask) (plan : DeliveryPlan) : Text :=
  if plan.body.isSome then splitText redact q else q.body ++ q.detail.getD []

/-- What is in Slack is the first parts of the recorded plan, each once and in order, and they
carry the planned text. Once a call has returned ok it is all of them, and the row has the
timestamp of the first. -/
structure Delivered (redact : Text → Text) (q : Ask) (s : Delivery) : Prop where
  once : (s.slack.map (·.partId)).Nodup
  parts : s.slack = [] ∨ ∃ plan, s.recordedPlan = some plan ∧
    s.slack.map (·.part) <+: planParts redact q plan
  text : ∀ plan, s.recordedPlan = some plan →
    ((planParts redact q plan).map (·.piece)).flatten = planText redact q plan
  returned : s.returnedOk = true → ∃ plan, s.recordedPlan = some plan ∧
    s.slack.map (·.part) = planParts redact q plan ∧ ∃ m ∈ s.slack.head?, m.ts ∈ s.receipts

section Runs

variable {redact : Text → Text} {q : Ask} {s : Delivery}

lemma authored_text : ((authored q).map (·.piece)).flatten = q.body ++ q.detail.getD [] := by
  unfold authored
  split
  · rename_i h
    simp [h]
  · rename_i detail h
    simp [h]

lemma Sound.slack_prefix (h : Sound redact q s) {plan : DeliveryPlan}
    (hp : s.recordedPlan = some plan) : s.slack.map (·.part) <+: planParts redact q plan := by
  rw [List.prefix_iff_getElem?]
  intro i hi
  rw [List.length_map] at hi
  obtain ⟨plan', hp', -, hpart⟩ := h.order i _ (List.getElem?_eq_getElem hi)
  obtain rfl := Option.some.inj (hp.symm.trans hp')
  rw [hpart, List.getElem_map]

lemma Sound.slack_nodup (h : Sound redact q s) : (s.slack.map (·.partId)).Nodup := by
  rw [List.nodup_iff_injective_getElem]
  rintro ⟨i, hi⟩ ⟨k, hk⟩ heq
  rw [List.length_map] at hi hk
  simp only [List.getElem_map] at heq
  obtain ⟨plan, hp, hpi⟩ := h.order i _ (List.getElem?_eq_getElem hi)
  obtain ⟨plan', hp', hpk⟩ := h.order k _ (List.getElem?_eq_getElem hk)
  obtain rfl := Option.some.inj (hp.symm.trans hp')
  rw [Fin.mk.injEq]
  exact hpi.index_eq (List.getElem?_eq_some_iff.mp hpk.2).1 (heq.trans hpk.1)

lemma Inv.delivered (h : Inv redact q s) : Delivered redact q s := by
  refine ⟨h.sound.slack_nodup, ?_, fun plan hp => ?_, fun hret => ?_⟩
  · cases hp : s.recordedPlan with
    | some plan => exact .inr ⟨plan, rfl, h.sound.slack_prefix hp⟩
    | none =>
      refine .inl (List.eq_nil_iff_forall_not_mem.mpr fun m hm => ?_)
      obtain ⟨plan, -, hp', -⟩ := h.sound.ofPlan hm
      simp [hp] at hp'
  · unfold planText
    split
    · rename_i hb
      exact (h.sound.proper plan (mem_of_recordedPlan hp) hb).2.1
    · rename_i hb
      rw [planParts_authored (by simpa using hb), authored_text]
  · obtain ⟨plan, hp, hall, m, hm, hid, hts⟩ := h.sound.deliveredWhole (h.sound.returned hret)
    have hslack := h.sound.slack_prefix hp
    refine ⟨plan, hp, hslack.eq_of_length_le ?_, ?_⟩
    · -- The last part is in Slack, at its own place.
      by_contra hlt
      rw [List.length_map, not_le] at hlt
      obtain ⟨m', hm', hid', -⟩ := hall _ _ (List.getElem?_eq_getElem hlt)
      obtain ⟨i, hi, rfl⟩ := List.mem_iff_getElem.mp hm'
      obtain ⟨plan', hp', hpart⟩ := h.sound.order i _ (List.getElem?_eq_getElem hi)
      obtain rfl := Option.some.inj (hp.symm.trans hp')
      exact absurd (hpart.index_eq hlt hid') (Nat.ne_of_lt hi)
    · obtain ⟨i, hi, rfl⟩ := List.mem_iff_getElem.mp hm
      obtain ⟨plan', hp', hpart⟩ := h.sound.order i _ (List.getElem?_eq_getElem hi)
      obtain rfl := Option.some.inj (hp.symm.trans hp')
      have hpos := planParts_length_pos (h.sound.proper plan (mem_of_recordedPlan hp))
      obtain rfl := hpart.index_eq hpos hid
      exact ⟨s.slack[0], by simp [List.head?_eq_getElem?], hts⟩

lemma Inv.initial : Inv redact q {} := by
  refine ⟨⟨?_, ?_, ?_, ?_, ?_, ?_, ?_⟩, ?_⟩ <;> simp

/-- **Delivery to Slack**: whatever becomes of the posts and the records, and whatever the channels,
the threads, the mention and the frames are by then, in a run of calls that look where the earlier
posts are each part is posted at most once, in order, and a call returns ok only with all of them
in Slack and the first one's timestamp on the row. -/
theorem slack_delivery {ls : List Label}
    (h : Path (fun s l t => step redact q s l = some t ∧ Sighted redact q s l) {} ls s) :
    Delivered redact q s :=
  (Path.invariant (I := fun s => Inv redact q s) (fun _ _ _ hs h => h.step hs.2 hs.1) h
    .initial).delivered

end Runs

/-- A split ask: the answer to its first part is lost, and the retry finds it; a crash cuts its
second. The mention and the frames change on the way. -/
theorem slack_delivery_split :
    let q : Ask := { body := [1, 2, 3, 0x20, 5] }
    let tight : Option String → Rooms := fun _ => ⟨fun _ => some 4, fun _ => some 4⟩
    let long : Option String → PartId → DeliveryPart → Bool := fun _ _ p => p.piece.length < 5
    let o : Opts := { channel := "C", rooms := tight, renders := long, mention := some "U" }
    let o' : Opts := { channel := "C", rooms := fun _ => ⟨fun _ => none, fun _ => none⟩ }
    ∃ s, Path (fun s l t => step id q s l = some t ∧ Sighted id q s l) {}
        [.deliver o true, .part o {}, .posted (.lost "1" none {}), .deliver o' true, .part o' {},
          .scanned o' {} {}, .part o' {}, .crash (some ("2", some "1")), .deliver o' true,
          .part o' {}, .part o' {}, .scanned o' {} {}, .finish true true true] s ∧
      s.returnedOk = true ∧ s.receipts = ["1"] ∧ Delivered id q s := by
  intro q tight long o o'
  let f : Delivery → Label → Option Delivery := fun s l =>
    if Sighted id q s l then step id q s l else none
  have hplay : (([.deliver o true, .part o {}, .posted (.lost "1" none {}), .deliver o' true,
      .part o' {}, .scanned o' {} {}, .part o' {}, .crash (some ("2", some "1")),
      .deliver o' true, .part o' {}, .part o' {}, .scanned o' {} {},
      .finish true true true] : List Label).foldlM f {}).any
      (fun s => s.returnedOk = true ∧ s.receipts = ["1"]) = true := by
    decide +kernel
  obtain ⟨s, hs, hfinal⟩ := (Option.any_eq_true _ _).mp hplay
  obtain ⟨hok, hr⟩ := of_decide_eq_true hfinal
  have h :=
    (path_iff_foldlM.mpr hs).mono (S := fun s l t => step id q s l = some t ∧ Sighted id q s l)
    fun s l t hst => (Option.ite_none_right_eq_some.mp hst).symm
  exact ⟨s, h, hok, hr, slack_delivery h⟩

/-- The post of a new root loses its answer, and by the retry another notification has opened the
conversation's thread: the retry looks there, and posts a second time. -/
theorem slack_posted_twice :
    ¬∀ (redact : Text → Text) (q : Ask) (ls : List Label) (s : Delivery),
      Path (fun s l t => step redact q s l = some t) {} ls s → Delivered redact q s := by
  intro h
  let q : Ask := { body := [1] }
  let o : Opts := { channel := "C", resolveChannel := some "D", pinChannel := true }
  let o' : Opts := { o with resolveThreadTs := fun _ => some "9" }
  have hplay : (([.deliver o true, .part o {}, .posted (.lost "1" none {}), .deliver o' true,
      .part o' {}, .scanned o' {} {}, .posted (.landed "2" (some "9") true {})] :
      List Label).foldlM (step id q) {}).any
      (fun s => s.slack.map (·.partId) = [.whole, .whole]) = true := by
    decide +kernel
  obtain ⟨s, hs, hfinal⟩ := (Option.any_eq_true _ _).mp hplay
  have honce := (h id q _ s (path_iff_foldlM.mpr hs)).once
  rw [of_decide_eq_true hfinal] at honce
  simp at honce

end OpenRig.SlackDelivery
