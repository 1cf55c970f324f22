import OpenRig.JsText

/-!
The relay envelope: what `prepareRelayDecision` freezes onto a decision before it is enqueued, and
the acceptance receipts its delivery owes.

Redaction, the rendering of texts, the encoding of reply references and their hash are taken as
they are, in `Rendering`.
-/

namespace OpenRig.RelayEnvelope

open OpenRig.JsText

inductive RelayQuestionMode where
  | ask | park
  deriving DecidableEq

inductive RelayIntent where
  | decision | update
  deriving DecidableEq

inductive RelayDeliveryOutcome where
  | interrupt | notify | digest
  deriving DecidableEq

structure RelayReplyRefPayload where
  qitemId : String
  episodeKey : String
  decisionRevision : String
  decisionId : String
  connectorRef : String
  mode : RelayQuestionMode
  digest : Bool := false
  deriving DecidableEq

structure RelayDigestItem where
  qitemId : String
  notificationKey : String
  summary : String
  body : Option String := none
  replyRef : Option String := none
  deriving DecidableEq

structure RelayOutboundEnvelope where
  deliveryId : String
  handle : String
  intent : RelayIntent
  outcome : RelayDeliveryOutcome
  summary : String
  body : String
  replyRef : Option String
  items : Option (List RelayDigestItem) := none
  deriving DecidableEq

structure MemberReceipt where
  qitemId : String
  notificationKey : String
  level : String
  kind : String
  summary : Option String := none
  body : Option String := none
  deriving DecidableEq

structure RelayPayloadCarry where
  qitemId : String
  notificationKey : Option String := none
  destinationSession : Option String := none
  summary : Option String := none
  body : Option String := none
  humanDetail : Option String := none
  humanIntent : Option RelayIntent := none
  ownerNotificationLevel : Option String := none
  ownerNotificationKind : Option String := none
  relayConnectorRef : Option String := none
  relayEnvelope : Option RelayOutboundEnvelope := none
  relayRevision : Option String := none
  relayReplyRefs : List (String × RelayReplyRefPayload) := []
  deliveryDigestPost : Bool := false
  digestId : Option String := none
  memberReceipts : List MemberReceipt := []
  quietRelease : Bool := false
  deliveryDeferralFire : Bool := false
  deriving DecidableEq

/-- The notification key the guards and the receipt of a single post go by. -/
def RelayPayloadCarry.key (p : RelayPayloadCarry) : String := p.notificationKey.getD p.qitemId

structure OutboundDecision where
  decisionId : String
  op : String
  entityBindingRef : String
  payload : RelayPayloadCarry
  deriving DecidableEq

def OUTBOUND_OP : String := "post_message"

/-! ### Preparation -/

structure HumanConnectorBinding where
  kind : String
  connectorRef : String
  primary : Bool
  handle : Option String := none

structure HumanFragment where
  entityId : String
  address : String
  connectorBindings : List HumanConnectorBinding

structure RelayBinding where
  connectorRef : String
  handle : String

structure RelayQuestionState where
  mode : RelayQuestionMode
  episodeKey : String
  decisionRevision : String
  humanIntent : Option RelayIntent := none
  summary : Option String := none
  body : Option String := none

/-- The texts and digests of an envelope. -/
structure Rendering where
  /-- `renderPlainTextSummary`: the text, or the fallback. -/
  summary : Option String → String → String
  /-- `renderPlainTextBody`. -/
  body : RelayPayloadCarry → String
  /-- The body of a digest item, from its raw summary and body; empty when there is none. -/
  itemBody : Option String → Option String → String
  encodeRelayReplyRef : RelayReplyRefPayload → String
  hashRelayReplyRef : String → String

/-- What preparation reads: the human registry (absent when it does not load), the question behind
a row, and the delivery rules. -/
structure PrepareRelayDecisionOpts where
  loadHumanRegistry : Option (List HumanFragment)
  lookupQuestionState : String → Option String → Option RelayQuestionState
  resolveOutcome : RelayPayloadCarry → RelayDeliveryOutcome

/-- JavaScript's `trim`. -/
def trim (s : String) : String :=
  String.ofList ((s.toList.dropWhile isWhitespace).reverse.dropWhile isWhitespace).reverse

/-- The recipient's primary binding, when it is a `relay` binding. -/
def resolvePrimaryRelayBinding (destinationOrRef : String) (reg : Option (List HumanFragment)) :
    Option RelayBinding := do
  let entities ← reg
  let raw := trim destinationOrRef
  if raw = "" then none else
  let human ← entities.find? fun e => e.address = raw ∨ e.entityId = raw
  let primary ← human.connectorBindings.find? fun b => b.primary
  if primary.kind ≠ "relay" then none else
  some { connectorRef := primary.connectorRef, handle := primary.handle.getD human.entityId }

def outcomeOf (o : PrepareRelayDecisionOpts) (p : RelayPayloadCarry) : RelayDeliveryOutcome :=
  if p.deliveryDigestPost then .digest
  else if p.quietRelease then .notify
  else if p.deliveryDeferralFire then .interrupt
  else o.resolveOutcome p

/-- The reply reference of a digest member: only a question that still asks for a decision has
one. -/
def memberRef (o : PrepareRelayDecisionOpts) (d : OutboundDecision) (binding : RelayBinding)
    (m : MemberReceipt) : Option RelayReplyRefPayload :=
  (o.lookupQuestionState m.qitemId (some m.notificationKey)).bind fun q =>
    if m.kind = "human-required" ∧ q.humanIntent ≠ some .update then
      some
        { qitemId := m.qitemId
          episodeKey := q.episodeKey
          decisionRevision := q.decisionRevision
          decisionId := d.decisionId
          connectorRef := binding.connectorRef
          mode := q.mode
          digest := true }
    else none

/-- A digest member as an item of the envelope. -/
def digestItem (r : Rendering) (o : PrepareRelayDecisionOpts) (d : OutboundDecision)
    (binding : RelayBinding) (m : MemberReceipt) : RelayDigestItem :=
  let q := o.lookupQuestionState m.qitemId (some m.notificationKey)
  let rawSummary := (q.bind (·.summary)).or m.summary
  let rawBody := (q.bind (·.body)).or m.body
  let body := r.itemBody rawSummary rawBody
  { qitemId := m.qitemId
    notificationKey := m.notificationKey
    summary := r.summary rawSummary m.qitemId
    body := if body ≠ "" then some body else none
    replyRef := (memberRef o d binding m).map r.encodeRelayReplyRef }

/-- Whether a single post asks for a decision. -/
def isDecision (p : RelayPayloadCarry) : Bool :=
  p.humanIntent ≠ some .update ∧
    (p.ownerNotificationKind = some "human-required" ∨
      (p.humanIntent = some .decision ∧ p.ownerNotificationKind ≠ some "human-decision-resolved"))

/-- The reply reference of a single post. -/
def askRef (o : PrepareRelayDecisionOpts) (d : OutboundDecision) (binding : RelayBinding)
    (outcome : RelayDeliveryOutcome) : Option RelayReplyRefPayload :=
  if isDecision d.payload ∧ d.payload.qitemId ≠ "" then
    (o.lookupQuestionState d.payload.qitemId d.payload.notificationKey).map fun q =>
      { qitemId := d.payload.qitemId
        episodeKey := q.episodeKey
        decisionRevision := q.decisionRevision
        decisionId := d.decisionId
        connectorRef := binding.connectorRef
        mode := q.mode
        digest := outcome = .digest }
  else none

/-- The intent, reply reference and items of the envelope, with the revision and the references
kept beside it. -/
structure Refs where
  intent : RelayIntent
  replyRef : Option String := none
  items : Option (List RelayDigestItem) := none
  revision : Option String := none
  refs : List (String × RelayReplyRefPayload) := []

def refsOf (r : Rendering) (o : PrepareRelayDecisionOpts) (d : OutboundDecision)
    (binding : RelayBinding) (outcome : RelayDeliveryOutcome) : Refs :=
  let members := d.payload.memberReceipts
  if members ≠ [] then
    let items := members.map (digestItem r o d binding)
    { intent := if items.any fun it => it.replyRef.isSome then .decision else .update
      -- One reply must not resolve several questions.
      replyRef := match items with
        | [it] => it.replyRef
        | _ => none
      items := some items
      refs := (members.filterMap (memberRef o d binding)).map fun m =>
        (r.encodeRelayReplyRef m, m) }
  else
    let ref := askRef o d binding outcome
    { intent := if isDecision d.payload then .decision else .update
      replyRef := ref.map r.encodeRelayReplyRef
      revision := ref.map (·.decisionRevision)
      refs := ref.toList.map fun m => (r.encodeRelayReplyRef m, m) }

/-- A payload with its envelope frozen onto it. -/
def RelayPayloadCarry.frozen (p : RelayPayloadCarry) : Bool :=
  p.relayEnvelope.isSome && truthy p.relayConnectorRef

/-- The preparation hook run before a decision is enqueued. -/
def prepareRelayDecision (r : Rendering) (o : PrepareRelayDecisionOpts) (d : OutboundDecision) :
    OutboundDecision :=
  if d.op ≠ OUTBOUND_OP then d
  else if d.payload.frozen then d
  else
    match resolvePrimaryRelayBinding (d.payload.destinationSession.getD d.entityBindingRef)
      o.loadHumanRegistry with
    | none => d
    | some binding =>
      let p := d.payload
      let outcome := outcomeOf o p
      let refs := refsOf r o d binding outcome
      let envelope : RelayOutboundEnvelope :=
        { deliveryId := d.decisionId
          handle := binding.handle
          intent := refs.intent
          outcome
          summary := r.summary p.summary (if p.qitemId ≠ "" then p.qitemId else d.decisionId)
          body := r.body p
          replyRef := refs.replyRef
          items := refs.items }
      { d with payload := { p with
          relayConnectorRef := some binding.connectorRef
          relayEnvelope := some envelope
          relayRevision := if truthy refs.revision then refs.revision else p.relayRevision
          relayReplyRefs := if refs.refs ≠ [] then refs.refs else p.relayReplyRefs } }

variable (r : Rendering) (o : PrepareRelayDecisionOpts)

/-- What preparation can do: nothing, or freeze an envelope under the decision's own id. The id and
what the receipts go by stay. -/
lemma prepare_cases (d : OutboundDecision) :
    prepareRelayDecision r o d = d ∨
      ∃ connectorRef envelope revision refs,
        envelope.deliveryId = d.decisionId ∧
        prepareRelayDecision r o d =
          { d with payload := { d.payload with
              relayConnectorRef := some connectorRef
              relayEnvelope := some envelope
              relayRevision := revision
              relayReplyRefs := refs } } := by
  unfold prepareRelayDecision
  split
  · exact .inl rfl
  · split
    · exact .inl rfl
    · split
      · exact .inl rfl
      · exact .inr ⟨_, _, _, _, rfl, rfl⟩

@[simp] lemma prepare_decisionId (d : OutboundDecision) :
    (prepareRelayDecision r o d).decisionId = d.decisionId := by
  rcases prepare_cases r o d with h | ⟨_, _, _, _, -, h⟩ <;> rw [h]

lemma prepare_deliveryId {d : OutboundDecision} (hd : d.payload.relayEnvelope = none)
    {envelope : RelayOutboundEnvelope}
    (h : (prepareRelayDecision r o d).payload.relayEnvelope = some envelope) :
    envelope.deliveryId = d.decisionId := by
  rcases prepare_cases r o d with heq | ⟨_, _, _, _, hid, heq⟩
  · rw [heq, hd] at h
    simp at h
  · rw [heq] at h
    obtain rfl := Option.some.inj h
    exact hid

/-! ### The receipts an acceptance owes -/

structure RelayAcceptedReceiptInfo where
  qitemId : String
  notificationKey : String
  connectorRef : String
  deliveryId : String
  replyRef : Option String
  refHash : Option String
  revision : Option String
  episodeKey : String
  level : String
  kind : String
  humanIntent : Option RelayIntent
  digestId : Option String := none
  deriving DecidableEq

/-- What `hasAcceptedReceipt` looks a receipt up by. -/
def RelayAcceptedReceiptInfo.key (i : RelayAcceptedReceiptInfo) : String × String :=
  (i.qitemId, i.notificationKey)

/-- The frozen reference behind a reply reference that is there. -/
def frozenRef (p : RelayPayloadCarry) (ref : Option String) : Option RelayReplyRefPayload :=
  ref.bind fun r => (p.relayReplyRefs.find? fun e => e.1 = r).map (·.2)

def memberInfo (hash : String → String) (d : OutboundDecision) (connectorRef : String)
    (envelope : RelayOutboundEnvelope) (m : MemberReceipt) : RelayAcceptedReceiptInfo :=
  let entry := (envelope.items.getD []).find? fun it =>
    it.qitemId = m.qitemId ∧ it.notificationKey = m.notificationKey
  let ref := (entry.bind (·.replyRef)).or
    (if d.payload.memberReceipts.length = 1 then envelope.replyRef else none)
  { qitemId := m.qitemId
    notificationKey := m.notificationKey
    connectorRef
    deliveryId := d.decisionId
    replyRef := ref
    refHash := ref.map hash
    revision := (frozenRef d.payload ref).map (·.decisionRevision)
    episodeKey := ((frozenRef d.payload ref).map (·.episodeKey)).getD m.notificationKey
    level := m.level
    kind := m.kind
    humanIntent := some (if m.kind = "human-required" then .decision else .update)
    digestId := some (d.payload.digestId.getD "unknown") }

def singleInfo (hash : String → String) (d : OutboundDecision) (connectorRef : String)
    (envelope : RelayOutboundEnvelope) : RelayAcceptedReceiptInfo :=
  let frozen := frozenRef d.payload envelope.replyRef
  { qitemId := d.payload.qitemId
    notificationKey := d.payload.key
    connectorRef
    deliveryId := d.decisionId
    replyRef := envelope.replyRef
    refHash := envelope.replyRef.map hash
    revision := (frozen.map (·.decisionRevision)).or d.payload.relayRevision
    episodeKey := (frozen.map (·.episodeKey)).getD d.payload.key
    level := d.payload.ownerNotificationLevel.getD "RECORD"
    kind := d.payload.ownerNotificationKind.getD "unclassified"
    humanIntent := d.payload.humanIntent }

/-- A post that answers for the members of a digest. -/
def RelayPayloadCarry.aggregate (p : RelayPayloadCarry) : Bool :=
  p.deliveryDigestPost && p.memberReceipts ≠ []

def buildExpectedReceipts (hash : String → String) (d : OutboundDecision) (connectorRef : String)
    (envelope : RelayOutboundEnvelope) : List RelayAcceptedReceiptInfo :=
  if d.payload.aggregate then d.payload.memberReceipts.map (memberInfo hash d connectorRef envelope)
  else if d.payload.qitemId ≠ "" then [singleInfo hash d connectorRef envelope]
  else []

/-- The row and notification of every receipt a decision owes. -/
def expectedKeys (p : RelayPayloadCarry) : List (String × String) :=
  if p.aggregate then p.memberReceipts.map fun m => (m.qitemId, m.notificationKey)
  else if p.qitemId ≠ "" then [(p.qitemId, p.key)]
  else []

lemma buildExpectedReceipts_keys (hash : String → String) (d : OutboundDecision)
    (connectorRef : String) (envelope : RelayOutboundEnvelope) :
    (buildExpectedReceipts hash d connectorRef envelope).map (·.key) = expectedKeys d.payload := by
  unfold buildExpectedReceipts expectedKeys
  split
  · rw [List.map_map]
    rfl
  · split <;> rfl

lemma buildExpectedReceipts_deliveryId {hash : String → String} {d : OutboundDecision}
    {connectorRef : String} {envelope : RelayOutboundEnvelope} {i : RelayAcceptedReceiptInfo}
    (h : i ∈ buildExpectedReceipts hash d connectorRef envelope) : i.deliveryId = d.decisionId := by
  unfold buildExpectedReceipts at h
  split at h
  · obtain ⟨m, -, rfl⟩ := List.mem_map.mp h
    rfl
  · split at h
    · obtain rfl := List.mem_singleton.mp h
      rfl
    · simp at h

@[simp] lemma prepare_expectedKeys (d : OutboundDecision) :
    expectedKeys (prepareRelayDecision r o d).payload = expectedKeys d.payload := by
  rcases prepare_cases r o d with h | ⟨_, _, _, _, -, h⟩ <;> rw [h]
  rfl

end OpenRig.RelayEnvelope
