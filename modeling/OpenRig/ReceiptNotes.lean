import OpenRig.FieldText
import OpenRig.UriText

/-!
The notes of notification receipts: what is written when the relay accepts a notification or its
transport fails, and what is read back.

A digest is 32 bytes of each text.
-/

namespace OpenRig.ReceiptNotes

open OpenRig.JsText OpenRig.FieldText
open OpenRig.UriText (decodeURIComponent encodeURIComponent escapeWhere)

abbrev Text := List Char

def RELAY_OWNER_NOTIFICATION_ACCEPTED_PREFIX : Text := "relay-owner-notification-accepted".toList

def RELAY_OWNER_NOTIFICATION_TRANSPORT_FAILED_PREFIX : Text :=
  "relay-owner-notification-transport-failed".toList

inductive OwnerNotificationLevel where
  | record | notice | alert
  deriving DecidableEq

/-- `OWNER_NOTIFICATION_LEVELS`, by their text. -/
def ownerNotificationLevel (t : Text) : Option OwnerNotificationLevel :=
  if t = "RECORD".toList then some .record
  else if t = "NOTICE".toList then some .notice
  else if t = "ALERT".toList then some .alert
  else none

structure FormatRelayOwnerNotificationAcceptedInput where
  notificationKey : Text
  deliveryId : Option Text := none
  connectorRef : Option Text := none
  replyRef : Option Text := none
  replyRefHash : Option Text := none
  revision : Option Text := none
  episodeKey : Option Text := none
  level : Option Text := none
  kind : Option Text := none
  digest : Option Text := none

structure RelayOwnerNotificationReceipt where
  notificationKey : Text
  deliveryId : Option Text
  connectorRef : Option Text
  replyRef : Option Text
  replyRefHash : Option Text
  revision : Option Text
  episodeKey : Option Text
  level : Option OwnerNotificationLevel
  kind : Option Text
  digest : Option Text
  deriving DecidableEq

structure FormatRelayOwnerNotificationTransportFailedInput where
  notificationKey : Text
  connectorRef : Option Text := none
  failureClass : Text
  detail : Text

structure RelayOwnerNotificationTransportFailure where
  notificationKey : Text
  connectorRef : Option Text
  failureClass : Text
  error : Text
  deriving DecidableEq

/-! ### Tokens -/

/-- A value as it is kept: trimmed, and none when blank. -/
def clean (value : Option Text) : Option Text := (value.map trim).filter (· ≠ [])

/-- `/%|[\s=]/` -/
def escapes (c : Char) : Bool := c = '%' || isWhitespace c || c = '='

def encodeReceiptToken (value : Option Text) : Option Text :=
  (clean value).map (escapeWhere escapes)

def encodeConnectorRefToken (value : Option Text) : Option Text :=
  (value.filter (· ≠ [])).map encodeURIComponent

def decodeReceiptToken (value : Option Text) : Option Text := value.bind decodeURIComponent

/-- The digest of a text, in hexadecimal. -/
def hex (digest : Vector UInt8 32) : Text :=
  digest.toList.flatMap fun b => [Nat.digitChar (b.toNat / 16), Nat.digitChar (b.toNat % 16)]

/-- A notification key the formatters take. -/
def keyOk (notificationKey : Text) : Bool :=
  trim notificationKey ≠ [] && !(trim notificationKey).any isWhitespace

/-! ### Accepted -/

section Accepted

variable (sha256 : Text → Vector UInt8 32)

/-- The optional fields, in the order they are written. -/
def acceptedFields (input : FormatRelayOwnerNotificationAcceptedInput) :
    List (Text × Option Text) :=
  let rawReplyRef := clean input.replyRef
  let replyRefHash :=
    (encodeReceiptToken input.replyRefHash).or (rawReplyRef.map fun r => hex (sha256 r))
  [("delivery_id".toList, encodeReceiptToken input.deliveryId),
    ("connector_ref".toList, encodeConnectorRefToken input.connectorRef),
    ("reply_ref".toList, encodeReceiptToken rawReplyRef),
    ("reply_ref_hash".toList, replyRefHash),
    ("revision".toList, encodeReceiptToken input.revision),
    ("episode_key".toList, encodeReceiptToken input.episodeKey),
    ("level".toList, encodeReceiptToken input.level),
    ("kind".toList, encodeReceiptToken input.kind),
    ("digest".toList, encodeReceiptToken input.digest)]

def formatRelayOwnerNotificationAccepted (input : FormatRelayOwnerNotificationAcceptedInput) :
    Option Text :=
  if keyOk input.notificationKey then
    some (spaced (RELAY_OWNER_NOTIFICATION_ACCEPTED_PREFIX ::
      field "notification_key".toList (trim input.notificationKey) ::
      fieldsOf (acceptedFields sha256 input)))
  else none

def parseRelayOwnerNotificationAccepted (note : Text) : Option RelayOwnerNotificationReceipt :=
  if !(RELAY_OWNER_NOTIFICATION_ACCEPTED_PREFIX ++ [' ']).isPrefixOf note then none
  else
    let fields := words (trim note)
    let decodedValue (name : String) := decodeReceiptToken (valueOf name.toList fields)
    match valueOf "notification_key".toList fields with
    | none => none
    | some notificationKey =>
      let replyRef := decodedValue "reply_ref"
      some
        { notificationKey
          deliveryId := decodedValue "delivery_id"
          connectorRef := decodedValue "connector_ref"
          replyRef
          replyRefHash :=
            (decodedValue "reply_ref_hash").or (replyRef.map fun r => hex (sha256 r))
          revision := decodedValue "revision"
          episodeKey := decodedValue "episode_key"
          level := (decodedValue "level").bind ownerNotificationLevel
          kind := decodedValue "kind"
          digest := decodedValue "digest" }

end Accepted

/-! ### Transport failed -/

/-- `/[\r\n]/` -/
def isLineBreak (c : Char) : Bool := c = '\r' || c = '\n'

/-- `detail.replace(/[\r\n]+/g, " ")`. -/
def lineBreaksToSpaces : Text → Text
  | [] => []
  | c :: s =>
    if isLineBreak c then
      match s with
      | d :: _ => if isLineBreak d then lineBreaksToSpaces s else ' ' :: lineBreaksToSpaces s
      | [] => [' ']
    else c :: lineBreaksToSpaces s

def formatRelayOwnerNotificationTransportFailed
    (input : FormatRelayOwnerNotificationTransportFailedInput) : Option Text :=
  if keyOk input.notificationKey then
    match encodeReceiptToken (some input.failureClass) with
    | none => none
    | some failureClass =>
      let connector := (encodeConnectorRefToken input.connectorRef).map
        (field "connector_ref".toList)
      some (spaced (RELAY_OWNER_NOTIFICATION_TRANSPORT_FAILED_PREFIX ::
        field "notification_key".toList (trim input.notificationKey) ::
        (connector.toList ++ [field "class".toList failureClass,
          field "error".toList (trim (lineBreaksToSpaces input.detail))])))
  else none

def parseRelayOwnerNotificationTransportFailed (note : Text) :
    Option RelayOwnerNotificationTransportFailure :=
  if !(RELAY_OWNER_NOTIFICATION_TRANSPORT_FAILED_PREFIX ++ [' ']).isPrefixOf note then none
  else
    let trimmed := trim note
    let fields := words trimmed
    match valueOf "notification_key".toList fields with
    | none => none
    | some notificationKey =>
      match decodeReceiptToken (valueOf "class".toList fields) with
      | none => none
      | some failureClass =>
        some
          { notificationKey
            connectorRef := decodeReceiptToken (valueOf "connector_ref".toList fields)
            failureClass
            error := (afterFirst " error=".toList trimmed).getD
              ((valueOf "error".toList fields).getD []) }

/-! ### Tokens read back -/

lemma clean_ne_nil (value : Option Text) : clean value ≠ some [] := by
  intro h
  have := (Option.filter_eq_some_iff.mp h).2
  simp at this

lemma clean_clean (value : Option Text) : clean (clean value) = clean value := by
  unfold clean
  cases value with
  | none => rfl
  | some t =>
    rw [Option.map_some]
    by_cases ht : trim t = []
    · rw [ht]
      rfl
    · have hkept : (some (trim t)).filter (· ≠ []) = some (trim t) := by
        rw [Option.filter_some, if_pos (by simpa using ht)]
      rw [hkept, Option.map_some, trim_trim, hkept]

lemma decode_encodeReceiptToken (value : Option Text) :
    decodeReceiptToken (encodeReceiptToken value) = clean value := by
  unfold decodeReceiptToken encodeReceiptToken
  cases clean value with
  | none => rfl
  | some t => exact UriText.decode_escapeWhere (by decide) t

lemma decode_encodeConnectorRefToken (value : Option Text) :
    decodeReceiptToken (encodeConnectorRefToken value) = value.filter (· ≠ []) := by
  unfold decodeReceiptToken encodeConnectorRefToken
  cases value.filter (· ≠ []) with
  | none => rfl
  | some t => exact UriText.decode_encodeURIComponent t

lemma not_whitespace_of_unreserved {c : Char} (h : UriText.unreserved c = true ∨ c = '%') :
    isWhitespace c = false := by
  have hrange : 33 ≤ c.toNat ∧ c.toNat < 127 := by
    rcases h with h | rfl
    · exact UriText.unreserved_range h
    · decide
  rw [Bool.eq_false_iff]
  intro hw
  simp only [isWhitespace, Bool.or_eq_true, List.contains_iff_mem, List.mem_cons,
    List.not_mem_nil, or_false, Bool.and_eq_true, decide_eq_true_eq] at hw
  omega

lemma isWord_encodeReceiptToken {value : Option Text} {token : Text}
    (h : encodeReceiptToken value = some token) : IsWord token := by
  obtain ⟨t, ht, rfl⟩ := Option.map_eq_some_iff.mp h
  refine ⟨UriText.escapeWhere_ne_nil (by decide) fun hnil => clean_ne_nil value (hnil ▸ ht), ?_⟩
  intro c hc
  rcases UriText.mem_escapeWhere hc with hp | hu
  · simp only [escapes, Bool.or_eq_false_iff] at hp
    exact hp.1.2
  · exact not_whitespace_of_unreserved hu

lemma isWord_encodeConnectorRefToken {value : Option Text} {token : Text}
    (h : encodeConnectorRefToken value = some token) : IsWord token := by
  obtain ⟨t, ht, rfl⟩ := Option.map_eq_some_iff.mp h
  have hne : t ≠ [] := by simpa using (Option.filter_eq_some_iff.mp ht).2
  exact ⟨UriText.encodeURIComponent_ne_nil hne, fun c hc =>
    not_whitespace_of_unreserved (UriText.mem_encodeURIComponent hc)⟩

lemma hex_token (digest : Vector UInt8 32) :
    IsWord (hex digest) ∧ decodeURIComponent (hex digest) = some (hex digest) := by
  have hchar : ∀ c ∈ hex digest, UriText.unreserved c = true := by
    intro c hc
    obtain ⟨b, -, hb⟩ := List.mem_flatMap.mp hc
    have hdigit : ∀ n < 16, UriText.unreserved (Nat.digitChar n) = true := by decide
    have hb' := b.toNat_lt
    rcases List.mem_cons.mp hb with rfl | hb
    · exact hdigit _ (by omega)
    · rw [List.mem_singleton.mp hb]
      exact hdigit _ (by omega)
  refine ⟨⟨?_, fun c hc => not_whitespace_of_unreserved (.inl (hchar c hc))⟩,
    UriText.decode_of_no_percent fun hm => ?_⟩
  · intro hnil
    have hlen := congrArg List.length hnil
    simp [hex, List.length_flatMap] at hlen
  · have := hchar _ hm
    rw [UriText.unreserved_percent] at this
    cases this

/-! ### Accepted notes -/

section Accepted

variable {sha256 : Text → Vector UInt8 32}

/-- The receipt an accepted note stands for. -/
def accepted (sha256 : Text → Vector UInt8 32)
    (input : FormatRelayOwnerNotificationAcceptedInput) : RelayOwnerNotificationReceipt where
  notificationKey := trim input.notificationKey
  deliveryId := clean input.deliveryId
  connectorRef := input.connectorRef.filter (· ≠ [])
  replyRef := clean input.replyRef
  replyRefHash :=
    (clean input.replyRefHash).or ((clean input.replyRef).map fun r => hex (sha256 r))
  revision := clean input.revision
  episodeKey := clean input.episodeKey
  level := (clean input.level).bind ownerNotificationLevel
  kind := clean input.kind
  digest := clean input.digest

def acceptedNames : List Text :=
  ["delivery_id".toList, "connector_ref".toList, "reply_ref".toList, "reply_ref_hash".toList,
    "revision".toList, "episode_key".toList, "level".toList, "kind".toList, "digest".toList]

lemma acceptedFields_names (sha256 : Text → Vector UInt8 32)
    (input : FormatRelayOwnerNotificationAcceptedInput) :
    (acceptedFields sha256 input).map Prod.fst = acceptedNames := rfl

lemma isWord_acceptedFields {input : FormatRelayOwnerNotificationAcceptedInput}
    {o : Text × Option Text} (ho : o ∈ acceptedFields sha256 input) {value : Text}
    (hv : o.2 = some value) : IsWord value := by
  have hhash : ∀ value, (encodeReceiptToken input.replyRefHash).or
      ((clean input.replyRef).map fun r => hex (sha256 r)) = some value → IsWord value := by
    intro value h
    rcases Option.or_eq_some_iff.mp h with h | ⟨-, h⟩
    · exact isWord_encodeReceiptToken h
    · obtain ⟨r, -, rfl⟩ := Option.map_eq_some_iff.mp h
      exact (hex_token _).1
  simp only [acceptedFields, List.mem_cons, List.not_mem_nil, or_false] at ho
  rcases ho with rfl | rfl | rfl | rfl | rfl | rfl | rfl | rfl | rfl
  · exact isWord_encodeReceiptToken hv
  · exact isWord_encodeConnectorRefToken hv
  · exact isWord_encodeReceiptToken hv
  · exact hhash value hv
  all_goals exact isWord_encodeReceiptToken hv

/-- The names of a note's fields are words without an equals sign, and no other than
`notification_key`. -/
lemma acceptedNames_ok : ∀ n ∈ acceptedNames, '=' ∉ n ∧ (∀ c ∈ n, isWhitespace c = false) ∧
    n ≠ "notification_key".toList ∧
    (n ++ ['=']).isPrefixOf RELAY_OWNER_NOTIFICATION_ACCEPTED_PREFIX = false := by
  have hall : (acceptedNames.all fun n => !n.contains '=' && (n.all fun c => !isWhitespace c) &&
      n ≠ "notification_key".toList &&
      !(n ++ ['=']).isPrefixOf RELAY_OWNER_NOTIFICATION_ACCEPTED_PREFIX) = true := by decide
  intro n hn
  have h := List.all_eq_true.mp hall n hn
  simp only [Bool.and_eq_true, Bool.not_eq_true', decide_eq_true_eq] at h
  exact ⟨by simpa using h.1.1.1, noSpace_of_all h.1.1.2, h.1.2, h.2⟩

lemma key_word {notificationKey : Text} (h : keyOk notificationKey = true) :
    IsWord (trim notificationKey) := by
  simp only [keyOk, Bool.and_eq_true, decide_eq_true_eq, Bool.not_eq_true', List.any_eq_false] at h
  exact ⟨h.1, fun c hc => by simpa using h.2 c hc⟩

lemma acceptedTokens_words {input : FormatRelayOwnerNotificationAcceptedInput}
    (h : keyOk input.notificationKey = true) :
    ∀ t ∈ RELAY_OWNER_NOTIFICATION_ACCEPTED_PREFIX ::
      field "notification_key".toList (trim input.notificationKey) ::
      fieldsOf (acceptedFields sha256 input), IsWord t := by
  intro t ht
  rcases List.mem_cons.mp ht with rfl | ht
  · exact ⟨by decide, noSpace_of_all (by decide)⟩
  rcases List.mem_cons.mp ht with rfl | ht
  · exact isWord_field (noSpace_of_all (by decide)) (key_word h).2
  · obtain ⟨o, ho, hmap⟩ := List.mem_filterMap.mp ht
    obtain ⟨value, hv, rfl⟩ := Option.map_eq_some_iff.mp hmap
    have hname : o.1 ∈ acceptedNames := by
      rw [← acceptedFields_names sha256 input]
      exact List.mem_map.mpr ⟨o, ho, rfl⟩
    exact isWord_field (acceptedNames_ok _ hname).2.1 (isWord_acceptedFields ho hv).2

lemma valueOf_acceptedFields {input : FormatRelayOwnerNotificationAcceptedInput} {name : Text}
    {value : Option Text} (h : (name, value) ∈ acceptedFields sha256 input) (key : Text) :
    valueOf name (RELAY_OWNER_NOTIFICATION_ACCEPTED_PREFIX ::
      field "notification_key".toList key :: fieldsOf (acceptedFields sha256 input)) = value := by
  have hname : ∀ o ∈ acceptedFields sha256 input, o.1 ∈ acceptedNames := by
    intro o ho
    rw [← acceptedFields_names sha256 input]
    exact List.mem_map.mpr ⟨o, ho, rfl⟩
  obtain ⟨heq, -, hkey, hstart⟩ := acceptedNames_ok name (hname _ h)
  have hfield : (name ++ ['=']).isPrefixOf (field "notification_key".toList key) = false := by
    rw [Bool.eq_false_iff]
    exact fun hp => hkey ((field_isPrefixOf heq (by decide)).mp hp)
  rw [valueOf_cons_ne hstart, valueOf_cons_ne hfield]
  have hne : ∀ o ∈ acceptedFields sha256 input, o.2 ≠ some [] := fun o ho hv =>
    (isWord_acceptedFields ho hv).1 rfl
  have hnodup : ((acceptedFields sha256 input).map Prod.fst).Nodup := by
    rw [acceptedFields_names]
    decide
  simpa using valueOf_fieldsOf hnodup (fun o ho => (acceptedNames_ok _ (hname o ho)).1) hne h []
    fun _ => rfl

/-- **An accepted note reads back.** -/
theorem parse_accepted {input : FormatRelayOwnerNotificationAcceptedInput} {note : Text}
    (h : formatRelayOwnerNotificationAccepted sha256 input = some note) :
    parseRelayOwnerNotificationAccepted sha256 note = some (accepted sha256 input) := by
  obtain ⟨hkey, h⟩ := Option.ite_none_right_eq_some.mp h
  obtain rfl := Option.some.inj h
  set tokens := RELAY_OWNER_NOTIFICATION_ACCEPTED_PREFIX ::
    field "notification_key".toList (trim input.notificationKey) ::
    fieldsOf (acceptedFields sha256 input) with htokens
  have hstart : (RELAY_OWNER_NOTIFICATION_ACCEPTED_PREFIX ++ [' ']).isPrefixOf (spaced tokens) =
      true := by
    rw [htokens, spaced_cons _ (by simp), List.append_cons, List.isPrefixOf_iff_prefix]
    exact List.prefix_append _ _
  have hwords : words (trim (spaced tokens)) = tokens := by
    rw [words_trim, words_spaced_words (acceptedTokens_words hkey)]
  have hnk : valueOf "notification_key".toList tokens = some (trim input.notificationKey) := by
    rw [htokens, valueOf_cons_ne (by decide)]
    exact valueOf_cons_field (by decide) (key_word hkey).1 _
  have hvalue : ∀ (k : ℕ) {name : Text} {value : Option Text},
      (acceptedFields sha256 input)[k]? = some (name, value) → valueOf name tokens = value :=
    fun _ _ _ hk => valueOf_acceptedFields (List.mem_of_getElem? hk) _
  have hhash : decodeReceiptToken ((encodeReceiptToken input.replyRefHash).or
        ((clean input.replyRef).map fun r => hex (sha256 r))) =
      (clean input.replyRefHash).or ((clean input.replyRef).map fun r => hex (sha256 r)) := by
    have hgiven := decode_encodeReceiptToken input.replyRefHash
    cases hc : clean input.replyRefHash with
    | some t =>
      have he : encodeReceiptToken input.replyRefHash = some (escapeWhere escapes t) := by
        rw [encodeReceiptToken, hc]
        rfl
      rw [hc, he] at hgiven
      rw [he, Option.some_or, Option.some_or, hgiven]
    | none =>
      rw [encodeReceiptToken, hc, Option.map_none, Option.none_or]
      cases clean input.replyRef with
      | none => rfl
      | some r => exact (hex_token (sha256 r)).2
  unfold parseRelayOwnerNotificationAccepted
  rw [hstart]
  dsimp only [Bool.not_true]
  rw [if_neg (by simp), hwords, hnk]
  dsimp only
  rw [hvalue 0 rfl, hvalue 1 rfl, hvalue 2 rfl, hvalue 3 rfl, hvalue 4 rfl, hvalue 5 rfl,
    hvalue 6 rfl, hvalue 7 rfl, hvalue 8 rfl]
  simp only [decode_encodeReceiptToken, decode_encodeConnectorRefToken, clean_clean, hhash]
  rw [Option.or_assoc, Option.or_self]
  rfl

end Accepted

/-! ### Failure notes -/

/-- The detail as a failure note keeps it. -/
def kept (detail : Text) : Text := trim (lineBreaksToSpaces detail)

lemma isWhitespace_of_isLineBreak {c : Char} (h : isLineBreak c = true) :
    isWhitespace c = true := by
  simp only [isLineBreak, Bool.or_eq_true, decide_eq_true_eq] at h
  rcases h with rfl | rfl
  · decide
  · decide

/-- The words stay, whatever word the detail is put behind. -/
lemma words_append_lineBreaksToSpaces (a detail : Text) :
    words (a ++ lineBreaksToSpaces detail) = words (a ++ detail) := by
  fun_induction lineBreaksToSpaces detail generalizing a with
  | case1 => rfl
  | case2 c hc d rest hd ih =>
    rw [words_append (isWhitespace_of_isLineBreak hc), ih,
      words_append (isWhitespace_of_isLineBreak hd), words_cons (isWhitespace_of_isLineBreak hd)]
  | case3 c hc d rest hd ih =>
    have := ih []
    rw [List.nil_append, List.nil_append] at this
    rw [words_append (isWhitespace_of_isLineBreak hc), words_append (by decide), this]
  | case4 c hc =>
    rw [words_append (isWhitespace_of_isLineBreak hc), words_append (by decide)]
  | case5 c rest hc ih =>
    rw [List.append_cons, List.append_cons a c rest, ih]

lemma kept_words (detail : Text) : words (kept detail) = words detail := by
  rw [kept, words_trim]
  exact words_append_lineBreaksToSpaces [] detail

/-- The tokens of a failure note before its detail. -/
def failedTokens (key : Text) (connector : Option Text) (failureClass : Text) : List Text :=
  RELAY_OWNER_NOTIFICATION_TRANSPORT_FAILED_PREFIX ::
    fieldsOf [("notification_key".toList, some key), ("connector_ref".toList, connector),
      ("class".toList, some failureClass)]

lemma failedTokens_eq (key : Text) (connector : Option Text) (failureClass last : Text) :
    RELAY_OWNER_NOTIFICATION_TRANSPORT_FAILED_PREFIX :: field "notification_key".toList key ::
      ((connector.map (field "connector_ref".toList)).toList ++
        [field "class".toList failureClass, last]) =
      failedTokens key connector failureClass ++ [last] := by
  cases connector with
  | none => rfl
  | some c => rfl

lemma failedTokens_words {key failureClass : Text} {connector : Option Text} (hkey : IsWord key)
    (hconnector : ∀ c ∈ connector, IsWord c) (hclass : IsWord failureClass) :
    ∀ t ∈ failedTokens key connector failureClass, IsWord t ∧ t.head? ≠ some 'e' := by
  intro t ht
  rcases List.mem_cons.mp ht with rfl | ht
  · exact ⟨⟨by decide, noSpace_of_all (by decide)⟩, by decide⟩
  · obtain ⟨o, ho, hmap⟩ := List.mem_filterMap.mp ht
    obtain ⟨value, hv, rfl⟩ := Option.map_eq_some_iff.mp hmap
    simp only [List.mem_cons, List.not_mem_nil, or_false] at ho
    rcases ho with rfl | rfl | rfl
    · exact ⟨isWord_field (noSpace_of_all (by dsimp only; decide)) (Option.some.inj hv ▸ hkey).2,
        by simp [field]⟩
    · exact ⟨isWord_field (noSpace_of_all (by dsimp only; decide)) (hconnector value hv).2,
        by simp [field]⟩
    · exact ⟨isWord_field (noSpace_of_all (by dsimp only; decide)) (Option.some.inj hv ▸ hclass).2,
        by simp [field]⟩

lemma valueOf_failedTokens {key failureClass name : Text} {connector value : Option Text}
    (hkey : IsWord key) (hconnector : ∀ c ∈ connector, IsWord c) (hclass : IsWord failureClass)
    (k : ℕ) (h : [("notification_key".toList, some key), ("connector_ref".toList, connector),
      ("class".toList, some failureClass)][k]? = some (name, value))
    (hstart : (name ++ ['=']).isPrefixOf RELAY_OWNER_NOTIFICATION_TRANSPORT_FAILED_PREFIX = false)
    (rest : List Text) (hrest : value = none → valueOf name rest = none) :
    valueOf name (failedTokens key connector failureClass ++ rest) = value := by
  rw [failedTokens, List.cons_append, valueOf_cons_ne hstart]
  refine valueOf_fieldsOf ?_ ?_ ?_ (List.mem_of_getElem? h) rest hrest
  · exact (by decide : ["notification_key".toList, "connector_ref".toList, "class".toList].Nodup)
  · intro o ho
    have hname : o.1 ∈ ["notification_key".toList, "connector_ref".toList, "class".toList] :=
      List.mem_map.mpr ⟨o, ho, rfl⟩
    have : ∀ n ∈ ["notification_key".toList, "connector_ref".toList, "class".toList], '=' ∉ n := by
      decide
    exact this _ hname
  · intro o ho hnil
    simp only [List.mem_cons, List.not_mem_nil, or_false] at ho
    rcases ho with rfl | rfl | rfl
    · exact hkey.1 (Option.some.inj hnil)
    · exact (hconnector [] hnil).1 rfl
    · exact hclass.1 (Option.some.inj hnil)

/-- **A failure note reads back**, but for words of its detail that look like the connector's
field when there is no such field. -/
theorem parse_failed {input : FormatRelayOwnerNotificationTransportFailedInput} {note : Text}
    (h : formatRelayOwnerNotificationTransportFailed input = some note) :
    ∃ failure, parseRelayOwnerNotificationTransportFailed note = some failure ∧
      failure.notificationKey = trim input.notificationKey ∧
      failure.failureClass = trim input.failureClass ∧ failure.error = kept input.detail ∧
      (input.connectorRef.filter (· ≠ []) ≠ none ∨
        (∀ w ∈ (words input.detail).tail, ¬"connector_ref=".toList <+: w) →
        failure.connectorRef = input.connectorRef.filter (· ≠ [])) := by
  obtain ⟨hkey, h⟩ := Option.ite_none_right_eq_some.mp h
  cases hclass : encodeReceiptToken (some input.failureClass) with
  | none =>
    rw [hclass] at h
    cases h
  | some failureClass =>
    rw [hclass] at h
    obtain rfl := Option.some.inj h
    rw [failedTokens_eq]
    set connector := encodeConnectorRefToken input.connectorRef with hconnector
    set key := trim input.notificationKey with hk
    have hkw : IsWord key := key_word hkey
    have hcw : ∀ c ∈ connector, IsWord c := fun c hc => isWord_encodeConnectorRefToken hc
    have hfw : IsWord failureClass := isWord_encodeReceiptToken hclass
    have htokens := failedTokens_words hkw hcw hfw
    set tokens := failedTokens key connector failureClass with htok
    have hne : tokens ≠ [] := by simp [htok, failedTokens]
    set d := kept input.detail with hd
    have hhead : ∀ c ∈ d.head?, isWhitespace c = false := trim_head
    have hlast : field "error".toList d = "error=".toList ++ d := rfl
    have hnote : spaced (tokens ++ [field "error".toList d]) =
        spaced tokens ++ (" error=".toList ++ d) := by
      rw [spaced_snoc tokens _ hne, hlast]
      rfl
    have hstart : (RELAY_OWNER_NOTIFICATION_TRANSPORT_FAILED_PREFIX ++ [' ']).isPrefixOf
        (spaced (tokens ++ [field "error".toList d])) = true := by
      rw [htok, failedTokens, List.cons_append, spaced_cons _ (by simp), List.append_cons,
        List.isPrefixOf_iff_prefix]
      exact List.prefix_append _ _
    have htrim : trim (spaced (tokens ++ [field "error".toList d])) =
        spaced (tokens ++ [field "error".toList d]) := by
      refine trim_eq_self ?_ ?_
      · rw [htok, failedTokens, List.cons_append, spaced_cons _ (by simp)]
        exact fun c hc => by
          cases (show some 'r' = some c from hc)
          decide
      · rw [hnote, List.getLast?_append, List.getLast?_append]
        intro c hc
        cases hdl : d.getLast? with
        | some x =>
          rw [hdl] at hc
          obtain rfl := Option.some.inj hc
          exact trim_getLast _ hdl
        | none =>
          rw [hdl] at hc
          obtain rfl := Option.some.inj hc
          decide
    have hwords : words (spaced (tokens ++ [field "error".toList d])) =
        tokens ++ ("error=".toList ++ (words d).headD []) :: (words d).tail := by
      rw [words_spaced fun t ht => (htokens t ht).1, hlast,
        words_append_word ⟨by decide, noSpace_of_all (by decide)⟩ hhead]
    have herror : afterFirst " error=".toList (spaced (tokens ++ [field "error".toList d])) =
        some d := by
      rw [hnote]
      exact (afterFirst_spaced (fun t ht => (htokens t ht).1) (fun t ht => (htokens t ht).2)
        _).trans afterFirst_self
    have hkeyv := valueOf_failedTokens hkw hcw hfw 0 rfl (by decide)
      (("error=".toList ++ (words d).headD []) :: (words d).tail) (fun h => by cases h)
    have hclassv := valueOf_failedTokens hkw hcw hfw 2 rfl (by decide)
      (("error=".toList ++ (words d).headD []) :: (words d).tail) (fun h => by cases h)
    have hdecoded : decodeReceiptToken (some failureClass) = clean (some input.failureClass) := by
      rw [← hclass, decode_encodeReceiptToken]
    have hcleaned : clean (some input.failureClass) = some (trim input.failureClass) := by
      obtain ⟨t, ht, -⟩ := Option.map_eq_some_iff.mp hclass
      obtain ⟨hmap, -⟩ := Option.filter_eq_some_iff.mp ht
      rw [ht, ← hmap]
      rfl
    have hfold : trim (lineBreaksToSpaces input.detail) = d := rfl
    unfold parseRelayOwnerNotificationTransportFailed
    rw [hfold, hstart]
    dsimp only [Bool.not_true]
    rw [if_neg (by simp), htrim, hwords, hkeyv, herror]
    dsimp only
    rw [hclassv, hdecoded, hcleaned]
    refine ⟨_, rfl, rfl, rfl, rfl, fun hcond => ?_⟩
    have hrest : connector = none → valueOf "connector_ref".toList
        (("error=".toList ++ (words d).headD []) :: (words d).tail) = none := by
      intro hnone
      have hgiven : input.connectorRef.filter (· ≠ []) = none := by
        rw [← decode_encodeConnectorRefToken, ← hconnector, hnone]
        rfl
      rcases hcond with hcond | hcond
      · exact absurd hgiven hcond
      · refine valueOf_eq_none fun w hw => ?_
        rw [Bool.eq_false_iff]
        intro hp
        rcases List.mem_cons.mp hw with rfl | hw
        · cases (show false = true from hp)
        · refine hcond w ?_ (List.isPrefixOf_iff_prefix.mp hp)
          rwa [hd, kept_words] at hw
    have hvalue := valueOf_failedTokens hkw hcw hfw 1 rfl (by decide)
      (("error=".toList ++ (words d).headD []) :: (words d).tail) hrest
    dsimp only
    rw [hvalue, hconnector, decode_encodeConnectorRefToken]

/-! ### Round trips -/

lemma prefix_excl {note : Text}
    (ha : (RELAY_OWNER_NOTIFICATION_ACCEPTED_PREFIX ++ [' ']).isPrefixOf note = true)
    (hf : (RELAY_OWNER_NOTIFICATION_TRANSPORT_FAILED_PREFIX ++ [' ']).isPrefixOf note = true) :
    False := by
  rw [List.isPrefixOf_iff_prefix] at ha hf
  have hnot : ¬RELAY_OWNER_NOTIFICATION_ACCEPTED_PREFIX ++ [' '] <+:
      RELAY_OWNER_NOTIFICATION_TRANSPORT_FAILED_PREFIX ++ [' '] ∧
      ¬RELAY_OWNER_NOTIFICATION_TRANSPORT_FAILED_PREFIX ++ [' '] <+:
        RELAY_OWNER_NOTIFICATION_ACCEPTED_PREFIX ++ [' '] := by
    decide
  rcases List.prefix_or_prefix_of_prefix ha hf with h | h
  · exact hnot.1 h
  · exact hnot.2 h

lemma parseAccepted_starts {sha256 : Text → Vector UInt8 32} {note : Text}
    {receipt : RelayOwnerNotificationReceipt}
    (h : parseRelayOwnerNotificationAccepted sha256 note = some receipt) :
    (RELAY_OWNER_NOTIFICATION_ACCEPTED_PREFIX ++ [' ']).isPrefixOf note = true := by
  by_contra hp
  unfold parseRelayOwnerNotificationAccepted at h
  rw [Bool.not_eq_true] at hp
  rw [hp] at h
  cases h

lemma parseFailed_starts {note : Text} {failure : RelayOwnerNotificationTransportFailure}
    (h : parseRelayOwnerNotificationTransportFailed note = some failure) :
    (RELAY_OWNER_NOTIFICATION_TRANSPORT_FAILED_PREFIX ++ [' ']).isPrefixOf note = true := by
  by_contra hp
  unfold parseRelayOwnerNotificationTransportFailed at h
  rw [Bool.not_eq_true] at hp
  rw [hp] at h
  cases h

lemma format_accepted_isSome (sha256 : Text → Vector UInt8 32)
    (input : FormatRelayOwnerNotificationAcceptedInput) :
    (formatRelayOwnerNotificationAccepted sha256 input).isSome = keyOk input.notificationKey := by
  unfold formatRelayOwnerNotificationAccepted
  cases keyOk input.notificationKey with
  | true => rfl
  | false => rfl

lemma format_failed_isSome (input : FormatRelayOwnerNotificationTransportFailedInput) :
    (formatRelayOwnerNotificationTransportFailed input).isSome =
      (keyOk input.notificationKey && trim input.failureClass ≠ []) := by
  unfold formatRelayOwnerNotificationTransportFailed
  cases keyOk input.notificationKey with
  | false => rfl
  | true =>
    rw [if_pos rfl, encodeReceiptToken, clean, Option.map_some, Option.filter_some]
    by_cases h : trim input.failureClass = []
    · simp [h]
    · simp [h]

/-- **Receipts read back.** Notes are written exactly for a key that is a word once trimmed, and a
failure for a class that is not blank. Strings are trimmed and a blank one is none; a connector is
kept as it is, a missing reply hash is that of the reply, and a level is one of the three. A
failure's detail keeps its text; its connector is the one given, and without one it is none unless
a later word of the detail begins as the connector's field does. Neither note is read as the
other. -/
theorem receipts_round_trip (sha256 : Text → Vector UInt8 32) :
    (∀ input : FormatRelayOwnerNotificationAcceptedInput,
      ((formatRelayOwnerNotificationAccepted sha256 input).isSome = keyOk input.notificationKey) ∧
      ∀ note ∈ formatRelayOwnerNotificationAccepted sha256 input,
        parseRelayOwnerNotificationAccepted sha256 note = some (accepted sha256 input) ∧
        parseRelayOwnerNotificationTransportFailed note = none) ∧
    ∀ input : FormatRelayOwnerNotificationTransportFailedInput,
      ((formatRelayOwnerNotificationTransportFailed input).isSome =
        (keyOk input.notificationKey && trim input.failureClass ≠ [])) ∧
      ∀ note ∈ formatRelayOwnerNotificationTransportFailed input,
        parseRelayOwnerNotificationAccepted sha256 note = none ∧
        ∃ failure, parseRelayOwnerNotificationTransportFailed note = some failure ∧
          failure.notificationKey = trim input.notificationKey ∧
          failure.failureClass = trim input.failureClass ∧ failure.error = kept input.detail ∧
          (input.connectorRef.filter (· ≠ []) ≠ none ∨
            (∀ w ∈ (words input.detail).tail, ¬"connector_ref=".toList <+: w) →
            failure.connectorRef = input.connectorRef.filter (· ≠ [])) := by
  refine ⟨fun input => ⟨format_accepted_isSome sha256 input, fun note h => ?_⟩,
    fun input => ⟨format_failed_isSome input, fun note h => ?_⟩⟩
  · have hparse := parse_accepted h
    refine ⟨hparse, ?_⟩
    cases hf : parseRelayOwnerNotificationTransportFailed note with
    | none => rfl
    | some failure =>
      exact absurd (parseFailed_starts hf) (prefix_excl (parseAccepted_starts hparse))
  · obtain ⟨failure, hparse, hfields⟩ := parse_failed h
    refine ⟨?_, failure, hparse, hfields⟩
    cases ha : parseRelayOwnerNotificationAccepted sha256 note with
    | none => rfl
    | some receipt => exact (prefix_excl (parseAccepted_starts ha) (parseFailed_starts hparse)).elim

/-- A failure note whose tail looks like fields. -/
theorem receipts_round_trip_tail :
    let sha256 : Text → Vector UInt8 32 := fun _ => Vector.replicate 32 0
    let input : FormatRelayOwnerNotificationTransportFailedInput :=
      { notificationKey := "k".toList, failureClass := "http 503".toList
        detail := "class=a error=%\r\nnotification_key=b".toList }
    ∃ note failure, formatRelayOwnerNotificationTransportFailed input = some note ∧
      parseRelayOwnerNotificationAccepted sha256 note = none ∧
      parseRelayOwnerNotificationTransportFailed note = some failure ∧
      failure.failureClass = "http 503".toList ∧
      failure.error = "class=a error=% notification_key=b".toList ∧
      failure.connectorRef = none := by
  intro sha256 input
  obtain ⟨hsome, hparse⟩ := (receipts_round_trip sha256).2 input
  rw [show (keyOk input.notificationKey && trim input.failureClass ≠ []) = true by decide] at hsome
  obtain ⟨note, hnote⟩ := Option.isSome_iff_exists.mp hsome
  obtain ⟨ha, failure, hf, -, hclass, herror, hconn⟩ := hparse note hnote
  refine ⟨note, failure, hnote, ha, hf, ?_, ?_, hconn (.inr (by decide))⟩
  · rw [hclass]
    decide
  · rw [herror]
    decide

/-- Without a reply hash the note has that of the reply. -/
theorem reply_hash_is_filled :
    ¬∀ (sha256 : Text → Vector UInt8 32) (input : FormatRelayOwnerNotificationAcceptedInput)
      (note : Text), formatRelayOwnerNotificationAccepted sha256 input = some note →
      parseRelayOwnerNotificationAccepted sha256 note = some
        { notificationKey := trim input.notificationKey
          deliveryId := input.deliveryId.map trim
          connectorRef := input.connectorRef.map trim
          replyRef := input.replyRef.map trim
          replyRefHash := input.replyRefHash.map trim
          revision := input.revision.map trim
          episodeKey := input.episodeKey.map trim
          level := (input.level.map trim).bind ownerNotificationLevel
          kind := input.kind.map trim
          digest := input.digest.map trim } := by
  intro h
  let input : FormatRelayOwnerNotificationAcceptedInput :=
    { notificationKey := "k".toList, replyRef := some "r".toList }
  have hsome := format_accepted_isSome (fun _ => Vector.replicate 32 0) input
  rw [show keyOk input.notificationKey = true by decide] at hsome
  obtain ⟨note, hnote⟩ := Option.isSome_iff_exists.mp hsome
  have hclaimed := h _ input note hnote
  rw [parse_accepted hnote] at hclaimed
  have := congrArg RelayOwnerNotificationReceipt.replyRefHash (Option.some.inj hclaimed)
  revert this
  decide

end OpenRig.ReceiptNotes
