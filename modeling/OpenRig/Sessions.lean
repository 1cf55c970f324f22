import OpenRig.JsText

/-!
Session names and the people a queue can address.

A destination is text. It is classified lexically (a human seat, a reference in the
virtual domain `external`, a canonical `member@rig`, a legacy flat name) and then, for
people, looked up in the registry of humans in force at that moment.
-/

namespace OpenRig.Sessions

open OpenRig.JsText

/-- `[A-Za-z0-9._-]`, the characters of a human seat's suffix. -/
def seatChar (c : Char) : Bool := c.isAlphanum || c = '.' || c = '_' || c = '-'

/-- `/^human(?:-[A-Za-z0-9._-]+)?@(kernel|host)$/`. -/
def isHumanSeatSession (s : String) : Bool :=
  match splitFirst '@' s with
  | none => false
  | some (before, after) =>
    (after = "kernel".toList || after = "host".toList) &&
      (before = "human".toList ||
        ("human-".toList.isPrefixOf before && 6 < before.length && (before.drop 6).all seatChar))

/-- `/^[A-Za-z0-9._:-]+@(external)$/`. -/
def isVirtualDomainRef (s : String) : Bool :=
  match splitFirst '@' s with
  | none => false
  | some (before, after) =>
    after = "external".toList && !before.isEmpty && before.all fun c => seatChar c || c = ':'

/-- A human-class reference: a human seat or a virtual-domain reference. -/
def isHumanSeatSessionRef (s : String) : Bool := isHumanSeatSession s || isVirtualDomainRef s

/-- `/^r\d{2}-.+$/`, on a name without line terminators after the dash. -/
def isLegacyFlatSession (s : String) : Bool :=
  match s.toList with
  | 'r' :: a :: b :: '-' :: c :: rest =>
    a.isDigit && b.isDigit && (c :: rest).all fun x =>
      !([0x0A, 0x0D, 0x2028, 0x2029].contains x.toNat)
  | _ => false

inductive ParsedSessionName where
  | canonical (member rig : List Char)
  | legacy (name : String)
  | external (localPart domain : List Char)
  | malformed (input : String)
  deriving DecidableEq

/-- The virtual domain is recognised before the canonical form. -/
def parseSessionName (raw : String) : ParsedSessionName :=
  match splitFirst '@' raw with
  | some (before, after) =>
    if isVirtualDomainRef raw then .external before after
    else if !before.isEmpty && !after.isEmpty then .canonical before after
    else .malformed raw
  | none => if isLegacyFlatSession raw then .legacy raw else .malformed raw

/-! ### The registry of people -/

inductive SubscriptionPreset where
  | everyAsk
  | urgentOnly
  deriving DecidableEq, Repr

/-- What the queue reads of a registered human. -/
structure HumanFragment where
  entityId : String
  address : String
  /-- The connector kind of each binding, and whether it is the primary one. -/
  connectorBindings : List (String × Bool)
  /-- The authored Slack preset, when there is one. -/
  slackPreset : Option SubscriptionPreset
  deriving DecidableEq

/-- One load of the registry: its people, or an error (and whether that is only because
nobody is registered yet). -/
inductive LoadResult where
  | ok (entities : List HumanFragment)
  | error (text : String) (noHumans : Bool)
  deriving DecidableEq

/-- The people a load names; `none` when the registry is broken. -/
def registeredPeople : LoadResult → Option (List HumanFragment)
  | .ok entities => some entities
  | .error _ true => some []
  | .error _ false => none

/-- The canonical address of the registered human a reference names. -/
def resolveRegisteredHumanAddress (ref : Option String) (people : List HumanFragment) :
    Option String :=
  match ref with
  | none => none
  | some r =>
    let identity := match parseSessionName r with
      | .external localPart _ => some localPart
      | .canonical member _ => some member
      | _ => none
    identity.bind fun i =>
      (people.find? fun e => e.entityId.toList = i).map HumanFragment.address

def isPersonAddress (registry : LoadResult) (destination : String) : Bool :=
  isHumanSeatSessionRef destination ||
    match registry with
    | .ok entities => (resolveRegisteredHumanAddress (some destination) entities).isSome
    | .error _ _ => false

/-- The Slack preset in force for a person: every ask, unless authored otherwise. -/
def slackSubscriptionFor (human : Option HumanFragment) : SubscriptionPreset :=
  (human.bind HumanFragment.slackPreset).getD .everyAsk

/-- The tag an ask marked alert-worthy carries. -/
def humanAlertTag : String := "human-alert"

/-- The ask's tags, with the alert tag exactly when this create or handoff is marked. -/
def withHumanAlertTag (tags : Option (List String)) (humanAlert : Option Bool) :
    Option (List String) :=
  let rest := (tags.getD []).filter (· ≠ humanAlertTag)
  if humanAlert = some true then some (rest ++ [humanAlertTag])
  else if tags.isSome then some rest else none

/-- An external reference of the literal-scheme form, `scheme:handle`. -/
def isSchemeRef (l : List Char) : Bool :=
  match l.span (· ≠ ':') with
  | (a, _ :: b) => !a.isEmpty && !b.isEmpty
  | _ => false

example : isHumanSeatSession "human-ops@host" = true := by decide
example : isPersonAddress (.ok []) "qitem-x@external" = true := by decide

end OpenRig.Sessions
