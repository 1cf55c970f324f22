import Mathlib.Data.List.Basic

/-!
The transition notes of delivery: what the gateway and the delivery policies write on a queue row
and read back from it.
-/

namespace OpenRig.Delivery

/-- `${qitemId}:${transitionId}` of the notification's transition, or the bare row id. -/
structure NotificationKey where
  qitemId : String
  transitionId : Option ℕ := none
  deriving DecidableEq

structure QuietHold where
  windowId : String
  occurrence : String
  revision : ℕ
  notificationKey : NotificationKey
  deriving DecidableEq

inductive ReleaseDisposition where
  | rowNotActive | superseded | recipientChanged | belowPostingThreshold
  deriving DecidableEq

/-- The notes delivery tells apart by their prefix, and any other text. -/
inductive Note where
  /-- `slack-owner-notification-posted` -/
  | posted (key : NotificationKey)
  /-- `relay-owner-notification-accepted` -/
  | accepted (key : NotificationKey)
  /-- `delivery-deferral-armed` -/
  | deferralArmed (jobId fireAt : ℕ) (key : NotificationKey) (who : String)
  /-- `delivery-deferral-dispatching` -/
  | deferralDispatching (jobId : ℕ) (key : NotificationKey)
  /-- `delivery-deferral-attempt-failed` -/
  | deferralAttemptFailed (jobId : ℕ) (key : NotificationKey) (error : Option String)
  /-- `delivery-deferral-fired` -/
  | deferralFired (jobId : ℕ) (key : NotificationKey) (who : String)
  /-- `delivery-decision: quiet-hold` -/
  | quietHold (hold : QuietHold)
  /-- `quiet-release-dispatched` -/
  | quietDispatched (windowId : String) (key : NotificationKey)
  /-- `quiet-release-returned` -/
  | quietReturned (windowId : String) (key : NotificationKey)
  /-- `quiet-release-disposition` -/
  | quietDisposition (windowId : String) (key : NotificationKey) (reason : ReleaseDisposition)
  | other (text : String)
  deriving DecidableEq

namespace Note

/-- `startsWith(DELIVERY_DEFERRAL_FIRED_PREFIX)`. -/
def isFired : Note → Bool
  | deferralFired .. => true
  | _ => false

/-- A fired note that names the key. -/
def firedFor (key : NotificationKey) : Note → Bool
  | deferralFired _ k _ => k = key
  | _ => false

def isDispatching : Note → Bool
  | deferralDispatching .. => true
  | _ => false

end Note

/-- `queue_transitions`: each note with its row, in order. -/
abbrev Transitions := List (String × Note)

def Transitions.listTransitions (t : Transitions) (qitemId : String) : List Note :=
  (t.filter fun e => e.1 = qitemId).map Prod.snd

lemma Transitions.listTransitions_append (t u : Transitions) (q : String) :
    Transitions.listTransitions (t ++ u) q = t.listTransitions q ++ u.listTransitions q := by
  rw [listTransitions, List.filter_append, List.map_append]
  rfl

@[simp] lemma Transitions.listTransitions_single (q q' : String) (n : Note) :
    Transitions.listTransitions [(q', n)] q = if q' = q then [n] else [] := by
  by_cases h : q' = q
  · simp [listTransitions, h]
  · simp [listTransitions, h]

end OpenRig.Delivery
