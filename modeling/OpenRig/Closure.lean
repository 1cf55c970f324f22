import OpenRig.Sessions

/-!
Queue states, closure reasons and the two validators every surface inherits: the
hot-potato contract on `done` and the field contract of human-routed items.

Three notions of a closed row live side by side and are kept apart here as in the source:
`isTerminalState`, `isBlockerLive` and `isGuardedTerminal`.
-/

namespace OpenRig.Closure

open OpenRig.JsText OpenRig.Sessions

inductive QueueState where
  | pending | inProgress | done | blocked | failed | denied | canceled | handedOff
  deriving DecidableEq, Repr

namespace QueueState

/-- The spelling stored in the `state` column. -/
def text : QueueState → String
  | pending => "pending"
  | inProgress => "in-progress"
  | done => "done"
  | blocked => "blocked"
  | failed => "failed"
  | denied => "denied"
  | canceled => "canceled"
  | handedOff => "handed-off"

/-- `TERMINAL_QUEUE_STATES`: done and handed-off. -/
def isTerminalState (s : QueueState) : Bool := s = done || s = handedOff

/-- `ACTIVE_QUEUE_STATES`: a blocker in one of these may still lift. -/
def isBlockerLive (s : QueueState) : Bool := s = pending || s = inProgress || s = blocked

/-- The states `update` lets a row leave only through a deliberate reopen. -/
def isGuardedTerminal (s : QueueState) : Bool := s = done || s = canceled || s = handedOff

lemma not_live_of_terminal {s : QueueState} (h : s.isTerminalState = true) :
    s.isBlockerLive = false := by
  cases s <;> simp_all [isTerminalState, isBlockerLive]

lemma not_live_of_guarded {s : QueueState} (h : s.isGuardedTerminal = true) :
    s.isBlockerLive = false := by
  cases s <;> simp_all [isGuardedTerminal, isBlockerLive]

end QueueState

inductive ClosureReason where
  | handedOffTo | blockedOn | denied | canceled | noFollowOn | escalation | superseded
  deriving DecidableEq, Repr

namespace ClosureReason

def text : ClosureReason → String
  | handedOffTo => "handed_off_to"
  | blockedOn => "blocked_on"
  | denied => "denied"
  | canceled => "canceled"
  | noFollowOn => "no-follow-on"
  | escalation => "escalation"
  | superseded => "superseded"

/-- `CLOSURE_REASONS`. -/
def all : List ClosureReason :=
  [handedOffTo, blockedOn, denied, canceled, noFollowOn, escalation, superseded]

/-- `DONE_CLOSURE_REASONS`: every reason but `blocked_on`. -/
def doneReasons : List ClosureReason := all.filter (· ≠ blockedOn)

/-- `isClosureReason`, as a parse. -/
def ofText? (s : String) : Option ClosureReason := all.find? fun r => r.text = s

lemma ofText?_text (r : ClosureReason) : ofText? r.text = some r := by
  cases r <;> decide

/-- The spelling of the valid reasons in an error message. -/
def doneReasonsText : String := ", ".intercalate (doneReasons.map text)

end ClosureReason

/-! ### Errors -/

/-- The codes of `QueueRepositoryError` the modelled verbs throw. -/
inductive ErrorCode where
  | qitemNotFound | qitemAlreadyTerminal | qitemIdReuse | unknownDestinationRig
  | humanRegistryUnavailable | invalidHumanNotification | invalidHumanQuestions
  | replyToRequiresUpdate | replyToNotFound | humanRouteFieldsRequired
  | claimDestinationMismatch | qitemNotClaimable | qitemNotInProgress
  | noteAppendFieldsNotAdmitted | stateOrNoteRequired | wakeNotAdmitted | wakeAmbiguous
  | wakeAfterInvalid | wakeMessageNotAdmitted | wakeMaxInvalid | wakeMessageInvalid
  | terminalReopenRequiresAck | terminalReopenTargetInvalid | reopenNoteRequired
  | reopenNotApplicable | missingClosureReason | invalidClosureReason | missingClosureTarget
  | workflowFrontierPacket | summaryEvidenceNotPersistable | closureFieldsNotAdmitted
  | blockedOnNotAdmitted | blockerNotFound | blockerNotLive | blockerMalformed
  | wakeWatchdogNotLive | wakeWatchdogTargetMismatch | wakeSelfBlocker
  | crossHostCloseConflict | wakeIntentStoreUnavailable | terminalCloseWithoutWakeIntent
  | deliveryIdentityConflict | deliveryAlreadyAttempted | outboxNotFound | retainedQuotaFull
  | primaryKeyConflict | targetSessionInvalid | jobNotFound | jobTerminal
  deriving DecidableEq, Repr

/-- A refusal: nothing was written. -/
structure QueueRepositoryError where
  code : ErrorCode
  message : String
  info : List (String × String) := []
  deriving DecidableEq, Repr

abbrev Result := Except QueueRepositoryError

/-- `throw new QueueRepositoryError(code, message, meta)`. -/
def refuse {α : Type} (code : ErrorCode) (message : String)
    (info : List (String × String) := []) : Result α :=
  .error { code, message, info }

def refuseIf (c : Bool) (code : ErrorCode) (message : String)
    (info : List (String × String) := []) : Result Unit :=
  if c then refuse code message info else pure ()

lemma refuse_ne_ok {α : Type} {code : ErrorCode} {message : String}
    {info : List (String × String)} {a : α} :
    (refuse code message info : Result α) ≠ .ok a := by
  intro h
  cases h

@[simp] lemma refuse_eq_ok {α : Type} {code : ErrorCode} {message : String}
    {info : List (String × String)} {a : α} :
    ((refuse code message info : Result α) = .ok a) = False :=
  eq_false refuse_ne_ok

@[simp] lemma refuseIf_eq_ok {c : Bool} {code : ErrorCode} {message : String}
    {info : List (String × String)} {u : Unit} :
    refuseIf c code message info = .ok u ↔ c = false := by
  unfold refuseIf
  cases c with
  | false => simp [pure, Except.pure]
  | true => simp

/-- **Bind inversion**: a computation that succeeds succeeded at each of its steps. -/
lemma bind_eq_ok {α β : Type} {x : Result α} {f : α → Result β} {b : β} :
    (x >>= f) = .ok b ↔ ∃ a, x = .ok a ∧ f a = .ok b := by
  cases x with
  | error e => simp [bind, Except.bind]
  | ok a => simp [bind, Except.bind]

@[simp] lemma pure_eq_ok {α : Type} {a b : α} : (pure a : Result α) = .ok b ↔ a = b := by
  simp [pure, Except.pure]

/-! ### The hot-potato contract -/

/-- The reason and target a validated request carries on; a reason outside the union only
passes through on a state other than `done`. -/
structure ClosureRequest where
  closureReason : Option String
  closureTarget : Option String
  deriving DecidableEq

def validateClosure (state : QueueState) (req : ClosureRequest) : Result ClosureRequest :=
  if state ≠ .done then pure req
  else match req.closureReason with
    | none | some "" =>
      refuse .missingClosureReason
        ("state=done requires closure_reason; valid values: " ++ ClosureReason.doneReasonsText)
        [("validReasons", ClosureReason.doneReasonsText)]
    | some text =>
      match ClosureReason.ofText? text with
      | none =>
        refuse .invalidClosureReason
          ("closure_reason=" ++ text ++ " is not valid; valid values: " ++
            ClosureReason.doneReasonsText)
          [("validReasons", ClosureReason.doneReasonsText)]
      | some .blockedOn =>
        refuse .invalidClosureReason
          ("state=done is terminal and cannot use closure_reason=blocked_on. Use rig queue " ++
            "block <id> --on <child> (or rig queue update <id> --state blocked --blocked-on " ++
            "<child>) to wait for another queue item.")
          [("validReasons", ClosureReason.doneReasonsText)]
      | some reason =>
        if (reason = .handedOffTo || reason = .escalation) && !truthy req.closureTarget then
          refuse .missingClosureTarget ("closure_reason=" ++ text ++ " requires closure_target")
        else pure req

lemma validateClosure_done {req req' : ClosureRequest}
    (h : validateClosure .done req = .ok req') :
    req' = req ∧ ∃ text reason, req.closureReason = some text ∧
      ClosureReason.ofText? text = some reason ∧ reason ≠ .blockedOn := by
  unfold validateClosure at h
  simp only [ne_eq, not_true_eq_false, if_false] at h
  split at h
  · simp at h
  · simp at h
  · rename_i text hne hreason
    split at h
    · simp at h
    · simp at h
    · rename_i reason hb hof
      split at h
      · simp at h
      · exact ⟨(pure_eq_ok.mp h).symm, text, reason, hreason, hof, hb⟩

lemma validateClosure_other {state : QueueState} {req req' : ClosureRequest}
    (hs : state ≠ .done) (h : validateClosure state req = .ok req') : req' = req := by
  unfold validateClosure at h
  rw [if_pos hs] at h
  exact (pure_eq_ok.mp h).symm

lemma validateClosure_eq {state : QueueState} {req req' : ClosureRequest}
    (h : validateClosure state req = .ok req') : req' = req := by
  by_cases hs : state = .done
  · subst hs
    exact (validateClosure_done h).1
  · exact validateClosure_other hs h

/-- The service level of a tier, in seconds. -/
def tierSlaSeconds : String → Option ℕ
  | "fast" => some (30 * 60)
  | "routine" => some (4 * 60 * 60)
  | "deep" => some (24 * 60 * 60)
  | "critical" => some (15 * 60)
  | _ => none

def computeClosureRequiredAt (claimedAt : Time) (tier : Option String) : Option Time :=
  (tier.bind tierSlaSeconds).map fun s => claimedAt + s * 1000

/-! ### Human-routed items -/

/-- The fields of a human-routed item that are blank. -/
def missingHumanFields (summary evidenceRef : Option String) : List String :=
  (if nonBlank summary then [] else ["summary"]) ++
    (if nonBlank evidenceRef then [] else ["evidence_ref"])

/-- `validateRequiredFields`; `verb` is the subject's verb, `requires` or `require`. -/
def validateRequiredFields (predicateFired : Bool) (summary evidenceRef : Option String)
    (subject verb remedy : String) : Result Unit :=
  let missing := missingHumanFields summary evidenceRef
  let why :=
    (if missing.contains "summary" then
      ["summary: a decision the human reads must be in plain language (convention C6)"]
      else []) ++
    (if missing.contains "evidence_ref" then
      ["evidence_ref: the human must have a durable artifact to judge (convention C3)"]
      else [])
  if predicateFired && !missing.isEmpty then
    refuse .humanRouteFieldsRequired
      (subject ++ " " ++ verb ++ " " ++ " + ".intercalate missing ++ " — " ++
        "; ".intercalate why ++ ". " ++ remedy)
      [("missingFields", ", ".intercalate missing)]
  else pure ()

/-- `validateHumanRoute`: a new item for a human needs its own summary and evidence. -/
def validateHumanRoute (tier : Option String) (destinationSession : String)
    (summary evidenceRef : Option String) : Result Unit :=
  validateRequiredFields (tier = some "human-gate" || isHumanSeatSession destinationSession)
    summary evidenceRef "human-routed queue items" "require"
    "Provide --summary / --evidence-ref (ordinary agent-to-agent items are unaffected)."

/-- `validateHumanPark`: parking on a human seat needs both, on the item or on the call. -/
def validateHumanPark (blockedOn summary evidenceRef : Option String) : Result Unit :=
  validateRequiredFields (blockedOn.any isHumanSeatSession)
    summary evidenceRef "parking a qitem on a human seat" "requires"
    ("Provide them at park time (rig queue block --summary --evidence-ref) or on the item " ++
      "beforehand; blocking on another qitem requires nothing new.")

end OpenRig.Closure
