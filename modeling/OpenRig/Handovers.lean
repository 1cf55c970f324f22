import OpenRig.WakeIntents

/-!
The two handoffs, side by side.

A handoff is what it does up to its dependents, the propagation, and its last check
(`handoffWith_eq`). The part before the dependents does the same for both closes but for the
source's state, the default notes and the stamp of the successor's transition (`Twin`); a row
the propagation does not move keeps what that part left it (`Beside`).
-/

namespace OpenRig.Handovers

open OpenRig.JsText OpenRig.Sessions OpenRig.Closure OpenRig.QueueDb OpenRig.Outbox
open OpenRig.Watchdogs OpenRig.Verbs OpenRig.Handoff OpenRig.Runs OpenRig.RowEffects
open OpenRig.Propagation OpenRig.ParkLedger OpenRig.ParkTimers OpenRig.WakeIntents
open OpenRig.Firing OpenRig.Refinement

lemma bind_congr_ok {α β : Type} {x : Result α} {f g : α → Result β}
    (h : ∀ a, x = .ok a → f a = g a) : (x >>= f) = (x >>= g) := by
  cases x with
  | error e => rfl
  | ok a => exact h a rfl

/-! ### One dependent -/

/-- The row, its log and its latest continuation are as they were. -/
structure Beside (k : String) (db db' : Db) : Prop where
  row : db'.getById k = db.getById k
  history : db'.historyOf k = db.historyOf k
  armed : latestArmed db' k = latestArmed db k

namespace Beside

variable {k : String} {db db' db'' : Db}

lemma refl (k : String) (db : Db) : Beside k db db := ⟨rfl, rfl, rfl⟩

lemma trans (h : Beside k db db') (h' : Beside k db' db'') : Beside k db db'' where
  row := h'.row.trans h.row
  history := h'.history.trans h.history
  armed := h'.armed.trans h.armed

lemma of_eq (hi : db'.getById k = db.getById k) (ht : db'.historyOf k = db.historyOf k)
    (hw : db'.wakes = db.wakes) : Beside k db db' where
  row := hi
  history := ht
  armed := latestArmed_congr hw k

end Beside

lemma beside_write {k q : String} (hk : k ≠ q) (db : Db) (f : QueueItem → QueueItem) (hf)
    (ts : Time) (t : TransitionInput) (ht : t.qitemId = q) :
    Beside k db ((db.updateRow q f hf).append ts t) := by
  refine .of_eq ?_ ?_ rfl
  · rw [Db.getById_append, Db.getById_updateRow, if_neg hk]
  · rw [Db.historyOf_append, ht, if_neg hk, Db.historyOf_updateRow]

lemma beside_retire (k : String) (db : Db) (q reason : String) :
    Beside k db (retireParkGeneratedTimer db q reason) := by
  rw [retireParkGeneratedTimer_eq]
  exact .of_eq rfl rfl rfl

lemma beside_recordWake {k : String} (db : Db) {w : WakeRecord} (hk : k ≠ w.qitemId) :
    Beside k db (db.recordWake w) where
  row := rfl
  history := rfl
  armed := by
    rw [latestArmed_cons db _ w rfl, if_neg]
    rintro ⟨h, -⟩
    exact hk h.symm

lemma rebindRow_beside (env : Env) (input : PropagateInput) (db : Db) {k q : String} (s : String)
    (hk : k ≠ q) : Beside k db (rebindRow env input db q s) := by
  unfold rebindRow
  extract_lets oldWake db₁ rebound db₂ retained db₃ db₄
  have h₂ : Beside k db db₂ := beside_write hk db _ _ _ _ rfl
  have h₃ : Beside k db₂ db₃ := by
    unfold db₃
    cases retained with
    | some ret => exact .of_eq rfl rfl rfl
    | none => exact beside_retire k db₂ q _
  have h₄ : Beside k db₃ db₄ := beside_recordWake db₃ hk
  exact ((h₂.trans h₃).trans h₄).trans (.of_eq rfl rfl rfl)

lemma unparkRow_beside {env : Env} {input : PropagateInput} {db db' : Db} {k q owner : String}
    (h : unparkRow env input db q owner = .ok db') (hk : k ≠ q) : Beside k db db' := by
  obtain ⟨db₁, rfl, outbox, e, rfl, -⟩ := unparkRow_eq h
  exact ((beside_write hk db _ _ _ _ rfl).trans (beside_retire k _ q _)).trans (.of_eq rfl rfl rfl)

/-- **One dependent's turn** is its own: every other row keeps its columns, its log and its
continuation. -/
lemma propagateRow_beside {env : Env} {input : PropagateInput} {db db' : Db}
    {row : String × String} (h : propagateRow env input db row = .ok db') {k : String}
    (hk : k ≠ row.1) : Beside k db db' := by
  unfold propagateRow at h
  split at h
  · cases pure_eq_ok.mp h
    exact rebindRow_beside env input db _ hk
  · exact unparkRow_beside h hk

/-- The id of the wake of a row returned by a transition. -/
def unparkWakeId (n : ℕ) : String := wakeIntentPrefix ++ "blocker-" ++ toString n

/-- The marks of the wake of a row whose blocker ended. -/
def unparkWakeTags (blocker : String) : List String :=
  [autoUnparkWakeTag, wakeTriggerOpenrigTag, autoUnparkBlockerTagPrefix ++ blocker,
    "queue:return:" ++ blocker]

/-- What one dependent's turn adds to the shared tables: a transition of its own, one event, and
at most the wake under that transition's id. -/
structure Turn (db db' : Db) (q : String) : Prop where
  log : ∃ t, db'.transitions = t :: db.transitions ∧ t.qitemId = q ∧
    t.transitionId = db.nextTransitionId
  event : ∃ a b f c d g, db'.events = .updated q a b f c d g :: db.events
  outbox : Stages db.outbox db'.outbox (unparkWakeId db.nextTransitionId) q

lemma rebindRow_turn (env : Env) (input : PropagateInput) (db : Db) (q s : String) :
    Turn db (rebindRow env input db q s) q ∧ (rebindRow env input db q s).outbox = db.outbox := by
  have houtbox : (rebindRow env input db q s).outbox = db.outbox := by
    unfold rebindRow
    simp only [Db.outbox_emit, Db.outbox_recordWake]
    split
    · rfl
    · rw [outbox_retireParkGeneratedTimer]
      rfl
  refine ⟨⟨?_, ?_, ?_⟩, houtbox⟩
  · unfold rebindRow
    simp only [Db.transitions_emit, Db.transitions_recordWake]
    split
    · exact ⟨_, rfl, rfl, rfl⟩
    · rw [transitions_retireParkGeneratedTimer]
      exact ⟨_, rfl, rfl, rfl⟩
  · unfold rebindRow
    simp only [Db.events_emit, Db.events_recordWake]
    split
    · exact ⟨_, _, _, _, _, _, rfl⟩
    · rw [events_retireParkGeneratedTimer]
      exact ⟨_, _, _, _, _, _, rfl⟩
  · rw [houtbox]
    exact .refl _ _ _

lemma unparkRow_turn {env : Env} {input : PropagateInput} {db db' : Db} {q owner : String}
    (h : unparkRow env input db q owner = .ok db') :
    Turn db db' q ∧ (env.outboxAttached = false → db'.outbox = db.outbox) ∧
      (env.outboxAttached = true → db.outbox.get? (unparkWakeId db.nextTransitionId) = none →
        ∃ e, db'.outbox.get? (unparkWakeId db.nextTransitionId) = some e ∧
          Kept e owner q (some (unparkWakeTags input.qitemId))) := by
  unfold unparkRow at h
  extract_lets db₁ resumed db₂ db₃ at h
  obtain ⟨db₄, hst, h⟩ := bind_eq_ok.mp h
  cases pure_eq_ok.mp h
  have hdb := stageAutoUnparkWakeIntent_db hst
  obtain ⟨hstages, hoff, hkept⟩ := recordWakeIntent_eq_ok hst
  have hid : wakeIntentPrefix ++ "blocker-" ++ toString resumed =
      unparkWakeId db.nextTransitionId :=
    rfl
  have h₃ : db₃.outbox = db.outbox := by
    unfold db₃
    rw [outbox_retireParkGeneratedTimer]
    rfl
  rw [h₃] at hstages hoff hkept
  refine ⟨⟨?_, ?_, hstages⟩, hoff, hkept⟩
  · rw [Db.transitions_emit, hdb, Db.transitions_setOutbox]
    unfold db₃
    rw [transitions_retireParkGeneratedTimer]
    exact ⟨_, rfl, rfl, rfl⟩
  · rw [Db.events_emit, hdb, Db.events_setOutbox]
    unfold db₃
    rw [events_retireParkGeneratedTimer]
    exact ⟨_, _, _, _, _, _, rfl⟩

lemma propagateRow_turn {env : Env} {input : PropagateInput} {db db' : Db}
    {row : String × String} (h : propagateRow env input db row = .ok db') : Turn db db' row.1 := by
  unfold propagateRow at h
  split at h
  · cases pure_eq_ok.mp h
    exact (rebindRow_turn env input db row.1 _).1
  · exact (unparkRow_turn h).1

/-! ### The dependents' loop -/

/-- A run over the parked rows. -/
abbrev Turns (env : Env) (input : PropagateInput) : Db → List (String × String) → Db → Prop :=
  Path fun d row d' => propagateRow env input d row = .ok d'

lemma turns_of_propagate {env : Env} {input : PropagateInput} {db db' : Db}
    (h : propagateBlockerCompletion env input db = .ok db') :
    Turns env input db (parkedOn db input.qitemId) db' := path_of_foldlM h

section
variable {env : Env} {input : PropagateInput} {db db' : Db} {rows : List (String × String)}

lemma turns_beside (h : Turns env input db rows db') {k : String} (hk : ∀ row ∈ rows, k ≠ row.1) :
    Beside k db db' :=
  h.invariant_of_labels (I := fun d => Beside k db d) (p := fun row => k ≠ row.1)
    (fun _ _ _ hne hstep hI => hI.trans (propagateRow_beside hstep hne)) hk (.refl k db)

/-- The events of a close but those of its dependents. -/
def closeEvents (events : List RigEvent) : List RigEvent :=
  events.filter fun e => match e with
    | .updated .. => false
    | _ => true

lemma turns_closeEvents (h : Turns env input db rows db') :
    closeEvents db'.events = closeEvents db.events := by
  refine h.invariant (I := fun d => closeEvents d.events = closeEvents db.events)
    (fun d row d' hstep hI => ?_) rfl
  obtain ⟨a, b, f, c, x, g, he⟩ := (propagateRow_turn hstep).event
  rw [he]
  exact hI

/-- The wake intent of a row: the entry under the row's id, about that row. -/
def wakeOf (db : Db) (q : String) : Option OutboxEntry :=
  (db.outbox.get? (wakeIntentPrefix ++ q)).filter fun e => e.auditPointer = some q

lemma Turn.wakeOf_eq {q k : String} (h : Turn db db' q) (hk : k ≠ q)
    (hid : ∀ n, wakeIntentPrefix ++ k ≠ unparkWakeId n) : wakeOf db' k = wakeOf db k := by
  have hne := hid db.nextTransitionId
  have hp := h.outbox.pointers _ (.inl hne)
  unfold wakeOf
  cases he : db.outbox.get? (wakeIntentPrefix ++ k) with
  | none =>
    rw [pointerAt, pointerAt, he] at hp
    have : db'.outbox.get? (wakeIntentPrefix ++ k) = none := by simpa using hp
    rw [this]
  | some e =>
    by_cases hpk : e.auditPointer = some k
    · have hpq : e.auditPointer ≠ some q := by
        rw [hpk]
        simpa using hk
      rw [h.outbox.get?_eq hne he hpq]
    · -- an entry about something else is no wake of the row, before or after
      rw [pointerAt, pointerAt, he, Option.map_some] at hp
      obtain ⟨e', he', hp'⟩ := Option.map_eq_some_iff.mp hp
      rw [he', Option.filter_some, Option.filter_some]
      simp [hp', hpk]

lemma turns_wakeOf (h : Turns env input db rows db') {k : String} (hk : ∀ row ∈ rows, k ≠ row.1)
    (hid : ∀ n, wakeIntentPrefix ++ k ≠ unparkWakeId n) : wakeOf db' k = wakeOf db k :=
  h.invariant_of_labels (I := fun d => wakeOf d k = wakeOf db k) (p := fun row => k ≠ row.1)
    (fun _ _ _ hne hstep hI => ((propagateRow_turn hstep).wakeOf_eq hne hid).trans hI) hk rfl

end

lemma wakeIntent_ne_unpark (env : Env) (n : ℕ) :
    wakeIntentPrefix ++ newQitemId env ≠ unparkWakeId n := by
  intro h
  have h := congrArg String.toList h
  simp only [newQitemId, unparkWakeId, String.toList_append, List.append_assoc] at h
  have h := List.append_cancel_left h
  have hq : "qitem-".toList = 'q' :: "item-".toList := by decide
  have hb : "blocker-".toList = 'b' :: "locker-".toList := by decide
  rw [hq, hb] at h
  exact absurd (List.cons.inj h).1 (by decide)

/-! ### Up to the dependents -/

/-- A handoff up to its dependents: the checks, the close, the successor and its wake. -/
def beforeDependents (variant : HandoffVariant) (env : Env) (db : Db) (input : QueueHandoffInput) :
    Result (QueueItem × Db) := do
  let source ← requireOpenSource db input.qitemId
  validateDestination env "to_session" input.toSession
  assertHumanAlert env input.humanAlert input.toSession none
  validateHumanRoute (input.tier <|> source.tier) input.toSession input.summary input.evidenceRef
  let newId := newQitemId env
  let db := closeSource env db variant.terminalState source.qitemId input.fromSession
    input.toSession input.toSession
    (input.transitionNote.getD (variant.sourceNote ++ input.toSession))
    input.identityProvenance input.identityPrincipal
  let carried := carriedQuestions env db source input.toSession
  let db ← db.insertRow (successorRow env input source carried)
  let db := db.append env.now
    { qitemId := newId, state := .pending, actorSession := input.fromSession,
      transitionNote := some (variant.successorNote ++ source.qitemId),
      identityProvenance := if variant.stampSuccessor then input.identityProvenance else none,
      identityPrincipal := if variant.stampSuccessor then input.identityPrincipal else none,
      ownerNotification := classifyOwnerNotification env
        { create := true, destinationSession := input.toSession, nextState := .pending,
          humanAlert := input.humanAlert <|> if carried.isSome then some true else none } }
  let db ← stageHandoffWake env db newId input.fromSession input.toSession
    (sideEffectProvenance input.identityProvenance) input.nudge
  return (source, db.emit
    (.handedOff source.qitemId input.fromSession input.toSession source.summary))

def propagation (variant : HandoffVariant) (input : QueueHandoffInput) : PropagateInput where
  qitemId := input.qitemId
  terminalState := variant.terminalState
  actorSession := input.fromSession
  identityProvenance := sideEffectProvenance input.identityProvenance

/-- A handoff after its dependents: the successor's event and the check of its wake. -/
def afterDependents (env : Env) (input : QueueHandoffInput) (source : QueueItem) (db : Db) :
    Result Db := do
  let db := db.emit (.created (newQitemId env) input.fromSession input.toSession
    (input.priority.getD source.priority) (input.tier <|> source.tier) input.summary)
  assertTerminalClosureHasIntent env db source.qitemId (newQitemId env) input.nudge
  return db

/-- **A handoff, in three parts.** -/
lemma handoffWith_eq (variant : HandoffVariant) (env : Env) (db : Db) (input : QueueHandoffInput) :
    handoffWith variant env db input = (do
      let (source, db) ← beforeDependents variant env db input
      let db ← propagateBlockerCompletion env (propagation variant input) db
      afterDependents env input source db) := by
  unfold handoffWith beforeDependents
  simp only [bind_assoc, pure_bind]
  refine bind_congr_ok fun source hsource => ?_
  have hid := Db.getById_id (requireOpenSource_eq_ok hsource).1
  unfold afterDependents
  rw [hid]
  rfl

/-! ### The same part of both closes -/

/-- What a permission's carried options are read from. -/
def asked (r : QueueItem) : Option (List String) × Option (List HumanQuestion) × Option String :=
  (r.tags, r.humanQuestions, r.handedOffFrom)

lemma permissionQuestions_congr {db db' : Db}
    (hrow : ∀ k, (db'.getById k).map asked = (db.getById k).map asked) (n : ℕ)
    {r r' : QueueItem} (h : asked r' = asked r) :
    permissionQuestions db' n r' = permissionQuestions db n r := by
  induction n generalizing r r' with
  | zero => rfl
  | succ n ih =>
    obtain ⟨ht, hq, hf⟩ : r'.tags = r.tags ∧ r'.humanQuestions = r.humanQuestions ∧
        r'.handedOffFrom = r.handedOffFrom := by
      simpa [asked] using h
    have ho : runnerPermissionOrigin r' = runnerPermissionOrigin r := by
      unfold runnerPermissionOrigin
      rw [ht]
    unfold permissionQuestions
    rw [ho, hq, hf]
    cases r.handedOffFrom.filter (· ≠ "") with
    | none => rfl
    | some x =>
      have hx := hrow x
      simp only [Option.bind_some]
      cases hd : db.getById x with
      | none =>
        rw [hd, Option.map_none, Option.map_eq_none_iff] at hx
        rw [hx]
      | some y =>
        rw [hd, Option.map_some] at hx
        obtain ⟨y', hy', hyy⟩ := Option.map_eq_some_iff.mp hx
        rw [hy']
        simp only [ih hyy]

lemma recordWakeIntent_congr {env : Env} {d d' : Db} {input : WakeIntentInput}
    (hrow : d'.getById input.auditPointer = d.getById input.auditPointer)
    (ho : d'.outbox = d.outbox) :
    recordWakeIntent env d' input =
      (recordWakeIntent env d input).map fun x => d'.setOutbox x.outbox := by
  have hadm : ∀ t,
    wakeAdmission d' input.auditPointer t = wakeAdmission d input.auditPointer t := by
    intro t
    unfold wakeAdmission
    rw [hrow]
  have hself : d'.setOutbox d.outbox = d' := by
    rw [← ho]
    rfl
  unfold recordWakeIntent
  simp only [hadm, ho]
  split
  · exact congrArg Except.ok hself.symm
  · split
    · cases retain env.now d.outbox _ _ false with
      | error e => rfl
      | ok o => rfl
    · split
      · cases assertRetentionCapacity d.outbox _ _ with
        | error e => rfl
        | ok _ => rfl
      · rfl

/-- **The successor's wake** is staged alike over tables that agree on its row and the outbox. -/
lemma stageHandoffWake_alike (env : Env) {d d' : Db} {q : String} (a b : String)
    (p : Option String) (n : Option Bool) (hrow : d'.getById q = d.getById q)
    (ho : d'.outbox = d.outbox) :
    (∃ e, stageHandoffWake env d q a b p n = .error e ∧
        stageHandoffWake env d' q a b p n = .error e) ∨
      (∃ o, stageHandoffWake env d q a b p n = .ok (d.setOutbox o) ∧
        stageHandoffWake env d' q a b p n = .ok (d'.setOutbox o)) ∨
      ∃ result, stageHandoffWake env d q a b p n = .ok (recordNudgeAttempt env d q result) ∧
        stageHandoffWake env d' q a b p n = .ok (recordNudgeAttempt env d' q result) := by
  have hself : d'.setOutbox d.outbox = d' := by
    rw [← ho]
    rfl
  have hst : stageWakeIntent env d' q a b p n .agent =
      (stageWakeIntent env d q a b p n .agent).map fun x => d'.setOutbox x.outbox := by
    unfold stageWakeIntent
    split
    · exact congrArg Except.ok hself.symm
    · simp only [hrow]
      exact recordWakeIntent_congr hrow ho
  unfold stageHandoffWake
  rw [hst]
  cases hs : stageWakeIntent env d q a b p n .agent with
  | ok x =>
    refine .inr (.inl ⟨x.outbox, ?_, rfl⟩)
    exact congrArg Except.ok (stageWakeIntent_db hs)
  | error e =>
    dsimp only [Except.map]
    split
    · exact .inr (.inr ⟨_, rfl, rfl⟩)
    · exact .inl ⟨e, rfl, rfl⟩

lemma stageHandoffWake_stages {env : Env} {d x : Db} {q a b : String} {p : Option String}
    {n : Option Bool} (h : stageHandoffWake env d q a b p n = .ok x) :
    Stages d.outbox x.outbox (wakeIntentPrefix ++ q) q := by
  unfold stageHandoffWake at h
  cases hst : stageWakeIntent env d q a b p n .agent with
  | ok y =>
    rw [hst] at h
    cases h
    unfold stageWakeIntent at hst
    split at hst
    · cases pure_eq_ok.mp hst
      exact .refl _ _ _
    · exact (recordWakeIntent_eq_ok hst).1
  | error e =>
    rw [hst] at h
    dsimp only at h
    split at h
    · cases h
      exact .refl _ _ _
    · cases h

/-- The rewrite of the successor's last row. -/
def nudged (env : Env) (result : String) (r : QueueItem) : QueueItem :=
  { r with lastNudgeAttempt := some env.now, lastNudgeResult := some result }

/-- The tables a staging leaves, when the successor is the last row. -/
structure Staged (d x : Db) (rows : List QueueItem) (s' : QueueItem) (o' : Entries) : Prop where
  outbox : x.outbox = o'
  rows : x.items.rows = rows ++ [s']
  transitions : x.transitions = d.transitions
  wakes : x.wakes = d.wakes
  jobs : x.jobs = d.jobs
  events : x.events = d.events

lemma stageHandoffWake_family {ι : Type} (i₀ : ι) (env : Env) {D : ι → Db} (a b : String)
    (p : Option String) (n : Option Bool) {s : QueueItem} {o : Entries} {R : ι → List QueueItem}
    (hrows : ∀ i, (D i).items.rows = R i ++ [s]) (hfresh : ∀ i, ∀ r ∈ R i, r.qitemId ≠ s.qitemId)
    (ho : ∀ i, (D i).outbox = o) :
    (∃ e, ∀ i, stageHandoffWake env (D i) s.qitemId a b p n = .error e) ∨
      ∃ s' o', s'.state = s.state ∧ s'.qitemId = s.qitemId ∧
        s'.handedOffFrom = s.handedOffFrom ∧ s'.destinationSession = s.destinationSession ∧
        Stages o o' (wakeIntentPrefix ++ s.qitemId) s.qitemId ∧
        ∀ i, ∃ x, stageHandoffWake env (D i) s.qitemId a b p n = .ok x ∧
          Staged (D i) x (R i) s' o' := by
  have hrow : ∀ i, (D i).getById s.qitemId = some s := fun i =>
    Table.get?_eq_some.mpr ⟨by rw [hrows i]; simp, rfl⟩
  have halike := fun i =>
    stageHandoffWake_alike env a b p n ((hrow i).trans (hrow i₀).symm) ((ho i).trans (ho i₀).symm)
  have hnudge : ∀ i result, Staged (D i) (recordNudgeAttempt env (D i) s.qitemId result) (R i)
      (nudged env result s) o := fun i result =>
    ⟨ho i, Db.rows_updateRow_last (hrows i) (hfresh i), rfl, rfl, rfl, rfl⟩
  -- what the first one does, they all do
  rcases halike i₀ with ⟨e, he, -⟩ | ⟨o', h₀, -⟩ | ⟨result, h₀, -⟩
  · refine .inl ⟨e, fun i => ?_⟩
    rcases halike i with ⟨e', he', hi⟩ | ⟨_, h', -⟩ | ⟨_, h', -⟩
    · cases he.symm.trans he'
      exact hi
    · cases he.symm.trans h'
    · cases he.symm.trans h'
  · have hst := stageHandoffWake_stages h₀
    rw [ho] at hst
    refine .inr ⟨s, o', rfl, rfl, rfl, rfl, hst, fun i => ?_⟩
    rcases halike i with ⟨_, h', -⟩ | ⟨o'', h', hi⟩ | ⟨result, h', hi⟩
    · cases h₀.symm.trans h'
    · obtain rfl : o' = o'' := congrArg Db.outbox (Except.ok.inj (h₀.symm.trans h'))
      exact ⟨_, hi, rfl, hrows i, rfl, rfl, rfl, rfl⟩
    · have hx := Except.ok.inj (h₀.symm.trans h')
      have hs : s = nudged env result s := by
        have := (hnudge i₀ result).rows
        rw [← hx, Db.items_setOutbox, hrows] at this
        simpa using List.append_cancel_left this
      have ho' : o' = o := (congrArg Db.outbox hx).trans (ho i₀)
      refine ⟨_, hi, ?_⟩
      rw [hs, ho']
      exact hs ▸ hnudge i result
  · have hst := stageHandoffWake_stages h₀
    rw [ho] at hst
    refine .inr ⟨nudged env result s, o, rfl, rfl, rfl, rfl, ?_, fun i => ?_⟩
    · exact (hnudge i₀ result).outbox ▸ hst
    · rcases halike i with ⟨_, h', -⟩ | ⟨o'', h', hi⟩ | ⟨result', h', hi⟩
      · cases h₀.symm.trans h'
      · have hx := Except.ok.inj (h₀.symm.trans h')
        have hs : nudged env result s = s := by
          have := (hnudge i₀ result).rows
          rw [hx, Db.items_setOutbox, hrows] at this
          simpa using (List.append_cancel_left this).symm
        have ho' : o'' = o := (congrArg Db.outbox hx).symm.trans (ho i₀)
        refine ⟨_, hi, ho', ?_, rfl, rfl, rfl, rfl⟩
        rw [hs]
        exact hrows i
      · have hx := Except.ok.inj (h₀.symm.trans h')
        have hs : nudged env result s = nudged env result' s := by
          have h₁ := (hnudge i₀ result).rows
          rw [hx, (hnudge i₀ result').rows] at h₁
          simpa using (List.append_cancel_left h₁).symm
        refine ⟨_, hi, ?_⟩
        rw [hs]
        exact hnudge i result'

/-! ### What the part before the dependents leaves -/

/-- The source's transition. -/
def closing (variant : HandoffVariant) (input : QueueHandoffInput) : TransitionInput where
  qitemId := input.qitemId
  state := variant.terminalState
  actorSession := input.fromSession
  transitionNote := some (input.transitionNote.getD (variant.sourceNote ++ input.toSession))
  closureReason := some .handedOffTo
  closureTarget := some input.toSession
  identityProvenance := input.identityProvenance
  identityPrincipal := input.identityPrincipal

/-- The successor's transition; `carried` says that it carries a permission's options. -/
def opening (variant : HandoffVariant) (env : Env) (input : QueueHandoffInput) (carried : Bool) :
    TransitionInput where
  qitemId := newQitemId env
  state := .pending
  actorSession := input.fromSession
  transitionNote := some (variant.successorNote ++ input.qitemId)
  identityProvenance := if variant.stampSuccessor then input.identityProvenance else none
  identityPrincipal := if variant.stampSuccessor then input.identityPrincipal else none
  ownerNotification := classifyOwnerNotification env
    { create := true, destinationSession := input.toSession, nextState := .pending,
      humanAlert := input.humanAlert <|> if carried then some true else none }

section
variable (variant : HandoffVariant) (env : Env) (db : Db) (input : QueueHandoffInput)

def closed : Db :=
  closeSource env db variant.terminalState input.qitemId input.fromSession input.toSession
    input.toSession (input.transitionNote.getD (variant.sourceNote ++ input.toSession))
    input.identityProvenance input.identityPrincipal

lemma getById_closed (k : String) :
    (closed variant env db input).getById k =
      if k = input.qitemId then
        (db.getById k).map (closeRow env.now variant.terminalState input.toSession input.toSession)
      else db.getById k := by
  unfold closed closeSource Db.getById
  rw [items_retireParkGeneratedTimer]
  exact Table.get?_update db.items input.qitemId
    (closeRow env.now variant.terminalState input.toSession input.toSession) (fun _ => rfl) k

lemma transitions_closed : (closed variant env db input).transitions =
    (closing variant input).toTransition db.nextTransitionId env.now :: db.transitions := by
  unfold closed closeSource
  rw [transitions_retireParkGeneratedTimer]
  rfl

lemma outbox_closed : (closed variant env db input).outbox = db.outbox := by
  unfold closed closeSource
  rw [outbox_retireParkGeneratedTimer]
  rfl

lemma events_closed : (closed variant env db input).events = db.events := by
  unfold closed closeSource
  rw [events_retireParkGeneratedTimer]
  rfl

lemma rows_closed : (closed variant env db input).items.rows = db.items.rows.map
    (Table.rewrite (fun r => r.qitemId = input.qitemId)
      (closeRow env.now variant.terminalState input.toSession input.toSession)) :=
  closeSource_rows env db _ _ _ _ _ _ _ _

lemma wakes_closed : (closed variant env db input).wakes = db.wakes := by
  unfold closed closeSource
  rw [wakes_retireParkGeneratedTimer]
  rfl

/-- Closing the source changes no option a successor carries. -/
lemma carried_closed (source : QueueItem) :
    carriedQuestions env (closed variant env db input) source input.toSession =
      carriedQuestions env db source input.toSession := by
  have hrow : ∀ k, ((closed variant env db input).getById k).map asked =
      (db.getById k).map asked := by
    intro k
    rw [getById_closed]
    split
    · cases db.getById k <;> rfl
    · rfl
  unfold carriedQuestions
  rw [permissionQuestions_congr hrow 11 rfl]

end

/-- The tables when the dependents' turn comes: the source closed, the successor `s` with its
transition, its wake in the outbox `o`, and every other row as it was. -/
structure Opened (variant : HandoffVariant) (env : Env) (db : Db) (input : QueueHandoffInput)
    (source : QueueItem) (carried : Bool) (s : QueueItem) (o : Entries) (a : Db) : Prop where
  found : db.getById input.qitemId = some source
  active : source.state.isTerminalState = false
  fresh : db.getById (newQitemId env) = none
  qitemId : s.qitemId = newQitemId env
  pending : s.state = .pending
  handedOffFrom : s.handedOffFrom = some input.qitemId
  destinationSession : s.destinationSession = input.toSession
  rows : a.items.rows = (closed variant env db input).items.rows ++ [s]
  transitions : a.transitions =
    (opening variant env input carried).toTransition (db.nextTransitionId + 1) env.now ::
      (closing variant input).toTransition db.nextTransitionId env.now :: db.transitions
  wakes : a.wakes = db.wakes
  jobs : a.jobs = (closed variant env db input).jobs
  outbox : a.outbox = o
  staged : Stages db.outbox o (wakeIntentPrefix ++ newQitemId env) (newQitemId env)
  events : a.events =
    .handedOff input.qitemId input.fromSession input.toSession source.summary :: db.events

namespace Opened

variable {variant : HandoffVariant} {env : Env} {db : Db} {input : QueueHandoffInput}
variable {source : QueueItem} {carried : Bool} {s : QueueItem} {o : Entries} {a : Db}

lemma ne (h : Opened variant env db input source carried s o a) :
    input.qitemId ≠ newQitemId env := by
  intro he
  have := h.fresh
  rw [← he, h.found] at this
  cases this

lemma getById (h : Opened variant env db input source carried s o a) (k : String) :
    a.getById k = if k = newQitemId env then some s
      else (closed variant env db input).getById k := by
  have hn : (closed variant env db input).getById (newQitemId env) = none := by
    rw [getById_closed, if_neg h.ne.symm]
    exact h.fresh
  unfold Db.getById Table.get? at hn ⊢
  rw [h.rows, List.find?_append]
  by_cases hk : k = newQitemId env
  · subst hk
    simp [hn, h.qitemId]
  · have hne : ¬ newQitemId env = k := fun e => hk e.symm
    simp [h.qitemId, hk, hne]

lemma row (h : Opened variant env db input source carried s o a) : a.getById input.qitemId =
    some (closeRow env.now variant.terminalState input.toSession input.toSession source) := by
  rw [h.getById, if_neg h.ne, getById_closed, if_pos rfl, h.found]
  rfl

lemma successor (h : Opened variant env db input source carried s o a) :
    a.getById (newQitemId env) = some s := by
  rw [h.getById, if_pos rfl]

lemma historyOf (h : Opened variant env db input source carried s o a) (k : String) :
    a.historyOf k = (if k = newQitemId env then
        [(opening variant env input carried).toTransition (db.nextTransitionId + 1) env.now]
        else []) ++
      (if k = input.qitemId then
        [(closing variant input).toTransition db.nextTransitionId env.now] else []) ++
      db.historyOf k := by
  have hne := h.ne
  unfold Db.historyOf
  rw [h.transitions, List.filter_cons, List.filter_cons]
  by_cases h₁ : k = newQitemId env
  · subst h₁
    simp [opening, closing, TransitionInput.toTransition, hne, Ne.symm hne]
  · by_cases h₂ : k = input.qitemId
    · subst h₂
      simp [opening, closing, TransitionInput.toTransition, hne, Ne.symm hne]
    · simp [opening, closing, TransitionInput.toTransition, h₁, h₂, Ne.symm h₁, Ne.symm h₂]

lemma others (h : Opened variant env db input source carried s o a) {k : String}
    (hk : k ≠ input.qitemId) (hk' : k ≠ newQitemId env) : Beside k db a := by
  refine .of_eq ?_ ?_ h.wakes
  · rw [h.getById, if_neg hk', getById_closed, if_neg hk]
  · rw [h.historyOf, if_neg hk', if_neg hk]
    rfl

lemma closes (h : Opened variant env db input source carried s o a) :
    a.historyOf input.qitemId =
      (closing variant input).toTransition db.nextTransitionId env.now ::
        db.historyOf input.qitemId := by
  rw [h.historyOf, if_neg h.ne, if_pos rfl]
  rfl

lemma opens (h : Opened variant env db input source carried s o a) :
    a.historyOf (newQitemId env) =
      (opening variant env input carried).toTransition (db.nextTransitionId + 1) env.now ::
        db.historyOf (newQitemId env) := by
  rw [h.historyOf, if_pos rfl, if_neg h.ne.symm]
  rfl

lemma log (h : Opened variant env db input source carried s o a) :
    a.nextTransitionId = db.nextTransitionId + 2 := by
  simp [Db.nextTransitionId, h.transitions]

/-- A row of the dependents' loop is neither the source nor the successor, and was parked before. -/
lemma parked (h : Opened variant env db input source carried s o a)
    (hterm : variant.terminalState.isTerminalState = true) {k : String}
    (hk : parkedRow a k input.qitemId) :
    k ≠ input.qitemId ∧ k ≠ newQitemId env ∧ parkedRow db k input.qitemId := by
  obtain ⟨r, hr, hs, hb⟩ := hk
  have hX : k ≠ input.qitemId := by
    rintro rfl
    rw [h.row] at hr
    cases hr
    have hs : variant.terminalState = .blocked := hs
    rw [hs] at hterm
    cases hterm
  have hY : k ≠ newQitemId env := by
    rintro rfl
    rw [h.successor] at hr
    cases hr
    rw [h.pending] at hs
    cases hs
  refine ⟨hX, hY, r, ?_, hs, hb⟩
  rw [← (h.others hX hY).row, hr]

end Opened

/-- The checks a handoff makes before it writes. -/
def handoffChecks (env : Env) (db : Db) (input : QueueHandoffInput) : Result QueueItem := do
  let source ← requireOpenSource db input.qitemId
  validateDestination env "to_session" input.toSession
  assertHumanAlert env input.humanAlert input.toSession none
  validateHumanRoute (input.tier <|> source.tier) input.toSession input.summary input.evidenceRef
  return source

/-- The successor's insert, its transition and its wake, over the closed source. -/
def openSuccessor (variant : HandoffVariant) (env : Env) (db : Db) (input : QueueHandoffInput)
    (source : QueueItem) (questions : Option (List HumanQuestion)) : Result (QueueItem × Db) := do
  let db ← (closed variant env db input).insertRow (successorRow env input source questions)
  let db ← stageHandoffWake env
    (db.append env.now (opening variant env input questions.isSome)) (newQitemId env)
    input.fromSession input.toSession (sideEffectProvenance input.identityProvenance) input.nudge
  return (source, db.emit
    (.handedOff input.qitemId input.fromSession input.toSession source.summary))

lemma beforeDependents_eq (variant : HandoffVariant) (env : Env) (db : Db)
    (input : QueueHandoffInput) :
    beforeDependents variant env db input = (do
      let source ← handoffChecks env db input
      openSuccessor variant env db input source
        (carriedQuestions env db source input.toSession)) := by
  unfold beforeDependents handoffChecks
  simp only [bind_assoc, pure_bind]
  refine bind_congr_ok fun source hsource => ?_
  have hid := Db.getById_id (requireOpenSource_eq_ok hsource).1
  rw [hid, ← carried_closed variant env db input source]
  rfl

lemma handoffChecks_eq_ok {env : Env} {db : Db} {input : QueueHandoffInput} {source : QueueItem}
    (h : handoffChecks env db input = .ok source) :
    db.getById input.qitemId = some source ∧ source.state.isTerminalState = false := by
  unfold handoffChecks at h
  obtain ⟨source', hs, h⟩ := bind_eq_ok.mp h
  obtain ⟨-, -, h⟩ := bind_eq_ok.mp h
  obtain ⟨-, -, h⟩ := bind_eq_ok.mp h
  obtain ⟨-, -, h⟩ := bind_eq_ok.mp h
  cases pure_eq_ok.mp h
  exact requireOpenSource_eq_ok hs

lemma insertRow_alike (env : Env) (db : Db) (input : QueueHandoffInput) (s : QueueItem) :
    (∃ e, ∀ variant, (closed variant env db input).insertRow s = .error e) ∨
      ∀ variant, ∃ db₁, (closed variant env db input).insertRow s = .ok db₁ := by
  cases hfree : db.getById s.qitemId with
  | some r =>
    have hins : ∀ variant, (closed variant env db input).insertRow s =
        refuse .primaryKeyConflict "UNIQUE constraint failed: queue_items.qitem_id" := by
      intro variant
      unfold Db.insertRow
      rw [Table.insert?_eq_none.mpr]
      change ((closed variant env db input).getById s.qitemId).isSome
      rw [getById_closed]
      split <;> simp [hfree]
    exact .inl ⟨_, hins⟩
  | none =>
    refine .inr fun variant => ?_
    cases hi : (closed variant env db input).insertRow s with
    | ok db₁ => exact ⟨db₁, rfl⟩
    | error e =>
      have := Db.insertRow_error hi
      rw [getById_closed, hfree] at this
      split at this <;> cases this

/-- **Up to the dependents both closes do the same**: they are refused alike, or they leave the
same successor and the same outbox. -/
theorem beforeDependents_alike (env : Env) (db : Db) (input : QueueHandoffInput) :
    (∃ e, ∀ variant, beforeDependents variant env db input = .error e) ∨
      ∃ source carried s o, ∀ variant, ∃ a,
        beforeDependents variant env db input = .ok (source, a) ∧
          Opened variant env db input source carried s o a := by
  simp only [beforeDependents_eq]
  cases hchecks : handoffChecks env db input with
  | error e => exact .inl ⟨e, fun _ => rfl⟩
  | ok source =>
    obtain ⟨hr, hactive⟩ := handoffChecks_eq_ok hchecks
    change (∃ e, ∀ variant, openSuccessor variant env db input source
        (carriedQuestions env db source input.toSession) = .error e) ∨
      ∃ source' carried s o, ∀ variant, ∃ a,
        openSuccessor variant env db input source
          (carriedQuestions env db source input.toSession) = .ok (source', a) ∧
          Opened variant env db input source' carried s o a
    generalize carriedQuestions env db source input.toSession = questions
    generalize hs : successorRow env input source questions = s
    have hsid : s.qitemId = newQitemId env := by
      rw [← hs]
      rfl
    rcases insertRow_alike env db input s with ⟨e, he⟩ | hins
    · refine .inl ⟨e, fun variant => ?_⟩
      unfold openSuccessor
      rw [hs, he]
      rfl
    · -- the first variant's wake decides every variant's
      choose d hd using hins
      have hdb := fun v => (Db.insertRow_eq_ok (hd v)).2.2
      have hfree := fun v => (Db.insertRow_eq_ok (hd v)).1
      have hrows : ∀ v, ((d v).append env.now (opening v env input questions.isSome)).items.rows =
          (closed v env db input).items.rows ++ [s] := by
        intro v
        rw [Db.items_append, Db.insertRow_rows (hd v)]
      have hout : ∀ v, ((d v).append env.now (opening v env input questions.isSome)).outbox =
          db.outbox := by
        intro v
        rw [Db.outbox_append, hdb v]
        exact outbox_closed v env db input
      generalize hD : (fun v => (d v).append env.now (opening v env input questions.isSome)) = D
      have hDv : ∀ v, (d v).append env.now (opening v env input questions.isSome) = D v :=
        fun v => congrFun hD v
      simp only [hDv] at hrows hout
      rcases stageHandoffWake_family (⟨.done, "", "", false⟩ : HandoffVariant) env
        input.fromSession input.toSession (sideEffectProvenance input.identityProvenance)
        input.nudge hrows (fun v => Table.get?_eq_none.mp (hfree v)) hout with
        ⟨e, he⟩ | ⟨s', o', hstate, hid', hfrom, hdest, hst, hx⟩
      · refine .inl ⟨e, fun v => ?_⟩
        unfold openSuccessor
        rw [hs, hd v, ← hsid]
        simp only [bind, Except.bind, hDv, he]
      · refine .inr ⟨source, questions.isSome, s', o', fun v => ?_⟩
        obtain ⟨x, hok, hx⟩ := hx v
        have hnext : (d v).nextTransitionId = db.nextTransitionId + 1 := by
          rw [hdb v]
          simp [Db.nextTransitionId, transitions_closed]
        refine ⟨x.emit (.handedOff input.qitemId input.fromSession input.toSession source.summary),
          ?_, ?_⟩
        · unfold openSuccessor
          rw [hs, hd v, ← hsid]
          simp only [bind, Except.bind, hDv, hok]
          rfl
        · refine ⟨hr, hactive, ?_, hid'.trans hsid, ?_, ?_, ?_, hx.rows, ?_, ?_, ?_, hx.outbox,
            hsid ▸ hst, ?_⟩
          · have := hfree v
            rw [hsid, getById_closed] at this
            split at this
            · simpa using this
            · exact this
          · rw [hstate, ← hs]
            rfl
          · rw [hfrom, ← hs]
            exact congrArg some (Db.getById_id hr)
          · rw [hdest, ← hs]
            rfl
          · rw [Db.transitions_emit, hx.transitions, ← hDv v, Db.transitions_append, hnext, hdb v]
            exact congrArg _ (transitions_closed v env db input)
          · rw [Db.wakes_emit, hx.wakes, ← hDv v, Db.wakes_append, hdb v]
            exact wakes_closed v env db input
          · rw [Db.jobs_emit, hx.jobs, ← hDv v, Db.jobs_append, hdb v]
          · rw [Db.events_emit, hx.events, ← hDv v, Db.events_append, hdb v]
            exact congrArg _ (events_closed v env db input)

/-! ### After the dependents -/

/-- What the loop leaves of the closed tables. -/
structure Settled (variant : HandoffVariant) (env : Env) (db : Db) (input : QueueHandoffInput)
    (d d' : Db) : Prop where
  beside : ∀ k, ¬ parkedRow db k input.qitemId ∨ k = input.qitemId ∨ k = newQitemId env →
    Beside k d d'
  wake : wakeOf d' (newQitemId env) = wakeOf d (newQitemId env)
  intent : pointerAt d'.outbox (wakeIntentPrefix ++ newQitemId env) =
    pointerAt d.outbox (wakeIntentPrefix ++ newQitemId env)
  events : closeEvents d'.events = closeEvents d.events

lemma Opened.settled {variant : HandoffVariant} {env : Env} {db d d' : Db}
    {input : QueueHandoffInput} {source s : QueueItem} {carried : Bool} {o : Entries}
    (h : Opened variant env db input source carried s o d)
    (hterm : variant.terminalState.isTerminalState = true)
    (hp : propagateBlockerCompletion env (propagation variant input) d = .ok d') :
    Settled variant env db input d d' := by
  have hturns := turns_of_propagate hp
  have hrows : ∀ row ∈ parkedOn d input.qitemId, row.1 ≠ input.qitemId ∧
      row.1 ≠ newQitemId env ∧ parkedRow db row.1 input.qitemId := by
    rintro ⟨k, owner⟩ hk
    obtain ⟨r, hr, hs, hb, -⟩ := mem_parkedOn.mp hk
    exact h.parked hterm ⟨r, hr, hs, hb⟩
  have hY : ∀ row ∈ parkedOn d input.qitemId, newQitemId env ≠ row.1 :=
    fun row hrow => Ne.symm (hrows row hrow).2.1
  refine ⟨fun k hk => turns_beside hturns fun row hrow => ?_,
    turns_wakeOf hturns hY (wakeIntent_ne_unpark env), ?_, turns_closeEvents hturns⟩
  · rintro rfl
    obtain ⟨hX, hY, hpark⟩ := hrows row hrow
    rcases hk with hk | hk | hk
    · exact hk hpark
    · exact hX hk
    · exact hY hk
  · refine hturns.invariant (I := fun a => pointerAt a.outbox (wakeIntentPrefix ++ newQitemId env) =
      pointerAt d.outbox (wakeIntentPrefix ++ newQitemId env)) (fun a row a' hstep hI => ?_) rfl
    exact ((propagateRow_turn hstep).outbox.pointers _
      (.inl (wakeIntent_ne_unpark env _))).trans hI

lemma afterDependents_alike {env : Env} {input : QueueHandoffInput} {source r r' s : QueueItem}
    {d d' : Db} (hid : source.qitemId = input.qitemId)
    (hr : d.getById input.qitemId = some r) (hr' : d'.getById input.qitemId = some r')
    (ht : r.state.isTerminalState = true) (ht' : r'.state.isTerminalState = true)
    (hs : d.getById (newQitemId env) = some s) (hs' : d'.getById (newQitemId env) = some s)
    (hw : pointerAt d'.outbox (wakeIntentPrefix ++ newQitemId env) =
      pointerAt d.outbox (wakeIntentPrefix ++ newQitemId env)) :
    (∃ e, afterDependents env input source d = .error e ∧
        afterDependents env input source d' = .error e) ∨
      ∃ e, afterDependents env input source d = .ok (d.emit e) ∧
        afterDependents env input source d' = .ok (d'.emit e) := by
  have hnone : (d'.outbox.get? (wakeIntentPrefix ++ newQitemId env)).isNone =
      (d.outbox.get? (wakeIntentPrefix ++ newQitemId env)).isNone := by
    have := congrArg Option.isNone hw
    simpa [pointerAt] using this
  have hassert : ∀ e, assertTerminalClosureHasIntent env (d'.emit e) source.qitemId
      (newQitemId env) input.nudge = assertTerminalClosureHasIntent env (d.emit e) source.qitemId
      (newQitemId env) input.nudge := by
    intro e
    unfold assertTerminalClosureHasIntent
    simp only [Db.getById_emit, Db.outbox_emit, hid, hr, hr', hs, hs', hnone, Option.any_some, ht,
      ht']
  unfold afterDependents
  simp only [hassert]
  cases assertTerminalClosureHasIntent env _ source.qitemId (newQitemId env) input.nudge with
  | error e => exact .inl ⟨e, rfl, rfl⟩
  | ok _ => exact .inr ⟨_, rfl, rfl⟩

/-! ### The two closes -/

def handingOff : HandoffVariant where
  terminalState := .handedOff
  sourceNote := "handed off to "
  successorNote := "handoff from "
  stampSuccessor := true

/-- The source ends done. -/
def completing : HandoffVariant where
  terminalState := .done
  sourceNote := "handoff-and-complete to "
  successorNote := "handoff-and-complete from "
  stampSuccessor := false

/-- The note of a close whose caller gave none. -/
def noteOr (input : QueueHandoffInput) (default : String) : Option String :=
  some (input.transitionNote.getD default)

/-- **What the two closes must agree on**: `a` after `handoff`, `b` after `handoffAndComplete`, of
the same request over the same tables. Only the source's state, the default notes and the rows
parked on the source may differ. -/
structure Agree (env : Env) (db : Db) (input : QueueHandoffInput) (a b : Db) : Prop where
  source : ∃ r, r.state = .handedOff ∧ a.getById input.qitemId = some r ∧
    b.getById input.qitemId = some { r with state := .done }
  successor : (a.getById (newQitemId env)).isSome ∧
    b.getById (newQitemId env) = a.getById (newQitemId env)
  others : ∀ k, k ≠ input.qitemId → k ≠ newQitemId env → ¬ parkedRow db k input.qitemId →
    Beside k db a ∧ Beside k db b
  closes : ∃ t : Transition, t.state = .handedOff ∧
    t.transitionNote = noteOr input ("handed off to " ++ input.toSession) ∧
    a.historyOf input.qitemId = t :: db.historyOf input.qitemId ∧
    b.historyOf input.qitemId =
      { t with
        state := .done
        transitionNote := noteOr input ("handoff-and-complete to " ++ input.toSession) } ::
      db.historyOf input.qitemId
  opens : ∃ t : Transition, t.transitionNote = some ("handoff from " ++ input.qitemId) ∧
    a.historyOf (newQitemId env) = t :: db.historyOf (newQitemId env) ∧
    b.historyOf (newQitemId env) =
      { t with transitionNote := some ("handoff-and-complete from " ++ input.qitemId) } ::
      db.historyOf (newQitemId env)
  wake : wakeOf b (newQitemId env) = wakeOf a (newQitemId env)
  events : closeEvents b.events = closeEvents a.events

/-- One of the two closes reaches its dependents and cannot keep one of their wakes. -/
def DependentsRefuse (env : Env) (db : Db) (input : QueueHandoffInput) : Prop :=
  ∃ variant source d e, (variant = handingOff ∨ variant = completing) ∧
    beforeDependents variant env db input = .ok (source, d) ∧
    propagateBlockerCompletion env (propagation variant input) d = .error e

lemma handoffWith_parts {variant : HandoffVariant} {env : Env} {db a : Db}
    {input : QueueHandoffInput} {source s : QueueItem} {carried : Bool} {o : Entries} {d : Db}
    (hb : beforeDependents variant env db input = .ok (source, d))
    (ho : Opened variant env db input source carried s o d)
    (hterm : variant.terminalState.isTerminalState = true)
    (h : handoffWith variant env db input = .ok a) :
    ∃ d', Settled variant env db input d d' ∧ ∃ e, a = d'.emit e ∧
      e = .created (newQitemId env) input.fromSession input.toSession
        (input.priority.getD source.priority) (input.tier <|> source.tier) input.summary := by
  rw [handoffWith_eq, hb] at h
  change (propagateBlockerCompletion env (propagation variant input) d >>=
    afterDependents env input source) = .ok a at h
  obtain ⟨d', hp, h⟩ := bind_eq_ok.mp h
  refine ⟨d', ho.settled hterm hp, ?_⟩
  unfold afterDependents at h
  obtain ⟨-, -, h⟩ := bind_eq_ok.mp h
  cases pure_eq_ok.mp h
  exact ⟨_, rfl, rfl⟩

/-- The successor's transition of a completing handoff is the other's with another note exactly
when there is no stamp to leave out. -/
lemma opening_alike (env : Env) (input : QueueHandoffInput) (carried : Bool) (n : ℕ) (ts : Time) :
    (opening completing env input carried).toTransition n ts =
        { (opening handingOff env input carried).toTransition n ts with
          transitionNote := some ("handoff-and-complete from " ++ input.qitemId) } ↔
      input.identityProvenance = none := by
  have hstamp : ∀ p q : Option String,
      ((if p = some "principal:v1" ∧ (!truthy (if p = some "principal:v1" then q else none)) = true
        then some "transport:v1" else p) = none) ↔ p = none := by
    intro p q
    cases p with
    | none => simp
    | some x =>
      simp only [reduceCtorEq, iff_false]
      split_ifs <;> simp
  constructor
  · intro h
    have hp := congrArg Transition.identityProvenance h
    simp only [opening, completing, handingOff, TransitionInput.toTransition,
      TransitionInput.principal, Bool.false_eq_true, if_false, if_true, Bool.and_eq_true,
      decide_eq_true_eq, reduceCtorEq, false_and] at hp
    exact (hstamp _ _).mp hp.symm
  · intro h
    simp [opening, completing, handingOff, TransitionInput.toTransition,
      TransitionInput.principal, h]

lemma agree_iff {env : Env} {db : Db} {input : QueueHandoffInput} {source s : QueueItem}
    {carried : Bool} {o : Entries} {d₁ d₂ a b : Db}
    (ho₁ : Opened handingOff env db input source carried s o d₁)
    (ho₂ : Opened completing env db input source carried s o d₂)
    (h₁ : Settled handingOff env db input d₁ a) (h₂ : Settled completing env db input d₂ b) :
    Agree env db input (a.emit (.created (newQitemId env) input.fromSession input.toSession
        (input.priority.getD source.priority) (input.tier <|> source.tier) input.summary))
      (b.emit (.created (newQitemId env) input.fromSession input.toSession
        (input.priority.getD source.priority) (input.tier <|> source.tier) input.summary)) ↔
      input.identityProvenance = none := by
  have hX₁ := h₁.beside input.qitemId (.inr (.inl rfl))
  have hX₂ := h₂.beside input.qitemId (.inr (.inl rfl))
  have hY₁ := h₁.beside (newQitemId env) (.inr (.inr rfl))
  have hY₂ := h₂.beside (newQitemId env) (.inr (.inr rfl))
  have hopens := opening_alike env input carried (db.nextTransitionId + 1) env.now
  have ha := hY₁.history.trans ho₁.opens
  have hb := hY₂.history.trans ho₂.opens
  constructor
  · rintro ⟨-, -, -, -, ⟨t, -, hta, htb⟩, -, -⟩
    rw [Db.historyOf_emit, ha] at hta
    rw [Db.historyOf_emit, hb] at htb
    obtain ⟨rfl, -⟩ := List.cons.inj hta
    exact hopens.mp (List.cons.inj htb).1
  · intro hp
    refine ⟨⟨closeRow env.now .handedOff input.toSession input.toSession source, rfl,
      hX₁.row.trans ho₁.row, hX₂.row.trans ho₂.row⟩, ⟨?_, ?_⟩, fun k hk hk' hpark => ?_,
      ⟨(closing handingOff input).toTransition db.nextTransitionId env.now, rfl, rfl,
        hX₁.history.trans ho₁.closes, hX₂.history.trans ho₂.closes⟩,
      ⟨(opening handingOff env input carried).toTransition (db.nextTransitionId + 1) env.now, rfl,
        ha, ?_⟩, ?_, ?_⟩
    · rw [Db.getById_emit, hY₁.row, ho₁.successor]
      rfl
    · rw [Db.getById_emit, Db.getById_emit, hY₁.row, hY₂.row, ho₁.successor, ho₂.successor]
    · exact ⟨((ho₁.others hk hk').trans (h₁.beside k (.inl hpark))).trans (.of_eq rfl rfl rfl),
        ((ho₂.others hk hk').trans (h₂.beside k (.inl hpark))).trans (.of_eq rfl rfl rfl)⟩
    · rw [Db.historyOf_emit, hb, hopens.mpr hp]
    · change wakeOf b _ = wakeOf a _
      rw [h₁.wake, h₂.wake]
      unfold wakeOf
      rw [ho₁.outbox, ho₂.outbox]
    · change _ :: closeEvents b.events = _ :: closeEvents a.events
      rw [h₁.events, h₂.events, ho₁.events, ho₂.events]

lemma commits_agree_iff {env : Env} {db a b : Db} {input : QueueHandoffInput}
    (ha : handoff env db input = .ok a) (hb : handoffAndComplete env db input = .ok b) :
    Agree env db input a b ↔ input.identityProvenance = none := by
  change handoffWith handingOff env db input = .ok a at ha
  change handoffWith completing env db input = .ok b at hb
  rcases beforeDependents_alike env db input with ⟨e, he⟩ | ⟨source, carried, s, o, hopened⟩
  · rw [handoffWith_eq, he] at ha
    cases ha
  · obtain ⟨d₁, hd₁, ho₁⟩ := hopened handingOff
    obtain ⟨d₂, hd₂, ho₂⟩ := hopened completing
    obtain ⟨a', h₁, _, rfl, rfl⟩ := handoffWith_parts hd₁ ho₁ rfl ha
    obtain ⟨b', h₂, _, rfl, rfl⟩ := handoffWith_parts hd₂ ho₂ rfl hb
    exact agree_iff ho₁ ho₂ h₁ h₂

/-- Unless a dependent's wake cannot be kept, both closes are refused with the same error or both
commit. -/
lemma refused_alike {env : Env} {db : Db} {input : QueueHandoffInput}
    (h : ¬ DependentsRefuse env db input) :
    (∃ e, handoff env db input = .error e ∧ handoffAndComplete env db input = .error e) ∨
      ∃ a b, handoff env db input = .ok a ∧ handoffAndComplete env db input = .ok b := by
  change (∃ e, handoffWith handingOff env db input = .error e ∧
      handoffWith completing env db input = .error e) ∨
    ∃ a b, handoffWith handingOff env db input = .ok a ∧
      handoffWith completing env db input = .ok b
  rcases beforeDependents_alike env db input with ⟨e, he⟩ | ⟨source, carried, s, o, hopened⟩
  · refine .inl ⟨e, ?_, ?_⟩
    · rw [handoffWith_eq, he]
      rfl
    · rw [handoffWith_eq, he]
      rfl
  · obtain ⟨d₁, hd₁, ho₁⟩ := hopened handingOff
    obtain ⟨d₂, hd₂, ho₂⟩ := hopened completing
    have hprop : ∀ variant d, (variant = handingOff ∨ variant = completing) →
        beforeDependents variant env db input = .ok (source, d) →
        ∃ d', propagateBlockerCompletion env (propagation variant input) d = .ok d' := by
      intro variant d hv hd
      cases hp : propagateBlockerCompletion env (propagation variant input) d with
      | ok d' => exact ⟨d', rfl⟩
      | error e => exact absurd ⟨variant, source, d, e, hv, hd, hp⟩ h
    obtain ⟨a, ha⟩ := hprop handingOff d₁ (.inl rfl) hd₁
    obtain ⟨b, hb⟩ := hprop completing d₂ (.inr rfl) hd₂
    have h₁ := ho₁.settled rfl ha
    have h₂ := ho₂.settled rfl hb
    have hX₁ := (h₁.beside input.qitemId (.inr (.inl rfl))).row.trans ho₁.row
    have hX₂ := (h₂.beside input.qitemId (.inr (.inl rfl))).row.trans ho₂.row
    have hY₁ := (h₁.beside (newQitemId env) (.inr (.inr rfl))).row.trans ho₁.successor
    have hY₂ := (h₂.beside (newQitemId env) (.inr (.inr rfl))).row.trans ho₂.successor
    have hw : pointerAt b.outbox (wakeIntentPrefix ++ newQitemId env) =
        pointerAt a.outbox (wakeIntentPrefix ++ newQitemId env) := by
      rw [h₁.intent, h₂.intent, ho₁.outbox, ho₂.outbox]
    have hend : ∀ {variant d d'}, beforeDependents variant env db input = .ok (source, d) →
        propagateBlockerCompletion env (propagation variant input) d = .ok d' →
        handoffWith variant env db input = afterDependents env input source d' := by
      intro variant d d' hd hp
      rw [handoffWith_eq, hd]
      change (propagateBlockerCompletion env (propagation variant input) d >>=
        afterDependents env input source) = _
      rw [hp]
      rfl
    rw [hend hd₁ ha, hend hd₂ hb]
    rcases afterDependents_alike (Db.getById_id ho₁.found) hX₁ hX₂ rfl rfl hY₁ hY₂ hw with
      ⟨e, he₁, he₂⟩ | ⟨e, he₁, he₂⟩
    · exact .inl ⟨e, he₁, he₂⟩
    · exact .inr ⟨_, _, he₁, he₂⟩

/-- **handoff and handoffAndComplete differ only in the close**: whatever the tables and the
request, both are refused with the same error or both commit, unless the dependents' rule stands in
the way (a wake one of them owes a parked row cannot be kept); and when both commit they agree
exactly when the request has no provenance to record on the successor's transition. -/
theorem handoffs_agree_iff (env : Env) (db : Db) (input : QueueHandoffInput) :
    (¬ DependentsRefuse env db input →
      (∃ e, handoff env db input = .error e ∧ handoffAndComplete env db input = .error e) ∨
        ∃ a b, handoff env db input = .ok a ∧ handoffAndComplete env db input = .ok b) ∧
      ∀ a b, handoff env db input = .ok a → handoffAndComplete env db input = .ok b →
        (Agree env db input a b ↔ input.identityProvenance = none) :=
  ⟨refused_alike, fun _ _ => commits_agree_iff⟩

def openRow : List (Env × Op) :=
  [(plainEnv 0 0 "", .create
      { qitemId := some "qitem-a", sourceSession := "lead@rig", destinationSession := "dev@rig",
        body := "work" })]

/-- Its handoff by a caller the route has named. -/
def handoffOf (provenance : Option String) : QueueHandoffInput :=
  { qitemId := "qitem-a", fromSession := "dev@rig", toSession := "qa@rig",
    identityProvenance := provenance }

/-- After one create, whatever the caller's stamp both handoffs of the row commit. -/
lemma openRow_handoffs (provenance : Option String)
    (h : (runOps Db.empty openRow).toOption.any (fun db =>
      (handoff (plainEnv 1000 0 "") db (handoffOf provenance)).toOption.isSome &&
        (handoffAndComplete (plainEnv 1000 0 "") db (handoffOf provenance)).toOption.isSome) =
      true) :
    ∃ db a b, Path commits Db.empty openRow db ∧
      handoff (plainEnv 1000 0 "") db (handoffOf provenance) = .ok a ∧
      handoffAndComplete (plainEnv 1000 0 "") db (handoffOf provenance) = .ok b := by
  obtain ⟨db, hrun, hp⟩ := exists_run Db.empty openRow _ h
  rw [Bool.and_eq_true] at hp
  cases ha : handoff (plainEnv 1000 0 "") db (handoffOf provenance) with
  | error e => simp [ha, Except.toOption] at hp
  | ok a =>
    cases hb : handoffAndComplete (plainEnv 1000 0 "") db (handoffOf provenance) with
    | error e => simp [hb, Except.toOption] at hp
    | ok b => exact ⟨db, a, b, hrun, ha, hb⟩

/-- Without a stamp the two closes agree. -/
theorem handoffs_agree_unstamped : ∃ db a b, Path commits Db.empty openRow db ∧
    handoff (plainEnv 1000 0 "") db (handoffOf none) = .ok a ∧
    handoffAndComplete (plainEnv 1000 0 "") db (handoffOf none) = .ok b ∧
    Agree (plainEnv 1000 0 "") db (handoffOf none) a b := by
  obtain ⟨db, a, b, hrun, ha, hb⟩ := openRow_handoffs none (by decide)
  exact ⟨db, a, b, hrun, ha, hb, ((handoffs_agree_iff _ db _).2 a b ha hb).mpr rfl⟩

/-- A stamped handoff-and-complete leaves the successor's transition unstamped. -/
theorem handoffs_disagree : ∃ db a b, Path commits Db.empty openRow db ∧
    handoff (plainEnv 1000 0 "") db (handoffOf (some "transport:v1")) = .ok a ∧
    handoffAndComplete (plainEnv 1000 0 "") db (handoffOf (some "transport:v1")) = .ok b ∧
    ¬ Agree (plainEnv 1000 0 "") db (handoffOf (some "transport:v1")) a b := by
  obtain ⟨db, a, b, hrun, ha, hb⟩ := openRow_handoffs (some "transport:v1") (by decide)
  refine ⟨db, a, b, hrun, ha, hb, fun h => ?_⟩
  cases (commits_agree_iff ha hb).mp h

end OpenRig.Handovers
