import OpenRig.RowFrames

/-!
What an operation leaves of the log and of the recorded outcomes.

The log only grows: a transaction appends transitions on top of it, under the ids that count it. A
row's `resolution` is written by the update and by the reroute of that row, and by nothing else.
-/

namespace OpenRig.Appended

open OpenRig.JsText OpenRig.Sessions OpenRig.Closure OpenRig.QueueDb OpenRig.Outbox
open OpenRig.Watchdogs OpenRig.Verbs OpenRig.Handoff OpenRig.Update OpenRig.Firing
open OpenRig.Runs OpenRig.RowEffects OpenRig.Propagation OpenRig.Moves OpenRig.Refinement
open OpenRig.RowFrames

/-! ### The log -/

/-- Transitions appended on top of a log, each one as some input `P` admits. -/
inductive Appends (P : TransitionInput → Prop) : List Transition → List Transition → Prop
  | refl (l : List Transition) : Appends P l l
  | cons {l l' : List Transition} {t : TransitionInput} (h : Appends P l l')
      (ts : Time) (ht : P t) :
    Appends P l (t.toTransition (l'.length + 1) ts :: l')

namespace Appends

variable {P Q : TransitionInput → Prop} {l l' l'' : List Transition}

lemma trans (h : Appends P l l') (h' : Appends P l' l'') : Appends P l l'' := by
  induction h' with
  | refl => exact h
  | cons _ ts ht ih => exact ih.cons ts ht

lemma mono (h : Appends P l l') (hPQ : ∀ t, P t → Q t) : Appends Q l l' := by
  induction h with
  | refl => exact .refl _
  | cons _ ts ht ih => exact ih.cons ts (hPQ _ ht)

lemma split (h : Appends P l l') :
    ∃ new, l' = new ++ l ∧ ∀ x ∈ new, ∃ t id ts, P t ∧ x = t.toTransition id ts := by
  induction h with
  | refl => exact ⟨[], rfl, by simp⟩
  | cons _ ts ht ih =>
    obtain ⟨new, rfl, hnew⟩ := ih
    refine ⟨_ :: new, rfl, fun x hx => ?_⟩
    rcases List.mem_cons.mp hx with rfl | hx
    · exact ⟨_, _, ts, ht, rfl⟩
    · exact hnew x hx

end Appends

/-- The ids count the log, newest first. -/
def Counted (l : List Transition) : Prop :=
  (∀ x ∈ l, x.transitionId ≤ l.length) ∧ l.Pairwise fun a b => b.transitionId < a.transitionId

lemma Appends.counted {P : TransitionInput → Prop} {l l' : List Transition} (h : Appends P l l')
    (hl : Counted l) : Counted l' := by
  induction h with
  | refl => exact hl
  | cons _ ts _ ih =>
    refine ⟨fun x hx => ?_, List.pairwise_cons.mpr ⟨fun x hx => ?_, ih.2⟩⟩
    · rcases List.mem_cons.mp hx with rfl | hx
      · exact le_refl _
      · exact (ih.1 x hx).trans (Nat.le_succ _)
    · exact Nat.lt_succ_of_le (ih.1 x hx)

/-! ### Log and outcomes -/

/-- The row's outcome field. -/
def resolutionOf (db : Db) (k : String) : Option String := (db.getById k).bind QueueItem.resolution

/-- The log grew by inputs `P` admits, and the outcomes outside `S` stand. -/
structure Leaves (S : String → Prop) (P : TransitionInput → Prop) (db db' : Db) : Prop where
  log : Appends P db.transitions db'.transitions
  outcomes : ∀ k, ¬ S k → resolutionOf db' k = resolutionOf db k

namespace Leaves

variable {S : String → Prop} {P : TransitionInput → Prop} {db db₁ db₂ : Db}

lemma refl (S : String → Prop) (P : TransitionInput → Prop) (db : Db) : Leaves S P db db :=
  ⟨.refl _, fun _ _ => rfl⟩

lemma trans (h : Leaves S P db db₁) (h' : Leaves S P db₁ db₂) : Leaves S P db db₂ :=
  ⟨h.log.trans h'.log, fun k hk => (h'.outcomes k hk).trans (h.outcomes k hk)⟩

lemma mono {Q : TransitionInput → Prop} (h : Leaves S P db db₁) (hPQ : ∀ t, P t → Q t) :
    Leaves S Q db db₁ := ⟨h.log.mono hPQ, h.outcomes⟩

lemma congr (h : Leaves S P db db₁) (hi : db₂.items = db₁.items)
    (ht : db₂.transitions = db₁.transitions) : Leaves S P db db₂ := by
  refine ⟨ht ▸ h.log, fun k hk => Eq.trans ?_ (h.outcomes k hk)⟩
  unfold resolutionOf Db.getById
  rw [hi]

lemma of_eq (hi : db₁.items = db.items) (ht : db₁.transitions = db.transitions) :
    Leaves S P db db₁ := (refl S P db).congr hi ht

lemma append (h : Leaves S P db db₁) (ts : Time) {t : TransitionInput} (ht : P t) :
    Leaves S P db (db₁.append ts t) := ⟨h.log.cons ts ht, h.outcomes⟩

lemma updateRow (h : Leaves S P db db₁) {q : String} {f : QueueItem → QueueItem} {hf}
    (hres : S q ∨ ∀ r, db₁.getById q = some r → (f r).resolution = r.resolution) :
    Leaves S P db (db₁.updateRow q f hf) := by
  refine ⟨h.log, fun k hk => Eq.trans ?_ (h.outcomes k hk)⟩
  unfold resolutionOf
  rw [Db.getById_updateRow]
  split
  · rename_i hkq
    rcases hres with hS | hres
    · exact absurd (hkq ▸ hS) hk
    · cases hr : db₁.getById k with
      | none => rfl
      | some r => exact hres r (hkq ▸ hr)
  · rfl

lemma insertRow (h : Leaves S P db db₁) {s : QueueItem} (hs : s.resolution = none)
    (hins : db₁.insertRow s = .ok db₂) : Leaves S P db db₂ := by
  obtain ⟨hfresh, hget, hdb⟩ := Db.insertRow_eq_ok hins
  have ht : db₂.transitions = db₁.transitions := by rw [hdb]
  refine ⟨ht ▸ h.log, fun k hk => Eq.trans ?_ (h.outcomes k hk)⟩
  unfold resolutionOf
  rw [hget]
  split
  · rename_i hkq
    rw [hkq, hfresh]
    exact hs
  · rfl

lemma setOutbox (h : Leaves S P db db₁) (o : Entries) : Leaves S P db (db₁.setOutbox o) :=
  h.congr rfl rfl

lemma emit (h : Leaves S P db db₁) (e : RigEvent) : Leaves S P db (db₁.emit e) := h.congr rfl rfl

lemma recordWake (h : Leaves S P db db₁) (w : WakeRecord) : Leaves S P db (db₁.recordWake w) :=
  h.congr rfl rfl

lemma retireTimer (h : Leaves S P db db₁) (q reason : String) :
    Leaves S P db (retireParkGeneratedTimer db₁ q reason) :=
  h.congr (items_retireParkGeneratedTimer db₁ q reason)
    (transitions_retireParkGeneratedTimer db₁ q reason)

lemma nudged (h : Leaves S P db db₁) (env : Env) (q result : String) :
    Leaves S P db (recordNudgeAttempt env db₁ q result) :=
  h.updateRow (.inr fun _ _ => rfl)

end Leaves

/-! ### Which transitions read as a reroute's -/

/-- The transition a later reroute takes for an earlier one's. -/
def reroutes (x : Transition) : Bool :=
  x.identityProvenance.isNone && x.actorSession = fallbackActor &&
    x.transitionNote.any fun note => startsWith note "fallback-routed: "

/-- An input whose transition does not read as a reroute's. -/
def Plain (t : TransitionInput) : Prop := ∀ id ts, reroutes (t.toTransition id ts) = false

lemma plain_of_actor {t : TransitionInput} (h : t.actorSession ≠ fallbackActor) : Plain t := by
  intro id ts
  simp [reroutes, TransitionInput.toTransition, h]

lemma plain_of_note {t : TransitionInput}
    (h : (t.transitionNote.any fun note => startsWith note "fallback-routed: ") = false) :
    Plain t := by
  intro id ts
  unfold reroutes TransitionInput.toTransition
  rw [h, Bool.and_false]

lemma plain_of_provenance {t : TransitionInput} (h : t.identityProvenance.isSome = true) :
    Plain t := by
  intro id ts
  have : (t.toTransition id ts).identityProvenance.isNone = false := by
    unfold TransitionInput.toTransition
    dsimp only
    split
    · rfl
    · simpa using h
  simp [reroutes, this]

/-- The caller is not the daemon's own reroute, or its identity is recorded. -/
def attested (actor : String) (provenance : Option String) : Prop :=
  actor ≠ fallbackActor ∨ provenance.isSome = true

lemma attested.plain {t : TransitionInput} (h : attested t.actorSession t.identityProvenance) :
    Plain t := h.elim plain_of_actor plain_of_provenance

/-- A transition written under a name is plain when the name is attested. -/
def PlainIf (actor : String) (provenance : Option String) (t : TransitionInput) : Prop :=
  attested actor provenance → Plain t

lemma plain_of_head {t : TransitionInput} {note : String} {d : Char}
    (h : t.transitionNote = some note) (hd : note.toList.head? = some d) (hne : d ≠ 'f') :
    Plain t := by
  refine plain_of_note ?_
  obtain ⟨rest, hrest⟩ := List.head?_eq_some_iff.mp hd
  have hstart : startsWith note "fallback-routed: " = false := by
    have hlabel : "fallback-routed: ".toList = 'f' :: "allback-routed: ".toList := by decide
    unfold startsWith
    rw [hrest, hlabel, List.isPrefixOf]
    simp [Ne.symm hne]
  rw [h]
  exact hstart

/-! ### The verbs -/

section
variable {S : String → Prop} {db₀ db db' : Db} {env : Env}

lemma createTxn_leaves {input : QueueCreateInput} (h : createTxn env db input = .ok db') :
    Leaves S Plain db db' := by
  unfold createTxn at h
  obtain ⟨db₁, h₁, h⟩ := bind_eq_ok.mp h
  have hcreated : Leaves S Plain db db₁ := by
    unfold createInTransactionalContext at h₁
    obtain ⟨-, -, h₁⟩ := bind_eq_ok.mp h₁
    obtain ⟨db₂, hins, h₁⟩ := bind_eq_ok.mp h₁
    cases pure_eq_ok.mp h₁
    refine Leaves.emit (Leaves.append ?_ _ (plain_of_head rfl (d := 'c') rfl (by decide))) _
    exact ((Leaves.refl S Plain db).insertRow rfl hins).updateRow (.inr fun _ _ => rfl)
  split at h
  · simp only at h
    split at h
    · rename_i db₃ hst
      cases pure_eq_ok.mp h
      rw [stageWakeIntent_db hst]
      exact hcreated.setOutbox _
    · cases pure_eq_ok.mp h
      exact hcreated.nudged env _ _
  · cases pure_eq_ok.mp h
    exact hcreated

lemma create_leaves {input : QueueCreateInput} {reply : CreateReply}
    (h : create env db input = .ok (reply, db')) : Leaves S Plain db db' := by
  unfold create at h
  obtain ⟨-, -, h⟩ := bind_eq_ok.mp h
  split at h
  · rename_i htxn
    cases pure_eq_ok.mp h
    exact createTxn_leaves htxn
  · split at h
    · cases h
    · split at h
      · cases h
      · split at h
        · cases pure_eq_ok.mp h
          exact .refl _ _ _
        · simp at h

lemma claim_leaves {input : QueueClaimInput} (h : claim env db input = .ok db') :
    Leaves S Plain db db' := by
  unfold claim at h
  obtain ⟨_, -, h⟩ := bind_eq_ok.mp h
  obtain ⟨_, -, h⟩ := bind_eq_ok.mp h
  obtain ⟨_, -, h⟩ := bind_eq_ok.mp h
  cases pure_eq_ok.mp h
  refine Leaves.emit (Leaves.retireTimer ?_ _ _) _
  refine Leaves.append ?_ _ (plain_of_head rfl (d := 'c') rfl (by decide))
  exact (Leaves.refl S Plain db).updateRow (.inr fun _ _ => rfl)

lemma unclaim_leaves {input : QueueUnclaimInput} (h : unclaim env db input = .ok db') :
    Leaves S Plain db db' := by
  unfold unclaim at h
  obtain ⟨_, -, h⟩ := bind_eq_ok.mp h
  obtain ⟨_, -, h⟩ := bind_eq_ok.mp h
  cases pure_eq_ok.mp h
  refine Leaves.emit (Leaves.append ?_ _ (plain_of_head rfl (d := 'u') ?_ (by decide))) _
  · exact (Leaves.refl S Plain db).updateRow (.inr fun _ _ => rfl)
  · simp [String.toList_append]

lemma rebindRow_leaves (env : Env) (input : PropagateInput) (db : Db) (q s : String) :
    Leaves S Plain db (rebindRow env input db q s) := by
  unfold rebindRow
  dsimp only
  refine Leaves.emit (Leaves.recordWake ?_ _) _
  have hmoved : Leaves S Plain db ((db.updateRow q fun r =>
      { r with blockedOn := some s, tsUpdated := env.now }).append env.now
      { qitemId := q, state := .blocked, actorSession := input.actorSession,
        transitionNote := some ("blocker custody moved from " ++ input.qitemId ++ " to " ++ s),
        identityProvenance := input.identityProvenance }) := by
    refine Leaves.append ?_ _ (plain_of_head rfl (d := 'b') ?_ (by decide))
    · exact (Leaves.refl S Plain db).updateRow (.inr fun _ _ => rfl)
    · simp [String.toList_append]
  split
  · exact hmoved.congr rfl rfl
  · exact hmoved.retireTimer _ _

lemma propagateRow_leaves {input : PropagateInput} {row : String × String}
    (h : propagateRow env input db row = .ok db') : Leaves S Plain db db' := by
  unfold propagateRow at h
  split at h
  · cases pure_eq_ok.mp h
    exact rebindRow_leaves env input db _ _
  · obtain ⟨db₁, rfl, outbox, e, rfl, -⟩ := unparkRow_eq h
    refine Leaves.emit (Leaves.setOutbox (Leaves.retireTimer ?_ _ _) _) _
    refine Leaves.append ?_ _ (plain_of_head rfl (d := 'a') ?_ (by decide))
    · exact (Leaves.refl S Plain db).updateRow (.inr fun _ _ => rfl)
    · simp [String.toList_append]

lemma propagate_leaves {input : PropagateInput}
    (h : propagateBlockerCompletion env input db = .ok db') : Leaves S Plain db db' :=
  (path_of_foldlM h).invariant (I := Leaves S Plain db)
    (fun _ _ _ hstep hd => hd.trans (propagateRow_leaves hstep)) (.refl _ _ _)

lemma appendOnly_leaves {qitem : QueueItem} {input : QueueUpdateInput} {deadline : Option Time}
    (h : appendOnly env db qitem input deadline = .ok db') :
    Leaves S (PlainIf input.actorSession input.identityProvenance) db db' := by
  unfold appendOnly at h
  obtain ⟨-, -, h⟩ := bind_eq_ok.mp h
  split at h
  · split at h
    · obtain ⟨-, -, h⟩ := bind_eq_ok.mp h
      simp at h
    · simp at h
  · cases pure_eq_ok.mp h
    have hsum : Leaves S (PlainIf input.actorSession input.identityProvenance) db
        (if input.hasValidSummary = true then
          db.updateRow input.qitemId fun r => { r with summary := input.summary } else db) := by
      split
      · exact (Leaves.refl S _ db).updateRow (.inr fun _ _ => rfl)
      · exact .refl _ _ _
    refine Leaves.emit (Leaves.append ?_ _ fun hatt => hatt.plain) _
    cases deadline with
    | none => exact hsum
    | some t => exact hsum.updateRow (.inr fun _ _ => rfl)

/-- The rows whose outcome an update may write. -/
def stores (input : QueueUpdateInput) (k : String) : Prop :=
  k = input.qitemId ∧ input.resolution.isSome = true

lemma transitions_settleParkWake (db : Db) (qitem : QueueItem) (plan : UpdatePlan)
    (parkWake : Option ParkWake) (n : ℕ) :
    (settleParkWake db qitem plan parkWake n).transitions = db.transitions := by
  unfold settleParkWake
  cases parkWake with
  | some wake =>
    dsimp only
    split
    · rw [Db.transitions_recordWake, transitions_retireParkGeneratedTimer]
    · rfl
  | none =>
    dsimp only
    split
    · rw [transitions_retireParkGeneratedTimer]
    · rfl

lemma update_leaves {input : QueueUpdateInput} (h : update env db input = .ok db') :
    Leaves (stores input) (PlainIf input.actorSession input.identityProvenance) db db' := by
  unfold update at h
  obtain ⟨qitem, hr, h⟩ := bind_eq_ok.mp h
  have hr := requireItem_eq_ok.mp hr
  have hid := Db.getById_id hr
  obtain ⟨deadline, -, h⟩ := bind_eq_ok.mp h
  split at h
  · exact appendOnly_leaves h
  · split at h
    · exact appendOnly_leaves h
    · obtain ⟨plan, -, h⟩ := bind_eq_ok.mp h
      obtain ⟨⟨wake, jobs⟩, -, h⟩ := bind_eq_ok.mp h
      unfold applyUpdate at h
      simp only [hid] at h
      have hmoved : Leaves (stores input) (PlainIf input.actorSession input.identityProvenance) db
          ((db.setJobs jobs).updateRow input.qitemId
            (movedRow env plan input (nextResolution qitem plan input))) := by
        refine (Leaves.of_eq rfl rfl : Leaves _ _ db (db.setJobs jobs)).updateRow ?_
        cases hres : input.resolution with
        | some o => exact .inl ⟨rfl, by rw [hres]; rfl⟩
        | none =>
          refine .inr fun r hget => ?_
          cases hr.symm.trans hget
          unfold movedRow nextResolution
          rw [hres]
          rfl
      have hwrote := hmoved.append env.now (t :=
        { qitemId := input.qitemId, state := plan.state, actorSession := input.actorSession,
          transitionNote := moveNote qitem plan input, closureReason := plan.closureReason,
          closureTarget := plan.closureTarget, identityProvenance := input.identityProvenance,
          identityPrincipal := input.identityPrincipal,
          ownerNotification := classifyOwnerNotification env
            { create := false, destinationSession := qitem.destinationSession,
              previousState := some qitem.state, previousBlockedOn := qitem.blockedOn,
              nextState := plan.state,
              nextBlockedOn := if plan.state = .blocked then plan.blocker else none,
              decisionResolved := input.decisionResolved } }) fun hatt => hatt.plain
      have hsettled := fun n => hwrote.congr (items_settleParkWake _ qitem plan wake n)
        (transitions_settleParkWake _ qitem plan wake n)
      split at h
      · obtain ⟨db₁, hprop, h⟩ := bind_eq_ok.mp h
        cases pure_eq_ok.mp hprop
        cases pure_eq_ok.mp h
        exact (hsettled _).emit _
      · obtain ⟨db₁, hprop, h⟩ := bind_eq_ok.mp h
        cases pure_eq_ok.mp h
        exact ((hsettled _).trans ((propagate_leaves hprop).mono fun _ ht _ => ht)).emit _

lemma closeSource_leaves (env : Env) (db : Db) (terminal : QueueState) (q a b target note : String)
    {p : Option String} (principal : Option String) :
    Leaves S (PlainIf a p) db (closeSource env db terminal q a b target note p principal) := by
  unfold closeSource
  refine Leaves.retireTimer (Leaves.append ?_ _ fun hatt => hatt.plain) _ _
  exact (Leaves.refl S _ db).updateRow (.inr fun _ _ => rfl)

lemma stageHandoffWake_leaves {P : TransitionInput → Prop} {q a b : String} {p : Option String}
    {n : Option Bool} (h₀ : Leaves S P db₀ db) (h : stageHandoffWake env db q a b p n = .ok db') :
    Leaves S P db₀ db' := by
  unfold stageHandoffWake at h
  split at h
  · rename_i hst
    cases h
    rw [stageWakeIntent_db hst]
    exact h₀.setOutbox _
  · split at h
    · cases h
      exact h₀.nudged env _ _
    · cases h

lemma handoffWith_leaves {variant : HandoffVariant} {input : QueueHandoffInput} {c : Char}
    (hc : variant.successorNote.toList.head? = some c) (hne : c ≠ 'f')
    (h : handoffWith variant env db input = .ok db') :
    Leaves S (PlainIf input.fromSession input.identityProvenance) db db' := by
  unfold handoffWith at h
  obtain ⟨source, -, h⟩ := bind_eq_ok.mp h
  obtain ⟨-, -, h⟩ := bind_eq_ok.mp h
  obtain ⟨-, -, h⟩ := bind_eq_ok.mp h
  obtain ⟨-, -, h⟩ := bind_eq_ok.mp h
  obtain ⟨db₁, hins, h⟩ := bind_eq_ok.mp h
  obtain ⟨db₂, hst, h⟩ := bind_eq_ok.mp h
  obtain ⟨db₃, hprop, h⟩ := bind_eq_ok.mp h
  obtain ⟨-, -, h⟩ := bind_eq_ok.mp h
  cases pure_eq_ok.mp h
  refine Leaves.emit (Leaves.trans ?_ ((propagate_leaves hprop).mono fun _ ht _ => ht)) _
  refine Leaves.emit (stageHandoffWake_leaves ?_ hst) _
  refine Leaves.append ?_ _ fun _ => plain_of_head rfl (d := c) ?_ hne
  · exact (closeSource_leaves env db variant.terminalState source.qitemId input.fromSession
      input.toSession input.toSession _ input.identityPrincipal).insertRow rfl hins
  · rw [String.toList_append]
    obtain ⟨rest, hrest⟩ := List.head?_eq_some_iff.mp hc
    rw [hrest]
    rfl

lemma closeCrossHost_leaves {input : CrossHostCloseInput} {absorbed : Bool}
    (h : closeCrossHostHandoffSource env db input = .ok (absorbed, db')) :
    Leaves S (PlainIf input.fromSession input.identityProvenance) db db' := by
  obtain ⟨_, -, ⟨-, rfl, -⟩ | ⟨-, -, note, e, hprop⟩⟩ := closeCrossHost_eq_ok h
  · exact .refl _ _ _
  · refine Leaves.trans (Leaves.emit ?_ _) ((propagate_leaves hprop).mono fun _ ht _ => ht)
    exact closeSource_leaves env db _ _ _ _ _ _ _

lemma recordFired_leaves (env : Env) (a : WakeAttempt) (db : Db) (target : String × ParkWake) :
    Leaves S Plain db (recordFired env a db target) := by
  have hactor : ("watchdog@system" : String) ≠ fallbackActor := by decide
  have hnoted : Leaves S Plain db (db.append env.now
      { qitemId := target.1, state := .blocked, actorSession := "watchdog@system",
        transitionNote := some a.note }) :=
          (Leaves.refl S Plain db).append _ (plain_of_actor hactor)
  unfold recordFired
  dsimp only
  split
  · exact (hnoted.recordWake _).emit _
  · exact hnoted.emit _

lemma settleFiredJob_leaves (env : Env) (a : WakeAttempt) (g : Bool) (db : Db) :
    Leaves S Plain db (settleFiredJob env a g db) := by
  obtain ⟨jobs, hj⟩ := settleFiredJob_eq env a g db
  rw [hj]
  exact .of_eq rfl rfl

lemma accountWake_leaves {a : WakeAttempt} (h : accountWake env db a = .ok db') :
    Leaves (fun _ => False) Plain db db' := by
  have hactor : ("watchdog@system" : String) ≠ fallbackActor := by decide
  have hfired : ∀ targets : List (String × ParkWake),
      Leaves (fun _ => False) Plain db (targets.foldl (recordFired env a) db) := fun targets =>
    (path_of_foldl (recordFired env a) targets db).invariant (I := Leaves _ Plain db)
      (fun d t _ hd hI => hd ▸ hI.trans (recordFired_leaves env a d t)) (.refl _ _ _)
  unfold accountWake at h
  split at h
  · unfold recordWatchdogWakeAttempt at h
    split at h
    · cases pure_eq_ok.mp h
      exact .refl _ _ _
    · simp only at h
      split at h
      · cases pure_eq_ok.mp h
        exact hfired _
      · split at h
        · cases pure_eq_ok.mp h
          exact (hfired _).trans (settleFiredJob_leaves env a _ _)
        · refine (path_of_foldlM h).invariant (I := Leaves (fun _ => False) Plain db)
            (fun d t d' hstep hd => hd.trans ?_) ((hfired _).congr rfl rfl)
          have hclosed : Leaves (stores (resolutionInput a.jobId t.1)) Plain d d' :=
            (update_leaves hstep).mono fun _ ht => ht (.inl hactor)
          exact ⟨hclosed.log, fun k _ => hclosed.outcomes k (by
            rintro ⟨-, hnone⟩
            cases hnone)⟩
  · cases pure_eq_ok.mp h
    exact .refl _ _ _

end

/-- The rows whose outcome an operation may write. -/
def written : Op → String → Prop
  | .update input => stores input
  | .routeToFallback input => fun k => k = input.qitemId
  | _ => fun _ => False

/-- **Who writes under a name**: no caller takes the name of the daemon's own reroute, unless its
identity is recorded beside it. -/
def Attested : Op → Prop
  | .update input => attested input.actorSession input.identityProvenance
  | .handoff input => attested input.fromSession input.identityProvenance
  | .handoffAndComplete input => attested input.fromSession input.identityProvenance
  | .closeCrossHost input => attested input.fromSession input.identityProvenance
  | _ => True

/-- **What an operation leaves**, unless it is a reroute: no transition of it reads as one when its
caller is attested, and it stores an outcome where it is an update that has one. -/
theorem exec_leaves_if {env : Env} {db db' : Db} {op : Op} (h : exec env db op = .ok db')
    (hno : ∀ input, op ≠ .routeToFallback input) :
    Leaves (written op) (fun t => Attested op → Plain t) db db' := by
  have hplain : ∀ {S : String → Prop}, Leaves S Plain db db' →
      Leaves S (fun t => Attested op → Plain t) db db' := fun hl => hl.mono fun _ ht _ => ht
  cases op with
  | create i =>
    obtain ⟨reply, h⟩ := map_snd_eq_ok h
    exact hplain (create_leaves h)
  | claim i => exact hplain (claim_leaves h)
  | unclaim i => exact hplain (unclaim_leaves h)
  | update i => exact update_leaves h
  | handoff i => exact handoffWith_leaves (c := 'h') (by decide) (by decide) h
  | handoffAndComplete i => exact handoffWith_leaves (c := 'h') (by decide) (by decide) h
  | closeCrossHost i =>
    obtain ⟨absorbed, h⟩ := map_snd_eq_ok h
    exact closeCrossHost_leaves h
  | routeToFallback i => exact absurd rfl (hno i)
  | releaseClaims g =>
    cases pure_eq_ok.mp h
    refine hplain ?_
    unfold releaseClaimsByGeneration
    split
    · exact .refl _ _ _
    · refine (path_of_foldl (releaseClaim env) (claimsOfGeneration db g) db).invariant
        (I := Leaves _ Plain db) (fun d q d' hd hI => ?_) (.refl _ _ _)
      rw [← hd]
      refine Leaves.append ?_ _ (plain_of_actor (by dsimp only; decide))
      exact hI.updateRow (.inr fun _ _ => rfl)
  | transferClaims a b note =>
    cases pure_eq_ok.mp h
    refine hplain ?_
    unfold transferClaimsByGeneration
    split
    · exact .refl _ _ _
    · refine (path_of_foldl (transferClaim env b note) (claimsOfGeneration db a) db).invariant
        (I := Leaves _ Plain db) (fun d q d' hd hI => ?_) (.refl _ _ _)
      rw [← hd]
      refine Leaves.append ?_ _ (plain_of_actor (by dsimp only; decide))
      exact hI.updateRow (.inr fun _ _ => rfl)
  | wakeAttempt a => exact hplain (accountWake_leaves h)
  | terminalBeforeDelivery j =>
    cases pure_eq_ok.mp h
    obtain ⟨jobs, hj⟩ := terminalBeforeDelivery_eq db j
    rw [hj]
    exact .of_eq rfl rfl
  | refreshWaits changed proof =>
    cases pure_eq_ok.mp h
    obtain ⟨jobs, hj⟩ := refreshQueueWaits_eq env changed proof db
    rw [hj]
    exact .of_eq rfl rfl
  | job op =>
    cases hj : execJob env db.jobs op with
    | error e => simp [exec, hj, Except.map] at h
    | ok jobs =>
      obtain rfl : db.setJobs jobs = db' := by simpa [exec, hj, Except.map] using h
      exact .of_eq rfl rfl

/-- **What an operation leaves**, unless it is a reroute: no transition of it reads as one, and it
stores an outcome where it is an update that has one. -/
theorem exec_leaves {env : Env} {db db' : Db} {op : Op} (h : exec env db op = .ok db')
    (hatt : Attested op) (hno : ∀ input, op ≠ .routeToFallback input) :
    Leaves (written op) Plain db db' :=
  (exec_leaves_if h hno).mono fun _ ht => ht hatt

end OpenRig.Appended
