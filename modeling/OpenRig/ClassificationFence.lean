import OpenRig.ClassificationRuns

/-!
What holds over every run of classification calls: the ledger, the classifications and the routing
outcomes agree, and an execution of an attempt acts at most once, while it is the current one.
-/

namespace OpenRig.ClassificationLedger

open OpenRig.Runs OpenRig.ClassifierLeases OpenRig.StreamStore
open Relation (ReflTransGen)

variable {opts : Options} {env : Env} {s t u : Db}

/-! ### The tables agree -/

lemma leases_row {s t : Leases} {env : ClassifierLeases.Env}
    (h : ReflTransGen (ClassifierLeases.Move env) s t) {id : String} {r : ClassifierLease}
    (hr : s.getById id = some r) : ∃ r', t.getById id = some r' ∧ Continues r r' := by
  induction h with
  | refl => exact ⟨r, hr, .refl r⟩
  | tail _ hmove ih =>
    obtain ⟨r', hr', hc⟩ := ih
    obtain ⟨r'', hr'', hc'⟩ := move_row hmove hr'
    exact ⟨r'', hr'', hc.trans hc'⟩

lemma Move.held (h : Move opts env s t) {id session : String} (hs : Held s.leases id session) :
    Held t.leases id session := by
  obtain ⟨r, hr, rfl⟩ := hs
  obtain ⟨r', hr', hc⟩ := leases_row h.leases hr
  exact ⟨r', hr', hc.session⟩

/-- The written attempts and the classifications they stand for; who made each of them. -/
structure Sound (opts : Options) (db : Db) : Prop where
  attemptsHeld : ∀ i a, db.attempts.get? i = some a → Held db.leases a.leaseId a.classifierSession
  classificationsHeld : ∀ p c, db.classifications.get? p = some c →
    Held db.leases c.leaseId c.classifierSession
  attemptItems : ∀ i a, db.attempts.get? i = some a →
    (db.items.get? a.identity.streamItemId).isSome
  classifiedItems : ∀ p c, db.classifications.get? p = some c →
    (db.items.get? c.streamItemId).isSome
  budget : ∀ i a, db.attempts.get? i = some a →
    1 ≤ a.attemptCount ∧ a.attemptCount ≤ max 1 opts.retryBudget
  written : ∀ i a, db.attempts.get? i = some a → a.status = .written →
    ∃ p c, db.classifications.get? p = some c ∧ Bound a c ∧
      c.classifierSession = a.classifierSession
  once : ∀ i j a b, db.attempts.get? i = some a → db.attempts.get? j = some b →
    a.status = .written → b.status = .written →
    a.identity.streamItemId = b.identity.streamItemId → i = j
  routed : ∀ i d, db.dispositions.get? i = some d →
    Routed db.leases db.classifications db.attempts d

lemma sound_empty (opts : Options) : Sound opts .empty where
  attemptsHeld _ _ h := by cases h
  classificationsHeld _ _ h := by cases h
  attemptItems _ _ h := by cases h
  classifiedItems _ _ h := by cases h
  budget _ _ h := by cases h
  written _ _ h := by cases h
  once _ _ _ _ h := by cases h
  routed _ _ h := by cases h

lemma attempt_referenced {i : String} {a : ClassificationAttempt}
    (h : s.attempts.get? i = some a) : s.referenced a.identity.streamItemId = true := by
  have hmem := (Table.get?_eq_some.mp h).1
  have : (s.attempts.rows.any fun b => b.identity.streamItemId = a.identity.streamItemId) = true :=
    List.any_eq_true.mpr ⟨a, hmem, by simp⟩
  simp [Db.referenced, this]

lemma classification_referenced {p : String} {c : ProjectClassification}
    (h : s.classifications.get? p = some c) : s.referenced c.streamItemId = true := by
  have hmem := (Table.get?_eq_some.mp h).1
  have : (s.classifications.rows.any fun b => decide (b.streamItemId = c.streamItemId) ||
      decide (b.labels.duplicateOfStreamItemId = some c.streamItemId)) = true :=
    List.any_eq_true.mpr ⟨c, hmem, by simp⟩
  simp [Db.referenced, this]

lemma Move.item_of_attempt (h : Move opts env s t) (hs : Sound opts s) {i : String}
    {a : ClassificationAttempt} (ha : s.attempts.get? i = some a) :
    (t.items.get? a.identity.streamItemId).isSome :=
  h.items _ (attempt_referenced ha) (hs.attemptItems i a ha)

lemma Move.attempt_cases (h : Move opts env s t) {i : String} {a' : ClassificationAttempt}
    (ha' : t.attempts.get? i = some a') :
    s.attempts.get? i = some a' ∨ Started s t.items a' ∨
      ∃ a, s.attempts.get? i = some a ∧ Changed opts env s t.classifications a a' :=
  h.attempted i a' ha'

lemma Move.written (h : Move opts env s t) (hs : Sound opts s)
    (hheld : ∀ i a, t.attempts.get? i = some a → Held t.leases a.leaseId a.classifierSession)
    (hclass : ∀ p c, t.classifications.get? p = some c →
      Held t.leases c.leaseId c.classifierSession)
    (i : String) (a' : ClassificationAttempt) (ha' : t.attempts.get? i = some a')
    (hstatus : a'.status = .written) : ∃ p c, t.classifications.get? p = some c ∧ Bound a' c ∧
      c.classifierSession = a'.classifierSession := by
  -- The lease they name has one holder.
  have hsession : ∀ p c, t.classifications.get? p = some c → Bound a' c →
      c.classifierSession = a'.classifierSession := by
    intro p c hc hbound
    have := hclass p c hc
    rw [hbound.lease] at this
    exact this.unique (hheld i a' ha')
  rcases h.attempt_cases ha' with hsame | hstarted | ⟨a, ha, hchanged⟩
  · obtain ⟨p, c, hc, hbound, hby⟩ := hs.written i a' hsame hstatus
    exact ⟨p, c, h.classifications p c hc, hbound, hby⟩
  · rw [hstarted.status] at hstatus
    cases hstatus
  · cases hchanged.step with
    | reissue status count budget execution held =>
      rw [status] at hstatus
      cases hstatus
    | close status same =>
      rw [hstatus] at status
      simp at status
    | write status same unclassified row =>
      obtain ⟨p, c, hc, hbound⟩ := row
      have hbound' : Bound a' c :=
        ⟨by rw [hchanged.identity, hbound.item], by rw [same.lease, hbound.lease],
          by rw [hchanged.identity, hbound.classifier], by rw [hchanged.identity, hbound.taxonomy]⟩
      exact ⟨p, c, hc, hbound', hsession p c hc hbound'⟩

/-- An attempt becomes written only while its item has no classification, so while no attempt of
that item is written. -/
lemma Move.once (h : Move opts env s t) (hs : Sound opts s) (i j : String)
    (a b : ClassificationAttempt) (ha : t.attempts.get? i = some a)
    (hb : t.attempts.get? j = some b) (hwa : a.status = .written) (hwb : b.status = .written)
    (hitem : a.identity.streamItemId = b.identity.streamItemId) : i = j := by
  -- A row that was written before stands for a classification of its item.
  have hold : ∀ {i j : String} {a b : ClassificationAttempt}, s.attempts.get? i = some a →
      t.attempts.get? j = some b → a.status = .written → b.status = .written →
      a.identity.streamItemId = b.identity.streamItemId → i = j := by
    intro i j a b ha hb hwa hwb hitem
    rcases h.attempt_cases hb with hsame | hstarted | ⟨b₀, hb₀, hchanged⟩
    · exact hs.once i j a b ha hsame hwa hwb hitem
    · rw [hstarted.status] at hwb
      cases hwb
    · cases hchanged.step with
      | reissue status count budget execution held =>
        rw [status] at hwb
        cases hwb
      | close status same =>
        rw [hwb] at status
        simp at status
      | write status same unclassified row =>
        obtain ⟨p, c, hc, hbound, -⟩ := hs.written i a ha hwa
        refine absurd ?_ (classification_of_item unclassified hc)
        rw [hbound.item, hitem, hchanged.identity]
  rcases h.single i j a b ha hb with hsame | hsame | hij
  · exact hold hsame hb hwa hwb hitem
  · exact (hold hsame ha hwb hwa hitem.symm).symm
  · exact hij

lemma terminal_kept {a a' : ClassificationAttempt} {after : Table ProjectClassification.projectId}
    (h : a' = a ∨ Changed opts env s after a a') (hterminal : a.status.terminal = true) :
    a' = a := by
  rcases h with rfl | hchanged
  · rfl
  · rw [hchanged.unfinished] at hterminal
    cases hterminal

lemma Move.routed_kept (h : Move opts env s t) {d d' : StreamDisposition}
    (hd : Routed s.leases s.classifications s.attempts d) (happlies : Applies d d') :
    Routed t.leases t.classifications t.attempts d' := by
  have hrest := happlies.rest
  cases hd with
  | accepted p c project row item acceptor valid =>
    rw [hrest]
    exact .accepted p c project (h.classifications p c row) item acceptor valid
  | deferred i a project row status item acceptor valid settled =>
    obtain rfl := happlies.once (by rw [settled]; rfl)
    obtain ⟨a', ha', hstep⟩ := h.attempts i a row
    obtain rfl := terminal_kept hstep (by rw [status]; rfl)
    exact .deferred i a' project ha' status item (h.held acceptor) valid settled

/-- **Every call keeps the tables in agreement.** -/
lemma sound_move (h : Move opts env s t) (hs : Sound opts s) : Sound opts t := by
  have hattempts : ∀ i a, t.attempts.get? i = some a →
      Held t.leases a.leaseId a.classifierSession := by
    intro i a' ha'
    rcases h.attempt_cases ha' with hsame | hstarted | ⟨a, ha, hchanged⟩
    · exact h.held (hs.attemptsHeld i a' hsame)
    · exact h.held hstarted.held
    · cases hchanged.step with
      | reissue status count budget execution held => exact h.held held
      | close status same =>
        rw [same.lease, same.session]
        exact h.held (hs.attemptsHeld i a ha)
      | write status same unclassified row =>
        rw [same.lease, same.session]
        exact h.held (hs.attemptsHeld i a ha)
  have hclassifications : ∀ p c, t.classifications.get? p = some c →
      Held t.leases c.leaseId c.classifierSession := by
    intro p c hc
    rcases h.classified p c hc with hsame | hprojected
    · exact h.held (hs.classificationsHeld p c hsame)
    · exact h.held hprojected.held
  exact
    { attemptsHeld := hattempts
      classificationsHeld := hclassifications
      attemptItems := fun i a' ha' => by
        rcases h.attempt_cases ha' with hsame | hstarted | ⟨a, ha, hchanged⟩
        · exact h.item_of_attempt hs hsame
        · exact hstarted.item
        · rw [hchanged.identity]
          exact h.item_of_attempt hs ha
      classifiedItems := fun p c hc => by
        rcases h.classified p c hc with hsame | hprojected
        · exact h.items _ (classification_referenced hsame) (hs.classifiedItems p c hsame)
        · exact hprojected.item
      budget := fun i a' ha' => by
        rcases h.attempt_cases ha' with hsame | hstarted | ⟨a, ha, hchanged⟩
        · exact hs.budget i a' hsame
        · rw [hstarted.count]
          exact ⟨le_refl _, le_max_left _ _⟩
        · have hbudget := hs.budget i a ha
          cases hchanged.step with
          | reissue status count budget execution held =>
            rw [count]
            exact ⟨by omega, le_max_of_le_right budget⟩
          | close status same =>
            rw [same.count]
            exact hbudget
          | write status same unclassified row =>
            rw [same.count]
            exact hbudget
      written := h.written hs hattempts hclassifications
      once := h.once hs
      routed := fun i d' hd' => by
        rcases h.routed i d' hd' with ⟨d, hd, happlies⟩ | hnew
        · exact h.routed_kept (hs.routed i d hd) happlies
        · exact hnew }

/-! ### What a run keeps -/

/-- An attempt goes on: to another execution only with a higher count, and past its end nowhere. -/
structure Advances (a a' : ClassificationAttempt) : Prop where
  identity : a'.identity = a.identity
  count : a.attemptCount ≤ a'.attemptCount
  same : a'.attemptCount = a.attemptCount → SameExecution a a'
  ended : a.status.terminal = true → a' = a

lemma Advances.refl (a : ClassificationAttempt) : Advances a a :=
  ⟨rfl, le_refl _, fun _ => ⟨rfl, rfl, rfl, rfl⟩, fun _ => rfl⟩

lemma Advances.trans {a b c : ClassificationAttempt} (h : Advances a b) (h' : Advances b c) :
    Advances a c where
  identity := h'.identity.trans h.identity
  count := h.count.trans h'.count
  same hcount := by
    have hb : b.attemptCount = a.attemptCount :=
      le_antisymm (hcount ▸ h'.count) h.count
    have hab := h.same hb
    have hbc := h'.same (hcount.trans hb.symm)
    exact ⟨hbc.execution.trans hab.execution, hbc.count.trans hab.count, hbc.lease.trans hab.lease,
      hbc.session.trans hab.session⟩
  ended hterminal := by
    obtain rfl := h.ended hterminal
    exact h'.ended hterminal

lemma Changed.advances {a a' : ClassificationAttempt}
    {after : Table ProjectClassification.projectId}
    (h : Changed opts env s after a a') : Advances a a' where
  identity := h.identity
  count := by
    cases h.step with
    | reissue status count budget execution held => omega
    | close status same => exact le_of_eq same.count.symm
    | write status same unclassified row => exact le_of_eq same.count.symm
  same hcount := by
    cases h.step with
    | reissue status count budget execution held => omega
    | close status same => exact same
    | write status same unclassified row => exact same
  ended hterminal := by
    rw [h.unfinished] at hterminal
    cases hterminal

lemma Applies.trans {d d' d'' : StreamDisposition} (h : Applies d d') (h' : Applies d' d'') :
    Applies d d'' where
  rest := by
    have hrest := h'.rest
    rw [h.rest] at hrest
    exact hrest
  once hsome := by
    obtain rfl := h.once hsome
    exact h'.once hsome

/-- What stands in the tables stands there later. -/
structure Later (s t : Db) : Prop where
  leases : ∀ id r, s.leases.getById id = some r →
    ∃ r', t.leases.getById id = some r' ∧ Continues r r'
  classifications : ∀ p c, s.classifications.get? p = some c → t.classifications.get? p = some c
  attempts : ∀ i a, s.attempts.get? i = some a →
    ∃ a', t.attempts.get? i = some a' ∧ Advances a a'
  dispositions : ∀ i d, s.dispositions.get? i = some d →
    ∃ d', t.dispositions.get? i = some d' ∧ Applies d d'

lemma Later.refl (s : Db) : Later s s where
  leases _ r h := ⟨r, h, .refl r⟩
  classifications _ _ h := h
  attempts _ a h := ⟨a, h, .refl a⟩
  dispositions _ d h := ⟨d, h, .refl d⟩

lemma Later.trans (h : Later s t) (h' : Later t u) : Later s u where
  leases id r hr := by
    obtain ⟨r', hr', hc⟩ := h.leases id r hr
    obtain ⟨r'', hr'', hc'⟩ := h'.leases id r' hr'
    exact ⟨r'', hr'', hc.trans hc'⟩
  classifications p c hc := h'.classifications p c (h.classifications p c hc)
  attempts i a ha := by
    obtain ⟨a', ha', hadv⟩ := h.attempts i a ha
    obtain ⟨a'', ha'', hadv'⟩ := h'.attempts i a' ha'
    exact ⟨a'', ha'', hadv.trans hadv'⟩
  dispositions i d hd := by
    obtain ⟨d', hd', happlies⟩ := h.dispositions i d hd
    obtain ⟨d'', hd'', happlies'⟩ := h'.dispositions i d' hd'
    exact ⟨d'', hd'', happlies.trans happlies'⟩

lemma Move.later (h : Move opts env s t) : Later s t where
  leases _ _ hr := leases_row h.leases hr
  classifications := h.classifications
  attempts i a ha := by
    obtain ⟨a', ha', rfl | hchanged⟩ := h.attempts i a ha
    · exact ⟨a', ha', .refl a'⟩
    · exact ⟨a', ha', hchanged.advances⟩
  dispositions := h.dispositions

lemma Step.move {l : Label} (h : Step opts s l t) : Move opts l.env s t := by
  have := exec_move opts l.env s l.call
  rwa [show exec opts l.env s l.call = (t, l.outcome) from h] at this

lemma sound_run {ls : List Label} (h : Path (Step opts) s ls t) (hs : Sound opts s) :
    Sound opts t :=
  h.invariant (fun _ _ _ hstep hs => sound_move (Step.move hstep) hs) hs

lemma later_run {ls : List Label} (h : Path (Step opts) s ls t) : Later s t :=
  h.rel Later.refl (fun _ _ _ => Later.trans) fun _ _ _ hstep => (Step.move hstep).later

/-- **The ledger and the classifications never disagree.** In every run of classification calls by
any sessions, with refused calls among them, under any clocks: every attempt and classification was
made under a lease its session held; a written attempt stands for the one classification of its
item, made under its lease, versions and session, and no item has two written attempts; a routing
outcome stands beside the classification it was accepted with, or beside the abstention that
deferred the item; and nothing that was classified, ended, routed or applied ever changes. -/
theorem ledger_agrees {ls ls' : List Label} (h : Path (Step opts) .empty ls s)
    (h' : Path (Step opts) s ls' t) : Sound opts t ∧ Later s t :=
  ⟨sound_run h' (sound_run h (sound_empty opts)), later_run h'⟩

/-- A session emits an item, begins an attempt under its lease and classifies it with a routing
outcome, which is then applied. -/
theorem ledger_agrees_written : ∃ t : Db,
    t.attempts.rows.map (fun a => (a.attemptId, a.status)) = [("a1", .written)] ∧
      t.classifications.rows.map (·.streamItemId) = ["m1"] ∧
      t.dispositions.rows.map (fun d => (d.streamItemId, d.projectId, d.appliedAt)) =
        [("m1", some "p1", some 5)] ∧ Sound {} t := by
  let env (k : ℕ) (ids : ℕ → String) : Env := ⟨60000, fun _ => k, fun _ => true, ids⟩
  let identity : AttemptIdentity := ⟨"m1", "v1", "t1", "0"⟩
  let item : StreamEmitInput :=
    { streamItemId := some "m1", sourceSession := "a@rig", body := "hello", size := by decide }
  let before : List (Env × Call) :=
    [(env 0 fun k => if k = 0 then "u" else "k1", .emit item),
      (env 1 fun _ => "l1", .lease (.acquire "b@rig")),
      (env 2 fun k => if k = 0 then "a1" else "e1", .begin ⟨identity, "l1", "b@rig"⟩)]
  let outcome : StreamDispositionInput :=
    { disposition := .noAction, operation := .none, templateText := "route", request := "item m1"
      templateDigest :=
        "sha256:f5072a5f5e6a2b0a9e2a0f7d1c4e3b2a19081726354453627180f0e1d2c3b4a5" }
  let result : ProjectClassifyInput :=
    { streamItemId := "m1", classifierSession := "b@rig", leaseId := "l1", attemptId := some "a1",
      executionId := some "e1", classifierVersion := some "v1", taxonomyVersion := some "t1"
      disposition := some outcome }
  let s := (play {} .empty before).2
  let after : List (Env × Call) :=
    [(env 3 fun _ => "p1", .classify result),
      (env 5 fun _ => "", .markApplied "b@rig" "l1" "m1" "\x7b\x7d")]
  have h := ledger_agrees (play_path {} .empty before) (play_path {} s after)
  exact ⟨(play {} s after).2, by decide +kernel, by decide +kernel, by decide +kernel, h.1⟩

/-! ### Executions -/

/-- The execution is not the attempt's current one, or is over. -/
def Closed (i e : String) (db : Db) : Prop :=
  ∃ a, db.attempts.get? i = some a ∧ (a.executionId ≠ e ∨ a.status ≠ .inFlight)

/-- The calls that would end an attempt by an execution of it. -/
def Finishes (i e : String) : Call → Prop
  | .abstain input _ => input.attemptId = i ∧ input.executionId = e
  | .fail input => input.attemptId = i ∧ input.executionId = e
  | .classify input => input.attemptId = some i ∧ input.executionId = some e
  | _ => False

lemma Move.closed {i e : String} (h : Move opts env s t) (hfresh : env.ulid 0 ≠ e)
    (hs : Closed i e s) : Closed i e t := by
  obtain ⟨a, ha, hclosed⟩ := hs
  obtain ⟨a', ha', rfl | hchanged⟩ := h.attempts i a ha
  · exact ⟨a', ha', hclosed⟩
  · refine ⟨a', ha', ?_⟩
    cases hchanged.step with
    | reissue status count budget execution held =>
      rw [execution]
      exact .inl hfresh
    | close status same =>
      right
      rcases status with h | h | h <;> simp [h]
    | write status same unclassified row =>
      right
      simp [status]

lemma Closed.not_finishing {i e : String} (h : Closed i e s) {input : FinishInput}
    (hi : input.attemptId = i) (he : input.executionId = e) (row : ClassificationAttempt) :
    finishing env s input ≠ .ok row := by
  intro hok
  obtain ⟨-, hget, hexec, hstatus, -⟩ := finishing_ok hok
  obtain ⟨a, ha, hclosed⟩ := h
  rw [hi, ha] at hget
  cases hget
  rcases hclosed with hne | hne
  · exact hne (hexec.trans he)
  · exact hne hstatus

lemma settleWith_refused {α : Type} {x : Outcome (Db × α)} (h : ∀ p, x ≠ .ok p) :
    ∃ r, settleWith s x = (s, .error r) := by
  cases x with
  | ok p => exact absurd rfl (h p)
  | error e => exact ⟨e, rfl⟩

/-- **A closed execution acts on nothing.** -/
lemma Closed.refused {i e : String} (h : Closed i e s) (opts : Options) (env : Env) {c : Call}
    (hc : Finishes i e c) : ∃ r, exec opts env s c = (s, .error r) := by
  cases c with
  | abstain input deferral =>
    have habstain : ∀ p, abstain env s input ≠ .ok p := by
      intro p hok
      obtain ⟨row, hrow, -⟩ := abstain_ok hok
      exact h.not_finishing hc.1 hc.2 row hrow
    cases deferral with
    | none => exact settleWith_refused habstain
    | some d =>
      refine settleWith_refused fun p hok => ?_
      unfold abstainDeferred at hok
      obtain ⟨_, -, hok⟩ := bind_ok.mp hok
      obtain ⟨q, hq, -⟩ := bind_ok.mp hok
      exact habstain q hq
  | fail input =>
    refine settleWith_refused fun p hok => ?_
    obtain ⟨row, hrow, -⟩ := fail_ok hok
    exact h.not_finishing hc.1 hc.2 row hrow
  | classify input =>
    refine settleWith_refused fun p hok => ?_
    obtain ⟨a, ha, hbinds, -⟩ := (classify_ok hok).attempt i hc.1
    obtain ⟨b, hb, hclosed⟩ := h
    have hfound := hbinds.found
    rw [ha, hb] at hfound
    cases hfound
    rcases hclosed with hne | hne
    · have hexec := hbinds.execution
      rw [hc.2] at hexec
      exact hne (Option.some.inj hexec)
    · exact hne hbinds.status
  | lease | emit | archive | prune | begin | markApplied => exact absurd hc id

instance (i e : String) (c : Call) : Decidable (Finishes i e c) := by
  cases c <;> unfold Finishes <;> infer_instance

/-- A call that ended the attempt by this execution. -/
def finished (i e : String) (l : Label) : Bool := Finishes i e l.call && l.outcome.isOk

/-- A begin that got an execution of this identity. -/
def granted (id : AttemptIdentity) (l : Label) : Bool :=
  match l.call with
  | .begin input => input.identity = id && l.outcome.isOk
  | _ => false

lemma isOk_iff {x : Outcome Unit} : x.isOk = true ↔ x = .ok () := by
  cases x <;> simp [Except.isOk, Except.toBool]

lemma settleWith_ok {α : Type} {x : Outcome (Db × α)} (h : settleWith s x = (t, .ok ())) :
    ∃ p, x = .ok p ∧ p.1 = t := by
  cases x with
  | ok p => exact ⟨p, rfl, congrArg Prod.fst h⟩
  | error e => cases h

lemma Closed.not_finished {i e : String} (h : Closed i e s) {l : Label} (hstep : Step opts s l t) :
    finished i e l = false := by
  by_contra hfinished
  rw [Bool.not_eq_false, finished, Bool.and_eq_true, decide_eq_true_eq, isOk_iff] at hfinished
  obtain ⟨r, hr⟩ := h.refused opts l.env hfinished.1
  have hcall : exec opts l.env s l.call = (t, l.outcome) := hstep
  rw [hr, hfinished.2] at hcall
  cases hcall

lemma closed_of_update {a : ClassificationAttempt} {f : Rewrite} {i e : String}
    (ha : s.attempts.get? i = some a) (hf : (f.apply a).status ≠ .inFlight)
    (ht : t.attempts = (s.updateAttempt a.attemptId f).attempts) : Closed i e t := by
  refine ⟨f.apply a, ?_, .inr hf⟩
  rw [ht, get?_updateAttempt, if_pos (Table.get?_key ha).symm, ha]
  rfl

lemma abstain_closes {input : FinishInput} {p : Db × ClassificationAttempt} {e : String}
    (h : abstain env s input = .ok p) : Closed input.attemptId e p.1 := by
  obtain ⟨row, hrow, hp, -⟩ := abstain_ok h
  obtain ⟨-, hget, -⟩ := finishing_ok hrow
  exact closed_of_update (f := abstained input.reason (env.now 1)) hget (by simp [abstained])
    (by rw [hp])

lemma abstainDeferred_closes {input : FinishInput} {d : StreamDispositionInput}
    {p : Db × ClassificationAttempt} {e : String} (h : abstainDeferred env s input d = .ok p) :
    Closed input.attemptId e p.1 := by
  unfold abstainDeferred at h
  obtain ⟨_, -, h⟩ := bind_ok.mp h
  obtain ⟨⟨u, a⟩, habstain, h⟩ := bind_ok.mp h
  obtain ⟨t, hins, h⟩ := bind_ok.mp h
  cases h
  obtain ⟨b, hb, hclosed⟩ := abstain_closes (e := e) habstain
  obtain ⟨_, -, -, hrest⟩ := insertDisposition_ok hins
  exact ⟨b, by rw [hrest]; exact hb, hclosed⟩

lemma fail_closes {input : FinishInput} {p : Db × ClassificationAttempt} {e : String}
    (h : fail opts env s input = .ok p) : Closed input.attemptId e p.1 := by
  obtain ⟨row, hrow, hp⟩ := fail_ok h
  obtain ⟨-, hget, -⟩ := finishing_ok hrow
  refine closed_of_update (f := failed opts input.reason (env.now 1) (env.now 2)) hget ?_
    (by rw [hp])
  dsimp only [failed]
  split <;> simp

lemma Classified.closes {input : ProjectClassifyInput} {i e : String}
    (h : Classified env s input t) (hi : input.attemptId = some i) : Closed i e t := by
  obtain ⟨a, rfl, hbinds, ht⟩ := h.attempt i hi
  exact closed_of_update hbinds.found (by simp [writtenBy]) ht

/-- **An execution that ends its attempt is over.** -/
lemma finished_closes {i e : String} {l : Label} (hstep : Step opts s l t)
    (h : finished i e l = true) : Closed i e t := by
  rw [finished, Bool.and_eq_true, decide_eq_true_eq, isOk_iff] at h
  obtain ⟨hc, hok⟩ := h
  have hcall : exec opts l.env s l.call = (t, .ok ()) := by
    rw [← hok]
    exact hstep
  cases hl : l.call with
  | abstain input deferral =>
    rw [hl] at hc hcall
    cases deferral with
    | none =>
      obtain ⟨p, hp, rfl⟩ := settleWith_ok hcall
      exact hc.1 ▸ abstain_closes hp
    | some d =>
      obtain ⟨p, hp, rfl⟩ := settleWith_ok hcall
      exact hc.1 ▸ abstainDeferred_closes hp
  | fail input =>
    rw [hl] at hc hcall
    obtain ⟨p, hp, rfl⟩ := settleWith_ok hcall
    exact hc.1 ▸ fail_closes hp
  | classify input =>
    rw [hl] at hc hcall
    obtain ⟨p, hp, rfl⟩ := settleWith_ok hcall
    exact (classify_ok hp).closes hc.1
  | lease | emit | archive | prune | begin | markApplied =>
    rw [hl] at hc
    exact absurd hc id

/-! ### Begins -/

def spentOn (db : Db) (id : AttemptIdentity) : ℕ :=
  match db.findRow id with
  | some a => a.attemptCount
  | none => 0

lemma findRow_of_get? {id : AttemptIdentity} {i : String} {a : ClassificationAttempt}
    (ha : s.attempts.get? i = some a) (hid : a.identity = id) : s.findRow id = some a :=
  hid ▸ findRow_of_mem (Table.get?_eq_some.mp ha).1

lemma spentOn_of_get? {id : AttemptIdentity} {i : String} {a : ClassificationAttempt}
    (ha : s.attempts.get? i = some a) (hid : a.identity = id) : spentOn s id = a.attemptCount := by
  unfold spentOn
  rw [findRow_of_get? ha hid]

lemma Later.spentOn (h : Later s t) (id : AttemptIdentity) : spentOn s id ≤ spentOn t id := by
  cases hrow : s.findRow id with
  | none =>
    unfold ClassificationLedger.spentOn
    rw [hrow]
    exact Nat.zero_le _
  | some a =>
    obtain ⟨hget, hid⟩ := findRow_eq_some hrow
    obtain ⟨a', ha', hadv⟩ := h.attempts _ a hget
    rw [spentOn_of_get? hget hid, spentOn_of_get? ha' (hadv.identity.trans hid)]
    exact hadv.count

/-- A granted begin: the identity's first execution, or the next one of its attempt. -/
inductive Grant (s : Db) (ulid : ℕ → String) (id : AttemptIdentity) (t : Db) : Prop
  | first (vacant : s.findRow id = none) (i : String) (a : ClassificationAttempt)
      (row : t.attempts.get? i = some a) (identity : a.identity = id) (count : a.attemptCount = 1)
  | next (i : String) (a a' : ClassificationAttempt) (before : s.attempts.get? i = some a)
      (after : t.attempts.get? i = some a') (identity : a.identity = id)
      (same : a'.identity = id) (count : a'.attemptCount = a.attemptCount + 1)
      (execution : a'.executionId = ulid 0)

lemma granted_cases {id : AttemptIdentity} {l : Label} (hstep : Step opts s l t)
    (h : granted id l = true) : Grant s l.env.ulid id t := by
  unfold granted at h
  split at h
  · rename_i input hcall
    rw [Bool.and_eq_true, decide_eq_true_eq, isOk_iff] at h
    obtain ⟨rfl, hok⟩ := h
    have hexec : exec opts l.env s l.call = (t, l.outcome) := hstep
    rw [hcall, hok] at hexec
    dsimp only [exec] at hexec
    rcases begin_cases opts l.env s input with ⟨r, hr⟩ | ⟨u, i, spent, htxn, hr⟩
    · rw [hr] at hexec
      cases hexec
    · rw [hr] at hexec
      obtain ⟨-, -, hbegun⟩ := beginTxn_ok htxn
      obtain rfl : u = t := congrArg Prod.fst hexec
      cases hbegun with
      | first _ vacant inserted =>
        obtain ⟨-, hins, -⟩ := insertAttempt_ok inserted
        exact .first vacant _ _ ((Table.get?_insert? hins _).trans (if_pos rfl)) rfl rfl
      | spent a found unfinished budget => cases hexec
      | reissued a found unfinished budget =>
        obtain ⟨hget, hid⟩ := findRow_eq_some found
        refine .next _ a
          ((ClassificationLedger.reissued (l.env.ulid 0) input (l.env.now 1)).apply a)
          hget ?_ hid hid rfl rfl
        rw [get?_updateAttempt, if_pos rfl, hget]
        rfl
  · cases h

lemma Grant.spentOn {ulid : ℕ → String} {id : AttemptIdentity} (h : Grant s ulid id t) :
    spentOn t id = spentOn s id + 1 := by
  cases h with
  | first vacant i a row identity count =>
    rw [spentOn_of_get? row identity, count, ClassificationLedger.spentOn, vacant]
  | next i a a' before after identity same count execution =>
    rw [spentOn_of_get? before identity, spentOn_of_get? after same, count]

lemma granted_spent {ls : List Label} (h : Path (Step opts) s ls t) (id : AttemptIdentity) :
    spentOn s id + ls.countP (granted id) ≤ spentOn t id := by
  induction h with
  | nil s => simp
  | @cons s u t l ls hstep _ ih =>
    rw [List.countP_cons]
    have hlater := (Step.move hstep).later.spentOn id
    split
    · rename_i hgranted
      have := (granted_cases hstep hgranted).spentOn
      omega
    · omega

lemma Sound.spentOn (h : Sound opts s) (id : AttemptIdentity) :
    spentOn s id ≤ max 1 opts.retryBudget := by
  unfold ClassificationLedger.spentOn
  split
  · rename_i a ha
    exact (h.budget _ a (findRow_eq_some ha).1).2
  · exact Nat.zero_le _

/-! ### The fence -/

lemma closed_run {i e : String} {ls : List Label} (h : Path (Step opts) s ls t)
    (hfresh : ∀ l ∈ ls, l.env.ulid 0 ≠ e) (hs : Closed i e s) : Closed i e t :=
  h.invariant_of_labels (I := Closed i e) (p := fun l => l.env.ulid 0 ≠ e)
    (fun _ _ _ hne hstep hs => (Step.move hstep).closed hne hs) hfresh hs

lemma closed_never_finishes {i e : String} {ls : List Label} (h : Path (Step opts) s ls t)
    (hfresh : ∀ l ∈ ls, l.env.ulid 0 ≠ e) (hs : Closed i e s) : ls.countP (finished i e) = 0 := by
  induction h with
  | nil s => rfl
  | cons hstep _ ih =>
    have hnext := (Step.move hstep).closed (hfresh _ List.mem_cons_self) hs
    rw [List.countP_cons, ih (fun l hl => hfresh l (List.mem_cons_of_mem _ hl)) hnext,
      hs.not_finished hstep]
    rfl

lemma finishes_once {i e : String} {ls : List Label} (h : Path (Step opts) s ls t)
    (hfresh : ∀ l ∈ ls, l.env.ulid 0 ≠ e) : ls.countP (finished i e) ≤ 1 := by
  induction h with
  | nil s => exact Nat.zero_le _
  | cons hstep hrest ih =>
    have hfresh' := fun l hl => hfresh l (List.mem_cons_of_mem _ hl)
    rw [List.countP_cons]
    split
    · rename_i hfinished
      rw [closed_never_finishes hrest hfresh' (finished_closes hstep hfinished)]
    · exact ih hfresh'

lemma closed_of_finished {i e : String} {ls : List Label} (h : Path (Step opts) s ls t)
    (hfresh : ∀ l ∈ ls, l.env.ulid 0 ≠ e) {l : Label} (hl : l ∈ ls)
    (hfinished : finished i e l = true) : Closed i e t := by
  obtain ⟨before, after, u, u', rfl, -, hstep, hafter⟩ := h.split hl
  exact closed_run hafter (fun l' hl' => hfresh l' (by simp [hl']))
    (finished_closes hstep hfinished)

lemma closed_of_granted {i e : String} {ls : List Label} (h : Path (Step opts) s ls t)
    (hfresh : ∀ l ∈ ls, l.env.ulid 0 ≠ e) {a : ClassificationAttempt}
    (ha : s.attempts.get? i = some a) {l : Label} (hl : l ∈ ls)
    (hgranted : granted a.identity l = true) : Closed i e t := by
  obtain ⟨before, after, u, u', rfl, hbefore, hstep, hafter⟩ := h.split hl
  obtain ⟨b, hb, hadv⟩ := (later_run hbefore).attempts i a ha
  refine closed_run hafter (fun l' hl' => hfresh l' (by simp [hl'])) ?_
  cases granted_cases hstep hgranted with
  | first vacant =>
    rw [findRow_of_get? hb hadv.identity] at vacant
    cases vacant
  | next j c c' hc hc' identity same count execution =>
    -- The identity has one row, so the new execution is this attempt's.
    have hrow := findRow_of_get? hc identity
    rw [findRow_of_get? hb hadv.identity] at hrow
    cases hrow
    obtain rfl : j = i := (Table.get?_key hc).symm.trans (Table.get?_key hb)
    exact ⟨c', hc', .inl (by rw [execution]; exact hfresh l (by simp))⟩

/-- **The execution fence.** In every run of classification calls, an identity gets no more
executions than its retry budget (and at least the first try). An execution whose id is not drawn
again ends its attempt at most once; once it has, or once another execution of its attempt was
begun, it is closed; and a closed execution stays closed, none of its finishing calls succeeds, and
each of them leaves every table as it was. -/
theorem executions_fenced {ls ls' : List Label} (h : Path (Step opts) .empty ls s)
    (h' : Path (Step opts) s ls' t) {e : String} (hfresh : ∀ l ∈ ls', l.env.ulid 0 ≠ e)
    (i : String) :
    (∀ id, (ls ++ ls').countP (granted id) ≤ max 1 opts.retryBudget) ∧
      ls'.countP (finished i e) ≤ 1 ∧
      (∀ l ∈ ls', finished i e l = true → Closed i e t) ∧
      (∀ a, s.attempts.get? i = some a → ∀ l ∈ ls', granted a.identity l = true →
        Closed i e t) ∧
      (Closed i e s → Closed i e t ∧ ls'.countP (finished i e) = 0 ∧
        ∀ env c, Finishes i e c → ∃ r, exec opts env t c = (t, .error r)) := by
  refine ⟨fun id => ?_, finishes_once h' hfresh,
    fun l hl hfinished => closed_of_finished h' hfresh hl hfinished,
    fun a ha l hl hgranted => closed_of_granted h' hfresh ha hl hgranted, fun hclosed => ?_⟩
  · have hrun := h.append h'
    have hspent := granted_spent hrun id
    have := (sound_run hrun (sound_empty opts)).spentOn id
    omega
  · have ht := closed_run h' hfresh hclosed
    exact ⟨ht, closed_never_finishes h' hfresh hclosed, fun env c hc => ht.refused opts env hc⟩

/-- An execution that a later begin replaced may not fail the attempt any more. -/
theorem executions_fenced_replaced : ∃ t : Db,
    t.attempts.rows.map (·.executionId) = ["e2"] ∧ Closed "a1" "e1" t := by
  let env (k : ℕ) (ids : ℕ → String) : Env := ⟨3600000, fun _ => k, fun _ => true, ids⟩
  let identity : AttemptIdentity := ⟨"m1", "v1", "t1", "0"⟩
  let item : StreamEmitInput :=
    { streamItemId := some "m1", sourceSession := "a@rig", body := "hello", size := by decide }
  let before : List (Env × Call) :=
    [(env 0 fun k => if k = 0 then "u" else "k1", .emit item),
      (env 1 fun _ => "l1", .lease (.acquire "b@rig")),
      (env 2 fun k => if k = 0 then "a1" else "e1", .begin ⟨identity, "l1", "b@rig"⟩)]
  let s := (play {} .empty before).2
  let after : List (Env × Call) :=
    [(env 900002 fun _ => "e2", .begin ⟨identity, "l1", "b@rig"⟩),
      (env 900003 fun _ => "u", .fail ⟨"a1", "e1", "l1", "b@rig", "late"⟩)]
  have h := executions_fenced (play_path {} .empty before) (play_path {} s after) (e := "e1")
    (by simp [after, play, env]) "a1"
  obtain ⟨a, ha, hid⟩ : ∃ a, s.attempts.get? "a1" = some a ∧ a.identity = identity :=
    ⟨(s.attempts.get? "a1").get (by decide +kernel), by simp, by decide +kernel⟩
  refine ⟨(play {} s after).2, by decide +kernel, ?_⟩
  exact h.2.2.2.1 a ha _ List.mem_cons_self (by rw [hid]; decide +kernel)

end OpenRig.ClassificationLedger
