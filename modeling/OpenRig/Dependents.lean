import OpenRig.Handovers

/-!
The rows parked on a handed-off row.

The propagation gives each dependent one turn. A dependent meets at its turn what it was parked
with (`Turns.at_row`), and nothing after it moves the row again, so what becomes of each of them
is settled by the tables before the handoff. The rebind needs the successor to be the only row
handed from the source to that seat, and a repeating wait it keeps has to be active.
-/

namespace OpenRig.Dependents

open OpenRig.JsText OpenRig.Sessions OpenRig.Closure OpenRig.QueueDb OpenRig.Outbox
open OpenRig.Watchdogs OpenRig.Verbs OpenRig.Handoff OpenRig.Firing OpenRig.Runs
open OpenRig.RowEffects OpenRig.Propagation OpenRig.ParkLedger OpenRig.ParkTimers
open OpenRig.Refinement OpenRig.WakeIntents OpenRig.Handovers

lemma toString_injective {m n : ℕ} (h : toString m = toString n) : m = n := by
  have h := congrArg (fun s : String => Nat.ofDigitChars 10 s.toList 0) h
  simpa using h

lemma unparkWakeId_injective {m n : ℕ} (h : unparkWakeId m = unparkWakeId n) : m = n := by
  have h := congrArg String.toList h
  simp only [unparkWakeId, String.toList_append, List.append_assoc] at h
  exact toString_injective
    (String.toList_inj.mp (List.append_cancel_left (List.append_cancel_left h)))

/-! ### The jobs of the other rows -/

lemma retire_latest (db : Db) (q reason : String) :
    retireParkGeneratedTimer db q reason = db ∨ ∃ w J, latestArmed db q = some w ∧
      w.wake = .timer J ∧
      retireParkGeneratedTimer db q reason = db.setJobs (markTerminal db.jobs J reason) := by
  unfold retireParkGeneratedTimer
  split
  · rename_i J _ _ hstatus
    split
    · obtain ⟨w, hw, he⟩ := Option.map_eq_some_iff.mp hstatus
      exact .inr ⟨w, J, hw, congrArg ParkWakeStatus.wake he, rfl⟩
    · exact .inl rfl
  · exact .inl rfl

lemma latest_ne_of_wait {db : Db} (hl : Ledger db) {k q J : String} {w : WakeRecord}
    {job : WatchdogJob} (hw : latestArmed db q = some w) (hJ : w.wake = .timer J)
    (hj : db.jobs.get? J = some job) (hk : waitOf job.spec = some k) : q = k := by
  obtain ⟨hmem, hq, -⟩ := mem_of_latestArmed hw
  exact hq.symm.trans (hl.own w hmem J job k hJ hj hk)

/-- The wait of `k` is the same job. -/
def SameWaits (k : String) (db db' : Db) : Prop :=
  ∀ J job, db.jobs.get? J = some job → waitOf job.spec = some k → db'.jobs.get? J = some job

lemma sameWaits_retire {db : Db} (hl : Ledger db) {k q : String} (hk : k ≠ q) (reason : String) :
    SameWaits k db (retireParkGeneratedTimer db q reason) := by
  intro J job hj hw
  rcases retire_latest db q reason with he | ⟨w, J', hlatest, hJ', he⟩
  · rw [he]
    exact hj
  · rw [he]
    have hne : J ≠ J' := by
      rintro rfl
      exact hk (latest_ne_of_wait hl hlatest hJ' hj hw).symm
    exact (Table.get?_update_ne _ _ (by intro _; rfl) hne).trans hj

lemma ledger_write {db : Db} (hl : Ledger db) (q : String) (f : QueueItem → QueueItem) (hf)
    (ts : Time) (t : TransitionInput) : Ledger ((db.updateRow q f hf).append ts t) :=
  hl.rowsOnly (rowsOnly_write db q f hf ts t)

lemma rebindRow_wake (env : Env) (input : PropagateInput) (db : Db) (q s : String) :
    ∃ t e, ∃ db₁, db₁ = (db.updateRow q fun r =>
        { r with blockedOn := some s, tsUpdated := env.now }).append env.now t ∧
      ((∃ J jobs, (getStatus db q).map ParkWakeStatus.wake = some (.timer J) ∧
          retargetQueueWait db₁ J s = some jobs ∧
          rebindRow env input db q s = ((db₁.setJobs jobs).recordWake
            ⟨db.nextTransitionId, q, .armed, .timer J⟩).emit e) ∨
        ((∀ J, (getStatus db q).map ParkWakeStatus.wake = some (.timer J) →
            retargetQueueWait db₁ J s = none) ∧
          rebindRow env input db q s =
            ((retireParkGeneratedTimer db₁ q "blocker_custody_moved").recordWake
              ⟨db.nextTransitionId, q, .armed, .blocker s⟩).emit e)) := by
  unfold rebindRow
  dsimp only
  rcases getStatus db q with _ | ⟨j | j | b, fired, live, unconsumed⟩
  · exact ⟨_, _, _, rfl, .inr ⟨fun J h => by simp at h, rfl⟩⟩
  · exact ⟨_, _, _, rfl, .inr ⟨fun J h => by simp at h, rfl⟩⟩
  · dsimp only
    cases hr : retargetQueueWait ((db.updateRow q fun r =>
        { r with blockedOn := some s, tsUpdated := env.now }).append env.now
        { qitemId := q, state := .blocked, actorSession := input.actorSession,
          transitionNote := some ("blocker custody moved from " ++ input.qitemId ++ " to " ++ s),
          identityProvenance := input.identityProvenance }) j s with
    | none =>
      refine ⟨_, _, _, rfl, .inr ⟨fun J h => ?_, rfl⟩⟩
      obtain rfl : j = J := by simpa using h
      exact hr
    | some jobs => exact ⟨_, _, _, rfl, .inl ⟨j, jobs, rfl, hr, rfl⟩⟩
  · exact ⟨_, _, _, rfl, .inr ⟨fun J h => by simp at h, rfl⟩⟩

lemma retarget_spec {db : Db} {J b : String} {jobs : Jobs}
    (h : retargetQueueWait db J b = some jobs) :
    ∃ job t m w w', db.jobs.get? J = some job ∧ readWait job = some (t, m, w) ∧
      w'.qitemId = w.qitemId ∧ w'.blocker = some b ∧
      jobs = updateSchedule db.jobs J (.queueWait t m w') w.initialSeconds (some 0) := by
  unfold retargetQueueWait at h
  simp only [Option.bind_eq_bind, Option.bind_eq_some_iff, Option.pure_def, Option.some.injEq] at h
  obtain ⟨job, hj, ⟨t, m, w⟩, hr, rfl⟩ := h
  exact ⟨job, t, m, w, { w with
    blocker := some b, blockerTransition := blockerTransition db (some b), eventPending := true,
    notice := none }, hj, hr, rfl, rfl, rfl⟩

lemma retarget_eq_none {db : Db} {J b : String} (h : retargetQueueWait db J b = none)
    {job : WatchdogJob} (hj : db.jobs.get? J = some job) : waitOf job.spec = none := by
  unfold retargetQueueWait at h
  simp only [hj, Option.bind_eq_bind, Option.bind_some] at h
  cases hr : readWait job with
  | some x => simp [hr] at h
  | none =>
    cases hw : waitOf job.spec with
    | none => rfl
    | some q =>
      exfalso
      unfold readWait at hr
      unfold waitOf at hw
      split at hw
      · rename_i t m w hs
        rw [hs] at hr
        split at hw
        · rename_i hne
          simp [hne] at hr
        · cases hw
      · cases hw

lemma status_timer {db : Db} {q J : String}
    (h : (getStatus db q).map ParkWakeStatus.wake = some (.timer J)) :
    ∃ w, latestArmed db q = some w ∧ w.wake = .timer J := by
  obtain ⟨st, hst, hwake⟩ := Option.map_eq_some_iff.mp h
  obtain ⟨w, hw, he⟩ := Option.map_eq_some_iff.mp hst
  exact ⟨w, hw, (congrArg ParkWakeStatus.wake he).trans hwake⟩

lemma status_wake (db : Db) (q : String) : (getStatus db q).map ParkWakeStatus.wake =
    (latestArmed db q).map WakeRecord.wake := by
  unfold getStatus
  rw [Option.map_map]
  rfl

/-- **One dependent's turn leaves the waits of the others.** -/
lemma propagateRow_waits {env : Env} {input : PropagateInput} {db db' : Db}
    {row : String × String} (hl : Ledger db) (h : propagateRow env input db row = .ok db')
    {k : String} (hk : k ≠ row.1) : SameWaits k db db' := by
  unfold propagateRow at h
  split at h
  · rename_i s _
    cases pure_eq_ok.mp h
    obtain ⟨t, e, db₁, h₁, ⟨J', jobs, hstatus, hret, he⟩ | ⟨-, he⟩⟩ :=
      rebindRow_wake env input db row.1 s.qitemId
    · rw [he]
      intro J job hj hw
      obtain ⟨w, hlatest, hJ'⟩ := status_timer hstatus
      obtain ⟨job', t', m', w', w'', hj', -, -, -, rfl⟩ := retarget_spec hret
      have hne : J ≠ J' := by
        rintro rfl
        exact hk (latest_ne_of_wait hl hlatest hJ' hj hw).symm
      change (updateSchedule db₁.jobs J' _ _ _).get? J = some job
      unfold updateSchedule
      have hj₁ : db₁.jobs.get? J = some job := by
        rw [h₁]
        exact hj
      rw [Table.get?_updateWhere, hj₁]
      simp [Table.rewrite, Table.get?_key hj, hne]
    · rw [he]
      intro J job hj hw
      have hj₁ : db₁.jobs.get? J = some job := by
        rw [h₁]
        exact hj
      have hl₁ : Ledger db₁ := h₁ ▸ ledger_write hl _ _ _ _ _
      exact sameWaits_retire hl₁ hk "blocker_custody_moved" J job hj₁ hw
  · obtain ⟨db₁, h₁, outbox, e, rfl, -⟩ := unparkRow_eq h
    intro J job hj hw
    have hj₁ : db₁.jobs.get? J = some job := by
      rw [h₁]
      exact hj
    have hl₁ : Ledger db₁ := h₁ ▸ ledger_write hl _ _ _ _ _
    exact sameWaits_retire hl₁ hk "park_ended:auto-unparked" J job hj₁ hw

/-! ### The outbox since the handoff began -/

/-- What was logged and put in the outbox since `db₀`: an entry that was not there is the
successor's wake, or the wake of a row returned since, under that transition's id. -/
structure Since (db₀ d : Db) (y : String) (new : List Transition) : Prop where
  log : d.transitions = new ++ db₀.transitions
  ids : ∀ t ∈ new, t.transitionId < d.nextTransitionId
  entries : ∀ id e, d.outbox.get? id = some e → db₀.outbox.get? id = none →
    (id = wakeIntentPrefix ++ y ∧ e.auditPointer = some y) ∨
      ∃ t ∈ new, id = unparkWakeId t.transitionId ∧ e.auditPointer = some t.qitemId
  known : ∀ id, (db₀.outbox.get? id).isSome → (d.outbox.get? id).isSome

lemma Since.turn {db₀ d d' : Db} {y q : String} {new : List Transition} (h : Since db₀ d y new)
    (ht : Turn d d' q) : ∃ t, t.qitemId = q ∧ t.transitionId = d.nextTransitionId ∧
      Since db₀ d' y (t :: new) := by
  obtain ⟨t, hlog, hq, hid⟩ := ht.log
  refine ⟨t, hq, hid, ?_⟩
  have hnext : d'.nextTransitionId = d.nextTransitionId + 1 := by
    simp [Db.nextTransitionId, hlog]
  refine ⟨by rw [hlog, h.log, List.cons_append], fun u hu => ?_, fun id e he hfresh => ?_,
    fun id hs => ht.outbox.isSome (h.known id hs)⟩
  · rw [hnext]
    rcases List.mem_cons.mp hu with rfl | hu
    · omega
    · have := h.ids u hu
      omega
  · by_cases hown : id = unparkWakeId d.nextTransitionId ∧ d.outbox.get? id = none
    · -- the turn's own wake
      obtain ⟨rfl, hn⟩ := hown
      exact .inr ⟨t, List.mem_cons_self, by rw [hid], (hq ▸ ht.outbox.own hn e he)⟩
    · have hkept : id ≠ unparkWakeId d.nextTransitionId ∨ (d.outbox.get? id).isSome := by
        by_cases hne : id = unparkWakeId d.nextTransitionId
        · refine .inr (Option.isSome_iff_ne_none.mpr fun hn => hown ⟨hne, hn⟩)
        · exact .inl hne
      have hp := ht.outbox.pointers id hkept
      rw [pointerAt, pointerAt, he, Option.map_some] at hp
      obtain ⟨e', he', hpe⟩ := Option.map_eq_some_iff.mp hp.symm
      rcases h.entries id e' he' hfresh with ⟨hy, hpy⟩ | ⟨u, hu, hu', hpu⟩
      · exact .inl ⟨hy, hpe.symm.trans hpy⟩
      · exact .inr ⟨u, List.mem_cons_of_mem _ hu, hu', hpe.symm.trans hpu⟩

lemma Since.turns {env : Env} {input : PropagateInput} {db₀ d d' : Db} {y : String}
    {new : List Transition} {rows : List (String × String)} (h : Since db₀ d y new)
    (ht : Turns env input d rows d') : ∃ more, Since db₀ d' y (more ++ new) ∧
      more.length = rows.length ∧ ∀ t ∈ more, ∃ row ∈ rows, t.qitemId = row.1 := by
  induction ht generalizing new with
  | nil d => exact ⟨[], h, rfl, by simp⟩
  | @cons d d₁ d' row rows hstep _ ih =>
    obtain ⟨t, hq, -, h₁⟩ := h.turn (propagateRow_turn hstep)
    obtain ⟨more, hm, hlen, hmore⟩ := ih h₁
    refine ⟨more ++ [t], by simpa using hm, by simp [hlen], fun u hu => ?_⟩
    rcases List.mem_append.mp hu with hu | hu
    · obtain ⟨row', hrow', he⟩ := hmore u hu
      exact ⟨row', List.mem_cons_of_mem _ hrow', he⟩
    · obtain rfl := List.mem_singleton.mp hu
      exact ⟨row, List.mem_cons_self, hq⟩

lemma Since.fresh {db₀ d : Db} {y : String} {new : List Transition} (h : Since db₀ d y new)
    (hy : ∀ n, wakeIntentPrefix ++ y ≠ unparkWakeId n)
    (hfree : db₀.outbox.get? (unparkWakeId d.nextTransitionId) = none) :
    d.outbox.get? (unparkWakeId d.nextTransitionId) = none := by
  cases he : d.outbox.get? (unparkWakeId d.nextTransitionId) with
  | none => rfl
  | some e =>
    rcases h.entries _ e he hfree with ⟨hid, -⟩ | ⟨t, ht, hid, -⟩
    · exact absurd hid.symm (hy _)
    · have := h.ids t ht
      have := unparkWakeId_injective hid
      omega

/-! ### A row's own turn -/

/-- What the handoff's loop is, for one parked row: turns of other rows, its own, and turns of
other rows again. -/
structure OwnTurn (env : Env) (input : PropagateInput) (d d' : Db) (row : String × String)
    (before after : List (String × String)) (t t' : Db) : Prop where
  pre : Turns env input d before t
  own : propagateRow env input t row = .ok t'
  post : Turns env input t' after d'
  others : (∀ x ∈ before, row.1 ≠ x.1) ∧ ∀ x ∈ after, row.1 ≠ x.1

lemma exists_ownTurn {env : Env} {input : PropagateInput} {d d' : Db}
    {rows : List (String × String)} (h : Turns env input d rows d')
    (hnodup : (rows.map Prod.fst).Nodup) {row : String × String} (hrow : row ∈ rows) :
    ∃ before after t t', rows = before ++ row :: after ∧
      OwnTurn env input d d' row before after t t' := by
  obtain ⟨before, after, t, t', rfl, hpre, hown, hpost⟩ := Path.split h hrow
  refine ⟨before, after, t, t', rfl, hpre, hown, hpost, fun x hx he => ?_, fun x hx he => ?_⟩
  · rw [List.map_append, List.nodup_append] at hnodup
    exact hnodup.2.2 x.1 (List.mem_map_of_mem hx) row.1 (by simp) he.symm
  · rw [List.map_append, List.nodup_append, List.map_cons, List.nodup_cons] at hnodup
    exact hnodup.2.1.1 (he ▸ List.mem_map_of_mem hx)

lemma turns_kept {env : Env} {input : PropagateInput} {d d' : Db}
    {rows : List (String × String)} {X : String → Prop} (hi : TimerInv d)
    (hrows : ∀ row ∈ rows, (d.getById row.1).isSome) (h : Turns env input d rows d') :
    ParkLedger.Kept X d d' := by
  refine h.invariant_of_labels (I := fun a => ParkLedger.Kept X d a)
    (p := fun row => (d.getById row.1).isSome) (fun a row a' hrow hstep k => k.trans ?_) hrows
    (ParkLedger.Kept.refl hi)
  unfold propagateRow at hstep
  split at hstep
  · cases pure_eq_ok.mp hstep
    exact rebindRow_kept k.timers (k.rows _ hrow) _
  · exact unparkRow_kept k.timers hstep

lemma turns_waits {env : Env} {input : PropagateInput} {d d' : Db}
    {rows : List (String × String)} (hi : TimerInv d)
    (hrows : ∀ row ∈ rows, (d.getById row.1).isSome) (h : Turns env input d rows d') {k : String}
    (hk : ∀ row ∈ rows, k ≠ row.1) : SameWaits k d d' := by
  induction h with
  | nil d => exact fun _ _ hj _ => hj
  | @cons d d₁ d' row rows hstep hrest ih =>
    have hkept : ParkLedger.Kept (fun _ => False) d d₁ :=
      turns_kept hi (fun x hx => hrows x (by simp_all)) (Path.single hstep)
    intro J job hj hw
    have hj₁ := propagateRow_waits hi.toLedger hstep (hk row List.mem_cons_self) J job hj hw
    exact ih hkept.timers
      (fun x hx => hkept.rows _ (hrows x (List.mem_cons_of_mem _ hx)))
      (fun x hx => hk x (List.mem_cons_of_mem _ hx)) J job hj₁ hw

/-! ### What the loop starts from -/

section
variable {variant : HandoffVariant} {env : Env} {db a : Db} {input : QueueHandoffInput}
variable {source s : QueueItem} {carried : Bool} {o : Entries} {X : String → Prop}

lemma opened_kept (h : Opened variant env db input source carried s o a) (hi : TimerInv db) :
    ParkLedger.Kept X db a := by
  have hclose : ParkLedger.Kept X db (closed variant env db input) :=
    closeSource_kept hi variant.terminalState _ _ _ _ _ _ _
  have hget : ∀ k, k ≠ newQitemId env → a.getById k = (closed variant env db input).getById k := by
    intro k hk
    rw [h.getById, if_neg hk]
  have hnone : (closed variant env db input).getById (newQitemId env) = none := by
    rw [getById_closed, if_neg h.ne.symm]
    exact h.fresh
  have hopen : RowsOnly (fun _ => False) (closed variant env db input) a := by
    refine ⟨h.wakes.trans (wakes_closed variant env db input).symm, h.jobs, ?_, fun k hk => ?_,
      fun k _ hb => ?_⟩
    · rw [h.log]
      simp [Db.nextTransitionId, transitions_closed]
    · by_cases hY : k = newQitemId env
      · rw [hY, h.successor]
        rfl
      · rwa [hget k hY]
    · by_cases hY : k = newQitemId env
      · subst hY
        rw [isBlocked, hnone] at hb
        cases hb
      · rwa [isBlocked, hget k hY]
  exact hclose.trans (hopen.kept hclose.timers)

lemma opened_since (h : Opened variant env db input source carried s o a) :
    ∃ new, Since db a (newQitemId env) new ∧ new.length = 2 ∧
      ∀ t ∈ new, t.qitemId = newQitemId env ∨ t.qitemId = input.qitemId := by
  refine ⟨[(opening variant env input carried).toTransition (db.nextTransitionId + 1) env.now,
    (closing variant input).toTransition db.nextTransitionId env.now],
    ⟨h.transitions, fun t ht => ?_, fun id e he hfree => ?_, fun id hs => ?_⟩, rfl, fun t ht => ?_⟩
  · rw [h.log]
    rcases List.mem_cons.mp ht with rfl | ht
    · exact Nat.lt_succ_self _
    · obtain rfl := List.mem_singleton.mp ht
      exact Nat.lt_add_of_pos_right (by decide)
  · rw [h.outbox] at he
    by_cases hid : id = wakeIntentPrefix ++ newQitemId env
    · subst hid
      exact .inl ⟨rfl, h.staged.own hfree e he⟩
    · obtain ⟨e', he', -⟩ := h.staged.get?_of hid he
      cases hfree.symm.trans he'
  · rw [h.outbox]
    exact h.staged.isSome hs
  · rcases List.mem_cons.mp ht with rfl | ht
    · exact .inl rfl
    · obtain rfl := List.mem_singleton.mp ht
      exact .inr rfl

lemma opened_parkedOn (h : Opened variant env db input source carried s o a)
    (hterm : variant.terminalState.isTerminalState = true)
    (hself : ¬ parkedRow db input.qitemId input.qitemId) :
    parkedOn a input.qitemId = parkedOn db input.qitemId := by
  have hrow : ∀ r ∈ db.items.rows, r.qitemId = input.qitemId → r = source := by
    intro r hr hk
    have := Table.get?_of_mem hr
    rw [hk] at this
    exact Option.some.inj (this.symm.trans h.found)
  have hblocked : variant.terminalState ≠ .blocked := by
    intro hs
    rw [hs] at hterm
    cases hterm
  have hsource : ¬ (source.blockedOn = some input.qitemId ∧ source.state = .blocked) :=
    fun ⟨hb, hs⟩ => hself ⟨source, h.found, hs, hb⟩
  unfold parkedOn Table.filter
  rw [h.rows, rows_closed, List.filter_append, List.filter_map]
  have htail :
    [s].filter (fun r => r.blockedOn = some input.qitemId && r.state = .blocked) = [] := by
    simp [h.pending]
  rw [htail, List.append_nil, List.map_map]
  have hfilter : db.items.rows.filter ((fun r : QueueItem =>
        decide (r.blockedOn = some input.qitemId) && decide (r.state = .blocked)) ∘
      Table.rewrite (fun r => r.qitemId = input.qitemId)
        (closeRow env.now variant.terminalState input.toSession input.toSession)) =
      db.items.rows.filter fun r => r.blockedOn = some input.qitemId && r.state = .blocked := by
    refine List.filter_congr fun r hr => ?_
    by_cases hk : r.qitemId = input.qitemId
    · obtain rfl := hrow r hr hk
      have hnot : (decide (r.blockedOn = some input.qitemId) && decide (r.state = .blocked)) =
          false := by
        simpa using fun hb => mt (And.intro hb) hsource
      rw [hnot]
      simp [Table.rewrite, hk, closeRow, hblocked]
    · simp [Table.rewrite, hk]
  rw [hfilter]
  refine List.map_congr_left fun r hr => ?_
  simp only [Function.comp_apply, Table.rewrite]
  split <;> rfl

/-- **Who a dependent is rebound to**: the new row, when it is the only one handed to that seat and
the seat is not the dependent's own. -/
lemma opened_onwardId (h : Opened handingOff env db input source carried s o a) (owner : String) :
    onwardId a (propagation handingOff input) owner =
      if successorsAt db.items.rows input.qitemId input.toSession = [] ∧
        input.toSession ≠ owner then
        some (newQitemId env)
      else none := by
  have hto : ((a.getById input.qitemId).bind QueueItem.handedOffTo).getD "" = input.toSession := by
    rw [h.row]
    rfl
  have hsucc : successorsAt a.items.rows input.qitemId input.toSession =
      (successorsAt db.items.rows input.qitemId input.toSession).map
        (Table.rewrite (fun r => r.qitemId = input.qitemId)
          (closeRow env.now handingOff.terminalState input.toSession input.toSession)) ++ [s] := by
    rw [h.rows, rows_closed, ← successorsAt_map]
    · unfold successorsAt
      rw [List.filter_append]
      congr 1
      simp [h.handedOffFrom, h.destinationSession]
    · intro r
      simp only [Table.rewrite]
      split <;> rfl
    · intro r
      simp only [Table.rewrite]
      split <;> rfl
  unfold onwardId
  have hstate : ¬ (propagation handingOff input).terminalState ≠ .handedOff := not_not_intro rfl
  rw [onwardSuccessor_eq, if_neg hstate]
  have hid : (propagation handingOff input).qitemId = input.qitemId := rfl
  rw [hid, hto, hsucc]
  cases hl : successorsAt db.items.rows input.qitemId input.toSession with
  | nil =>
    simp only [List.map_nil, List.nil_append, h.pending, h.destinationSession]
    by_cases ho : input.toSession = owner
    · simp [ho]
    · simp [ho, QueueState.isBlockerLive, h.qitemId]
  | cons x rest =>
    rw [if_neg (by simp)]
    cases rest with
    | nil => rfl
    | cons y rest => rfl

end

/-! ### The state a turn starts from -/

lemma milder_retire (db : Db) (q reason : String) :
    Milder db.jobs (retireParkGeneratedTimer db q reason).jobs := by
  rcases retire_cases db q reason with he | ⟨w, J, -, -, he⟩
  · rw [he]
    exact .refl _
  · rw [he]
    exact .markTerminal _ _ _

lemma propagateRow_milder {env : Env} {input : PropagateInput} {db db' : Db}
    {row : String × String} (h : propagateRow env input db row = .ok db') :
    Milder db.jobs db'.jobs := by
  unfold propagateRow at h
  split at h
  · rename_i s _
    cases pure_eq_ok.mp h
    obtain ⟨t, e, db₁, h₁, ⟨J, jobs, -, hret, he⟩ | ⟨-, he⟩⟩ :=
      rebindRow_wake env input db row.1 s.qitemId
    · obtain ⟨-, -, -, -, hm, -⟩ := retarget_eq_some hret
      rw [he]
      rw [h₁] at hm
      exact hm
    · have hm := milder_retire db₁ row.1 "blocker_custody_moved"
      rw [he]
      rw [h₁] at hm ⊢
      exact hm
  · obtain ⟨db₁, h₁, outbox, e, rfl, -⟩ := unparkRow_eq h
    have hm := milder_retire db₁ row.1 "park_ended:auto-unparked"
    rw [h₁] at hm ⊢
    exact hm

lemma turns_onwardId {env : Env} {input : PropagateInput} {d d' : Db}
    {rows : List (String × String)} (h : Turns env input d rows d')
    (hnodup : (rows.map Prod.fst).Nodup)
    (hrows : ∀ row ∈ rows, ∃ r, d.getById row.1 = some r ∧ r.state = .blocked) (owner : String) :
    onwardId d' input owner = onwardId d input owner := by
  induction h with
  | nil d => rfl
  | @cons d d₁ d' row rows hstep _ ih =>
    rw [List.map_cons, List.nodup_cons] at hnodup
    obtain ⟨r, hr, hs⟩ := hrows row List.mem_cons_self
    refine (ih hnodup.2 fun x hx => ?_).trans (propagateRow_onwardId hstep hr hs owner)
    obtain ⟨r', hr', hs'⟩ := hrows x (List.mem_cons_of_mem _ hx)
    refine ⟨r', ?_, hs'⟩
    rw [(propagateRow_beside hstep fun e => hnodup.1 (e ▸ List.mem_map_of_mem hx)).row, hr']

lemma turns_next {env : Env} {input : PropagateInput} {d d' : Db}
    {rows : List (String × String)} (h : Turns env input d rows d') :
    d'.nextTransitionId = d.nextTransitionId + rows.length := by
  induction h with
  | nil d => rfl
  | @cons d d₁ d' row rows hstep _ ih =>
    obtain ⟨t, hlog, -⟩ := (propagateRow_turn hstep).log
    have : d₁.nextTransitionId = d.nextTransitionId + 1 := by simp [Db.nextTransitionId, hlog]
    rw [ih, this, List.length_cons]
    omega

lemma turns_entry {env : Env} {input : PropagateInput} {d d' : Db}
    {rows : List (String × String)} (h : Turns env input d rows d') {k : String} {n : ℕ}
    (hn : n < d.nextTransitionId) (hk : ∀ row ∈ rows, k ≠ row.1) :
    (∀ e, d.outbox.get? (unparkWakeId n) = some e → e.auditPointer = some k →
        d'.outbox.get? (unparkWakeId n) = some e) ∧
      ((d'.outbox.get? (unparkWakeId n)).isSome → (d.outbox.get? (unparkWakeId n)).isSome) := by
  induction h with
  | nil d => exact ⟨fun _ he _ => he, id⟩
  | @cons d d₁ d' row rows hstep _ ih =>
    have hturn := propagateRow_turn hstep
    obtain ⟨t, hlog, -⟩ := hturn.log
    have hnext : d₁.nextTransitionId = d.nextTransitionId + 1 := by simp [Db.nextTransitionId, hlog]
    have hid : unparkWakeId n ≠ unparkWakeId d.nextTransitionId := fun e => by
      have := unparkWakeId_injective e
      omega
    obtain ⟨hkeep, hback⟩ := ih (by omega) fun x hx => hk x (List.mem_cons_of_mem _ hx)
    refine ⟨fun e he hp => hkeep e (hturn.outbox.get?_eq hid he ?_) hp, fun hs => ?_⟩
    · rw [hp]
      simpa using hk row List.mem_cons_self
    · obtain ⟨e, he⟩ := Option.isSome_iff_exists.mp (hback hs)
      obtain ⟨e', he', -⟩ := hturn.outbox.get?_of hid he
      simp [he']

/-! ### What a handoff owes its dependents -/

/-- The row's continuation is armed on `y`: its latest armed wake is `y`, or its own active
repeating wait, which watches `y`. -/
def RearmedOn (db : Db) (k y : String) : Prop :=
  ∃ w, latestArmed db k = some w ∧ (w.wake = .blocker y ∨ ∃ J job target message wait,
    w.wake = .timer J ∧ db.jobs.get? J = some job ∧ job.state = .active ∧
      readWait job = some (target, message, wait) ∧ wait.blocker = some y)

/-- One wake, kept since `db`, tells the owner that the row is back. -/
def WokenOnce (db db' : Db) (k x owner : String) : Prop :=
  ∃ e, db'.outbox.get? e.outboxId = some e ∧ db.outbox.get? e.outboxId = none ∧
    Kept e owner k (some (unparkWakeTags x)) ∧
    ∀ e', db'.outbox.get? e'.outboxId = some e' → db.outbox.get? e'.outboxId = none →
      e'.auditPointer = some k → e' = e

/-- **Dependents follow a handed-off blocker**: after the handoff each row parked on the source is
parked on the successor, its wake armed there, when its owner is not the new seat, and is back with
its owner, woken once, when it is. -/
def DependentsFollow (env : Env) (input : QueueHandoffInput) (db db' : Db) : Prop :=
  ∀ k r, db.getById k = some r → r.state = .blocked → r.blockedOn = some input.qitemId →
    (r.destinationSession ≠ input.toSession → ∃ r', db'.getById k = some r' ∧
      r'.state = .blocked ∧ r'.blockedOn = some (newQitemId env) ∧
      RearmedOn db' k (newQitemId env)) ∧
    (r.destinationSession = input.toSession → ∃ r', db'.getById k = some r' ∧
      r'.state = .pending ∧ r'.blockedOn = none ∧
      WokenOnce db db' k input.qitemId input.toSession)

/-- A repeating wait the row's wake names is active. -/
def WaitActive (db : Db) (k : String) : Prop :=
  ∀ w J job, latestArmed db k = some w → w.wake = .timer J → db.jobs.get? J = some job →
    (waitOf job.spec).isSome → job.state = .active

/-- The id of the transition that returns the row: the source's and the successor's come first,
then one for each dependent. -/
def resumedAt (db : Db) (x k : String) : ℕ :=
  db.nextTransitionId + 2 + ((parkedOn db x).map Prod.fst).idxOf k

/-- **When dependents follow**: the source is not parked on itself; no row was handed from it to
that seat before, if a dependent of another owner has to be rebound; the repeating waits of those
are active; and the wakes of the new seat's own dependents have a store, with their ids free. -/
structure CanFollow (env : Env) (input : QueueHandoffInput) (db : Db) : Prop where
  apart : ¬ parkedRow db input.qitemId input.qitemId
  first : ∀ k r, db.getById k = some r → r.state = .blocked →
    r.blockedOn = some input.qitemId → r.destinationSession ≠ input.toSession →
    successorsAt db.items.rows input.qitemId input.toSession = []
  waits : ∀ k r, db.getById k = some r → r.state = .blocked →
    r.blockedOn = some input.qitemId → r.destinationSession ≠ input.toSession → WaitActive db k
  wakes : ∀ k r, db.getById k = some r → r.state = .blocked →
    r.blockedOn = some input.qitemId → r.destinationSession = input.toSession →
    env.outboxAttached = true ∧
      db.outbox.get? (unparkWakeId (resumedAt db input.qitemId k)) = none

/-! ### A row's repeating wait -/

/-- Between two tables that agree on the row's continuation, its jobs are the same. -/
structure SameArm (k : String) (db db' : Db) : Prop where
  armed : latestArmed db' k = latestArmed db k
  milder : Milder db.jobs db'.jobs
  waits : SameWaits k db db'

lemma SameArm.trans {k : String} {db db' db'' : Db} (h : SameArm k db db')
    (h' : SameArm k db' db'') : SameArm k db db'' where
  armed := h'.armed.trans h.armed
  milder := h.milder.trans h'.milder
  waits J job hj hw := h'.waits J job (h.waits J job hj hw) hw

lemma SameArm.job_iff {k : String} {db db' : Db} (h : SameArm k db db') (hl : Ledger db)
    {w : WakeRecord} {J : String} (hw : latestArmed db k = some w) (hJ : w.wake = .timer J)
    {job : WatchdogJob} (hwait : (waitOf job.spec).isSome) :
    db'.jobs.get? J = some job ↔ db.jobs.get? J = some job := by
  obtain ⟨hmem, hq, -⟩ := mem_of_latestArmed hw
  obtain ⟨q, hq'⟩ := Option.isSome_iff_exists.mp hwait
  have hown : ∀ i, db.jobs.get? J = some i → waitOf i.spec = some q → q = k := fun i hi hiq =>
    (hl.own w hmem J i q hJ hi hiq).symm.trans hq
  constructor
  · intro hj'
    have hknown := hl.known w hmem J (by rw [hJ]; rfl)
    obtain ⟨i, hi⟩ := Option.isSome_iff_exists.mp hknown
    have hiq : waitOf i.spec = some q := (h.milder.wait J i job hi hj').symm.trans hq'
    have hi' := h.waits J i hi (hiq.trans (congrArg some (hown i hi hiq)))
    rw [hi, ← hi', hj']
  · exact fun hj => h.waits J job hj (hq'.trans (congrArg some (hown job hj hq')))

lemma SameArm.waitActive {k : String} {db db' : Db} (h : SameArm k db db') (hl : Ledger db) :
    WaitActive db' k ↔ WaitActive db k := by
  unfold WaitActive
  rw [h.armed]
  constructor
  · exact fun ha w J job hw hJ hj hwait =>
      ha w J job hw hJ ((h.job_iff hl hw hJ hwait).mpr hj) hwait
  · exact fun ha w J job hw hJ hj hwait =>
      ha w J job hw hJ ((h.job_iff hl hw hJ hwait).mp hj) hwait

lemma SameArm.rearmedOn {k : String} {db db' : Db} (h : SameArm k db db') (hl : Ledger db)
    (y : String) : RearmedOn db' k y ↔ RearmedOn db k y := by
  have hwait : ∀ job t m (w : WaitState), readWait job = some (t, m, w) →
      (waitOf job.spec).isSome := by
    intro job t m w hr
    rw [(readWait_eq_some hr).2]
    rfl
  unfold RearmedOn
  rw [h.armed]
  constructor
  · rintro ⟨w, hw, hb | ⟨J, job, t, m, wait, hJ, hj, hs, hr, hb⟩⟩
    · exact ⟨w, hw, .inl hb⟩
    · exact ⟨w, hw, .inr ⟨J, job, t, m, wait, hJ,
        (h.job_iff hl hw hJ (hwait _ _ _ _ hr)).mp hj, hs, hr, hb⟩⟩
  · rintro ⟨w, hw, hb | ⟨J, job, t, m, wait, hJ, hj, hs, hr, hb⟩⟩
    · exact ⟨w, hw, .inl hb⟩
    · exact ⟨w, hw, .inr ⟨J, job, t, m, wait, hJ,
        (h.job_iff hl hw hJ (hwait _ _ _ _ hr)).mpr hj, hs, hr, hb⟩⟩

lemma turns_sameArm {env : Env} {input : PropagateInput} {d d' : Db}
    {rows : List (String × String)} (hi : TimerInv d)
    (hrows : ∀ row ∈ rows, (d.getById row.1).isSome) (h : Turns env input d rows d') {k : String}
    (hk : ∀ row ∈ rows, k ≠ row.1) : SameArm k d d' where
  armed := (turns_beside h hk).armed
  milder := h.invariant (I := fun a => Milder d.jobs a.jobs)
    (fun _ _ _ hstep hI => hI.trans (propagateRow_milder hstep)) (.refl _)
  waits := turns_waits hi hrows h hk

lemma opened_sameArm {variant : HandoffVariant} {env : Env} {db a : Db}
    {input : QueueHandoffInput} {source s : QueueItem} {carried : Bool} {o : Entries}
    (h : Opened variant env db input source carried s o a) (hl : Ledger db) {k : String}
    (hk : k ≠ input.qitemId) : SameArm k db a := by
  have hjobs : a.jobs = (closed variant env db input).jobs := h.jobs
  have hm : ∀ d : Db, d.jobs = db.jobs → ∀ q reason,
      Milder db.jobs (retireParkGeneratedTimer d q reason).jobs :=
    fun d hd q reason => hd ▸ milder_retire d q reason
  refine ⟨latestArmed_congr h.wakes k, ?_, fun J job hj hw => ?_⟩
  · rw [hjobs]
    exact hm _ (by rfl) _ _
  · rw [hjobs]
    exact sameWaits_retire (ledger_write hl _ _ _ _ _) hk _ J job hj hw

/-- **What a rebind arms** is on the successor exactly when the wait it keeps is active. -/
lemma rebindRow_rearmed (env : Env) (input : PropagateInput) (db : Db) (k s : String) :
    RearmedOn (rebindRow env input db k s) k s ↔ WaitActive db k := by
  obtain ⟨t, e, db₁, rfl, ⟨J, jobs, hstatus, hret, he⟩ | ⟨hnone, he⟩⟩ :=
    rebindRow_wake env input db k s
  · obtain ⟨job, target, message, w, w', hj, hr, hid, hb, rfl⟩ := retarget_spec hret
    obtain ⟨rec, hlatest, hrec⟩ := status_timer hstatus
    obtain ⟨hspec, hwait⟩ := readWait_eq_some hr
    have hj : db.jobs.get? J = some job := hj
    have hlatest' : latestArmed (rebindRow env input db k s) k =
        some ⟨db.nextTransitionId, k, .armed, .timer J⟩ := by
      rw [he]
      exact (latestArmed_cons _ _ _ rfl k).trans (if_pos ⟨rfl, rfl⟩)
    have hjob : (rebindRow env input db k s).jobs.get? J = some
        (if job.state = .active then
          { job with spec := .queueWait target message w', intervalSeconds := w.initialSeconds,
                     lastEvaluationAt := some 0 }
        else job) := by
      rw [he]
      change (updateSchedule db.jobs J _ _ _).get? J = _
      unfold updateSchedule
      rw [Table.get?_updateWhere, hj, Option.map_some]
      simp [Table.rewrite, Table.get?_key hj]
    constructor
    · rintro ⟨rec', hrec', hwake⟩ rec'' J' job' hl'' hJ'' hj'' -
      cases hlatest.symm.trans hl''
      cases hrec.symm.trans hJ''
      cases hj.symm.trans hj''
      cases hlatest'.symm.trans hrec'
      rcases hwake with hwake | ⟨K, i, _, _, _, hK, hi, hs, -, -⟩
      · cases hwake
      · cases hK
        rw [hjob] at hi
        cases hi
        split at hs
        · assumption
        · exact hs
    · intro hactive
      have ha : job.state = .active := hactive rec J job hlatest hrec hj (by rw [hwait]; rfl)
      rw [if_pos ha] at hjob
      refine ⟨_, hlatest', .inr ⟨J, _, target, message, w', rfl, hjob, ha, ?_, hb⟩⟩
      have hne : w.qitemId ≠ "" := by
        unfold readWait at hr
        rw [hspec] at hr
        by_contra hn
        simp [hn] at hr
      simp [readWait, hid, hne]
  · constructor
    · intro _ rec J job hlatest hJ hj hwait
      have hstatus : (getStatus db k).map ParkWakeStatus.wake = some (.timer J) := by
        rw [status_wake, hlatest, Option.map_some, hJ]
      have := retarget_eq_none (hnone J hstatus) hj
      rw [this] at hwait
      cases hwait
    · intro _
      refine ⟨⟨db.nextTransitionId, k, .armed, .blocker s⟩, ?_, .inl rfl⟩
      rw [he]
      exact (latestArmed_cons _ _ _ rfl k).trans (if_pos ⟨rfl, rfl⟩)

/-! ### A dependent, before and after -/

/-- What a dependent of the source meets: its own turn takes `t` to `t'`, over what it was parked
with, and nothing after it is its business. -/
structure Met (env : Env) (input : QueueHandoffInput) (db d' : Db) (k owner : String)
    (t t' : Db) : Prop where
  own : propagateRow env (propagation handingOff input) t (k, owner) = .ok t'
  row : t.getById k = db.getById k
  ledger : Ledger t
  onward : onwardId t (propagation handingOff input) owner =
    if successorsAt db.items.rows input.qitemId input.toSession = [] ∧ input.toSession ≠ owner then
      some (newQitemId env)
    else none
  next : t.nextTransitionId = resumedAt db input.qitemId k
  before : SameArm k db t
  ledger' : Ledger t'
  after : SameArm k t' d'
  since : ∃ new, Since db t (newQitemId env) new ∧ ∀ u ∈ new, u.qitemId ≠ k
  later : ∃ rows, Turns env (propagation handingOff input) t' rows d' ∧ ∀ row ∈ rows, k ≠ row.1

lemma exists_met {env : Env} {db a d' : Db} {input : QueueHandoffInput} {source s : QueueItem}
    {carried : Bool} {o : Entries} (hi : TimerInv db)
    (h : Opened handingOff env db input source carried s o a)
    (hself : ¬ parkedRow db input.qitemId input.qitemId)
    (hp : propagateBlockerCompletion env (propagation handingOff input) a = .ok d')
    {k : String} {r : QueueItem} (hr : db.getById k = some r) (hs : r.state = .blocked)
    (hb : r.blockedOn = some input.qitemId) :
    ∃ t t', Met env input db d' k r.destinationSession t t' := by
  have hparked := opened_parkedOn h rfl hself
  have hturns : Turns env (propagation handingOff input) a (parkedOn a input.qitemId) d' :=
    turns_of_propagate hp
  have hia : TimerInv a := (opened_kept (X := fun _ => False) h hi).timers
  have hrows : ∀ row ∈ parkedOn a input.qitemId, ∃ r, a.getById row.1 = some r ∧
      r.state = .blocked := by
    rintro ⟨q, owner⟩ hq
    obtain ⟨r, hr, hs, -, -⟩ := mem_parkedOn.mp hq
    exact ⟨r, hr, hs⟩
  have hsome : ∀ row ∈ parkedOn a input.qitemId, (a.getById row.1).isSome := by
    intro row hrow
    obtain ⟨r, hr, -⟩ := hrows row hrow
    simp [hr]
  have hnodup : ((parkedOn a input.qitemId).map Prod.fst).Nodup := by
    rw [parkedOn_ids]
    exact nodup_filter_ids a _
  have hmem : (k, r.destinationSession) ∈ parkedOn a input.qitemId := by
    rw [hparked]
    exact mem_parkedOn.mpr ⟨r, hr, hs, hb, rfl⟩
  have hX : k ≠ input.qitemId := by
    rintro rfl
    exact hself ⟨r, hr, hs, hb⟩
  have hY : k ≠ newQitemId env := by
    rintro rfl
    cases h.fresh.symm.trans hr
  obtain ⟨before, after, t, t', heq, hpre, hown, hpost, hbefore, hafter⟩ :=
    exists_ownTurn hturns hnodup hmem
  have hmemb : ∀ row ∈ before, row ∈ parkedOn a input.qitemId := by
    intro row hrow
    rw [heq]
    exact List.mem_append_left _ hrow
  have hkept : ParkLedger.Kept (fun _ => False) a t :=
    turns_kept hia (fun row hrow => hsome row (hmemb row hrow)) hpre
  have hkept' : ParkLedger.Kept (fun _ => False) t t' := by
    refine turns_kept hkept.timers (fun row hrow => ?_) (Path.single hown)
    obtain rfl := List.mem_singleton.mp hrow
    exact hkept.rows _ (hsome _ hmem)
  have hbeside := (h.others hX hY).trans (turns_beside hpre hbefore)
  obtain ⟨new, hsince, -, hnew⟩ := opened_since h
  obtain ⟨more, hsince', -, hmore⟩ := hsince.turns hpre
  refine ⟨t, t', hown, hbeside.row, hkept.timers.toLedger, ?_, ?_, ?_, hkept'.timers.toLedger, ?_,
    ⟨more ++ new, hsince', ?_⟩, after, hpost, hafter⟩
  · rw [turns_onwardId hpre ?_ fun row hrow => hrows row (hmemb row hrow)]
    · exact opened_onwardId h _
    · rw [heq, List.map_append, List.nodup_append] at hnodup
      exact hnodup.1
  · have hk : k ∉ before.map Prod.fst := by
      intro hk
      obtain ⟨row, hrow, he⟩ := List.mem_map.mp hk
      exact hbefore row hrow he.symm
    rw [turns_next hpre, h.log, resumedAt, ← hparked, heq, List.map_append, List.map_cons,
      List.idxOf_append_of_notMem hk, List.idxOf_cons_self, List.length_map]
    rfl
  · exact (opened_sameArm h hi.toLedger hX).trans
      (turns_sameArm hia (fun row hrow => hsome row (hmemb row hrow)) hpre hbefore)
  · refine turns_sameArm hkept'.timers
      (fun row hrow => hkept'.rows _ (hkept.rows _ ?_)) hpost hafter
    refine hsome row ?_
    rw [heq]
    exact List.mem_append_right _ (List.mem_cons_of_mem _ hrow)
  · intro u hu
    rcases List.mem_append.mp hu with hu | hu
    · obtain ⟨row, hrow, he⟩ := hmore u hu
      rw [he]
      exact (hbefore row hrow).symm
    · rcases hnew u hu with he | he
      · rw [he]
        exact hY.symm
      · rw [he]
        exact hX.symm

namespace Met

variable {env : Env} {input : QueueHandoffInput} {db d' t t' : Db} {k owner : String}

lemma beside (h : Met env input db d' k owner t t') : Beside k t' d' := by
  obtain ⟨rows, hrest, hk⟩ := h.later
  exact turns_beside hrest hk

lemma of_some (h : Met env input db d' k owner t t') {y : String}
    (hy : onwardId t (propagation handingOff input) owner = some y) :
    t' = rebindRow env (propagation handingOff input) t k y := by
  obtain ⟨s, hs, rfl⟩ := Option.map_eq_some_iff.mp hy
  have hown := h.own
  unfold propagateRow at hown
  rw [hs] at hown
  exact (pure_eq_ok.mp hown).symm

lemma of_none (h : Met env input db d' k owner t t')
    (hn : onwardId t (propagation handingOff input) owner = none) :
    unparkRow env (propagation handingOff input) t k owner = .ok t' := by
  have hs := Option.map_eq_none_iff.mp hn
  have hown := h.own
  unfold propagateRow at hown
  rwa [hs] at hown

lemma ends (h : Met env input db d' k owner t t') {r : QueueItem} (hr : db.getById k = some r)
    (hs : r.state = .blocked) : ∃ r', d'.getById k = some r' ∧
      ((∀ y, onwardId t (propagation handingOff input) owner = some y →
          r'.state = .blocked ∧ r'.blockedOn = some y) ∧
        (onwardId t (propagation handingOff input) owner = none →
          r'.state = .pending ∧ r'.blockedOn = none)) := by
  have hstep := (propagateRow_touched h.own (h.row.trans hr) hs).1
  rw [view_of_getById (h.row.trans hr)] at hstep
  obtain ⟨l', hl', -, hcase⟩ := hstep.dependent
  obtain ⟨r', hr', rfl⟩ := view_eq_some.mp hl'
  refine ⟨r', h.beside.row.trans hr', fun y hy => ?_, fun hn => ?_⟩
  · rcases hcase with ⟨y', hy', hblocked, hon⟩ | ⟨hn, -⟩
    · cases hy'.symm.trans hy
      exact ⟨hblocked, hon⟩
    · cases hn.symm.trans hy
  · rcases hcase with ⟨y', hy', -⟩ | ⟨-, hpending, hon⟩
    · cases hy'.symm.trans hn
    · exact ⟨hpending, hon⟩

/-- **A dependent of another owner** follows exactly when the successor is the only row handed to
that seat and its own repeating wait is active. -/
lemma follows (h : Met env input db d' k owner t t') (hl : Ledger db) {r : QueueItem}
    (hr : db.getById k = some r) (hs : r.state = .blocked) (ho : owner ≠ input.toSession) :
    (∃ r', d'.getById k = some r' ∧ r'.state = .blocked ∧ r'.blockedOn = some (newQitemId env) ∧
        RearmedOn d' k (newQitemId env)) ↔
      successorsAt db.items.rows input.qitemId input.toSession = [] ∧ WaitActive db k := by
  obtain ⟨r', hr', hrebound, hreturned⟩ := h.ends hr hs
  by_cases hsucc : successorsAt db.items.rows input.qitemId input.toSession = []
  · have hon := h.onward.trans (if_pos ⟨hsucc, ho.symm⟩)
    obtain ⟨hblocked, hon'⟩ := hrebound _ hon
    have harm : RearmedOn d' k (newQitemId env) ↔ WaitActive db k := by
      rw [h.after.rearmedOn h.ledger', h.of_some hon, rebindRow_rearmed, h.before.waitActive hl]
    rw [harm]
    constructor
    · rintro ⟨-, -, -, -, ha⟩
      exact ⟨hsucc, ha⟩
    · rintro ⟨-, ha⟩
      exact ⟨r', hr', hblocked, hon', ha⟩
  · have hon := h.onward.trans (if_neg fun hn => hsucc hn.1)
    constructor
    · rintro ⟨r'', hr'', hblocked, -⟩
      cases hr'.symm.trans hr''
      rw [(hreturned hon).1] at hblocked
      cases hblocked
    · rintro ⟨hn, -⟩
      exact absurd hn hsucc

/-- The only wake about the row since the handoff began is its return's. -/
lemma wake_id (h : Met env input db d' k owner t t') (hY : k ≠ newQitemId env) {id : String}
    {e : OutboxEntry} (he : d'.outbox.get? id = some e) (hfree : db.outbox.get? id = none)
    (hp : e.auditPointer = some k) : id = unparkWakeId (resumedAt db input.qitemId k) := by
  obtain ⟨new, hsince, hnew⟩ := h.since
  obtain ⟨u, -, huid, hsince'⟩ := hsince.turn (propagateRow_turn h.own)
  obtain ⟨rows, hrest, hk⟩ := h.later
  obtain ⟨more, hall, -, hmore⟩ := hsince'.turns hrest
  rcases hall.entries id e he hfree with ⟨-, hy⟩ | ⟨v, hv, rfl, hpv⟩
  · rw [hp] at hy
    exact absurd (Option.some.inj hy) hY
  · have hvk : v.qitemId = k := Option.some.inj (hpv.symm.trans hp)
    rcases List.mem_append.mp hv with hv | hv
    · obtain ⟨row, hrow, hrow'⟩ := hmore v hv
      exact absurd (hvk.symm.trans hrow') (hk row hrow)
    · rcases List.mem_cons.mp hv with rfl | hv
      · rw [huid, h.next]
      · exact absurd hvk (hnew v hv)

/-- **A dependent of the new seat** comes back with one wake exactly when there is a store for it
and its id is free. -/
lemma returns (h : Met env input db d' k owner t t') {r : QueueItem}
    (hr : db.getById k = some r) (hs : r.state = .blocked) (hY : k ≠ newQitemId env)
    (ho : owner = input.toSession) :
    (∃ r', d'.getById k = some r' ∧ r'.state = .pending ∧ r'.blockedOn = none ∧
        WokenOnce db d' k input.qitemId input.toSession) ↔
      env.outboxAttached = true ∧
        db.outbox.get? (unparkWakeId (resumedAt db input.qitemId k)) = none := by
  have hon := h.onward.trans (if_neg fun hn => hn.2 ho.symm)
  obtain ⟨r', hr', -, hreturned⟩ := h.ends hr hs
  obtain ⟨hpending, hnone⟩ := hreturned hon
  obtain ⟨hturn, hoff, hkept⟩ := unparkRow_turn (h.of_none hon)
  obtain ⟨rows, hrest, hk⟩ := h.later
  obtain ⟨new, hsince, -⟩ := h.since
  have hlt : t.nextTransitionId < t'.nextTransitionId := by
    obtain ⟨u, hlog, -⟩ := hturn.log
    simp [Db.nextTransitionId, hlog]
  obtain ⟨hkeep, hback⟩ := turns_entry hrest hlt hk
  have hfresh : db.outbox.get? (unparkWakeId (resumedAt db input.qitemId k)) = none →
      t.outbox.get? (unparkWakeId t.nextTransitionId) = none := fun hfree =>
    hsince.fresh (wakeIntent_ne_unpark env) (by rwa [h.next])
  constructor
  · rintro ⟨-, -, -, -, e, he, hfree, hkept', -⟩
    have hid := h.wake_id hY he hfree hkept'.pointer
    rw [hid] at he hfree
    refine ⟨?_, hfree⟩
    by_contra hatt
    have hsome := hback (by rw [h.next, he]; rfl)
    rw [hoff (by simpa using hatt), hfresh hfree] at hsome
    cases hsome
  · rintro ⟨hatt, hfree⟩
    obtain ⟨e, he, hkept'⟩ := hkept hatt (hfresh hfree)
    have he' := hkeep e he hkept'.pointer
    have hid : e.outboxId = unparkWakeId (resumedAt db input.qitemId k) := by
      rw [Table.get?_key he, h.next]
    rw [h.next, ← hid] at he'
    refine ⟨r', hr', hpending, hnone, e, he', by rwa [hid], ?_, fun e' hget hfree' hp => ?_⟩
    · rw [ho] at hkept'
      exact hkept'
    · have hid' := h.wake_id hY hget hfree' hp
      rw [hid', ← hid] at hget
      exact Option.some.inj (hget.symm.trans he')

end Met

/-- What the queue's tables go through: an operation, or whatever the deliverers and their clients
do to the outbox between two of them. -/
inductive Advances : Db → Option (Env × Op) → Db → Prop
  | op {db db' : Db} {l : Env × Op} (h : commits db l db') : Advances db (some l) db'
  | outbox (db : Db) (o : Entries) : Advances db none (db.setOutbox o)

lemma advances_timers {ls : List (Option (Env × Op))} {db : Db}
    (h : Path Advances Db.empty ls db) : TimerInv db := by
  refine h.invariant (fun d l d' hstep hi => ?_) timerInv_empty
  cases hstep with
  | op hc => exact (exec_kept hi hc).timers
  | outbox o =>
    have hk : ParkLedger.Kept (fun _ => False) d (d.setOutbox o) := kept_tail hi rfl rfl rfl rfl
    exact hk.timers

lemma not_follow_self {env : Env} {input : QueueHandoffInput} {db db' : Db} {r : QueueItem}
    (hself : parkedRow db input.qitemId input.qitemId)
    (hr : db'.getById input.qitemId = some r) (hs : r.state = .handedOff) :
    ¬ DependentsFollow env input db db' := by
  intro h
  obtain ⟨r₀, hr₀, hs₀, hb₀⟩ := hself
  obtain ⟨hother, hown⟩ := h input.qitemId r₀ hr₀ hs₀ hb₀
  by_cases ho : r₀.destinationSession = input.toSession
  · obtain ⟨r', hr', hpending, -⟩ := hown ho
    cases hr.symm.trans hr'
    rw [hs] at hpending
    cases hpending
  · obtain ⟨r', hr', hblocked, -⟩ := hother ho
    cases hr.symm.trans hr'
    rw [hs] at hblocked
    cases hblocked

/-- **Dependents follow a handed-off blocker** exactly when they can: in every state the queue
reaches, and for every handoff that commits there. -/
theorem dependents_follow_iff {ls : List (Option (Env × Op))} {db db' : Db}
    (hrun : Path Advances Db.empty ls db) {env : Env} {input : QueueHandoffInput}
    (h : handoff env db input = .ok db') :
    DependentsFollow env input db db' ↔ CanFollow env input db := by
  have hi := advances_timers hrun
  change handoffWith handingOff env db input = .ok db' at h
  rcases beforeDependents_alike env db input with ⟨e, he⟩ | ⟨source, carried, s, o, hopened⟩
  · rw [handoffWith_eq, he] at h
    cases h
  obtain ⟨a, ha, hopen⟩ := hopened handingOff
  rw [handoffWith_eq, ha] at h
  change (propagateBlockerCompletion env (propagation handingOff input) a >>=
    afterDependents env input source) = .ok db' at h
  obtain ⟨d', hp, h⟩ := bind_eq_ok.mp h
  unfold afterDependents at h
  obtain ⟨-, -, h⟩ := bind_eq_ok.mp h
  cases pure_eq_ok.mp h
  by_cases hself : parkedRow db input.qitemId input.qitemId
  · have hrow := ((hopen.settled rfl hp).beside input.qitemId (.inr (.inl rfl))).row.trans hopen.row
    exact iff_of_false (not_follow_self hself hrow rfl) fun hc => hc.apart hself
  have hmet := fun k r hr hs hb => exists_met hi hopen hself hp (k := k) (r := r) hr hs hb
  have hY : ∀ k r, db.getById k = some r → k ≠ newQitemId env := by
    rintro k r hr rfl
    cases hopen.fresh.symm.trans hr
  constructor
  · intro hf
    refine ⟨hself, fun k r hr hs hb ho => ?_, fun k r hr hs hb ho => ?_, fun k r hr hs hb ho => ?_⟩
    · obtain ⟨t, t', hm⟩ := hmet k r hr hs hb
      exact ((hm.follows hi.toLedger hr hs ho).mp ((hf k r hr hs hb).1 ho)).1
    · obtain ⟨t, t', hm⟩ := hmet k r hr hs hb
      exact ((hm.follows hi.toLedger hr hs ho).mp ((hf k r hr hs hb).1 ho)).2
    · obtain ⟨t, t', hm⟩ := hmet k r hr hs hb
      exact (hm.returns hr hs (hY k r hr) ho).mp ((hf k r hr hs hb).2 ho)
  · intro hc k r hr hs hb
    obtain ⟨t, t', hm⟩ := hmet k r hr hs hb
    exact ⟨fun ho => (hm.follows hi.toLedger hr hs ho).mpr
        ⟨hc.first k r hr hs hb ho, hc.waits k r hr hs hb ho⟩,
      fun ho => (hm.returns hr hs (hY k r hr) ho).mpr (hc.wakes k r hr hs hb ho)⟩

lemma advances_of_commits {ls : List (Env × Op)} {db db' : Db} (h : Path commits db ls db') :
    Path Advances db (ls.map some) db' := by
  induction h with
  | nil db => exact .nil db
  | cons hstep _ ih => exact .cons (.op hstep) ih

/-- A row, and two rows parked on it: one of another seat, one of the seat it goes to next. -/
def twoParked : List (Env × Op) :=
  [(plainEnv 0 0 "", .create
      { qitemId := some "qitem-a", sourceSession := "lead@rig", destinationSession := "dev@rig",
        body := "work" }),
   (plainEnv 1000 0 "", .create
      { qitemId := some "qitem-b", sourceSession := "lead@rig", destinationSession := "ops@rig",
        body := "after the work" }),
   (plainEnv 2000 0 "", .create
      { qitemId := some "qitem-c", sourceSession := "lead@rig", destinationSession := "qa@rig",
        body := "after the work" }),
   (plainEnv 3000 0 "", .update
      { qitemId := "qitem-b", actorSession := "ops@rig", state := some .blocked,
        blockedOn := some "qitem-a" }),
   (plainEnv 4000 0 "", .update
      { qitemId := "qitem-c", actorSession := "qa@rig", state := some .blocked,
        blockedOn := some "qitem-a" })]

/-- The row's handoff to qa. -/
def toQa : QueueHandoffInput :=
  { qitemId := "qitem-a", fromSession := "dev@rig", toSession := "qa@rig" }

theorem dependents_follow_first : ∃ db db', Path Advances Db.empty (twoParked.map some) db ∧
    (parkedOn db "qitem-a").length = 2 ∧
    handoff (plainEnv 5000 0 "") db toQa = .ok db' ∧
    DependentsFollow (plainEnv 5000 0 "") toQa db db' := by
  obtain ⟨db, hrun, hp⟩ := exists_run Db.empty twoParked (fun db =>
    (handoff (plainEnv 5000 0 "") db toQa).toOption.isSome &&
      (successorsAt db.items.rows "qitem-a" "qa@rig").isEmpty && db.jobs.rows.isEmpty &&
      ((parkedOn db "qitem-a").length = 2) &&
      ((parkedOn db "qitem-a").all fun row => row.1 ≠ "qitem-a" &&
        (db.outbox.get? (unparkWakeId (resumedAt db "qitem-a" row.1))).isNone)) (by decide)
  simp only [Bool.and_eq_true, decide_eq_true_eq, List.isEmpty_iff, List.all_eq_true] at hp
  obtain ⟨⟨⟨⟨hok, hsucc⟩, hjobs⟩, htwo⟩, hrows⟩ := hp
  have hrun' := advances_of_commits hrun
  cases hh : handoff (plainEnv 5000 0 "") db toQa with
  | error e => simp [hh, Except.toOption] at hok
  | ok db' =>
    refine ⟨db, db', hrun', htwo, hh, (dependents_follow_iff hrun' hh).mpr
      ⟨?_, fun _ _ _ _ _ _ => hsucc, fun k r _ _ _ _ w J job _ _ hj _ => ?_,
        fun k r hr hs hb _ => ⟨rfl, ?_⟩⟩⟩
    · rintro ⟨r, hr, hs, hb⟩
      exact (hrows _ (mem_parkedOn.mpr ⟨r, hr, hs, hb, rfl⟩)).1 rfl
    · have hmem := (Table.get?_eq_some.mp hj).1
      rw [hjobs] at hmem
      cases hmem
    · exact Option.isNone_iff_eq_none.mp (hrows _ (mem_parkedOn.mpr ⟨r, hr, hs, hb, rfl⟩)).2

/-- A row handed to qa, reopened, and then waited on by a row of another seat. -/
def reopenedAndParked : List (Env × Op) :=
  [(plainEnv 0 0 "", .create
      { qitemId := some "qitem-a", sourceSession := "lead@rig", destinationSession := "dev@rig",
        body := "work" }),
   (plainEnv 1000 0 "", .handoff toQa),
   (plainEnv 2000 0 "", .update
      { qitemId := "qitem-a", actorSession := "dev@rig", state := some .pending, reopen := true,
        transitionNote := some "one more round" }),
   (plainEnv 3000 0 "", .create
      { qitemId := some "qitem-b", sourceSession := "lead@rig", destinationSession := "ops@rig",
        body := "after the work" }),
   (plainEnv 4000 0 "", .update
      { qitemId := "qitem-b", actorSession := "ops@rig", state := some .blocked,
        blockedOn := some "qitem-a" })]

/-- The second handoff finds two successors, and returns the dependent as if the work were done. -/
theorem dependents_lost_on_second : ∃ db db',
    Path Advances Db.empty (reopenedAndParked.map some) db ∧
    handoff (plainEnv 5000 0 "") db toQa = .ok db' ∧
    (db'.getById "qitem-b").map QueueItem.state = some .pending ∧
    ¬ DependentsFollow (plainEnv 5000 0 "") toQa db db' := by
  obtain ⟨db, hrun, hp⟩ := exists_run Db.empty reopenedAndParked (fun db : Db =>
    ((handoff (plainEnv 5000 0 "") db toQa).toOption.any fun db' : Db =>
      (db'.getById "qitem-b").map QueueItem.state = some .pending) &&
    ((db.getById "qitem-b").any fun r : QueueItem => r.state = .blocked &&
      r.blockedOn = some "qitem-a" && r.destinationSession = "ops@rig")) (by decide)
  rw [Bool.and_eq_true] at hp
  obtain ⟨hok, hb⟩ := hp
  obtain ⟨r, hr, hrow⟩ := (Option.any_eq_true _ _).mp hb
  simp only [Bool.and_eq_true, decide_eq_true_eq] at hrow
  cases hh : handoff (plainEnv 5000 0 "") db toQa with
  | error e => simp [hh, Except.toOption] at hok
  | ok db' =>
    rw [hh] at hok
    have hpending : (db'.getById "qitem-b").map QueueItem.state = some .pending := by
      simpa [Except.toOption] using hok
    refine ⟨db, db', advances_of_commits hrun, hh, hpending, fun hf => ?_⟩
    obtain ⟨r', hr', hblocked, -⟩ := (hf "qitem-b" r hr hrow.1.1 hrow.1.2).1 (by
      rw [hrow.2]
      decide)
    rw [hr', Option.map_some, hblocked] at hpending
    cases hpending

end OpenRig.Dependents
