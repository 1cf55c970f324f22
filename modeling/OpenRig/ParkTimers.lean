import OpenRig.ParkLedger

/-!
A park timer never outlives its park.

Every operation keeps the timer invariant: each way out of a park retires the row's generated
timer in the same transaction, each new park supersedes it, and a delivered attempt ends it. The
jobs no park generated are ended by none of these, except by their own delivery to a provider-limit
blocker.
-/

namespace OpenRig.ParkTimers

open OpenRig.JsText OpenRig.Sessions OpenRig.Closure OpenRig.QueueDb OpenRig.Outbox
open OpenRig.Watchdogs OpenRig.Verbs OpenRig.Handoff OpenRig.Update OpenRig.Firing OpenRig.Runs
open OpenRig.Lifecycle OpenRig.RowEffects OpenRig.Propagation OpenRig.Moves OpenRig.Refinement
open OpenRig.ParkLedger

variable {X : String → Prop} {env : Env} {db db' : Db}

/-! ### Writes of one row -/

lemma rowsOnly_of_eq (hi : db'.items = db.items) (hw : db'.wakes = db.wakes)
    (hj : db'.jobs = db.jobs) (ht : db'.transitions = db.transitions) :
    RowsOnly (fun _ => False) db db' where
  wakes := hw
  jobs := hj
  log := by
    unfold Db.nextTransitionId
    rw [ht]
  rows k hk := by
    unfold Db.getById at hk ⊢
    rwa [hi]
  blocked k _ hb := (isBlocked_congr hi k).trans hb

lemma rowsOnly_emit (db : Db) (e : RigEvent) : RowsOnly (fun _ => False) db (db.emit e) :=
  rowsOnly_of_eq rfl rfl rfl rfl

lemma kept_tail (hi : TimerInv db) (hitems : db'.items = db.items) (hw : db'.wakes = db.wakes)
    (hj : db'.jobs = db.jobs) (ht : db'.transitions = db.transitions) : Kept X db db' :=
  (rowsOnly_of_eq hitems hw hj ht).kept hi

lemma rowsOnly_updateRow (db : Db) (q : String) (f : QueueItem → QueueItem) (hf) :
    RowsOnly (· = q) db (db.updateRow q f hf) where
  wakes := rfl
  jobs := rfl
  log := le_rfl
  rows k hk := by
    rw [Db.getById_updateRow]
    split
    · simpa using hk
    · exact hk
  blocked k hk hb := by
    unfold isBlocked at hb ⊢
    rwa [Db.getById_updateRow, if_neg hk]

lemma rowsOnly_updateRow_quiet (db : Db) (q : String) (f : QueueItem → QueueItem) (hf)
    (hs : ∀ r, (f r).state = r.state) : RowsOnly (fun _ => False) db (db.updateRow q f hf) where
  wakes := rfl
  jobs := rfl
  log := le_rfl
  rows := (rowsOnly_updateRow db q f hf).rows
  blocked k _ hb := by
    unfold isBlocked at hb ⊢
    rw [Db.getById_updateRow]
    split
    · rw [Option.any_map]
      simpa [Function.comp_def, hs] using hb
    · exact hb

lemma rowsOnly_append (db : Db) (ts : Time) (t : TransitionInput) :
    RowsOnly (fun _ => False) db (db.append ts t) where
  wakes := rfl
  jobs := rfl
  log := by simp [Db.nextTransitionId]
  rows _ hk := hk
  blocked _ _ hb := hb

lemma rowsOnly_write (db : Db) (q : String) (f : QueueItem → QueueItem) (hf) (ts : Time)
    (t : TransitionInput) : RowsOnly (· = q) db ((db.updateRow q f hf).append ts t) :=
  RowsOnly.trans (rowsOnly_updateRow db q f hf) ((rowsOnly_append _ ts t).mono fun _ h => h.elim)

lemma isBlocked_view (db : Db) (k : String) :
    isBlocked db k = (view db k).any fun l => l.state = .blocked := by
  unfold isBlocked
  cases hr : db.getById k with
  | none => simp [view_eq_none.mpr hr]
  | some r =>
    rw [view_of_getById hr]
    rfl

lemma getById_isSome_view (db : Db) (k : String) :
    (db.getById k).isSome = (view db k).isSome := by
  cases hr : db.getById k with
  | none => simp [view_eq_none.mpr hr]
  | some r => simp [view_of_getById hr]

lemma rowsOnly_of_inserted {s : QueueItem} (h : Inserted db db' s) :
    RowsOnly (fun _ => False) db db' where
  wakes := h.wakes
  jobs := h.jobs
  log := by
    obtain ⟨t, -, -, ht⟩ := h.transitions
    simp [Db.nextTransitionId, ht]
  rows k hk := by
    by_cases he : k = s.qitemId
    · rw [he, h.getById_self]
      rfl
    · rwa [h.getById_other he]
  blocked k _ hb := by
    by_cases he : k = s.qitemId
    · subst he
      simp [isBlocked, h.fresh] at hb
    · unfold isBlocked at hb ⊢
      rwa [h.getById_other he]

lemma rowsOnly_of_sweep {w : RowWrite} (hv : ∀ k, view db' k = view db k ∨
      (inProgressRow db k ∧ Step (view db k) w (view db' k)))
    (hw : db'.wakes = db.wakes) (hj : db'.jobs = db.jobs)
    (hl : db.nextTransitionId ≤ db'.nextTransitionId) : RowsOnly (fun _ => False) db db' where
  wakes := hw
  jobs := hj
  log := hl
  rows k hk := by
    rw [getById_isSome_view] at hk ⊢
    rcases hv k with he | ⟨-, hstep⟩
    · rwa [he]
    · exact hstep.isSome
  blocked k _ hb := by
    rcases hv k with he | ⟨⟨r, hr, hs⟩, -⟩
    · rwa [isBlocked_view, he, ← isBlocked_view]
    · simp [isBlocked, hr, hs] at hb

/-! ### Propagation -/

lemma readWait_eq_some {j : WatchdogJob} {t m : String} {w : WaitState}
    (h : readWait j = some (t, m, w)) :
    j.spec = .queueWait t m w ∧ waitOf j.spec = some w.qitemId := by
  unfold readWait at h
  cases hs : j.spec with
  | queueWait t' m' w' =>
    rw [hs] at h
    simp only at h
    split at h
    · rename_i hne
      cases h
      exact ⟨rfl, if_pos hne⟩
    · cases h
  | reminder t m =>
    rw [hs] at h
    cases h
  | other t =>
    rw [hs] at h
    cases h

lemma retarget_eq_some {J b : String} {jobs : Jobs} (h : retargetQueueWait db J b = some jobs) :
    ∃ j q, db.jobs.get? J = some j ∧ waitOf j.spec = some q ∧ Milder db.jobs jobs ∧
      ∀ K, oneShot db.jobs K → oneShot jobs K := by
  unfold retargetQueueWait at h
  simp only [Option.bind_eq_bind, Option.bind_eq_some_iff, Option.pure_def, Option.some.injEq] at h
  obtain ⟨j, hj, ⟨t, m, w⟩, hr, rfl⟩ := h
  obtain ⟨hs, hw⟩ := readWait_eq_some hr
  refine ⟨j, w.qitemId, hj, hw, .updateSchedule hj ?_ _ _, fun K hK => oneShot_updateSchedule hK ?_⟩
  · rw [hs]
    rfl
  · rintro rfl
    obtain ⟨j', hj', -, hn⟩ := hK
    cases hj.symm.trans hj'
    rw [hw] at hn
    cases hn

lemma status_ref (db : Db) (q : String) :
    (getStatus db q).map (fun s => s.wake.ref) = (latestArmed db q).map fun w => w.wake.ref := by
  unfold getStatus
  rw [Option.map_map]
  rfl

lemma retire_of_blocker {q b reason : String}
    (h : (getStatus db q).map (fun s => s.wake.ref) = some (.qitem b)) :
    retireParkGeneratedTimer db q reason = db := by
  unfold retireParkGeneratedTimer
  split
  · rename_i hs
    rw [hs] at h
    cases h
  · rfl

/-- What a rebind writes after the row: the retargeted wait's record, or the new blocker's over the
retired timer. -/
lemma rebindRow_eq (env : Env) (input : PropagateInput) (db : Db) (q s : String) :
    ∃ t e, ∃ db₁, db₁ = (db.updateRow q fun r =>
        { r with blockedOn := some s, tsUpdated := env.now }).append env.now t ∧
      ((∃ j jobs, (getStatus db q).map ParkWakeStatus.wake = some (.timer j) ∧
          retargetQueueWait db₁ j s = some jobs ∧
          rebindRow env input db q s = ((db₁.setJobs jobs).recordWake
            ⟨db.nextTransitionId, q, .armed, .timer j⟩).emit e) ∨
        rebindRow env input db q s =
          ((retireParkGeneratedTimer db₁ q "blocker_custody_moved").recordWake
            ⟨db.nextTransitionId, q, .armed, .blocker s⟩).emit e) := by
  unfold rebindRow
  dsimp only
  rcases getStatus db q with _ | ⟨j | j | b, fired, live, unconsumed⟩
  · exact ⟨_, _, _, rfl, .inr rfl⟩
  · exact ⟨_, _, _, rfl, .inr rfl⟩
  · dsimp only
    cases hr : retargetQueueWait ((db.updateRow q fun r =>
        { r with blockedOn := some s, tsUpdated := env.now }).append env.now
        { qitemId := q, state := .blocked, actorSession := input.actorSession,
          transitionNote := some ("blocker custody moved from " ++ input.qitemId ++ " to " ++ s),
          identityProvenance := input.identityProvenance }) j s with
    | none => exact ⟨_, _, _, rfl, .inr rfl⟩
    | some jobs => exact ⟨_, _, _, rfl, .inl ⟨j, jobs, rfl, hr, rfl⟩⟩
  · exact ⟨_, _, _, rfl, .inr rfl⟩

/-- **Custody moved on**: the rebound row's old timer ends, or its repeating wait follows. -/
lemma rebindRow_kept (hi : TimerInv db) {input : PropagateInput} {q : String}
    (hq : (db.getById q).isSome) (s : String) : Kept X db (rebindRow env input db q s) := by
  obtain ⟨t, e, db₁, h₁, h⟩ := rebindRow_eq env input db q s
  have hr : RowsOnly (· = q) db db₁ := h₁ ▸ rowsOnly_write _ _ _ _ _ _
  have htid : db.nextTransitionId < db₁.nextTransitionId := by
    rw [h₁]
    simp [Db.nextTransitionId]
  have hemit : ∀ d : Db, TimerInv d → Kept X d (d.emit e) := fun d hd =>
    kept_tail hd rfl rfl rfl rfl
  rcases h with ⟨j, jobs, hstatus, hret, he⟩ | he
  · rw [he]
    obtain ⟨i, w, hj, hw, hm, hs⟩ := retarget_eq_some hret
    rw [hr.jobs] at hj hm hs
    have k₁ : Kept X db (db.setJobs jobs) := kept_setJobs hi hm fun J _ hf => hs J hf.1
    have hr₁ := hr.setJobs jobs
    have href : (getStatus (db₁.setJobs jobs) q).map (fun s => s.wake.ref) =
        some (ParkWake.timer j).ref := by
      obtain ⟨st, hst, hwake⟩ := Option.map_eq_some_iff.mp hstatus
      have : (getStatus db q).map (fun s => s.wake.ref) = some (ParkWake.timer j).ref := by
        rw [hst, Option.map_some, hwake]
      rw [status_ref] at this ⊢
      rwa [show latestArmed (db₁.setJobs jobs) q =
        latestArmed db q from latestArmed_congr hr.wakes q]
    have hnot : ¬ oneShot jobs j := by
      rintro ⟨j', hj', -, hn⟩
      rw [hm.wait j i j' hj hj', hw] at hn
      cases hn
    have ha : Arms (db₁.setJobs jobs) q (.timer j) :=
      { row := hr.rows q hq
        known := fun J hJ => by
          cases hJ
          exact hm.known _ (by simp [hj])
        own := fun J j' q' hJ hj' hq' => by
          cases hJ
          obtain ⟨st, hst, hwake⟩ := Option.map_eq_some_iff.mp hstatus
          obtain ⟨r, hlatest, hst⟩ := Option.map_eq_some_iff.mp hst
          obtain ⟨hmem, hrq, -⟩ := mem_of_latestArmed hlatest
          have hrw : r.wake = .timer j := (congrArg ParkWakeStatus.wake hst).trans hwake
          exact (k₁.timers.own r hmem j j' q' hrw hj' hq').symm.trans hrq
        fresh := fun J hJ ho => by
          cases hJ
          exact absurd ho hnot }
    have k₂ := kept_arm (X := X) "blocker_custody_moved" db.nextTransitionId k₁.timers hr₁ ha
      (fun J ho hJ hJ' => by
        cases hJ'
        exact absurd ho hnot)
      (fun J hJ ho => by
        cases hJ
        exact absurd ho hnot) htid
    rw [if_neg (not_not_intro href)] at k₂
    exact (k₁.trans k₂).trans (hemit _ k₂.timers)
  · rw [he]
    have ha : Arms db₁ q (.blocker s) :=
      { row := hr.rows q hq
        known := fun J hJ => by cases hJ
        own := fun J j' q' hJ => by cases hJ
        fresh := fun J hJ => by cases hJ }
    have k := kept_arm (X := X) "blocker_custody_moved" db.nextTransitionId hi hr ha
      (fun J _ _ hJ => by cases hJ) (fun J hJ => by cases hJ) htid
    have hif : (if (getStatus db₁ q).map (fun s => s.wake.ref) ≠ some (ParkWake.blocker s).ref then
        retireParkGeneratedTimer db₁ q "blocker_custody_moved" else db₁) =
        retireParkGeneratedTimer db₁ q "blocker_custody_moved" := by
      split
      · rfl
      · rename_i h
        exact (retire_of_blocker (not_not.mp h)).symm
    rw [hif] at k
    exact k.trans (hemit _ k.timers)

lemma unparkRow_kept (hi : TimerInv db) {input : PropagateInput} {q owner : String}
    (h : unparkRow env input db q owner = .ok db') : Kept X db db' := by
  obtain ⟨db₁, h₁, outbox, e, rfl, -⟩ := unparkRow_eq h
  have hr : RowsOnly (· = q) db db₁ := h₁ ▸ rowsOnly_write _ _ _ _ _ _
  have k := kept_exit (X := X) hi hr "park_ended:auto-unparked"
  exact k.trans (kept_tail k.timers rfl rfl rfl rfl)

/-- **A close moves the rows parked on it** with their timers. -/
lemma propagate_kept (hi : TimerInv db) {input : PropagateInput}
    (h : propagateBlockerCompletion env input db = .ok db') : Kept X db db' := by
  refine (path_of_foldlM h).invariant_of_labels (I := fun d => Kept X db d)
    (p := fun row => (db.getById row.1).isSome) (fun d row d' hrow hstep k => ?_) ?_ (Kept.refl hi)
  · refine k.trans ?_
    unfold propagateRow at hstep
    split at hstep
    · cases pure_eq_ok.mp hstep
      exact rebindRow_kept k.timers (k.rows _ hrow) _
    · exact unparkRow_kept k.timers hstep
  · rintro ⟨k, owner⟩ hmem
    obtain ⟨r, hr, -⟩ := mem_parkedOn.mp hmem
    simp [hr]

/-! ### The handoff family -/

lemma closeSource_kept (hi : TimerInv db) (st : QueueState) (q a b target note : String)
    (prov princ : Option String) :
    Kept X db (closeSource env db st q a b target note prov princ) := by
  unfold closeSource
  exact kept_exit hi (rowsOnly_write _ _ _ _ _ _) _

lemma handoffWith_kept (hi : TimerInv db) {variant : HandoffVariant} {input : QueueHandoffInput}
    (h : handoffWith variant env db input = .ok db') : Kept X db db' := by
  obtain ⟨source, note, s, db₂, db₃, e, -, -, hs, -, -, -, hprop, rfl⟩ := handoffWith_eq_ok h
  have k₁ : Kept X db (closeSource env db variant.terminalState input.qitemId
      input.fromSession input.toSession input.toSession note input.identityProvenance
      input.identityPrincipal) :=
    closeSource_kept hi _ _ _ _ _ _ _ _
  have k₂ := (rowsOnly_of_inserted hs).kept (X := X) k₁.timers
  have k₃ := propagate_kept (X := X) k₂.timers hprop
  exact ((k₁.trans k₂).trans k₃).trans (kept_tail k₃.timers rfl rfl rfl rfl)

lemma closeCrossHost_kept (hi : TimerInv db) {input : CrossHostCloseInput} {absorbed : Bool}
    (h : closeCrossHostHandoffSource env db input = .ok (absorbed, db')) : Kept X db db' := by
  obtain ⟨source, -, ⟨-, rfl, -⟩ | ⟨-, -, note, e, hprop⟩⟩ := closeCrossHost_eq_ok h
  · exact .refl hi
  · have k₁ : Kept X db (closeSource env db input.terminalState.toQueueState input.qitemId
        input.fromSession input.toSession input.closureTarget note input.identityProvenance none) :=
      closeSource_kept hi _ _ _ _ _ _ _ _
    have k₂ := (rowsOnly_emit _ e).kept (X := X) k₁.timers
    exact (k₁.trans k₂).trans (propagate_kept k₂.timers hprop)

/-! ### Parks -/

/-- What arming a park leaves: the jobs, and the wake to record. -/
structure Armed (db : Db) (q : String) (input : QueueUpdateInput) (wake : Option ParkWake)
    (jobs : Jobs) : Prop where
  milder : Milder db.jobs jobs
  spares : ∀ K, oneShot db.jobs K → oneShot jobs K
  known : ∀ w, wake = some w → ∀ J, w.ref = .job J → (jobs.get? J).isSome
  own : ∀ J j q', wake = some (.timer J) → jobs.get? J = some j → waitOf j.spec = some q' → q' = q
  fresh : ∀ J, wake = some (.timer J) → oneShot jobs J → db.jobs.get? J = none
  timed : ∀ J, wake = some (.timer J) → input.wakeAfterSeconds.isSome = true

lemma registered {jobs jobs' : Jobs} {input : RegisterInput} {t : Time}
    (h : register env jobs input = .ok jobs') :
    Milder jobs (recordEvaluation jobs' env.ulid t) ∧
      (∀ K, oneShot jobs K → oneShot (recordEvaluation jobs' env.ulid t) K) ∧
      jobs.get? env.ulid = none ∧
      ∃ j, (recordEvaluation jobs' env.ulid t).get? env.ulid = some j ∧ j.spec = input.spec := by
  obtain ⟨hfresh, hother, j, hj, hs, -⟩ := register_eq_ok h
  refine ⟨(Milder.register h).trans (.recordEvaluation _ _ _), fun K hK => ?_, hfresh, ?_⟩
  · obtain ⟨i, hi, hrest⟩ := hK
    have hne : K ≠ env.ulid := by
      rintro rfl
      cases hfresh.symm.trans hi
    refine ⟨i, ?_, hrest⟩
    unfold recordEvaluation
    rw [Table.get?_update_ne _ _ _ hne, hother K hne, hi]
  · refine ⟨{ j with lastEvaluationAt := some t }, ?_, hs⟩
    unfold recordEvaluation
    rw [Table.get?_update_self, hj]
    rfl

lemma armQueueWait_eq_ok (hl : Ledger db) {input : ArmInput} {jobs : Jobs} {J : String}
    (hprev : ∀ p, input.previousJobId = some p →
      ∃ w ∈ db.wakes, w.wake = .timer p ∧ w.qitemId = input.qitemId)
    (h : armQueueWait env db input = .ok (jobs, J)) :
    Milder db.jobs jobs ∧ (∀ K, oneShot db.jobs K → oneShot jobs K) ∧
      (∃ j, jobs.get? J = some j ∧ ∀ q, waitOf j.spec = some q → q = input.qitemId) ∧
      (oneShot jobs J → db.jobs.get? J = none) := by
  have hnew : ∀ (spec : WatchdogSpec), (∀ q, waitOf spec = some q → q = input.qitemId) →
      (do
        let jobs ← register env db.jobs ⟨"periodic-reminder", spec, input.owner,
          input.initialSeconds, input.actor⟩
        pure (recordEvaluation jobs env.ulid env.now, env.ulid)) = Except.ok (jobs, J) →
      Milder db.jobs jobs ∧ (∀ K, oneShot db.jobs K → oneShot jobs K) ∧
        (∃ j, jobs.get? J = some j ∧ ∀ q, waitOf j.spec = some q → q = input.qitemId) ∧
        (oneShot jobs J → db.jobs.get? J = none) := by
    intro spec hspec h
    obtain ⟨jobs₁, hreg, h⟩ := bind_eq_ok.mp h
    obtain ⟨rfl, rfl⟩ := Prod.mk.inj (pure_eq_ok.mp h)
    obtain ⟨hm, hs, hfresh, j, hj, hjs⟩ := registered (t := env.now) hreg
    exact ⟨hm, hs, ⟨j, hj, fun q hq => hspec q (by rwa [hjs] at hq)⟩, fun _ => hfresh⟩
  unfold armQueueWait at h
  extract_lets prior old evidence state unchanged wait spec at h
  -- an old wait of the row's is for the row, so the new spec is too
  have hold : ∀ o, old = some o → ∃ p, prior = some p ∧ db.jobs.get? p.jobId = some p ∧
      p.state = .active ∧ waitOf p.spec = some input.qitemId ∧ o.2.2.qitemId = input.qitemId := by
    intro o ho
    obtain ⟨p, hp, hread⟩ := Option.bind_eq_some_iff.mp ho
    obtain ⟨hp, hactive⟩ := Option.filter_eq_some_iff.mp hp
    obtain ⟨pid, hpid, hget⟩ := Option.bind_eq_some_iff.mp hp
    obtain ⟨t, m, w⟩ := o
    obtain ⟨-, hw⟩ := readWait_eq_some hread
    obtain ⟨r, hr, hrw, hrq⟩ := hprev pid hpid
    have hq : w.qitemId = input.qitemId :=
      (hl.own r hr pid p w.qitemId hrw hget hw).symm.trans hrq
    have hkey : p.jobId = pid := Table.get?_key hget
    exact ⟨p, hp, hkey ▸ hget, by simpa using hactive, hw.trans (congrArg some hq), hq⟩
  have hwait : wait.qitemId = input.qitemId := by
    rcases Option.eq_none_or_eq_some old with ho | ⟨o, ho⟩
    · simp only [wait, ho]
      rfl
    · obtain ⟨-, -, -, -, -, hq⟩ := hold o ho
      simp only [wait, ho]
      split
      · exact hq
      · rfl
  have hws : waitOf spec = if input.qitemId ≠ "" then some input.qitemId else none :=
    hwait ▸ rfl
  have hspec : ∀ q, waitOf spec = some q → q = input.qitemId := by
    intro q hq
    rw [hws] at hq
    split at hq
    · exact (Option.some.inj hq).symm
    · cases hq
  clear_value prior old state unchanged wait spec
  split at h
  · rename_i p o
    obtain ⟨p', hp', hget, -, hw, -⟩ := hold o rfl
    cases hp'
    split at h
    · obtain ⟨rfl, rfl⟩ := Prod.mk.inj (pure_eq_ok.mp h)
      have hne : input.qitemId ≠ "" := by
        intro e
        cases hs : p.spec with
        | queueWait t m w =>
          rw [hs] at hw
          change (if w.qitemId ≠ "" then some w.qitemId else none) = _ at hw
          split at hw
          · rename_i hn
            exact hn ((Option.some.inj hw).trans e)
          · cases hw
        | reminder t m => simp [hs, waitOf] at hw
        | other t => simp [hs, waitOf] at hw
      rw [if_pos hne] at hws
      have hm := Milder.updateSchedule hget (hws.trans hw.symm)
        (if unchanged then p.intervalSeconds else input.initialSeconds)
        (if unchanged then p.lastEvaluationAt else some env.now)
      refine ⟨hm, fun K hK => oneShot_updateSchedule hK ?_, ?_, fun ho => ?_⟩
      · rintro rfl
        obtain ⟨i, hi, -, hn⟩ := hK
        cases hget.symm.trans hi
        rw [hw] at hn
        cases hn
      · obtain ⟨j, hj⟩ := Option.isSome_iff_exists.mp (hm.known p.jobId (by simp [hget]))
        refine ⟨j, hj, fun q hq => ?_⟩
        rw [hm.wait _ _ _ hget hj, hw] at hq
        exact (Option.some.inj hq).symm
      · obtain ⟨j, hj, -, hn⟩ := ho
        rw [hm.wait _ _ _ hget hj, hw] at hn
        cases hn
    · exact hnew spec hspec h
  · exact hnew spec hspec h

lemma previousJob_spec (db : Db) (q : String) {p : String}
    (h : (match getStatus db q with
      | some { wake := .timer j, .. } =>
        if (findLiveQitemsByAttachedWatchdog db j).isEmpty then some j else none
      | _ => none) = some p) : ∃ w ∈ db.wakes, w.wake = .timer p ∧ w.qitemId = q := by
  split at h
  · rename_i j fired live unconsumed hstatus
    split at h
    · obtain rfl : j = p := Option.some.inj h
      obtain ⟨w, hlatest, hst⟩ := Option.map_eq_some_iff.mp hstatus
      obtain ⟨hmem, hwq, -⟩ := mem_of_latestArmed hlatest
      exact ⟨w, hmem, congrArg ParkWakeStatus.wake hst, hwq⟩
    · cases h
  · cases h

/-- **Arming a park** reuses no job but the row's own repeating wait. -/
lemma armParkWake_eq_ok (hl : Ledger db) {qitem : QueueItem} {plan : UpdatePlan}
    {input : QueueUpdateInput} {wake : Option ParkWake} {jobs : Jobs}
    (h : armParkWake env db qitem plan input = .ok (wake, jobs)) :
    Armed db input.qitemId input wake jobs := by
  have hsame : ∀ w : Option ParkWake, (∀ v, w = some v → ∀ J, v.ref = .job J →
      (db.jobs.get? J).isSome) → (∀ J, w ≠ some (.timer J)) →
      Armed db input.qitemId input w db.jobs :=
    fun w hknown hne => ⟨.refl _, fun _ h => h, hknown, fun J _ _ e => absurd e (hne J),
      fun J e => absurd e (hne J), fun J e => absurd e (hne J)⟩
  unfold armParkWake at h
  split at h
  · split at h
    · simp at h
    · rename_i job hjob
      split at h
      · simp at h
      · obtain ⟨rfl, rfl⟩ := Prod.mk.inj (pure_eq_ok.mp h)
        refine hsame _ (fun v hv J hJ => ?_) fun J e => by cases e
        cases hv
        cases hJ
        obtain ⟨hget, -⟩ := Option.filter_eq_some_iff.mp hjob
        rw [Table.get?_key hget, hget]
        rfl
  · rename_i after max _ hafter hmax
    split at h
    · simp at h
    · obtain ⟨⟨jobs', J⟩, harm, h⟩ := bind_eq_ok.mp h
      obtain ⟨rfl, rfl⟩ := Prod.mk.inj (pure_eq_ok.mp h)
      obtain ⟨hm, hs, ⟨j, hj, hq⟩, hfresh⟩ := armQueueWait_eq_ok hl
        (fun _ => previousJob_spec db input.qitemId) harm
      refine ⟨hm, hs, ?_, ?_, ?_, fun _ _ => by rw [hafter]; rfl⟩
      · rintro _ ⟨⟩ J' ⟨⟩
        rw [hj]
        rfl
      · rintro J' j' q' ⟨⟩ hj' hw
        cases hj.symm.trans hj'
        exact hq q' hw
      · rintro J' ⟨⟩ ho
        exact hfresh ho
  · rename_i after _ hafter _
    obtain ⟨jobs', hreg, h⟩ := bind_eq_ok.mp h
    obtain ⟨rfl, rfl⟩ := Prod.mk.inj (pure_eq_ok.mp h)
    obtain ⟨hm, hs, hfresh, j, hj, hjs⟩ := registered (t := env.now) hreg
    refine ⟨hm, hs, ?_, ?_, ?_, fun _ _ => by rw [hafter]; rfl⟩
    · rintro _ ⟨⟩ J' ⟨⟩
      rw [hj]
      rfl
    · rintro J' j' q' ⟨⟩ hj' hw
      cases hj.symm.trans hj'
      rw [hjs] at hw
      cases hw
    · rintro J' ⟨⟩ -
      exact hfresh
  · obtain ⟨rfl, rfl⟩ := Prod.mk.inj (pure_eq_ok.mp h)
    refine hsame _ (fun v hv J hJ => ?_) fun J e => ?_
    · split at hv
      · split at hv
        · cases hv
          cases hJ
        · cases hv
      · cases hv
    · split at e
      · split at e <;> cases e
      · cases e

/-- **The end of a move**: the new park's wake supersedes the old timer, leaving the park ends it,
and a park that stays keeps it. -/
lemma settleParkWake_kept (hi : TimerInv db) {qitem : QueueItem} {state : QueueState}
    {plan : UpdatePlan} {input : QueueUpdateInput} {wake : Option ParkWake} {jobs : Jobs}
    {t : TransitionInput} (hr : db.getById input.qitemId = some qitem)
    (hplan : PlanAdmitted env db qitem state input plan)
    (ha : Armed db input.qitemId input wake jobs) :
    Kept (fun J => db.jobs.get? J = none) db
      (settleParkWake (((db.setJobs jobs).updateRow input.qitemId
        (movedRow env plan input (nextResolution qitem plan input))).append env.now t)
        qitem plan wake db.nextTransitionId) := by
  have hid := Db.getById_id hr
  have hmoved : ∀ r : QueueItem,
      (movedRow env plan input (nextResolution qitem plan input) r).qitemId = r.qitemId :=
        fun _ => rfl
  have k₁ : Kept (fun J => db.jobs.get? J = none) db (db.setJobs jobs) :=
    kept_setJobs hi ha.milder fun J _ hf => ha.spares J hf.1
  have hw := rowsOnly_write (db.setJobs jobs) input.qitemId
    (movedRow env plan input (nextResolution qitem plan input)) hmoved env.now t
  generalize hd : ((db.setJobs jobs).updateRow input.qitemId
    (movedRow env plan input (nextResolution qitem plan input))).append env.now t = db₁ at hw ⊢
  have hself : db₁.getById input.qitemId =
      some (movedRow env plan input (nextResolution qitem plan input) qitem) := by
    have hu := Db.getById_updateRow (db.setJobs jobs) input.qitemId
      (movedRow env plan input (nextResolution qitem plan input)) hmoved input.qitemId
    rw [if_pos rfl, show (db.setJobs jobs).getById input.qitemId = some qitem from hr] at hu
    rw [← hd]
    exact hu
  have hjobs : db₁.jobs = jobs := hw.jobs
  have hwakes : db₁.wakes = db.wakes := hw.wakes
  have htid : db.nextTransitionId < db₁.nextTransitionId := by
    rw [← hd]
    exact Nat.lt_succ_self _
  unfold settleParkWake
  split
  · rename_i wake
    dsimp only
    rw [hid]
    refine k₁.trans (kept_arm _ _ k₁.timers hw ⟨?_, ?_, ?_, ?_⟩ ?_ ?_ htid)
    · rw [hself]
      rfl
    · rw [hjobs]
      exact ha.known wake rfl
    · rintro J j q' rfl hj hq
      exact ha.own J j q' rfl (hjobs ▸ hj) hq
    · rintro J rfl ho
      rw [hjobs] at ho
      refine ⟨?_, fun f hf hJ => ?_⟩
      · have hb : plan.state = .blocked :=
          hplan.state_eq.trans (hplan.wakes (by simp [ha.timed J rfl]))
        unfold isBlocked
        rw [hself]
        simpa [movedRow] using hb
      · have := hi.known f (hwakes ▸ hf) J hJ
        rw [ha.fresh J rfl ho] at this
        cases this
    · intro J ho hstatus href
      cases wake with
      | watchdog J' =>
        cases href
        rfl
      | timer J' =>
        cases href
        -- a job the row's record names is no job registered now
        rw [hjobs] at ho
        rw [status_ref, latestArmed_congr hwakes] at hstatus
        obtain ⟨w, hlatest, hwr⟩ := Option.map_eq_some_iff.mp hstatus
        have := hi.known w (mem_of_latestArmed hlatest).1 J hwr
        rw [ha.fresh J rfl ho] at this
        cases this
      | blocker q => cases href
    · rintro J rfl ho
      exact ha.fresh J rfl (hjobs ▸ ho)
  · rw [hid]
    split
    · exact k₁.trans (kept_exit k₁.timers hw _)
    · rename_i hstay
      refine k₁.trans (RowsOnly.kept { hw with blocked := fun k _ hb => ?_ } k₁.timers)
      by_cases hk : k = input.qitemId
      · subst hk
        have hs : qitem.state = .blocked := by
          have hb : isBlocked db input.qitemId = true := hb
          unfold isBlocked at hb
          rw [hr] at hb
          simpa using hb
        unfold isBlocked
        rw [hself]
        simpa [hs, movedRow] using hstay
      · exact hw.blocked k hk hb

lemma kept_append_emit (hi : TimerInv db) (hr : RowsOnly (fun _ => False) db db') (ts : Time)
    (t : TransitionInput) (e : RigEvent) : Kept X db ((db'.append ts t).emit e) :=
  ((hr.trans (rowsOnly_append db' ts t)).trans (rowsOnly_emit _ e)).kept hi

lemma appendOnly_kept (hi : TimerInv db) {qitem : QueueItem} {input : QueueUpdateInput}
    {deadline : Option Time} (h : appendOnly env db qitem input deadline = .ok db') :
    Kept X db db' := by
  unfold appendOnly at h
  obtain ⟨-, -, h⟩ := bind_eq_ok.mp h
  split at h
  · split at h
    · obtain ⟨-, -, h⟩ := bind_eq_ok.mp h
      simp at h
    · simp at h
  · cases pure_eq_ok.mp h
    have hsum : RowsOnly (fun _ => False) db (if input.hasValidSummary = true then
        db.updateRow input.qitemId fun r => { r with summary := input.summary } else db) := by
      split
      · exact rowsOnly_updateRow_quiet _ _ (fun r => { r with summary := input.summary })
          (fun _ => rfl) fun _ => rfl
      · exact rowsOnly_of_eq rfl rfl rfl rfl
    refine kept_append_emit hi (hsum.trans ?_) _ _ _
    cases deadline with
    | none => exact rowsOnly_of_eq rfl rfl rfl rfl
    | some t =>
      exact rowsOnly_updateRow_quiet _ _ (fun r => { r with closureRequiredAt := some t })
        (fun _ => rfl) fun _ => rfl

/-- **Updates keep timers with their parks.** -/
theorem update_kept (hi : TimerInv db) {input : QueueUpdateInput}
    (h : update env db input = .ok db') : Kept X db db' := by
  unfold update at h
  obtain ⟨qitem, hr, h⟩ := bind_eq_ok.mp h
  have hr := requireItem_eq_ok.mp hr
  obtain ⟨deadline, -, h⟩ := bind_eq_ok.mp h
  split at h
  · exact appendOnly_kept hi h
  · split at h
    · exact appendOnly_kept hi h
    · rename_i state hstate
      obtain ⟨plan, hplan, h⟩ := bind_eq_ok.mp h
      obtain ⟨⟨wake, jobs⟩, harm, h⟩ := bind_eq_ok.mp h
      have ha := armParkWake_eq_ok hi.toLedger harm
      have hplan := admitUpdate_eq_ok hplan
      have hid := Db.getById_id hr
      unfold applyUpdate at h
      simp only [hid] at h
      have k₁ := fun t => settleParkWake_kept (t := t) hi hr hplan ha
      have hend : ∀ {d : Db} {e : RigEvent}, Kept (fun J => db.jobs.get? J = none) db d →
          Kept X db (d.emit e) := fun k =>
        Kept.of_fresh (k.trans (kept_tail k.timers rfl rfl rfl rfl)) fun J hJ => .inr hJ
      split at h
      · obtain ⟨db₁, hsettled, h⟩ := bind_eq_ok.mp h
        cases pure_eq_ok.mp h
        cases pure_eq_ok.mp hsettled
        exact hend (k₁ _)
      · obtain ⟨db₁, hprop, h⟩ := bind_eq_ok.mp h
        cases pure_eq_ok.mp h
        exact hend ((k₁ _).trans (propagate_kept (k₁ _).timers hprop))

/-! ### Claims and reroutes -/

lemma claim_kept (hi : TimerInv db) {input : QueueClaimInput} (h : claim env db input = .ok db') :
    Kept X db db' := by
  unfold claim at h
  obtain ⟨_, -, h⟩ := bind_eq_ok.mp h
  obtain ⟨_, -, h⟩ := bind_eq_ok.mp h
  obtain ⟨_, -, h⟩ := bind_eq_ok.mp h
  cases pure_eq_ok.mp h
  have k := fun t => kept_exit (X := X) hi (rowsOnly_write db input.qitemId
    (claimRow env input.destinationSession) (fun _ => rfl) env.now t) "park_ended:claimed"
  exact (k _).trans (kept_tail (k _).timers rfl rfl rfl rfl)

lemma unclaim_kept (hi : TimerInv db) {input : QueueUnclaimInput}
    (h : unclaim env db input = .ok db') : Kept X db db' := by
  have ht := unclaim_touched h
  unfold unclaim at h
  obtain ⟨qitem, hr, h⟩ := bind_eq_ok.mp h
  obtain ⟨_, hs, h⟩ := bind_eq_ok.mp h
  have hr := requireItem_eq_ok.mp hr
  have hs : qitem.state = .inProgress := by simpa using refuseIf_eq_ok.mp hs
  cases pure_eq_ok.mp h
  refine RowsOnly.kept (rowsOnly_of_sweep (w := .release) (fun k => ?_) rfl rfl ?_) hi
  · by_cases hk : k = input.qitemId
    · subst hk
      exact .inr ⟨⟨qitem, hr, hs⟩, ht.1⟩
    · exact .inl (ht.2 k hk)
  · exact Nat.le_succ _

lemma sweep_tables (body : Db → String → Db) (ks : List String)
    (hbody : ∀ d k, (body d k).wakes = d.wakes ∧ (body d k).jobs = d.jobs ∧
      d.nextTransitionId ≤ (body d k).nextTransitionId) (db : Db) :
    (ks.foldl body db).wakes = db.wakes ∧ (ks.foldl body db).jobs = db.jobs ∧
      db.nextTransitionId ≤ (ks.foldl body db).nextTransitionId := by
  refine (path_of_foldl body ks db).invariant (I := fun d => d.wakes = db.wakes ∧
    d.jobs = db.jobs ∧ db.nextTransitionId ≤ d.nextTransitionId) ?_ ⟨rfl, rfl, le_rfl⟩
  rintro d k _ rfl ⟨hw, hj, hl⟩
  obtain ⟨hw', hj', hl'⟩ := hbody d k
  exact ⟨hw'.trans hw, hj'.trans hj, hl.trans hl'⟩

lemma releaseClaims_kept (hi : TimerInv db) (g : String) :
    Kept X db (releaseClaimsByGeneration env db g) := by
  have h : (releaseClaimsByGeneration env db g).wakes = db.wakes ∧
      (releaseClaimsByGeneration env db g).jobs = db.jobs ∧
      db.nextTransitionId ≤ (releaseClaimsByGeneration env db g).nextTransitionId := by
    unfold releaseClaimsByGeneration
    split
    · exact ⟨rfl, rfl, le_rfl⟩
    · exact sweep_tables (releaseClaim env) _
        (fun d k => ⟨rfl, rfl, Nat.le_succ d.nextTransitionId⟩) db
  exact (rowsOnly_of_sweep (releaseClaims_view env db g) h.1 h.2.1 h.2.2).kept hi

lemma transferClaims_kept (hi : TimerInv db) (a b note : String) :
    Kept X db (transferClaimsByGeneration env db a b note) := by
  have h : (transferClaimsByGeneration env db a b note).wakes = db.wakes ∧
      (transferClaimsByGeneration env db a b note).jobs = db.jobs ∧
      db.nextTransitionId ≤ (transferClaimsByGeneration env db a b note).nextTransitionId := by
    unfold transferClaimsByGeneration
    split
    · exact ⟨rfl, rfl, le_rfl⟩
    · exact sweep_tables (transferClaim env b note) _
        (fun d k => ⟨rfl, rfl, Nat.le_succ d.nextTransitionId⟩) db
  exact (rowsOnly_of_sweep (transferClaims_view env db a b note) h.1 h.2.1 h.2.2).kept hi

lemma create_kept (hi : TimerInv db) {input : QueueCreateInput} {reply : CreateReply}
    (h : create env db input = .ok (reply, db')) : Kept X db db' := by
  rcases create_inserted h with ⟨_, _, -, rfl, -⟩ | ⟨-, s, -, hins⟩
  · exact .refl hi
  · exact (rowsOnly_of_inserted hins).kept hi

lemma routeToFallback_kept (hi : TimerInv db) {input : FallbackInput}
    (h : routeToFallback env db input = .ok db') : Kept X db db' := by
  unfold routeToFallback at h
  obtain ⟨qitem, -, h⟩ := bind_eq_ok.mp h
  cases pure_eq_ok.mp h
  have hrow := rowsOnly_updateRow_quiet db input.qitemId
    (fallbackRow env input (fallbackResolution db qitem input.reason)) (fun _ => rfl) fun _ => rfl
  have hend : ∀ {d : Db} {ts : Time} {t : TransitionInput} {e : RigEvent}, Kept X db d →
      Kept X db ((d.append ts t).emit e) := fun k =>
    k.trans (RowsOnly.kept ((rowsOnly_append _ _ _).trans (rowsOnly_emit _ _)) k.timers)
  refine hend ?_
  split
  · exact hrow.kept hi
  · exact kept_exit hi (hrow.mono fun _ h => h.elim) _

/-! ### Jobs -/

lemma resolve_of_free {J : String} (h : free db J) :
    resolveWatchdogPreDeliveryTerminalReason db J = none := by
  have hnone : findQitemsByGeneratedTimer db J = [] := by
    unfold findQitemsByGeneratedTimer
    rw [List.filter_eq_nil_iff.mpr]
    · rfl
    · intro w hw hp
      simp only [Bool.and_eq_true, decide_eq_true_eq] at hp
      exact h.2 w hw hp.1
  simp [resolveWatchdogPreDeliveryTerminalReason, hnone]

lemma terminalBeforeDelivery_kept (hi : TimerInv db) (j : String) :
    Kept X db (terminalBeforeDelivery db j) := by
  unfold terminalBeforeDelivery
  split
  · split
    · rename_i reason hreason
      refine kept_setJobs hi (.markTerminal _ _ _) fun J _ hf => oneShot_markTerminal hf.1 ?_
      rintro rfl
      cases (resolve_of_free hf).symm.trans hreason
    · exact .refl hi
  · exact .refl hi

lemma refreshQueueWait_kept (hi : TimerInv db) (changed : Option String) (proof : Bool)
    (j : String) : Kept X db (refreshQueueWait env changed proof db j) := by
  unfold refreshQueueWait
  split
  · exact .refl hi
  · rename_i job target message w hbind
    obtain ⟨job', hget, hread⟩ := Option.bind_eq_some_iff.mp hbind
    obtain ⟨⟨t, m, w'⟩, hread, he⟩ := Option.map_eq_some_iff.mp hread
    cases he
    obtain ⟨hspec, hwait⟩ := readWait_eq_some hread
    have hne : ∀ J, free db J → J ≠ j := by
      rintro J ⟨⟨i, hi, -, hn⟩, -⟩ rfl
      cases hget.symm.trans hi
      rw [hwait] at hn
      cases hn
    split
    · exact .refl hi
    · split
      · split
        · exact .refl hi
        · exact kept_setJobs hi (.markTerminal _ _ _) fun J _ hf =>
            oneShot_markTerminal hf.1 (hne J hf)
      · extract_lets current due revision
        split
        · exact .refl hi
        · refine kept_setJobs hi (.updateSchedule hget ?_ _ _) fun J _ hf =>
            oneShot_updateSchedule hf.1 (hne J hf)
          rw [hspec]
          rfl

lemma refreshQueueWaits_kept (hi : TimerInv db) (changed : Option String) (proof : Bool) :
    Kept X db (refreshQueueWaits env changed proof db) := by
  unfold refreshQueueWaits
  refine (path_of_foldl (refreshQueueWait env changed proof) _ db).invariant
    (I := fun d => Kept X db d) ?_ (.refl hi)
  rintro d j _ rfl k
  exact k.trans (refreshQueueWait_kept k.timers changed proof j)

lemma waitOf_retuneSpec (m : Option String) (n : ℕ) (s : WatchdogSpec) :
    waitOf (retuneSpec m n s) = waitOf s := by
  cases s <;> rfl

/-- The job an act on jobs ends. -/
def endedBy : JobOp → Option String
  | .stop j _ | .policyTerminal j _ => some j
  | _ => none

lemma execJob_kept (hi : TimerInv db) {op : JobOp} {jobs : Jobs}
    (h : execJob env db.jobs op = .ok jobs) :
    Kept (fun J => endedBy op = some J) db (db.setJobs jobs) := by
  cases op with
  | register input =>
    obtain ⟨hfresh, hother, -⟩ := register_eq_ok h
    refine kept_setJobs hi (.register h) fun J _ hf => ?_
    obtain ⟨j, hj, hrest⟩ := hf.1
    refine ⟨j, (hother J ?_).trans hj, hrest⟩
    rintro rfl
    cases hfresh.symm.trans hj
  | stop j reason =>
    replace h : stop db.jobs j reason = .ok jobs := h
    unfold stop at h
    split at h
    · simp at h
    · split at h
      · simp at h
      · cases pure_eq_ok.mp h
        exact .refl hi
      · cases pure_eq_ok.mp h
        refine kept_setJobs hi (.of_update _ _ _ _ (fun _ => rfl) fun _ h => by cases h)
          fun J hJ hf => ?_
        obtain ⟨i, hi, hrest⟩ := hf.1
        exact ⟨i, (Table.get?_update_ne _ _ _ fun e => hJ (congrArg some e.symm)).trans hi, hrest⟩
  | policyTerminal j reason =>
    cases pure_eq_ok.mp h
    split
    · exact kept_setJobs hi (.markTerminal _ _ _) fun J hJ hf =>
        oneShot_markTerminal hf.1 fun e => hJ (congrArg some e.symm)
    · exact .refl hi
  | evaluated j =>
    cases pure_eq_ok.mp h
    refine kept_setJobs hi (.recordEvaluation _ _ _) fun J _ hf => ?_
    obtain ⟨i, hi, ha, hw⟩ := hf.1
    unfold recordEvaluation
    by_cases he : J = j
    · subst he
      rw [oneShot, Table.get?_update_self, hi]
      exact ⟨_, rfl, ha, hw⟩
    · exact ⟨i, (Table.get?_update_ne _ _ _ he).trans hi, ha, hw⟩
  | retune j m n =>
    cases pure_eq_ok.mp h
    refine kept_setJobs hi (.of_updateWhere _ _ _ _ (fun i _ _ => waitOf_retuneSpec m n i.spec)
      fun _ h => h) fun J _ hf => ?_
    obtain ⟨i, hi, ha, hw⟩ := hf.1
    rw [oneShot, Table.get?_updateWhere, hi]
    refine ⟨_, rfl, ?_, ?_⟩
    · unfold Table.rewrite
      split <;> exact ha
    · unfold Table.rewrite
      split
      · exact (waitOf_retuneSpec m n i.spec).trans hw
      · exact hw

/-! ### Delivered attempts -/

lemma mem_blocked {J : String} {b : Bool} {t : String × ParkWake}
    (h : t ∈ findBlockedQitemsByWatchdog db J b) :
    ∃ w ∈ db.wakes, w.qitemId = t.1 ∧ w.wake = t.2 ∧ w.wake.ref = .job J := by
  unfold findBlockedQitemsByWatchdog at h
  rw [List.mem_dedup] at h
  obtain ⟨w, hw, rfl⟩ := List.mem_map.mp h
  have hw := (List.mem_filter.mp (List.mem_filter.mp hw).1)
  simp only [Bool.and_eq_true, Bool.or_eq_true, decide_eq_true_eq] at hw
  refine ⟨w, hw.1, rfl, rfl, ?_⟩
  rcases hw.2.2 with e | e
  · rw [e]
    rfl
  · rw [e]
    rfl

lemma mem_generated {J q : String} : q ∈ findQitemsByGeneratedTimer db J ↔
    (db.getById q).isSome ∧ ∃ w ∈ db.wakes, timerOf w J ∧ w.qitemId = q := by
  unfold findQitemsByGeneratedTimer timerOf
  rw [List.mem_dedup, List.mem_map]
  constructor
  · rintro ⟨w, hw, rfl⟩
    obtain ⟨hw, hp⟩ := List.mem_filter.mp hw
    simp only [Bool.and_eq_true, decide_eq_true_eq] at hp
    exact ⟨hp.2, w, hw, hp.1, rfl⟩
  · rintro ⟨hs, w, hw, ht, rfl⟩
    exact ⟨w, List.mem_filter.mpr ⟨hw, by simp [ht.1, ht.2, hs]⟩, rfl⟩

lemma mem_current {J q : String} : q ∈ findCurrentQitemsByGeneratedTimer db J ↔
    q ∈ findQitemsByGeneratedTimer db J ∧ isBlocked db q = true ∧
      (latestArmed db q).map (fun w => w.wake.ref) = some (.job J) := by
  unfold findCurrentQitemsByGeneratedTimer
  rw [List.mem_filter, Bool.and_eq_true, ← status_ref, Option.map_eq_some_iff,
    Option.any_eq_true]
  simp

/-- **A consumed attachment owns nothing**: after an ordinary receipt no parked row holds the job
attached. -/
lemma attachments_consumed {a : WakeAttempt} {fired : List WakeRecord}
    (h : Receipts a (findBlockedQitemsByWatchdog db a.jobId true) db db' fired) (hl : Ledger db)
    (hr : a.retryAt = none) (hs : a.deliveryStatus ≠ "retained")
    (hrep : isRepeatingTimer db.jobs a.jobId = false) :
    findLiveQitemsByAttachedWatchdog db' a.jobId = [] := by
  unfold findLiveQitemsByAttachedWatchdog
  rw [List.filter_eq_nil_iff.mpr]
  · rfl
  intro w hw hp
  simp only [h.jobs, hrep, Bool.and_eq_true, decide_eq_true_eq, Bool.not_false, Bool.true_or,
    Bool.and_true, Bool.not_eq_true'] at hp
  obtain ⟨⟨⟨⟨harmed, hwake⟩, hblocked⟩, hlatest⟩, hopen⟩ := hp
  have hw := h.mem_armed hw harmed
  rw [isBlocked_congr h.items] at hblocked
  rw [h.latestArmed] at hlatest
  rw [List.any_eq_false] at hopen
  -- no attempt consumed the attachment before, so it was a target of this one
  have hnot : consumed db w = false := by
    unfold consumed
    rw [List.any_eq_false]
    intro f hf
    have := hopen f (h.wakes ▸ List.mem_append_right _ hf)
    simpa using this
  have htarget : (w.qitemId, w.wake) ∈ findBlockedQitemsByWatchdog db a.jobId true := by
    unfold findBlockedQitemsByWatchdog
    rw [List.mem_dedup]
    refine List.mem_map.mpr ⟨w, List.mem_filter.mpr ⟨List.mem_filter.mpr ⟨hw, ?_⟩, ?_⟩, rfl⟩
    · simp [harmed, hwake]
    · simp [hblocked, hlatest, hnot]
  obtain ⟨f, hf, hfq, hfw⟩ := h.all hr _ htarget
  refine hopen f (h.wakes ▸ List.mem_append_left _ hf) ?_
  have hafter : firedAfter w f = some a.deliveryStatus :=
    firedAfter_eq_some.mpr ⟨(h.phase f hf).2, hfq, by rw [hfw],
      lt_of_lt_of_le (hl.ids w hw) (h.ids f hf).1⟩
  simp [hafter, hs]

lemma backOff_eq_some {jobs jobs' : Jobs} {J : String} {s : Option String}
    (h : backOffQueueWait env jobs J s = some jobs') :
    ∃ j q, jobs.get? J = some j ∧ waitOf j.spec = some q ∧ Milder jobs jobs' ∧
      ∀ K, oneShot jobs K → oneShot jobs' K := by
  unfold backOffQueueWait at h
  simp only [Option.bind_eq_bind, Option.bind_eq_some_iff, Option.pure_def, Option.some.injEq] at h
  obtain ⟨j, hj, ⟨t, m, w⟩, hr, rfl⟩ := h
  obtain ⟨hs, hw⟩ := readWait_eq_some hr
  refine ⟨j, w.qitemId, hj, hw, .updateSchedule hj ?_ _ _, fun K hK => oneShot_updateSchedule hK ?_⟩
  · rw [hs]
    rfl
  · rintro rfl
    obtain ⟨j', hj', -, hn⟩ := hK
    cases hj.symm.trans hj'
    rw [hw] at hn
    cases hn

/-- **An ordinary receipt ends the one-shot timer it consumed**, and no other job. -/
lemma settleFiredJob_spec {a : WakeAttempt} {fired : List WakeRecord}
    (h : Receipts a (findBlockedQitemsByWatchdog db a.jobId true) db db' fired) (hl : Ledger db)
    (hr : a.retryAt = none) (hs : a.deliveryStatus ≠ "retained") :
    ∃ jobs, settleFiredJob env a (!(findCurrentQitemsByGeneratedTimer db a.jobId).isEmpty) db' =
        db'.setJobs jobs ∧ Milder db.jobs jobs ∧
      (∀ w ∈ db.wakes, timerOf w a.jobId → ¬ oneShot jobs a.jobId) ∧
      ∀ J, free db J → oneShot jobs J := by
  have hfree : ∀ {J w}, free db J → w ∈ db.wakes → timerOf w a.jobId → J ≠ a.jobId := by
    rintro J w hf hw ht rfl
    exact hf.2 w hw ht
  unfold settleFiredJob
  rw [h.jobs]
  split
  · rename_i hgen
    have hne : findCurrentQitemsByGeneratedTimer db a.jobId ≠ [] := by simpa using hgen
    obtain ⟨q, hq⟩ := List.exists_mem_of_ne_nil _ hne
    obtain ⟨-, w, hw, ht, -⟩ := mem_generated.mp (mem_current.mp hq).1
    split
    · rename_i jobs hback
      obtain ⟨j, q', hj, hwait, hm, hspare⟩ := backOff_eq_some hback
      refine ⟨jobs, rfl, hm, fun _ _ _ ho => ?_, fun J hf => hspare J hf.1⟩
      obtain ⟨j', hj', -, hn⟩ := hm.oneShot_of (by simp [hj]) ho
      cases hj.symm.trans hj'
      rw [hwait] at hn
      cases hn
    · exact ⟨_, rfl, .markTerminal _ _ _, fun _ _ _ => not_oneShot_markTerminal _ _ _,
        fun J hf => oneShot_markTerminal hf.1 (hfree hf hw ht)⟩
  · rename_i hgen
    have hcurrent : findCurrentQitemsByGeneratedTimer db a.jobId = [] := by simpa using hgen
    split
    · rename_i hnone
      refine ⟨db.jobs, by rw [← h.jobs]; rfl, .refl _, fun _ _ _ ho => ?_, fun J hf => hf.1⟩
      obtain ⟨j, hj, -, hn⟩ := ho
      simp [hj, isQueueWait_eq, hn] at hnone
    · rename_i job hsome
      obtain ⟨hjob, hwait⟩ := Option.filter_eq_some_iff.mp hsome
      have hrep : isRepeatingTimer db.jobs a.jobId = false := by
        simp only [Bool.not_eq_true'] at hwait
        simp [isRepeatingTimer, hjob, hwait]
      have hcurrent' : findCurrentQitemsByGeneratedTimer db' a.jobId = [] := by
        rw [List.eq_nil_iff_forall_not_mem] at hcurrent ⊢
        intro q hq
        obtain ⟨hg, hb, hlatest⟩ := mem_current.mp hq
        obtain ⟨hsome, w, hw, ht, hwq⟩ := mem_generated.mp hg
        refine hcurrent q (mem_current.mpr ⟨mem_generated.mpr ⟨?_, w, h.mem_armed hw ht.1, ht, hwq⟩,
          (isBlocked_congr h.items q) ▸ hb, ?_⟩)
        · unfold Db.getById at hsome ⊢
          rwa [← h.items]
        · rwa [← h.latestArmed]
      have hlive := attachments_consumed h hl hr hs hrep
      split
      · rename_i reason hreason
        refine ⟨_, rfl, ?_, fun _ _ _ => ?_, fun J hf => ?_⟩
        · exact .markTerminal _ _ _
        · exact not_oneShot_markTerminal _ _ _
        · refine oneShot_markTerminal hf.1 ?_
          rintro rfl
          have hf' : free db' a.jobId :=
            ⟨h.jobs ▸ hf.1, fun w hw ht => hf.2 w (h.mem_armed hw ht.1) ht⟩
          cases (resolve_of_free hf').symm.trans hreason
      · rename_i hnone
        refine ⟨db.jobs, by rw [← h.jobs]; rfl, .refl _, fun w hw ht _ => ?_, fun J hf => hf.1⟩
        have hg : findQitemsByGeneratedTimer db' a.jobId ≠ [] := by
          refine List.ne_nil_of_mem (mem_generated.mpr ⟨?_, w, ?_, ht, rfl⟩) (a := w.qitemId)
          · unfold Db.getById
            rw [h.items]
            exact hl.rows w hw
          · exact h.wakes ▸ List.mem_append_right _ hw
        simp [resolveWatchdogPreDeliveryTerminalReason, hcurrent', hlive, hg] at hnone

/-- **A firing** ends the generated timers it consumes, and the job of the provider-limit blockers
it resolves. -/
theorem accountWake_kept (hi : TimerInv db) {a : WakeAttempt} (h : accountWake env db a = .ok db') :
    Kept (fun J => J = a.jobId ∧ resolvedTargets db a ≠ []) db db' := by
  unfold accountWake at h
  split at h
  swap
  · cases pure_eq_ok.mp h
    exact .refl hi
  rename_i hactive
  unfold recordWatchdogWakeAttempt at h
  split at h
  · cases pure_eq_ok.mp h
    exact .refl hi
  simp only at h
  obtain ⟨fired, hrec⟩ := receipts env a (findBlockedQitemsByWatchdog db a.jobId true) db
  obtain ⟨db₁, he⟩ : ∃ d, d = (findBlockedQitemsByWatchdog db a.jobId true).foldl
    (recordFired env a) db := ⟨_, rfl⟩
  rw [← he] at h hrec
  have hkept : ∀ {X : String → Prop} {jobs : Jobs}, Milder db.jobs jobs →
      (a.retryAt = none → a.deliveryStatus ≠ "retained" →
        ∀ w ∈ db.wakes, timerOf w a.jobId → ¬ oneShot jobs a.jobId) →
      (∀ J, ¬ X J → free db J → oneShot jobs J) → Kept X db (db₁.setJobs jobs) := by
    intro X jobs hm hend hf
    refine ⟨hrec.timerInv hi (fun t ht => mem_blocked ht) hm hend, fun k hk => ?_, hm.known,
      fun J hX hfree => ⟨hf J hX hfree, fun w hw ht => hfree.2 w (hrec.mem_armed hw ht.1) ht⟩⟩
    change (db₁.getById k).isSome
    unfold Db.getById at hk ⊢
    rwa [hrec.items]
  split at h
  · rename_i howed
    cases pure_eq_ok.mp h
    have hsame : db' = db'.setJobs db.jobs := by
      rw [← hrec.jobs]
      rfl
    rw [hsame]
    refine hkept (.refl _) (fun hr hs => ?_) fun J _ hf => hf.1
    simp [hr, hs] at howed
  · rename_i howed
    simp only [Bool.or_eq_true, decide_eq_true_eq, not_or] at howed
    have hr : a.retryAt = none := by simpa using howed.1
    split at h
    · cases pure_eq_ok.mp h
      obtain ⟨jobs, hj, hm, hend, hf⟩ := settleFiredJob_spec hrec hi.toLedger hr howed.2
      rw [hj]
      exact hkept hm (fun _ _ => hend) fun J _ => hf J
    · rename_i hsome
      have htargets : resolvedTargets db a ≠ [] := by
        have hlive : ¬ a.deliveryStatus = "retained" := howed.2
        simp only [resolvedTargets, hactive, hr]
        simpa [hlive] using hsome
      have k : Kept (fun J => J = a.jobId ∧ resolvedTargets db a ≠ []) db
          (db₁.setJobs (markTerminal db₁.jobs a.jobId "usage_limit_expiry_fired")) := by
        rw [hrec.jobs]
        exact hkept (.markTerminal _ _ _) (fun _ _ _ _ _ => not_oneShot_markTerminal _ _ _)
          fun J hJ hf => oneShot_markTerminal hf.1 fun e => hJ ⟨e, htargets⟩
      refine k.trans ((path_of_foldlM h).invariant (I := fun d => Kept _ _ d) ?_ (.refl k.timers))
      exact fun d t d' hstep k' => k'.trans (update_kept k'.timers hstep)

/-! ### Runs -/

/-- The operations that may end a job no park generated: an act on the job itself, or the delivery
of the job to a provider-limit blocker it resolves. -/
def mayEnd (db : Db) (op : Op) (J : String) : Prop :=
  match op with
  | .job act => endedBy act = some J
  | .wakeAttempt a => J = a.jobId ∧ resolvedTargets db a ≠ []
  | _ => False

/-- **Every operation keeps the timer invariant** and the jobs no park generated. -/
theorem exec_kept (hi : TimerInv db) {op : Op} (h : exec env db op = .ok db') :
    Kept (mayEnd db op) db db' := by
  cases op with
  | create i =>
    obtain ⟨reply, h⟩ := map_snd_eq_ok h
    exact create_kept hi h
  | claim i => exact claim_kept hi h
  | unclaim i => exact unclaim_kept hi h
  | update i => exact update_kept hi h
  | handoff i => exact handoffWith_kept hi h
  | handoffAndComplete i => exact handoffWith_kept hi h
  | closeCrossHost i =>
    obtain ⟨absorbed, h⟩ := map_snd_eq_ok h
    exact closeCrossHost_kept hi h
  | routeToFallback i => exact routeToFallback_kept hi h
  | releaseClaims g =>
    cases pure_eq_ok.mp h
    exact releaseClaims_kept hi g
  | transferClaims a b note =>
    cases pure_eq_ok.mp h
    exact transferClaims_kept hi a b note
  | wakeAttempt a => exact accountWake_kept hi h
  | terminalBeforeDelivery j =>
    cases pure_eq_ok.mp h
    exact terminalBeforeDelivery_kept hi j
  | refreshWaits changed proof =>
    cases pure_eq_ok.mp h
    exact refreshQueueWaits_kept hi changed proof
  | job act =>
    cases hj : execJob env db.jobs act with
    | error e => simp [exec, hj, Except.map] at h
    | ok jobs =>
      obtain rfl : db.setJobs jobs = db' := by simpa [exec, hj, Except.map] using h
      exact execJob_kept hi hj

lemma timerInv_empty : TimerInv Db.empty where
  known w hw := by cases hw
  ids w hw := by cases hw
  rows w hw := by cases hw
  own w hw := by cases hw
  unfired w hw := by cases hw
  latest w hw := by cases hw
  parked q J h := by
    obtain ⟨-, -, w, hw, -⟩ := h
    cases hw

lemma admitted_wakes (hi : TimerInv db) {J : String}
    (hactive : (db.jobs.get? J).any (fun j => j.state = .active) = true)
    (hgen : findQitemsByGeneratedTimer db J ≠ [])
    (hpre : resolveWatchdogPreDeliveryTerminalReason db J = none) :
    ∃ w ∈ db.wakes, (w.wake = .watchdog J ∨ w.wake = .timer J) ∧ isBlocked db w.qitemId = true ∧
      latestArmed db w.qitemId = some w ∧
      (isRepeatingTimer db.jobs J = true ∨ consumed db w = false) := by
  have hshot : isRepeatingTimer db.jobs J = false → oneShot db.jobs J := by
    intro hrep
    obtain ⟨j, hj, hs⟩ := (Option.any_eq_true _ _).mp hactive
    have hs : j.state = .active := by simpa using hs
    refine ⟨j, hj, hs, ?_⟩
    simpa [isRepeatingTimer, hj, hs, isQueueWait_eq] using hrep
  obtain ⟨q₀, hq₀⟩ := List.exists_mem_of_ne_nil _ hgen
  obtain ⟨-, w₀, hw₀, ht₀, -⟩ := mem_generated.mp hq₀
  unfold resolveWatchdogPreDeliveryTerminalReason at hpre
  split at hpre
  · rename_i hcurrent
    have hne : findCurrentQitemsByGeneratedTimer db J ≠ [] := by
      simpa [List.isEmpty_iff, hgen] using hcurrent
    obtain ⟨q, hq⟩ := List.exists_mem_of_ne_nil _ hne
    obtain ⟨-, hb, hlatest⟩ := mem_current.mp hq
    obtain ⟨w, hw, href⟩ := Option.map_eq_some_iff.mp hlatest
    obtain ⟨hmem, rfl, -⟩ := mem_of_latestArmed hw
    refine ⟨w, hmem, ?_, hb, hw, ?_⟩
    · cases hk : w.wake with
      | watchdog J' =>
        rw [hk] at href
        cases href
        exact .inl rfl
      | timer J' =>
        rw [hk] at href
        cases href
        exact .inr rfl
      | blocker b =>
        rw [hk] at href
        cases href
    · -- a one-shot timer some park generated has had held-back attempts only
      cases hrep : isRepeatingTimer db.jobs J with
      | true => exact .inl rfl
      | false =>
        refine .inr ?_
        unfold consumed
        rw [List.any_eq_false]
        intro f hf
        cases hfired : firedAfter w f with
        | none => simp
        | some s =>
          obtain ⟨hp, -, hr, -⟩ := firedAfter_eq_some.mp hfired
          simp [hi.unfired w₀ hw₀ J ht₀ (hshot hrep) f hf s hp (hr.trans href)]
  · split at hpre
    · rename_i hlive
      have hne : findLiveQitemsByAttachedWatchdog db J ≠ [] := by simpa using hlive
      obtain ⟨q, hq⟩ := List.exists_mem_of_ne_nil _ hne
      unfold findLiveQitemsByAttachedWatchdog at hq
      rw [List.mem_dedup] at hq
      obtain ⟨w, hw, rfl⟩ := List.mem_map.mp hq
      obtain ⟨hw, hp⟩ := List.mem_filter.mp hw
      simp only [Bool.and_eq_true, decide_eq_true_eq, Bool.not_eq_true'] at hp
      obtain ⟨⟨⟨⟨-, hwake⟩, hb⟩, hlatest⟩, hopen⟩ := hp
      refine ⟨w, hw, .inl hwake, hb, hlatest, ?_⟩
      cases hrep : isRepeatingTimer db.jobs J with
      | true => exact .inl rfl
      | false => exact .inr (by simpa [consumed, hrep] using hopen)
    · cases hpre

/-- **A park timer never outlives its park**: in every reachable state, an active one-shot timer no
row has attached is the latest continuation of its parked row; an active generated timer admitted
for delivery has a parked row it can wake; and no operation ends a job that is no repeating wait and
no park's timer, but for an act on that job and its delivery to a provider-limit blocker. -/
theorem park_timers_end_with_parks {ls : List (Env × Op)} (h : Path commits Db.empty ls db) :
    (∀ w ∈ db.wakes, ∀ J, timerOf w J → oneShot db.jobs J → ¬ attached db J →
        isBlocked db w.qitemId = true ∧ latestArmed db w.qitemId = some w) ∧
      (∀ J, (db.jobs.get? J).any (fun j => j.state = .active) = true →
        findQitemsByGeneratedTimer db J ≠ [] →
        resolveWatchdogPreDeliveryTerminalReason db J = none →
        ∃ w ∈ db.wakes, (w.wake = .watchdog J ∨ w.wake = .timer J) ∧
          isBlocked db w.qitemId = true ∧ latestArmed db w.qitemId = some w ∧
          (isRepeatingTimer db.jobs J = true ∨ consumed db w = false)) ∧
      ∀ l db', commits db l db' → ∀ J, free db J → ¬ mayEnd db l.2 J → free db' J := by
  have hi : TimerInv db := h.invariant (I := TimerInv)
    (fun _ _ _ hstep hI => (exec_kept hI hstep).timers) timerInv_empty
  refine ⟨fun w hw J ht ho ha => ⟨?_, hi.latest w hw J ht ho ha⟩, fun J => admitted_wakes hi,
    fun l db' hl J hf hJ => (exec_kept hi hl).free J hJ hf⟩
  exact hi.parked w.qitemId J ⟨ho, ha, w, hw, ht, rfl⟩

/-- A row is parked with a timer of its own. -/
def parkedWithTimer : List (Env × Op) :=
  [(plainEnv 0 0 "", .create
      { qitemId := some "qitem-a", sourceSession := "lead@rig", destinationSession := "dev@rig",
        body := "work" }),
   (plainEnv 1000 0 "job", .update
      { qitemId := "qitem-a", actorSession := "dev@rig", state := some .blocked,
        blockedOn := some "external:review", wakeAfterSeconds := some 60 })]

theorem park_timers_end_with_parks_run : ∃ db, Path commits Db.empty parkedWithTimer db ∧
    (∃ w ∈ db.wakes, timerOf w "job" ∧ isBlocked db w.qitemId = true ∧
      latestArmed db w.qitemId = some w) := by
  obtain ⟨db, hrun, hp⟩ := exists_run Db.empty parkedWithTimer
    (fun db => ((db.jobs.get? "job").any fun j => j.state = .active && !j.spec.isQueueWait) &&
      db.wakes.any (fun w => w.phase = .armed && w.wake = .timer "job") &&
      db.wakes.all fun w => w.wake ≠ .watchdog "job") (by decide)
  simp only [Bool.and_eq_true] at hp
  obtain ⟨⟨hj, hw⟩, hn⟩ := hp
  obtain ⟨j, hj, hs⟩ := (Option.any_eq_true _ _).mp hj
  obtain ⟨w, hw, ht⟩ := List.any_eq_true.mp hw
  simp only [Bool.and_eq_true, decide_eq_true_eq, isQueueWait_eq] at hs ht
  refine ⟨db, hrun, w, hw, ht, (park_timers_end_with_parks hrun).1 w hw "job" ht
    ⟨j, hj, hs.1, by simpa using hs.2⟩ ?_⟩
  rintro ⟨w', hw', -, he⟩
  simpa [he] using List.all_eq_true.mp hn w' hw'

/-- A row is parked on a gate with no timer, and a job somebody registers claims to be its wait. -/
def waitRegisteredByHand : List (Env × Op) :=
  [(plainEnv 0 0 "", .create
      { qitemId := some "qitem-a", sourceSession := "lead@rig", destinationSession := "dev@rig",
        body := "work" }),
   (plainEnv 1000 0 "", .update
      { qitemId := "qitem-a", actorSession := "dev@rig", state := some .blocked,
        blockedOn := some "fold:gate" }),
   (plainEnv 2000 0 "job", .job (.register
      { policy := "periodic-reminder", targetSession := "dev@rig", intervalSeconds := 60,
        registeredBySession := "ops@rig"
        spec := .queueWait "dev@rig" "look at the gate"
          { qitemId := "qitem-a", blocker := some "fold:gate", blockerTransition := none,
            evidence := none, initialSeconds := 60, maxSeconds := 60, eventPending := false } }))]

/-- The row is claimed out of its park, and the waits are refreshed. -/
def claimedThenRefreshed : List (Env × Op) :=
  [(plainEnv 3000 0 "", .claim { qitemId := "qitem-a", destinationSession := "dev@rig" }),
   (plainEnv 4000 0 "", .refreshWaits none false)]

/-- A job no park generated can end because a row left its park: the refresh that leaves it alone
before the claim ends it after the claim. -/
theorem registered_wait_ends_with_park : ∃ db db₁ db',
    Path commits Db.empty waitRegisteredByHand db ∧
    (∀ w ∈ db.wakes, ¬ timerOf w "job") ∧
    commits db (plainEnv 2500 0 "", .refreshWaits none false) db₁ ∧ db₁.jobs.rows = db.jobs.rows ∧
    Path commits db claimedThenRefreshed db' ∧
    (db.jobs.get? "job").any (fun j => j.state = .active) = true ∧
    (db'.jobs.get? "job").any (fun j => j.state = .terminal) = true := by
  obtain ⟨db, hrun, hp⟩ := exists_run Db.empty waitRegisteredByHand
    (fun db => (db.wakes.all fun w => w.wake ≠ .timer "job") &&
      ((refreshQueueWaits (plainEnv 2500 0 "") none false db).jobs.rows = db.jobs.rows) &&
      ((db.jobs.get? "job").any fun j => j.state = .active) &&
      (runOps db claimedThenRefreshed).toOption.any fun d =>
        (d.jobs.get? "job").any fun j => j.state = .terminal) (by decide)
  simp only [Bool.and_eq_true, decide_eq_true_eq] at hp
  obtain ⟨⟨⟨hw, hsame⟩, hactive⟩, hend⟩ := hp
  obtain ⟨db', hrun', hend⟩ := exists_run db claimedThenRefreshed _ hend
  refine ⟨db, _, db', hrun, fun w hmem ht => ?_, rfl, hsame, hrun', hactive, hend⟩
  simpa [ht.2] using List.all_eq_true.mp hw w hmem

end OpenRig.ParkTimers
