import OpenRig.Refinement

/-!
The ledger of park timers.

An armed wake record names the continuation of one park, and a job a park generated is named by
the timer record of its row. `TimerInv` says what ties the records, the jobs and the parked rows
together; the lemmas here say which writes keep it: a row leaving its park together with the
retirement of its timer, a new continuation recorded over the old one, and a delivered attempt
with its receipts. They also follow the jobs no park generated, which these writes leave active.
-/

namespace OpenRig.ParkLedger

open OpenRig.JsText OpenRig.Closure OpenRig.QueueDb OpenRig.Watchdogs OpenRig.Verbs
open OpenRig.Firing OpenRig.Runs OpenRig.Lifecycle OpenRig.RowEffects OpenRig.Propagation
open OpenRig.Refinement

/-! ### Jobs and records -/

def waitOf : WatchdogSpec → Option String
  | .queueWait _ _ w => if w.qitemId ≠ "" then some w.qitemId else none
  | _ => none

lemma isQueueWait_eq (s : WatchdogSpec) : s.isQueueWait = (waitOf s).isSome := by
  cases s with
  | queueWait t m w =>
    unfold WatchdogSpec.isQueueWait waitOf
    by_cases h : w.qitemId = "" <;> simp [h]
  | _ => rfl

/-- The job is active and no repeating wait. -/
def oneShot (jobs : Jobs) (J : String) : Prop :=
  ∃ j, jobs.get? J = some j ∧ j.state = .active ∧ waitOf j.spec = none

/-- The record armed the job as the timer its park generated. -/
def timerOf (w : WakeRecord) (J : String) : Prop := w.phase = .armed ∧ w.wake = .timer J

/-- Some row was parked with the job attached. -/
def attached (db : Db) (J : String) : Prop :=
  ∃ w ∈ db.wakes, w.phase = .armed ∧ w.wake = .watchdog J

/-- An active one-shot timer the row's park generated, that nothing else has custody of. -/
def holds (db : Db) (q J : String) : Prop :=
  oneShot db.jobs J ∧ ¬ attached db J ∧ ∃ w ∈ db.wakes, timerOf w J ∧ w.qitemId = q

/-- An active one-shot job no park generated. -/
def free (db : Db) (J : String) : Prop := oneShot db.jobs J ∧ ∀ w ∈ db.wakes, ¬ timerOf w J

lemma mem_of_latestArmed {db : Db} {q : String} {w : WakeRecord} (h : latestArmed db q = some w) :
    w ∈ db.wakes ∧ w.qitemId = q ∧ w.phase = .armed := by
  have hp := List.find?_some h
  simp only [Bool.and_eq_true, decide_eq_true_eq] at hp
  exact ⟨List.mem_of_find?_eq_some h, hp⟩

lemma latestArmed_cons (db db' : Db) (w : WakeRecord) (h : db'.wakes = w :: db.wakes) (q : String) :
    latestArmed db' q =
      if w.qitemId = q ∧ w.phase = .armed then some w else latestArmed db q := by
  unfold latestArmed
  rw [h, List.find?_cons]
  by_cases hw : w.qitemId = q ∧ w.phase = .armed
  · simp [hw]
  · rw [if_neg hw]
    have : (decide (w.qitemId = q) && decide (w.phase = .armed)) = false := by
      simpa using hw
    rw [this]

lemma firedAfter_eq_some {w f : WakeRecord} {s : String} :
    firedAfter w f = some s ↔ f.phase = .fired s ∧ f.qitemId = w.qitemId ∧
      f.wake.ref = w.wake.ref ∧ w.transitionId < f.transitionId := by
  unfold firedAfter
  cases hp : f.phase with
  | armed => simp
  | fired t =>
    simp only [Bool.and_eq_true, decide_eq_true_eq]
    constructor
    · intro h
      split at h
      · rename_i hc
        cases h
        exact ⟨rfl, hc.1.1, hc.1.2, hc.2⟩
      · cases h
    · rintro ⟨h, h₁, h₂, h₃⟩
      cases h
      simp [h₁, h₂, h₃]

/-! ### The invariant -/

/-- What ties wake records to jobs and rows. -/
structure Ledger (db : Db) : Prop where
  /-- A named job exists. -/
  known : ∀ w ∈ db.wakes, ∀ J, w.wake.ref = .job J → (db.jobs.get? J).isSome
  ids : ∀ w ∈ db.wakes, w.transitionId < db.nextTransitionId
  rows : ∀ w ∈ db.wakes, (db.getById w.qitemId).isSome
  /-- A repeating wait armed as a row's timer is for that row. -/
  own : ∀ w ∈ db.wakes, ∀ J j q, w.wake = .timer J → db.jobs.get? J = some j →
    waitOf j.spec = some q → w.qitemId = q
  /-- No delivered attempt leaves a generated one-shot timer active. -/
  unfired : ∀ w ∈ db.wakes, ∀ J, timerOf w J → oneShot db.jobs J → ∀ f ∈ db.wakes, ∀ s,
    f.phase = .fired s → f.wake.ref = .job J → s = "retained"
  /-- A generated timer in nobody else's custody is its row's latest continuation. -/
  latest : ∀ w ∈ db.wakes, ∀ J, timerOf w J → oneShot db.jobs J → ¬ attached db J →
    latestArmed db w.qitemId = some w

/-- **The timer invariant**: the ledger, and a row whose timer is active is parked. -/
structure TimerInv (db : Db) : Prop extends Ledger db where
  parked : ∀ q J, holds db q J → isBlocked db q = true

/-- The tables after a write, as far as timers are concerned: the invariant holds, no row or job
went away, and the jobs no park generated are still active, but for those of `X`. -/
structure Kept (X : String → Prop) (db db' : Db) : Prop where
  timers : TimerInv db'
  rows : ∀ k, (db.getById k).isSome → (db'.getById k).isSome
  known : ∀ J, (db.jobs.get? J).isSome → (db'.jobs.get? J).isSome
  free : ∀ J, ¬ X J → free db J → free db' J

namespace Kept

variable {X : String → Prop} {db db' db'' : Db}

lemma refl (hi : TimerInv db) : Kept X db db := ⟨hi, fun _ => id, fun _ => id, fun _ _ => id⟩

lemma trans (h : Kept X db db') (h' : Kept X db' db'') : Kept X db db'' where
  timers := h'.timers
  rows k hk := h'.rows k (h.rows k hk)
  known J hJ := h'.known J (h.known J hJ)
  free J hX hf := h'.free J hX (h.free J hX hf)

lemma of_fresh {Y : String → Prop} (h : Kept X db db')
    (hX : ∀ J, X J → Y J ∨ db.jobs.get? J = none) : Kept Y db db' where
  timers := h.timers
  rows := h.rows
  known := h.known
  free J hY hf := by
    refine h.free J (fun hx => ?_) hf
    obtain ⟨⟨j, hj, -⟩, -⟩ := hf
    rcases hX J hx with hy | hn
    · exact hY hy
    · cases hj.symm.trans hn

end Kept

/-! ### Writes of rows -/

/-- Rows change, those of `S` perhaps leaving their park; wakes and jobs stay. -/
structure RowsOnly (S : String → Prop) (db db' : Db) : Prop where
  wakes : db'.wakes = db.wakes
  jobs : db'.jobs = db.jobs
  log : db.nextTransitionId ≤ db'.nextTransitionId
  rows : ∀ k, (db.getById k).isSome → (db'.getById k).isSome
  blocked : ∀ k, ¬ S k → isBlocked db k = true → isBlocked db' k = true

lemma RowsOnly.trans {S : String → Prop} {db db' db'' : Db} (h : RowsOnly S db db')
    (h' : RowsOnly S db' db'') : RowsOnly S db db'' where
  wakes := h'.wakes.trans h.wakes
  jobs := h'.jobs.trans h.jobs
  log := h.log.trans h'.log
  rows k hk := h'.rows k (h.rows k hk)
  blocked k hk hb := h'.blocked k hk (h.blocked k hk hb)

lemma RowsOnly.mono {S T : String → Prop} {db db' : Db} (h : RowsOnly S db db')
    (hST : ∀ k, S k → T k) :
    RowsOnly T db db' where
  wakes := h.wakes
  jobs := h.jobs
  log := h.log
  rows := h.rows
  blocked k hk hb := h.blocked k (fun hs => hk (hST k hs)) hb

lemma RowsOnly.setJobs {S : String → Prop} {db db' : Db} (h : RowsOnly S db db') (jobs : Jobs) :
    RowsOnly S (db.setJobs jobs) (db'.setJobs jobs) where
  wakes := h.wakes
  jobs := rfl
  log := h.log
  rows := h.rows
  blocked := h.blocked

lemma latestArmed_congr {db db' : Db} (h : db'.wakes = db.wakes) (q : String) :
    latestArmed db' q = latestArmed db q := by
  unfold latestArmed
  rw [h]

lemma attached_congr {db db' : Db} (h : db'.wakes = db.wakes) (J : String) :
    attached db' J ↔ attached db J := by
  unfold attached
  rw [h]

lemma holds_congr {db db' : Db} (hw : db'.wakes = db.wakes) (hj : db'.jobs = db.jobs)
    (q J : String) : holds db' q J ↔ holds db q J := by
  unfold holds
  rw [attached_congr hw, hw, hj]

lemma Ledger.rowsOnly {S : String → Prop} {db db' : Db} (h : Ledger db) (hr : RowsOnly S db db') :
    Ledger db' where
  known := by
    rw [hr.wakes, hr.jobs]
    exact h.known
  ids := by
    rw [hr.wakes]
    exact fun w hw => lt_of_lt_of_le (h.ids w hw) hr.log
  rows := by
    rw [hr.wakes]
    exact fun w hw => hr.rows _ (h.rows w hw)
  own := by
    rw [hr.wakes, hr.jobs]
    exact h.own
  unfired := by
    rw [hr.wakes, hr.jobs]
    exact h.unfired
  latest := by
    rw [hr.wakes, hr.jobs]
    intro w hw J ht ho ha
    rw [latestArmed_congr hr.wakes]
    exact h.latest w hw J ht ho (mt (attached_congr hr.wakes J).mpr ha)

lemma RowsOnly.kept {X : String → Prop} {db db' : Db} (hr : RowsOnly (fun _ => False) db db')
    (hi : TimerInv db) : Kept X db db' where
  timers := ⟨hi.toLedger.rowsOnly hr, fun q J hq =>
    hr.blocked q id (hi.parked q J ((holds_congr hr.wakes hr.jobs q J).mp hq))⟩
  rows := hr.rows
  known J hJ := hr.jobs ▸ hJ
  free J _ hf := by
    unfold ParkLedger.free
    rw [hr.wakes, hr.jobs]
    exact hf

/-! ### Writes of jobs -/

/-- Jobs stay in their table, none is revived, and a repeating wait stays one for its row. -/
structure Milder (jobs jobs' : Jobs) : Prop where
  known : ∀ J, (jobs.get? J).isSome → (jobs'.get? J).isSome
  wait : ∀ J j j', jobs.get? J = some j → jobs'.get? J = some j' → waitOf j'.spec = waitOf j.spec
  active : ∀ J j j', jobs.get? J = some j → jobs'.get? J = some j' → j'.state = .active →
    j.state = .active

namespace Milder

lemma refl (jobs : Jobs) : Milder jobs jobs where
  known _ h := h
  wait _ _ _ h h' := by
    cases h.symm.trans h'
    rfl
  active _ _ _ h h' ha := by
    cases h.symm.trans h'
    exact ha

lemma trans {jobs jobs' jobs'' : Jobs} (h : Milder jobs jobs') (h' : Milder jobs' jobs'') :
    Milder jobs jobs'' where
  known J hJ := h'.known J (h.known J hJ)
  wait J j j'' hj hj'' := by
    obtain ⟨j', hj'⟩ := Option.isSome_iff_exists.mp (h.known J (by simp [hj]))
    exact (h'.wait J j' j'' hj' hj'').trans (h.wait J j j' hj hj')
  active J j j'' hj hj'' ha := by
    obtain ⟨j', hj'⟩ := Option.isSome_iff_exists.mp (h.known J (by simp [hj]))
    exact h.active J j j' hj hj' (h'.active J j' j'' hj' hj'' ha)

lemma oneShot_of {jobs jobs' : Jobs} (h : Milder jobs jobs') {J : String}
    (hs : (jobs.get? J).isSome) (ho : oneShot jobs' J) : oneShot jobs J := by
  obtain ⟨j, hj⟩ := Option.isSome_iff_exists.mp hs
  obtain ⟨j', hj', ha, hw⟩ := ho
  exact ⟨j, hj, h.active J j j' hj hj' ha, (h.wait J j j' hj hj') ▸ hw⟩

lemma of_updateWhere (jobs : Jobs) (p : WatchdogJob → Bool) (f : WatchdogJob → WatchdogJob) (hf)
    (hw : ∀ j ∈ jobs.rows, p j = true → waitOf (f j).spec = waitOf j.spec)
    (ha : ∀ j, (f j).state = .active → j.state = .active) :
    Milder jobs (jobs.updateWhere p f hf) where
  known J hJ := by
    rw [Table.get?_updateWhere]
    simpa using hJ
  wait J j j' hj hj' := by
    rw [Table.get?_updateWhere, hj, Option.map_some] at hj'
    cases hj'
    unfold Table.rewrite
    split
    · rename_i hp
      exact hw j (Table.get?_eq_some.mp hj).1 hp
    · rfl
  active J j j' hj hj' hact := by
    rw [Table.get?_updateWhere, hj, Option.map_some] at hj'
    cases hj'
    unfold Table.rewrite at hact
    split at hact
    · exact ha j hact
    · exact hact

lemma of_update (jobs : Jobs) (J : String) (f : WatchdogJob → WatchdogJob) (hf)
    (hw : ∀ j, (f j).spec = j.spec) (ha : ∀ j, (f j).state = .active → j.state = .active) :
    Milder jobs (jobs.update J f hf) :=
  of_updateWhere _ _ _ _ (fun j _ _ => congrArg waitOf (hw j)) ha

lemma markTerminal (jobs : Jobs) (J reason : String) :
    Milder jobs (markTerminal jobs J reason) :=
  of_update _ _ _ _ (fun _ => rfl) fun _ h => by cases h

lemma recordEvaluation (jobs : Jobs) (J : String) (t : Time) :
    Milder jobs (recordEvaluation jobs J t) :=
  of_update _ _ _ _ (fun _ => rfl) fun _ h => h

lemma updateSchedule {jobs : Jobs} {J : String} {j : WatchdogJob} (hj : jobs.get? J = some j)
    {spec : WatchdogSpec} (hw : waitOf spec = waitOf j.spec) (n : ℕ) (t : Option Time) :
    Milder jobs (updateSchedule jobs J spec n t) := by
  refine of_updateWhere _ _ _ _ (fun i hi hp => ?_) fun _ h => h
  simp only [Bool.and_eq_true, decide_eq_true_eq] at hp
  have hi := Table.get?_of_mem hi
  rw [hp.1] at hi
  cases hj.symm.trans hi
  exact hw

end Milder

lemma not_oneShot_markTerminal (jobs : Jobs) (J reason : String) :
    ¬ oneShot (markTerminal jobs J reason) J := by
  rintro ⟨j, hj, ha, -⟩
  unfold markTerminal at hj
  rw [Table.get?_update_self, Option.map_eq_some_iff] at hj
  obtain ⟨i, -, rfl⟩ := hj
  cases ha

lemma oneShot_markTerminal {jobs : Jobs} {J K reason : String} (h : oneShot jobs K) (hne : K ≠ J) :
    oneShot (markTerminal jobs J reason) K := by
  obtain ⟨j, hj, h⟩ := h
  exact ⟨j, (Table.get?_update_ne _ _ _ hne).trans hj, h⟩

lemma oneShot_updateSchedule {jobs : Jobs} {J K : String} {spec : WatchdogSpec} {n : ℕ}
    {t : Option Time} (h : oneShot jobs K) (hne : K ≠ J) :
    oneShot (updateSchedule jobs J spec n t) K := by
  obtain ⟨j, hj, h⟩ := h
  refine ⟨j, ?_, h⟩
  unfold updateSchedule
  rw [Table.get?_updateWhere, hj, Option.map_some]
  have hk : j.jobId ≠ J := fun e => hne ((Table.get?_key hj).symm.trans e)
  simp [Table.rewrite, hk]

lemma register_eq_ok {env : Env} {jobs jobs' : Jobs} {input : RegisterInput}
    (h : register env jobs input = .ok jobs') : jobs.get? env.ulid = none ∧
      (∀ K, K ≠ env.ulid → jobs'.get? K = jobs.get? K) ∧
      ∃ j, jobs'.get? env.ulid = some j ∧ j.spec = input.spec ∧ j.state = .active := by
  unfold register at h
  split at h
  · simp at h
  · split at h
    · rename_i jobs₁ hins
      cases pure_eq_ok.mp h
      refine ⟨(Table.insert?_eq_some hins).1, fun K hK => ?_, ?_⟩
      · rw [Table.get?_insert? hins, if_neg hK]
      · refine ⟨_, (Table.get?_insert? hins _).trans (if_pos rfl), rfl, rfl⟩
    · simp at h

lemma Milder.register {env : Env} {jobs jobs' : Jobs} {input : RegisterInput}
    (h : register env jobs input = .ok jobs') : Milder jobs jobs' := by
  obtain ⟨hfresh, hother, -⟩ := register_eq_ok h
  have hsame : ∀ J j, jobs.get? J = some j → jobs'.get? J = some j := by
    intro J j hj
    rw [hother J, hj]
    rintro rfl
    cases hfresh.symm.trans hj
  refine ⟨fun J hJ => ?_, fun J j j' hj hj' => ?_, fun J j j' hj hj' ha => ?_⟩
  · obtain ⟨j, hj⟩ := Option.isSome_iff_exists.mp hJ
    simp [hsame J j hj]
  · cases (hsame J j hj).symm.trans hj'
    rfl
  · cases (hsame J j hj).symm.trans hj'
    exact ha

lemma Ledger.setJobs {db : Db} (h : Ledger db) {jobs : Jobs} (hm : Milder db.jobs jobs) :
    Ledger (db.setJobs jobs) where
  known w hw J hJ := hm.known J (h.known w hw J hJ)
  ids := h.ids
  rows := h.rows
  own w hw J j' q hJ hj' hq := by
    obtain ⟨j, hj⟩ := Option.isSome_iff_exists.mp (h.known w hw J (by rw [hJ]; rfl))
    exact h.own w hw J j q hJ hj ((hm.wait J j j' hj hj') ▸ hq)
  unfired w hw J ht ho :=
    h.unfired w hw J ht (hm.oneShot_of (h.known w hw J (by rw [ht.2]; rfl)) ho)
  latest w hw J ht ho :=
    h.latest w hw J ht (hm.oneShot_of (h.known w hw J (by rw [ht.2]; rfl)) ho)

lemma Ledger.holds_of_setJobs {db : Db} (h : Ledger db) {jobs : Jobs} (hm : Milder db.jobs jobs)
    {q J : String} (hh : holds (db.setJobs jobs) q J) : holds db q J := by
  obtain ⟨ho, ha, w, hw, ht, hq⟩ := hh
  exact ⟨hm.oneShot_of (h.known w hw J (by rw [ht.2]; rfl)) ho, ha, w, hw, ht, hq⟩

lemma kept_setJobs {X : String → Prop} {db : Db} {jobs : Jobs} (hi : TimerInv db)
    (hm : Milder db.jobs jobs) (hf : ∀ J, ¬ X J → free db J → oneShot jobs J) :
    Kept X db (db.setJobs jobs) where
  timers := ⟨hi.toLedger.setJobs hm, fun q J hh =>
    hi.parked q J (hi.toLedger.holds_of_setJobs hm hh)⟩
  rows _ hk := hk
  known := hm.known
  free J hX hJ := ⟨hf J hX hJ, hJ.2⟩

/-! ### Leaving a park -/

lemma retire_cases (db : Db) (q reason : String) :
    retireParkGeneratedTimer db q reason = db ∨ ∃ w J, w ∈ db.wakes ∧ timerOf w J ∧
      retireParkGeneratedTimer db q reason = db.setJobs (markTerminal db.jobs J reason) := by
  unfold retireParkGeneratedTimer
  split
  · rename_i J fired unconsumed hstatus
    split
    · obtain ⟨w, hw, hs⟩ := Option.map_eq_some_iff.mp hstatus
      obtain ⟨hmem, -, harmed⟩ := mem_of_latestArmed hw
      exact .inr ⟨w, J, hmem, ⟨harmed, congrArg ParkWakeStatus.wake hs⟩, rfl⟩
    · exact .inl rfl
  · exact .inl rfl

lemma Ledger.retire {db : Db} (h : Ledger db) (q reason : String) :
    Ledger (retireParkGeneratedTimer db q reason) ∧
      ∀ q' J, holds (retireParkGeneratedTimer db q reason) q' J → holds db q' J := by
  rcases retire_cases db q reason with he | ⟨w, J, -, -, he⟩
  · rw [he]
    exact ⟨h, fun _ _ hh => hh⟩
  · rw [he]
    exact ⟨h.setJobs (.markTerminal _ _ _),
      fun _ _ hh => h.holds_of_setJobs (.markTerminal _ _ _) hh⟩

lemma attachedQitems_eq_nil {db : Db} {J : String} (h : ¬ attached db J) :
    findLiveQitemsByAttachedWatchdog db J = [] := by
  unfold findLiveQitemsByAttachedWatchdog
  rw [List.filter_eq_nil_iff.mpr]
  · rfl
  · intro w hw hp
    simp only [Bool.and_eq_true, decide_eq_true_eq] at hp
    exact h ⟨w, hw, hp.1.1.1.1, hp.1.1.1.2⟩

/-- **Retiring ends the timer the row holds.** -/
theorem Ledger.retire_clears {db : Db} (h : Ledger db) (q reason J : String) :
    ¬ holds (retireParkGeneratedTimer db q reason) q J := by
  intro hh
  obtain ⟨ho, ha, w, hw, ht, hq⟩ := (h.retire q reason).2 q J hh
  have hlatest := h.latest w hw J ht ho ha
  rw [hq] at hlatest
  -- only held-back attempts have been recorded, so the timer is still live
  have hlive : ∃ fired unconsumed, getStatus db q = some ⟨.timer J, fired, true, unconsumed⟩ := by
    have hactive : isLive db (.timer J) = true := by
      obtain ⟨j, hj, hs, -⟩ := ho
      simp [isLive, hj, hs]
    have hback : (latestFired db w).isSome = true → latestFired db w = some "retained" := by
      intro hs
      obtain ⟨s, hs⟩ := Option.isSome_iff_exists.mp hs
      obtain ⟨f, hf, hfs⟩ := List.exists_of_findSome?_eq_some hs
      obtain ⟨hp, -, href, -⟩ := firedAfter_eq_some.mp hfs
      rw [hs, h.unfired w hw J ht ho f hf s hp (href.trans (by rw [ht.2]; rfl))]
    unfold getStatus
    rw [hlatest, Option.map_some]
    simp only [ht.2, hactive]
    refine ⟨_, _, congrArg some (ParkWakeStatus.mk.injEq .. |>.mpr ⟨rfl, rfl, ?_, rfl⟩)⟩
    by_cases hs : (latestFired db w).isSome = true
    · simp [hback hs]
    · simp [hs]
  obtain ⟨fired, unconsumed, hlive⟩ := hlive
  have hend :
    retireParkGeneratedTimer db q reason = db.setJobs (markTerminal db.jobs J reason) := by
    unfold retireParkGeneratedTimer
    rw [hlive]
    simp [attachedQitems_eq_nil ha]
  rw [hend] at hh
  exact not_oneShot_markTerminal _ _ _ hh.1

lemma free_retire {db : Db} {J : String} (h : free db J) (q reason : String) :
    free (retireParkGeneratedTimer db q reason) J := by
  rcases retire_cases db q reason with he | ⟨w, K, hw, ht, he⟩
  · rw [he]
    exact h
  · rw [he]
    refine ⟨oneShot_markTerminal h.1 ?_, h.2⟩
    rintro rfl
    exact h.2 w hw ht

/-- **A row leaves its park** in one write with the retirement of its timer. -/
theorem kept_exit {X : String → Prop} {db db₁ : Db} {q : String} (hi : TimerInv db)
    (hr : RowsOnly (· = q) db db₁) (reason : String) :
    Kept X db (retireParkGeneratedTimer db₁ q reason) where
  timers := by
    have hl := hi.toLedger.rowsOnly hr
    refine ⟨(hl.retire q reason).1, fun q' J hh => ?_⟩
    have hblocked : isBlocked (retireParkGeneratedTimer db₁ q reason) q' = isBlocked db₁ q' :=
      isBlocked_congr (items_retireParkGeneratedTimer _ _ _) q'
    rw [hblocked]
    by_cases hq : q' = q
    · subst hq
      exact absurd hh (hl.retire_clears q' reason J)
    · exact hr.blocked q' hq (hi.parked q' J
        ((holds_congr hr.wakes hr.jobs q' J).mp ((hl.retire q reason).2 q' J hh)))
  rows k hk := by
    unfold Db.getById
    rw [items_retireParkGeneratedTimer]
    exact hr.rows k hk
  known J hJ := by
    rcases retire_cases db₁ q reason with he | ⟨w, K, -, -, he⟩
    · rw [he, hr.jobs]
      exact hJ
    · rw [he]
      exact (Milder.markTerminal db₁.jobs K reason).known J (hr.jobs ▸ hJ)
  free J _ hf := by
    refine free_retire ?_ q reason
    unfold ParkLedger.free
    rw [hr.wakes, hr.jobs]
    exact hf

/-! ### A new continuation -/

/-- What the new record of a park on `q` names: an attachment of a known job, the row's blocker, or
a timer, which is a repeating wait for the row or a job no record names yet. -/
structure Arms (db : Db) (q : String) (wake : ParkWake) : Prop where
  row : (db.getById q).isSome
  known : ∀ J, wake.ref = .job J → (db.jobs.get? J).isSome
  own : ∀ J j q', wake = .timer J → db.jobs.get? J = some j → waitOf j.spec = some q' → q' = q
  fresh : ∀ J, wake = .timer J → oneShot db.jobs J →
    isBlocked db q = true ∧ ∀ f ∈ db.wakes, f.wake.ref ≠ .job J

/-- **A new continuation** recorded on a row that holds no other timer. -/
theorem Arms.timerInv {db : Db} {q : String} {wake : ParkWake} (ha : Arms db q wake)
    (hl : Ledger db) (hpark : ∀ q' J, q' ≠ q → holds db q' J → isBlocked db q' = true)
    (hq : ∀ J, holds db q J → wake = .watchdog J) {tid : ℕ} (htid : tid < db.nextTransitionId) :
    TimerInv (db.recordWake ⟨tid, q, .armed, wake⟩) := by
  have hatt : ∀ J, ¬ attached (db.recordWake ⟨tid, q, .armed, wake⟩) J → ¬ attached db J ∧
      wake ≠ .watchdog J := by
    intro J hn
    exact ⟨fun ⟨w, hw, h⟩ => hn ⟨w, List.mem_cons_of_mem _ hw, h⟩,
      fun e => hn ⟨_, List.mem_cons_self, rfl, e⟩⟩
  have hlatest := latestArmed_cons db (db.recordWake ⟨tid, q, .armed, wake⟩) _ rfl
  refine
    { known := ?_, ids := ?_, rows := ?_, own := ?_, unfired := ?_, latest := ?_, parked := ?_ }
  · rintro w (_ | ⟨_, hw⟩) J hJ
    · exact ha.known J hJ
    · exact hl.known w hw J hJ
  · rintro w (_ | ⟨_, hw⟩)
    · exact htid
    · exact hl.ids w hw
  · rintro w (_ | ⟨_, hw⟩)
    · exact ha.row
    · exact hl.rows w hw
  · rintro w (_ | ⟨_, hw⟩) J j q' hJ hj hwait
    · exact (ha.own J j q' hJ hj hwait).symm
    · exact hl.own w hw J j q' hJ hj hwait
  · rintro w hw J ht ho f (_ | ⟨_, hf⟩) s hs hJ
    · cases hs
    · rcases List.mem_cons.mp hw with rfl | hw
      · exact absurd hJ ((ha.fresh J ht.2 ho).2 f hf)
      · exact hl.unfired w hw J ht ho f hf s hs hJ
  · rintro w (_ | ⟨_, hw⟩) J ht ho hn
    · rw [hlatest]
      exact if_pos ⟨rfl, rfl⟩
    · obtain ⟨hn, hne⟩ := hatt J hn
      have hw' := hl.latest w hw J ht ho hn
      rw [hlatest, if_neg, hw']
      rintro ⟨e, -⟩
      exact hne (hq J ⟨ho, hn, w, hw, ht, e.symm⟩)
  · rintro q' J ⟨ho, hn, w, hw, ht, hwq⟩
    obtain ⟨hn, hne⟩ := hatt J hn
    rcases List.mem_cons.mp hw with rfl | hw
    · subst hwq
      exact (ha.fresh J ht.2 ho).1
    · have hh : holds db q' J := ⟨ho, hn, w, hw, ht, hwq⟩
      by_cases he : q' = q
      · subst he
        exact absurd (hq J hh) hne
      · exact hpark q' J he hh

/-- The record of a new park, over the retired timer of the old one unless it names the same
continuation. -/
theorem kept_arm {X : String → Prop} {db db₁ : Db} {q : String} {wake : ParkWake}
    (reason : String) (tid : ℕ) (hi : TimerInv db) (hr : RowsOnly (· = q) db db₁)
    (ha : Arms db₁ q wake)
    (hsame : ∀ J, oneShot db₁.jobs J → (getStatus db₁ q).map (fun s => s.wake.ref) = some (.job J) →
      wake.ref = .job J → wake = .watchdog J)
    (hX : ∀ J, wake = .timer J → oneShot db₁.jobs J → X J) (htid : tid < db₁.nextTransitionId) :
    Kept X db
      ((if (getStatus db₁ q).map (fun s => s.wake.ref) ≠ some wake.ref then
        retireParkGeneratedTimer db₁ q reason else db₁).recordWake ⟨tid, q, .armed, wake⟩) := by
  have hl := hi.toLedger.rowsOnly hr
  have hother : ∀ q' J, q' ≠ q → holds db₁ q' J → isBlocked db₁ q' = true :=
    fun q' J hne hh => hr.blocked q' hne (hi.parked q' J
      ((holds_congr hr.wakes hr.jobs q' J).mp hh))
  have hfree : ∀ J, ¬ X J → free db J → free db₁ J ∧ wake ≠ .timer J := by
    intro J hJX hf
    have hf₁ : free db₁ J := by
      unfold ParkLedger.free
      rw [hr.wakes, hr.jobs]
      exact hf
    exact ⟨hf₁, fun e => hJX (hX J e hf₁.1)⟩
  split
  · refine ⟨?_, fun k hk => ?_, fun J hJ => ?_, fun J hJX hf => ?_⟩
    · obtain ⟨hl', hback⟩ := hl.retire q reason
      have hitems := items_retireParkGeneratedTimer db₁ q reason
      refine Arms.timerInv ⟨?_, ?_, ?_, ?_⟩ hl' (fun q' J hne hh => ?_)
        (fun J hh => absurd hh (hl.retire_clears q reason J)) ?_
      · unfold Db.getById
        rw [hitems]
        exact ha.row
      · intro J hJ
        have := ha.known J hJ
        rcases retire_cases db₁ q reason with he | ⟨w, K, -, -, he⟩
        · rw [he]
          exact this
        · rw [he]
          exact (Milder.markTerminal db₁.jobs K reason).known J this
      · intro J j q' hJ hj hw
        rcases retire_cases db₁ q reason with he | ⟨w, K, -, -, he⟩
        · rw [he] at hj
          exact ha.own J j q' hJ hj hw
        · rw [he] at hj
          obtain ⟨j₀, hj₀⟩ := Option.isSome_iff_exists.mp (ha.known J (by rw [hJ]; rfl))
          exact ha.own J j₀ q' hJ hj₀
            ((Milder.markTerminal db₁.jobs K reason).wait J j₀ j hj₀ hj ▸ hw)
      · intro J hJ ho
        have ho₁ : oneShot db₁.jobs J := by
          rcases retire_cases db₁ q reason with he | ⟨w, K, -, -, he⟩
          · rwa [he] at ho
          · rw [he] at ho
            exact (Milder.markTerminal db₁.jobs K reason).oneShot_of
              (ha.known J (by rw [hJ]; rfl)) ho
        obtain ⟨hb, hf⟩ := ha.fresh J hJ ho₁
        rw [isBlocked_congr hitems, wakes_retireParkGeneratedTimer]
        exact ⟨hb, hf⟩
      · rw [isBlocked_congr hitems]
        exact hother q' J hne (hback q' J hh)
      · unfold Db.nextTransitionId at htid ⊢
        rwa [transitions_retireParkGeneratedTimer]
    · change ((retireParkGeneratedTimer db₁ q reason).getById k).isSome
      unfold Db.getById
      rw [items_retireParkGeneratedTimer]
      exact hr.rows k hk
    · exact (kept_exit (X := X) hi hr reason).known J hJ
    · obtain ⟨hf₁, hne⟩ := hfree J hJX hf
      obtain ⟨ho, ht⟩ := free_retire hf₁ q reason
      refine ⟨ho, ?_⟩
      rintro w (_ | ⟨_, hw⟩) ht'
      · exact hne ht'.2
      · exact ht w hw ht'
  · rename_i hstatus
    have hstatus : (getStatus db₁ q).map (fun s => s.wake.ref) = some wake.ref := by
      simpa using hstatus
    refine ⟨?_, hr.rows, fun J hJ => hr.jobs ▸ hJ, fun J hJX hf => ?_⟩
    · refine ha.timerInv hl hother (fun J hh => ?_) htid
      -- the row's latest record is the timer's, so the new record names the same job
      obtain ⟨ho, hn, w, hw, ht, hwq⟩ := hh
      have hlatest := hl.latest w hw J ht ho hn
      rw [hwq] at hlatest
      have href : (getStatus db₁ q).map (fun s => s.wake.ref) = some (.job J) := by
        unfold getStatus
        rw [hlatest, Option.map_some, Option.map_some]
        simp only [ht.2]
        rfl
      exact hsame J ho href (Option.some.inj (hstatus.symm.trans href))
    · obtain ⟨hf₁, hne⟩ := hfree J hJX hf
      refine ⟨hf₁.1, ?_⟩
      rintro w (_ | ⟨_, hw⟩) ht'
      · exact hne ht'.2
      · exact hf₁.2 w hw ht'

/-! ### A delivered attempt -/

/-- The receipts of an attempt: fired records for its targets, newer than every record before. -/
structure Receipts (a : WakeAttempt) (targets : List (String × ParkWake)) (db db' : Db)
    (fired : List WakeRecord) : Prop where
  wakes : db'.wakes = fired ++ db.wakes
  jobs : db'.jobs = db.jobs
  items : db'.items = db.items
  log : db.nextTransitionId ≤ db'.nextTransitionId
  phase : ∀ f ∈ fired, a.retryAt = none ∧ f.phase = .fired a.deliveryStatus
  target : ∀ f ∈ fired, ∃ t ∈ targets, f.qitemId = t.1 ∧ f.wake = t.2
  ids : ∀ f ∈ fired, db.nextTransitionId ≤ f.transitionId ∧ f.transitionId < db'.nextTransitionId
  all : a.retryAt = none → ∀ t ∈ targets, ∃ f ∈ fired, f.qitemId = t.1 ∧ f.wake = t.2

lemma recordFired_receipts (env : Env) (a : WakeAttempt) (db : Db) (t : String × ParkWake) :
    ∃ fired, Receipts a [t] db (recordFired env a db t) fired := by
  have hnext : (recordFired env a db t).nextTransitionId = db.nextTransitionId + 1 := by
    unfold recordFired Db.nextTransitionId
    simp only [Db.transitions_emit]
    split <;> simp
  by_cases hr : a.retryAt = none
  · have he : recordFired env a db t = ((db.append env.now
        { qitemId := t.1, state := .blocked, actorSession := "watchdog@system",
          transitionNote := some a.note }).recordWake
        ⟨db.nextTransitionId, t.1, .fired a.deliveryStatus, t.2⟩).emit
        (.updated t.1 .blocked .blocked none none "watchdog@system"
          ((db.getById t.1).bind QueueItem.summary)) := by
      simp [recordFired, hr]
    refine ⟨[⟨db.nextTransitionId, t.1, .fired a.deliveryStatus, t.2⟩], ?_⟩
    refine ⟨by rw [he]; rfl, by rw [he]; rfl, by rw [he]; rfl, by omega, ?_, ?_, ?_, ?_⟩
    · rintro f (_ | ⟨_, ⟨⟩⟩)
      exact ⟨hr, rfl⟩
    · rintro f (_ | ⟨_, ⟨⟩⟩)
      exact ⟨t, List.mem_cons_self, rfl, rfl⟩
    · rintro f (_ | ⟨_, ⟨⟩⟩)
      exact ⟨le_rfl, by simp [hnext]⟩
    · rintro - t' (_ | ⟨_, ⟨⟩⟩)
      exact ⟨_, List.mem_cons_self, rfl, rfl⟩
  · obtain ⟨at_, hat⟩ := Option.ne_none_iff_exists'.mp hr
    have he : recordFired env a db t = (db.append env.now
        { qitemId := t.1, state := .blocked, actorSession := "watchdog@system",
          transitionNote := some a.note }).emit
        (.updated t.1 .blocked .blocked none none "watchdog@system"
          ((db.getById t.1).bind QueueItem.summary)) := by
      simp [recordFired, hat]
    refine ⟨[], ?_⟩
    exact ⟨by rw [he]; rfl, by rw [he]; rfl, by rw [he]; rfl, by omega, by simp, by simp, by simp,
      fun h => absurd h hr⟩

lemma receipts (env : Env) (a : WakeAttempt) (targets : List (String × ParkWake)) (db : Db) :
    ∃ fired, Receipts a targets db (targets.foldl (recordFired env a) db) fired := by
  induction targets generalizing db with
  | nil => exact ⟨[], rfl, rfl, rfl, le_rfl, by simp, by simp, by simp, by simp⟩
  | cons t targets ih =>
    obtain ⟨fired₁, h₁⟩ := recordFired_receipts env a db t
    obtain ⟨fired₂, h₂⟩ := ih (recordFired env a db t)
    refine ⟨fired₂ ++ fired₁, ?_, h₂.jobs.trans h₁.jobs, h₂.items.trans h₁.items,
      h₁.log.trans h₂.log, ?_, ?_, ?_, ?_⟩
    · rw [List.foldl_cons, h₂.wakes, h₁.wakes, List.append_assoc]
    · intro f hf
      rcases List.mem_append.mp hf with hf | hf
      · exact h₂.phase f hf
      · exact h₁.phase f hf
    · intro f hf
      rcases List.mem_append.mp hf with hf | hf
      · obtain ⟨t', ht', he⟩ := h₂.target f hf
        exact ⟨t', List.mem_cons_of_mem _ ht', he⟩
      · obtain ⟨t', ht', he⟩ := h₁.target f hf
        rw [List.mem_singleton.mp ht'] at he
        exact ⟨t, List.mem_cons_self, he⟩
    · intro f hf
      rcases List.mem_append.mp hf with hf | hf
      · exact ⟨h₁.log.trans (h₂.ids f hf).1, (h₂.ids f hf).2⟩
      · exact ⟨(h₁.ids f hf).1, lt_of_lt_of_le (h₁.ids f hf).2 h₂.log⟩
    · rintro hr t' (_ | ⟨_, ht'⟩)
      · obtain ⟨f, hf, he⟩ := h₁.all hr t List.mem_cons_self
        exact ⟨f, List.mem_append_right _ hf, he⟩
      · obtain ⟨f, hf, he⟩ := h₂.all hr t' ht'
        exact ⟨f, List.mem_append_left _ hf, he⟩

lemma Receipts.latestArmed {a : WakeAttempt} {targets : List (String × ParkWake)} {db db' : Db}
    {fired : List WakeRecord} (h : Receipts a targets db db' fired) (q : String) :
    latestArmed db' q = latestArmed db q := by
  unfold Watchdogs.latestArmed
  rw [h.wakes, List.find?_append, List.find?_eq_none.mpr, Option.none_or]
  intro f hf
  simp [(h.phase f hf).2]

lemma Receipts.mem_armed {a : WakeAttempt} {targets : List (String × ParkWake)} {db db' : Db}
    {fired : List WakeRecord} (h : Receipts a targets db db' fired) {w : WakeRecord}
    (hw : w ∈ db'.wakes) (harmed : w.phase = .armed) : w ∈ db.wakes := by
  rw [h.wakes] at hw
  rcases List.mem_append.mp hw with hw | hw
  · cases (h.phase w hw).2.symm.trans harmed
  · exact hw

lemma Receipts.attached_iff {a : WakeAttempt} {targets : List (String × ParkWake)} {db db' : Db}
    {fired : List WakeRecord} (h : Receipts a targets db db' fired) (J : String) :
    attached db' J ↔ attached db J := by
  constructor
  · rintro ⟨w, hw, harmed, he⟩
    exact ⟨w, h.mem_armed hw harmed, harmed, he⟩
  · rintro ⟨w, hw, harmed, he⟩
    exact ⟨w, h.wakes ▸ List.mem_append_right _ hw, harmed, he⟩

/-- **Receipts keep the invariant** beside jobs that end every generated timer the attempt
consumed. -/
lemma Receipts.timerInv {a : WakeAttempt} {targets : List (String × ParkWake)} {db db' : Db}
    {fired : List WakeRecord} (h : Receipts a targets db db' fired) (hi : TimerInv db)
    (htargets : ∀ t ∈ targets, ∃ w ∈ db.wakes, w.qitemId = t.1 ∧ w.wake = t.2 ∧
      w.wake.ref = .job a.jobId)
    {jobs : Jobs} (hm : Milder db.jobs jobs)
    (hend : a.retryAt = none → a.deliveryStatus ≠ "retained" →
      ∀ w ∈ db.wakes, timerOf w a.jobId → ¬ oneShot jobs a.jobId) :
    TimerInv (db'.setJobs jobs) := by
  have hrec : ∀ f ∈ fired, ∃ w ∈ db.wakes, w.qitemId = f.qitemId ∧ w.wake = f.wake ∧
      f.wake.ref = .job a.jobId := by
    intro f hf
    obtain ⟨t, ht, hq, hw⟩ := h.target f hf
    obtain ⟨w, hw', hq', hw'', href⟩ := htargets t ht
    exact ⟨w, hw', hq'.trans hq.symm, hw''.trans hw.symm, by rw [hw, ← hw'', href]⟩
  -- every record, new or old, is about the row and the continuation of an old one
  have hold : ∀ f ∈ db'.wakes, ∃ w ∈ db.wakes, w.qitemId = f.qitemId ∧ w.wake = f.wake := by
    intro f hf
    rw [h.wakes] at hf
    rcases List.mem_append.mp hf with hf | hf
    · obtain ⟨w, hw, hq, he, -⟩ := hrec f hf
      exact ⟨w, hw, hq, he⟩
    · exact ⟨f, hf, rfl, rfl⟩
  have hshot : ∀ w ∈ db.wakes, ∀ J, timerOf w J → oneShot jobs J → oneShot db.jobs J :=
    fun w hw J ht ho => hm.oneShot_of (hi.known w hw J (by rw [ht.2]; rfl)) ho
  have hl := hi.toLedger.setJobs hm
  refine
    { known := ?_, ids := ?_, rows := ?_, own := ?_, unfired := ?_, latest := ?_, parked := ?_ }
  · intro f hf J hJ
    obtain ⟨w, hw, -, he⟩ := hold f hf
    exact hl.known w hw J (he ▸ hJ)
  · intro f hf
    change f ∈ db'.wakes at hf
    rw [h.wakes] at hf
    rcases List.mem_append.mp hf with hf | hf
    · exact (h.ids f hf).2
    · exact lt_of_lt_of_le (hi.ids f hf) h.log
  · intro f hf
    obtain ⟨w, hw, hq, -⟩ := hold f hf
    change (db'.getById f.qitemId).isSome
    unfold Db.getById
    rw [h.items, ← hq]
    exact hi.rows w hw
  · intro f hf J j q hJ hj hq
    obtain ⟨w, hw, he, hw'⟩ := hold f hf
    rw [← he]
    exact hl.own w hw J j q (hw'.trans hJ) hj hq
  · intro w hw J ht ho f hf s hs hJ
    have hw := h.mem_armed hw ht.1
    change f ∈ db'.wakes at hf
    rw [h.wakes] at hf
    rcases List.mem_append.mp hf with hf | hf
    · obtain ⟨hr, hp⟩ := h.phase f hf
      obtain ⟨-, -, -, -, href⟩ := hrec f hf
      cases href.symm.trans hJ
      cases hp.symm.trans hs
      by_contra hne
      exact hend hr hne w hw ht ho
    · exact hi.unfired w hw J ht (hshot w hw J ht ho) f hf s hs hJ
  · intro w hw J ht ho ha
    have hw := h.mem_armed hw ht.1
    rw [show Watchdogs.latestArmed (db'.setJobs jobs) w.qitemId =
      Watchdogs.latestArmed db w.qitemId from h.latestArmed w.qitemId]
    exact hi.latest w hw J ht (hshot w hw J ht ho) (mt (h.attached_iff J).mpr ha)
  · rintro q J ⟨ho, ha, w, hw, ht, hq⟩
    have hw := h.mem_armed hw ht.1
    rw [show isBlocked (db'.setJobs jobs) q = isBlocked db q from isBlocked_congr h.items q]
    exact hi.parked q J ⟨hshot w hw J ht ho, mt (h.attached_iff J).mpr ha, w, hw, ht, hq⟩

end OpenRig.ParkLedger
