import OpenRig.Runs
import Mathlib.Logic.Function.Basic
import Mathlib.Data.List.Infix

/-!
The schedule a wake was sent under.

A delivery keeps the schedule it started under. An update in place only adds to the schedules it
still matches, a reschedule that changes something forgets them, and nothing else touches them
while the delivery is in flight.
-/

namespace OpenRig.DeliverySchedules

structure Schedule where
  specYaml : String
  intervalSeconds : ℕ
  deriving DecidableEq

inductive JobState where
  | active | stopped | terminal
  deriving DecidableEq

structure WatchdogJob extends Schedule where
  lastEvaluationAt : Option String := none
  lastFireAt : Option String := none
  state : JobState := .active
  terminalReason : Option String := none
  deriving DecidableEq

/-- The rows, and what the process remembers of their schedules. -/
structure Repository where
  jobs : String → Option WatchdogJob
  /-- The schedules that updates in place replaced, oldest first. -/
  updatedFrom : String → List Schedule := fun _ => []
  /-- The schedule that the delivery in flight started under. -/
  inFlight : String → Option Schedule := fun _ => none

namespace Repository

variable (r : Repository) (jobId : String)

def setJob (job : WatchdogJob → WatchdogJob) : Repository :=
  { r with jobs := Function.update r.jobs jobId ((r.jobs jobId).map job) }

def forget : Repository := { r with updatedFrom := Function.update r.updatedFrom jobId [] }

/-- The row's schedule columns, while it is active. -/
def rewrite (s : Schedule) (lastEvaluationAt : Option String) (job : WatchdogJob) : WatchdogJob :=
  if job.state = .active then
    { job with toSchedule := s, lastEvaluationAt := lastEvaluationAt }
  else job

def writeSchedule (s : Schedule) (lastEvaluationAt : Option String) : Repository :=
  r.setJob jobId (rewrite s lastEvaluationAt)

def stored (job : WatchdogJob) : Schedule × Option String := (job.toSchedule, job.lastEvaluationAt)

def updateSchedule (s : Schedule) (lastEvaluationAt : Option String) : Repository :=
  let r' := if (r.jobs jobId).map stored = some (s, lastEvaluationAt) then r else r.forget jobId
  r'.writeSchedule jobId s lastEvaluationAt

/-- The last eight, and the one in flight where it would fall off. -/
def keep (started : Option Schedule) (replaced : List Schedule) : List Schedule :=
  let kept := replaced.drop (replaced.length - 8)
  match started with
  | some s => if s ∈ replaced ∧ s ∉ kept then s :: kept else kept
  | none => kept

/-- Nothing where the job is not found. -/
def updateInPlace (s : Schedule) (lastEvaluationAt : Option String) : Option Repository := do
  let before ← r.jobs jobId
  let r' := r.writeSchedule jobId s lastEvaluationAt
  some { r' with
    updatedFrom := Function.update r.updatedFrom jobId
      (keep (r.inFlight jobId) (r.updatedFrom jobId ++ [before.toSchedule])) }

def deliverySchedule : Option (WatchdogJob × Repository) := do
  let job ← r.jobs jobId
  some (job, { r with inFlight := Function.update r.inFlight jobId (some job.toSchedule) })

def deliveryAccounted : Repository :=
  { r with
    inFlight := Function.update r.inFlight jobId none
    updatedFrom := Function.update r.updatedFrom jobId [] }

def releaseStoppedSchedules (jobIds : List String) : Repository :=
  { r with
    updatedFrom := fun id =>
      if id ∈ jobIds ∧ r.inFlight id = none then [] else r.updatedFrom id }

/-- Whether a schedule read before a delivery is still the job's, or one only an update replaced. -/
def scheduleUnchanged (current snapshot : Schedule) : Bool :=
  current = snapshot || (r.updatedFrom jobId).contains snapshot

/-- With the snapshot of the delivery, where there is one. -/
def recordEvaluation (evaluatedAt : String) (fired : Bool) (schedule : Option WatchdogJob) :
    Repository :=
  match fired, schedule with
  | true, some schedule =>
    r.setJob jobId fun current =>
      if current.state = .active ∧ current.lastEvaluationAt = schedule.lastEvaluationAt ∧
          r.scheduleUnchanged jobId current.toSchedule schedule.toSchedule then
        { current with lastFireAt := evaluatedAt, lastEvaluationAt := evaluatedAt }
      else { current with lastFireAt := evaluatedAt }
  | true, none =>
    r.setJob jobId fun job =>
      { job with lastEvaluationAt := evaluatedAt, lastFireAt := evaluatedAt }
  | false, _ =>
    (r.forget jobId).setJob jobId fun job => { job with lastEvaluationAt := evaluatedAt }

def markTerminal (reason : String) : Repository :=
  (r.setJob jobId fun job =>
    { job with state := .terminal, terminalReason := reason }).releaseStoppedSchedules [jobId]

/-- Nothing where the job is not found or terminal. -/
def stop (reason : String) : Option Repository := do
  let existing ← r.jobs jobId
  match existing.state with
  | .terminal => none
  | .stopped => some r
  | .active =>
    some ((r.setJob jobId fun job =>
      { job with state := .stopped, terminalReason := reason }).releaseStoppedSchedules [jobId])

def handedOver (job : WatchdogJob) : WatchdogJob :=
  { job with
    state := .stopped
    terminalReason := some "registering generation retired (seat handover)" }

/-- A seat handover: the armed jobs among these stop. -/
def dropArmed (jobIds : List String) : Repository :=
  let ids := jobIds.filter fun id => (r.jobs id).any fun job => job.state = .active
  let r' : Repository :=
    { r with jobs := fun id => if id ∈ ids then (r.jobs id).map handedOver else r.jobs id }
  r'.releaseStoppedSchedules ids

end Repository

open Repository

inductive Op where
  /-- `rig watchdog update`, which passes the stored evaluation time back. -/
  | updateInPlace (jobId : String) (s : Schedule)
  | updateSchedule (jobId : String) (s : Schedule) (lastEvaluationAt : Option String)
  | markTerminal (jobId reason : String)
  | stop (jobId reason : String)
  | dropArmed (jobIds : List String)
  | deliverySchedule (jobId : String)
  | deliveryAccounted (jobId : String)
  | recordEvaluation (jobId evaluatedAt : String) (fired : Bool) (schedule : Option WatchdogJob)

/-- A call that throws writes nothing. -/
def perform (r : Repository) : Op → Repository
  | .updateInPlace jobId s =>
    ((r.jobs jobId).bind fun job => r.updateInPlace jobId s job.lastEvaluationAt).getD r
  | .updateSchedule jobId s lastEvaluationAt => r.updateSchedule jobId s lastEvaluationAt
  | .markTerminal jobId reason => r.markTerminal jobId reason
  | .stop jobId reason => (r.stop jobId reason).getD r
  | .dropArmed jobIds => r.dropArmed jobIds
  | .deliverySchedule jobId => ((r.deliverySchedule jobId).map Prod.snd).getD r
  | .deliveryAccounted jobId => r.deliveryAccounted jobId
  | .recordEvaluation jobId evaluatedAt fired schedule =>
    r.recordEvaluation jobId evaluatedAt fired schedule

/-- What can happen while a delivery of the job is in flight. -/
def Op.During (jobId : String) : Op → Prop
  | .deliverySchedule id | .deliveryAccounted id | .recordEvaluation id _ _ _ => id ≠ jobId
  | _ => True

def run (r : Repository) (ops : List Op) : Repository := ops.foldl perform r

/-- A reschedule of the job to something other than what is stored. -/
def Changes (jobId : String) (r : Repository) (op : Op) : Prop :=
  ∃ s lastEvaluationAt, op = .updateSchedule jobId s lastEvaluationAt ∧
    (r.jobs jobId).map stored ≠ some (s, lastEvaluationAt)

/-- Some call of a run is a reschedule that changes something. -/
def Rescheduled (jobId : String) (r : Repository) (ops : List Op) : Prop :=
  ∃ before op after, ops = before ++ op :: after ∧ Changes jobId (run r before) op

def HasSchedule (jobId : String) (r : Repository) (s : Schedule) : Prop :=
  ∃ job, r.jobs jobId = some job ∧ job.toSchedule = s

/-- At some moment of the run the job had the schedule, and no reschedule changed anything since. -/
def Stands (jobId : String) (r : Repository) (s : Schedule) (ops : List Op) : Prop :=
  ∃ before after, ops = before ++ after ∧ HasSchedule jobId (run r before) s ∧
    ¬ Rescheduled jobId (run r before) after

/-! ### Columns and entries -/

@[simp] lemma setJob_jobs_self (r : Repository) (jobId : String) (f : WatchdogJob → WatchdogJob) :
    (r.setJob jobId f).jobs jobId = (r.jobs jobId).map f := Function.update_self ..

@[simp] lemma setJob_jobs_ne {r : Repository} {jobId id : String} {f : WatchdogJob → WatchdogJob}
    (h : id ≠ jobId) : (r.setJob jobId f).jobs id = r.jobs id := Function.update_of_ne h ..

@[simp] lemma setJob_updatedFrom (r : Repository) (jobId : String)
    (f : WatchdogJob → WatchdogJob) : (r.setJob jobId f).updatedFrom = r.updatedFrom := rfl

@[simp] lemma setJob_inFlight (r : Repository) (jobId : String) (f : WatchdogJob → WatchdogJob) :
    (r.setJob jobId f).inFlight = r.inFlight := rfl

@[simp] lemma forget_jobs (r : Repository) (jobId : String) : (r.forget jobId).jobs = r.jobs := rfl

@[simp] lemma forget_inFlight (r : Repository) (jobId : String) :
    (r.forget jobId).inFlight = r.inFlight := rfl

@[simp] lemma forget_updatedFrom_self (r : Repository) (jobId : String) :
    (r.forget jobId).updatedFrom jobId = [] := Function.update_self ..

@[simp] lemma forget_updatedFrom_ne {r : Repository} {jobId id : String} (h : id ≠ jobId) :
    (r.forget jobId).updatedFrom id = r.updatedFrom id := Function.update_of_ne h ..

@[simp] lemma release_jobs (r : Repository) (jobIds : List String) :
    (r.releaseStoppedSchedules jobIds).jobs = r.jobs := rfl

@[simp] lemma release_inFlight (r : Repository) (jobIds : List String) :
    (r.releaseStoppedSchedules jobIds).inFlight = r.inFlight := rfl

lemma release_updatedFrom {r : Repository} {jobId : String} {s : Schedule}
    (h : r.inFlight jobId = some s) (jobIds : List String) :
    (r.releaseStoppedSchedules jobIds).updatedFrom jobId = r.updatedFrom jobId := by
  simp [releaseStoppedSchedules, h]

lemma rewrite_stored (job : WatchdogJob) :
    rewrite job.toSchedule job.lastEvaluationAt job = job := by
  unfold rewrite
  split <;> rfl

@[simp] lemma rewrite_lastEvaluationAt (s : Schedule) (job : WatchdogJob) :
    (rewrite s job.lastEvaluationAt job).lastEvaluationAt = job.lastEvaluationAt := by
  unfold rewrite
  split <;> rfl

/-! ### What is kept of the replaced schedules -/

lemma mem_keep {s x : Schedule} {replaced : List Schedule} (h : x ∈ keep (some s) replaced) :
    x ∈ replaced := by
  have hdrop : ∀ y ∈ replaced.drop (replaced.length - 8), y ∈ replaced := fun y =>
    List.mem_of_mem_drop
  simp only [keep] at h
  split_ifs at h with hs
  · rcases List.mem_cons.mp h with rfl | h
    · exact hs.1
    · exact hdrop x h
  · exact hdrop x h

lemma started_mem_keep {s : Schedule} {replaced : List Schedule} :
    s ∈ keep (some s) replaced ↔ s ∈ replaced := by
  refine ⟨mem_keep, fun h => ?_⟩
  simp only [keep]
  by_cases hs : s ∈ replaced.drop (replaced.length - 8)
  · rwa [if_neg (by simp [hs])]
  · rw [if_pos ⟨h, hs⟩]
    exact List.mem_cons_self

/-! ### Runs -/

lemma run_append (r : Repository) (a b : List Op) : run r (a ++ b) = run (run r a) b :=
  List.foldl_append

lemma run_snoc (r : Repository) (ops : List Op) (op : Op) :
    run r (ops ++ [op]) = perform (run r ops) op := by
  rw [run_append]
  rfl

lemma rescheduled_snoc {jobId : String} {r : Repository} {ops : List Op} {op : Op} :
    Rescheduled jobId r (ops ++ [op]) ↔
      Rescheduled jobId r ops ∨ Changes jobId (run r ops) op := by
  constructor
  · rintro ⟨before, op', after, h, hc⟩
    rcases List.eq_nil_or_concat after with rfl | ⟨after, last, rfl⟩
    · obtain ⟨rfl, h⟩ := List.append_inj' h rfl
      obtain rfl : op = op' := by simpa using h
      exact .inr hc
    · have h' : ops ++ [op] = (before ++ op' :: after) ++ [last] := by simpa using h
      exact .inl ⟨before, op', after, (List.append_inj' h' rfl).1, hc⟩
  · rintro (⟨before, op', after, rfl, hc⟩ | hc)
    · exact ⟨before, op', after ++ [op], by simp, hc⟩
    · exact ⟨ops, op, [], rfl, hc⟩

lemma not_rescheduled_nil {jobId : String} {r : Repository} : ¬ Rescheduled jobId r [] := by
  rintro ⟨before, op, after, h, _⟩
  simp at h

lemma stands_snoc {jobId : String} {r : Repository} {s : Schedule} {ops : List Op} {op : Op} :
    Stands jobId r s (ops ++ [op]) ↔
      HasSchedule jobId (run r (ops ++ [op])) s ∨
        (Stands jobId r s ops ∧ ¬ Changes jobId (run r ops) op) := by
  constructor
  · rintro ⟨before, after, h, hs, hn⟩
    rcases List.eq_nil_or_concat after with rfl | ⟨after, last, rfl⟩
    · obtain rfl : ops ++ [op] = before := by simpa using h
      exact .inl hs
    · have h' : ops ++ [op] = (before ++ after) ++ [last] := by simpa using h
      obtain ⟨rfl, hlast⟩ := List.append_inj' h' rfl
      obtain rfl : op = last := by simpa using hlast
      rw [List.concat_eq_append, rescheduled_snoc, not_or, ← run_append] at hn
      exact .inr ⟨⟨before, after, rfl, hs, hn.1⟩, hn.2⟩
  · rintro (hs | ⟨⟨before, after, rfl, hs, hn⟩, hc⟩)
    · exact ⟨ops ++ [op], [], by simp, hs, not_rescheduled_nil⟩
    · refine ⟨before, after ++ [op], by simp, hs, ?_⟩
      rw [rescheduled_snoc, not_or, ← run_append]
      exact ⟨hn, hc⟩

/-! ### One call -/

/-- A delivery of the job is in flight under this schedule. -/
structure InFlight (jobId : String) (s : Schedule) (r : Repository) : Prop where
  job : ∃ job, r.jobs jobId = some job
  started : r.inFlight jobId = some s

/-- What a call does to the job while its delivery is in flight. -/
inductive Effect (jobId : String) (r : Repository) (op : Op) (r' : Repository)
    (job job' : WatchdogJob) : Prop where
  /-- An update in place. -/
  | replaces (hc : ¬ Changes jobId r op) (s : Schedule)
      (hkeep : r'.updatedFrom jobId = keep (some s) (r.updatedFrom jobId ++ [job.toSchedule]))
      (hstarted : r.inFlight jobId = some s)
      (hlast : job'.lastEvaluationAt = job.lastEvaluationAt)
  /-- A reschedule that changes something. -/
  | forgets (hc : Changes jobId r op) (hnil : r'.updatedFrom jobId = [])
  /-- Anything else. -/
  | leaves (hc : ¬ Changes jobId r op) (hsame : job'.toSchedule = job.toSchedule)
      (hkept : r'.updatedFrom jobId = r.updatedFrom jobId)
      (hlast : job'.lastEvaluationAt = job.lastEvaluationAt)

lemma not_changes_of {jobId : String} {r : Repository} {op : Op}
    (h : ∀ s lastEvaluationAt, op ≠ .updateSchedule jobId s lastEvaluationAt) :
    ¬ Changes jobId r op := by
  rintro ⟨s, lastEvaluationAt, hop, _⟩
  exact h s lastEvaluationAt hop

lemma Effect.of_eq {jobId : String} {r r' : Repository} {op : Op} {job job' : WatchdogJob}
    (hop : ∀ s lastEvaluationAt, op ≠ .updateSchedule jobId s lastEvaluationAt)
    (h : stored job' = stored job) (hkept : r'.updatedFrom jobId = r.updatedFrom jobId) :
    Effect jobId r op r' job job' :=
  .leaves (not_changes_of hop) (congrArg Prod.fst h) hkept (congrArg Prod.snd h)

lemma updateSchedule_effect {r : Repository} {jobId : String} {job : WatchdogJob}
    (hjob : r.jobs jobId = some job) (s : Schedule) (lastEvaluationAt : Option String) :
    ∃ job', (r.updateSchedule jobId s lastEvaluationAt).jobs jobId = some job' ∧
      Effect jobId r (.updateSchedule jobId s lastEvaluationAt)
        (r.updateSchedule jobId s lastEvaluationAt) job job' := by
  by_cases hsame : stored job = (s, lastEvaluationAt)
  · obtain ⟨rfl, rfl⟩ : job.toSchedule = s ∧ job.lastEvaluationAt = lastEvaluationAt :=
      Prod.mk.inj hsame
    have hr : r.updateSchedule jobId job.toSchedule job.lastEvaluationAt =
        r.writeSchedule jobId job.toSchedule job.lastEvaluationAt := by
      simp [updateSchedule, hjob, stored]
    refine ⟨job, by simp [hr, writeSchedule, hjob, rewrite_stored], ?_⟩
    refine .leaves ?_ rfl (by simp [hr, writeSchedule]) rfl
    rintro ⟨s', l', hop, hne⟩
    cases hop
    exact hne (by rw [hjob]; rfl)
  · have hr : r.updateSchedule jobId s lastEvaluationAt =
        (r.forget jobId).writeSchedule jobId s lastEvaluationAt := by
      simp [updateSchedule, hjob, hsame]
    refine ⟨rewrite s lastEvaluationAt job, by simp [hr, writeSchedule, hjob], ?_⟩
    refine .forgets ⟨s, lastEvaluationAt, rfl, ?_⟩ (by simp [hr, writeSchedule])
    rw [hjob, Option.map_some]
    exact fun h => hsame (Option.some.inj h)

lemma updateInPlace_effect {r : Repository} {jobId : String} {s₀ s : Schedule}
    {job : WatchdogJob} (hjob : r.jobs jobId = some job) (hin : r.inFlight jobId = some s₀) :
    ∃ job', (perform r (.updateInPlace jobId s)).jobs jobId = some job' ∧
      Effect jobId r (.updateInPlace jobId s) (perform r (.updateInPlace jobId s)) job job' := by
  refine ⟨rewrite s job.lastEvaluationAt job, ?_, ?_⟩
  · simp [perform, updateInPlace, hjob, writeSchedule]
  · refine .replaces (not_changes_of (by simp)) s₀ ?_ hin (by simp)
    simp [perform, updateInPlace, hjob, hin]

lemma effect_of_eq {jobId : String} {s₀ : Schedule} {r : Repository} {op : Op}
    {job : WatchdogJob} (hjob : r.jobs jobId = some job) (job' : WatchdogJob)
    (hop : ∀ s lastEvaluationAt, op ≠ .updateSchedule jobId s lastEvaluationAt)
    (hjob' : (perform r op).jobs jobId = some job') (hs : stored job' = stored job)
    (hu : (perform r op).updatedFrom jobId = r.updatedFrom jobId)
    (hin : (perform r op).inFlight jobId = some s₀) :
    InFlight jobId s₀ (perform r op) ∧ ∃ job job', r.jobs jobId = some job ∧
      (perform r op).jobs jobId = some job' ∧ Effect jobId r op (perform r op) job job' :=
  ⟨⟨⟨job', hjob'⟩, hin⟩, job, job', hjob, hjob', .of_eq hop hs hu⟩

/-- **What a call does** to a job while its delivery is in flight. -/
theorem perform_effect {jobId : String} {s₀ : Schedule} {r : Repository}
    (h : InFlight jobId s₀ r) {op : Op} (hop : op.During jobId) :
    InFlight jobId s₀ (perform r op) ∧ ∃ job job', r.jobs jobId = some job ∧
      (perform r op).jobs jobId = some job' ∧ Effect jobId r op (perform r op) job job' := by
  obtain ⟨job, hjob⟩ := h.job
  have hin := h.started
  cases op with
  | updateInPlace id s =>
    by_cases hid : jobId = id
    · subst hid
      obtain ⟨job', hjob', he⟩ := updateInPlace_effect (s := s) hjob hin
      refine ⟨⟨⟨job', hjob'⟩, ?_⟩, job, job', hjob, hjob', he⟩
      simpa [perform, updateInPlace, hjob, writeSchedule] using hin
    · cases hother : r.jobs id with
      | none =>
        have hr : perform r (.updateInPlace id s) = r := by simp [perform, hother]
        exact effect_of_eq hjob job (by simp) (by rw [hr, hjob]) rfl (by rw [hr]) (by rw [hr, hin])
      | some other =>
        refine effect_of_eq hjob job (by simp) ?_ rfl ?_ ?_
        · simp [perform, updateInPlace, hother, writeSchedule, hid, hjob]
        · simp [perform, updateInPlace, hother, hid]
        · simpa [perform, updateInPlace, hother, writeSchedule] using hin
  | updateSchedule id s lastEvaluationAt =>
    by_cases hid : jobId = id
    · subst hid
      obtain ⟨job', hjob', he⟩ := updateSchedule_effect hjob s lastEvaluationAt
      refine ⟨⟨⟨job', hjob'⟩, ?_⟩, job, job', hjob, hjob', he⟩
      simp only [perform, updateSchedule]
      split_ifs <;> simpa [writeSchedule] using hin
    · refine effect_of_eq hjob job (by simp [Ne.symm hid]) ?_ rfl ?_ ?_ <;>
        simp only [perform, updateSchedule] <;> split_ifs <;>
        simp [writeSchedule, hid, hjob, hin]
  | markTerminal id reason =>
    by_cases hid : jobId = id
    · subst hid
      refine effect_of_eq hjob { job with
        state := .terminal
        terminalReason := some reason } (by simp) ?_ rfl (release_updatedFrom hin _) hin
      simp [perform, markTerminal, hjob]
    · exact effect_of_eq hjob job (by simp) (by simp [perform, markTerminal, hid, hjob]) rfl
        (release_updatedFrom hin _) hin
  | stop id reason =>
    have leaves (hr : perform r (.stop id reason) = r) :=
      effect_of_eq hjob job (by simp : ∀ s l, Op.stop id reason ≠ .updateSchedule jobId s l)
        (by rw [hr, hjob]) rfl (by rw [hr]) (by rw [hr, hin])
    cases hother : r.jobs id with
    | none => exact leaves (by simp [perform, stop, hother])
    | some existing =>
      cases hstate : existing.state with
      | terminal => exact leaves (by simp [perform, stop, hother, hstate])
      | stopped => exact leaves (by simp [perform, stop, hother, hstate])
      | active =>
        have hr : perform r (.stop id reason) = (r.setJob id fun job =>
            { job with
              state := .stopped
              terminalReason := some reason }).releaseStoppedSchedules [id] := by
          simp [perform, stop, hother, hstate]
        by_cases hid : jobId = id
        · subst hid
          refine effect_of_eq hjob { job with
            state := .stopped
            terminalReason := some reason } (by simp) (by simp [hr, hjob]) rfl ?_
              (by rw [hr]; exact hin)
          rw [hr, release_updatedFrom (by exact hin), setJob_updatedFrom]
        · refine effect_of_eq hjob job (by simp) (by simp [hr, hid, hjob]) rfl ?_
            (by rw [hr]; exact hin)
          rw [hr, release_updatedFrom (by exact hin), setJob_updatedFrom]
  | dropArmed ids =>
    set stopping := ids.filter fun id => (r.jobs id).any fun job => job.state = .active
    by_cases hid : jobId ∈ stopping
    · refine effect_of_eq hjob (handedOver job) (by simp) ?_ rfl
        (release_updatedFrom hin _) hin
      simp only [perform, dropArmed, release_jobs]
      rw [if_pos hid, hjob, Option.map_some]
    · refine effect_of_eq hjob job (by simp) ?_ rfl (release_updatedFrom hin _) hin
      simp only [perform, dropArmed, release_jobs]
      rw [if_neg hid, hjob]
  | deliverySchedule id =>
    have hid : jobId ≠ id := Ne.symm hop
    refine effect_of_eq hjob job (by simp) ?_ rfl ?_ ?_ <;>
      cases hother : r.jobs id <;>
      simp [perform, Repository.deliverySchedule, hother, hid, hjob, hin]
  | deliveryAccounted id =>
    have hid : jobId ≠ id := Ne.symm hop
    refine effect_of_eq hjob job (by simp) hjob rfl ?_ ?_ <;>
      simp [perform, Repository.deliveryAccounted, hid, hin]
  | recordEvaluation id evaluatedAt fired schedule =>
    have hid : jobId ≠ id := Ne.symm hop
    refine effect_of_eq hjob job (by simp) ?_ rfl ?_ ?_ <;>
      cases fired <;> cases schedule <;>
      simp [perform, Repository.recordEvaluation, hid, hjob, hin]

/-! ### Runs while a delivery is in flight -/

/-- What `scheduleUnchanged` answers for the delivery. -/
def Unchanged (jobId : String) (r : Repository) (s : Schedule) : Prop :=
  HasSchedule jobId r s ∨ s ∈ r.updatedFrom jobId

lemma scheduleUnchanged_iff {jobId : String} {r : Repository} {job : WatchdogJob}
    (hjob : r.jobs jobId = some job) (s : Schedule) :
    r.scheduleUnchanged jobId job.toSchedule s = true ↔ Unchanged jobId r s := by
  simp [scheduleUnchanged, Unchanged, HasSchedule, hjob]

/-- Nothing but a reschedule makes a delivery's schedule another one, and only while the job does
not have it. -/
lemma unchanged_perform {jobId : String} {s₀ : Schedule} {r : Repository}
    (h : InFlight jobId s₀ r) {op : Op} (hop : op.During jobId) :
    Unchanged jobId (perform r op) s₀ ↔
      HasSchedule jobId (perform r op) s₀ ∨ (Unchanged jobId r s₀ ∧ ¬ Changes jobId r op) := by
  obtain ⟨_, job, job', hjob, hjob', he⟩ := perform_effect h hop
  refine or_congr_right' fun hhas => ?_
  cases he with
  | replaces hc s hkeep hstarted =>
    obtain rfl : s₀ = s := Option.some.inj (h.started.symm.trans hstarted)
    rw [hkeep, started_mem_keep, List.mem_append, List.mem_singleton, and_iff_left hc, Unchanged,
      HasSchedule]
    constructor
    · rintro (hmem | rfl)
      · exact .inr hmem
      · exact .inl ⟨job, hjob, rfl⟩
    · rintro (⟨job₀, hjob₀, rfl⟩ | hmem)
      · obtain rfl : job = job₀ := Option.some.inj (hjob.symm.trans hjob₀)
        exact .inr rfl
      · exact .inl hmem
  | forgets hc hnil => simp [hnil, hc]
  | leaves hc hsame hkept =>
    have hhad : ¬ HasSchedule jobId r s₀ := by
      rintro ⟨job₀, hjob₀, rfl⟩
      obtain rfl : job = job₀ := Option.some.inj (hjob.symm.trans hjob₀)
      exact hhas ⟨job', hjob', hsame⟩
    rw [hkept, and_iff_left hc, Unchanged, or_iff_right hhad]

lemma inFlight_run {jobId : String} {s₀ : Schedule} {r : Repository} (h : InFlight jobId s₀ r)
    {ops : List Op} (hops : ∀ op ∈ ops, op.During jobId) : InFlight jobId s₀ (run r ops) := by
  induction ops using List.reverseRecOn with
  | nil => exact h
  | append_singleton ops op ih =>
    rw [run_snoc]
    exact (perform_effect (ih fun o ho => hops o (List.mem_append_left _ ho))
      (hops op (by simp))).1

/-- **The remembered schedules say what stands**, over the whole run. -/
theorem unchanged_run {jobId : String} {s₀ : Schedule} {r : Repository} (h : InFlight jobId s₀ r)
    (hs : HasSchedule jobId r s₀) {ops : List Op} (hops : ∀ op ∈ ops, op.During jobId) :
    Unchanged jobId (run r ops) s₀ ↔ Stands jobId r s₀ ops := by
  induction ops using List.reverseRecOn with
  | nil => exact iff_of_true (.inl hs) ⟨[], [], rfl, hs, not_rescheduled_nil⟩
  | append_singleton ops op ih =>
    have hops' : ∀ o ∈ ops, o.During jobId := fun o ho => hops o (List.mem_append_left _ ho)
    rw [stands_snoc, run_snoc, unchanged_perform (inFlight_run h hops') (hops op (by simp)),
      ih hops']

lemma lastEvaluationAt_run {jobId : String} {s₀ : Schedule} {r : Repository}
    (h : InFlight jobId s₀ r) {job : WatchdogJob} (hjob : r.jobs jobId = some job) {ops : List Op}
    (hops : ∀ op ∈ ops, op.During jobId) (hn : ¬ Rescheduled jobId r ops) :
    ∃ current, (run r ops).jobs jobId = some current ∧
      current.lastEvaluationAt = job.lastEvaluationAt := by
  induction ops using List.reverseRecOn with
  | nil => exact ⟨job, hjob, rfl⟩
  | append_singleton ops op ih =>
    have hops' : ∀ o ∈ ops, o.During jobId := fun o ho => hops o (List.mem_append_left _ ho)
    rw [rescheduled_snoc, not_or] at hn
    obtain ⟨current, hcurrent, hlast⟩ := ih hops' hn.1
    obtain ⟨_, job₁, job₂, h₁, h₂, he⟩ := perform_effect (inFlight_run h hops') (hops op (by simp))
    obtain rfl : current = job₁ := Option.some.inj (hcurrent.symm.trans h₁)
    refine ⟨job₂, by rw [run_snoc, h₂], ?_⟩
    cases he with
    | replaces _ _ _ _ hl => exact hl.trans hlast
    | forgets hc _ => exact absurd hc hn.2
    | leaves _ _ _ hl => exact hl.trans hlast

/-! ### The wake -/

/-- The delivery's wake advances the due boundary. -/
def Counts (jobId : String) (r : Repository) (schedule current : WatchdogJob) (ops : List Op) :
    Prop :=
  current.state = .active ∧ current.lastEvaluationAt = schedule.lastEvaluationAt ∧
    Stands jobId r schedule.toSchedule ops

/-- **A delivered wake counts for the schedule it was sent under.** Whatever happens to the job
while its delivery is in flight, `scheduleUnchanged` says whether its spec and interval stood at
some moment since which no reschedule changed anything. The fire is always recorded, and the due
boundary advances exactly while the job is active, has the boundary of the start and that
schedule stood; both do where no reschedule changed anything. -/
theorem wake_counts {r₀ r : Repository} {jobId : String} {schedule : WatchdogJob}
    (h : r₀.deliverySchedule jobId = some (schedule, r)) {ops : List Op}
    (hops : ∀ op ∈ ops, op.During jobId) :
    ∃ current, (run r ops).jobs jobId = some current ∧
      ((run r ops).scheduleUnchanged jobId current.toSchedule schedule.toSchedule = true ↔
        Stands jobId r schedule.toSchedule ops) ∧
      (∀ evaluatedAt, ∃ after,
        ((run r ops).recordEvaluation jobId evaluatedAt true (some schedule)).jobs jobId =
            some after ∧
          after.lastFireAt = some evaluatedAt ∧ after.toSchedule = current.toSchedule ∧
          after.state = current.state ∧
          (Counts jobId r schedule current ops → after.lastEvaluationAt = some evaluatedAt) ∧
          (¬ Counts jobId r schedule current ops →
            after.lastEvaluationAt = current.lastEvaluationAt)) ∧
      (¬ Rescheduled jobId r ops → Stands jobId r schedule.toSchedule ops ∧
        current.lastEvaluationAt = schedule.lastEvaluationAt) := by
  obtain ⟨hjob, hin⟩ : r.jobs jobId = some schedule ∧
      r.inFlight jobId = some schedule.toSchedule := by
    cases hjob : r₀.jobs jobId with
    | none => simp [deliverySchedule, hjob] at h
    | some job =>
      obtain ⟨rfl, rfl⟩ : job = schedule ∧ _ = r := by simpa [deliverySchedule, hjob] using h
      exact ⟨hjob, by simp⟩
  have hflight : InFlight jobId schedule.toSchedule r := ⟨⟨schedule, hjob⟩, hin⟩
  have hhas : HasSchedule jobId r schedule.toSchedule := ⟨schedule, hjob, rfl⟩
  obtain ⟨current, hcurrent⟩ := (inFlight_run hflight hops).job
  have hstands := (scheduleUnchanged_iff hcurrent schedule.toSchedule).trans
    (unchanged_run hflight hhas hops)
  refine ⟨current, hcurrent, hstands, fun evaluatedAt => ?_,
    fun hn => ⟨⟨[], ops, rfl, hhas, hn⟩, ?_⟩⟩
  · refine ⟨_, (setJob_jobs_self ..).trans (congrArg (Option.map _) hcurrent), ?_⟩
    have hcounts := and_congr_right (a := current.state = .active) fun _ =>
      and_congr_right (a := current.lastEvaluationAt = schedule.lastEvaluationAt) fun _ => hstands
    beta_reduce
    by_cases hc : Counts jobId r schedule current ops
    · rw [if_pos (hcounts.mpr hc)]
      exact ⟨rfl, rfl, rfl, fun _ => rfl, fun hc' => absurd hc hc'⟩
    · rw [if_neg fun h => hc (hcounts.mp h)]
      exact ⟨rfl, rfl, rfl, fun hc' => absurd hc' hc, fun _ => rfl⟩
  · obtain ⟨current', hcurrent', hlast⟩ := lastEvaluationAt_run hflight hjob hops hn
    obtain rfl : current = current' := Option.some.inj (hcurrent.symm.trans hcurrent')
    exact hlast

/-! ### A job of two schedules -/

def build : Schedule := ⟨"check the build", 900⟩

def review : Schedule := ⟨"check the review", 60⟩

def watch : WatchdogJob := { toSchedule := build, lastEvaluationAt := some "09:00" }

def watched : Repository where
  jobs id := if id = "w1" then some watch else none

def sending : Repository :=
  { watched with inFlight := Function.update (fun _ => none) "w1" (some build) }

/-- The wake of a job updated meanwhile counts, but not that of one stopped then too. -/
theorem wake_counts_updated :
    (∃ after, ((run sending [.updateInPlace "w1" review]).recordEvaluation "w1" "10:00" true
        (some watch)).jobs "w1" = some after ∧
      after.lastFireAt = some "10:00" ∧ after.lastEvaluationAt = some "10:00") ∧
    ∃ after, ((run sending [.updateInPlace "w1" review, .stop "w1" "done"]).recordEvaluation "w1"
        "10:00" true (some watch)).jobs "w1" = some after ∧
      after.lastFireAt = some "10:00" ∧ after.lastEvaluationAt = some "09:00" := by
  have hstart : watched.deliverySchedule "w1" = some (watch, sending) := rfl
  constructor
  · have hops : ∀ op ∈ [Op.updateInPlace "w1" review], op.During "w1" := by simp [Op.During]
    obtain ⟨current, hcurrent, -, hwake, hkept⟩ := wake_counts hstart hops
    obtain ⟨after, hafter, hfire, -, -, hcounts, -⟩ := hwake "10:00"
    have hn : ¬ Rescheduled "w1" sending [.updateInPlace "w1" review] := by
      rw [← List.nil_append [_], rescheduled_snoc, not_or]
      exact ⟨not_rescheduled_nil, by simp [Changes]⟩
    obtain ⟨hstands, hlast⟩ := hkept hn
    have hactive : current.state = .active := by
      obtain rfl := Option.some.inj hcurrent
      rfl
    exact ⟨after, hafter, hfire, hcounts ⟨hactive, hlast, hstands⟩⟩
  · have hops : ∀ op ∈ [Op.updateInPlace "w1" review, .stop "w1" "done"], op.During "w1" := by
      simp [Op.During]
    obtain ⟨current, hcurrent, -, hwake, -⟩ := wake_counts hstart hops
    obtain ⟨after, hafter, hfire, -, -, -, hnot⟩ := hwake "10:00"
    obtain rfl := Option.some.inj hcurrent
    exact ⟨after, hafter, hfire, hnot fun h => by cases h.1⟩

/-- A job rescheduled and put back counts its wake, and one whose boundary alone was rescheduled
after an update no longer answers for its schedule. -/
theorem put_back_counts :
    (Rescheduled "w1" sending
        [.updateSchedule "w1" review (some "09:00"), .updateSchedule "w1" build (some "09:00")] ∧
      (((run sending [.updateSchedule "w1" review (some "09:00"),
        .updateSchedule "w1" build (some "09:00")]).recordEvaluation "w1" "10:00" true
          (some watch)).jobs "w1").map (·.lastEvaluationAt) = some (some "10:00")) ∧
    (HasSchedule "w1" (run sending [.updateInPlace "w1" review]) review ∧
      (run sending [.updateInPlace "w1" review,
        .updateSchedule "w1" review (some "09:30")]).scheduleUnchanged "w1" review build =
          false) := by
  refine ⟨⟨⟨[], _, _, rfl, review, some "09:00", rfl, by decide⟩, by decide⟩, ⟨_, rfl, rfl⟩, ?_⟩
  decide

end OpenRig.DeliverySchedules
