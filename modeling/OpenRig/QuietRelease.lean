import OpenRig.Runs
import OpenRig.DeliveryNotes
import Mathlib.Data.List.Nodup

/-!
Quiet hours: asks held while a person's quiet is on, and the release job of each window that posts
them once quiet is off.

A hold and its job are one transaction. A release awaits the alert list and then each verdict, and
a check at post time awaits the alert list; anything else runs in between, and the daemon may die.
-/

namespace OpenRig.QuietRelease

open OpenRig.Delivery OpenRig.Runs

inductive JobState where
  | active | terminal
  deriving DecidableEq

/-- A `quiet-release` job. Ids count the jobs registered. -/
structure Job where
  jobId : ℕ
  windowId : String
  entityId : String
  state : JobState := .active
  deriving DecidableEq

/-- A current alert: its notification key and its recipient. -/
structure Alert where
  notificationKey : NotificationKey
  entityId : String
  deriving DecidableEq

/-- What a verdict reads of the row: whether it is live, and its latest owner notification. -/
structure RowView where
  live : Bool
  latest : Option NotificationKey
  deriving DecidableEq

inductive ReleaseVerdict where
  | post (alert : Alert)
  | quiet (windowId : String)
  | disposition (reason : ReleaseDisposition)
  | unavailable
  deriving DecidableEq

/-- `currentAskVerdict`, once it has the alerts: `none` when they could not be read. -/
def currentAskVerdict (alerts : Option (List Alert)) (row : RowView) (entityId : String)
    (key : NotificationKey) : ReleaseVerdict :=
  match alerts with
  | none => .unavailable
  | some alerts =>
    let alert := alerts.find? fun a => a.notificationKey = key
    match alert.filter fun a => a.entityId = entityId with
    | some a => .post a
    | none => .disposition <|
        if !row.live then .rowNotActive
        else if row.latest.any fun k => k ≠ key then .superseded
        else if alert.isSome then .recipientChanged
        else .belowPostingThreshold

/-- A person's quiet state as it reads: off, on under a window, or not readable. -/
inductive QuietRead where
  | off | on (windowId : String) | unreadable
  deriving DecidableEq

/-- An evaluation of a release job that awaits something. -/
structure Release where
  job : Job
  /-- The held asks still to look at, in order. -/
  todo : List (NotificationKey × String)
  /-- `none` until the alert list is read. -/
  alerts : Option (Option (List Alert)) := none
  /-- The verdict awaited for the first of them, with the notes read before it. -/
  verdict : Option (ReleaseVerdict × List Note) := none
  openCount : ℕ := 0
  deriving DecidableEq

/-- A `confirmReleaseAtPost` that awaits the alert list. -/
structure Confirm where
  entityId : String
  qitemId : String
  notificationKey : NotificationKey
  deriving DecidableEq

inductive Answer where
  | post | declined | retry
  deriving DecidableEq

/-- The daemon. `calls` records each committed `holdForQuiet` with the number of notes before it,
and `answers` each answer at post time with whether the person's quiet was on. -/
structure Daemon where
  transitions : Transitions := []
  jobs : List Job := []
  /-- The windows whose quiet is on, by person. -/
  quiet : List (String × String) := []
  running : Option Release := none
  confirms : List Confirm := []
  calls : List (NotificationKey × ℕ) := []
  answers : List (Answer × Bool) := []
  deriving DecidableEq

namespace Daemon

/-! ### Notes and jobs -/

def notesOf (s : Daemon) (qitemId : String) : List Note := s.transitions.listTransitions qitemId

def note (s : Daemon) (qitemId : String) (n : Note) : Daemon :=
  { s with transitions := s.transitions ++ [(qitemId, n)] }

/-- The window a person's quiet is on under. -/
def quietWindow (s : Daemon) (entityId : String) : Option String :=
  (s.quiet.find? fun e => e.1 = entityId).map Prod.snd

/-- `quietHoldFor`, which throws when the state cannot be read. -/
def quietHoldFor (s : Daemon) (entityId : String) (readable : Bool) : QuietRead :=
  if !readable then .unreadable
  else match s.quietWindow entityId with
    | some windowId => .on windowId
    | none => .off

/-- A note that ends custody of the key. -/
def resolves (key : NotificationKey) : Note → Bool
  | .posted k => k = key
  | .accepted k => k = key
  | .quietDisposition _ k _ => k = key
  | _ => false

def resolved (s : Daemon) (qitemId : String) (key : NotificationKey) : Bool :=
  (s.notesOf qitemId).any (resolves key)

/-- The hold a note records under the window. -/
def heldUnder (windowId : String) : Note → Option NotificationKey
  | .quietHold hold => if hold.windowId = windowId then some hold.notificationKey else none
  | _ => none

def heldKeys (s : Daemon) (windowId : String) : List (NotificationKey × String) :=
  s.transitions.filterMap fun e => (heldUnder windowId e.2).map fun key => (key, e.1)

def releases (windowId : String) (j : Job) : Bool := j.state = .active && j.windowId = windowId

def armQuietRelease (s : Daemon) (windowId entityId : String) : Daemon :=
  match s.jobs.find? (releases windowId) with
  | some _ => s
  | none => { s with jobs := s.jobs ++ [{ jobId := s.jobs.length, windowId, entityId }] }

/-- A hold of an ask, whose notification is of its row. -/
structure HoldInput where
  qitemId : String
  entityId : String
  hold : QuietHold
  ofRow : hold.notificationKey.qitemId = qitemId

/-- The hold of a note is for the key. -/
def holds (key : NotificationKey) : Note → Bool
  | .quietHold hold => hold.notificationKey = key
  | _ => false

/-- `holdForQuiet`: the job and the note in one transaction. -/
def holdForQuiet (s : Daemon) (i : HoldInput) : Daemon :=
  let s := s.armQuietRelease i.hold.windowId i.entityId
  if (s.notesOf i.qitemId).any (holds i.hold.notificationKey) then s
  else s.note i.qitemId (.quietHold i.hold)

def markTerminal (s : Daemon) (jobId : ℕ) : Daemon :=
  { s with
    jobs := s.jobs.map fun j => if j.jobId = jobId then { j with state := .terminal } else j }

/-! ### The release job -/

/-- A map's entries in insertion order: the first place of a key, with its latest value. -/
def toMap (entries : List (NotificationKey × String)) : List (NotificationKey × String) :=
  entries.foldl (fun m e =>
    if m.any fun p => p.1 = e.1 then m.map fun p => if p.1 = e.1 then e else p else m ++ [e]) []

/-- `runQuietRelease` up to its first await. -/
def beginRelease (s : Daemon) (jobId : ℕ) (readable : Bool) : Daemon :=
  match s.jobs.find? fun j => j.jobId = jobId with
  | none => s
  | some job =>
    if job.state ≠ .active then s
    else match s.quietHoldFor job.entityId readable with
      | .on _ => s
      | .unreadable => s
      | .off => { s with running := some { job, todo := toMap (s.heldKeys job.windowId) } }

/-- A release, or the return of one, as the row records it. -/
def isReleaseStep (key : NotificationKey) : Note → Bool
  | .quietDispatched _ k => k = key
  | .quietReturned _ k => k = key
  | _ => false

/-- The latest release step is a dispatch. -/
def lastDispatched (key : NotificationKey) (notes : List Note) : Bool :=
  match notes.reverse.find? (isReleaseStep key) with
  | some (.quietDispatched ..) => true
  | _ => false

/-- The first held ask: resolved asks and unread alerts need no await. -/
def lookAt (s : Daemon) (r : Release) (key : NotificationKey) (qitemId : String)
    (rest : List (NotificationKey × String)) (alerts : Option (List Alert)) (row : RowView)
    (readable : Bool) : Release :=
  let notes := s.notesOf qitemId
  if s.resolved qitemId key then { r with todo := rest }
  else match alerts with
    | none => { r with todo := rest, openCount := r.openCount + 1 }
    | some alerts =>
      let verdict := match s.quietHoldFor r.job.entityId readable with
        | .unreadable => .unavailable
        | .on windowId => .quiet windowId
        | .off => currentAskVerdict (some alerts) row r.job.entityId key
      { r with verdict := some (verdict, notes) }

/-- The rest of the loop's body, with the answer of `dispatch`. -/
def applyVerdict (s : Daemon) (r : Release) (key : NotificationKey) (qitemId : String)
    (rest : List (NotificationKey × String)) (notes : List Note) (verdict : ReleaseVerdict)
    (dispatched : Bool) : Daemon :=
  let r := { r with todo := rest, verdict := none }
  let open_ := some { r with openCount := r.openCount + 1 }
  match verdict with
  | .quiet _ => { s with running := open_ }
  | .unavailable => { s with running := open_ }
  | .post _ =>
    let s := { s with running := open_ }
    if dispatched && !lastDispatched key notes then
      s.note qitemId (.quietDispatched r.job.windowId key)
    else s
  | .disposition reason =>
    ({ s with running := some r } : Daemon).note qitemId
      (.quietDisposition r.job.windowId key reason)

/-- The end of a release: nothing is awaited between the last read and the retirement. -/
def endRelease (s : Daemon) (r : Release) : Daemon :=
  let s := { s with running := none }
  if r.openCount = 0 then
    if (s.heldKeys r.job.windowId).any fun e => !s.resolved e.2 e.1 then s
    else s.markTerminal r.job.jobId
  else s

/-! ### The check at post time -/

def answer (s : Daemon) (entityId : String) (a : Answer) : Daemon :=
  { s with answers := s.answers ++ [(a, (s.quietWindow entityId).isSome)] }

/-- `confirmReleaseAtPost` up to its await. -/
def beginConfirm (s : Daemon) (c : Confirm) (readable : Bool) : Daemon :=
  match s.quietHoldFor c.entityId readable with
  | .unreadable => s.answer c.entityId .retry
  | .on windowId =>
    ((s.armQuietRelease windowId c.entityId).note c.qitemId
      (.quietReturned windowId c.notificationKey)).answer c.entityId .declined
  | .off => { s with confirms := s.confirms ++ [c] }

/-- The window a disposition names: that of the key's first hold. -/
def windowOf (notes : List Note) (key : NotificationKey) : String :=
  match notes.find? (holds key) with
  | some (.quietHold hold) => hold.windowId
  | _ => "unknown"

def isDisposition (key : NotificationKey) : Note → Bool
  | .quietDisposition _ k _ => k = key
  | _ => false

/-- `confirmReleaseAtPost` behind its await. -/
def endConfirm (s : Daemon) (c : Confirm) (alerts : Option (List Alert)) (row : RowView) : Daemon :=
  match currentAskVerdict alerts row c.entityId c.notificationKey with
  | .post _ => s.answer c.entityId .post
  | .unavailable => s.answer c.entityId .retry
  | .quiet _ => s.answer c.entityId .retry
  | .disposition reason =>
    let notes := s.notesOf c.qitemId
    let s := if notes.any (isDisposition c.notificationKey) then s
      else s.note c.qitemId
        (.quietDisposition (windowOf notes c.notificationKey) c.notificationKey reason)
    s.answer c.entityId .declined

/-! ### Receipts -/

/-- `onPosted`: a receipt of either transport is enough. -/
def recordPosted (s : Daemon) (qitemId : String) (key : NotificationKey) : Daemon :=
  if (s.notesOf qitemId).any fun n => n = .posted key || n = .accepted key then s
  else s.note qitemId (.posted key)

def recordRelayOwnerNotificationAccepted (s : Daemon) (qitemId : String) (key : NotificationKey) :
    Daemon :=
  if (s.notesOf qitemId).contains (.accepted key) then s else s.note qitemId (.accepted key)

/-! ### Steps -/

inductive Label where
  | hold (i : HoldInput)
  | quietOn (entityId windowId : String)
  | quietOff (entityId : String)
  | beginRelease (jobId : ℕ) (readable : Bool)
  | readAlerts (alerts : Option (List Alert))
  | lookAt (row : RowView) (readable : Bool)
  | applyVerdict (dispatched : Bool)
  | endRelease
  | beginConfirm (c : Confirm) (readable : Bool)
  | endConfirm (c : Confirm) (alerts : Option (List Alert)) (row : RowView)
  | posted (qitemId : String) (key : NotificationKey)
  | accepted (qitemId : String) (key : NotificationKey)
  | note (qitemId text : String)
  | restart

def step (s : Daemon) : Label → Option Daemon
  | .hold i => some { s.holdForQuiet i with
      calls := s.calls ++ [(i.hold.notificationKey, s.transitions.length)] }
  | .quietOn entityId windowId => some { s with
      quiet := (entityId, windowId) :: s.quiet.filter fun e => e.1 ≠ entityId }
  | .quietOff entityId => some { s with quiet := s.quiet.filter fun e => e.1 ≠ entityId }
  | .beginRelease jobId readable =>
    match s.running with
    | some _ => none
    | none => some (s.beginRelease jobId readable)
  | .readAlerts alerts =>
    match s.running with
    | some r =>
      if r.alerts.isSome then none
      else some { s with running := some { r with alerts := some alerts } }
    | none => none
  | .lookAt row readable =>
    match s.running with
    | some r =>
      match r.alerts, r.todo, r.verdict with
      | some alerts, (key, qitemId) :: rest, none =>
        some { s with running := some (s.lookAt r key qitemId rest alerts row readable) }
      | _, _, _ => none
    | none => none
  | .applyVerdict dispatched =>
    match s.running with
    | some r =>
      match r.todo, r.verdict with
      | (key, qitemId) :: rest, some (verdict, notes) =>
        some (s.applyVerdict r key qitemId rest notes verdict dispatched)
      | _, _ => none
    | none => none
  | .endRelease =>
    match s.running with
    | some r =>
      match r.alerts, r.todo with
      | some _, [] => some (s.endRelease r)
      | _, _ => none
    | none => none
  | .beginConfirm c readable => some (s.beginConfirm c readable)
  | .endConfirm c alerts row =>
    if c ∈ s.confirms then
      some ({ s with confirms := s.confirms.erase c }.endConfirm c alerts row)
    else none
  | .posted qitemId key => some (s.recordPosted qitemId key)
  | .accepted qitemId key => some (s.recordRelayOwnerNotificationAccepted qitemId key)
  | .note qitemId text => some (s.note qitemId (.other text))
  | .restart => some { s with running := none, confirms := [] }

def Step (s : Daemon) (l : Label) (t : Daemon) : Prop := s.step l = some t

/-! ### What the claims of custody say -/

/-- The number of notes before the latest hold of the key. -/
def latestCall (s : Daemon) (key : NotificationKey) : Option ℕ :=
  (s.calls.reverse.find? fun c => c.1 = key).map Prod.snd

/-- A receipt or a disposition of the key came behind the first `n` notes. -/
def resolvedSince (s : Daemon) (n : ℕ) (key : NotificationKey) : Bool :=
  (Transitions.listTransitions (s.transitions.drop n) key.qitemId).any (resolves key)

/-- **Custody**: an ask not resolved since its latest hold is in the held set of an active job,
which does not take it for resolved. -/
def InCustody (s : Daemon) : Prop :=
  ∀ key n, s.latestCall key = some n → s.resolvedSince n key = false →
    ∃ j ∈ s.jobs, j.state = .active ∧ (key, key.qitemId) ∈ s.heldKeys j.windowId ∧
      s.resolved key.qitemId key = false

/-- No answer at post time was `post` while the person's quiet was on. -/
def PostsOff (s : Daemon) : Prop := ∀ a ∈ s.answers, a.1 = .post → a.2 = false

/-- A hold is of an ask not resolved before, and no check resumes to a post after the person's quiet
came on during its await. -/
def Careful (s : Daemon) : Label → Prop
  | .hold i => s.resolved i.qitemId i.hold.notificationKey = false
  | .endConfirm c alerts row => ∀ a,
      currentAskVerdict alerts row c.entityId c.notificationKey = .post a →
        s.quietWindow c.entityId = none
  | _ => True

/-- Nothing held, no job, nothing in flight. -/
structure Fresh (s : Daemon) : Prop where
  transitions : ∀ e ∈ s.transitions, ∀ w, heldUnder w e.2 = none
  jobs : s.jobs = []
  running : s.running = none
  calls : s.calls = []
  answers : s.answers = []

/-! ### The invariant -/

/-- **The invariant**: every held ask is resolved or has an active job of its window, and every
hold has its note. -/
structure Sound (s : Daemon) : Prop where
  ids : s.jobs.map Job.jobId = List.range s.jobs.length
  covered : ∀ w, ∀ e ∈ s.heldKeys w, s.resolved e.2 e.1 = true ∨ ∃ j ∈ s.jobs, releases w j = true
  noted : ∀ c ∈ s.calls, ∃ w, (c.1, c.1.qitemId) ∈ s.heldKeys w
  past : ∀ c ∈ s.calls, c.2 ≤ s.transitions.length
  running : ∀ r, s.running = some r →
    ∃ j ∈ s.jobs, j.jobId = r.job.jobId ∧ j.windowId = r.job.windowId

/-- What any step but a hold can do to the notes and the jobs. -/
structure Effect (s t : Daemon) : Prop where
  calls : t.calls = s.calls
  transitions : ∃ new, t.transitions = s.transitions ++ new ∧
    ∀ e ∈ new, ∀ w, heldUnder w e.2 = none
  jobs : t.jobs = s.jobs ∨ (∃ w e, t.jobs = (s.armQuietRelease w e).jobs) ∨
    ∃ r, s.running = some r ∧ (∀ e ∈ s.heldKeys r.job.windowId, s.resolved e.2 e.1 = true) ∧
      t.running = none ∧ t.jobs = (s.markTerminal r.job.jobId).jobs
  running : ∀ r, t.running = some r →
    r.job ∈ s.jobs ∨ ∃ r₀, s.running = some r₀ ∧ r.job = r₀.job

lemma notesOf_append {s t : Daemon} {new : Transitions} (h : t.transitions = s.transitions ++ new)
    (q : String) : t.notesOf q = s.notesOf q ++ new.listTransitions q := by
  rw [notesOf, h, Transitions.listTransitions_append]
  rfl

lemma resolved_append {s t : Daemon} {new : Transitions}
    (h : t.transitions = s.transitions ++ new) (q : String) (key : NotificationKey) :
    t.resolved q key = (s.resolved q key || (new.listTransitions q).any (resolves key)) := by
  rw [resolved, notesOf_append h, List.any_append]
  rfl

lemma heldKeys_append {s t : Daemon} {new : Transitions} (h : t.transitions = s.transitions ++ new)
    (hnew : ∀ e ∈ new, ∀ w, heldUnder w e.2 = none) (w : String) :
    t.heldKeys w = s.heldKeys w := by
  have hnil : (new.filterMap fun e => (heldUnder w e.2).map fun key => (key, e.1)) = [] :=
    List.filterMap_eq_nil_iff.mpr fun e he => by rw [hnew e he w]; rfl
  rw [heldKeys, h, List.filterMap_append, hnil, List.append_nil]
  rfl

lemma armQuietRelease_jobs (s : Daemon) (w e : String) :
    (∃ j ∈ (s.armQuietRelease w e).jobs, releases w j = true) ∧
      ∃ new, (s.armQuietRelease w e).jobs = s.jobs ++ new ∧
        (s.armQuietRelease w e).jobs.map Job.jobId =
          s.jobs.map Job.jobId ++ (List.range new.length).map (s.jobs.length + ·) := by
  rw [armQuietRelease]
  cases hfind : s.jobs.find? (releases w) with
  | some j =>
    exact ⟨⟨j, List.mem_of_find?_eq_some hfind, List.find?_some hfind⟩, [], by simp⟩
  | none =>
    refine ⟨⟨{ jobId := s.jobs.length, windowId := w, entityId := e },
      List.mem_append_right _ (List.mem_singleton_self _), by simp [releases]⟩,
      [{ jobId := s.jobs.length, windowId := w, entityId := e }], rfl, ?_⟩
    simp

lemma Sound.eq_of_jobId {s : Daemon} (h : Sound s) {j j' : Job} (hj : j ∈ s.jobs)
    (hj' : j' ∈ s.jobs) (hid : j.jobId = j'.jobId) : j = j' := by
  have hnodup : (s.jobs.map Job.jobId).Nodup := h.ids ▸ List.nodup_range
  exact List.inj_on_of_nodup_map hnodup hj hj' hid

/-- **Every effect keeps the invariant.** -/
theorem Sound.effect {s t : Daemon} (h : Sound s) (he : Effect s t) : Sound t := by
  obtain ⟨new, htrans, hnew⟩ := he.transitions
  have hheld := heldKeys_append htrans hnew
  have hresolved : ∀ q key, s.resolved q key = true → t.resolved q key = true := by
    intro q key hr
    rw [resolved_append htrans, hr]
    rfl
  have hnoted : ∀ c ∈ t.calls, ∃ w, (c.1, c.1.qitemId) ∈ t.heldKeys w := by
    intro c hc
    obtain ⟨w, hw⟩ := h.noted c (he.calls ▸ hc)
    exact ⟨w, (hheld w).symm ▸ hw⟩
  have hpast : ∀ c ∈ t.calls, c.2 ≤ t.transitions.length := by
    intro c hc
    rw [htrans, List.length_append]
    exact Nat.le_trans (h.past c (he.calls ▸ hc)) (Nat.le_add_right _ _)
  have hjob : ∀ r, t.running = some r →
      ∃ j ∈ s.jobs, j.jobId = r.job.jobId ∧ j.windowId = r.job.windowId := by
    intro r hr
    rcases he.running r hr with hmem | ⟨r₀, hr₀, hsame⟩
    · exact ⟨r.job, hmem, rfl, rfl⟩
    · rw [hsame]
      exact h.running r₀ hr₀
  rcases he.jobs with hjobs | ⟨w, e, hjobs⟩ | ⟨r, hr, hall, hidle, hjobs⟩
  · refine ⟨hjobs ▸ h.ids, fun w e hmem => ?_, hnoted, hpast, fun r hr => ?_⟩
    · rw [hheld] at hmem
      rcases h.covered w e hmem with hr | hj
      · exact .inl (hresolved _ _ hr)
      · exact .inr (hjobs ▸ hj)
    · rw [hjobs]
      exact hjob r hr
  · obtain ⟨_, added, hadd, hids⟩ := armQuietRelease_jobs s w e
    rw [← hjobs] at hadd hids
    refine ⟨?_, fun w' e' hmem => ?_, hnoted, hpast, fun r hr => ?_⟩
    · rw [hids, h.ids, hadd, List.length_append, List.range_add]
    · rw [hheld] at hmem
      rcases h.covered w' e' hmem with hr | ⟨j, hj, hrel⟩
      · exact .inl (hresolved _ _ hr)
      · exact .inr ⟨j, hadd ▸ List.mem_append_left _ hj, hrel⟩
    · obtain ⟨j, hj, hsame⟩ := hjob r hr
      exact ⟨j, hadd ▸ List.mem_append_left _ hj, hsame⟩
  · refine ⟨?_, fun w e hmem => ?_, hnoted, hpast, fun r' hr' => ?_⟩
    · have hsame : t.jobs.map Job.jobId = s.jobs.map Job.jobId := by
        rw [hjobs, markTerminal, List.map_map]
        apply List.map_congr_left
        intro j _
        simp only [Function.comp_apply]
        split <;> rfl
      rw [hsame, h.ids, hjobs, markTerminal, List.length_map]
    · rw [hheld] at hmem
      by_cases hw : w = r.job.windowId
      · subst hw
        exact .inl (hresolved _ _ (hall e hmem))
      · rcases h.covered w e hmem with hr' | ⟨j, hj, hrel⟩
        · exact .inl (hresolved _ _ hr')
        · refine .inr ⟨j, ?_, hrel⟩
          rw [hjobs]
          refine List.mem_map.mpr ⟨j, hj, if_neg fun hid => hw ?_⟩
          obtain ⟨j₀, hj₀, hid₀, hwin₀⟩ := h.running r hr
          obtain rfl := h.eq_of_jobId hj hj₀ (hid.trans hid₀.symm)
          have hwin : j.windowId = w := by
            simp only [releases, Bool.and_eq_true, decide_eq_true_eq] at hrel
            exact hrel.2
          exact hwin.symm.trans hwin₀
    · rw [hidle] at hr'
      cases hr'

/-! ### Steps but holds -/

lemma Effect.quiet {s t : Daemon} (hcalls : t.calls = s.calls)
    (htrans : t.transitions = s.transitions)
    (hjobs : t.jobs = s.jobs)
    (hrun : ∀ r, t.running = some r → r.job ∈ s.jobs ∨ ∃ r₀, s.running = some r₀ ∧ r.job = r₀.job) :
    Effect s t :=
  ⟨hcalls, ⟨[], by rw [htrans, List.append_nil], by simp⟩, .inl hjobs, hrun⟩

lemma Effect.of_note {s t : Daemon} {q : String} {n : Note} (hn : ∀ w, heldUnder w n = none)
    (hcalls : t.calls = s.calls) (htrans : t.transitions = s.transitions ++ [(q, n)])
    (hjobs : t.jobs = s.jobs)
    (hrun : ∀ r, t.running = some r → r.job ∈ s.jobs ∨ ∃ r₀, s.running = some r₀ ∧ r.job = r₀.job) :
    Effect s t := by
  refine ⟨hcalls, ⟨[(q, n)], htrans, fun e he w => ?_⟩, .inl hjobs, hrun⟩
  obtain rfl := List.mem_singleton.mp he
  exact hn w

lemma running_same {s t : Daemon} (h : t.running = s.running) :
    ∀ r, t.running = some r → r.job ∈ s.jobs ∨ ∃ r₀, s.running = some r₀ ∧ r.job = r₀.job :=
  fun r hr => .inr ⟨r, h ▸ hr, rfl⟩

lemma running_none {s t : Daemon} (h : t.running = none) :
    ∀ r, t.running = some r → r.job ∈ s.jobs ∨ ∃ r₀, s.running = some r₀ ∧ r.job = r₀.job := by
  intro r hr
  rw [h] at hr
  cases hr

lemma running_job {s t : Daemon} {r : Release} (hr : s.running = some r) {job : Job}
    (hjob : job = r.job) (h : ∀ r', t.running = some r' → r'.job = job) :
    ∀ r', t.running = some r' → r'.job ∈ s.jobs ∨ ∃ r₀, s.running = some r₀ ∧ r'.job = r₀.job :=
  fun r' hr' => .inr ⟨r, hr, (h r' hr').trans hjob⟩

/-- **What a step but a hold does.** -/
theorem step_effect {s t : Daemon} {l : Label} (hstep : Step s l t) (hl : ∀ i, l ≠ .hold i) :
    Effect s t := by
  cases l with
  | hold i => exact absurd rfl (hl i)
  | quietOn entityId windowId =>
    obtain rfl := Option.some.inj hstep
    exact .quiet rfl rfl rfl (running_same rfl)
  | quietOff entityId =>
    obtain rfl := Option.some.inj hstep
    exact .quiet rfl rfl rfl (running_same rfl)
  | beginRelease jobId readable =>
    cases hrun : s.running with
    | some r => simp [Step, step, hrun] at hstep
    | none =>
      simp only [Step, step, hrun, Option.some.injEq] at hstep
      subst hstep
      have hsame : Effect s s := .quiet rfl rfl rfl (running_same rfl)
      rw [beginRelease]
      cases hfind : s.jobs.find? (fun j => j.jobId = jobId) with
      | none => exact hsame
      | some job =>
        simp only
        split
        · exact hsame
        · split
          · exact hsame
          · exact hsame
          · refine .quiet rfl rfl rfl fun r hr => .inl ?_
            obtain rfl := Option.some.inj hr
            exact List.mem_of_find?_eq_some hfind
  | readAlerts alerts =>
    cases hrun : s.running with
    | none => simp [Step, step, hrun] at hstep
    | some r =>
      simp only [Step, step, hrun] at hstep
      split at hstep
      · cases hstep
      · obtain rfl := Option.some.inj hstep
        exact .quiet rfl rfl rfl (running_job hrun rfl fun r' hr' => by
          obtain rfl := Option.some.inj hr'
          rfl)
  | lookAt row readable =>
    cases hrun : s.running with
    | none => simp [Step, step, hrun] at hstep
    | some r =>
      simp only [Step, step, hrun] at hstep
      split at hstep
      · obtain rfl := Option.some.inj hstep
        refine .quiet rfl rfl rfl (running_job hrun rfl fun r' hr' => ?_)
        obtain rfl := Option.some.inj hr'
        simp only [Daemon.lookAt]
        split
        · rfl
        · split <;> rfl
      · cases hstep
  | applyVerdict dispatched =>
    cases hrun : s.running with
    | none => simp [Step, step, hrun] at hstep
    | some r =>
      simp only [Step, step, hrun] at hstep
      split at hstep
      · rename_i key qitemId rest verdict notes htodo hverdict
        obtain rfl := Option.some.inj hstep
        cases verdict with
        | quiet w =>
          exact .quiet rfl rfl rfl (running_job hrun rfl fun r' hr' => by
            obtain rfl := Option.some.inj hr'
            rfl)
        | unavailable =>
          exact .quiet rfl rfl rfl (running_job hrun rfl fun r' hr' => by
            obtain rfl := Option.some.inj hr'
            rfl)
        | post alert =>
          simp only [Daemon.applyVerdict]
          split
          · exact .of_note (fun _ => rfl) rfl rfl rfl (running_job hrun rfl fun r' hr' => by
              obtain rfl := Option.some.inj hr'
              rfl)
          · exact .quiet rfl rfl rfl (running_job hrun rfl fun r' hr' => by
              obtain rfl := Option.some.inj hr'
              rfl)
        | disposition reason =>
          exact .of_note (fun _ => rfl) rfl rfl rfl (running_job hrun rfl fun r' hr' => by
            obtain rfl := Option.some.inj hr'
            rfl)
      · cases hstep
  | endRelease =>
    cases hrun : s.running with
    | none => simp [Step, step, hrun] at hstep
    | some r =>
      simp only [Step, step, hrun] at hstep
      split at hstep
      · obtain rfl := Option.some.inj hstep
        simp only [Daemon.endRelease]
        split
        · split
          · exact .quiet rfl rfl rfl (running_none rfl)
          · rename_i hnone
            simp only [List.any_eq_true, Bool.not_eq_eq_eq_not, Bool.not_true, not_exists, not_and,
              Bool.not_eq_false] at hnone
            exact ⟨rfl, ⟨[], by simp [markTerminal], by simp⟩,
              .inr (.inr ⟨r, hrun, hnone, rfl, rfl⟩),
              running_none rfl⟩
        · exact .quiet rfl rfl rfl (running_none rfl)
      · cases hstep
  | beginConfirm c readable =>
    obtain rfl := Option.some.inj hstep
    rw [Daemon.beginConfirm]
    split
    · exact .quiet rfl rfl rfl (running_same rfl)
    · rename_i windowId _
      have hother : (s.armQuietRelease windowId c.entityId).calls = s.calls ∧
          (s.armQuietRelease windowId c.entityId).transitions = s.transitions ∧
          (s.armQuietRelease windowId c.entityId).running = s.running := by
        rw [armQuietRelease]
        split <;> exact ⟨rfl, rfl, rfl⟩
      refine ⟨hother.1, ⟨[(c.qitemId, .quietReturned windowId c.notificationKey)], ?_, ?_⟩,
        .inr (.inl ⟨windowId, c.entityId, rfl⟩), running_same hother.2.2⟩
      · simp only [answer, note, hother.2.1]
      · intro e he w
        obtain rfl := List.mem_singleton.mp he
        rfl
    · exact .quiet rfl rfl rfl (running_same rfl)
  | endConfirm c alerts row =>
    simp only [Step, step] at hstep
    split at hstep
    · obtain rfl := Option.some.inj hstep
      simp only [Daemon.endConfirm]
      split
      · exact .quiet rfl rfl rfl (running_same rfl)
      · exact .quiet rfl rfl rfl (running_same rfl)
      · exact .quiet rfl rfl rfl (running_same rfl)
      · split
        · exact .quiet rfl rfl rfl (running_same rfl)
        · exact .of_note (fun _ => rfl) rfl rfl rfl (running_same rfl)
    · cases hstep
  | posted qitemId key =>
    obtain rfl := Option.some.inj hstep
    rw [recordPosted]
    split
    · exact .quiet rfl rfl rfl (running_same rfl)
    · exact .of_note (fun _ => rfl) rfl rfl rfl (running_same rfl)
  | accepted qitemId key =>
    obtain rfl := Option.some.inj hstep
    rw [recordRelayOwnerNotificationAccepted]
    split
    · exact .quiet rfl rfl rfl (running_same rfl)
    · exact .of_note (fun _ => rfl) rfl rfl rfl (running_same rfl)
  | note qitemId text =>
    obtain rfl := Option.some.inj hstep
    exact .of_note (fun _ => rfl) rfl rfl rfl (running_same rfl)
  | restart =>
    obtain rfl := Option.some.inj hstep
    exact .quiet rfl rfl rfl (running_none rfl)

/-! ### Holds -/

lemma mem_notesOf {s : Daemon} {q : String} {n : Note} :
    n ∈ s.notesOf q ↔ (q, n) ∈ s.transitions := by
  constructor
  · intro h
    obtain ⟨⟨q', n'⟩, he, rfl⟩ := List.mem_map.mp h
    obtain ⟨hmem, hq⟩ := List.mem_filter.mp he
    have hq : q' = q := by simpa using hq
    exact hq ▸ hmem
  · intro h
    exact List.mem_map.mpr ⟨(q, n), List.mem_filter.mpr ⟨h, by simp⟩, rfl⟩

lemma mem_heldKeys_of_note {s : Daemon} {q : String} {hold : QuietHold}
    (h : Note.quietHold hold ∈ s.notesOf q) :
    (hold.notificationKey, q) ∈ s.heldKeys hold.windowId := by
  refine List.mem_filterMap.mpr ⟨(q, .quietHold hold), mem_notesOf.mp h, ?_⟩
  simp [heldUnder]

lemma holdForQuiet_notes (s : Daemon) (i : HoldInput) :
    ∃ new, (s.holdForQuiet i).transitions = s.transitions ++ new ∧
      (new = [] ∨ new = [(i.qitemId, .quietHold i.hold)]) ∧
      (s.holdForQuiet i).jobs = (s.armQuietRelease i.hold.windowId i.entityId).jobs ∧
      (s.holdForQuiet i).running = s.running ∧
      ∃ w, (i.hold.notificationKey, i.qitemId) ∈ (s.holdForQuiet i).heldKeys w := by
  have hother : (s.armQuietRelease i.hold.windowId i.entityId).transitions = s.transitions ∧
      (s.armQuietRelease i.hold.windowId i.entityId).running = s.running := by
    rw [armQuietRelease]
    split <;> exact ⟨rfl, rfl⟩
  simp only [holdForQuiet]
  split
  · rename_i hany
    refine ⟨[], by rw [hother.1, List.append_nil], .inl rfl, rfl, hother.2, ?_⟩
    obtain ⟨n, hn, hkey⟩ := List.any_eq_true.mp hany
    cases n with
    | quietHold hold =>
      have hkey : hold.notificationKey = i.hold.notificationKey := by simpa [holds] using hkey
      exact ⟨hold.windowId, hkey ▸ mem_heldKeys_of_note hn⟩
    | _ => simp [holds] at hkey
  · refine ⟨[(i.qitemId, .quietHold i.hold)], ?_, .inr rfl, rfl, hother.2, i.hold.windowId, ?_⟩
    · simp only [note, hother.1]
    · refine mem_heldKeys_of_note (mem_notesOf.mpr ?_)
      exact List.mem_append_right _ (List.mem_singleton_self _)

/-- **A hold keeps the invariant**: its job comes with it. -/
theorem Sound.hold {s t : Daemon} (h : Sound s) {i : HoldInput} (hstep : Step s (.hold i) t) :
    Sound t := by
  obtain rfl := Option.some.inj hstep
  obtain ⟨new, htrans, hnew, hjobs, hrun, hnoted⟩ := holdForQuiet_notes s i
  obtain ⟨⟨j, hj, hrel⟩, added, hadd, hids⟩ :=
    armQuietRelease_jobs s i.hold.windowId i.entityId
  have hmono : ∀ w e, e ∈ s.heldKeys w → e ∈ (s.holdForQuiet i).heldKeys w := by
    intro w e he
    rw [heldKeys, htrans, List.filterMap_append]
    exact List.mem_append_left _ he
  constructor
  case ids =>
    show (s.holdForQuiet i).jobs.map Job.jobId = List.range (s.holdForQuiet i).jobs.length
    rw [hjobs, hids, h.ids, hadd, List.length_append, List.range_add]
  case covered =>
    intro w e he
    have he : e ∈ (s.holdForQuiet i).heldKeys w := he
    rw [heldKeys, htrans, List.filterMap_append] at he
    rcases List.mem_append.mp he with he | he
    · rcases h.covered w e he with hr | ⟨j', hj', hrel'⟩
      · refine .inl ?_
        show (s.holdForQuiet i).resolved e.2 e.1 = true
        rw [resolved_append htrans, hr]
        rfl
      · refine .inr ⟨j', ?_, hrel'⟩
        show j' ∈ (s.holdForQuiet i).jobs
        rw [hjobs, hadd]
        exact List.mem_append_left _ hj'
    · refine .inr ⟨j, ?_, ?_⟩
      · show j ∈ (s.holdForQuiet i).jobs
        rw [hjobs]
        exact hj
      · rcases hnew with rfl | rfl
        · simp at he
        · have hw : i.hold.windowId = w := by
            by_contra hne
            simp [heldUnder, hne] at he
          exact hw ▸ hrel
  case noted =>
    intro c hc
    rcases List.mem_append.mp hc with hc | hc
    · obtain ⟨w, hw⟩ := h.noted c hc
      exact ⟨w, hmono w _ hw⟩
    · obtain rfl := List.mem_singleton.mp hc
      rw [i.ofRow]
      exact hnoted
  case past =>
    intro c hc
    show c.2 ≤ (s.holdForQuiet i).transitions.length
    rw [htrans, List.length_append]
    rcases List.mem_append.mp hc with hc | hc
    · exact Nat.le_trans (h.past c hc) (Nat.le_add_right _ _)
    · obtain rfl := List.mem_singleton.mp hc
      exact Nat.le_add_right _ _
  case running =>
    intro r hr
    have hr : (s.holdForQuiet i).running = some r := hr
    rw [hrun] at hr
    obtain ⟨j', hj', hsame⟩ := h.running r hr
    refine ⟨j', ?_, hsame⟩
    show j' ∈ (s.holdForQuiet i).jobs
    rw [hjobs, hadd]
    exact List.mem_append_left _ hj'

theorem Sound.step {s t : Daemon} (h : Sound s) {l : Label} (hstep : Step s l t) : Sound t := by
  by_cases hl : ∃ i, l = .hold i
  · obtain ⟨i, rfl⟩ := hl
    exact h.hold hstep
  · exact h.effect (step_effect hstep fun i hi => hl ⟨i, hi⟩)

lemma Fresh.sound {s : Daemon} (h : Fresh s) : Sound s := by
  have hheld : ∀ w, s.heldKeys w = [] := by
    intro w
    exact List.filterMap_eq_nil_iff.mpr fun e he => by rw [h.transitions e he w]; rfl
  constructor
  case running =>
    intro r hr
    rw [h.running] at hr
    cases hr
  case covered =>
    intro w e he
    rw [hheld] at he
    simp at he
  all_goals simp [h.jobs, h.calls]

/-! ### Custody -/

lemma mem_calls_of_latest {s : Daemon} {key : NotificationKey} {n : ℕ}
    (h : s.latestCall key = some n) : (key, n) ∈ s.calls := by
  obtain ⟨⟨key', n'⟩, hfind, rfl⟩ := Option.map_eq_some_iff.mp h
  have hkey : key' = key := by simpa using List.find?_some hfind
  exact hkey ▸ List.mem_reverse.mp (List.mem_of_find?_eq_some hfind)

lemma inCustody_iff {s : Daemon} (h : Sound s) :
    InCustody s ↔ ∀ key n, s.latestCall key = some n → s.resolvedSince n key = false →
      s.resolved key.qitemId key = false := by
  constructor
  · intro hc key n hlatest hsince
    obtain ⟨_, _, _, _, hnot⟩ := hc key n hlatest hsince
    exact hnot
  · intro hc key n hlatest hsince
    have hnot := hc key n hlatest hsince
    obtain ⟨w, hw⟩ := h.noted _ (mem_calls_of_latest hlatest)
    rcases h.covered w _ hw with hr | ⟨j, hj, hrel⟩
    · rw [hnot] at hr
      cases hr
    · simp only [releases, Bool.and_eq_true, decide_eq_true_eq] at hrel
      exact ⟨j, hj, hrel.1, hrel.2.symm ▸ hw, hnot⟩

lemma resolvedSince_append {s t : Daemon} {new : Transitions}
    (h : t.transitions = s.transitions ++ new) {n : ℕ} (hn : n ≤ s.transitions.length)
    (key : NotificationKey) :
    t.resolvedSince n key =
      (s.resolvedSince n key || (new.listTransitions key.qitemId).any (resolves key)) := by
  rw [resolvedSince, h, List.drop_append_of_le_length hn, Transitions.listTransitions_append,
    List.any_append]
  rfl

/-- **A step but a hold keeps custody.** -/
lemma inCustody_effect {s t : Daemon} (h : Sound s) (he : Effect s t) (hc : InCustody s) :
    InCustody t := by
  rw [inCustody_iff (h.effect he)]
  rw [inCustody_iff h] at hc
  obtain ⟨new, htrans, _⟩ := he.transitions
  intro key n hlatest hsince
  have hlatest : s.latestCall key = some n := by
    rw [latestCall, ← he.calls]
    exact hlatest
  rw [resolvedSince_append htrans (h.past _ (mem_calls_of_latest hlatest)), Bool.or_eq_false_iff]
    at hsince
  rw [resolved_append htrans, hc key n hlatest hsince.1, hsince.2]
  rfl

/-- **A hold keeps custody exactly when its ask was not resolved before.** -/
lemma inCustody_hold {s t : Daemon} (h : Sound s) {i : HoldInput} (hstep : Step s (.hold i) t)
    (hc : InCustody s) :
    InCustody t ↔ s.resolved i.qitemId i.hold.notificationKey = false := by
  rw [inCustody_iff (h.hold hstep)]
  rw [inCustody_iff h] at hc
  obtain rfl := Option.some.inj hstep
  obtain ⟨new, htrans, hnew, _, _, _⟩ := holdForQuiet_notes s i
  have hquiet : ∀ q key, (new.listTransitions q).any (resolves key) = false := by
    intro q key
    rcases hnew with rfl | rfl
    · rfl
    · rw [Transitions.listTransitions_single]
      split <;> rfl
  have hresolved : ∀ q key, (s.holdForQuiet i).resolved q key = s.resolved q key := by
    intro q key
    rw [resolved_append htrans, hquiet, Bool.or_false]
  have hlatest : ∀ key, latestCall { s.holdForQuiet i with
      calls := s.calls ++ [(i.hold.notificationKey, s.transitions.length)] } key =
        if i.hold.notificationKey = key then some s.transitions.length else s.latestCall key := by
    intro key
    rw [latestCall, latestCall, List.reverse_append]
    by_cases hkey : i.hold.notificationKey = key
    · simp [hkey]
    · simp [hkey]
  constructor
  · intro hall
    have hnow := hall i.hold.notificationKey s.transitions.length (by rw [hlatest, if_pos rfl]) ?_
    · rw [← hresolved, ← i.ofRow]
      exact hnow
    · show (s.holdForQuiet i).resolvedSince _ _ = false
      rw [resolvedSince_append htrans (Nat.le_refl _), hquiet, Bool.or_false, resolvedSince,
        List.drop_length]
      rfl
  · intro hnot key n hl hsince
    show (s.holdForQuiet i).resolved _ _ = false
    rw [hresolved]
    rw [hlatest] at hl
    by_cases hkey : i.hold.notificationKey = key
    · rw [← hkey, i.ofRow]
      exact hnot
    · rw [if_neg hkey] at hl
      refine hc key n hl ?_
      have hsince : (s.holdForQuiet i).resolvedSince n key = false := hsince
      rw [resolvedSince_append htrans (h.past _ (mem_calls_of_latest hl)), hquiet, Bool.or_false]
        at hsince
      exact hsince

/-! ### Retirement -/

def Retires (s t : Daemon) (j : Job) : Prop :=
  j ∈ s.jobs ∧ j.state = .active ∧ ∃ j' ∈ t.jobs, j'.jobId = j.jobId ∧ j'.state = .terminal

lemma Sound.not_retires_arm {s t : Daemon} (h : Sound s) {w e : String}
    (hjobs : t.jobs = (s.armQuietRelease w e).jobs) (j : Job) : ¬ Retires s t j := by
  rintro ⟨hj, hactive, j', hj', hid, hterm⟩
  have hold : j' ∈ s.jobs := by
    rw [hjobs, armQuietRelease] at hj'
    cases hfind : s.jobs.find? (releases w) with
    | some j₀ =>
      rw [hfind] at hj'
      exact hj'
    | none =>
      rw [hfind] at hj'
      rcases List.mem_append.mp hj' with hj' | hj'
      · exact hj'
      · obtain rfl := List.mem_singleton.mp hj'
        cases hterm
  obtain rfl := h.eq_of_jobId hold hj hid
  rw [hactive] at hterm
  cases hterm

/-- **A job is retired only when every ask its window holds is resolved.** -/
theorem Sound.retires {s t : Daemon} (h : Sound s) {l : Label} (hstep : Step s l t) {j : Job}
    (hj : Retires s t j) : ∀ e ∈ s.heldKeys j.windowId, s.resolved e.2 e.1 = true := by
  by_cases hl : ∃ i, l = .hold i
  · obtain ⟨i, rfl⟩ := hl
    obtain rfl := Option.some.inj hstep
    obtain ⟨_, _, _, hjobs, _⟩ := holdForQuiet_notes s i
    exact absurd hj (h.not_retires_arm hjobs j)
  · rcases (step_effect hstep fun i hi => hl ⟨i, hi⟩).jobs with
      hjobs | ⟨w, e, hjobs⟩ | ⟨r, hr, hall, _, hjobs⟩
    · obtain ⟨hmem, hactive, j', hj', hid, hterm⟩ := hj
      obtain rfl := h.eq_of_jobId (hjobs ▸ hj') hmem hid
      rw [hactive] at hterm
      cases hterm
    · exact absurd hj (h.not_retires_arm hjobs j)
    · obtain ⟨hmem, hactive, j', hj', hid, hterm⟩ := hj
      rw [hjobs] at hj'
      obtain ⟨j₀, hj₀, rfl⟩ := List.mem_map.mp hj'
      have hid₀ : j₀.jobId = j.jobId := by
        split at hid <;> exact hid
      obtain rfl := h.eq_of_jobId hj₀ hmem hid₀
      split at hterm
      · rename_i hrid
        obtain ⟨j₁, hj₁, hid₁, hwin₁⟩ := h.running r hr
        obtain rfl := h.eq_of_jobId hmem hj₁ (hrid.trans hid₁.symm)
        rw [hwin₁]
        exact hall
      · rw [hactive] at hterm
        cases hterm

/-! ### Answers at post time -/

lemma answers_of_step {s t : Daemon} {l : Label} (hstep : Step s l t)
    (hl : ∀ c alerts row, l ≠ .endConfirm c alerts row) :
    ∀ a ∈ t.answers, a ∈ s.answers ∨ a.1 ≠ .post := by
  have hsame : t.answers = s.answers → ∀ a ∈ t.answers, a ∈ s.answers ∨ a.1 ≠ .post :=
    fun h a ha => .inl (h ▸ ha)
  have hadd : ∀ (b : Answer) (f : Bool), b ≠ .post → t.answers = s.answers ++ [(b, f)] →
      ∀ a ∈ t.answers, a ∈ s.answers ∨ a.1 ≠ .post := by
    intro b f hb h a ha
    rw [h] at ha
    rcases List.mem_append.mp ha with ha | ha
    · exact .inl ha
    · obtain rfl := List.mem_singleton.mp ha
      exact .inr hb
  have harm : ∀ w e, (s.armQuietRelease w e).answers = s.answers := by
    intro w e
    rw [armQuietRelease]
    split <;> rfl
  cases l with
  | endConfirm c alerts row => exact absurd rfl (hl c alerts row)
  | beginConfirm c readable =>
    obtain rfl := Option.some.inj hstep
    rw [Daemon.beginConfirm] at hsame hadd ⊢
    cases hread : s.quietHoldFor c.entityId readable with
    | unreadable =>
      simp only [hread] at hadd
      exact hadd .retry _ (by decide) rfl
    | on w =>
      simp only [hread] at hadd
      refine hadd .declined (((s.armQuietRelease w c.entityId).note c.qitemId
        (.quietReturned w c.notificationKey)).quietWindow c.entityId).isSome (by decide) ?_
      simp only [answer, note, harm]
    | off =>
      simp only [hread] at hsame
      exact hsame trivial
  | hold i =>
    obtain rfl := Option.some.inj hstep
    refine hsame ?_
    simp only [holdForQuiet]
    split <;> simp only [note, harm]
  | quietOn entityId windowId =>
    obtain rfl := Option.some.inj hstep
    exact hsame rfl
  | quietOff entityId =>
    obtain rfl := Option.some.inj hstep
    exact hsame rfl
  | beginRelease jobId readable =>
    simp only [Step, step] at hstep
    split at hstep
    · cases hstep
    · obtain rfl := Option.some.inj hstep
      refine hsame ?_
      rw [Daemon.beginRelease]
      split
      · rfl
      · split
        · rfl
        · split <;> rfl
  | readAlerts alerts =>
    simp only [Step, step] at hstep
    split at hstep
    · split at hstep
      · cases hstep
      · obtain rfl := Option.some.inj hstep
        exact hsame rfl
    · cases hstep
  | lookAt row readable =>
    simp only [Step, step] at hstep
    split at hstep
    · split at hstep
      · obtain rfl := Option.some.inj hstep
        exact hsame rfl
      · cases hstep
    · cases hstep
  | applyVerdict dispatched =>
    simp only [Step, step] at hstep
    split at hstep
    · split at hstep
      · obtain rfl := Option.some.inj hstep
        refine hsame ?_
        simp only [Daemon.applyVerdict]
        split
        · rfl
        · rfl
        · split <;> rfl
        · rfl
      · cases hstep
    · cases hstep
  | endRelease =>
    simp only [Step, step] at hstep
    split at hstep
    · split at hstep
      · obtain rfl := Option.some.inj hstep
        refine hsame ?_
        simp only [Daemon.endRelease]
        split
        · split <;> rfl
        · rfl
      · cases hstep
    · cases hstep
  | posted qitemId key =>
    obtain rfl := Option.some.inj hstep
    refine hsame ?_
    rw [recordPosted]
    split <;> rfl
  | accepted qitemId key =>
    obtain rfl := Option.some.inj hstep
    refine hsame ?_
    rw [recordRelayOwnerNotificationAccepted]
    split <;> rfl
  | note qitemId text =>
    obtain rfl := Option.some.inj hstep
    exact hsame rfl
  | restart =>
    obtain rfl := Option.some.inj hstep
    exact hsame rfl

/-- **A resumed check posts with quiet off exactly when quiet did not come on during its await.** -/
lemma postsOff_endConfirm {s t : Daemon} {c : Confirm}
    {alerts : Option (List Alert)} {row : RowView}
    (hstep : Step s (.endConfirm c alerts row) t) (hs : PostsOff s) :
    PostsOff t ↔ Careful s (.endConfirm c alerts row) := by
  have hcond : ∀ b f, t.answers = s.answers ++ [(b, f)] →
      (PostsOff t ↔ (b = .post → f = false)) := by
    intro b f h
    constructor
    · intro hp
      exact hp (b, f) (h ▸ List.mem_append_right _ (List.mem_singleton_self _))
    · intro hb a ha
      rw [h] at ha
      rcases List.mem_append.mp ha with ha | ha
      · exact hs a ha
      · obtain rfl := List.mem_singleton.mp ha
        exact hb
  simp only [Step, step] at hstep
  split at hstep
  · obtain rfl := Option.some.inj hstep
    rw [Daemon.endConfirm] at hcond ⊢
    cases hv : currentAskVerdict alerts row c.entityId c.notificationKey with
    | post a =>
      simp only [hv] at hcond
      refine (hcond .post (s.quietWindow c.entityId).isSome rfl).trans ?_
      rw [Careful, hv]
      simp
    | unavailable =>
      simp only [hv] at hcond
      refine (hcond .retry (s.quietWindow c.entityId).isSome rfl).trans ?_
      rw [Careful, hv]
      simp
    | quiet w =>
      simp only [hv] at hcond
      refine (hcond .retry (s.quietWindow c.entityId).isSome rfl).trans ?_
      rw [Careful, hv]
      simp
    | disposition reason =>
      simp only [hv] at hcond
      refine (hcond .declined (s.quietWindow c.entityId).isSome ?_).trans ?_
      · split <;> rfl
      · rw [Careful, hv]
        simp
  · cases hstep

/-! ### Runs -/

/-- Custody, and no post answered while quiet is on. -/
def Good (s : Daemon) : Prop := InCustody s ∧ PostsOff s

/-- **A step keeps both exactly when it is careful.** -/
theorem careful_iff {s t : Daemon} (h : Sound s) (hs : Good s) {l : Label} (hstep : Step s l t) :
    Careful s l ↔ Good t := by
  by_cases hhold : ∃ i, l = .hold i
  · obtain ⟨i, rfl⟩ := hhold
    have hposts : PostsOff t := fun a ha hpost =>
      (answers_of_step hstep (by simp) a ha).elim (fun ha => hs.2 a ha hpost)
        fun hne => absurd hpost hne
    exact (inCustody_hold h hstep hs.1).symm.trans (and_iff_left hposts).symm
  · have hc : InCustody t :=
      inCustody_effect h (step_effect hstep fun i hi => hhold ⟨i, hi⟩) hs.1
    refine Iff.trans ?_ (and_iff_right hc).symm
    by_cases hconfirm : ∃ c alerts row, l = .endConfirm c alerts row
    · obtain ⟨c, alerts, row, rfl⟩ := hconfirm
      exact (postsOff_endConfirm hstep hs.2).symm
    · have hcareful : Careful s l := by
        match l with
        | .hold i => exact absurd ⟨i, rfl⟩ hhold
        | .endConfirm c alerts row => exact absurd ⟨c, alerts, row, rfl⟩ hconfirm
        | .quietOn .. | .quietOff _ | .beginRelease .. | .readAlerts _ | .lookAt .. |
          .applyVerdict _ | .endRelease | .beginConfirm .. | .posted .. | .accepted .. | .note .. |
          .restart => trivial
      refine iff_of_true hcareful fun a ha hpost => ?_
      rcases answers_of_step hstep (fun c alerts row h => hconfirm ⟨c, alerts, row, h⟩) a ha with
        ha | hne
      · exact hs.2 a ha hpost
      · exact absurd hpost hne

lemma Fresh.good {s : Daemon} (h : Fresh s) : Good s := by
  constructor
  · intro key n hlatest
    simp [latestCall, h.calls] at hlatest
  · intro a ha
    rw [h.answers] at ha
    simp at ha

end Daemon

open Daemon

/-- **Quiet hours**, in every run from a daemon that holds nothing: a release job is retired only
when every ask its window holds is resolved; and every state has each ask not resolved since its
latest hold in the custody of an active job, with no post answered while quiet is on, exactly when
every hold is of an ask not resolved before and no check resumes to a post after quiet came on. -/
theorem quiet_hours_keep_holds {s₀ : Daemon} (h₀ : Fresh s₀) {ls : List Label} {s : Daemon}
    (hs : Path Step s₀ ls s) :
    (∀ l t j, Step s l t → Retires s t j →
      ∀ e ∈ s.heldKeys j.windowId, s.resolved e.2 e.1 = true) ∧
    (Path (fun s l t => Step s l t ∧ InCustody t ∧ PostsOff t) s₀ ls s ↔
      Path (fun s l t => Step s l t ∧ Careful s l) s₀ ls s) := by
  have hsound : Sound s := hs.invariant (fun _ _ _ hstep h => h.step hstep) h₀.sound
  exact ⟨fun l t j hstep hj => hsound.retires hstep hj,
    Path.guarded_iff (I := Good) (J := Sound) (C := Careful) (fun _ _ _ hstep h => h.step hstep)
      (fun _ _ _ hstep h hs => careful_iff h hs hstep) h₀.sound h₀.good⟩

/-! ### Runs on one ask -/

/-- The ask of row `q`, held under a window. -/
def ask (windowId : String) : HoldInput where
  qitemId := "q"
  entityId := "owner"
  hold := ⟨windowId, "tonight", 1, ⟨"q", some 1⟩⟩
  ofRow := rfl

/-- A hold, the end of quiet, a dispatched release, its post, and the job retired. -/
theorem quiet_hours_keep_holds_released :
    let alert : Alert := ⟨⟨"q", some 1⟩, "owner"⟩
    let row : RowView := ⟨true, some ⟨"q", some 1⟩⟩
    let ls : List Label := [.quietOn "owner" "w", .hold (ask "w"), .quietOff "owner",
      .beginRelease 0 true, .readAlerts (some [alert]), .lookAt row true, .applyVerdict true,
      .endRelease, .beginConfirm ⟨"owner", "q", ⟨"q", some 1⟩⟩ true,
      .endConfirm ⟨"owner", "q", ⟨"q", some 1⟩⟩ (some [alert]) row, .posted "q" ⟨"q", some 1⟩,
      .beginRelease 0 true, .readAlerts (some []), .lookAt row true, .endRelease]
    let s := play Daemon.step {} ls
    (Path (fun s l t => Step s l t ∧ InCustody t ∧ PostsOff t) {} ls s ↔
      Path (fun s l t => Step s l t ∧ Careful s l) {} ls s) ∧
      s.jobs.map Job.state = [.terminal] ∧ s.answers = [(.post, false)] := by
  intro alert row ls s
  have hs : Path Step {} ls s := path_play _ (by decide)
  exact ⟨(quiet_hours_keep_holds ⟨by simp, rfl, rfl, rfl, rfl⟩ hs).2, by decide, by decide⟩

/-- An ask held, given a disposition and held again under another window is in no custody; and a
check that awaits the alerts while quiet comes on answers `post`. -/
theorem quiet_hours_lose_rehold :
    let row : RowView := ⟨false, none⟩
    let ls : List Label := [.quietOn "owner" "w", .hold (ask "w"), .quietOff "owner",
      .beginRelease 0 true, .readAlerts (some []), .lookAt row true, .applyVerdict true,
      .endRelease, .quietOn "owner" "v", .hold (ask "v")]
    let ls' : List Label := [.beginConfirm ⟨"owner", "q", ⟨"q", some 1⟩⟩ true,
      .quietOn "owner" "w",
      .endConfirm ⟨"owner", "q", ⟨"q", some 1⟩⟩ (some [⟨⟨"q", some 1⟩, "owner"⟩]) row]
    (∃ s, Path Step {} ls s ∧ ¬ InCustody s) ∧ ∃ s, Path Step {} ls' s ∧ ¬ PostsOff s := by
  intro row ls ls'
  refine ⟨⟨play Daemon.step {} ls, path_play _ (by decide), fun h => ?_⟩,
    ⟨play Daemon.step {} ls', path_play _ (by decide), fun h => ?_⟩⟩
  · obtain ⟨_, _, _, _, hnot⟩ := h ⟨"q", some 1⟩ 2 (by decide) (by decide)
    exact absurd hnot (by decide)
  · exact absurd (h (.post, true) (by decide) rfl) (by decide)

end OpenRig.QuietRelease
