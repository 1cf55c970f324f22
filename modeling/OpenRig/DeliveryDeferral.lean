import OpenRig.Runs
import OpenRig.DeliveryNotes
import Mathlib.Data.List.Nodup

/-!
The deferral of an away-escalation: one job per episode, which dispatches the interrupt when it is
due and stays active until it sees the episode's receipt on the row.

The scheduler evaluates one job at a time. An evaluation waits for its delivery, and meanwhile
episodes are armed and receipts come in. The daemon may die between two writes.
-/

namespace OpenRig.DeliveryDeferral

open OpenRig.Delivery OpenRig.Runs

/-- `DeferralContext`, with times in milliseconds. -/
structure DeferralContext where
  qitemId : String
  entityId : String
  minutes : ℕ
  armedAt : ℕ
  notificationKey : NotificationKey
  deriving DecidableEq

def DeferralContext.fireAt (c : DeferralContext) : ℕ := c.armedAt + c.minutes * 60000

inductive JobState where
  | active | terminal
  deriving DecidableEq

/-- A `delivery-deferral` job. Ids count the jobs registered. -/
structure Job where
  jobId : ℕ
  context : DeferralContext
  state : JobState := .active
  deriving DecidableEq

/-- An evaluation that waits for `deliverInterrupt`. -/
structure Delivery where
  jobId : ℕ
  qitemId : String
  notificationKey : NotificationKey
  dispatched : Bool := false
  deriving DecidableEq

/-- The rows' notes, the jobs, the evaluation in flight and the interrupts handed to the gateway. -/
structure Daemon where
  transitions : Transitions := []
  jobs : List Job := []
  running : Option Delivery := none
  interrupts : List NotificationKey := []
  deriving DecidableEq

/-! ### Writes -/

inductive Write where
  | register (context : DeferralContext)
  | note (qitemId : String) (n : Note)
  | markTerminal (jobId : ℕ)
  deriving DecidableEq

namespace Daemon

def notesOf (s : Daemon) (qitemId : String) : List Note := s.transitions.listTransitions qitemId

def write (s : Daemon) : Write → Daemon
  | .register context => { s with jobs := s.jobs ++ [{ jobId := s.jobs.length, context }] }
  | .note qitemId n => { s with transitions := s.transitions ++ [(qitemId, n)] }
  | .markTerminal jobId =>
    { s with
      jobs := s.jobs.map fun j => if j.jobId = jobId then { j with state := .terminal } else j }

/-- The writes of a synchronous stretch. With `some k` the daemon dies after `k` of them, and comes
back with nothing in flight. -/
def commit (s : Daemon) (writes : List Write) : Option ℕ → Daemon
  | none => writes.foldl write s
  | some k => { (writes.take k).foldl write s with running := none }

/-! ### The policy -/

/-- `ArmDeliveryDeferralInput`: the episode, if one is given, is of the row. -/
structure ArmDeliveryDeferralInput where
  qitemId : String
  entityId : String
  minutes : ℕ
  notificationKey : Option NotificationKey
  ofRow : ∀ k ∈ notificationKey, k.qitemId = qitemId

/-- The episode armed: by default the row. -/
def ArmDeliveryDeferralInput.key (i : ArmDeliveryDeferralInput) : NotificationKey :=
  i.notificationKey.getD { qitemId := i.qitemId }

/-- `listActive().find(...)`. -/
def isArmed (key : NotificationKey) (j : Job) : Bool :=
  j.state = .active && j.context.notificationKey = key

def armDeliveryDeferral (s : Daemon) (i : ArmDeliveryDeferralInput) (now : ℕ) : List Write :=
  match s.jobs.find? (isArmed i.key) with
  | some _ => []
  | none =>
    let context : DeferralContext :=
      { qitemId := i.qitemId, entityId := i.entityId, minutes := i.minutes, armedAt := now,
        notificationKey := i.key }
    [.register context,
      .note i.qitemId (.deferralArmed s.jobs.length context.fireAt i.key i.entityId)]

/-- Whether an evaluation got to its delivery, and what it wrote before. -/
structure Evaluation where
  writes : List Write := []
  delivery : Option Delivery := none

/-- `fireDeliveryDeferralIfDue` up to its delivery. -/
def fireDeliveryDeferralIfDue (s : Daemon) (jobId now : ℕ) : Evaluation :=
  match s.jobs.find? (fun j => j.jobId = jobId) with
  | none => {}
  | some job =>
    let ctx := job.context
    if job.state ≠ .active then {}
    else if now < ctx.fireAt then {}
    else
      let notes := s.notesOf ctx.qitemId
      if notes.contains (.posted ctx.notificationKey) then
        { writes :=
            (if notes.any Note.isFired then []
              else [.note ctx.qitemId (.deferralFired jobId ctx.notificationKey ctx.entityId)]) ++
              [.markTerminal jobId] }
      else
        { writes :=
            if notes.any Note.isDispatching then []
            else [.note ctx.qitemId (.deferralDispatching jobId ctx.notificationKey)]
          delivery := some
            { jobId, qitemId := ctx.qitemId, notificationKey := ctx.notificationKey } }

inductive DeliveryOutcome where
  | ok | refused | thrown (error : String)
  deriving DecidableEq

/-- `fireDeliveryDeferralIfDue` behind its delivery. -/
def afterDelivery (d : Delivery) : DeliveryOutcome → List Write
  | .ok => []
  | .refused => [.note d.qitemId (.deferralAttemptFailed d.jobId d.notificationKey none)]
  | .thrown error =>
    [.note d.qitemId (.deferralAttemptFailed d.jobId d.notificationKey (some error))]

/-! ### Receipts -/

/-- `hasOwnerNotificationReceipt`, of either transport. -/
def hasReceipt (s : Daemon) (key : NotificationKey) (qitemId : String) : Bool :=
  (s.notesOf qitemId).any fun n => n = .posted key || n = .accepted key

/-- `onPosted`: a receipt of either transport is enough. -/
def recordPosted (s : Daemon) (qitemId : String) (key : NotificationKey) : List Write :=
  if s.hasReceipt key qitemId then [] else [.note qitemId (.posted key)]

def recordRelayOwnerNotificationAccepted (s : Daemon) (qitemId : String) (key : NotificationKey) :
    List Write :=
  if (s.notesOf qitemId).contains (.accepted key) then []
  else [.note qitemId (.accepted key)]

/-! ### Steps -/

inductive Label where
  | arm (i : ArmDeliveryDeferralInput) (now : ℕ) (died : Option ℕ)
  | evaluate (jobId now : ℕ) (died : Option ℕ)
  /-- The delivery in flight hands its interrupt to the gateway. -/
  | dispatch
  | settle (outcome : DeliveryOutcome)
  | posted (qitemId : String) (key : NotificationKey)
  | accepted (qitemId : String) (key : NotificationKey)
  | note (qitemId text : String)
  | restart

def step (s : Daemon) : Label → Option Daemon
  | .arm i now died => some (s.commit (s.armDeliveryDeferral i now) died)
  | .evaluate jobId now died =>
    match s.running with
    | some _ => none
    | none =>
      let e := s.fireDeliveryDeferralIfDue jobId now
      some ({ s with running := e.delivery }.commit e.writes died)
  | .dispatch =>
    match s.running with
    | some d =>
      if d.dispatched then none
      else some { s with
        running := some { d with dispatched := true }
        interrupts := s.interrupts ++ [d.notificationKey] }
    | none => none
  | .settle outcome =>
    match s.running with
    | some d => some ({ s with running := none }.commit (afterDelivery d outcome) none)
    | none => none
  | .posted qitemId key => some (s.commit (s.recordPosted qitemId key) none)
  | .accepted qitemId key =>
    some (s.commit (s.recordRelayOwnerNotificationAccepted qitemId key) none)
  | .note qitemId text => some (s.commit [.note qitemId (.other text)] none)
  | .restart => some { s with running := none }

def Step (s : Daemon) (l : Label) (t : Daemon) : Prop := s.step l = some t

/-- Nothing armed, nothing in flight, no fired note on any row. -/
structure Fresh (s : Daemon) : Prop where
  jobs : s.jobs = []
  running : s.running = none
  fired : ∀ e ∈ s.transitions, e.2.isFired = false

/-! ### The invariant -/

/-- **The invariant**: one active job per episode, a terminal job has its receipt, a row has one
fired note at most, and a delivery in flight is of an active job whose episode never fired. -/
structure Sound (s : Daemon) : Prop where
  ids : s.jobs.map Job.jobId = List.range s.jobs.length
  ofRow : ∀ j ∈ s.jobs, j.context.notificationKey.qitemId = j.context.qitemId
  single : ∀ key, (s.jobs.filter (isArmed key)).length ≤ 1
  receipted : ∀ j ∈ s.jobs, j.state = .terminal →
    Note.posted j.context.notificationKey ∈ s.notesOf j.context.qitemId
  fired : ∀ q, ((s.notesOf q).filter Note.isFired).length ≤ 1
  inFlight : ∀ d, s.running = some d → ∀ j ∈ s.jobs,
    j.context.notificationKey = d.notificationKey → j.state = .active

/-- What a write needs of the state. -/
def Admits (s : Daemon) : Write → Prop
  | .register context => context.notificationKey.qitemId = context.qitemId ∧
      ∀ j ∈ s.jobs, isArmed context.notificationKey j = false
  | .note qitemId n => n.isFired = true → ∀ m ∈ s.notesOf qitemId, m.isFired = false
  | .markTerminal jobId => s.running = none ∧ ∀ j ∈ s.jobs, j.jobId = jobId →
      Note.posted j.context.notificationKey ∈ s.notesOf j.context.qitemId

lemma notesOf_note (s : Daemon) (q q' : String) (n : Note) :
    (s.write (.note q' n)).notesOf q = s.notesOf q ++ if q' = q then [n] else [] := by
  rw [notesOf, notesOf, write, Transitions.listTransitions_append,
    Transitions.listTransitions_single]

lemma mem_notesOf_note {s : Daemon} {q q' : String} {n m : Note} (h : m ∈ s.notesOf q) :
    m ∈ (s.write (.note q' n)).notesOf q := by
  rw [notesOf_note]
  exact List.mem_append_left _ h

/-- **Every admitted write keeps the invariant.** -/
lemma Sound.write {s : Daemon} (h : Sound s) {w : Write} (hw : s.Admits w) :
    Sound (s.write w) := by
  cases w with
  | register context =>
    obtain ⟨hrow, hnone⟩ := hw
    constructor
    case ids =>
      simp only [Daemon.write, List.map_append, List.map_singleton, h.ids, List.length_append,
        List.length_singleton, List.range_succ]
    case ofRow =>
      intro j hj
      rcases List.mem_append.mp hj with hj | hj
      · exact h.ofRow j hj
      · obtain rfl := List.mem_singleton.mp hj
        exact hrow
    case single =>
      intro key
      simp only [Daemon.write, List.filter_append, List.length_append]
      by_cases hkey : context.notificationKey = key
      · subst hkey
        have hnil : s.jobs.filter (isArmed context.notificationKey) = [] :=
          List.filter_eq_nil_iff.mpr fun j hj => by simp [hnone j hj]
        rw [hnil]
        exact Nat.le_trans (Nat.le_of_eq (Nat.zero_add _)) (List.length_filter_le _ _)
      · have hnil : [({ jobId := s.jobs.length, context } : Job)].filter (isArmed key) = [] := by
          simp [isArmed, hkey]
        rw [hnil]
        exact h.single key
    case receipted =>
      intro j hj hterm
      rcases List.mem_append.mp hj with hj | hj
      · exact h.receipted j hj hterm
      · obtain rfl := List.mem_singleton.mp hj
        cases hterm
    case fired => exact h.fired
    case inFlight =>
      intro d hd j hj hkey
      rcases List.mem_append.mp hj with hj | hj
      · exact h.inFlight d hd j hj hkey
      · obtain rfl := List.mem_singleton.mp hj
        rfl
  | note q' n =>
    refine ⟨h.ids, h.ofRow, h.single, fun j hj hterm => mem_notesOf_note (h.receipted j hj hterm),
      fun q => ?_, h.inFlight⟩
    rw [notesOf_note, List.filter_append, List.length_append]
    by_cases hq : q' = q
    · subst hq
      rw [if_pos rfl]
      by_cases hn : n.isFired = true
      · have hnil : (s.notesOf q').filter Note.isFired = [] :=
          List.filter_eq_nil_iff.mpr fun m hm => by simp [hw hn m hm]
        rw [hnil]
        exact Nat.le_trans (Nat.le_of_eq (Nat.zero_add _)) (List.length_filter_le _ _)
      · have hnil : [n].filter Note.isFired = [] := by simp [hn]
        rw [hnil]
        exact h.fired q'
    · rw [if_neg hq]
      exact h.fired q
  | markTerminal jobId =>
    obtain ⟨hidle, hposted⟩ := hw
    have hmem : ∀ j ∈ (s.write (.markTerminal jobId)).jobs, ∃ j₀ ∈ s.jobs,
        j.context = j₀.context ∧ j.jobId = j₀.jobId ∧
          (j.state = .terminal → j₀.state = .terminal ∨ j₀.jobId = jobId) := by
      intro j hj
      obtain ⟨j₀, hj₀, rfl⟩ := List.mem_map.mp hj
      refine ⟨j₀, hj₀, ?_⟩
      split
      · rename_i hid
        exact ⟨rfl, rfl, fun _ => .inr hid⟩
      · exact ⟨rfl, rfl, .inl⟩
    constructor
    case ids =>
      have hsame : (s.write (.markTerminal jobId)).jobs.map Job.jobId = s.jobs.map Job.jobId := by
        simp only [Daemon.write, List.map_map]
        apply List.map_congr_left
        intro j _
        simp only [Function.comp_apply]
        split <;> rfl
      rw [hsame, h.ids, Daemon.write, List.length_map]
    case ofRow =>
      intro j hj
      obtain ⟨j₀, hj₀, hctx, _⟩ := hmem j hj
      rw [hctx]
      exact h.ofRow j₀ hj₀
    case single =>
      intro key
      refine Nat.le_trans ?_ (h.single key)
      simp only [Daemon.write, List.filter_map, List.length_map]
      refine (List.monotone_filter_right _ fun j hj => ?_).length_le
      simp only [Function.comp_apply] at hj
      split at hj
      · simp [isArmed] at hj
      · exact hj
    case receipted =>
      intro j hj hterm
      obtain ⟨j₀, hj₀, hctx, _, hstate⟩ := hmem j hj
      rw [hctx]
      rcases hstate hterm with h₀ | hid
      · exact h.receipted j₀ hj₀ h₀
      · exact hposted j₀ hj₀ hid
    case fired => exact h.fired
    case inFlight =>
      intro d hd
      have hnone : s.running = some d := hd
      rw [hidle] at hnone
      cases hnone

lemma Sound.idle {s : Daemon} (h : Sound s) : Sound { s with running := none } :=
  ⟨h.ids, h.ofRow, h.single, h.receipted, h.fired, fun _ hd => nomatch hd⟩

lemma Sound.commit {s : Daemon} (h : Sound s) {ws : List Write} (hlen : ws.length ≤ 2)
    (hfirst : ∀ w ∈ ws.head?, s.Admits w)
    (hsecond : ∀ w w', ws = [w, w'] → (s.write w).Admits w') (died : Option ℕ) :
    Sound (s.commit ws died) := by
  have hall : Sound (ws.foldl Daemon.write s) ∧ ∀ k, Sound ((ws.take k).foldl Daemon.write s) := by
    match ws, hlen with
    | [], _ => exact ⟨h, fun k => by rw [List.take_nil]; exact h⟩
    | [w], _ =>
      have hone := h.write (hfirst w rfl)
      refine ⟨hone, fun k => ?_⟩
      cases k with
      | zero => exact h
      | succ k =>
        rw [List.take_succ_cons, List.take_nil]
        exact hone
    | [w, w'], _ =>
      have hone := h.write (hfirst w rfl)
      have htwo := hone.write (hsecond w w' rfl)
      refine ⟨htwo, fun k => ?_⟩
      match k with
      | 0 => exact h
      | 1 => exact hone
      | k + 2 =>
        rw [List.take_succ_cons, List.take_succ_cons, List.take_nil]
        exact htwo
  cases died with
  | none => exact hall.1
  | some k => exact (hall.2 k).idle

lemma Sound.commit_note {s : Daemon} (h : Sound s) {ws : List Write} (q : String)
    (hws : ws = [] ∨ ∃ n : Note, n.isFired = false ∧ ws = [.note q n]) (died : Option ℕ) :
    Sound (s.commit ws died) := by
  rcases hws with rfl | ⟨n, hn, rfl⟩
  · exact h.commit (by simp) (fun w hw => by simp at hw) (fun w w' hw => by simp at hw) died
  · refine h.commit (by simp) (fun w hw => ?_) (fun w w' hw => by simp at hw) died
    obtain rfl : Write.note q n = w := by simpa using hw
    intro hfired
    rw [hn] at hfired
    cases hfired

lemma Sound.arm {s : Daemon} (h : Sound s) (i : ArmDeliveryDeferralInput) (now : ℕ)
    (died : Option ℕ) : Sound (s.commit (s.armDeliveryDeferral i now) died) := by
  rw [armDeliveryDeferral]
  cases hfind : s.jobs.find? (isArmed i.key) with
  | some j => exact h.commit_note i.qitemId (.inl rfl) died
  | none =>
    refine h.commit (Nat.le_refl _) ?_ ?_ died
    · intro w hw
      obtain rfl := Option.mem_some_iff.mp hw
      refine ⟨?_, fun j hj => by simpa using List.find?_eq_none.mp hfind j hj⟩
      show i.key.qitemId = i.qitemId
      rw [ArmDeliveryDeferralInput.key]
      cases hkey : i.notificationKey with
      | none => rfl
      | some k => exact i.ofRow k hkey
    · intro w w' hw
      simp only [List.cons.injEq, and_true] at hw
      obtain ⟨_, rfl⟩ := hw
      intro hfired
      cases hfired

lemma evaluate_cases (s : Daemon) (jobId now : ℕ) :
    (s.fireDeliveryDeferralIfDue jobId now = {}) ∨
    ∃ job ∈ s.jobs, job.jobId = jobId ∧ job.state = .active ∧ job.context.fireAt ≤ now ∧
      ((Note.posted job.context.notificationKey ∈ s.notesOf job.context.qitemId ∧
          s.fireDeliveryDeferralIfDue jobId now =
            { writes := (if (s.notesOf job.context.qitemId).any Note.isFired then []
                else [.note job.context.qitemId (.deferralFired jobId job.context.notificationKey
                  job.context.entityId)]) ++ [.markTerminal jobId] }) ∨
        (Note.posted job.context.notificationKey ∉ s.notesOf job.context.qitemId ∧
          s.fireDeliveryDeferralIfDue jobId now =
            { writes := if (s.notesOf job.context.qitemId).any Note.isDispatching then []
                else [.note job.context.qitemId
                  (.deferralDispatching jobId job.context.notificationKey)]
              delivery := some { jobId, qitemId := job.context.qitemId,
                                 notificationKey := job.context.notificationKey } })) := by
  rw [fireDeliveryDeferralIfDue]
  cases hfind : s.jobs.find? (fun j => j.jobId = jobId) with
  | none => exact .inl rfl
  | some job =>
    have hmem := List.mem_of_find?_eq_some hfind
    have hid : job.jobId = jobId := by simpa using List.find?_some hfind
    by_cases hstate : job.state = .active
    · by_cases hdue : now < job.context.fireAt
      · exact .inl (by simp [hstate, hdue])
      · refine .inr ⟨job, hmem, hid, hstate, Nat.le_of_not_lt hdue, ?_⟩
        simp only [hstate, ne_eq, not_true_eq_false, if_false, hdue]
        by_cases hposted : Note.posted job.context.notificationKey ∈ s.notesOf job.context.qitemId
        · refine .inl ⟨hposted, ?_⟩
          rw [if_pos (List.contains_iff_mem.mpr hposted)]
        · refine .inr ⟨hposted, ?_⟩
          rw [if_neg (fun h => hposted (List.contains_iff_mem.mp h))]
    · exact .inl (by simp [hstate])

lemma Sound.eq_of_jobId {s : Daemon} (h : Sound s) {j j' : Job} (hj : j ∈ s.jobs)
    (hj' : j' ∈ s.jobs) (hid : j.jobId = j'.jobId) : j = j' := by
  have hnodup : (s.jobs.map Job.jobId).Nodup := h.ids ▸ List.nodup_range
  exact List.inj_on_of_nodup_map hnodup hj hj' hid

lemma Sound.deliver {s : Daemon} (h : Sound s) {job : Job} (hmem : job ∈ s.jobs)
    (hnot : Note.posted job.context.notificationKey ∉ s.notesOf job.context.qitemId) (d : Delivery)
    (hd : d.notificationKey = job.context.notificationKey) :
    Sound { s with running := some d } := by
  refine ⟨h.ids, h.ofRow, h.single, h.receipted, h.fired, fun d' hd' j hj hkey => ?_⟩
  obtain rfl := Option.some.inj hd'
  cases hstate : j.state with
  | active => rfl
  | terminal =>
    have hposted := h.receipted j hj hstate
    have hkey' := hkey.trans hd
    have hrow : j.context.qitemId = job.context.qitemId := by
      rw [← h.ofRow j hj, ← h.ofRow job hmem, hkey']
    rw [hkey', hrow] at hposted
    exact absurd hposted hnot

/-- **Every step keeps the invariant.** -/
theorem Sound.step {s t : Daemon} (h : Sound s) {l : Label} (hstep : Step s l t) : Sound t := by
  cases l with
  | arm i now died =>
    obtain rfl := Option.some.inj hstep
    exact h.arm i now died
  | evaluate jobId now died =>
    cases hrun : s.running with
    | some d => simp [Step, Daemon.step, hrun] at hstep
    | none =>
      simp only [Step, Daemon.step, hrun, Option.some.injEq] at hstep
      subst hstep
      rcases evaluate_cases s jobId now with he | ⟨job, hmem, hid, hstate, hdue, hcase⟩
      · rw [he]
        exact h.idle.commit_note "" (.inl rfl) died
      · rcases hcase with ⟨hposted, he⟩ | ⟨hnot, he⟩
        · rw [he]
          have hterm : ∀ s' : Daemon, s'.running = none → s'.jobs = s.jobs →
              (∀ q m, m ∈ s.notesOf q → m ∈ s'.notesOf q) →
              s'.Admits (.markTerminal jobId) := by
            intro s' hidle hjobs hnotes
            refine ⟨hidle, fun j hj hj' => ?_⟩
            rw [hjobs] at hj
            obtain rfl := h.eq_of_jobId hj hmem (hj'.trans hid.symm)
            exact hnotes _ _ hposted
          by_cases hfired : (s.notesOf job.context.qitemId).any Note.isFired = true
          · rw [if_pos hfired, List.nil_append]
            refine h.idle.commit (by simp) (fun w hw => ?_) (fun w w' hw => by simp at hw) died
            obtain rfl := Option.mem_some_iff.mp hw
            exact hterm _ rfl rfl fun q m hm => hm
          · rw [if_neg hfired]
            refine h.idle.commit (Nat.le_refl _) (fun w hw => ?_) (fun w w' hw => ?_) died
            · obtain rfl := Option.mem_some_iff.mp hw
              intro _ m hm
              have hnone := hfired
              simp only [List.any_eq_true, not_exists, not_and, Bool.not_eq_true] at hnone
              exact hnone m hm
            · simp only [List.cons_append, List.nil_append, List.cons.injEq, and_true] at hw
              obtain ⟨rfl, rfl⟩ := hw
              exact hterm _ rfl rfl fun q m hm => mem_notesOf_note hm
        · rw [he]
          have hsound := h.deliver hmem hnot ⟨jobId, job.context.qitemId, _, false⟩ rfl
          refine hsound.commit_note job.context.qitemId ?_ died
          by_cases hdisp : (s.notesOf job.context.qitemId).any Note.isDispatching = true
          · exact .inl (if_pos hdisp)
          · exact .inr ⟨_, rfl, if_neg hdisp⟩
  | dispatch =>
    cases hrun : s.running with
    | none => simp [Step, Daemon.step, hrun] at hstep
    | some d =>
      simp only [Step, Daemon.step, hrun] at hstep
      split at hstep
      · cases hstep
      · obtain rfl := Option.some.inj hstep
        refine ⟨h.ids, h.ofRow, h.single, h.receipted, h.fired, fun d' hd' j hj hkey => ?_⟩
        obtain rfl := Option.some.inj hd'
        exact h.inFlight d hrun j hj hkey
  | settle outcome =>
    cases hrun : s.running with
    | none => simp [Step, Daemon.step, hrun] at hstep
    | some d =>
      simp only [Step, Daemon.step, hrun, Option.some.injEq] at hstep
      subst hstep
      refine h.idle.commit_note d.qitemId ?_ none
      cases outcome with
      | ok => exact .inl rfl
      | refused => exact .inr ⟨_, rfl, rfl⟩
      | thrown error => exact .inr ⟨_, rfl, rfl⟩
  | posted qitemId key =>
    obtain rfl := Option.some.inj hstep
    refine h.commit_note qitemId ?_ none
    by_cases hr : s.hasReceipt key qitemId = true
    · exact .inl (if_pos hr)
    · exact .inr ⟨_, rfl, if_neg hr⟩
  | accepted qitemId key =>
    obtain rfl := Option.some.inj hstep
    refine h.commit_note qitemId ?_ none
    by_cases hr : (s.notesOf qitemId).contains (.accepted key) = true
    · exact .inl (if_pos hr)
    · exact .inr ⟨_, rfl, if_neg hr⟩
  | note qitemId text =>
    obtain rfl := Option.some.inj hstep
    exact h.commit_note qitemId (.inr ⟨_, rfl, rfl⟩) none
  | restart =>
    obtain rfl := Option.some.inj hstep
    exact h.idle

lemma Fresh.sound {s : Daemon} (h : Fresh s) : Sound s := by
  have hfired : ∀ q, ∀ n ∈ s.notesOf q, n.isFired = false := by
    intro q n hn
    obtain ⟨e, he, rfl⟩ := List.mem_map.mp hn
    exact h.fired e (List.mem_filter.mp he).1
  constructor
  case fired =>
    intro q
    have hnil : (s.notesOf q).filter Note.isFired = [] :=
      List.filter_eq_nil_iff.mpr fun n hn => by simp [hfired q n hn]
    rw [hnil]
    exact Nat.zero_le _
  case inFlight =>
    intro d hd
    rw [h.running] at hd
    cases hd
  all_goals simp [h.jobs]

/-! ### One evaluation -/

/-- The job is active and due, and its row has a receipt of its episode. -/
structure Owed (s : Daemon) (jobId now : ℕ) (j : Job) : Prop where
  mem : j ∈ s.jobs
  id : j.jobId = jobId
  active : j.state = .active
  due : j.context.fireAt ≤ now
  receipt : s.hasReceipt j.context.notificationKey j.context.qitemId = true

/-- The evaluation retires the job and leaves one fired note that names its episode. -/
def FiresOnce (s : Daemon) : Label → Daemon → Prop
  | .evaluate jobId now none, t => ∀ j, s.Owed jobId now j →
      (∀ j' ∈ t.jobs, j'.jobId = jobId → j'.state = .terminal) ∧
        ((t.notesOf j.context.qitemId).filter
          (Note.firedFor j.context.notificationKey)).length = 1
  | _, _ => True

/-- The receipt is a Slack post, and no other episode of the row has fired. -/
def OwnReceipt (s : Daemon) : Label → Prop
  | .evaluate jobId now none => ∀ j, s.Owed jobId now j →
      Note.posted j.context.notificationKey ∈ s.notesOf j.context.qitemId ∧
        ∀ n ∈ s.notesOf j.context.qitemId, n.isFired = true →
          n.firedFor j.context.notificationKey = true
  | _ => True

lemma Owed.evaluate_eq {s t : Daemon} {jobId now : ℕ} {j : Job} (ho : s.Owed jobId now j)
    (h : Sound s) (hstep : Step s (.evaluate jobId now none) t) :
    (Note.posted j.context.notificationKey ∈ s.notesOf j.context.qitemId ∧
      t = (if (s.notesOf j.context.qitemId).any Note.isFired then { s with running := none }
        else ({ s with running := none } : Daemon).write (.note j.context.qitemId
          (.deferralFired jobId j.context.notificationKey j.context.entityId))).write
            (.markTerminal jobId)) ∨
    (Note.posted j.context.notificationKey ∉ s.notesOf j.context.qitemId ∧ t.jobs = s.jobs) := by
  cases hrun : s.running with
  | some d => simp [Step, Daemon.step, hrun] at hstep
  | none =>
    simp only [Step, Daemon.step, hrun, Option.some.injEq] at hstep
    have hfind : s.jobs.find? (fun j' => j'.jobId = jobId) = some j := by
      obtain ⟨j', hj'⟩ := Option.isSome_iff_exists.mp
        (List.find?_isSome.mpr ⟨j, ho.mem, by simpa using ho.id⟩ :
          (s.jobs.find? (fun j' => j'.jobId = jobId)).isSome = true)
      have hid' : j'.jobId = jobId := by simpa using List.find?_some hj'
      obtain rfl := h.eq_of_jobId (List.mem_of_find?_eq_some hj') ho.mem (hid'.trans ho.id.symm)
      exact hj'
    have hdue : ¬ now < j.context.fireAt := Nat.not_lt.mpr ho.due
    simp only [fireDeliveryDeferralIfDue, hfind, ho.active, ne_eq, not_true_eq_false, if_false,
      hdue] at hstep
    by_cases hposted : Note.posted j.context.notificationKey ∈ s.notesOf j.context.qitemId
    · refine .inl ⟨hposted, ?_⟩
      rw [if_pos (List.contains_iff_mem.mpr hposted)] at hstep
      rw [← hstep]
      by_cases hfired : (s.notesOf j.context.qitemId).any Note.isFired = true
      · rw [if_pos hfired, if_pos hfired]
        rfl
      · rw [if_neg hfired, if_neg hfired]
        rfl
    · refine .inr ⟨hposted, ?_⟩
      rw [if_neg (fun h => hposted (List.contains_iff_mem.mp h))] at hstep
      rw [← hstep]
      by_cases hdisp : (s.notesOf j.context.qitemId).any Note.isDispatching = true
      · rw [if_pos hdisp]
        rfl
      · rw [if_neg hdisp]
        rfl

lemma firedFor_isFired {key : NotificationKey} {n : Note} (h : n.firedFor key = true) :
    n.isFired = true := by
  cases n <;> first | rfl | simp [Note.firedFor] at h

lemma length_filter_eq_one_iff {α : Type} {p q : α → Bool} {l : List α}
    (hle : (l.filter p).length ≤ 1) (hqp : ∀ x, q x = true → p x = true)
    (hex : ∃ x ∈ l, p x = true) :
    (∀ x ∈ l, p x = true → q x = true) ↔ (l.filter q).length = 1 := by
  have hfilter : l.filter q = (l.filter p).filter q := by
    rw [List.filter_filter]
    apply List.filter_congr
    intro x _
    cases hq : q x with
    | false => rfl
    | true => rw [hqp x hq]; rfl
  obtain ⟨x, hx, hpx⟩ := hex
  have hmem := List.mem_filter.mpr ⟨hx, hpx⟩
  obtain ⟨y, hy⟩ : ∃ y, l.filter p = [y] := by
    match hl : l.filter p, hle, hmem with
    | [y], _, _ => exact ⟨y, rfl⟩
  have hall : (∀ x ∈ l, p x = true → q x = true) ↔ q y = true := by
    constructor
    · intro h
      have hy' : y ∈ l.filter p := hy ▸ List.mem_cons_self
      exact h y (List.mem_filter.mp hy').1 (List.mem_filter.mp hy').2
    · intro h x hx hpx
      have hx' := List.mem_filter.mpr ⟨hx, hpx⟩
      rw [hy] at hx'
      exact List.mem_singleton.mp hx' ▸ h
  rw [hall, hfilter, hy]
  by_cases hq : q y = true
  · simp [hq]
  · simp [hq]

/-- **An evaluation fires its episode exactly when the receipt is a Slack post and the row's fired
note, if it has one, is this episode's.** -/
theorem ownReceipt_iff {s t : Daemon} (h : Sound s) {l : Label} (hstep : Step s l t) :
    OwnReceipt s l ↔ FiresOnce s l t := by
  match l with
  | .evaluate jobId now none =>
    refine forall_congr' fun j => ?_
    refine imp_congr_right fun ho => ?_
    have hle := h.fired j.context.qitemId
    rcases ho.evaluate_eq h hstep with ⟨hposted, rfl⟩ | ⟨hnot, hjobs⟩
    · have hterm : ∀ s' : Daemon, ∀ j' ∈ (s'.write (.markTerminal jobId)).jobs,
          j'.jobId = jobId → j'.state = .terminal := by
        intro s' j' hj' hid
        obtain ⟨j₀, _, rfl⟩ := List.mem_map.mp hj'
        split at hid
        · rename_i hid₀
          rw [if_pos hid₀]
        · rename_i hid₀
          exact absurd hid hid₀
      refine (and_iff_right hposted).trans (Iff.trans ?_ (and_iff_right (hterm _)).symm)
      by_cases hfired : (s.notesOf j.context.qitemId).any Note.isFired = true
      · rw [if_pos hfired]
        obtain ⟨n, hn, hn'⟩ := List.any_eq_true.mp hfired
        exact length_filter_eq_one_iff hle (fun n hn => firedFor_isFired hn) ⟨n, hn, hn'⟩
      · rw [if_neg hfired]
        simp only [List.any_eq_true, not_exists, not_and] at hfired
        refine iff_of_true (fun n hn hn' => absurd hn' (hfired n hn)) ?_
        have hnotes : ∀ q s',
          ((s' : Daemon).write (.markTerminal jobId)).notesOf q = s'.notesOf q :=
          fun q s' => rfl
        have hold : (s.notesOf j.context.qitemId).filter
            (Note.firedFor j.context.notificationKey) = [] :=
          List.filter_eq_nil_iff.mpr fun n hn hn' => hfired n hn (firedFor_isFired hn')
        rw [hnotes, notesOf_note, if_pos rfl, List.filter_append]
        show ((s.notesOf j.context.qitemId).filter _ ++ _).length = 1
        rw [hold]
        simp [Note.firedFor]
    · refine iff_of_false (fun hc => hnot hc.1) fun hc => ?_
      have hterm := hc.1 j (hjobs ▸ ho.mem) ho.id
      rw [ho.active] at hterm
      cases hterm
  | .evaluate _ _ (some _) | .arm .. | .dispatch | .settle _ | .posted .. | .accepted .. | .note ..
  | .restart => exact iff_of_true trivial trivial

/-! ### Runs -/

lemma mem_jobs_write {s : Daemon} (w : Write) {j : Job} (hj : j ∈ s.jobs)
    (hterm : j.state = .terminal) : j ∈ (s.write w).jobs := by
  cases w with
  | register context => exact List.mem_append_left _ hj
  | note q n => exact hj
  | markTerminal jobId =>
    refine List.mem_map.mpr ⟨j, hj, ?_⟩
    split
    · rw [← hterm]
    · rfl

lemma mem_jobs_writes {s : Daemon} (ws : List Write) {j : Job} (hj : j ∈ s.jobs)
    (hterm : j.state = .terminal) : j ∈ (ws.foldl write s).jobs := by
  induction ws generalizing s with
  | nil => exact hj
  | cons w ws ih => exact ih (mem_jobs_write w hj hterm)

lemma interrupts_writes (s : Daemon) (ws : List Write) :
    (ws.foldl write s).interrupts = s.interrupts := by
  induction ws generalizing s with
  | nil => rfl
  | cons w ws ih =>
    rw [List.foldl_cons, ih]
    cases w <;> rfl

lemma commit_keeps (s : Daemon) (ws : List Write) (died : Option ℕ) :
    (s.commit ws died).interrupts = s.interrupts ∧
      ∀ j ∈ s.jobs, j.state = .terminal → j ∈ (s.commit ws died).jobs := by
  cases died with
  | none => exact ⟨interrupts_writes s ws, fun j hj => mem_jobs_writes ws hj⟩
  | some k => exact ⟨interrupts_writes s _, fun j hj => mem_jobs_writes _ hj⟩

/-- **A retired episode gets no interrupt**, and its job stays retired. -/
theorem Sound.retired {s t : Daemon} (h : Sound s) {l : Label} (hstep : Step s l t) {j : Job}
    (hj : j ∈ s.jobs) (hterm : j.state = .terminal) :
    (t.interrupts.filter fun k => k = j.context.notificationKey) =
        (s.interrupts.filter fun k => k = j.context.notificationKey) ∧ j ∈ t.jobs := by
  have hcommit : ∀ (ws : List Write) (died : Option ℕ) (r : Option Delivery),
      t = ({ s with running := r } : Daemon).commit ws died →
      (t.interrupts.filter fun k => k = j.context.notificationKey) =
        (s.interrupts.filter fun k => k = j.context.notificationKey) ∧ j ∈ t.jobs := by
    rintro ws died r rfl
    obtain ⟨hint, hjobs⟩ := commit_keeps { s with running := r } ws died
    exact ⟨by rw [hint], hjobs j hj hterm⟩
  cases l with
  | arm i now died => exact hcommit _ died s.running (Option.some.inj hstep).symm
  | evaluate jobId now died =>
    cases hrun : s.running with
    | some d => simp [Step, Daemon.step, hrun] at hstep
    | none =>
      simp only [Step, Daemon.step, hrun, Option.some.injEq] at hstep
      exact hcommit _ died _ hstep.symm
  | dispatch =>
    cases hrun : s.running with
    | none => simp [Step, Daemon.step, hrun] at hstep
    | some d =>
      simp only [Step, Daemon.step, hrun] at hstep
      split at hstep
      · cases hstep
      · obtain rfl := Option.some.inj hstep
        have hne : d.notificationKey ≠ j.context.notificationKey := by
          intro hkey
          have hactive := h.inFlight d hrun j hj hkey.symm
          rw [hterm] at hactive
          cases hactive
        refine ⟨?_, hj⟩
        rw [List.filter_append]
        simp [hne]
  | settle outcome =>
    cases hrun : s.running with
    | none => simp [Step, Daemon.step, hrun] at hstep
    | some d =>
      simp only [Step, Daemon.step, hrun, Option.some.injEq] at hstep
      exact hcommit _ none none hstep.symm
  | posted qitemId key => exact hcommit _ none s.running (Option.some.inj hstep).symm
  | accepted qitemId key => exact hcommit _ none s.running (Option.some.inj hstep).symm
  | note qitemId text => exact hcommit _ none s.running (Option.some.inj hstep).symm
  | restart =>
    obtain rfl := Option.some.inj hstep
    exact ⟨rfl, hj⟩

theorem Sound.run {s t : Daemon} {ls : List Label} (h : Sound s) (hrun : Path Step s ls t) :
    Sound t :=
  hrun.invariant (fun _ _ _ hstep hs => hs.step hstep) h

theorem Sound.run_retired {s t : Daemon} {ls : List Label} (h : Sound s) (hrun : Path Step s ls t)
    {j : Job} (hj : j ∈ s.jobs) (hterm : j.state = .terminal) :
    (t.interrupts.filter fun k => k = j.context.notificationKey) =
      (s.interrupts.filter fun k => k = j.context.notificationKey) := by
  induction hrun with
  | nil s => rfl
  | cons hstep _ ih =>
    obtain ⟨hint, hj'⟩ := h.retired hstep hj hterm
    rw [ih (h.step hstep) hj', hint]

end Daemon

open Daemon

/-- **A deferred alert**, in every run from a daemon without deferrals: an episode has one active
job at most, a job is retired only by a receipt of its episode, and a retired episode gets no
interrupt. The evaluations of owed jobs retire them with one fired note of their own exactly when
each has a Slack receipt and no other episode of its row has fired. -/
theorem deferral_fires_once {s₀ s : Daemon} {before : List Label} (h₀ : Fresh s₀)
    (hs : Path Step s₀ before s) :
    (∀ key, (s.jobs.filter (isArmed key)).length ≤ 1) ∧
    (∀ j ∈ s.jobs, j.state = .terminal →
      s.hasReceipt j.context.notificationKey j.context.qitemId = true) ∧
    ∀ ls t, Path Step s ls t →
      (∀ j ∈ s.jobs, j.state = .terminal →
        (t.interrupts.filter fun k => k = j.context.notificationKey) =
          (s.interrupts.filter fun k => k = j.context.notificationKey)) ∧
      (Path (fun s l t => Step s l t ∧ FiresOnce s l t) s ls t ↔
        Path (fun s l t => Step s l t ∧ OwnReceipt s l) s ls t) := by
  have hsound := h₀.sound.run hs
  refine ⟨hsound.single, fun j hj hterm => ?_, fun ls t ht => ⟨fun j hj hterm => ?_, ?_⟩⟩
  · exact List.any_eq_true.mpr ⟨_, hsound.receipted j hj hterm, by simp⟩
  · exact hsound.run_retired ht hj hterm
  · exact Path.good_iff (I := Sound) (C := OwnReceipt) (Q := FiresOnce)
      (fun _ _ _ hstep h => h.step hstep) (fun _ _ _ hstep h => ownReceipt_iff h hstep) hsound

/-- The row `q`, as an alert for a person away for half an hour. -/
def armed (episode : ℕ) : ArmDeliveryDeferralInput where
  qitemId := "q"
  entityId := "owner"
  minutes := 30
  notificationKey := some ⟨"q", some episode⟩
  ofRow := by simp

/-- An episode whose Slack post lands while its interrupt is being delivered. -/
theorem deferral_fires_once_posted :
    let s := play Daemon.step {} [.arm (armed 1) 0 none, .evaluate 0 1800000 none, .dispatch,
      .posted "q" ⟨"q", some 1⟩, .settle .ok]
    let t := play Daemon.step s [.evaluate 0 3600000 none]
    s.interrupts = [⟨"q", some 1⟩] ∧ t.jobs.map Job.state = [.terminal] ∧
      Path (fun s l t => Step s l t ∧ FiresOnce s l t) s [.evaluate 0 3600000 none] t := by
  intro s t
  have hs : Path Step {} [.arm (armed 1) 0 none, .evaluate 0 1800000 none, .dispatch,
      .posted "q" ⟨"q", some 1⟩, .settle .ok] s := path_play _ (by decide)
  have ht : Path Step s [.evaluate 0 3600000 none] t := path_play _ (by decide)
  have hown : ∀ j ∈ s.jobs,
      Note.posted j.context.notificationKey ∈ s.notesOf j.context.qitemId ∧
        ∀ n ∈ s.notesOf j.context.qitemId, n.isFired = true →
          n.firedFor j.context.notificationKey = true := by decide
  have hall := ((deferral_fires_once ⟨rfl, rfl, by simp⟩ hs).2.2 _ t ht).2
  exact ⟨by decide, by decide, hall.mpr (.single
    ⟨Path.single_iff.mp ht, fun j hj => hown j hj.mem⟩)⟩

/-- A relay acceptance never retires the job, and the second episode of a row is retired without a
fired note of its own. -/
theorem deferral_missed :
    (∃ s t, Path Step {} [.arm (armed 1) 0 none, .accepted "q" ⟨"q", some 1⟩] s ∧
      Step s (.evaluate 0 1800000 none) t ∧ ¬ FiresOnce s (.evaluate 0 1800000 none) t ∧
      t.jobs.map Job.state = [.active]) ∧
    ∃ s t, Path Step {} [.arm (armed 1) 0 none, .posted "q" ⟨"q", some 1⟩,
        .evaluate 0 1800000 none, .arm (armed 2) 1800000 none, .posted "q" ⟨"q", some 2⟩] s ∧
      Step s (.evaluate 1 3600000 none) t ∧ ¬ FiresOnce s (.evaluate 1 3600000 none) t ∧
      ∀ n ∈ t.notesOf "q", n.firedFor ⟨"q", some 2⟩ = false := by
  constructor
  · refine ⟨_,
      play Daemon.step (play Daemon.step {} [.arm (armed 1) 0 none, .accepted "q" ⟨"q", some 1⟩])
      [.evaluate 0 1800000 none], path_play _ (by decide),
      Path.single_iff.mp (path_play _ (by decide)), fun h => ?_, by decide⟩
    have hterm := (h ⟨0, ⟨"q", "owner", 30, 0, ⟨"q", some 1⟩⟩, .active⟩
      ⟨by decide, rfl, rfl, by decide, by decide⟩).1
    exact absurd hterm (by decide)
  · refine ⟨_,
      play Daemon.step (play Daemon.step {} [.arm (armed 1) 0 none, .posted "q" ⟨"q", some 1⟩,
        .evaluate 0 1800000 none, .arm (armed 2) 1800000 none, .posted "q" ⟨"q", some 2⟩])
      [.evaluate 1 3600000 none], path_play _ (by decide),
      Path.single_iff.mp (path_play _ (by decide)), fun h => ?_, by decide⟩
    have hcount := (h ⟨1, ⟨"q", "owner", 30, 1800000, ⟨"q", some 2⟩⟩, .active⟩
      ⟨by decide, rfl, rfl, by decide, by decide⟩).2
    exact absurd hcount (by decide)

end OpenRig.DeliveryDeferral
