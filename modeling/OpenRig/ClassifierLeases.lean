import OpenRig.Table
import OpenRig.JsText
import OpenRig.Runs

/-!
The classifier lease: at most one session at a time writes classifications.

A call commits as a whole or not at all, so the table moves by the few `Move`s below: a lease is
issued, extended, or settled as expired or reclaimed. A settled lease never moves again.
-/

namespace OpenRig.ClassifierLeases

open OpenRig.JsText OpenRig.Runs

/-! ### The table -/

inductive LeaseState where
  | active
  | expired
  | reclaimed
  deriving DecidableEq

def LeaseState.text : LeaseState → String
  | .active => "active"
  | .expired => "expired"
  | .reclaimed => "reclaimed"

structure ClassifierLease where
  leaseId : String
  classifierSession : String
  acquiredAt : Time
  expiresAt : Time
  lastHeartbeat : Time
  state : LeaseState := .active
  reclaimedBySession : Option String := none
  reclaimReason : Option String := none

def ClassifierLease.isActive (r : ClassifierLease) : Bool := r.state = .active

inductive LeaseEvent where
  | leaseAcquired (leaseId classifierSession : String) (acquiredAt expiresAt : Time)
  | leaseExpired (leaseId classifierSession : String) (expiredAt : Time)
  | dead (leaseId classifierSession : String) (lastHeartbeat detectedAt : Time)
  | reclaimed (leaseId previousClassifierSession reclaimedBySession reason : String)
      (reclaimedAt : Time)

/-- The table and the events its calls persist, newest first. The unique index on the active state
is a field. -/
structure Leases where
  rows : Table ClassifierLease.leaseId
  singleton : (rows.filter ClassifierLease.isActive).length ≤ 1
  events : List LeaseEvent := []

def Leases.empty : Leases := ⟨.empty, by decide, []⟩

/-- The codes of `ClassifierLeaseError`, with what their messages name; `sqlite` is a constraint of
the table. -/
inductive ClassifierLeaseError where
  | heldUntil (holder : String) (expiresAt : Time)
  | heldNotBy (holder caller : String)
  | notFound (leaseId : String)
  | sessionMismatch (leaseId holder caller : String)
  | notActive (leaseId : String) (state : LeaseState)
  | pastTtl (leaseId : String) (expiresAt : Time)
  | expired (caller : String) (expiresAt : Time)
  | noneToReclaim
  | noneHeld
  | stillActive (holder : String)
  | mismatch (caller activeLeaseId suppliedLeaseId : String)
  | sqlite

def ClassifierLeaseError.code : ClassifierLeaseError → String
  | .heldUntil .. | .heldNotBy .. => "lease_held"
  | .notFound _ => "lease_not_found"
  | .sessionMismatch .. => "lease_session_mismatch"
  | .notActive .. => "lease_not_active"
  | .pastTtl .. | .expired .. => "lease_expired"
  | .noneToReclaim | .noneHeld => "no_active_lease"
  | .stillActive _ => "lease_still_active"
  | .mismatch .. => "lease_mismatch"
  | .sqlite => "internal_error"

def ClassifierLeaseError.message : ClassifierLeaseError → String
  | .heldUntil holder expiresAt =>
    "classifier lease is held by " ++ holder ++ " until " ++ toISOString expiresAt ++
      "; reclaim via 'rig project --reclaim-classifier' if needed"
  | .heldNotBy holder caller => "classifier lease is held by " ++ holder ++ ", not " ++ caller
  | .notFound leaseId => "lease " ++ leaseId ++ " not found"
  | .sessionMismatch leaseId holder caller =>
    "lease " ++ leaseId ++ " is held by " ++ holder ++ ", not " ++ caller
  | .notActive leaseId state =>
    "lease " ++ leaseId ++ " is in state " ++ state.text ++ "; cannot heartbeat"
  | .pastTtl leaseId expiresAt =>
    "lease " ++ leaseId ++ " expired at " ++ toISOString expiresAt ++
      "; acquire a new lease instead of heartbeating"
  | .expired caller expiresAt =>
    "classifier lease for " ++ caller ++ " expired at " ++ toISOString expiresAt
  | .noneToReclaim => "no active classifier lease to reclaim"
  | .noneHeld => "no active classifier lease; call acquire first"
  | .stillActive holder =>
    "classifier lease holder " ++ holder ++ " is still alive; --if-dead refuses to reclaim"
  | .mismatch caller activeLeaseId suppliedLeaseId =>
    "result is bound to lease " ++ suppliedLeaseId ++ ", but the active lease for " ++ caller ++
      " is " ++ activeLeaseId
  | .sqlite => "UNIQUE constraint failed"

/-- What one call reads from outside: the clock's readings in order, the liveness check and a fresh
id. -/
structure Env where
  ttlMs : ℕ
  now : ℕ → Time
  isAlive : String → Bool
  ulid : String

abbrev Result (α : Type) := Except ClassifierLeaseError α

namespace Leases

variable (s : Leases)

def getActiveLease : Option ClassifierLease := s.rows.rows.find? ClassifierLease.isActive

def getById (leaseId : String) : Option ClassifierLease := s.rows.get? leaseId

def getByIdOrThrow (leaseId : String) : Result ClassifierLease :=
  match s.getById leaseId with
  | some lease => .ok lease
  | none => .error (.notFound leaseId)

def emit (e : LeaseEvent) : Leases := { s with events := e :: s.events }

/-- An update makes no row active. -/
def updateWhere (p : ClassifierLease → Bool) (f : ClassifierLease → ClassifierLease)
    (hkey : ∀ r, (f r).leaseId = r.leaseId := by intro _; rfl)
    (hact : ∀ r, (f r).isActive = true → r.isActive = true := by intro _ h; exact h) : Leases :=
  { s with
    rows := s.rows.updateWhere p f hkey
    singleton := by
      refine le_trans ?_ s.singleton
      simp only [Table.filter, Table.updateWhere, ← List.countP_eq_length_filter, List.countP_map]
      refine List.countP_mono_left fun r _ h => ?_
      simp only [Function.comp_apply, Table.rewrite] at h
      split at h
      · exact hact r h
      · exact h }

/-- `SET state = ?` of an active lease. -/
def settle (leaseId : String) (f : ClassifierLease → ClassifierLease)
    (hkey : ∀ r, (f r).leaseId = r.leaseId)
    (hact : ∀ r, (f r).isActive = true → r.isActive = true) : Leases :=
  s.updateWhere (fun r => r.leaseId = leaseId && r.isActive) f hkey hact

end Leases

def lapsed (r : ClassifierLease) : ClassifierLease := { r with state := .expired }

def taken (bySession reason : String) (r : ClassifierLease) : ClassifierLease :=
  { r with
    state := .reclaimed
    reclaimedBySession := some bySession
    reclaimReason := some reason }

lemma lapsed_inactive (r : ClassifierLease) (h : (lapsed r).isActive = true) :
    r.isActive = true := by cases h

lemma taken_inactive {bySession reason : String} (r : ClassifierLease)
    (h : (taken bySession reason r).isActive = true) : r.isActive = true := by cases h

def isPastTtl (lease : ClassifierLease) (now : Time) : Bool := lease.expiresAt < now

/-- The clock is read twice, from reading `k` on. -/
def issued (env : Env) (k : ℕ) (classifierSession : String) : ClassifierLease where
  leaseId := env.ulid
  classifierSession := classifierSession
  acquiredAt := env.now k
  expiresAt := env.now (k + 1) + env.ttlMs
  lastHeartbeat := env.now k

/-- An insert is refused when the id is taken or another lease is active. -/
def insertActiveLease (env : Env) (k : ℕ) (s : Leases) (classifierSession : String) :
    Result Leases :=
  let r := issued env k classifierSession
  match h : s.getActiveLease, h' : s.rows.insert? r with
  | none, some rows =>
    .ok
      { rows := rows
        singleton := by
          have hnone : s.rows.rows.filter ClassifierLease.isActive = [] :=
            List.filter_eq_nil_iff.mpr (List.find?_eq_none.mp h)
          rw [Table.filter, (Table.insert?_eq_some h').2, List.filter_append, hnone]
          exact (List.length_filter_le _ _).trans (by simp)
        events := .leaseAcquired r.leaseId classifierSession r.acquiredAt r.expiresAt :: s.events }
  | _, _ => .error .sqlite

/-- Expire the caller's own lease and issue a fresh one. -/
def replaceExpiredOwnLease (env : Env) (k : ℕ) (s : Leases) (active : ClassifierLease) :
    Result (Leases × ClassifierLease) := do
  let expired := (s.settle active.leaseId lapsed (fun _ => rfl) lapsed_inactive).emit
    (.leaseExpired active.leaseId active.classifierSession (env.now k))
  let s' ← insertActiveLease env (k + 1) expired active.classifierSession
  let lease ← s'.getByIdOrThrow env.ulid
  return (s', lease)

def acquire (env : Env) (s : Leases) (classifierSession : String) :
    Result (Leases × ClassifierLease) :=
  match s.getActiveLease with
  | some active =>
    if active.classifierSession = classifierSession then
      if !isPastTtl active (env.now 0) then .ok (s, active)
      else replaceExpiredOwnLease env 1 s active
    else .error (.heldUntil active.classifierSession active.expiresAt)
  | none => do
    let s' ← insertActiveLease env 0 s classifierSession
    let lease ← s'.getByIdOrThrow env.ulid
    return (s', lease)

/-- The clock is read once more for the new times. -/
def extended (env : Env) (r : ClassifierLease) : ClassifierLease :=
  { r with lastHeartbeat := env.now 1, expiresAt := env.now 1 + env.ttlMs }

def heartbeat (env : Env) (s : Leases) (leaseId classifierSession : String) :
    Result (Leases × ClassifierLease) :=
  match s.getById leaseId with
  | none => .error (.notFound leaseId)
  | some lease =>
    if lease.classifierSession ≠ classifierSession then
      .error (.sessionMismatch leaseId lease.classifierSession classifierSession)
    else if lease.state ≠ .active then .error (.notActive leaseId lease.state)
    else if isPastTtl lease (env.now 0) then .error (.pastTtl leaseId lease.expiresAt)
    else do
      let s' := s.updateWhere (fun r => r.leaseId = leaseId) (extended env)
      let after ← s'.getByIdOrThrow leaseId
      return (s', after)

/-- Marks the active lease expired when its time is over or its holder is dead. -/
def evaluateDeadness (env : Env) (s : Leases) : Result (Leases × Option ClassifierLease) :=
  match s.getActiveLease with
  | none => .ok (s, none)
  | some active =>
    let ttlPassed := isPastTtl active (env.now 0)
    let sessionDead := !env.isAlive active.classifierSession
    if !ttlPassed && !sessionDead then .ok (s, none)
    else do
      let expired := (s.settle active.leaseId lapsed (fun _ => rfl) lapsed_inactive).emit
        (.leaseExpired active.leaseId active.classifierSession (env.now 0))
      let s' := if sessionDead then
          expired.emit (.dead active.leaseId active.classifierSession active.lastHeartbeat
            (env.now 0))
        else expired
      let lease ← s'.getByIdOrThrow active.leaseId
      return (s', some lease)

/-- The operator's verb. -/
def reclaim (env : Env) (s : Leases) (byClassifierSession : String) (ifDead : Bool)
    (reason : Option String) : Result (Leases × ClassifierLease) :=
  match s.getActiveLease with
  | none => .error .noneToReclaim
  | some active =>
    if ifDead && env.isAlive active.classifierSession then
      .error (.stillActive active.classifierSession)
    else do
      let why := reason.getD (if ifDead then "operator-reclaim --if-dead" else "operator-reclaim")
      let s' := (s.settle active.leaseId (taken byClassifierSession why) (fun _ => rfl)
          taken_inactive).emit
        (.reclaimed active.leaseId active.classifierSession byClassifierSession why (env.now 0))
      let lease ← s'.getByIdOrThrow active.leaseId
      return (s', lease)

/-- The caller must hold the active lease and, when it names one, that lease. -/
def requireActiveHolder (s : Leases) (now : Time) (classifierSession : String)
    (leaseId : Option String) : Result ClassifierLease :=
  match s.getActiveLease with
  | none => .error .noneHeld
  | some active =>
    if active.classifierSession ≠ classifierSession then
      .error (.heldNotBy active.classifierSession classifierSession)
    else if active.expiresAt < now then .error (.expired classifierSession active.expiresAt)
    else match leaseId with
      | none => .ok active
      | some supplied =>
        if active.leaseId ≠ supplied then
          .error (.mismatch classifierSession active.leaseId supplied)
        else .ok active

inductive Call where
  | acquire (classifierSession : String)
  | heartbeat (leaseId classifierSession : String)
  | evaluateDeadness
  | reclaim (byClassifierSession : String) (ifDead : Bool) (reason : Option String)

def exec (env : Env) (s : Leases) : Call → Result (Leases × Option ClassifierLease)
  | .acquire classifierSession => (acquire env s classifierSession).map fun p => (p.1, some p.2)
  | .heartbeat leaseId classifierSession =>
    (heartbeat env s leaseId classifierSession).map fun p => (p.1, some p.2)
  | .evaluateDeadness => evaluateDeadness env s
  | .reclaim byClassifierSession ifDead reason =>
    (reclaim env s byClassifierSession ifDead reason).map fun p => (p.1, some p.2)

/-- A refused call leaves everything as it was. -/
def after (env : Env) (s : Leases) (c : Call) : Leases :=
  match exec env s c with
  | .ok (t, _) => t
  | .error _ => s

def Step (s : Leases) (l : Env × Call) (t : Leases) : Prop := t = after l.1 s l.2

/-! ### Moves -/

lemma getActiveLease_eq_some {s : Leases} {r : ClassifierLease} (h : s.getActiveLease = some r) :
    s.getById r.leaseId = some r ∧ r.state = .active := by
  refine ⟨Table.get?_of_mem (List.mem_of_find?_eq_some h), ?_⟩
  simpa [ClassifierLease.isActive] using List.find?_some h

lemma getActiveLease_of_active {s : Leases} {id : String} {r : ClassifierLease}
    (h : s.getById id = some r) (hr : r.state = .active) : s.getActiveLease = some r := by
  have hmem : r ∈ s.rows.rows.filter ClassifierLease.isActive :=
    List.mem_filter.mpr ⟨(Table.get?_eq_some.mp h).1, by simp [ClassifierLease.isActive, hr]⟩
  have hone : (s.rows.rows.filter ClassifierLease.isActive).length ≤ 1 := s.singleton
  unfold Leases.getActiveLease
  rw [← List.head?_filter]
  match hf : s.rows.rows.filter ClassifierLease.isActive with
  | [] => simp [hf] at hmem
  | [a] =>
    rw [hf, List.mem_singleton] at hmem
    rw [hmem, List.head?_cons]
  | a :: b :: l =>
    rw [hf] at hone
    simp at hone

/-- What the events say of a lease: who took it and how it stands. -/
abbrev Standing := String → Option (String × LeaseState)

def record (m : Standing) : LeaseEvent → Standing
  | .leaseAcquired id session _ _ => Function.update m id (some (session, .active))
  | .leaseExpired id _ _ => Function.update m id ((m id).map fun p => (p.1, .expired))
  | .dead .. => m
  | .reclaimed id .. => Function.update m id ((m id).map fun p => (p.1, .reclaimed))

def standing (events : List LeaseEvent) : Standing :=
  events.foldr (fun e m => record m e) fun _ => none

/-- One change of the table: every other row stays. -/
inductive Move (env : Env) (s t : Leases) : Prop
  | issue (r : ClassifierLease) (vacant : s.getActiveLease = none)
      (fresh : s.getById r.leaseId = none) (active : r.state = .active)
      (rows : ∀ id, t.getById id = if id = r.leaseId then some r else s.getById id)
      (told : standing t.events =
        Function.update (standing s.events) r.leaseId (some (r.classifierSession, .active)))
  | extend (r : ClassifierLease) (found : s.getById r.leaseId = some r)
      (active : r.state = .active) (inTime : env.now 0 ≤ r.expiresAt)
      (rows : ∀ id, t.getById id = if id = r.leaseId then
        some (extended env r) else s.getById id)
      (told : standing t.events = standing s.events)
  | settle (r r' : ClassifierLease) (found : s.getActiveLease = some r)
      (id : r'.leaseId = r.leaseId) (session : r'.classifierSession = r.classifierSession)
      (acquired : r'.acquiredAt = r.acquiredAt) (settled : r'.state ≠ .active)
      (cause : r'.state = .reclaimed ∨ (∃ k, r.expiresAt < env.now k) ∨
        env.isAlive r.classifierSession = false)
      (rows : ∀ id, t.getById id = if id = r.leaseId then some r' else s.getById id)
      (told : standing t.events = Function.update (standing s.events) r.leaseId
        ((standing s.events r.leaseId).map fun p => (p.1, r'.state)))

lemma getById_settle {s : Leases} {r : ClassifierLease} (h : s.getActiveLease = some r)
    (f : ClassifierLease → ClassifierLease) (hkey) (hact) (id : String) :
    (s.settle r.leaseId f hkey hact).getById id =
      if id = r.leaseId then some (f r) else s.getById id := by
  obtain ⟨hfound, hactive⟩ := getActiveLease_eq_some h
  have hupdate : (s.settle r.leaseId f hkey hact).getById id = (s.getById id).map
      (Table.rewrite (fun a => a.leaseId = r.leaseId && a.isActive) f) :=
    Table.get?_updateWhere _ _ _ hkey _
  rw [hupdate]
  by_cases hid : id = r.leaseId
  · subst hid
    rw [if_pos rfl, hfound]
    simp [Table.rewrite, ClassifierLease.isActive, hactive]
  · rw [if_neg hid]
    cases hget : s.getById id with
    | none => rfl
    | some a =>
      have : a.leaseId ≠ r.leaseId := by
        rw [Table.get?_key hget]
        exact hid
      simp [Table.rewrite, this]

lemma move_settle {env : Env} {s t : Leases} {r : ClassifierLease}
    (f : ClassifierLease → ClassifierLease) (hkey : ∀ r, (f r).leaseId = r.leaseId)
    (hact : ∀ r, (f r).isActive = true → r.isActive = true) (h : s.getActiveLease = some r)
    (hsession : (f r).classifierSession = r.classifierSession)
    (hacquired : (f r).acquiredAt = r.acquiredAt) (hsettled : (f r).state ≠ .active)
    (hcause : (f r).state = .reclaimed ∨ (∃ k, r.expiresAt < env.now k) ∨
      env.isAlive r.classifierSession = false)
    (hrows : t.rows = (s.settle r.leaseId f hkey hact).rows)
    (htold : standing t.events = Function.update (standing s.events) r.leaseId
      ((standing s.events r.leaseId).map fun p => (p.1, (f r).state))) : Move env s t := by
  refine .settle r (f r) h (hkey r) hsession hacquired hsettled hcause (fun id => ?_) htold
  rw [← getById_settle h f hkey hact id]
  unfold Leases.getById
  rw [hrows]

lemma insertActiveLease_spec {env : Env} {k : ℕ} {s t : Leases} {session : String}
    (h : insertActiveLease env k s session = .ok t) :
    Move env s t ∧ t.getById env.ulid = some (issued env k session) := by
  unfold insertActiveLease at h
  dsimp only at h
  split at h
  · rename_i rows hnone hrows
    cases h
    have hget := Table.get?_insert? hrows
    refine ⟨.issue (issued env k session) hnone (Table.insert?_eq_some hrows).1 rfl hget rfl, ?_⟩
    exact (hget _).trans (if_pos rfl)
  · cases h

open Relation (ReflTransGen)

lemma bind_ok {ε α β : Type} {x : Except ε α} {f : α → Except ε β} {b : β} :
    (x >>= f) = .ok b ↔ ∃ a, x = .ok a ∧ f a = .ok b := by
  cases x <;> simp [bind, Except.bind]

lemma map_ok {ε α β : Type} {x : Except ε α} {f : α → β} {b : β} :
    x.map f = .ok b ↔ ∃ a, x = .ok a ∧ f a = b := by
  cases x <;> simp [Except.map]

lemma replaceExpiredOwnLease_moves {env : Env} {k : ℕ} {s : Leases} {active : ClassifierLease}
    {p : Leases × ClassifierLease} (hactive : s.getActiveLease = some active)
    (hpast : isPastTtl active (env.now 0) = true)
    (h : replaceExpiredOwnLease env k s active = .ok p) : ReflTransGen (Move env) s p.1 := by
  obtain ⟨s', hins, h⟩ := bind_ok.mp h
  obtain ⟨lease, -, h⟩ := bind_ok.mp h
  cases h
  have hexpire : Move env s ((s.settle active.leaseId lapsed (fun _ => rfl) lapsed_inactive).emit
      (.leaseExpired active.leaseId active.classifierSession (env.now k))) :=
    move_settle lapsed (fun _ => rfl) lapsed_inactive hactive rfl rfl (by simp [lapsed])
      (.inr (.inl ⟨0, by simpa [isPastTtl] using hpast⟩)) rfl rfl
  exact (ReflTransGen.single hexpire).tail (insertActiveLease_spec hins).1

lemma acquire_moves {env : Env} {s : Leases} {session : String} {p : Leases × ClassifierLease}
    (h : acquire env s session = .ok p) : ReflTransGen (Move env) s p.1 := by
  unfold acquire at h
  split at h
  · rename_i active hactive
    split at h
    · split at h
      · cases h
        exact .refl
      · rename_i hpast
        exact replaceExpiredOwnLease_moves hactive (by simpa using hpast) h
    · cases h
  · obtain ⟨s', hins, h⟩ := bind_ok.mp h
    obtain ⟨lease, -, h⟩ := bind_ok.mp h
    cases h
    exact .single (insertActiveLease_spec hins).1

lemma heartbeat_moves {env : Env} {s : Leases} {leaseId session : String}
    {p : Leases × ClassifierLease} (h : heartbeat env s leaseId session = .ok p) :
    ReflTransGen (Move env) s p.1 := by
  unfold heartbeat at h
  split at h
  · cases h
  · rename_i lease hfound
    split at h
    · cases h
    split at h
    · cases h
    split at h
    · cases h
    rename_i hactive htime
    obtain ⟨after, -, h⟩ := bind_ok.mp h
    cases h
    obtain rfl : lease.leaseId = leaseId := Table.get?_key hfound
    refine .single (.extend lease hfound (not_not.mp hactive) ?_ (fun id => ?_) rfl)
    · simpa [isPastTtl] using htime
    · refine (Table.get?_update s.rows lease.leaseId (extended env) (fun _ => rfl) id).trans ?_
      by_cases hid : id = lease.leaseId
      · subst hid
        rw [if_pos rfl, if_pos rfl, show s.rows.get? lease.leaseId = some lease from hfound]
        rfl
      · rw [if_neg hid, if_neg hid]
        rfl

lemma evaluateDeadness_moves {env : Env} {s : Leases} {p : Leases × Option ClassifierLease}
    (h : evaluateDeadness env s = .ok p) : ReflTransGen (Move env) s p.1 := by
  unfold evaluateDeadness at h
  split at h
  · cases h
    exact .refl
  · rename_i active hactive
    dsimp only at h
    split at h
    · cases h
      exact .refl
    · rename_i hlost
      have hcause : (∃ k, active.expiresAt < env.now k) ∨
          env.isAlive active.classifierSession = false := by
        by_cases hpast : active.expiresAt < env.now 0
        · exact .inl ⟨0, hpast⟩
        · exact .inr (by simpa [isPastTtl, hpast] using hlost)
      obtain ⟨lease, -, h⟩ := bind_ok.mp h
      cases h
      cases hdead : !env.isAlive active.classifierSession with
      | false =>
        exact .single (move_settle lapsed (fun _ => rfl) lapsed_inactive hactive rfl rfl
          (by simp [lapsed]) (.inr hcause) rfl rfl)
      | true =>
        exact .single (move_settle lapsed (fun _ => rfl) lapsed_inactive hactive rfl rfl
          (by simp [lapsed]) (.inr hcause) rfl rfl)

lemma reclaim_moves {env : Env} {s : Leases} {session : String} {ifDead : Bool}
    {reason : Option String} {p : Leases × ClassifierLease}
    (h : reclaim env s session ifDead reason = .ok p) : ReflTransGen (Move env) s p.1 := by
  unfold reclaim at h
  split at h
  · cases h
  · rename_i active hactive
    split at h
    · cases h
    · obtain ⟨lease, -, h⟩ := bind_ok.mp h
      cases h
      exact .single (move_settle (taken session _) (fun _ => rfl) taken_inactive hactive rfl rfl
        (by simp [taken]) (.inl rfl) rfl rfl)

/-- **A call is at most two moves**: a lease is replaced by settling it and issuing another. -/
lemma moves_after (env : Env) (s : Leases) (c : Call) :
    ReflTransGen (Move env) s (after env s c) := by
  unfold after
  split
  · rename_i t res h
    cases c with
    | acquire session =>
      obtain ⟨p, hp, heq⟩ := map_ok.mp h
      cases heq
      exact acquire_moves hp
    | heartbeat leaseId session =>
      obtain ⟨p, hp, heq⟩ := map_ok.mp h
      cases heq
      exact heartbeat_moves hp
    | evaluateDeadness => exact evaluateDeadness_moves h
    | reclaim session ifDead reason =>
      obtain ⟨p, hp, heq⟩ := map_ok.mp h
      cases heq
      exact reclaim_moves hp
  · exact .refl

lemma keeps {I : Leases → Prop} {p : Env → Prop} (hI : ∀ env s t, p env → Move env s t → I s → I t)
    {s t : Leases} {ls : List (Env × Call)} (h : Path Step s ls t)
    (hp : ∀ l ∈ ls, p l.1) (hs : I s) :
    I t := by
  refine h.invariant_of_labels (p := fun l => p l.1) (fun s l t hl hstep hs => ?_) hp hs
  have hmoves := moves_after l.1 s l.2
  rw [← show t = after l.1 s l.2 from hstep] at hmoves
  clear hstep
  induction hmoves with
  | refl => exact hs
  | tail _ hmove ih => exact hI _ _ _ hl hmove ih

/-! ### What a run keeps -/

/-- The events tell how every lease stands. -/
def Told (s : Leases) : Prop :=
  ∀ id, standing s.events id = (s.getById id).map fun r => (r.classifierSession, r.state)

lemma told_empty : Told .empty := fun _ => rfl

lemma told_move (env : Env) (s t : Leases) (h : Move env s t) (hs : Told s) : Told t := by
  intro id
  cases h with
  | issue r vacant fresh active rows told =>
    rw [told, rows, Function.update_apply]
    split
    · simp [active]
    · exact hs id
  | extend r found active inTime rows told =>
    rw [told, rows, hs id]
    split
    · rename_i hid
      rw [hid, found]
      rfl
    · rfl
  | settle r r' found hid session acquired settled cause rows told =>
    have hr := (getActiveLease_eq_some found).1
    rw [told, rows, Function.update_apply]
    split
    · rw [hs r.leaseId, hr]
      simp [session]
    · exact hs id

/-- A lease keeps its holder and its start, and once settled it keeps everything. -/
structure Continues (r r' : ClassifierLease) : Prop where
  id : r'.leaseId = r.leaseId
  session : r'.classifierSession = r.classifierSession
  acquired : r'.acquiredAt = r.acquiredAt
  settled : r.state ≠ .active → r' = r

lemma Continues.refl (r : ClassifierLease) : Continues r r := ⟨rfl, rfl, rfl, fun _ => rfl⟩

lemma Continues.trans {r r' r'' : ClassifierLease} (h : Continues r r') (h' : Continues r' r'') :
    Continues r r'' where
  id := h'.id.trans h.id
  session := h'.session.trans h.session
  acquired := h'.acquired.trans h.acquired
  settled hr := by
    obtain rfl := h.settled hr
    exact h'.settled hr

/-- The lease stands in the table, as it was or further on. -/
def Stands (r : ClassifierLease) (s : Leases) : Prop :=
  ∃ r', s.getById r.leaseId = some r' ∧ Continues r r'

lemma move_row {env : Env} {s t : Leases} (h : Move env s t) {id : String} {r : ClassifierLease}
    (hr : s.getById id = some r) : ∃ r', t.getById id = some r' ∧ Continues r r' := by
  cases h with
  | issue a vacant fresh active rows told =>
    rw [rows]
    split
    · rename_i hid
      rw [hid, fresh] at hr
      cases hr
    · exact ⟨r, hr, .refl r⟩
  | extend a found active inTime rows told =>
    rw [rows]
    split
    · rename_i hid
      obtain rfl := Option.some.inj (found.symm.trans (hid ▸ hr))
      exact ⟨_, rfl, rfl, rfl, rfl, fun hne => absurd active hne⟩
    · exact ⟨r, hr, .refl r⟩
  | settle a a' found hid session acquired settled cause rows told =>
    obtain ⟨hfound, hactive⟩ := getActiveLease_eq_some found
    rw [rows]
    split
    · rename_i hid'
      obtain rfl := Option.some.inj (hfound.symm.trans (hid' ▸ hr))
      exact ⟨_, rfl, hid, session, acquired, fun hne => absurd hactive hne⟩
    · exact ⟨r, hr, .refl r⟩

lemma stands_move (r : ClassifierLease) (env : Env) (s t : Leases) (h : Move env s t)
    (hs : Stands r s) : Stands r t := by
  obtain ⟨r', hr', hc⟩ := hs
  obtain ⟨r'', hr'', hc'⟩ := move_row h hr'
  exact ⟨r'', hr'', hc.trans hc'⟩

/-- The lease was settled, or its time was over before `n`. -/
def Spent (n : Time) (id : String) (s : Leases) : Prop :=
  ∃ r, s.getById id = some r ∧ (r.state ≠ .active ∨ r.expiresAt < n)

lemma spent_move {n : Time} {id : String} (env : Env) (s t : Leases) (hn : ∀ k, n ≤ env.now k)
    (h : Move env s t) (hs : Spent n id s) : Spent n id t := by
  obtain ⟨r, hr, hspent⟩ := hs
  cases h with
  | issue a vacant fresh active rows told =>
    refine ⟨r, ?_, hspent⟩
    rw [rows, if_neg, hr]
    rintro rfl
    rw [fresh] at hr
    cases hr
  | extend a found active inTime rows told =>
    refine ⟨r, ?_, hspent⟩
    rw [rows, if_neg, hr]
    rintro rfl
    obtain rfl := Option.some.inj (found.symm.trans hr)
    -- An extension is for a lease that still has time.
    rcases hspent with hstate | htime
    · exact hstate active
    · exact absurd (hn 0) (not_le.mpr (lt_of_le_of_lt inTime htime))
  | settle a a' found hid session acquired settled cause rows told =>
    by_cases hid' : id = a.leaseId
    · exact ⟨a', by rw [rows, if_pos hid'], .inl settled⟩
    · exact ⟨r, by rw [rows, if_neg hid', hr], hspent⟩

lemma requireActiveHolder_ok {s : Leases} {now : Time} {session : String} {leaseId : Option String}
    {r : ClassifierLease} (h : requireActiveHolder s now session leaseId = .ok r) :
    s.getActiveLease = some r ∧ r.classifierSession = session ∧ now ≤ r.expiresAt ∧
      ∀ id ∈ leaseId, r.leaseId = id := by
  unfold requireActiveHolder at h
  split at h
  · cases h
  rename_i active hactive
  split at h
  · cases h
  rename_i hsession
  split at h
  · cases h
  rename_i htime
  split at h
  · cases h
    exact ⟨hactive, not_not.mp hsession, not_lt.mp htime, by simp⟩
  rename_i supplied
  split at h
  · cases h
  rename_i hid
  cases h
  exact ⟨hactive, not_not.mp hsession, not_lt.mp htime, by simpa using not_not.mp hid⟩

lemma Spent.refused {n : Time} {id : String} {s : Leases} (h : Spent n id s) {now : Time}
    (hn : n ≤ now) (session : String) (r : ClassifierLease) :
    requireActiveHolder s now session (some id) ≠ .ok r := by
  intro hok
  obtain ⟨hactive, -, htime, hid⟩ := requireActiveHolder_ok hok
  obtain ⟨hfound, hstate⟩ := getActiveLease_eq_some hactive
  obtain ⟨a, ha, hspent⟩ := h
  rw [hid id rfl, ha] at hfound
  cases hfound
  rcases hspent with hne | hlt
  · exact hne hstate
  · exact absurd (hn.trans htime) (not_le.mpr hlt)

lemma Spent.not_extended {n : Time} {id : String} {s : Leases} (h : Spent n id s) {env : Env}
    (hn : ∀ k, n ≤ env.now k) (session : String) (p : Leases × ClassifierLease) :
    heartbeat env s id session ≠ .ok p := by
  obtain ⟨r, hr, hspent⟩ := h
  intro hok
  unfold heartbeat at hok
  rw [hr] at hok
  dsimp only at hok
  split at hok
  · cases hok
  split at hok
  · cases hok
  rename_i hstate
  split at hok
  · cases hok
  rename_i htime
  rcases hspent with hne | hlt
  · exact hstate hne
  · exact htime (by simpa [isPastTtl] using lt_of_lt_of_le hlt (hn 0))

/-- The lease is active until `n` at least, or an operator took it. -/
def Secure (r : ClassifierLease) (n : Time) (s : Leases) : Prop :=
  ∃ r', s.getById r.leaseId = some r' ∧ r'.classifierSession = r.classifierSession ∧
    (r'.state = .active ∧ n ≤ r'.expiresAt ∨ r'.state = .reclaimed)

/-- The holder answers, and the clock stays within one lease time up to `n`. -/
structure Safe (r : ClassifierLease) (n : Time) (env : Env) : Prop where
  alive : env.isAlive r.classifierSession = true
  before : ∀ k, env.now k ≤ n
  within : ∀ k, n ≤ env.now k + env.ttlMs

lemma secure_move {r : ClassifierLease} {n : Time} (env : Env) (s t : Leases) (hsafe : Safe r n env)
    (h : Move env s t) (hs : Secure r n s) : Secure r n t := by
  obtain ⟨r', hr', hsession', hstate⟩ := hs
  cases h with
  | issue a vacant fresh active rows told =>
    refine ⟨r', ?_, hsession', hstate⟩
    rw [rows, if_neg, hr']
    intro hid
    rw [hid, fresh] at hr'
    cases hr'
  | extend a found active inTime rows told =>
    by_cases hid : r.leaseId = a.leaseId
    · obtain rfl := Option.some.inj (found.symm.trans (hid ▸ hr'))
      exact ⟨extended env a, by rw [rows, if_pos hid], hsession', .inl ⟨active, hsafe.within 1⟩⟩
    · exact ⟨r', by rw [rows, if_neg hid, hr'], hsession', hstate⟩
  | settle a a' found hid session acquired settled cause rows told =>
    by_cases hid' : r.leaseId = a.leaseId
    · obtain ⟨hfound, hactive⟩ := getActiveLease_eq_some found
      obtain rfl := Option.some.inj (hfound.symm.trans (hid' ▸ hr'))
      refine ⟨a', by rw [rows, if_pos hid'], session.trans hsession', .inr ?_⟩
      rcases cause with htaken | ⟨k, hlate⟩ | hdead
      · exact htaken
      · -- Its time cannot be over within the window.
        rcases hstate with ⟨-, htime⟩ | htaken
        · exact absurd (lt_of_le_of_lt htime hlate) (not_lt.mpr (hsafe.before k))
        · rw [hactive] at htaken
          cases htaken
      · rw [hsession', hsafe.alive] at hdead
        cases hdead
    · exact ⟨r', by rw [rows, if_neg hid', hr'], hsession', hstate⟩

/-- **One writer.** Over every run of lease calls, with any clock readings, liveness answers and
refusals: the persisted events tell the holder and state of every lease; no lease is lost, changes
holder, or changes at all once it is settled; a lease that was settled, or whose time was over,
never again lets a result through and is never extended, whatever its session acquired since; and
while its holder answers and one lease time has not passed, only an operator's reclaim ends a
lease. -/
theorem one_writer {before ls : List (Env × Call)} {s t : Leases}
    (h₀ : Path Step .empty before s) (h : Path Step s ls t) :
    Told t ∧
    (∀ id r, s.getById id = some r → ∃ r', t.getById id = some r' ∧ Continues r r') ∧
    (∀ n id r, s.getById id = some r → r.state ≠ .active ∨ r.expiresAt < n →
      (∀ l ∈ ls, ∀ k, n ≤ l.1.now k) →
      (∀ now session a, n ≤ now → requireActiveHolder t now session (some id) ≠ .ok a) ∧
      ∀ env session p, (∀ k, n ≤ env.now k) → heartbeat env t id session ≠ .ok p) ∧
    ∀ n r, s.getActiveLease = some r → n ≤ r.expiresAt → (∀ l ∈ ls, Safe r n l.1) →
      (∃ r', t.getById r.leaseId = some r' ∧ r'.state = .reclaimed) ∨
      ∀ now ≤ n, ∃ r',
        requireActiveHolder t now r.classifierSession (some r.leaseId) = .ok r' := by
  refine ⟨?_, fun id r hr => ?_, fun n id r hr hspent hn => ?_, fun n r hactive htime hsafe => ?_⟩
  · exact keeps (p := fun _ => True) (fun env s t _ => told_move env s t) (h₀.append h)
      (fun _ _ => trivial) told_empty
  · obtain rfl := Table.get?_key hr
    exact keeps (I := Stands r) (p := fun _ => True) (fun env s t _ => stands_move r env s t) h
      (fun _ _ => trivial) ⟨r, hr, .refl r⟩
  · have hspent := keeps (I := Spent n id) (p := fun env => ∀ k, n ≤ env.now k) spent_move h hn
      ⟨r, hr, hspent⟩
    exact ⟨fun now session a hnow => hspent.refused hnow session a,
      fun env session p henv => hspent.not_extended henv session p⟩
  · obtain ⟨hfound, hstate⟩ := getActiveLease_eq_some hactive
    obtain ⟨r', hr', hsession, hkept | htaken⟩ := keeps (I := Secure r n) (p := Safe r n)
      secure_move h hsafe ⟨r, hfound, rfl, .inl ⟨hstate, htime⟩⟩
    · refine .inr fun now hnow => ⟨r', ?_⟩
      obtain ⟨hstate', htime'⟩ := hkept
      have hid : r'.leaseId = r.leaseId := Table.get?_key hr'
      unfold requireActiveHolder
      rw [getActiveLease_of_active hr' hstate']
      simp [hsession, hid, hnow.trans htime']
    · exact .inl ⟨r', hr', htaken⟩

/-- A session that acquires again after its time is over has a new lease and nothing by the old. -/
theorem one_writer_replaced :
    ∃ t : Leases, t.getActiveLease.map (·.leaseId) = some "second" ∧
      ∀ now session a, 21 ≤ now → requireActiveHolder t now session (some "first") ≠ .ok a := by
  let first : Env := ⟨10, fun _ => 0, fun _ => true, "first"⟩
  let second : Env := ⟨10, fun _ => 21, fun _ => true, "second"⟩
  let s := after first .empty (.acquire "a@rig")
  let r : ClassifierLease := issued first 0 "a@rig"
  refine ⟨after second s (.acquire "a@rig"), by decide +kernel, ?_⟩
  have h₀ : Path Step .empty [(first, .acquire "a@rig")] s := .single rfl
  have h : Path Step s [(second, .acquire "a@rig")] (after second s (.acquire "a@rig")) :=
    .single rfl
  have hspent := (one_writer h₀ h).2.2.1 21 "first" r rfl (.inr (by decide)) (by simp [second])
  exact hspent.1

end OpenRig.ClassifierLeases
