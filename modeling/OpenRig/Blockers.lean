import OpenRig.Refinement

/-!
No dead-blocker parks.

A park names a live row when it is made, and every verb that closes a row moves the rows
parked on it in the same commit. A blocker spelled like a queue item that is a person's
address names no row, and is left out.
-/

namespace OpenRig.Blockers

open OpenRig.JsText OpenRig.Sessions OpenRig.Closure OpenRig.QueueDb OpenRig.Firing OpenRig.Runs
open OpenRig.Lifecycle OpenRig.RowEffects OpenRig.Propagation OpenRig.Refinement

/-- Every row parked on `b` is parked on an active row. -/
def ParkedOnActive (db : Db) (b : String) : Prop := ∀ k, parkedRow db k b → activeRow db b

/-- A row parked on a row that closed is parked on an active one, back with its owner, or closed
by the same firing. -/
def Released (db : Db) (op : Op) (db' : Db) (k : String) : Prop :=
  ∃ r, db'.getById k = some r ∧
    ((∃ s, r.state = .blocked ∧ r.blockedOn = some s ∧ activeRow db' s) ∨
      (r.state = .pending ∧ r.blockedOn = none) ∨
      (∃ a, op = .wakeAttempt a ∧ k ∈ resolvedTargets db a ∧ r.state = .done ∧ r.blockedOn = none))

/-- Every other row parked on a row that leaves the active states is released in the commit. -/
def ReleasesDependents (db : Db) (op : Op) (db' : Db) : Prop :=
  ∀ b k, activeRow db b → ¬ activeRow db' b → k ≠ b → parkedRow db k b → Released db op db' k

lemma releasesDependents {env : Env} {db db' : Db} {op : Op} (h : exec env db op = .ok db') :
    ReleasesDependents db op db' := by
  intro b k hb hdead hne hp
  have hb' : live (view db) b := live_view.mpr hb
  have hdead' : ¬ live (view db') b := fun hl => hdead (live_view.mp hl)
  obtain ⟨r, hr, hs, hbl⟩ := hp
  cases exec_outcome h with
  | still hv => exact absurd (hv ▸ hb') hdead'
  | one ho ht => exact absurd (one_live ho ht hb') hdead'
  | @closing c w ho hc =>
    have hcb : b = c.blocker := by
      by_contra hcb
      exact hdead' (hc.live_other hcb hb')
    subst hcb
    obtain ⟨o, -, hlive, hstep⟩ := hc.dependents k r hne hr hs hbl
    rw [view_of_getById hr] at hstep
    obtain ⟨l', hl', -, hend⟩ := hstep.dependent
    obtain ⟨r', hr', rfl⟩ := view_eq_some.mp hl'
    refine ⟨r', hr', ?_⟩
    rcases hend with ⟨s, ho, hs', hb''⟩ | ⟨-, hs', hb''⟩
    · exact .inl ⟨s, hs', hb'', live_view.mp (hlive s ho)⟩
    · exact .inr (.inl ⟨hs', hb''⟩)
  | sweep ho hw =>
    refine absurd ?_ hdead'
    rcases hw b with hv | ⟨-, hstep⟩
    · unfold live
      rw [hv]
      exact hb'
    · refine hstep.calm_live ?_ hb'
      cases ho <;> trivial
  | @firing a ho hf =>
    obtain ⟨ws, hws, hpath⟩ := hf.writes k
    have hclear := (hf.clears fun _ => True).cleared b trivial hb' hdead' k
    rw [view_of_getById hr] at hpath
    cases hws with
    | receipts hn =>
      obtain ⟨l', hl', hs', hb'', -⟩ := notes_keep hpath hn
      exact absurd ⟨l', hl', hs'.trans hs, hb''.trans hbl⟩ hclear
    | released =>
      obtain ⟨v, -, hlast⟩ := Path.append_iff.mp hpath
      have hstep := Path.single_iff.mp hlast
      generalize hv' : view db' k = v' at hstep
      cases hstep
      obtain ⟨r', hr', hl⟩ := view_eq_some.mp hv'
      exact ⟨r', hr', .inr (.inl ⟨congrArg Life.state hl, congrArg Life.blockedOn hl⟩)⟩
    | resolved _ hk hm =>
      obtain ⟨v, -, hlast⟩ := Path.append_iff.mp hpath
      have hstep := Path.single_iff.mp hlast
      generalize hv' : view db' k = v' at hstep
      cases hstep
      obtain ⟨r', hr', hl⟩ := view_eq_some.mp hv'
      refine ⟨r', hr', .inr (.inr ⟨a, ho, hk, (congrArg Life.state hl).trans hm.state, ?_⟩)⟩
      refine (congrArg Life.blockedOn hl).trans (if_neg ?_)
      simp [hm.state]

/-- **No dead-blocker parks**: in every reachable state, a row parked on a queue item id that was
no person's address in the run is parked on an active row; and every commit in which a row leaves
the active states releases the other rows parked on it. -/
theorem no_dead_blocker_parks {ls : List (Env × Op)} {db : Db} (h : Path commits Db.empty ls db) :
    (∀ b, startsWith b "qitem-" = true →
        (∀ l ∈ ls, isPersonAddress l.1.humanRegistry b = false) → ParkedOnActive db b) ∧
      ∀ l db', commits db l db' → ReleasesDependents db l.2 db' := by
  refine ⟨fun b hq hperson k hp => ?_, fun l db' hl => releasesDependents hl⟩
  have hinv : noDeadPark (view db) (· = b) := by
    refine h.invariant_of_labels (p := fun l => isPersonAddress l.1.humanRegistry b = false)
      (I := fun d => noDeadPark (view d) (· = b)) (fun d l d' hl hstep hI => ?_) hperson ?_
    · refine ((exec_clears hstep).mono ?_).noDeadPark hI
      rintro _ rfl
      exact ⟨hq, hl⟩
    · rintro k' _ - ⟨l, hl, -⟩
      cases hl
  exact live_view.mp (hinv k b rfl (parked_view.mpr hp))

def parkedOnAnother : List (Env × Op) :=
  [(plainEnv 0 0 "", .create
      { qitemId := some "qitem-a", sourceSession := "lead@rig", destinationSession := "dev@rig",
        body := "build" }),
   (plainEnv 0 0 "", .create
      { qitemId := some "qitem-b", sourceSession := "lead@rig", destinationSession := "qa@rig",
        body := "test" }),
   (plainEnv 1000 0 "", .update
      { qitemId := "qitem-b", actorSession := "qa@rig", state := some .blocked,
        blockedOn := some "qitem-a" })]

def closeOfAnother : Env × Op :=
  (plainEnv 2000 0 "", .update
    { qitemId := "qitem-a", actorSession := "dev@rig", state := some .done,
      closureReason := some "no-follow-on" })

theorem no_dead_blocker_parks_run : ∃ db db', Path commits Db.empty parkedOnAnother db ∧
    ParkedOnActive db "qitem-a" ∧ parkedRow db "qitem-b" "qitem-a" ∧
    commits db closeOfAnother db' ∧ ¬ activeRow db' "qitem-a" ∧
    Released db closeOfAnother.2 db' "qitem-b" := by
  obtain ⟨db, hrun, hp⟩ := exists_run Db.empty parkedOnAnother
    (fun db => ((db.getById "qitem-b").any fun r => r.state = .blocked &&
      r.blockedOn = some "qitem-a") && (exec closeOfAnother.1 db closeOfAnother.2).toOption.any
        fun db' => (db'.getById "qitem-a").any fun r => r.state = .done) (by decide)
  obtain ⟨hparked, hclose⟩ := (Bool.and_eq_true _ _).mp hp
  obtain ⟨r, hr, hs⟩ := (Option.any_eq_true _ _).mp hparked
  simp only [Bool.and_eq_true, decide_eq_true_eq] at hs
  obtain ⟨db', hcommit, hdone⟩ := exists_commit hclose
  obtain ⟨hactive, hreleases⟩ := no_dead_blocker_parks hrun
  have hparked : parkedRow db "qitem-b" "qitem-a" := ⟨r, hr, hs⟩
  have hdead : ¬ activeRow db' "qitem-a" := by
    rintro ⟨x, hx, hlive⟩
    rw [hx] at hdone
    have hdone : x.state = .done := by simpa using hdone
    rw [hdone] at hlive
    cases hlive
  have hlive := hactive "qitem-a" (by decide) (by decide)
  exact ⟨db, db', hrun, hlive, hparked, hcommit, hdead,
    hreleases _ _ hcommit "qitem-a" "qitem-b" (hlive _ hparked) hdead (by decide) hparked⟩

/-- A row is parked on an external person whose name begins like a queue item's. -/
def parkedOnPerson : List (Env × Op) :=
  [(plainEnv 0 0 "", .create
      { qitemId := some "qitem-a", sourceSession := "lead@rig", destinationSession := "dev@rig",
        body := "work" }),
   (plainEnv 1000 0 "", .update
      { qitemId := "qitem-a", actorSession := "dev@rig", state := some .blocked,
        blockedOn := some "qitem-x@external" })]

def parkedOnItself : List (Env × Op) :=
  [(plainEnv 0 0 "", .create
      { qitemId := some "qitem-a", sourceSession := "lead@rig", destinationSession := "dev@rig",
        body := "work" }),
   (plainEnv 1000 0 "", .update
      { qitemId := "qitem-a", actorSession := "dev@rig", state := some .blocked,
        blockedOn := some "qitem-a" })]

def closeOfItself : Env × Op :=
  (plainEnv 2000 0 "", .update
    { qitemId := "qitem-a", actorSession := "dev@rig", state := some .done,
      closureReason := some "no-follow-on" })

/-- Two provider-limit blockers wait for one timer, the second also on the first. -/
def limitsOnOneTimer : List (Env × Op) :=
  [(plainEnv 0 0 "", .create
      { qitemId := some "qitem-a", sourceSession := "lead@rig", destinationSession := "dev@rig",
        body := "limit", tags := some ["usage-limit-blocker"] }),
   (plainEnv 0 0 "", .create
      { qitemId := some "qitem-b", sourceSession := "lead@rig", destinationSession := "dev@rig",
        body := "limit", tags := some ["usage-limit-blocker"] }),
   (plainEnv 1000 0 "job", .update
      { qitemId := "qitem-a", actorSession := "dev@rig", state := some .blocked,
        blockedOn := some "external:limit", wakeAfterSeconds := some 60 }),
   (plainEnv 2000 0 "", .update
      { qitemId := "qitem-b", actorSession := "dev@rig", state := some .blocked,
        blockedOn := some "qitem-a", wakeWatchdogId := some "job" })]

def expiryOfBoth : Env × Op :=
  (plainEnv 70000 0 "", .wakeAttempt { jobId := "job", deliveryStatus := "ok" })

/-- Every row parked on a row that closed is re-parked on an active row or back with its owner. -/
def ReleasesEvery (db db' : Db) : Prop :=
  ∀ b k, activeRow db b → ¬ activeRow db' b → parkedRow db k b →
    ∃ r, db'.getById k = some r ∧
      ((∃ s, r.state = .blocked ∧ r.blockedOn = some s ∧ activeRow db' s) ∨
        (r.state = .pending ∧ r.blockedOn = none))

lemma not_releasesEvery {ls : List (Env × Op)} {l : Env × Op} {b k : String}
    (h : (runOps Db.empty ls).toOption.any (fun db =>
      ((db.getById b).any fun r => r.state.isBlockerLive) &&
        ((db.getById k).any fun r => r.state = .blocked && r.blockedOn = some b) &&
        (exec l.1 db l.2).toOption.any fun db' =>
          ((db'.getById b).any fun r => r.state = .done) &&
            (db'.getById k).any fun r => r.state = .done) = true) :
    ∃ db db', Path commits Db.empty ls db ∧ commits db l db' ∧ ¬ ReleasesEvery db db' := by
  obtain ⟨db, hrun, hp⟩ := exists_run Db.empty ls _ h
  simp only [Bool.and_eq_true] at hp
  obtain ⟨⟨hb, hk⟩, hexec⟩ := hp
  obtain ⟨rb, hrb, hlive⟩ := (Option.any_eq_true _ _).mp hb
  obtain ⟨rk, hrk, hpark⟩ := (Option.any_eq_true _ _).mp hk
  simp only [Bool.and_eq_true, decide_eq_true_eq] at hpark
  cases hl : exec l.1 db l.2 with
  | error e => simp [hl, Except.toOption] at hexec
  | ok db' =>
    rw [hl, Except.toOption, Option.any_some, Bool.and_eq_true] at hexec
    obtain ⟨rb', hrb', hdone⟩ := (Option.any_eq_true _ _).mp hexec.1
    obtain ⟨rk', hrk', hkdone⟩ := (Option.any_eq_true _ _).mp hexec.2
    simp only [decide_eq_true_eq] at hdone hkdone
    refine ⟨db, db', hrun, hl, fun hall => ?_⟩
    obtain ⟨r, hr, hend⟩ := hall b k ⟨rb, hrb, hlive⟩ (by
      rintro ⟨r, hr, hl⟩
      cases hrb'.symm.trans hr
      simp [hdone, QueueState.isBlockerLive] at hl) ⟨rk, hrk, hpark⟩
    cases hrk'.symm.trans hr
    rcases hend with ⟨_, hs, -⟩ | ⟨hs, -⟩ <;> simp [hkdone] at hs

/-- A park can name a person and no row; a row parked on itself closes with its park; and a firing
closes the provider-limit blocker parked on another it resolves. -/
theorem dead_blocker_park_cases :
    (∃ db, Path commits Db.empty parkedOnPerson db ∧
      startsWith "qitem-x@external" "qitem-" = true ∧ ¬ ParkedOnActive db "qitem-x@external") ∧
    (∃ db db', Path commits Db.empty parkedOnItself db ∧ commits db closeOfItself db' ∧
      ¬ ReleasesEvery db db') ∧
    ∃ db db', Path commits Db.empty limitsOnOneTimer db ∧ commits db expiryOfBoth db' ∧
      ¬ ReleasesEvery db db' := by
  refine ⟨?_, not_releasesEvery (b := "qitem-a") (k := "qitem-a") (by decide),
    not_releasesEvery (b := "qitem-a") (k := "qitem-b") (by decide)⟩
  obtain ⟨db, hrun, hp⟩ := exists_run Db.empty parkedOnPerson
    (fun db => (db.getById "qitem-a").any (fun r => r.state = .blocked &&
      r.blockedOn = some "qitem-x@external") && (db.getById "qitem-x@external").isNone) (by decide)
  rw [Bool.and_eq_true, Option.isNone_iff_eq_none] at hp
  obtain ⟨r, hr, hs⟩ := (Option.any_eq_true _ _).mp hp.1
  simp only [Bool.and_eq_true, decide_eq_true_eq] at hs
  refine ⟨db, hrun, by decide, fun h => ?_⟩
  obtain ⟨rb, hrb, -⟩ := h "qitem-a" ⟨r, hr, hs⟩
  cases hp.2.symm.trans hrb

end OpenRig.Blockers
