import OpenRig.Refinement

/-!
`blocked_on` on parked rows only.

`claim`, `update` and the propagation clear the blocker of a row that leaves its park. The
handoff family does not: `closeRow` writes the terminal state and keeps `blocked_on`.
-/

namespace OpenRig.ParkedRows

open OpenRig.Closure OpenRig.QueueDb OpenRig.Firing OpenRig.Runs OpenRig.Lifecycle
open OpenRig.RowEffects OpenRig.Propagation OpenRig.Refinement

/-- Only a parked row names a blocker. -/
def BlockedOnlyParked (db : Db) : Prop :=
  ∀ k r, db.getById k = some r → r.blockedOn ≠ none → r.state = .blocked

/-- The operation hands off no row that names a blocker. -/
def HandsOffUnblocked (db : Db) (op : Op) : Prop :=
  ∀ k r, handoffSource op = some k → db.getById k = some r → r.blockedOn = none

lemma blockedOnlyParked_view {db : Db} :
    BlockedOnlyParked db ↔ ∀ k l, view db k = some l → l.blockedWhileParked := by
  constructor
  · intro h k l hl
    obtain ⟨r, hr, rfl⟩ := view_eq_some.mp hl
    exact h k r hr
  · intro h k r hr
    exact h k _ (view_of_getById hr)

lemma blockedOnlyParked_of_handsOff {env : Env} {db db' : Db} {op : Op}
    (h : exec env db op = .ok db') (hi : BlockedOnlyParked db) (hc : HandsOffUnblocked db op) :
    BlockedOnlyParked db' := by
  rw [blockedOnlyParked_view] at hi ⊢
  intro k
  obtain ⟨ws, hws, hpath⟩ := exec_touches h k
  by_cases hclose : ∃ t target, RowWrite.close t target ∈ ws
  · obtain ⟨t, target, hmem⟩ := hclose
    obtain ⟨hk, rfl⟩ := hws.close_mem hmem
    refine (Path.single_iff.mp hpath).blockedWhileParked (hi k) fun _ _ l _ hl => ?_
    obtain ⟨r, hr, rfl⟩ := view_eq_some.mp hl
    exact hc k r hk hr
  · refine hpath.invariant_of_labels (p := fun w => ∀ t target, w ≠ .close t target)
      (I := fun v => ∀ l, v = some l → l.blockedWhileParked) ?_ ?_ (hi k)
    · exact fun _ _ _ hw hstep hI => hstep.blockedWhileParked hI fun t target _ e =>
        (hw t target e).elim
    · exact fun w hw t target e => hclose ⟨t, target, e ▸ hw⟩

lemma handsOff_of_blockedOnlyParked {env : Env} {db db' : Db} {op : Op}
    (h : exec env db op = .ok db') (hi : BlockedOnlyParked db) (hi' : BlockedOnlyParked db') :
    HandsOffUnblocked db op := by
  intro k r hk hr
  by_contra hb
  have hs := hi k r hr hb
  obtain ⟨t, target, hterm, hstep⟩ := handoff_closes h hk hr
    (by simp [hs, QueueState.isTerminalState])
  rw [view_of_getById hr] at hstep
  generalize hv' : view db' k = v' at hstep
  cases hstep
  have hbad := blockedOnlyParked_view.mp hi' k _ hv' hb
  have hbad : t = .blocked := hbad
  simp [hbad, QueueState.isTerminalState] at hterm

/-- **`blocked_on` is set on parked rows only**, in exactly the runs that hand off no row that
names a blocker. -/
theorem blocked_on_only_parked_iff (ls : List (Env × Op)) (db : Db) :
    Path (fun d l d' => commits d l d' ∧ BlockedOnlyParked d') Db.empty ls db ↔
      Path (commitsWhen fun _ d op => HandsOffUnblocked d op) Db.empty ls db := by
  refine Path.guarded_iff (J := fun _ => True)
    (C := fun d (l : Env × Op) => HandsOffUnblocked d l.2) (fun _ _ _ _ _ => trivial)
    (fun d l d' hm _ hi => ?_) trivial ?_
  · exact ⟨blockedOnlyParked_of_handsOff hm hi, handsOff_of_blockedOnlyParked hm hi⟩
  · intro k r hr
    cases hr

/-- A row is created, parked on a gate, and handed off from its park. -/
def parkedThenHandedOff : List (Env × Op) :=
  [(plainEnv 0 0 "", .create
      { qitemId := some "qitem-a", sourceSession := "lead@rig", destinationSession := "dev@rig",
        body := "work" }),
   (plainEnv 1000 0 "", .update
      { qitemId := "qitem-a", actorSession := "dev@rig", state := some .blocked,
        blockedOn := some "fold:gate" }),
   (plainEnv 2000 0 "", .handoff
      { qitemId := "qitem-a", fromSession := "dev@rig", toSession := "qa@rig" })]

/-- A handed-off row can still name its old gate. -/
theorem handed_off_row_names_its_gate :
    ∃ db, Path commits Db.empty parkedThenHandedOff db ∧ ¬ BlockedOnlyParked db := by
  obtain ⟨db, hrun, hp⟩ := exists_run Db.empty parkedThenHandedOff
    (fun db => (db.getById "qitem-a").any fun r => r.blockedOn = some "fold:gate" &&
      r.state = .handedOff) (by decide)
  obtain ⟨r, hr, hs⟩ := (Option.any_eq_true _ _).mp hp
  simp only [Bool.and_eq_true, decide_eq_true_eq] at hs
  refine ⟨db, hrun, fun h => ?_⟩
  have := h "qitem-a" r hr (by simp [hs.1])
  simp [hs.2] at this

end OpenRig.ParkedRows
