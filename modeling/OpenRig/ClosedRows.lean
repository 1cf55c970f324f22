import OpenRig.Refinement

/-!
Closed rows stay closed.

A row that is done, canceled or handed-off leaves its state through a deliberate reopen, or
through a handoff of a canceled row: `requireOpenSource` counts only done and handed-off as
terminal, where `update` guards canceled too.
-/

namespace OpenRig.ClosedRows

open OpenRig.JsText OpenRig.Closure OpenRig.QueueDb OpenRig.Verbs OpenRig.Handoff OpenRig.Update
open OpenRig.Firing OpenRig.Runs OpenRig.Lifecycle OpenRig.RowEffects OpenRig.Propagation
open OpenRig.Moves OpenRig.Refinement

/-- A guarded row that changed state was moved by an acknowledged reopen, logged as such. -/
def ReopensOnly (db : Db) (op : Op) (db' : Db) : Prop :=
  ∀ k r r', db.getById k = some r → db'.getById k = some r' →
    r.state.isGuardedTerminal = true → r'.state ≠ r.state →
    ∃ input text t, op = .update input ∧ input.qitemId = k ∧ input.reopen = true ∧
      input.transitionNote = some text ∧ isBlank text = false ∧
      input.state = some r'.state ∧ r'.state.isBlockerLive = true ∧
      (db'.historyOf k).head? = some t ∧ t.state = r'.state ∧
      t.transitionNote = some (reopenAcknowledged text)

/-- The operation is no handoff of a canceled row. -/
def SparesCanceled (db : Db) (op : Op) : Prop :=
  ∀ k r, handoffSource op = some k → db.getById k = some r → r.state ≠ .canceled

/-- An operation that moves a guarded row reopens it deliberately, unless it is the handoff of a
canceled row. -/
lemma reopened_of_moved {env : Env} {db db' : Db} {op : Op} (h : exec env db op = .ok db')
    {k : String} {r r' : QueueItem} (hr : db.getById k = some r) (hr' : db'.getById k = some r')
    (hg : r.state.isGuardedTerminal = true) (hne : r'.state ≠ r.state)
    (hc : handoffSource op = some k → r.state ≠ .canceled) :
    ∃ input text t, op = .update input ∧ input.qitemId = k ∧ input.reopen = true ∧
      input.transitionNote = some text ∧ isBlank text = false ∧
      input.state = some r'.state ∧ r'.state.isBlockerLive = true ∧
      (db'.historyOf k).head? = some t ∧ t.state = r'.state ∧
      t.transitionNote = some (reopenAcknowledged text) := by
  have hv := view_of_getById hr
  have hv' := view_of_getById hr'
  obtain ⟨ws, hws, hpath⟩ := exec_touches h k
  rw [hv, hv'] at hpath
  cases hws with
  | untouched =>
    have := congrArg (Option.map Life.state) (Path.nil_iff.mp hpath)
    exact absurd (Option.some.inj this).symm hne
  | @one w ho =>
    have hstep := Path.single_iff.mp hpath
    rcases hstep.guarded hg hne with ⟨m, rfl, hm⟩ | ⟨_, _, rfl, _⟩
    · cases ho with
      | @move i qitem state plan hq hstate hplan hlive =>
        cases hr.symm.trans hq
        have hst : r'.state = state := hm.target.trans hplan.state_eq
        have hreopen : isReopen r state = true := by
          simp [isReopen, hg, ← hst, hne]
        obtain ⟨text, htext, hblank, hnote⟩ := hplan.acknowledged hreopen
        obtain ⟨mark, hhead, hmark, hmnote⟩ := hm.logged
        have hhead : ((db'.historyOf i.qitemId).map markOf).head? = some mark := hhead
        rw [List.head?_map] at hhead
        obtain ⟨t, ht, rfl⟩ := Option.map_eq_some_iff.mp hhead
        exact ⟨i, text, t, rfl, rfl, hm.reopen, htext, hblank, hst ▸ hstate, hm.active, ht, hmark,
          hmnote.trans hnote⟩
    · cases ho
  | @closing c w _ ho hw =>
    cases hw with
    | untouched =>
      have := congrArg (Option.map Life.state) (Path.nil_iff.mp hpath)
      exact absurd (Option.some.inj this).symm hne
    | source =>
      have hstep := Path.single_iff.mp hpath
      rcases hstep.guarded hg hne with ⟨m, rfl, hm⟩ | ⟨t, target, rfl, hcanceled⟩
      · cases ho with
        | @update i qitem state plan _ _ hplan _ hdead =>
          have hst : r'.state = state := hm.target.trans hplan.state_eq
          have hlive : r'.state.isBlockerLive = true := hm.active
          simp [hst, hdead] at hlive
      · exact absurd hcanceled (hc (ho.handoffSource_eq rfl))
    | successor _ hk => cases hk.symm.trans hr
    | @dependent _ _ o _ hq hs _ _ =>
      cases hr.symm.trans hq
      simp [hs, QueueState.isGuardedTerminal] at hg
  | sweep ho hk =>
    obtain ⟨q, hq, hs⟩ := hk
    cases hr.symm.trans hq
    simp [hs, QueueState.isGuardedTerminal] at hg
  | firing ho hw =>
    have hord : ∀ w ∈ ws, w.ordinary := by
      intro w hmem
      cases hw with
      | receipts hw =>
        rw [hw w hmem]
        trivial
      | released hw =>
        rcases List.mem_append.mp hmem with h | h
        · rw [hw w h]
          trivial
        · rw [List.mem_singleton.mp h]
          trivial
      | resolved hw _ hm =>
        rcases List.mem_append.mp hmem with h | h
        · rcases hw w h with rfl | rfl <;> trivial
        · rw [List.mem_singleton.mp h]
          exact hm.reopen
    obtain ⟨l', hl', hst⟩ := guarded_of_ordinary hpath hord hg
    cases hl'
    exact absurd hst hne

lemma reopensOnly_of_spares {env : Env} {db db' : Db} {op : Op} (h : exec env db op = .ok db')
    (hc : SparesCanceled db op) : ReopensOnly db op db' :=
  fun k r _ hr hr' hg hne => reopened_of_moved h hr hr' hg hne fun hk => hc k r hk hr

lemma spares_of_reopensOnly {env : Env} {db db' : Db} {op : Op} (h : exec env db op = .ok db')
    (hr : ReopensOnly db op db') : SparesCanceled db op := by
  intro k r hk hq hcanceled
  obtain ⟨t, target, hterm, hstep⟩ := handoff_closes h hk hq
    (by simp [hcanceled, QueueState.isTerminalState])
  rw [view_of_getById hq] at hstep
  generalize hv' : view db' k = v' at hstep
  cases hstep with
  | close =>
    obtain ⟨r', hr', hl⟩ := view_eq_some.mp hv'
    have hst : r'.state = t := congrArg Life.state hl
    obtain ⟨input, _, _, rfl, -⟩ :=
      hr k r r' hq hr' (by simp [hcanceled, QueueState.isGuardedTerminal])
      (by
        rw [hst, hcanceled]
        rintro rfl
        simp [QueueState.isTerminalState] at hterm)
    cases hk

/-- **A closed row stays closed unless deliberately reopened**, in exactly the runs that hand off
no canceled row: every step of a run moves guarded rows by acknowledged reopens only if and only
if no step of it is a handoff of a canceled row. -/
theorem closed_rows_reopen_only_iff (db₀ db : Db) (ls : List (Env × Op)) :
    Path (fun d l d' => commits d l d' ∧ ReopensOnly d l.2 d') db₀ ls db ↔
      Path (commitsWhen fun _ d op => SparesCanceled d op) db₀ ls db := by
  constructor
  · exact fun h => h.mono fun _ _ _ ⟨hm, hr⟩ => ⟨hm, spares_of_reopensOnly hm hr⟩
  · exact fun h => h.mono fun _ _ _ ⟨hm, hc⟩ => ⟨hm, reopensOnly_of_spares hm hc⟩

def createdAndCanceled : List (Env × Op) :=
  [(plainEnv 0 0 "", .create
      { qitemId := some "qitem-a", sourceSession := "lead@rig", destinationSession := "dev@rig",
        body := "work" }),
   (plainEnv 1000 0 "", .update
      { qitemId := "qitem-a", actorSession := "lead@rig", state := some .canceled })]

/-- Its owner hands it off. -/
def handoffOfCanceled : Env × Op :=
  (plainEnv 2000 0 "", .handoff
    { qitemId := "qitem-a", fromSession := "dev@rig", toSession := "qa@rig" })

/-- The handoff of a canceled row is admitted, and reopens nothing. -/
theorem canceled_row_is_handed_off : ∃ db db', Path commits Db.empty createdAndCanceled db ∧
    commits db handoffOfCanceled db' ∧ ¬ ReopensOnly db handoffOfCanceled.2 db' := by
  obtain ⟨db, hrun, hp⟩ := exists_run Db.empty createdAndCanceled
    (fun db => (db.getById "qitem-a").any (fun r => r.state = .canceled) &&
      (exec handoffOfCanceled.1 db handoffOfCanceled.2).toOption.any fun _ => true) (by decide)
  simp only [Bool.and_eq_true] at hp
  obtain ⟨r, hr, hs⟩ := (Option.any_eq_true _ _).mp hp.1
  obtain ⟨db', hstep, -⟩ := exists_commit hp.2
  refine ⟨db, db', hrun, hstep, fun h => ?_⟩
  exact spares_of_reopensOnly hstep h "qitem-a" r rfl hr (by simpa using hs)

end OpenRig.ClosedRows
