import OpenRig.Refinement

/-!
Workflow packets stay open.

The frontier guard is consulted by `update` alone, for done and handed-off. The handoff family
and the other closed states of `update` write the row without it, so they close the packet of a
live instance. What the workflow domain does between the queue's operations is left open.
-/

namespace OpenRig.Frontier

open OpenRig.JsText OpenRig.Closure OpenRig.QueueDb OpenRig.Verbs OpenRig.Handoff OpenRig.Update
open OpenRig.Firing OpenRig.Runs OpenRig.Lifecycle OpenRig.RowEffects OpenRig.Propagation
open OpenRig.Moves OpenRig.Refinement

/-- The row is a packet of an active or waiting instance. -/
def onLiveFrontier (db : Db) (q : String) : Prop :=
  ∃ i ∈ db.instances, i.status.isLive = true ∧ q ∈ i.currentFrontier

/-- Every open packet of a live instance is still open. -/
def KeepsFrontier (db db' : Db) : Prop :=
  ∀ q, onLiveFrontier db q → activeRow db q → activeRow db' q

/-- The operation is not the workflow domain's own close. -/
def byQueue (op : Op) : Prop := ∀ i, op = .update i → i.viaWorkflowVerb = false

/-- The operation neither hands off an open packet nor updates it to canceled, failed or denied. -/
def SparesFrontier (db : Db) (op : Op) : Prop :=
  ∀ q, onLiveFrontier db q → activeRow db q → handoffSource op ≠ some q ∧
    ∀ i s, op = .update i → i.qitemId = q → i.state = some s → s.isBlockerLive = false →
      s.isTerminalState = true

lemma guarded_of_onLiveFrontier {db : Db} {q : String} (h : onLiveFrontier db q) :
    workflowFrontierPredicate db q ≠ none := by
  obtain ⟨i, hi, hlive, hq⟩ := h
  exact Option.isSome_iff_ne_none.mp (workflowFrontierPredicate_isSome hi hlive hq)

lemma FiringWrites.live {db db' : Db} {targets ws : List _} {q : String}
    (h : FiringWrites db targets q ws) (hq : onLiveFrontier db q)
    (hpath : Path Step (view db q) ws (view db' q)) (hlive : activeRow db q) :
    activeRow db' q := by
  have hcalm : ∀ w ∈ ws, RowWrite.calm w := by
    intro w hw
    cases h with
    | receipts hn =>
      rw [hn w hw]
      trivial
    | released hn =>
      rcases List.mem_append.mp hw with h | h
      · rw [hn w h]
        trivial
      · rw [List.mem_singleton.mp h]
        trivial
    | resolved _ _ _ hf => exact absurd hf (guarded_of_onLiveFrontier hq)
  exact live_view.mp (hpath.invariant_of_labels (I := fun u : Option Life =>
    ∃ l, u = some l ∧ l.state.isBlockerLive = true)
    (fun _ _ _ hw hstep hu => hstep.calm_live hw hu) hcalm (live_view.mpr hlive))

lemma keepsFrontier_of_spares {env : Env} {db db' : Db} {op : Op} (h : exec env db op = .ok db')
    (hby : byQueue op) (hc : SparesFrontier db op) : KeepsFrontier db db' := by
  intro q hq hlive
  have hl : live (view db) q := live_view.mpr hlive
  cases exec_outcome h with
  | still hv => exact live_view.mp (hv ▸ hl)
  | one ho ht => exact live_view.mp (one_live ho ht hl)
  | @closing c w ho hclosed =>
    by_cases hne : q = c.blocker
    · subst hne
      obtain ⟨hsource, hupdate⟩ := hc _ hq hlive
      cases ho with
      | @update i qitem state plan _ hstate hplan _ hdead =>
        have hterm := hupdate i state rfl rfl hstate hdead
        exact absurd (hplan.frontier hterm (hby i rfl)) (guarded_of_onLiveFrontier hq)
      | _ => exact absurd rfl hsource
    · exact live_view.mp (hclosed.live_other hne hl)
  | sweep ho hw =>
    refine live_view.mp ?_
    rcases hw q with hv | ⟨-, hstep⟩
    · unfold live
      rw [hv]
      exact hl
    · refine hstep.calm_live ?_ hl
      cases ho <;> trivial
  | firing _ hf _ =>
    obtain ⟨ws, hws, hpath⟩ := hf.writes q
    exact FiringWrites.live hws hq hpath hlive

lemma spares_of_keepsFrontier {env : Env} {db db' : Db} {op : Op} (h : exec env db op = .ok db')
    (hk : KeepsFrontier db db') : SparesFrontier db op := by
  intro q hq hlive
  obtain ⟨r', hr', hlive'⟩ := hk q hq hlive
  have hv' := view_of_getById hr'
  obtain ⟨r, hr, hs⟩ := hlive
  refine ⟨fun hsource => ?_, ?_⟩
  · have hopen : r.state.isTerminalState = false := by
      by_contra hn
      simp [QueueState.not_live_of_terminal (by simpa using hn)] at hs
    obtain ⟨t, target, hterm, hstep⟩ := handoff_closes h hsource hr hopen
    rw [hv'] at hstep
    generalize hl : lifeOf r' (marks db' q) = l at hstep
    generalize view db q = u at hstep
    cases hstep
    have hst : r'.state = t := congrArg Life.state hl
    simp [hst, QueueState.not_live_of_terminal hterm] at hlive'
  · rintro i s rfl rfl hstate hdead
    cases update_eq_ok h with
    | append hr₁ hkeep =>
      cases hr.symm.trans hr₁
      rw [state_of_append hkeep hstate, hdead] at hs
      cases hs
    | move _ hstate' _ hlive =>
      cases hstate.symm.trans hstate'
      simp [hdead] at hlive
    | close _ hstate' hplan _ _ hclosed =>
      cases hstate.symm.trans hstate'
      have hstep : Step (view db i.qitemId) _ (view db' i.qitemId) := hclosed.source
      rw [hv'] at hstep
      generalize hl : lifeOf r' (marks db' i.qitemId) = l at hstep
      generalize view db i.qitemId = u at hstep
      cases hstep
      have hst : r'.state = s := (congrArg Life.state hl).trans hplan.state_eq
      simp [hst, hdead] at hlive'

/-! ### Interleavings with the workflow domain -/

/-- One step: a queue operation, or anything the workflow domain does. -/
inductive Act where
  | queue (l : Env × Op)
  | workflow

/-- A queue operation that is not the workflow domain's commits and satisfies `C`; the workflow
domain's own step may leave any tables. -/
def interleaved (C : Db → Op → Db → Prop) (db : Db) (a : Act) (db' : Db) : Prop :=
  match a with
  | .queue l => commits db l db' ∧ byQueue l.2 ∧ C db l.2 db'
  | .workflow => True

/-- **No queue verb strands a live workflow**, in exactly the runs that hand off no open packet
and update none to canceled, failed or denied: every queue operation of an interleaving keeps the
open packets of live instances open if and only if each one spares them. -/
theorem frontier_kept_iff (db₀ db : Db) (acts : List Act) :
    Path (interleaved fun d _ d' => KeepsFrontier d d') db₀ acts db ↔
      Path (interleaved fun d op _ => SparesFrontier d op) db₀ acts db := by
  constructor
  · refine fun h => h.mono fun d a d' hstep => ?_
    cases a with
    | queue l => exact ⟨hstep.1, hstep.2.1, spares_of_keepsFrontier hstep.1 hstep.2.2⟩
    | workflow => trivial
  · refine fun h => h.mono fun d a d' hstep => ?_
    cases a with
    | queue l => exact ⟨hstep.1, hstep.2.1, keepsFrontier_of_spares hstep.1 hstep.2.1 hstep.2.2⟩
    | workflow => trivial

/-- An instance whose one packet is the row. -/
def runningInstance : WorkflowInstance where
  instanceId := "wf-1"
  named := by decide
  workflowName := "review"
  status := .active
  currentFrontier := ["qitem-a"]
  plain := by decide

def packetCreate : Env × Op :=
  (plainEnv 0 0 "", .create
    { qitemId := some "qitem-a", sourceSession := "lead@rig", destinationSession := "dev@rig",
      body := "step one" })

/-- Its owner hands it off outside the workflow. -/
def packetHandoff : Env × Op :=
  (plainEnv 1000 0 "", .handoff
    { qitemId := "qitem-a", fromSession := "dev@rig", toSession := "qa@rig" })

/-- The workflow domain starts the instance. -/
def started (db : Db) : Db := { db with instances := [runningInstance] }

lemma onLiveFrontier_started (db : Db) : onLiveFrontier (started db) "qitem-a" :=
  ⟨runningInstance, by simp [started], rfl, by simp [runningInstance]⟩

/-- The handoff of a running workflow's packet is admitted and closes it. -/
theorem live_packet_is_handed_off : ∃ db db', Path (interleaved fun _ _ _ => True) Db.empty
      [.queue packetCreate, .workflow] db ∧ onLiveFrontier db "qitem-a" ∧
      activeRow db "qitem-a" ∧ commits db packetHandoff db' ∧ byQueue packetHandoff.2 ∧
      ¬ KeepsFrontier db db' := by
  obtain ⟨db, hrun, hp⟩ := exists_run Db.empty [packetCreate] (fun db =>
    ((started db).getById "qitem-a").any (fun r => r.state.isBlockerLive) &&
      (exec packetHandoff.1 (started db) packetHandoff.2).toOption.any fun _ => true) (by decide)
  simp only [Bool.and_eq_true] at hp
  obtain ⟨r, hr, hs⟩ := (Option.any_eq_true _ _).mp hp.1
  obtain ⟨db', hstep, -⟩ := exists_commit hp.2
  have hby : byQueue packetCreate.2 ∧ byQueue packetHandoff.2 :=
    ⟨fun _ h => Op.noConfusion h, fun _ h => Op.noConfusion h⟩
  have hfront := onLiveFrontier_started db
  have hcreate : interleaved (fun _ _ _ => True) Db.empty (.queue packetCreate) db :=
    ⟨Path.single_iff.mp hrun, hby.1, trivial⟩
  refine ⟨started db, db', .cons hcreate (.single trivial), hfront, ⟨r, hr, hs⟩, hstep, hby.2, ?_⟩
  intro hk
  exact (spares_of_keepsFrontier hstep hk _ hfront ⟨r, hr, hs⟩).1 rfl

end OpenRig.Frontier
