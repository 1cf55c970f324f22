import OpenRig.CrossHost
import OpenRig.CreatedEvents

/-!
What cross-host handoffs keep of custody, whatever comes in between.

On each daemon a step is at most one operation of its queue. The target's row is there before the
source is closed, and rows outlive every operation, so a closed source always has its successor. A
refused or lost forward closes nothing.
-/

namespace OpenRig.Custody

open OpenRig.JsText OpenRig.Closure OpenRig.QueueDb OpenRig.Verbs OpenRig.Handoff OpenRig.Firing
open OpenRig.Runs OpenRig.Lifecycle OpenRig.RowEffects OpenRig.Propagation OpenRig.Refinement
open OpenRig.RowFrames OpenRig.CreatedEvents OpenRig.CrossHost

section
variable {δ : Type} [DecidableEq δ] {net : Net δ} {w w' : World δ} {l : Label δ}

/-! ### One step -/

/-- The operation a label runs on a daemon's tables. -/
inductive Acts (net : Net δ) (w : World δ) : Label δ → δ → Env → Op → Prop
  | verb {d : δ} {env : Env} {op : Op} (ho : isSourceClose op = false) :
    Acts net w (.verb d env op) d env op
  | receive {n : ℕ} {env : Env} {leg : Leg δ} (hleg : w.legs[n]? = some leg) :
    Acts net w (.receive n env) (leg.target net) env (.create leg.forward)
  | answer {n : ℕ} {env : Env} {leg : Leg δ} (hleg : w.legs[n]? = some leg)
      (hwait : leg.waiting = true) (hacc : leg.accepted = some true) :
    Acts net w (.answer n env) leg.origin env (.closeCrossHost leg.closeInput)

def Label.leg : Label δ → Option ℕ
  | .receive n _ | .lose n | .giveUp n | .answer n _ => some n
  | .verb .. | .arrive .. => none

/-- What a step does: it admits a request, it runs a verb, or it moves one leg on. -/
inductive Move (net : Net δ) (w : World δ) : Label δ → World δ → Prop
  | verb {d : δ} {env : Env} {op : Op} {db : Db} (ho : isSourceClose op = false)
      (h : exec env (w.tables d) op = .ok db) : Move net w (.verb d env op) (w.setTables d db)
  | arrive {d : δ} {r : HandoffRequest} {leg : Leg δ} (hr : r.isCrossHost net d (w.tables d) = true)
      (h : preflight net d (w.tables d) r = .ok leg) :
    Move net w (.arrive d r) { w with legs := w.legs ++ [leg] }
  | created {n : ℕ} {env : Env} {leg : Leg δ} {reply : CreateReply} {db : Db}
      (hleg : w.legs[n]? = some leg) (hnew : leg.accepted = none)
      (h : create env (w.tables (leg.target net)) leg.forward = .ok (reply, db)) :
    Move net w (.receive n env)
      ((w.setTables (leg.target net) db).setLeg n { leg with accepted := some true })
  | refused {n : ℕ} {env : Env} {leg : Leg δ} (hleg : w.legs[n]? = some leg)
      (hnew : leg.accepted = none) :
    Move net w (.receive n env) (w.setLeg n { leg with accepted := some false })
  | lost {n : ℕ} {leg : Leg δ} (hleg : w.legs[n]? = some leg) (hnew : leg.accepted = none) :
    Move net w (.lose n) (w.setLeg n { leg with accepted := some false })
  | givenUp {n : ℕ} {leg : Leg δ} (hleg : w.legs[n]? = some leg) :
    Move net w (.giveUp n) (w.setLeg n { leg with waiting := false })
  | closed {n : ℕ} {env : Env} {leg : Leg δ} {absorbed : Bool} {db : Db}
      (hleg : w.legs[n]? = some leg) (hwait : leg.waiting = true) (hacc : leg.accepted = some true)
      (h : closeCrossHostHandoffSource env (w.tables leg.origin) leg.closeInput
        = .ok (absorbed, db)) :
    Move net w (.answer n env) ((w.setTables leg.origin db).setLeg n { leg with waiting := false })
  | conflict {n : ℕ} {env : Env} {leg : Leg δ} {e : QueueRepositoryError}
      (hleg : w.legs[n]? = some leg) (hwait : leg.waiting = true) (hacc : leg.accepted = some true)
      (h : closeCrossHostHandoffSource env (w.tables leg.origin) leg.closeInput = .error e) :
    Move net w (.answer n env) (w.setLeg n { leg with waiting := false })

lemma toOption_eq_some {α : Type} {x : Result α} {a : α} : x.toOption = some a ↔ x = .ok a := by
  cases x <;> simp [Except.toOption]

/-- **What a label can do.** -/
theorem step_moves (h : CrossHost.Step net w l w') : Move net w l w' := by
  unfold CrossHost.Step at h
  cases l with
  | verb d env op =>
    simp only [perform] at h
    split at h
    · cases h
    · rename_i ho
      obtain ⟨db, hdb, rfl⟩ := Option.map_eq_some_iff.mp h
      exact .verb (by simpa using ho) (toOption_eq_some.mp hdb)
  | arrive d r =>
    simp only [perform] at h
    split at h
    · rename_i hr
      obtain ⟨leg, hleg, rfl⟩ := Option.map_eq_some_iff.mp h
      exact .arrive hr (toOption_eq_some.mp hleg)
    · cases h
  | receive n env =>
    simp only [perform] at h
    obtain ⟨leg, hleg, h⟩ := Option.map_eq_some_iff.mp h
    obtain ⟨hleg, hnew⟩ := Option.filter_eq_some_iff.mp hleg
    have hnew : leg.accepted = none := by simpa using hnew
    split at h
    · rename_i hc
      subst h
      exact .created hleg hnew hc
    · subst h
      exact .refused hleg hnew
  | lose n =>
    simp only [perform] at h
    obtain ⟨leg, hleg, rfl⟩ := Option.map_eq_some_iff.mp h
    obtain ⟨hleg, hnew⟩ := Option.filter_eq_some_iff.mp hleg
    exact .lost hleg (by simpa using hnew)
  | giveUp n =>
    simp only [perform] at h
    obtain ⟨leg, hleg, rfl⟩ := Option.map_eq_some_iff.mp h
    exact .givenUp hleg
  | answer n env =>
    simp only [perform] at h
    obtain ⟨leg, hleg, h⟩ := Option.map_eq_some_iff.mp h
    obtain ⟨hleg, hopen⟩ := Option.filter_eq_some_iff.mp hleg
    simp only [Bool.and_eq_true, decide_eq_true_eq] at hopen
    split at h
    · rename_i hc
      subst h
      exact .closed hleg hopen.1 hopen.2 hc
    · rename_i hc
      subst h
      exact .conflict hleg hopen.1 hopen.2 hc

lemma tables_setTables (w : World δ) (d d' : δ) (db : Db) :
    (w.setTables d db).tables d' = if d' = d then db else w.tables d' := by
  unfold World.setTables
  simp only [Function.update_apply]

omit [DecidableEq δ] in
@[simp] lemma tables_setLeg (w : World δ) (n : ℕ) (leg : Leg δ) :
    (w.setLeg n leg).tables = w.tables := rfl

/-- **A step is at most one operation on a daemon's tables.** -/
theorem step_tables (h : CrossHost.Step net w l w') (d : δ) :
    w'.tables d = w.tables d ∨
      ∃ env op, Acts net w l d env op ∧ exec env (w.tables d) op = .ok (w'.tables d) := by
  cases step_moves h with
  | @verb d' env op db ho hop =>
    rw [tables_setTables]
    split
    · rename_i hd
      subst hd
      exact .inr ⟨env, op, .verb ho, hop⟩
    · exact .inl rfl
  | arrive => exact .inl rfl
  | @created n env leg reply db hleg hnew hc =>
    rw [tables_setLeg, tables_setTables]
    split
    · rename_i hd
      subst hd
      exact .inr ⟨env, _, .receive hleg, by simp only [exec, hc]; rfl⟩
    · exact .inl rfl
  | refused => exact .inl rfl
  | lost => exact .inl rfl
  | givenUp => exact .inl rfl
  | @closed n env leg absorbed db hleg hwait hacc hc =>
    rw [tables_setLeg, tables_setTables]
    split
    · rename_i hd
      subst hd
      exact .inr ⟨env, _, .answer hleg hwait hacc, by simp only [exec, hc]; rfl⟩
    · exact .inl rfl
  | conflict => exact .inl rfl

lemma step_grows (h : CrossHost.Step net w l w') (d : δ) : Grows (w.tables d) (w'.tables d) := by
  rcases step_tables h d with hsame | ⟨env, op, -, hop⟩
  · rw [hsame]
    exact .refl _ _
  · exact exec_grows hop

/-- A leg before and after it moved on: what was asked, and what was sent for it, stays. -/
structure SameLeg (leg leg' : Leg δ) : Prop where
  origin : leg'.origin = leg.origin
  request : leg'.request = leg.request
  forward : leg'.forward = leg.forward
  closeTarget : leg'.closeTarget = leg.closeTarget
  accepted : leg.accepted = some true → leg'.accepted = some true
  waiting : leg'.waiting = true → leg.waiting = true

omit [DecidableEq δ] in
lemma setLeg_legs {n m : ℕ} {leg₁ leg' : Leg δ} (h : (w.setLeg m leg₁).legs[n]? = some leg') :
    (m = n ∧ leg' = leg₁) ∨ w.legs[n]? = some leg' := by
  unfold World.setLeg at h
  rw [List.getElem?_set] at h
  split at h
  · rename_i hmn
    split at h
    · cases h
      exact .inl ⟨hmn, rfl⟩
    · cases h
  · exact .inr h

/-- The target took the forward of the leg in this step. -/
def Received (net : Net δ) (w : World δ) (l : Label δ) (w' : World δ) (n : ℕ)
    (leg : Leg δ) : Prop :=
  ∃ env reply, l = .receive n env ∧
    create env (w.tables (leg.target net)) leg.forward = .ok (reply, w'.tables (leg.target net))

/-- **A leg after a step** is one of before, moved on, or the request that arrived. -/
lemma step_legs (h : CrossHost.Step net w l w') {leg' : Leg δ} {n : ℕ}
    (hleg' : w'.legs[n]? = some leg') :
    (∃ leg, w.legs[n]? = some leg ∧ SameLeg leg leg' ∧
        (leg'.accepted = some true → leg.accepted = some true ∨ Received net w l w' n leg)) ∨
      w.legs[n]? = none ∧
        ∃ d r, l = .arrive d r ∧ preflight net d (w.tables d) r = .ok leg' := by
  have hsame : w.legs[n]? = some leg' → ∃ leg, w.legs[n]? = some leg ∧ SameLeg leg leg' ∧
      (leg'.accepted = some true → leg.accepted = some true ∨ Received net w l w' n leg) :=
    fun hleg => ⟨leg', hleg, ⟨rfl, rfl, rfl, rfl, id, id⟩, .inl⟩
  cases step_moves h with
  | verb => exact .inl (hsame hleg')
  | @arrive d r leg hr hp =>
    rw [List.getElem?_append] at hleg'
    split at hleg'
    · exact .inl (hsame hleg')
    · rename_i hlen
      rw [List.getElem?_singleton] at hleg'
      split at hleg'
      · cases hleg'
        exact .inr ⟨List.getElem?_eq_none (by omega), d, r, rfl, hp⟩
      · cases hleg'
  | @created m env leg reply db hleg hnew hc =>
    rcases setLeg_legs hleg' with ⟨rfl, rfl⟩ | hleg'
    · refine .inl ⟨leg, hleg, ⟨rfl, rfl, rfl, rfl, fun _ => rfl, id⟩,
        fun _ => .inr ⟨env, reply, rfl, ?_⟩⟩
      rw [tables_setLeg, tables_setTables, if_pos rfl, hc]
    · exact .inl (hsame hleg')
  | @refused m env leg hleg hnew =>
    rcases setLeg_legs hleg' with ⟨rfl, rfl⟩ | hleg'
    · exact .inl ⟨leg, hleg, ⟨rfl, rfl, rfl, rfl, fun hacc => by simp [hnew] at hacc, id⟩,
        fun hacc => by simp at hacc⟩
    · exact .inl (hsame hleg')
  | @lost m leg hleg hnew =>
    rcases setLeg_legs hleg' with ⟨rfl, rfl⟩ | hleg'
    · exact .inl ⟨leg, hleg, ⟨rfl, rfl, rfl, rfl, fun hacc => by simp [hnew] at hacc, id⟩,
        fun hacc => by simp at hacc⟩
    · exact .inl (hsame hleg')
  | @givenUp m leg hleg =>
    rcases setLeg_legs hleg' with ⟨rfl, rfl⟩ | hleg'
    · exact .inl ⟨leg, hleg, ⟨rfl, rfl, rfl, rfl, id, fun h => by simp at h⟩, .inl⟩
    · exact .inl (hsame hleg')
  | @closed m env leg absorbed db hleg hwait hacc hc =>
    rcases setLeg_legs hleg' with ⟨rfl, rfl⟩ | hleg'
    · exact .inl ⟨leg, hleg, ⟨rfl, rfl, rfl, rfl, id, fun h => by simp at h⟩, .inl⟩
    · exact .inl (hsame hleg')
  | @conflict m env leg e hleg hwait hacc hc =>
    rcases setLeg_legs hleg' with ⟨rfl, rfl⟩ | hleg'
    · exact .inl ⟨leg, hleg, ⟨rfl, rfl, rfl, rfl, id, fun h => by simp at h⟩, .inl⟩
    · exact .inl (hsame hleg')

/-! ### What holds of every leg -/

omit [DecidableEq δ] in
lemma preflight_eq_ok {d : δ} {db : Db} {r : HandoffRequest} {leg : Leg δ}
    (h : preflight net d db r = .ok leg) :
    ∃ source, db.getById r.qitemId = some source ∧ leg.origin = d ∧ leg.request = r ∧
      leg.forward = r.forwardBody net d source ∧ leg.accepted = none ∧
      (source.state.isTerminalState = true → source.closureTarget = some leg.closeTarget) ∧
      (leg.closeTarget = r.closureTarget net ∨
        source.state.isTerminalState = true ∧ leg.closeTarget = r.legacyClosureTarget) := by
  unfold preflight at h
  obtain ⟨source, hsource, h⟩ := bind_eq_ok.mp h
  obtain ⟨u, hrefuse, h⟩ := bind_eq_ok.mp h
  have hopen := refuseIf_eq_ok.mp hrefuse
  cases pure_eq_ok.mp h
  refine ⟨source, requireItem_eq_ok.mp hsource, rfl, rfl, rfl, rfl, fun hterm => ?_, ?_⟩
  · replace hterm : (source.state = .done || source.state = .handedOff) = true := hterm
    rw [hterm] at hopen ⊢
    simpa using hopen
  · dsimp only
    split
    · rename_i hlegacy
      rw [Bool.and_eq_true] at hlegacy
      exact .inr ⟨hlegacy.1, rfl⟩
    · exact .inl rfl

/-- What stands behind a leg: its forward was built from the source's row, the source is there, and
so is the successor once the target has accepted it. -/
structure Grounded (net : Net δ) (w : World δ) (leg : Leg δ) : Prop where
  forward : ∃ source, source.qitemId = leg.request.qitemId ∧
    leg.forward = leg.request.forwardBody net leg.origin source
  source : ((w.tables leg.origin).getById leg.request.qitemId).isSome = true
  successor : leg.accepted = some true →
    ((w.tables (leg.target net)).getById (leg.request.successorId net)).isSome = true

omit [DecidableEq δ] in
lemma SameLeg.target {leg leg' : Leg δ} (h : SameLeg leg leg') :
    leg'.target net = leg.target net := by
  unfold Leg.target
  rw [h.origin, h.request]

def AllGrounded (net : Net δ) (w : World δ) : Prop :=
  ∀ (n : ℕ) (leg : Leg δ), w.legs[n]? = some leg → Grounded net w leg

lemma AllGrounded.step (hw : AllGrounded net w) (h : CrossHost.Step net w l w') :
    AllGrounded net w' := by
  intro n leg' hleg'
  rcases step_legs h hleg' with ⟨leg, hleg, hsame, hacc⟩ | ⟨-, d, r, rfl, hp⟩
  · have hg := hw n leg hleg
    refine ⟨?_, ?_, fun ha => ?_⟩
    · rw [hsame.request, hsame.forward, hsame.origin]
      exact hg.forward
    · rw [hsame.request, hsame.origin]
      exact (step_grows h _).isSome hg.source
    · rw [hsame.target, hsame.request]
      rcases hacc ha with ha | ⟨env, reply, -, hc⟩
      · exact (step_grows h _).isSome (hg.successor ha)
      · -- the create left its row, or found it there
        obtain ⟨source, -, hf⟩ := hg.forward
        have hid : leg.forward.id env = leg.request.successorId net := by
          rw [hf]
          rfl
        rcases create_inserted hc with ⟨row, _, -, heq, hrow, -⟩ | ⟨-, s, hs, hins⟩
        · rw [heq, ← hid, hrow]
          rfl
        · rw [← hid, ← hs.qitemId, hins.getById_self]
          rfl
  · obtain ⟨source, hr, ho, hreq, hf, hnew, -⟩ := preflight_eq_ok hp
    refine ⟨⟨source, ?_, ?_⟩, ?_, fun ha => ?_⟩
    · rw [hreq]
      exact Db.getById_id hr
    · rw [hf, hreq, ho]
    · rw [ho, hreq]
      refine (step_grows h d).isSome ?_
      rw [hr]
      rfl
    · rw [hnew] at ha
      cases ha

lemma run_grounded {ls : List (Label δ)} (h : Path (CrossHost.Step net) World.start ls w) :
    AllGrounded net w :=
  h.invariant (I := AllGrounded net) (fun _ _ _ hstep hI => hI.step hstep)
    fun n leg hleg => by simp [World.start] at hleg

/-! ### The source row -/

lemma source_unchanged (hw : AllGrounded net w) (h : CrossHost.Step net w l w') {n : ℕ}
    {leg : Leg δ} (hleg : w.legs[n]? = some leg) (hl : Label.leg l = some n)
    (hno : ∀ env, l = .answer n env → leg.accepted ≠ some true) :
    (w'.tables leg.origin).getById leg.request.qitemId =
      (w.tables leg.origin).getById leg.request.qitemId := by
  have hg := hw n leg hleg
  rcases step_tables h leg.origin with hsame | ⟨env, op, hacts, hop⟩
  · rw [hsame]
  · generalize ho : leg.origin = o at hacts hop hg ⊢
    cases hacts with
    | verb => cases hl
    | @receive m env leg₀ hleg₀ =>
      cases hl
      cases hleg.symm.trans hleg₀
      obtain ⟨reply, hc⟩ := map_snd_eq_ok hop
      rcases create_inserted hc with ⟨row, _, -, heq, -⟩ | ⟨-, s, -, hins⟩
      · rw [heq]
      · refine hins.getById_other fun he => ?_
        have hthere := hg.source
        rw [ho, he, hins.fresh] at hthere
        cases hthere
    | @answer m env leg₀ hleg₀ hwait hacc =>
      cases hl
      cases hleg.symm.trans hleg₀
      exact absurd hacc (hno _ rfl)

lemma terminal_unchanged (hw : AllGrounded net w) (h : CrossHost.Step net w l w') {n : ℕ}
    {leg : Leg δ} (hleg : w.legs[n]? = some leg) (hl : Label.leg l = some n) {source : QueueItem}
    (hr : (w.tables leg.origin).getById leg.request.qitemId = some source)
    (hterm : source.state.isTerminalState = true) :
    (w'.tables leg.origin).getById leg.request.qitemId = some source := by
  by_cases hno : ∀ env, l = .answer n env → leg.accepted ≠ some true
  · rw [source_unchanged hw h hleg hl hno, hr]
  · push Not at hno
    obtain ⟨env, rfl, -⟩ := hno
    cases step_moves h with
    | @closed _ _ leg₀ absorbed db hleg₀ hwait hacc hc =>
      cases hleg.symm.trans hleg₀
      obtain ⟨r, hr', ⟨-, rfl, -⟩ | ⟨-, hopen, -⟩⟩ := closeCrossHost_eq_ok hc
      · rw [tables_setLeg, tables_setTables, if_pos rfl, hr]
      · cases hr.symm.trans hr'
        rw [hterm] at hopen
        cases hopen
    | conflict => exact hr

lemma conflict_of_closed {env : Env} {db : Db} {input : CrossHostCloseInput} {source : QueueItem}
    (hr : db.getById input.qitemId = some source) (hterm : source.state.isTerminalState = true)
    (hne : source.closureTarget ≠ some input.closureTarget) :
    ∃ e, closeCrossHostHandoffSource env db input = .error e ∧
      e.code = .crossHostCloseConflict := by
  unfold closeCrossHostHandoffSource
  rw [requireItem_eq_ok.mpr hr]
  simp only [bind, Except.bind, hterm, if_true, hne, if_false]
  exact ⟨_, rfl, rfl⟩

omit [DecidableEq δ] in
lemma refused_of_closed {d : δ} {db : Db} {r : HandoffRequest} {source : QueueItem}
    (hr : db.getById r.qitemId = some source) (hterm : source.state.isTerminalState = true)
    (hne : source.closureTarget ≠ some (r.closureTarget net))
    (hold : source.closureTarget ≠ some r.legacyClosureTarget) :
    ∃ e, preflight net d db r = .error e ∧ e.code = .crossHostCloseConflict := by
  unfold preflight
  rw [requireItem_eq_ok.mpr hr]
  replace hterm : (source.state = .done || source.state = .handedOff) = true := hterm
  simp only [bind, Except.bind, hterm, hold, decide_false, Bool.and_false, hne, ne_eq,
    not_false_eq_true, decide_true, Bool.and_self, refuseIf, if_true, Bool.false_eq_true, if_false]
  exact ⟨_, rfl, rfl⟩

end

/-! ### The chain of record -/

section
variable {env : Env} {db db' : Db} {op : Op} {x : String}

/-- A chain that ends with the source, but for what reroutes to a fallback added behind it. -/
def Bears (source : String) (chain : List String) : Prop :=
  ∃ before reroutes, chain = before ++ source :: reroutes ∧
    ∀ e ∈ reroutes, startsWith e "fallback-from:" = true

lemma Bears.last (before : List String) (source : String) : Bears source (before ++ [source]) :=
  ⟨before, [], rfl, fun _ h => (List.not_mem_nil h).elim⟩

lemma Bears.append {source : String} {chain lines : List String} (h : Bears source chain)
    (hlines : ∀ e ∈ lines, startsWith e "fallback-from:" = true) :
    Bears source (chain ++ lines) := by
  obtain ⟨before, reroutes, rfl, hall⟩ := h
  refine ⟨before, reroutes ++ lines, by simp, fun e he => ?_⟩
  rcases List.mem_append.mp he with he | he
  · exact hall e he
  · exact hlines e he

/-- A reroute is the only write that extends a chain. -/
def reroutes : RowWrite → Bool
  | .reroute _ => true
  | _ => false

lemma chain_of_path {l : Life} {v : Option Life} {ws : List RowWrite}
    (h : Path Lifecycle.Step (some l) ws v) (hno : ∀ w ∈ ws, reroutes w = false) :
    ∃ l', v = some l' ∧ l'.chain = l.chain := by
  refine h.invariant_of_labels (I := fun v => ∃ l', v = some l' ∧ l'.chain = l.chain)
    (p := fun w => reroutes w = false) ?_ hno ⟨l, rfl, rfl⟩
  rintro _ w v' hw hstep ⟨l₁, rfl, h₁⟩
  cases hstep with
  | reroute => cases hw
  | claim | release | note | close | move | rebind | unpark => exact ⟨_, rfl, h₁⟩

lemma Touches.no_reroute {k : String} {ws : List RowWrite} (h : Touches env db op k ws)
    (hop : ∀ input, op ≠ .routeToFallback input) : ∀ w ∈ ws, reroutes w = false := by
  intro w hw
  cases h with
  | untouched => cases hw
  | one ho =>
    cases List.mem_singleton.mp hw
    cases ho with
    | routeToFallback => exact absurd rfl (hop _)
    | create | claim | unclaim | note | move => rfl
  | closing ho hws =>
    cases hws with
    | untouched => cases hw
    | source =>
      cases List.mem_singleton.mp hw
      cases ho <;> rfl
    | successor =>
      cases List.mem_singleton.mp hw
      rfl
    | @dependent _ _ o =>
      cases List.mem_singleton.mp hw
      cases o <;> rfl
  | sweep ho =>
    cases List.mem_singleton.mp hw
    cases ho <;> rfl
  | firing ho hf =>
    cases hf with
    | receipts hn =>
      cases hn w hw
      rfl
    | released hn =>
      rcases List.mem_append.mp hw with hw | hw
      · cases hn w hw
        rfl
      · cases List.mem_singleton.mp hw
        rfl
    | resolved hn =>
      rcases List.mem_append.mp hw with hw | hw
      · rcases hn w hw with rfl | rfl <;> rfl
      · cases List.mem_singleton.mp hw
        rfl

/-- **An operation extends a row's chain** by reroute lines only. -/
lemma exec_chain (h : exec env db op = .ok db') {r : QueueItem} (hr : db.getById x = some r) :
    ∃ r' lines, db'.getById x = some r' ∧
      r'.chainOfRecord.getD [] = r.chainOfRecord.getD [] ++ lines ∧
      ∀ e ∈ lines, startsWith e "fallback-from:" = true := by
  have hplain : ∀ {l' : Life}, view db' x = some l' → l'.chain = r.chainOfRecord.getD [] →
      ∃ r' lines, db'.getById x = some r' ∧
        r'.chainOfRecord.getD [] = r.chainOfRecord.getD [] ++ lines ∧
        ∀ e ∈ lines, startsWith e "fallback-from:" = true := by
    intro l' hl' hchain
    obtain ⟨r', hr', rfl⟩ := view_eq_some.mp hl'
    exact ⟨r', [], hr', by simpa [lifeOf] using hchain, fun _ he => (List.not_mem_nil he).elim⟩
  by_cases hop : ∃ input, op = .routeToFallback input
  · obtain ⟨input, rfl⟩ := hop
    obtain ⟨seat, ht⟩ := routeToFallback_touched h
    by_cases hx : x = input.qitemId
    · subst hx
      have hstep := ht.1
      rw [view_of_getById hr] at hstep
      generalize hv : view db' input.qitemId = v at hstep
      cases hstep with
      | reroute =>
        obtain ⟨r', hr', hlife⟩ := view_eq_some.mp hv
        refine ⟨r', ["fallback-from:" ++ seat], hr', congrArg Life.chain hlife, ?_⟩
        intro e he
        cases List.mem_singleton.mp he
        unfold startsWith
        rw [String.toList_append]
        exact List.isPrefixOf_iff_prefix.mpr (List.prefix_append _ _)
    · exact hplain ((ht.2 x hx).trans (view_of_getById hr)) rfl
  · push Not at hop
    obtain ⟨ws, hws, hpath⟩ := exec_touches h x
    rw [view_of_getById hr] at hpath
    obtain ⟨l', hl', hchain⟩ := chain_of_path hpath (Touches.no_reroute hws hop)
    exact hplain hl' hchain

lemma Bears.exec {source : String} {r r' : QueueItem} (h : exec env db op = .ok db')
    (hr : db.getById x = some r) (hb : Bears source (r.chainOfRecord.getD []))
    (hr' : db'.getById x = some r') : Bears source (r'.chainOfRecord.getD []) := by
  obtain ⟨r₁, lines, hr₁, hchain, hlines⟩ := exec_chain h hr
  cases hr'.symm.trans hr₁
  rw [hchain]
  exact hb.append hlines

/-! ### The rows an operation inserts -/

lemma handoffWith_new {variant : HandoffVariant} {input : QueueHandoffInput} {row : QueueItem}
    (h : handoffWith variant env db input = .ok db') (hfresh : db.getById x = none)
    (hrow : db'.getById x = some row) : x = newQitemId env := by
  obtain ⟨source, note, s, db₂, db₃, e, hr, -, hins, hid, -, -, hprop, rfl⟩ := handoffWith_eq_ok h
  by_contra hne
  have hclosed : Edits (fun k => k = input.qitemId) db (closeSource env db variant.terminalState
      input.qitemId input.fromSession input.toSession input.toSession note input.identityProvenance
      input.identityPrincipal) :=
    .of_map (closeSource_rows ..) (fun _ => rfl) (fun _ => rfl) rfl
  have hx : x ≠ input.qitemId := by
    rintro rfl
    rw [hr] at hfresh
    cases hfresh
  have hnone : db₂.getById x = none := by
    rw [hins.getById_other fun he => hne (he.trans hid), hclosed.others x hx, hfresh]
  have hstill := (propagate_edits hprop).others x fun ⟨r, hr, _⟩ => by
    rw [hnone] at hr
    cases hr
  rw [Db.getById_emit, hstill, hnone] at hrow
  cases hrow

lemma none_of_path {v : Option Life} {ws : List RowWrite} (h : Path Lifecycle.Step none ws v)
    (hno : ∀ w ∈ ws, ∀ chain, w ≠ .insert chain) : v = none := by
  refine h.invariant_of_labels (I := fun v => v = none)
    (p := fun w => ∀ chain, w ≠ .insert chain) ?_ hno rfl
  rintro _ w v' hw hstep rfl
  cases hstep
  exact absurd rfl (hw _)

lemma Touches.no_insert {k : String} {ws : List RowWrite} (h : Touches env db op k ws)
    (hcreate : ∀ input, op ≠ .create input) (hhandoff : ∀ input, op ≠ .handoff input)
    (hcomplete : ∀ input, op ≠ .handoffAndComplete input) :
    ∀ w ∈ ws, ∀ chain, w ≠ .insert chain := by
  rintro w hw chain rfl
  cases h with
  | untouched => cases hw
  | one ho =>
    cases List.mem_singleton.mp hw
    cases ho
    exact hcreate _ rfl
  | closing ho hws =>
    cases ho with
    | handoff => exact hhandoff _ rfl
    | handoffAndComplete => exact hcomplete _ rfl
    | closeCrossHost | update =>
      cases hws with
      | untouched => cases hw
      | source => cases List.mem_singleton.mp hw
      | successor hc => cases hc
      | @dependent _ _ o =>
        cases o <;> cases List.mem_singleton.mp hw
  | sweep ho =>
    cases List.mem_singleton.mp hw
    cases ho
  | firing ho hf =>
    cases hf with
    | receipts hn => cases hn _ hw
    | released hn =>
      rcases List.mem_append.mp hw with hw | hw
      · cases hn _ hw
      · cases List.mem_singleton.mp hw
    | resolved hn =>
      rcases List.mem_append.mp hw with hw | hw
      · rcases hn _ hw with h | h <;> cases h
      · cases List.mem_singleton.mp hw

/-- **A new row** is a create's own, or stands under an id that was minted. -/
lemma exec_new (h : exec env db op = .ok db') (hfresh : db.getById x = none) {row : QueueItem}
    (hrow : db'.getById x = some row) : x = newQitemId env ∨
      ∃ input, op = .create input ∧ input.id env = x ∧ row.chainOfRecord = input.chainOfRecord := by
  by_cases hhandoff : (∃ input, op = .handoff input) ∨ ∃ input, op = .handoffAndComplete input
  · rcases hhandoff with ⟨input, rfl⟩ | ⟨input, rfl⟩
    · exact .inl (handoffWith_new h hfresh hrow)
    · exact .inl (handoffWith_new h hfresh hrow)
  by_cases hcreate : ∃ input, op = .create input
  · obtain ⟨input, rfl⟩ := hcreate
    obtain ⟨reply, hc⟩ := map_snd_eq_ok h
    rcases create_inserted hc with ⟨_, _, -, rfl, -⟩ | ⟨-, s, hs, hins⟩
    · rw [hfresh] at hrow
      cases hrow
    · by_cases hx : x = s.qitemId
      · subst hx
        cases hrow.symm.trans hins.getById_self
        exact .inr ⟨input, rfl, hs.qitemId.symm, hs.chainOfRecord⟩
      · rw [hins.getById_other hx, hfresh] at hrow
        cases hrow
  · push Not at hhandoff hcreate
    obtain ⟨ws, hws, hpath⟩ := exec_touches h x
    rw [view_eq_none.mpr hfresh] at hpath
    have := none_of_path hpath (Touches.no_insert hws hcreate hhandoff.1 hhandoff.2)
    rw [view_eq_none.mp this] at hrow
    cases hrow

end

/-! ### The successor -/

section
variable {δ : Type} [DecidableEq δ] {net : Net δ} {w w' : World δ} {l : Label δ}

/-- A label gives an id to something else than the successor of a source: a create whose caller
names the id itself, or a handoff of another source whose digest is the same. -/
def Takes (net : Net δ) (x source : String) : Label δ → Prop
  | .verb _ _ (.create input) => input.qitemId = some x
  | .arrive _ r => r.successorId net = x ∧ r.qitemId ≠ source
  | _ => False

/-- Whatever stands under an id, or is sent to stand there, bears the source in its chain. -/
structure Successive (net : Net δ) (x source : String) (w : World δ) : Prop where
  rows : ∀ d row, (w.tables d).getById x = some row → Bears source (row.chainOfRecord.getD [])
  legs : ∀ (n : ℕ) (leg : Leg δ), w.legs[n]? = some leg → leg.forward.qitemId = some x →
    Bears source (leg.forward.chainOfRecord.getD [])

lemma Successive.step {digest source : String}
    (hw : Successive net ("qitem-xh-" ++ digest) source w) (h : CrossHost.Step net w l w')
    (hl : ¬ Takes net ("qitem-xh-" ++ digest) source l) :
    Successive net ("qitem-xh-" ++ digest) source w' := by
  refine ⟨fun d row hrow => ?_, fun n leg' hleg' hid => ?_⟩
  · rcases step_tables h d with hsame | ⟨env, op, hacts, hop⟩
    · exact hw.rows d row (hsame ▸ hrow)
    cases hold : (w.tables d).getById ("qitem-xh-" ++ digest) with
    | some r => exact Bears.exec hop hold (hw.rows d r hold) hrow
    | none =>
      -- a row is new under this id only as the successor a forward creates
      rcases exec_new hop hold hrow with hminted | ⟨input, rfl, hx, hchain⟩
      · exact absurd hminted.symm (newQitemId_ne_crossHost env digest)
      · have hnamed : input.qitemId = some ("qitem-xh-" ++ digest) := by
          unfold QueueCreateInput.id at hx
          cases hq : input.qitemId with
          | none =>
            rw [hq] at hx
            exact absurd hx (newQitemId_ne_crossHost env digest)
          | some q =>
            rw [hq] at hx
            exact congrArg some hx
        rw [hchain]
        cases hacts with
        | verb => exact absurd hnamed hl
        | receive hleg => exact hw.legs _ _ hleg hnamed
  · rcases step_legs h hleg' with ⟨leg, hleg, hsame, -⟩ | ⟨-, d, r, rfl, hp⟩
    · rw [hsame.forward] at hid ⊢
      exact hw.legs n leg hleg hid
    · obtain ⟨source', hr, -, -, hf, -⟩ := preflight_eq_ok hp
      rw [hf] at hid ⊢
      have hsource : r.qitemId = source := by
        by_contra hne
        exact hl ⟨Option.some.inj hid, hne⟩
      have hq := Db.getById_id hr
      rw [← hsource, ← hq]
      exact Bears.last _ _

/-- **The successor a leg finds** bears its source, unless its id was taken for something else. -/
lemma run_bears {ls : List (Label δ)} (h : Path (CrossHost.Step net) World.start ls w) {d : δ}
    {r : HandoffRequest} {row : QueueItem}
    (hrow : (w.tables d).getById (r.successorId net) = some row)
    (hno : ∀ l ∈ ls, ¬ Takes net (r.successorId net) r.qitemId l) :
    Bears r.qitemId (row.chainOfRecord.getD []) := by
  have hw : Successive net (r.successorId net) r.qitemId w :=
    h.invariant_of_labels (I := Successive net (r.successorId net) r.qitemId)
      (p := fun l => ¬ Takes net (r.successorId net) r.qitemId l)
      (fun _ _ _ hl hstep hI => hI.step hstep hl) hno
      ⟨fun d row hrow =>
        by simp [World.start, Db.empty, Db.getById, Table.empty, Table.get?] at hrow,
        fun n leg hleg => by simp [World.start] at hleg⟩
  exact hw.rows d row hrow

/-! ### Custody -/

/-- What the handoffs of a run keep. -/
structure CustodyKept (net : Net δ) (ls : List (Label δ)) (w : World δ) : Prop where
  /-- A request changes its source's row only in the close that follows an accepted forward. -/
  untouched : ∀ (n : ℕ) (leg : Leg δ) (l : Label δ) (w' : World δ), w.legs[n]? = some leg →
    Label.leg l = some n → CrossHost.Step net w l w' →
    (w'.tables leg.origin).getById leg.request.qitemId =
        (w.tables leg.origin).getById leg.request.qitemId ∨
      ∃ env, l = .answer n env ∧ leg.waiting = true ∧ leg.accepted = some true
  /-- A source that is closed has its successor on the target, with the source last in its chain but
  for reroutes, unless something else was given the successor's id. -/
  successor : ∀ (n : ℕ) (env : Env) (leg : Leg δ) (w' : World δ), w.legs[n]? = some leg →
    Closes w n env → CrossHost.Step net w (.answer n env) w' →
    ∃ row, (w'.tables (leg.target net)).getById (leg.request.successorId net) = some row ∧
      (Bears leg.request.qitemId (row.chainOfRecord.getD []) ∨
        ∃ l ∈ ls, Takes net (leg.request.successorId net) leg.request.qitemId l)
  /-- A daemon holds one row under an id, and announced it once. -/
  single : ∀ (d : δ) (x : String), (createdIds (w.tables d)).count x ≤ 1 ∧
    ((w.tables d).items.filter fun r => r.qitemId = x).length ≤ 1
  /-- A closed source refuses a request that names neither of the keys it may be closed toward. -/
  refused : ∀ (d : δ) (r : HandoffRequest) (source : QueueItem),
    (w.tables d).getById r.qitemId = some source → source.state.isTerminalState = true →
    source.closureTarget ≠ some (r.closureTarget net) →
    source.closureTarget ≠ some r.legacyClosureTarget →
    (∃ e, preflight net d (w.tables d) r = .error e ∧ e.code = .crossHostCloseConflict) ∧
      ∀ w', ¬ CrossHost.Step net w (.arrive d r) w'
  /-- A request that was under way when its source was closed is refused the close, when that close
  was toward something else, and changes nothing of the source in any case. -/
  overtaken : ∀ (n : ℕ) (leg : Leg δ) (source : QueueItem), w.legs[n]? = some leg →
    (w.tables leg.origin).getById leg.request.qitemId = some source →
    source.state.isTerminalState = true →
    (source.closureTarget ≠ some leg.closeTarget → ∀ env, ∃ e,
      closeCrossHostHandoffSource env (w.tables leg.origin) leg.closeInput = .error e ∧
        e.code = .crossHostCloseConflict) ∧
    ∀ (l : Label δ) (w' : World δ), Label.leg l = some n → CrossHost.Step net w l w' →
      (w'.tables leg.origin).getById leg.request.qitemId = some source

lemma successor_there (hw : AllGrounded net w) {n : ℕ} {env : Env} {leg : Leg δ}
    (hleg : w.legs[n]? = some leg) (h : CrossHost.Step net w (.answer n env) w') :
    ∃ row, (w'.tables (leg.target net)).getById (leg.request.successorId net) = some row := by
  have hacc : leg.accepted = some true := by
    cases step_moves h with
    | closed hleg₀ _ hacc =>
      cases hleg.symm.trans hleg₀
      exact hacc
    | conflict hleg₀ _ hacc =>
      cases hleg.symm.trans hleg₀
      exact hacc
  exact Option.isSome_iff_exists.mp ((step_grows h _).isSome ((hw n leg hleg).successor hacc))

lemma table_single (db : Db) (x : String) :
    (db.items.filter fun r => r.qitemId = x).length ≤ 1 := by
  have hnodup : ((db.items.filter fun r => r.qitemId = x).map QueueItem.qitemId).Nodup :=
    db.items.nodup.sublist (List.filter_sublist.map _)
  have hall : ∀ r ∈ db.items.filter fun r => r.qitemId = x, r.qitemId = x := by
    intro r hr
    simpa using (List.mem_filter.mp hr).2
  match hrows : db.items.filter fun r => r.qitemId = x, hnodup, hall with
  | [], _, _ => exact Nat.zero_le 1
  | [_], _, _ => exact Nat.le_refl 1
  | a :: b :: rest, hnodup, hall =>
    have ha := hall a (by simp)
    have hb := hall b (by simp)
    simp [ha, hb] at hnodup

/-- **Cross-host handoffs keep custody**: a forward that fails leaves the source alone, a closed
source has its one successor, and a closed source stays closed toward it. -/
theorem custody_kept {ls : List (Label δ)} (h : Path (CrossHost.Step net) World.start ls w) :
    CustodyKept net ls w := by
  have hw := run_grounded h
  have honce : ∀ d, AnnouncedOnce (w.tables d) := by
    refine h.invariant (I := fun w => ∀ d, AnnouncedOnce (w.tables d)) ?_ fun _ => .empty
    intro w l w' hstep hI d
    rcases step_tables hstep d with hsame | ⟨env, op, -, hop⟩
    · rw [hsame]
      exact hI d
    · exact (hI d).step hop
  refine ⟨fun n leg l w' hleg hl hstep => ?_, fun n env leg w' hleg _ hstep => ?_,
    fun d x => ⟨List.nodup_iff_count_le_one.mp (honce d).nodup x, table_single _ x⟩,
    fun d r source hr hterm hne hold => ?_, fun n leg source hleg hr hterm => ⟨?_, ?_⟩⟩
  · by_cases hno : ∃ env, l = .answer n env
    · obtain ⟨env, rfl⟩ := hno
      refine .inr ⟨env, rfl, ?_⟩
      cases step_moves hstep with
      | closed hleg₀ hwait hacc | conflict hleg₀ hwait hacc =>
        cases hleg.symm.trans hleg₀
        exact ⟨hwait, hacc⟩
    · exact .inl (source_unchanged hw hstep hleg hl fun env he => absurd ⟨env, he⟩ hno)
  · obtain ⟨row, hrow⟩ := successor_there hw hleg hstep
    refine ⟨row, hrow, ?_⟩
    by_cases hno : ∃ l ∈ ls, Takes net (leg.request.successorId net) leg.request.qitemId l
    · exact .inr hno
    · push Not at hno
      refine .inl (run_bears (h.snoc hstep) hrow fun l hl => ?_)
      rcases List.mem_append.mp hl with hl | hl
      · exact hno l hl
      · cases List.mem_singleton.mp hl
        exact id
  · obtain ⟨e, he, hcode⟩ := refused_of_closed (d := d) hr hterm hne hold
    refine ⟨⟨e, he, hcode⟩, fun w' hstep => ?_⟩
    cases step_moves hstep with
    | arrive _ hp =>
      rw [he] at hp
      cases hp
  · exact fun hne env => conflict_of_closed hr hterm hne
  · exact fun l w' hl hstep => terminal_unchanged hw hstep hleg hl hr hterm

lemma exists_close (net : Net δ) (ls : List (Label δ)) (n : ℕ) (env : Env)
    (p : Leg δ → World δ → Bool)
    (h : ((ls.foldlM (perform net) World.start).any fun w => w.legs[n]?.any fun leg =>
      (closeCrossHostHandoffSource env (w.tables leg.origin) leg.closeInput).toOption.any
          (fun c => !c.1) &&
        (perform net w (.answer n env)).any (p leg)) = true) :
    ∃ w leg w', Path (CrossHost.Step net) World.start ls w ∧ w.legs[n]? = some leg ∧
      Closes w n env ∧ CrossHost.Step net w (.answer n env) w' ∧ p leg w' = true := by
  obtain ⟨w, hw, h⟩ := (Option.any_eq_true _ _).mp h
  obtain ⟨leg, hleg, h⟩ := (Option.any_eq_true _ _).mp h
  rw [Bool.and_eq_true] at h
  obtain ⟨⟨absorbed, db⟩, hc, habs⟩ := (Option.any_eq_true _ _).mp h.1
  obtain ⟨w', hw', hp⟩ := (Option.any_eq_true _ _).mp h.2
  cases absorbed with
  | true => cases habs
  | false =>
    exact ⟨w, leg, w', path_iff_foldlM.mpr hw, hleg,
      ⟨leg, db, hleg, toOption_eq_some.mp hc⟩, hw', hp⟩

end

/-- Two daemons: `true` is the host that `false` calls `vps`. -/
def twoHosts : Net Bool where
  digest _ _ _ := "0acba4cbb8c7c088"
  resolveHost _ _ := true
  selfHostId _ := none
  osHostname _ := "mac"

/-- The row `q1` is created on the origin. -/
def sourceCreated : Label Bool :=
  .verb false (plainEnv 0 0 "") (.create
    { qitemId := some "q1", sourceSession := "lead@lab", destinationSession := "dev@lab",
      body := "work" })

/-- Its owner hands it to `dev@farm` on `vps`. -/
def handoffToVps : HandoffRequest where
  qitemId := "q1"
  hostId := "vps"
  terminalState := .handedOff
  fromSession := "dev@lab"
  toSession := "dev@farm"

def forwarded : List (Label Bool) :=
  [sourceCreated, .arrive false handoffToVps, .receive 0 (plainEnv 1000 0 "")]

/-- The origin closes its source after the accepted forward. -/
theorem custody_kept_forwarded : ∃ w w' : World Bool,
    CustodyKept twoHosts forwarded w ∧ Closes w 0 (plainEnv 2000 0 "") ∧
      CrossHost.Step twoHosts w (.answer 0 (plainEnv 2000 0 "")) w' := by
  obtain ⟨w, leg, w', hrun, -, hcloses, hstep, -⟩ := exists_close twoHosts forwarded 0
    (plainEnv 2000 0 "") (fun _ _ => true) (by decide +kernel)
  exact ⟨w, w', custody_kept hrun, hcloses, hstep⟩

/-- The target's pod takes its new row to a fallback seat before the origin hears of it. -/
def reroutedBeforeClose : List (Label Bool) :=
  forwarded ++ [.verb true (plainEnv 1500 0 "") (.routeToFallback
    { qitemId := handoffToVps.successorId twoHosts, fallbackDestination := "ops@farm",
      reason := "seat gone" })]

/-- A create on the target names the id the successor will have. -/
def namedBeforeForward : List (Label Bool) :=
  .verb true (plainEnv 500 0 "") (.create
    { qitemId := some (handoffToVps.successorId twoHosts), sourceSession := "dev@lab",
      destinationSession := "dev@farm", body := "other" }) :: forwarded

/-- A close finds its successor with a reroute behind the source in its chain, and, where the id was
taken by name, with no source in its chain. -/
theorem chain_need_not_end_with_source :
    (¬ ∀ (ls : List (Label Bool)) (w : World Bool) (n : ℕ) (env : Env) (leg : Leg Bool)
        (w' : World Bool), Path (CrossHost.Step twoHosts) World.start ls w →
        w.legs[n]? = some leg → Closes w n env → CrossHost.Step twoHosts w (.answer n env) w' →
        ∃ row, (w'.tables (leg.target twoHosts)).getById (leg.request.successorId twoHosts)
            = some row ∧
          (row.chainOfRecord.getD []).getLast? = some leg.request.qitemId) ∧
      ¬ ∀ (ls : List (Label Bool)) (w : World Bool) (n : ℕ) (env : Env) (leg : Leg Bool)
        (w' : World Bool), Path (CrossHost.Step twoHosts) World.start ls w →
        w.legs[n]? = some leg → Closes w n env → CrossHost.Step twoHosts w (.answer n env) w' →
        ∃ row, (w'.tables (leg.target twoHosts)).getById (leg.request.successorId twoHosts)
            = some row ∧
          leg.request.qitemId ∈ row.chainOfRecord.getD [] := by
  refine ⟨fun hclaim => ?_, fun hclaim => ?_⟩
  · obtain ⟨w, leg, w', hrun, hleg, hcloses, hstep, hp⟩ := exists_close twoHosts
      reroutedBeforeClose 0 (plainEnv 2000 0 "") (fun leg w' =>
        ((w'.tables (leg.target twoHosts)).getById (leg.request.successorId twoHosts)).all
          fun row => (row.chainOfRecord.getD []).getLast? ≠ some leg.request.qitemId)
      (by decide +kernel)
    obtain ⟨row, hrow, hlast⟩ := hclaim _ w 0 _ leg w' hrun hleg hcloses hstep
    rw [hrow] at hp
    exact absurd hlast (by simpa using hp)
  · obtain ⟨w, leg, w', hrun, hleg, hcloses, hstep, hp⟩ := exists_close twoHosts
      namedBeforeForward 0 (plainEnv 2000 0 "") (fun leg w' =>
        ((w'.tables (leg.target twoHosts)).getById (leg.request.successorId twoHosts)).all
          fun row => !(row.chainOfRecord.getD []).contains leg.request.qitemId) (by decide +kernel)
    obtain ⟨row, hrow, hmem⟩ := hclaim _ w 0 _ leg w' hrun hleg hcloses hstep
    rw [hrow] at hp
    exact absurd hmem (by simpa using hp)

end OpenRig.Custody
