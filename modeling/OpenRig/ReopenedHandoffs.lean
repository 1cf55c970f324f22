import OpenRig.Custody
import OpenRig.ClosedRows

/-!
Handoffs of a reopened source.

The successor's id depends on the source, the seat and the host alone. A source that is reopened and
handed off again to the same seat and host therefore gets the successor of its earlier handoff back
from the target, whatever has become of it there.
-/

namespace OpenRig.ReopenedHandoffs

open OpenRig.Closure OpenRig.QueueDb OpenRig.Verbs OpenRig.Handoff OpenRig.Update OpenRig.Firing
open OpenRig.Runs OpenRig.RowEffects OpenRig.Propagation OpenRig.Refinement OpenRig.RowFrames
open OpenRig.ClosedRows OpenRig.CrossHost OpenRig.Custody

section
variable {δ : Type} [DecidableEq δ] {net : Net δ} {w w' : World δ} {l : Label δ}

/-- The row exists and is closed toward a successor. -/
def closedRow (db : Db) (q : String) : Prop :=
  ∃ r, db.getById q = some r ∧ r.state.isTerminalState = true

/-- The successor a forward would absorb is active, if the source is open; and a source is reopened
while an accepted forward of it is awaited only if the successor is active. -/
def KeepsWork (net : Net δ) (w : World δ) : Label δ → Prop
  | .receive n _ => ∀ leg row, w.legs[n]? = some leg →
    (w.tables (leg.target net)).getById (leg.request.successorId net) = some row →
    row.destinationSession = leg.forward.destinationSession →
    row.sourceSession = leg.forward.sourceSession →
    ¬ closedRow (w.tables leg.origin) leg.request.qitemId → row.state.isBlockerLive = true
  | .verb d _ (.update input) => ∀ (n : ℕ) (leg : Leg δ), w.legs[n]? = some leg → leg.origin = d →
    leg.request.qitemId = input.qitemId → leg.waiting = true → leg.accepted = some true →
    input.reopen = true → closedRow (w.tables d) input.qitemId →
    activeRow (w.tables (leg.target net)) (leg.request.successorId net)
  | _ => True

/-- After the target took the forward of a leg, one of its operations closed the row. -/
def ClosedSince (net : Net δ) (ls : List (Label δ)) (w : World δ) (n : ℕ) (d : δ)
    (x : String) : Prop :=
  ∃ taken env mid l after u u' v v', ls = taken ++ .receive n env :: (mid ++ l :: after) ∧
    Path (CrossHost.Step net) World.start taken u ∧ CrossHost.Step net u (.receive n env) u' ∧
    Path (CrossHost.Step net) u' mid v ∧ CrossHost.Step net v l v' ∧
    Path (CrossHost.Step net) v' after w ∧
    activeRow (v.tables d) x ∧ ¬ activeRow (v'.tables d) x ∧
    ∃ env op, Acts net v l d env op

/-! ### Legs through a run -/

lemma leg_persists {leg : Leg δ} {n : ℕ} (hleg : w.legs[n]? = some leg)
    (h : CrossHost.Step net w l w') : ∃ leg', w'.legs[n]? = some leg' ∧ SameLeg leg leg' := by
  have hlen : w.legs.length ≤ w'.legs.length := by
    cases step_moves h <;> simp [World.setLeg, World.setTables]
  have hn := (List.getElem?_eq_some_iff.mp hleg).1
  obtain ⟨leg', hleg'⟩ : ∃ leg', w'.legs[n]? = some leg' :=
    ⟨_, List.getElem?_eq_getElem (lt_of_lt_of_le hn hlen)⟩
  rcases step_legs h hleg' with ⟨leg₀, hleg₀, hsame, -⟩ | ⟨hnone, -⟩
  · cases hleg.symm.trans hleg₀
    exact ⟨leg', hleg', hsame⟩
  · rw [hleg] at hnone
    cases hnone

omit [DecidableEq δ] in
lemma SameLeg.trans {leg leg₁ leg₂ : Leg δ} (h : SameLeg leg leg₁) (h' : SameLeg leg₁ leg₂) :
    SameLeg leg leg₂ where
  origin := h'.origin.trans h.origin
  request := h'.request.trans h.request
  forward := h'.forward.trans h.forward
  closeTarget := h'.closeTarget.trans h.closeTarget
  accepted := fun ha => h'.accepted (h.accepted ha)
  waiting := fun hw => h.waiting (h'.waiting hw)

lemma leg_outlives {leg : Leg δ} {n : ℕ} {ls : List (Label δ)} (hleg : w.legs[n]? = some leg)
    (h : Path (CrossHost.Step net) w ls w') : ∃ leg',
    w'.legs[n]? = some leg' ∧ SameLeg leg leg' := by
  refine h.invariant (I := fun v => ∃ leg', v.legs[n]? = some leg' ∧ SameLeg leg leg') ?_
    ⟨leg, hleg, ⟨rfl, rfl, rfl, rfl, id, id⟩⟩
  rintro u l u' hstep ⟨leg₁, hleg₁, hsame⟩
  obtain ⟨leg₂, hleg₂, hsame'⟩ := leg_persists hleg₁ hstep
  exact ⟨leg₂, hleg₂, SameLeg.trans hsame hsame'⟩

/-- **An accepted leg was received**, in some step of the run. -/
lemma accepted_received {S : World δ → Label δ → World δ → Prop}
    (hS : ∀ w l w', S w l w' → CrossHost.Step net w l w') {ls : List (Label δ)}
    (h : Path S World.start ls w) {n : ℕ} {leg : Leg δ} (hleg : w.legs[n]? = some leg)
    (hacc : leg.accepted = some true) :
    ∃ taken l after u u' leg₀ leg₁, ls = taken ++ l :: after ∧ Path S World.start taken u ∧
      S u l u' ∧ Path S u' after w ∧ u.legs[n]? = some leg₀ ∧ Received net u l u' n leg₀ ∧
      u'.legs[n]? = some leg₁ ∧ leg₁.accepted = some true ∧ SameLeg leg₀ leg₁ := by
  have hstart : ¬ ∃ leg,
    (World.start : World δ).legs[n]? = some leg ∧ leg.accepted = some true := by
    rintro ⟨leg, hleg, -⟩
    simp [World.start] at hleg
  rcases h.lost (P := fun w => ¬ ∃ leg,
    w.legs[n]? = some leg ∧ leg.accepted = some true) hstart with
    hnone | ⟨taken, l, after, u, u', rfl, ht, hl, ha, hu, hu'⟩
  · exact absurd ⟨leg, hleg, hacc⟩ hnone
  · obtain ⟨leg', hleg', hacc'⟩ := not_not.mp hu'
    rcases step_legs (hS _ _ _ hl) hleg' with ⟨leg₀, hleg₀, hsame, hrec⟩ | ⟨-, d, r, -, hp⟩
    · rcases hrec hacc' with hold | hrec
      · exact absurd ⟨leg₀, hleg₀, hold⟩ hu
      · exact ⟨taken, l, after, u, u', leg₀, leg', rfl, ht, hl, ha, hleg₀, hrec,
          hleg', hacc', hsame⟩
    · obtain ⟨_, -, -, -, -, hnew, -⟩ := preflight_eq_ok hp
      rw [hnew] at hacc'
      cases hacc'

/-! ### What a received forward leaves -/

lemma received_active {n : ℕ} {leg : Leg δ} (hw : AllGrounded net w) (hleg : w.legs[n]? = some leg)
    (hstep : CrossHost.Step net w l w') (h : Received net w l w' n leg)
    (hkeeps : KeepsWork net w l) :
    activeRow (w'.tables (leg.target net)) (leg.request.successorId net) ∨
      closedRow (w'.tables leg.origin) leg.request.qitemId := by
  obtain ⟨env, reply, rfl, hc⟩ := h
  obtain ⟨source, -, hf⟩ := (hw n leg hleg).forward
  have hid : leg.forward.id env = leg.request.successorId net := by
    rw [hf]
    rfl
  by_cases hclosed : closedRow (w.tables leg.origin) leg.request.qitemId
  · obtain ⟨r, hr, hterm⟩ := hclosed
    exact .inr ⟨r, terminal_unchanged hw hstep hleg rfl hr hterm, hterm⟩
  · left
    rcases create_inserted hc with ⟨row, _, -, heq, hrow, hdest, hsource⟩ | ⟨-, s, hs, hins⟩
    · rw [hid] at hrow
      exact ⟨row, by rw [heq, hrow], hkeeps leg row hleg hrow hdest hsource hclosed⟩
    · refine ⟨s, ?_, ?_⟩
      · rw [← hid, ← hs.qitemId]
        exact hins.getById_self
      · rw [hins.state]
        rfl

/-- From a state after its acceptance in which it is active, a row is active to the end of the run,
or the target closed it since. -/
lemma active_or_closed {taken mid rest : List (Label δ)} {n : ℕ} {env : Env} {d : δ} {x : String}
    {u u' v : World δ} (htaken : Path (CrossHost.Step net) World.start taken u)
    (hreceive : CrossHost.Step net u (.receive n env) u')
    (hmid : Path (CrossHost.Step net) u' mid v)
    (hrest : Path (CrossHost.Step net) v rest w) (hactive : activeRow (v.tables d) x) :
    activeRow (w.tables d) x ∨
      ClosedSince net (taken ++ .receive n env :: (mid ++ rest)) w n d x := by
  rcases hrest.lost (P := fun w => activeRow (w.tables d) x) hactive with
    hstill | ⟨before, l, after, t, t', rfl, hbefore, hl, hafter, ht, ht'⟩
  · exact .inl hstill
  · refine .inr ⟨taken, env, mid ++ before, l, after, u, u', t, t',
      by rw [List.append_assoc], htaken,
      hreceive, hmid.append hbefore, hl, hafter, ht, ht', ?_⟩
    rcases step_tables hl d with htables | ⟨e, op, hacts, -⟩
    · rw [htables] at ht'
      exact absurd ht ht'
    · exact ⟨e, op, hacts⟩

lemma reopened {d : δ} {q : String} (h : CrossHost.Step net w l w') (hq : closedRow (w.tables d) q)
    (hq' : ¬ closedRow (w'.tables d) q) :
    ∃ env input, l = .verb d env (.update input) ∧ input.qitemId = q ∧ input.reopen = true := by
  obtain ⟨r, hr, hterm⟩ := hq
  obtain ⟨r', hr', -⟩ := (step_grows h d).tags q r hr
  have hopen : r'.state.isTerminalState = false := by
    by_contra hterm'
    exact hq' ⟨r', hr', by simpa using hterm'⟩
  have hne : r'.state ≠ r.state := by
    intro he
    rw [he, hterm] at hopen
    cases hopen
  have hg : r.state.isGuardedTerminal = true ∧ r.state ≠ .canceled := by
    revert hterm
    cases r.state <;> simp [QueueState.isTerminalState, QueueState.isGuardedTerminal]
  rcases step_tables h d with hsame | ⟨env, op, hacts, hop⟩
  · rw [hsame, hr] at hr'
    exact absurd (congrArg QueueItem.state (Option.some.inj hr')).symm hne
  · obtain ⟨input, _, _, rfl, hid, hreopen, -⟩ :=
      reopened_of_moved hop hr hr' hg.1 hne fun _ => hg.2
    cases hacts with
    | verb => exact ⟨env, input, rfl, hid, hreopen⟩

/-- **A handoff transfers live work**, in every run that keeps it: the close of its source leaves an
active row on the target, unless the target closed that row after it took the forward. -/
theorem handoffs_transfer_live_work {ls : List (Label δ)} (h : Path (fun w l w' =>
      CrossHost.Step net w l w' ∧ KeepsWork net w l) World.start ls w) {n : ℕ} {env : Env}
    {leg : Leg δ} (hleg : w.legs[n]? = some leg) (hcloses : Closes w n env)
    (hstep : CrossHost.Step net w (.answer n env) w') :
    activeRow (w'.tables (leg.target net)) (leg.request.successorId net) ∨
      ClosedSince net (ls ++ [.answer n env]) w' n (leg.target net)
        (leg.request.successorId net) := by
  have hanswer : leg.waiting = true ∧ leg.accepted = some true := by
    cases step_moves hstep with
    | closed hleg₀ hwait hacc | conflict hleg₀ hwait hacc =>
      cases hleg.symm.trans hleg₀
      exact ⟨hwait, hacc⟩
  obtain ⟨taken, l, after, u, u', leg₀, leg₁, rfl, htaken, hl, hafter, hleg₀, hrec, hleg₁, hacc₁,
    hsame₀⟩ := accepted_received (fun _ _ _ h => h.1) h hleg hanswer.2
  have hrun := htaken.mono fun _ _ _ h => h.1
  have hlater := hafter.mono fun _ _ _ h => h.1
  obtain ⟨leg₂, hleg₂, hsame₁⟩ := leg_outlives hleg₁ hlater
  cases hleg.symm.trans hleg₂
  have hsame := SameLeg.trans hsame₀ hsame₁
  have hfound := received_active (run_grounded hrun) hleg₀ hl.1 hrec hl.2
  rw [← SameLeg.target hsame, ← hsame.request, ← hsame.origin] at hfound
  obtain ⟨env₀, reply, rfl, hc⟩ := hrec
  rw [List.append_assoc, List.cons_append]
  rcases hfound with hactive | hclosed
  · simpa using active_or_closed hrun hl.1 (.nil u') (hlater.snoc hstep) hactive
  -- the source was closed when the forward was taken and is open now: it was reopened in between
  have hopen : ¬ closedRow (w.tables leg.origin) leg.request.qitemId := by
    obtain ⟨leg', db, hleg', hclose⟩ := hcloses
    cases hleg.symm.trans hleg'
    obtain ⟨r, hr, ⟨hf, -⟩ | ⟨-, hopen, -⟩⟩ := closeCrossHost_eq_ok hclose
    · cases hf
    · rintro ⟨r', hr', hterm⟩
      cases hr.symm.trans hr'
      rw [hopen] at hterm
      cases hterm
  rcases hafter.lost (P :=
    fun w => closedRow (w.tables leg.origin) leg.request.qitemId) hclosed with
    hstill | ⟨mid, l, rest, v, v', rfl, hmid, hv, hrest, hbefore, hlost⟩
  · exact absurd hstill hopen
  · obtain ⟨e, input, rfl, hid, hreopen⟩ := reopened hv.1 hbefore hlost
    have hmid' := hmid.mono fun _ _ _ h => h.1
    have hrest' := hrest.mono fun _ _ _ h => h.1
    obtain ⟨legv, hlegv, hsamev⟩ := leg_outlives hleg₁ hmid'
    obtain ⟨legw, hlegw, hsamew⟩ := leg_outlives hlegv (.cons hv.1 hrest')
    cases hleg.symm.trans hlegw
    have hactive := hv.2 n legv hlegv hsamew.origin.symm (by rw [hid, hsamew.request])
      (hsamew.waiting hanswer.1) (hsamev.accepted hacc₁) hreopen (hid ▸ hbefore)
    rw [← SameLeg.target hsamew, ← hsamew.request] at hactive
    have := active_or_closed hrun hl.1 hmid' ((Path.cons hv.1 hrest').snoc hstep) hactive
    simpa using this

end

/-- The first handoff of `q1` keeps work: the target holds nothing under the id it sends. -/
theorem handoffs_transfer_live_work_forwarded : ∃ (w w' : World Bool) (leg : Leg Bool),
    w.legs[0]? = some leg ∧ CrossHost.Step twoHosts w (.answer 0 (plainEnv 2000 0 "")) w' ∧
      (activeRow (w'.tables (leg.target twoHosts)) (leg.request.successorId twoHosts) ∨
        ClosedSince twoHosts (forwarded ++ [.answer 0 (plainEnv 2000 0 "")]) w' 0
          (leg.target twoHosts) (leg.request.successorId twoHosts)) := by
  obtain ⟨w, leg, w', hrun, hleg, hcloses, hstep, -⟩ := exists_close twoHosts forwarded 0
    (plainEnv 2000 0 "") (fun _ _ => true) (by decide +kernel)
  obtain ⟨t, hcreate, hrun⟩ := Path.cons_iff.mp hrun
  obtain ⟨u, harrive, hrun⟩ := Path.cons_iff.mp hrun
  have hnone : ([sourceCreated, Label.arrive false handoffToVps].foldlM (perform twoHosts)
      World.start).all
        (fun u => ((u.tables true).getById (handoffToVps.successorId twoHosts)).isNone)
      = true := by decide +kernel
  rw [path_iff_foldlM.mp (.cons hcreate (.single harrive))] at hnone
  refine ⟨w, w', leg, hleg, hstep, handoffs_transfer_live_work (.cons ⟨hcreate, trivial⟩
    (.cons ⟨harrive, trivial⟩ (.single ⟨Path.single_iff.mp hrun, ?_⟩))) hleg hcloses hstep⟩
  intro leg₀ row _ hrow
  have hthere : (u.tables true).getById (handoffToVps.successorId twoHosts) = some row := hrow
  simp [hthere] at hnone

/-- The handoff of `q1` ends, and its successor is done on the target. -/
def handedOverAndDone : List (Label Bool) :=
  forwarded ++ [.answer 0 (plainEnv 2000 0 ""), .verb true (plainEnv 3000 0 "") (.update
    { qitemId := handoffToVps.successorId twoHosts, actorSession := "dev@farm",
      state := some .done, closureReason := some "no-follow-on" })]

/-- `q1` is reopened and handed to the same seat and host again. -/
def handedOverAgain : List (Label Bool) :=
  handedOverAndDone ++ [.verb false (plainEnv 4000 0 "") (.update
    { qitemId := "q1", actorSession := "dev@lab", state := some .pending, reopen := true,
      transitionNote := some "not finished" }), .arrive false handoffToVps]

def forwardedAgain : List (Label Bool) :=
  handedOverAgain ++ [Label.receive 1 (plainEnv 5000 0 "")]

lemma split_at_last {ℓ : Type} {p : ℓ → Bool} {ls before rest : List ℓ} {a b x : ℓ}
    (hls : ∀ l ∈ ls, p l = false) (hb : p b = false) (hx : p x = true)
    (h : ls ++ [a, b] = before ++ x :: rest) : before = ls ∧ x = a ∧ rest = [b] := by
  induction ls generalizing before with
  | nil =>
    rcases before with _ | ⟨c, _ | ⟨d, before⟩⟩
    · cases h
      exact ⟨rfl, rfl, rfl⟩
    · cases h
      rw [hb] at hx
      cases hx
    · simp at h
  | cons l ls ih =>
    rcases before with _ | ⟨c, before⟩
    · cases h
      rw [hls _ List.mem_cons_self] at hx
      cases hx
    · rw [List.cons_append, List.cons_append, List.cons.injEq] at h
      obtain ⟨hbefore, hxa, hrest⟩ := ih (fun l hl => hls l (List.mem_cons_of_mem _ hl)) h.2
      exact ⟨by rw [h.1, hbefore], hxa, hrest⟩

/-- The target takes the second forward of the label. -/
def isSecondReceive : Label Bool → Bool
  | .receive 1 _ => true
  | _ => false

/-- The second handoff of the reopened source closes it toward a successor that was done long
ago. -/
theorem reopened_handoff_drops_work :
    ¬ ∀ (ls : List (Label Bool)) (w : World Bool) (n : ℕ) (env : Env) (leg : Leg Bool)
      (w' : World Bool), Path (CrossHost.Step twoHosts) World.start ls w →
      w.legs[n]? = some leg → Closes w n env → CrossHost.Step twoHosts w (.answer n env) w' →
      activeRow (w'.tables (leg.target twoHosts)) (leg.request.successorId twoHosts) ∨
        ClosedSince twoHosts (ls ++ [.answer n env]) w' n (leg.target twoHosts)
          (leg.request.successorId twoHosts) := by
  intro hclaim
  obtain ⟨w, leg, w', hrun, hleg, hcloses, hstep, hp⟩ := exists_close twoHosts
    forwardedAgain 1 (plainEnv 6000 0 "") (fun leg w' => leg.origin ≠ leg.target twoHosts &&
      ((w'.tables (leg.target twoHosts)).getById (leg.request.successorId twoHosts)).all fun row =>
        !row.state.isBlockerLive) (by decide +kernel)
  simp only [Bool.and_eq_true, decide_eq_true_eq] at hp
  rcases hclaim _ w 1 _ leg w' hrun hleg hcloses hstep with ⟨row, hrow, hlive⟩ | hsince
  · rw [hrow] at hp
    simp [hlive] at hp
  · obtain ⟨taken, env, mid, l, after, u, u', v, v', hls, htaken, hreceive, hmid, -, -, -, -, _, _,
      hacts⟩ := hsince
    have hnone : ∀ l ∈ handedOverAgain, isSecondReceive l = false := by
      simp [handedOverAgain, handedOverAndDone, forwarded, sourceCreated, isSecondReceive]
    obtain ⟨rfl, hx, hrest⟩ := split_at_last (p := isSecondReceive) hnone rfl rfl
      (by simpa [forwardedAgain] using hls)
    rw [hx] at hreceive
    rcases mid with _ | ⟨m, mid⟩
    · -- the close itself is all that follows, and it is no operation of the target
      cases hrest
      cases Path.nil_iff.mp hmid
      have hv := path_iff_foldlM.mp (htaken.snoc hreceive)
      have hw := path_iff_foldlM.mp hrun
      cases Option.some.inj (hv.symm.trans hw)
      generalize hd : leg.target twoHosts = d at hacts hp
      cases hacts with
      | answer hleg₀ =>
        cases hleg.symm.trans hleg₀
        exact hp.1 rfl
    · simp at hrest

end OpenRig.ReopenedHandoffs
