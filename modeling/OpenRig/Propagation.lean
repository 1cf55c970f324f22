import OpenRig.RowEffects

/-!
What a close does to the rows parked on it.

The successor a parked row is rebound to is settled before the loop starts and no iteration
changes it, so the loop takes each parked row through one write, a rebind to that successor
or an unpark. The handoff family is a close, at most one insert and that loop.
-/

namespace OpenRig.Propagation

open OpenRig.JsText OpenRig.Sessions OpenRig.Closure OpenRig.QueueDb OpenRig.Outbox
open OpenRig.Watchdogs OpenRig.Verbs OpenRig.Handoff OpenRig.Runs OpenRig.Lifecycle
open OpenRig.RowEffects

/-! ### The onward successor -/

/-- The id of the row a parked owner is rebound to. -/
def onwardId (db : Db) (input : PropagateInput) (owner : String) : Option String :=
  (onwardSuccessor db input owner).map QueueItem.qitemId

/-- What the onward successor reads of a row. -/
structure Kin (r r' : QueueItem) : Prop where
  qitemId : r'.qitemId = r.qitemId
  handedOffFrom : r'.handedOffFrom = r.handedOffFrom
  destinationSession : r'.destinationSession = r.destinationSession
  handedOffTo : r'.handedOffTo = r.handedOffTo
  live : r'.state.isBlockerLive = r.state.isBlockerLive

lemma Kin.refl (r : QueueItem) : Kin r r := ⟨rfl, rfl, rfl, rfl, rfl⟩

lemma getById_of_map {db db' : Db} {g : QueueItem → QueueItem}
    (hrows : db'.items.rows = db.items.rows.map g) (hg : ∀ r, (g r).qitemId = r.qitemId)
    (k : String) : db'.getById k = (db.getById k).map g := by
  unfold Db.getById Table.get?
  rw [hrows, List.find?_map]
  congr 2
  funext r
  simp [hg]

/-- The candidates for the onward successor of `x` at `seat`. -/
def successorsAt (rows : List QueueItem) (x seat : String) : List QueueItem :=
  rows.filter fun r => r.handedOffFrom = some x && r.destinationSession = seat

lemma successorsAt_map {rows : List QueueItem} {g : QueueItem → QueueItem} {x seat : String}
    (hf : ∀ r, (g r).handedOffFrom = r.handedOffFrom)
    (hd : ∀ r, (g r).destinationSession = r.destinationSession) :
    successorsAt (rows.map g) x seat = (successorsAt rows x seat).map g := by
  unfold successorsAt
  rw [List.filter_map]
  congr 2
  funext r
  simp [hf, hd]

lemma onwardSuccessor_eq (db : Db) (input : PropagateInput) (owner : String) :
    onwardSuccessor db input owner =
      if input.terminalState ≠ .handedOff then none
      else match successorsAt db.items.rows input.qitemId
          (((db.getById input.qitemId).bind QueueItem.handedOffTo).getD "") with
        | [s] => if s.state.isBlockerLive && s.destinationSession ≠ owner then some s else none
        | _ => none := rfl

lemma onwardId_of_kin {db db' : Db} {g : QueueItem → QueueItem}
    (hrows : db'.items.rows = db.items.rows.map g) (hg : ∀ r ∈ db.items.rows, Kin r (g r))
    (input : PropagateInput) (owner : String) :
    onwardId db' input owner = onwardId db input owner := by
  classical
  -- off the table's rows the rewrite may be taken as the identity
  let g' : QueueItem → QueueItem := fun r => if Kin r (g r) then g r else r
  have hk : ∀ r, Kin r (g' r) := by
    intro r
    by_cases h : Kin r (g r)
    · simp [g', h]
    · simp [g', h, Kin.refl r]
  have hrows' : db'.items.rows = db.items.rows.map g' := by
    rw [hrows]
    exact List.map_congr_left fun r hr => by simp [g', hg r hr]
  unfold onwardId
  rw [onwardSuccessor_eq, onwardSuccessor_eq]
  by_cases ht : input.terminalState = .handedOff
  · have hto : (db'.getById input.qitemId).bind QueueItem.handedOffTo =
        (db.getById input.qitemId).bind QueueItem.handedOffTo := by
      rw [getById_of_map hrows' fun r => (hk r).qitemId]
      cases db.getById input.qitemId with
      | none => rfl
      | some r => exact (hk r).handedOffTo
    rw [hto, hrows', successorsAt_map (fun r => (hk r).handedOffFrom)
      fun r => (hk r).destinationSession]
    rcases successorsAt db.items.rows input.qitemId _ with _ | ⟨s, _ | ⟨s', rest⟩⟩
    · simp
    · simp only [List.map_cons, List.map_nil, (hk s).live, (hk s).destinationSession]
      split
      · rfl
      · split
        · simp [(hk s).qitemId]
        · rfl
    · simp
  · simp [ht]

lemma onwardId_live {db : Db} {input : PropagateInput} {owner s : String}
    (h : onwardId db input owner = some s) :
    ∃ r, db.getById s = some r ∧ r.state.isBlockerLive = true := by
  unfold onwardId at h
  rw [onwardSuccessor_eq] at h
  split at h
  · simp at h
  · split at h
    · rename_i r hr
      have hmem : r ∈ db.items.rows := by
        have : r ∈ successorsAt db.items.rows input.qitemId
            (((db.getById input.qitemId).bind QueueItem.handedOffTo).getD "") := by simp [hr]
        exact (List.mem_filter.mp this).1
      split at h
      · rename_i hlive
        simp only [Bool.and_eq_true] at hlive
        obtain rfl : r.qitemId = s := by simpa using h
        exact ⟨r, Table.get?_of_mem hmem, hlive.1⟩
      · simp at h
    · simp at h

/-! ### One parked row -/

lemma rebindRow_items (env : Env) (input : PropagateInput) (db : Db) (q s : String) :
    (rebindRow env input db q s).items.rows = db.items.rows.map
      (Table.rewrite (fun r => r.qitemId = q)
        fun r => { r with blockedOn := some s, tsUpdated := env.now }) := by
  unfold rebindRow
  simp only [Db.items_emit, Db.items_recordWake]
  split
  · rfl
  · rw [items_retireParkGeneratedTimer]
    rfl

lemma rebindRow_touched (env : Env) (input : PropagateInput) {db : Db} {q : String} (s : String)
    {r : QueueItem} (hr : db.getById q = some r) (hs : r.state = .blocked) :
    Touched db (rebindRow env input db q s) q (.rebind s) := by
  have hv : view (rebindRow env input db q s) = view ((db.updateRow q fun r =>
      { r with blockedOn := some s, tsUpdated := env.now }).append env.now
      { qitemId := q, state := .blocked, actorSession := input.actorSession,
        transitionNote := some ("blocker custody moved from " ++ input.qitemId ++ " to " ++ s),
        identityProvenance := input.identityProvenance }) := by
    unfold rebindRow
    simp only [view_emit, view_recordWake]
    split
    · rfl
    · rw [view_retireParkGeneratedTimer]
  exact touched_of_write hr rfl hv rfl (.rebind (l := lifeOf r (marks db q)) hs)

lemma unparkRow_eq {env : Env} {input : PropagateInput} {db db' : Db} {q owner : String}
    (h : unparkRow env input db q owner = .ok db') :
    ∃ db₁, db₁ = (db.updateRow q fun r =>
        { r with state := .pending, blockedOn := none, tsUpdated := env.now }).append env.now
        { qitemId := q, state := .pending, actorSession := input.actorSession,
          transitionNote := some ("auto-unparked: blocker " ++ input.qitemId ++
            " reached terminal state '" ++ input.terminalState.text ++ "'") } ∧
      ∃ outbox e, db' = ((retireParkGeneratedTimer db₁ q "park_ended:auto-unparked").setOutbox
        outbox).emit e ∧ ∃ f a b t, e = .updated q .blocked .pending f a b t := by
  unfold unparkRow at h
  obtain ⟨db₂, hst, h⟩ := bind_eq_ok.mp h
  refine ⟨_, rfl, ?_⟩
  rw [stageAutoUnparkWakeIntent_db hst] at h
  cases pure_eq_ok.mp h
  exact ⟨_, _, rfl, _, _, _, _, rfl⟩

lemma unparkRow_items {env : Env} {input : PropagateInput} {db db' : Db} {q owner : String}
    (h : unparkRow env input db q owner = .ok db') :
    db'.items.rows = db.items.rows.map (Table.rewrite (fun r => r.qitemId = q)
      fun r => { r with state := .pending, blockedOn := none, tsUpdated := env.now }) := by
  obtain ⟨db₁, rfl, outbox, e, rfl, -⟩ := unparkRow_eq h
  simp only [Db.items_emit, Db.items_setOutbox, items_retireParkGeneratedTimer, Db.items_append]
  rfl

lemma unparkRow_touched {env : Env} {input : PropagateInput} {db db' : Db} {q owner : String}
    (h : unparkRow env input db q owner = .ok db') {r : QueueItem} (hr : db.getById q = some r)
    (hs : r.state = .blocked) : Touched db db' q .unpark := by
  obtain ⟨db₁, h₁, outbox, e, rfl, -⟩ := unparkRow_eq h
  refine touched_of_write hr h₁ ?_ rfl (.unpark (l := lifeOf r (marks db q)) hs)
  rw [view_emit, view_setOutbox, view_retireParkGeneratedTimer]

lemma propagateRow_touched {env : Env} {input : PropagateInput} {db db' : Db}
    {row : String × String} (h : propagateRow env input db row = .ok db') {r : QueueItem}
    (hr : db.getById row.1 = some r) (hs : r.state = .blocked) :
    Touched db db' row.1 (dependentWrite (onwardId db input row.2)) := by
  unfold propagateRow at h
  unfold onwardId
  split at h
  · rename_i s hsucc
    cases pure_eq_ok.mp h
    rw [hsucc]
    exact rebindRow_touched env input _ hr hs
  · rename_i hsucc
    rw [hsucc]
    exact unparkRow_touched h hr hs

lemma propagateRow_onwardId {env : Env} {input : PropagateInput} {db db' : Db}
    {row : String × String} (h : propagateRow env input db row = .ok db') {r : QueueItem}
    (hr : db.getById row.1 = some r) (hs : r.state = .blocked) (owner : String) :
    onwardId db' input owner = onwardId db input owner := by
  have hrow : ∀ a ∈ db.items.rows, a.qitemId = row.1 → a = r := by
    intro a ha hk
    have := Table.get?_of_mem ha
    rw [hk] at this
    exact Option.some.inj (this.symm.trans hr)
  unfold propagateRow at h
  split at h
  · cases pure_eq_ok.mp h
    refine onwardId_of_kin (rebindRow_items env input db row.1 _) (fun a ha => ?_) input owner
    unfold Table.rewrite
    split
    · exact ⟨rfl, rfl, rfl, rfl, rfl⟩
    · exact Kin.refl a
  · refine onwardId_of_kin (unparkRow_items h) (fun a ha => ?_) input owner
    unfold Table.rewrite
    split
    · rename_i hk
      obtain rfl := hrow a ha (by simpa using hk)
      exact ⟨rfl, rfl, rfl, rfl, by simp [hs, QueueState.isBlockerLive]⟩
    · exact Kin.refl a

/-! ### The loop -/

/-- The row is parked on `b`. -/
def parkedRow (db : Db) (k b : String) : Prop :=
  ∃ r, db.getById k = some r ∧ r.state = .blocked ∧ r.blockedOn = some b

lemma mem_parkedOn {db : Db} {b k owner : String} :
    (k, owner) ∈ parkedOn db b ↔ ∃ r, db.getById k = some r ∧ r.state = .blocked ∧
      r.blockedOn = some b ∧ r.destinationSession = owner := by
  unfold parkedOn
  constructor
  · intro h
    obtain ⟨r, hr, he⟩ := List.mem_map.mp h
    obtain ⟨hg, hp⟩ := Table.mem_filter.mp hr
    simp only [Bool.and_eq_true, decide_eq_true_eq] at hp
    obtain ⟨rfl, rfl⟩ := Prod.mk.inj he
    exact ⟨r, hg, hp.2, hp.1, rfl⟩
  · rintro ⟨r, hr, hs, hb, rfl⟩
    obtain rfl := Db.getById_id hr
    exact List.mem_map.mpr ⟨r, Table.mem_filter.mpr ⟨hr, by simp [hs, hb]⟩, rfl⟩

lemma parkedOn_ids (db : Db) (b : String) :
    (parkedOn db b).map Prod.fst = (db.items.filter fun r =>
      r.blockedOn = some b && r.state = .blocked).map QueueItem.qitemId := by
  simp [parkedOn, Function.comp_def]

/-- **Propagation**: each row parked on the blocker goes through one write, the rebind to its
onward successor or the unpark, and no other row changes. -/
theorem propagate_view {env : Env} {input : PropagateInput} {db db' : Db}
    (h : propagateBlockerCompletion env input db = .ok db') :
    (∀ k, ¬ parkedRow db k input.qitemId → view db' k = view db k) ∧
      ∀ k r, db.getById k = some r → r.state = .blocked → r.blockedOn = some input.qitemId →
        Step (view db k) (dependentWrite (onwardId db input r.destinationSession))
          (view db' k) := by
  have hnodup : ((parkedOn db input.qitemId).map Prod.fst).Nodup := by
    rw [parkedOn_ids]
    exact nodup_filter_ids db _
  obtain ⟨-, hout, hin⟩ := sweep
    (W := fun x w => w = dependentWrite (onwardId db input x.2))
    (fun db₁ => ∀ owner, onwardId db₁ input owner = onwardId db input owner) (view db)
    (path_of_foldlM h) hnodup (fun _ => rfl) (fun _ _ => rfl) (by
      rintro ⟨k, owner⟩ hx db₁ db₂ hI hv hR
      obtain ⟨r, hr, hs, hb, -⟩ := mem_parkedOn.mp hx
      rw [view_of_getById hr] at hv
      obtain ⟨r₁, hr₁, hl⟩ := view_eq_some.mp hv
      have hs₁ : r₁.state = .blocked := (congrArg Life.state hl).trans hs
      refine ⟨fun o => (propagateRow_onwardId hR hr₁ hs₁ o).trans (hI o), _, rfl, ?_⟩
      rw [← hI owner]
      exact propagateRow_touched hR hr₁ hs₁)
  constructor
  · intro k hk
    refine hout k fun hmem => hk ?_
    rw [parkedOn_ids] at hmem
    obtain ⟨r, hr, hp⟩ := mem_filter_ids.mp hmem
    simp only [Bool.and_eq_true, decide_eq_true_eq] at hp
    exact ⟨r, hr, hp.2, hp.1⟩
  · intro k r hr hs hb
    obtain ⟨w, rfl, hstep⟩ := hin (k, r.destinationSession) (mem_parkedOn.mpr ⟨r, hr, hs, hb, rfl⟩)
    exact hstep

/-! ### After a close -/

/-- A close, as the rows parked on it meet it: the closing row, its state, the seat it was
handed to, and whether its transaction creates the successor there. -/
structure Closing where
  blocker : String
  terminalState : QueueState
  handedOffTo : String
  successor : Bool

/-- Whether a row parked on the closing row is rebound, given its owner: the close is a handoff to
somebody else, and exactly one live row at the new seat came from the closing row. -/
def Closing.rebinds (c : Closing) (db : Db) (owner : String) : Bool :=
  c.terminalState = .handedOff && c.handedOffTo ≠ owner &&
    match successorsAt db.items.rows c.blocker c.handedOffTo with
    | [] => c.successor
    | [s] => !c.successor && s.state.isBlockerLive && s.qitemId ≠ c.blocker
    | _ => false

/-- `db₁` is `db` with the row `r₀` closed by `f` and the successor, if any, inserted. -/
structure ClosedBy (db db₁ : Db) (c : Closing) (r₀ : QueueItem) (f : QueueItem → QueueItem)
    (extra : List QueueItem) : Prop where
  source : db.getById c.blocker = some r₀
  rows : db₁.items.rows =
    db.items.rows.map (Table.rewrite (fun r => r.qitemId = c.blocker) f) ++ extra
  qitemId : ∀ r, (f r).qitemId = r.qitemId
  handedOffFrom : ∀ r, (f r).handedOffFrom = r.handedOffFrom
  destinationSession : ∀ r, (f r).destinationSession = r.destinationSession
  handedOffTo : (f r₀).handedOffTo.getD "" = c.handedOffTo
  closed : (f r₀).state.isBlockerLive = false
  extra_eq : extra = [] ∧ c.successor = false ∨ ∃ s, extra = [s] ∧ c.successor = true ∧
    s.state = .pending ∧ s.handedOffFrom = some c.blocker ∧
    s.destinationSession = c.handedOffTo ∧ s.qitemId ≠ c.blocker

namespace ClosedBy

variable {db db₁ : Db} {c : Closing} {r₀ : QueueItem} {f : QueueItem → QueueItem}
variable {extra : List QueueItem}

lemma rewrite_id (h : ClosedBy db db₁ c r₀ f extra) (r : QueueItem) :
    (Table.rewrite (fun r => r.qitemId = c.blocker) f r).qitemId = r.qitemId := by
  unfold Table.rewrite
  split
  · exact h.qitemId r
  · rfl

lemma getById_source (h : ClosedBy db db₁ c r₀ f extra) : db₁.getById c.blocker = some (f r₀) := by
  obtain ⟨hmem, hkey⟩ := Table.get?_eq_some.mp h.source
  refine Table.get?_eq_some.mpr ⟨?_, (h.qitemId r₀).trans hkey⟩
  rw [h.rows]
  refine List.mem_append_left _ (List.mem_map.mpr ⟨r₀, hmem, ?_⟩)
  simp [Table.rewrite, hkey]

lemma getById_other (h : ClosedBy db db₁ c r₀ f extra) {k : String} {r : QueueItem}
    (hk : k ≠ c.blocker) (hr : db.getById k = some r) : db₁.getById k = some r := by
  obtain ⟨hmem, hkey⟩ := Table.get?_eq_some.mp hr
  refine Table.get?_eq_some.mpr ⟨?_, hkey⟩
  rw [h.rows]
  refine List.mem_append_left _ (List.mem_map.mpr ⟨r, hmem, ?_⟩)
  simp [Table.rewrite, hkey, hk]

lemma parkedRow_iff (h : ClosedBy db db₁ c r₀ f extra) (k : String) :
    parkedRow db₁ k c.blocker ↔ k ≠ c.blocker ∧ parkedRow db k c.blocker := by
  constructor
  · rintro ⟨r, hr, hs, hb⟩
    have hk : k ≠ c.blocker := by
      rintro rfl
      rw [h.getById_source] at hr
      cases hr
      have := h.closed
      simp [hs, QueueState.isBlockerLive] at this
    refine ⟨hk, ?_⟩
    obtain ⟨hmem, hkey⟩ := Table.get?_eq_some.mp hr
    rw [h.rows] at hmem
    rcases List.mem_append.mp hmem with hmem | hmem
    · obtain ⟨a, ha, hae⟩ := List.mem_map.mp hmem
      have hak : a.qitemId = k :=
        (h.rewrite_id a).symm.trans ((congrArg QueueItem.qitemId hae).trans hkey)
      have : a = r := by
        rw [← hae]
        simp [Table.rewrite, hak, hk]
      subst this
      exact ⟨a, Table.get?_eq_some.mpr ⟨ha, hak⟩, hs, hb⟩
    · rcases h.extra_eq with ⟨rfl, -⟩ | ⟨s, rfl, -, hpend, -⟩
      · simp at hmem
      · obtain rfl : r = s := by simpa using hmem
        simp [hs] at hpend
  · rintro ⟨hk, r, hr, hs, hb⟩
    exact ⟨r, h.getById_other hk hr, hs, hb⟩

/-- **Who is rebound is settled before the close.** -/
lemma onwardId_isSome (h : ClosedBy db db₁ c r₀ f extra) {input : PropagateInput}
    (hq : input.qitemId = c.blocker) (ht : input.terminalState = c.terminalState) (owner : String) :
    (onwardId db₁ input owner).isSome = c.rebinds db owner := by
  unfold onwardId Closing.rebinds
  rw [onwardSuccessor_eq, hq, ht, Option.isSome_map]
  by_cases hstate : c.terminalState = .handedOff
  · rw [h.getById_source, Option.bind_some, h.handedOffTo]
    set g := Table.rewrite (fun r => r.qitemId = c.blocker) f with hg
    have hfrom : ∀ r, (g r).handedOffFrom = r.handedOffFrom := by
      intro r
      simp only [hg, Table.rewrite]
      split
      · exact h.handedOffFrom r
      · rfl
    have hdest : ∀ r, (g r).destinationSession = r.destinationSession := by
      intro r
      simp only [hg, Table.rewrite]
      split
      · exact h.destinationSession r
      · rfl
    have hsucc : successorsAt db₁.items.rows c.blocker c.handedOffTo =
        (successorsAt db.items.rows c.blocker c.handedOffTo).map g ++ extra := by
      rw [h.rows, ← successorsAt_map hfrom hdest]
      unfold successorsAt
      rw [List.filter_append]
      congr 1
      rcases h.extra_eq with ⟨rfl, -⟩ | ⟨s, rfl, -, -, hf, hd, -⟩
      · rfl
      · simp [hf, hd]
    rw [hsucc]
    have hmem : ∀ s ∈ successorsAt db.items.rows c.blocker c.handedOffTo,
        s ∈ db.items.rows ∧ s.destinationSession = c.handedOffTo := by
      intro s hs
      obtain ⟨hs, hp⟩ := List.mem_filter.mp hs
      simp only [Bool.and_eq_true, decide_eq_true_eq] at hp
      exact ⟨hs, hp.2⟩
    rcases h.extra_eq with ⟨rfl, hno⟩ | ⟨s, rfl, hyes, hpend, -, hd, -⟩
    · rcases hl : successorsAt db.items.rows c.blocker c.handedOffTo with _ | ⟨a, _ | ⟨b, rest⟩⟩
      · simp [hno]
      · obtain ⟨hmem, hdest_a⟩ := hmem a (by simp [hl])
        have hlive :
          (g a).state.isBlockerLive = (a.state.isBlockerLive && a.qitemId ≠ c.blocker) := by
          by_cases hk : a.qitemId = c.blocker
          · have := Table.get?_of_mem hmem
            rw [hk] at this
            obtain rfl : a = r₀ := Option.some.inj (this.symm.trans h.source)
            simp [hg, Table.rewrite, hk, h.closed]
          · simp [hg, Table.rewrite, hk]
        simp only [hstate, hno, hlive, hdest a, hdest_a, List.map_cons, List.map_nil,
          List.append_nil, ne_eq, not_true_eq_false, if_false, decide_true, Bool.true_and,
          Bool.not_false]
        by_cases ho : c.handedOffTo = owner
        · simp [ho]
        · cases a.state.isBlockerLive <;> by_cases hk : a.qitemId = c.blocker <;> simp [ho, hk]
      · simp
    · rcases successorsAt db.items.rows c.blocker c.handedOffTo with _ | ⟨a, rest⟩
      · simp only [hstate, hyes, hpend, hd, List.map_nil, List.nil_append]
        by_cases ho : c.handedOffTo = owner <;> simp [ho, QueueState.isBlockerLive]
      · rcases rest with _ | ⟨b, rest⟩ <;> simp [hyes]
  · simp [hstate]

end ClosedBy

/-- **A close and its propagation**: each other row parked on the closing row goes through one
write, settled by the tables before the close; nothing else moves. -/
theorem propagate_after_close {env : Env} {input : PropagateInput} {db db₁ db' : Db} {c : Closing}
    {r₀ : QueueItem} {f : QueueItem → QueueItem} {extra : List QueueItem}
    (hc : ClosedBy db db₁ c r₀ f extra) (hq : input.qitemId = c.blocker)
    (ht : input.terminalState = c.terminalState)
    (h : propagateBlockerCompletion env input db₁ = .ok db') (k : String) :
    (¬ (k ≠ c.blocker ∧ parkedRow db k c.blocker) → view db' k = view db₁ k) ∧
      ∀ r, k ≠ c.blocker → db.getById k = some r → r.state = .blocked →
        r.blockedOn = some c.blocker → ∃ o : Option String,
          o.isSome = c.rebinds db r.destinationSession ∧
          (∀ s, o = some s → ∃ a, db₁.getById s = some a ∧ a.state.isBlockerLive = true) ∧
          Step (view db₁ k) (dependentWrite o) (view db' k) := by
  obtain ⟨hout, hin⟩ := propagate_view h
  rw [hq] at hout hin
  constructor
  · intro hk
    exact hout k fun hp => hk ((hc.parkedRow_iff k).mp hp)
  · intro r hk hr hs hb
    refine ⟨onwardId db₁ input r.destinationSession, hc.onwardId_isSome hq ht _,
      fun s hs => onwardId_live hs, ?_⟩
    exact hin k r (hc.getById_other hk hr) hs hb

/-! ### The writes of a closing verb -/

/-- The writes one row goes through in a verb that closes `c.blocker` by the write `w`. -/
inductive ClosingWrites (db : Db) (c : Closing) (w : RowWrite) : String → List RowWrite → Prop
  | untouched {k : String} : ClosingWrites db c w k []
  | source : ClosingWrites db c w c.blocker [w]
  | successor {k : String} {chain : List String} (hc : c.successor = true)
      (hk : db.getById k = none) : ClosingWrites db c w k [.insert chain]
  | dependent {k : String} {r : QueueItem} {o : Option String} (hk : k ≠ c.blocker)
      (hr : db.getById k = some r) (hs : r.state = .blocked) (hb : r.blockedOn = some c.blocker)
      (ho : o.isSome = c.rebinds db r.destinationSession) :
      ClosingWrites db c w k [dependentWrite o]

/-- A committed closing verb: its writes row by row, and the parks it leaves. -/
structure ClosedWith (db db' : Db) (c : Closing) (w : RowWrite) : Prop where
  source : Step (view db c.blocker) w (view db' c.blocker)
  writes : ∀ k, ∃ ws, ClosingWrites db c w k ws ∧ Path Step (view db k) ws (view db' k)
  clears : ∀ N, Clears N (view db) (view db')
  dependents : ∀ k r, k ≠ c.blocker → db.getById k = some r → r.state = .blocked →
    r.blockedOn = some c.blocker → ∃ o : Option String,
      o.isSome = c.rebinds db r.destinationSession ∧
      (∀ s, o = some s → live (view db') s) ∧
      Step (view db k) (dependentWrite o) (view db' k)

lemma parked_view {db : Db} {k b : String} : parked (view db) k b ↔ parkedRow db k b := by
  constructor
  · rintro ⟨l, hl, hs, hb⟩
    obtain ⟨r, hr, rfl⟩ := view_eq_some.mp hl
    exact ⟨r, hr, hs, hb⟩
  · rintro ⟨r, hr, hs, hb⟩
    exact ⟨_, view_of_getById hr, hs, hb⟩

lemma live_view {db : Db} {b : String} :
    live (view db) b ↔ ∃ r, db.getById b = some r ∧ r.state.isBlockerLive = true := by
  constructor
  · rintro ⟨l, hl, hs⟩
    obtain ⟨r, hr, rfl⟩ := view_eq_some.mp hl
    exact ⟨r, hr, hs⟩
  · rintro ⟨r, hr, hs⟩
    exact ⟨_, view_of_getById hr, hs⟩

lemma ClosedWith.live_other {db db' : Db} {c : Closing} {w : RowWrite} (h : ClosedWith db db' c w)
    {b : String} (hb : b ≠ c.blocker) (hlive : live (view db) b) : live (view db') b := by
  obtain ⟨ws, hws, hpath⟩ := h.writes b
  obtain ⟨l, hl, hs⟩ := hlive
  cases hws with
  | untouched =>
    unfold live
    rw [← Path.nil_iff.mp hpath]
    exact ⟨l, hl, hs⟩
  | source => exact absurd rfl hb
  | successor _ hk =>
    rw [view_eq_none.mpr hk] at hl
    cases hl
  | dependent =>
    have hstep := Path.single_iff.mp hpath
    rw [hl] at hstep
    obtain ⟨l', hl', hs', -⟩ := hstep.dependent
    exact ⟨l', hl', hs'⟩

lemma ClosedWith.dead_other {db db' : Db} {c : Closing} {w : RowWrite} (h : ClosedWith db db' c w)
    (hsucc : c.successor = false) {b : String} (hb : b ≠ c.blocker) (hdead : ¬ live (view db) b) :
    ¬ live (view db') b := by
  obtain ⟨ws, hws, hpath⟩ := h.writes b
  cases hws with
  | untouched =>
    unfold live
    rw [← Path.nil_iff.mp hpath]
    exact hdead
  | source => exact absurd rfl hb
  | successor hc => simp [hsucc] at hc
  | dependent _ hr hs _ _ =>
    exact absurd (live_view.mpr ⟨_, hr, by simp [hs, QueueState.isBlockerLive]⟩) hdead

lemma ClosedWith.congr {db db' db'' : Db} {c : Closing} {w : RowWrite} (h : ClosedWith db db' c w)
    (hv : view db'' = view db') : ClosedWith db db'' c w := by
  constructor
  · exact hv ▸ h.source
  · exact hv ▸ h.writes
  · exact hv ▸ h.clears
  · exact hv ▸ h.dependents

/-- A close of the source, perhaps an insert, and the loop, assembled. -/
lemma closedWith_of_propagate {env : Env} {input : PropagateInput} {db db₀ db₁ db' : Db}
    {c : Closing} {r₀ : QueueItem} {f : QueueItem → QueueItem} {extra : List QueueItem}
    {w : RowWrite} (hc : ClosedBy db db₁ c r₀ f extra) (htouch : Touched db db₀ c.blocker w)
    (hins : view db₁ = view db₀ ∨ ∃ s, Inserted db₀ db₁ s ∧ c.successor = true)
    (hq : input.qitemId = c.blocker) (ht : input.terminalState = c.terminalState)
    (h : propagateBlockerCompletion env input db₁ = .ok db') : ClosedWith db db' c w := by
  have hafter := propagate_after_close hc hq ht h
  have hdead : ¬ live (view db₁) c.blocker := by
    rw [live_view, hc.getById_source]
    rintro ⟨r, hr, hl⟩
    cases hr
    simp [hc.closed] at hl
  -- the closing row is not parked on itself any more, and the loop leaves it alone
  have hself : view db' c.blocker = view db₁ c.blocker := (hafter c.blocker).1 fun hk => hk.1 rfl
  have hself₁ : view db₁ c.blocker = view db₀ c.blocker := by
    rcases hins with hv | ⟨s, hs, -⟩
    · rw [hv]
    · refine hs.touched.2 _ fun e => ?_
      have hfresh := view_eq_none.mpr hs.fresh
      obtain ⟨l, hl⟩ := Option.isSome_iff_exists.mp htouch.1.isSome
      rw [← e, hl] at hfresh
      cases hfresh
  have hother : ∀ k, k ≠ c.blocker → view db₁ k = view db k ∨
      (c.successor = true ∧ db.getById k = none ∧ ∃ chain,
        Step none (.insert chain) (view db₁ k)) := by
    intro k hk
    rcases hins with hv | ⟨s, hs, hsucc⟩
    · exact .inl (by rw [hv, htouch.2 k hk])
    · by_cases hks : k = s.qitemId
      · subst hks
        have hfresh := view_eq_none.mpr hs.fresh
        have hstep := hs.touched.1
        rw [hfresh] at hstep
        exact .inr ⟨hsucc, view_eq_none.mp ((htouch.2 _ hk).symm.trans hfresh), _, hstep⟩
      · exact .inl ((hs.touched.2 k hks).trans (htouch.2 k hk))
  have hdep : ∀ k r, k ≠ c.blocker → db.getById k = some r → r.state = .blocked →
      r.blockedOn = some c.blocker → ∃ o : Option String,
        o.isSome = c.rebinds db r.destinationSession ∧ (∀ s, o = some s → live (view db₁) s) ∧
        Step (view db k) (dependentWrite o) (view db' k) := by
    intro k r hk hr hs hb
    obtain ⟨o, ho, hlive, hstep⟩ := (hafter k).2 r hk hr hs hb
    refine ⟨o, ho, fun s hs => live_view.mpr (hlive s hs), ?_⟩
    rcases hother k hk with hv | ⟨-, hnone, -⟩
    · rwa [hv] at hstep
    · cases hnone.symm.trans hr
  have hparked : ∀ k, parked (view db₁) k c.blocker ↔
      k ≠ c.blocker ∧ parkedRow db k c.blocker := fun k => parked_view.trans (hc.parkedRow_iff k)
  have hclears : ∀ N, Clears N (view db) (view db') := by
    intro N
    have hout : ∀ k, ¬ parked (view db₁) k c.blocker → view db' k = view db₁ k :=
      fun k hk => (hafter k).1 fun hp => hk ((hparked k).mpr hp)
    refine clears_of_close (x := c.blocker) hdead (fun k hk => ?_) hout fun k hk => ?_
    · rcases hother k hk with hv | ⟨-, hnone, chain, hstep⟩
      · exact .inl hv
      · refine .inr ⟨view_eq_none.mpr hnone, ?_⟩
        generalize hu : view db₁ k = u at hstep
        cases hstep
        exact ⟨_, rfl, rfl⟩
    · obtain ⟨hne, r, hr, hs, hb⟩ := (hparked k).mp hk
      obtain ⟨o, -, hlive, hstep⟩ := hdep k r hne hr hs hb
      refine ⟨o, hlive, ?_⟩
      rcases hother k hne with hv | ⟨-, hnone, -⟩
      · rwa [hv]
      · cases hnone.symm.trans hr
  -- what was live when the loop began is live after it
  have hkeep : ∀ s, live (view db₁) s → live (view db') s := by
    intro s hs
    by_cases hp : s ≠ c.blocker ∧ parkedRow db s c.blocker
    · obtain ⟨hne, r, hr, hst, hb⟩ := hp
      obtain ⟨o, -, -, hstep⟩ := hdep s r hne hr hst hb
      rw [view_of_getById hr] at hstep
      obtain ⟨l', hl', hlive, -⟩ := hstep.dependent
      exact ⟨l', hl', hlive⟩
    · unfold live
      rw [(hafter s).1 hp]
      exact hs
  refine ⟨?_, fun k => ?_, hclears, fun k r hk hr hs hb => ?_⟩
  · rw [hself, hself₁]
    exact htouch.1
  · by_cases hk : k = c.blocker
    · subst hk
      refine ⟨_, .source, .single ?_⟩
      rw [hself, hself₁]
      exact htouch.1
    · by_cases hp : parkedRow db k c.blocker
      · obtain ⟨r, hr, hs, hb⟩ := hp
        obtain ⟨o, ho, -, hstep⟩ := hdep k r hk hr hs hb
        exact ⟨_, .dependent hk hr hs hb ho, .single hstep⟩
      · have hv := (hafter k).1 fun h => hp h.2
        rcases hother k hk with hv₁ | ⟨hsucc, hnone, chain, hstep⟩
        · exact ⟨[], .untouched, by simp [hv, hv₁]⟩
        · refine ⟨_, @ClosingWrites.successor db c w k chain hsucc hnone, .single ?_⟩
          rw [view_eq_none.mpr hnone, hv]
          exact hstep
  · obtain ⟨o, ho, hlive, hstep⟩ := hdep k r hk hr hs hb
    exact ⟨o, ho, fun s hs => hkeep s (hlive s hs), hstep⟩

/-! ### The handoff family -/

section
variable (env : Env) (db : Db) (st : QueueState) (q a b target note : String)
variable (prov princ : Option String)

lemma closeSource_rows :
    (closeSource env db st q a b target note prov princ).items.rows = db.items.rows.map
      (Table.rewrite (fun r => r.qitemId = q) (closeRow env.now st b target)) := by
  unfold closeSource
  rw [items_retireParkGeneratedTimer]
  rfl

lemma instances_closeSource :
    (closeSource env db st q a b target note prov princ).instances = db.instances := by
  unfold closeSource
  rw [instances_retireParkGeneratedTimer]
  rfl

lemma closeSource_touched {r : QueueItem} (hr : db.getById q = some r)
    (hopen : r.state.isTerminalState = false) (hterm : st.isTerminalState = true) :
    Touched db (closeSource env db st q a b target note prov princ) q (.close st target) := by
  unfold closeSource
  exact touched_of_write hr rfl (view_retireParkGeneratedTimer _ _ _) rfl
    (.close (l := lifeOf r (marks db q)) hopen hterm)

end

lemma requireOpenSource_eq_ok {db : Db} {q : String} {r : QueueItem}
    (h : requireOpenSource db q = .ok r) :
    db.getById q = some r ∧ r.state.isTerminalState = false := by
  unfold requireOpenSource at h
  obtain ⟨r', hr, h⟩ := bind_eq_ok.mp h
  obtain ⟨_, hopen, h⟩ := bind_eq_ok.mp h
  cases pure_eq_ok.mp h
  exact ⟨requireItem_eq_ok.mp hr, refuseIf_eq_ok.mp hopen⟩

lemma stageHandoffWake_inserted {env : Env} {db₀ db db' : Db} {q a b : String}
    {p : Option String} {n : Option Bool} (h : stageHandoffWake env db q a b p n = .ok db')
    {s : QueueItem} (hq : s.qitemId = q) (hs : Inserted db₀ db s) :
    ∃ s', s'.qitemId = q ∧ s'.handedOffFrom = s.handedOffFrom ∧
      s'.destinationSession = s.destinationSession ∧ Inserted db₀ db' s' := by
  subst hq
  unfold stageHandoffWake at h
  split at h
  · rename_i db₁ hst
    cases h
    rw [stageWakeIntent_db hst]
    exact ⟨s, rfl, rfl, rfl, hs.setOutbox _⟩
  · split at h
    · cases h
      refine ⟨_, ?_, ?_, ?_, hs.nudged env _⟩ <;> rfl
    · cases h

/-- **What a committed handoff did**: it closed an open source, inserted the successor at the new
seat, and propagated the close. -/
lemma handoffWith_eq_ok {variant : HandoffVariant} {env : Env} {db db' : Db}
    {input : QueueHandoffInput} (h : handoffWith variant env db input = .ok db') :
    ∃ source note s db₂ db₃ e, db.getById input.qitemId = some source ∧
      source.state.isTerminalState = false ∧
      Inserted (closeSource env db variant.terminalState input.qitemId input.fromSession
        input.toSession input.toSession note input.identityProvenance input.identityPrincipal)
        db₂ s ∧
      s.qitemId = newQitemId env ∧ s.handedOffFrom = some input.qitemId ∧
      s.destinationSession = input.toSession ∧
      propagateBlockerCompletion env
        { qitemId := input.qitemId, terminalState := variant.terminalState,
          actorSession := input.fromSession,
          identityProvenance := sideEffectProvenance input.identityProvenance } db₂ = .ok db₃ ∧
      db' = db₃.emit e := by
  unfold handoffWith at h
  obtain ⟨source, hsource, h⟩ := bind_eq_ok.mp h
  obtain ⟨hr, hopen⟩ := requireOpenSource_eq_ok hsource
  have hid := Db.getById_id hr
  obtain ⟨-, -, h⟩ := bind_eq_ok.mp h
  obtain ⟨-, -, h⟩ := bind_eq_ok.mp h
  obtain ⟨-, -, h⟩ := bind_eq_ok.mp h
  simp only [hid] at h
  obtain ⟨db₁, hins, h⟩ := bind_eq_ok.mp h
  obtain ⟨db₂, hst, h⟩ := bind_eq_ok.mp h
  obtain ⟨db₃, hprop, h⟩ := bind_eq_ok.mp h
  obtain ⟨-, -, h⟩ := bind_eq_ok.mp h
  cases pure_eq_ok.mp h
  obtain ⟨s', hid', hfrom, hdest, hs'⟩ := stageHandoffWake_inserted hst rfl
    (inserted_of_insertRow hins rfl rfl rfl rfl env.now rfl rfl)
  refine ⟨source, _, s', _, db₃, _, hr, hopen, hs'.emit _, hid', ?_, hdest, hprop, rfl⟩
  rw [hfrom]
  exact congrArg some hid

/-- **A handoff closes its source** toward the new seat. -/
theorem handoffWith_closedWith {variant : HandoffVariant} {env : Env} {db db' : Db}
    {input : QueueHandoffInput} (hterm : variant.terminalState.isTerminalState = true)
    (h : handoffWith variant env db input = .ok db') :
    ClosedWith db db' ⟨input.qitemId, variant.terminalState, input.toSession, true⟩
      (.close variant.terminalState input.toSession) := by
  obtain ⟨source, note, s, db₂, db₃, e, hr, hopen, hs, hid, hfrom, hdest, hprop, rfl⟩ :=
    handoffWith_eq_ok h
  have htouch := closeSource_touched env db variant.terminalState input.qitemId input.fromSession
    input.toSession input.toSession note input.identityProvenance input.identityPrincipal hr hopen
    hterm
  have hne : s.qitemId ≠ input.qitemId := by
    intro e
    obtain ⟨l, hl⟩ := Option.isSome_iff_exists.mp htouch.1.isSome
    have hfresh := view_eq_none.mpr hs.fresh
    rw [e, hl] at hfresh
    cases hfresh
  have hc : ClosedBy db db₂ ⟨input.qitemId, variant.terminalState, input.toSession, true⟩ source
      (closeRow env.now variant.terminalState input.toSession input.toSession) [s] :=
    { source := hr
      rows := by rw [hs.rows, closeSource_rows]
      qitemId := fun _ => rfl
      handedOffFrom := fun _ => rfl
      destinationSession := fun _ => rfl
      handedOffTo := rfl
      closed := QueueState.not_live_of_terminal hterm
      extra_eq := .inr ⟨s, rfl, rfl, hs.state, hfrom, hdest, hne⟩ }
  exact (closedWith_of_propagate hc htouch (.inr ⟨s, hs, rfl⟩) rfl rfl hprop).congr rfl

lemma closeCrossHost_eq_ok {env : Env} {db db' : Db} {input : CrossHostCloseInput} {absorbed : Bool}
    (h : closeCrossHostHandoffSource env db input = .ok (absorbed, db')) :
    ∃ source, db.getById input.qitemId = some source ∧
      ((absorbed = true ∧ db' = db ∧ source.state.isTerminalState = true ∧
          source.closureTarget = some input.closureTarget) ∨
        (absorbed = false ∧ source.state.isTerminalState = false ∧ ∃ note e,
          propagateBlockerCompletion env
            { qitemId := input.qitemId, terminalState := input.terminalState.toQueueState,
              actorSession := input.fromSession,
              identityProvenance := sideEffectProvenance input.identityProvenance }
            ((closeSource env db input.terminalState.toQueueState input.qitemId input.fromSession
              input.toSession input.closureTarget note input.identityProvenance none).emit e)
            = .ok db')) := by
  unfold closeCrossHostHandoffSource at h
  obtain ⟨source, hr, h⟩ := bind_eq_ok.mp h
  refine ⟨source, requireItem_eq_ok.mp hr, ?_⟩
  split at h
  · rename_i hterm
    split at h
    · rename_i htarget
      cases pure_eq_ok.mp h
      exact .inl ⟨rfl, rfl, hterm, htarget⟩
    · simp at h
  · rename_i hopen
    obtain ⟨db₁, hprop, h⟩ := bind_eq_ok.mp h
    cases pure_eq_ok.mp h
    exact .inr ⟨rfl, by simpa using hopen, _, _, hprop⟩

lemma CloseState.isTerminalState (t : CloseState) : t.toQueueState.isTerminalState = true := by
  cases t <;> rfl

theorem closeCrossHost_closedWith {env : Env} {db db' : Db} {input : CrossHostCloseInput}
    (h : closeCrossHostHandoffSource env db input = .ok (false, db')) :
    ClosedWith db db'
      ⟨input.qitemId, input.terminalState.toQueueState, input.toSession, false⟩
      (.close input.terminalState.toQueueState input.closureTarget) := by
  obtain ⟨source, hr, ⟨habs, -⟩ | ⟨-, hopen, note, e, hprop⟩⟩ := closeCrossHost_eq_ok h
  · cases habs
  · have hterm := CloseState.isTerminalState input.terminalState
    have htouch := closeSource_touched env db input.terminalState.toQueueState input.qitemId
      input.fromSession input.toSession input.closureTarget note input.identityProvenance none hr
      hopen hterm
    have hc : ClosedBy db
        ((closeSource env db input.terminalState.toQueueState input.qitemId input.fromSession
          input.toSession input.closureTarget note input.identityProvenance none).emit e)
        ⟨input.qitemId, input.terminalState.toQueueState, input.toSession, false⟩ source
        (closeRow env.now input.terminalState.toQueueState input.toSession input.closureTarget)
          [] :=
      { source := hr
        rows := by rw [List.append_nil, Db.items_emit, closeSource_rows]
        qitemId := fun _ => rfl
        handedOffFrom := fun _ => rfl
        destinationSession := fun _ => rfl
        handedOffTo := rfl
        closed := QueueState.not_live_of_terminal hterm
        extra_eq := .inl ⟨rfl, rfl⟩ }
    exact closedWith_of_propagate hc htouch (.inl (view_emit _ _)) rfl rfl hprop

end OpenRig.Propagation
