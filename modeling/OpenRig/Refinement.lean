import OpenRig.Moves

/-!
Every operation refines the life cycle.

`exec_outcome` says once what a committed operation can have done: nothing a life shows, one
write of one row, a close with its propagation, a sweep over a generation's claims, or a
watchdog firing. `exec_touches` reads it row by row, `exec_clears` over all rows.
-/

namespace OpenRig.Refinement

open OpenRig.JsText OpenRig.Sessions OpenRig.Closure OpenRig.QueueDb OpenRig.Outbox
open OpenRig.Watchdogs OpenRig.Verbs OpenRig.Handoff OpenRig.Update OpenRig.Firing
open OpenRig.Runs OpenRig.Lifecycle OpenRig.RowEffects OpenRig.Propagation OpenRig.Moves

/-! ### Firings -/

/-- The provider-limit blockers an attempt resolves: those parked on its job, when the job is
active and the attempt neither stays owed nor is held back. -/
def resolvedTargets (db : Db) (a : WakeAttempt) : List String :=
  if ((db.jobs.get? a.jobId).any fun j => j.state = .active) && a.retryAt.isNone &&
      a.deliveryStatus ≠ "retained" then
    ((findBlockedQitemsByWatchdog db a.jobId true).filter fun t => isUsageLimitBlocker db t.1).map
      Prod.fst
  else []

lemma mem_resolvedTargets {db : Db} {a : WakeAttempt} {k : String}
    (h : k ∈ resolvedTargets db a) :
    ∃ w, (k, w) ∈ findBlockedQitemsByWatchdog db a.jobId false ∧ isBlocked db k = true := by
  unfold resolvedTargets at h
  split at h
  · obtain ⟨⟨k, w⟩, ht, rfl⟩ := List.mem_map.mp h
    have ht := (List.mem_filter.mp ht).1
    unfold findBlockedQitemsByWatchdog at ht ⊢
    rw [List.mem_dedup] at ht
    obtain ⟨r, hr, he⟩ := List.mem_map.mp ht
    obtain ⟨hr, hp⟩ := List.mem_filter.mp hr
    simp only [Bool.and_eq_true] at hp
    obtain ⟨rfl, rfl⟩ := Prod.mk.inj he
    refine ⟨r.wake, ?_, hp.1.1⟩
    rw [List.mem_dedup]
    exact List.mem_map.mpr ⟨r, List.mem_filter.mpr ⟨hr, by simp [hp.1.1, hp.2]⟩, rfl⟩
  · cases h

/-- The move that resolves a provider-limit blocker. -/
structure Resolves (m : Move) : Prop where
  state : m.state = .done
  closureReason : m.closureReason = some .noFollowOn
  closureTarget : m.closureTarget = none
  reopen : m.reopen = false

/-- The writes one row goes through in a firing: receipts, then an unpark if its blocker was
resolved, then its own resolution. -/
inductive FiringWrites (db : Db) (targets : List String) (k : String) : List RowWrite → Prop
  | receipts {ws : List RowWrite} (hw : ∀ w ∈ ws, w = .note) : FiringWrites db targets k ws
  | released {ws : List RowWrite} {x : String} (hw : ∀ w ∈ ws, w = .note) (hx : x ∈ targets)
      (hp : parkedRow db k x) : FiringWrites db targets k (ws ++ [.unpark])
  | resolved {ws : List RowWrite} {m : Move} (hw : ∀ w ∈ ws, w = .note ∨ w = .unpark)
      (hk : k ∈ targets) (hm : Resolves m)
      (hf : workflowFrontierPredicate db k = none) : FiringWrites db targets k (ws ++ [.move m])

lemma recordFired_touched (env : Env) (a : WakeAttempt) {db : Db} {target : String × ParkWake}
    (hb : isBlocked db target.1 = true) :
    Touched db (recordFired env a db target) target.1 .note := by
  obtain ⟨r, hr, hs⟩ := (Option.any_eq_true _ _).mp hb
  have hs : r.state = .blocked := by simpa using hs
  have hv : view (recordFired env a db target) = view (db.append env.now
      { qitemId := target.1, state := .blocked, actorSession := "watchdog@system",
        transitionNote := some a.note }) := by
    unfold recordFired
    simp only [view_emit]
    split
    · rfl
    · rfl
  exact touched_of_append hr rfl hv rfl hs.symm rfl

lemma recordFired_items (env : Env) (a : WakeAttempt) (db : Db) (target : String × ParkWake) :
    (recordFired env a db target).items = db.items := by
  unfold recordFired
  simp only [Db.items_emit]
  split
  · rfl
  · rfl

lemma recordFired_instances (env : Env) (a : WakeAttempt) (db : Db) (target : String × ParkWake) :
    (recordFired env a db target).instances = db.instances := by
  unfold recordFired
  simp only [Db.instances_emit]
  split
  · rfl
  · rfl

lemma isBlocked_congr {db db' : Db} (h : db'.items = db.items) (k : String) :
    isBlocked db' k = isBlocked db k := by
  unfold isBlocked Db.getById
  rw [h]

lemma receipts_view (env : Env) (a : WakeAttempt) (targets : List (String × ParkWake)) (db : Db)
    (hb : ∀ t ∈ targets, isBlocked db t.1 = true) :
    (targets.foldl (recordFired env a) db).items = db.items ∧
      (targets.foldl (recordFired env a) db).instances = db.instances ∧
      ∀ k, ∃ ws, (∀ w ∈ ws, w = .note) ∧
        Path Step (view db k) ws (view (targets.foldl (recordFired env a) db) k) := by
  induction targets generalizing db with
  | nil => exact ⟨rfl, rfl, fun k => ⟨[], by simp, .nil _⟩⟩
  | cons t targets ih =>
    have hitems := recordFired_items env a db t
    obtain ⟨hi, hins, hrows⟩ := ih (recordFired env a db t) fun t' ht' => by
      rw [isBlocked_congr hitems]
      exact hb t' (List.mem_cons_of_mem _ ht')
    refine ⟨hi.trans hitems, hins.trans (recordFired_instances env a db t), fun k => ?_⟩
    obtain ⟨ws, hw, hpath⟩ := hrows k
    have ht := recordFired_touched env a (hb t List.mem_cons_self)
    by_cases hk : k = t.1
    · subst hk
      refine ⟨.note :: ws, ?_, .cons ht.1 hpath⟩
      rintro w (_ | ⟨_, h⟩)
      · rfl
      · exact hw w h
    · rw [ht.2 k hk] at hpath
      exact ⟨ws, hw, hpath⟩

lemma notes_keep {l : Life} {v' : Option Life} {ws : List RowWrite}
    (h : Path Step (some l) ws v') (hw : ∀ w ∈ ws, w = RowWrite.note) :
    ∃ l', v' = some l' ∧ l'.state = l.state ∧ l'.blockedOn = l.blockedOn ∧
      l'.closureReason = l.closureReason ∧ l'.closureTarget = l.closureTarget := by
  refine h.invariant_of_labels (I := fun v : Option Life => ∃ l', v = some l' ∧
    l'.state = l.state ∧ l'.blockedOn = l.blockedOn ∧ l'.closureReason = l.closureReason ∧
    l'.closureTarget = l.closureTarget) ?_ hw ⟨l, rfl, rfl, rfl, rfl, rfl⟩
  rintro _ w v hnote hstep ⟨l₁, rfl, h₁⟩
  subst hnote
  cases hstep
  exact ⟨_, rfl, h₁⟩

lemma settleFiredJob_eq (env : Env) (a : WakeAttempt) (g : Bool) (db : Db) :
    ∃ jobs, settleFiredJob env a g db = db.setJobs jobs := by
  unfold settleFiredJob
  split
  · split
    · exact ⟨_, rfl⟩
    · exact ⟨_, rfl⟩
  · split
    · exact ⟨db.jobs, rfl⟩
    · split
      · exact ⟨_, rfl⟩
      · exact ⟨db.jobs, rfl⟩

/-- **The resolution of a provider-limit blocker** closes it. -/
lemma resolution_eq_ok {env : Env} {db db' : Db} {j q : String}
    (h : update env db (resolutionInput j q) = .ok db') :
    ∃ m c, Resolves m ∧ c.blocker = q ∧ c.terminalState = .done ∧ c.successor = false ∧
      ClosedWith db db' c (.move m) ∧ workflowFrontierPredicate db q = none := by
  cases update_eq_ok h with
  | append _ _ hfields => simp [hasStateWriteField, resolutionInput] at hfields
  | move hr hstate hplan hlive =>
    cases hstate
    simp [QueueState.isBlockerLive] at hlive
  | @close qitem state plan hr hstate hplan _ hdead hclosed =>
    cases hstate
    refine ⟨_, _, ⟨hplan.state_eq, ?_, hplan.closureTarget, rfl⟩, rfl, hplan.state_eq, rfl, hclosed,
      hplan.frontier rfl rfl⟩
    exact hplan.closureReason.trans (ClosureReason.ofText?_text .noFollowOn)

/-! ### Workflow instances -/

lemma propagate_instances {env : Env} {input : PropagateInput} {db db' : Db}
    (h : propagateBlockerCompletion env input db = .ok db') : db'.instances = db.instances := by
  refine (path_of_foldlM h).invariant (I := fun d => d.instances = db.instances) ?_ rfl
  intro db₁ row db₂ h hI
  rw [← hI]
  unfold propagateRow at h
  split at h
  · cases pure_eq_ok.mp h
    unfold rebindRow
    simp only [Db.instances_emit, Db.instances_recordWake]
    split
    · rfl
    · rw [instances_retireParkGeneratedTimer]
      rfl
  · obtain ⟨db₃, rfl, outbox, e, rfl, -⟩ := unparkRow_eq h
    simp

lemma update_instances {env : Env} {db db' : Db} {input : QueueUpdateInput}
    (h : update env db input = .ok db') : db'.instances = db.instances := by
  have happend : ∀ qitem deadline, appendOnly env db qitem input deadline = .ok db' →
      db'.instances = db.instances := by
    intro qitem deadline h
    unfold appendOnly at h
    obtain ⟨-, -, h⟩ := bind_eq_ok.mp h
    split at h
    · split at h
      · obtain ⟨-, -, h⟩ := bind_eq_ok.mp h
        simp at h
      · simp at h
    · cases pure_eq_ok.mp h
      simp only [Db.instances_emit, Db.instances_append]
      split
      · split <;> rfl
      · split <;> rfl
  have hsettle : ∀ (db : Db) qitem plan wake t,
      (settleParkWake db qitem plan wake t).instances = db.instances := by
    intro db qitem plan wake t
    unfold settleParkWake
    split
    · simp only [Db.instances_recordWake]
      split
      · rw [instances_retireParkGeneratedTimer]
      · rfl
    · split
      · rw [instances_retireParkGeneratedTimer]
      · rfl
  unfold update at h
  obtain ⟨qitem, -, h⟩ := bind_eq_ok.mp h
  obtain ⟨deadline, -, h⟩ := bind_eq_ok.mp h
  split at h
  · exact happend _ _ h
  · split at h
    · exact happend _ _ h
    · obtain ⟨plan, -, h⟩ := bind_eq_ok.mp h
      obtain ⟨⟨wake, jobs⟩, -, h⟩ := bind_eq_ok.mp h
      unfold applyUpdate at h
      simp only at h
      split at h
      · obtain ⟨db₁, h₁, h⟩ := bind_eq_ok.mp h
        cases pure_eq_ok.mp h
        cases pure_eq_ok.mp h₁
        rw [Db.instances_emit, hsettle]
        rfl
      · obtain ⟨db₁, h₁, h⟩ := bind_eq_ok.mp h
        cases pure_eq_ok.mp h
        rw [Db.instances_emit, propagate_instances h₁, hsettle]
        rfl

lemma frontierPredicate_congr {db db' : Db} (h : db'.instances = db.instances) (q : String) :
    workflowFrontierPredicate db' q = workflowFrontierPredicate db q := by
  unfold workflowFrontierPredicate
  rw [h]

/-! ### The resolutions of a firing -/

/-- A firing's effect on the rows, so far. -/
structure FiringEffect (db db' : Db) (targets : List String) : Prop where
  writes : ∀ k, ∃ ws, FiringWrites db targets k ws ∧ Path Step (view db k) ws (view db' k)
  clears : ∀ N, Clears N (view db) (view db')
  instances : db'.instances = db.instances

lemma FiringEffect.resolve {env : Env} {db db₁ db₂ : Db} {targets : List String} {j q : String}
    (h : FiringEffect db db₁ targets) (hq : q ∈ targets)
    (hu : update env db₁ (resolutionInput j q) = .ok db₂) : FiringEffect db db₂ targets := by
  obtain ⟨m, c, hm, hb, hterm, hsucc, hclosed, hfront⟩ := resolution_eq_ok hu
  rw [frontierPredicate_congr h.instances] at hfront
  refine ⟨fun k => ?_, fun N => (h.clears N).trans (hclosed.clears N),
    (update_instances hu).trans h.instances⟩
  obtain ⟨ws, hws, hpath⟩ := h.writes k
  obtain ⟨ws', hws', hpath'⟩ := hclosed.writes k
  -- a row resolved before is done, so nothing more happens to it
  have hdone : ∀ {ws m'}, Resolves m' → Path Step (view db k) (ws ++ [.move m']) (view db₁ k) →
      ∃ l, view db₁ k = some l ∧ l.state = .done := by
    intro ws m' hm' hp
    obtain ⟨v, -, hlast⟩ := Path.append_iff.mp hp
    rw [Path.single_iff] at hlast
    generalize hv : view db₁ k = v' at hlast
    cases hlast
    exact ⟨_, rfl, hm'.state⟩
  cases hws' with
  | untouched =>
    rw [Path.nil_iff.mp hpath'] at hpath
    exact ⟨ws, hws, hpath⟩
  | source =>
    subst hb
    rw [Path.single_iff] at hpath'
    refine ⟨ws ++ [.move m], ?_, hpath.snoc hpath'⟩
    cases hws with
    | receipts hw => exact .resolved (fun w h => .inl (hw w h)) hq hm hfront
    | released hw hx hp =>
      refine .resolved (fun w h => ?_) hq hm hfront
      rcases List.mem_append.mp h with h | h
      · exact .inl (hw w h)
      · exact .inr (List.mem_singleton.mp h)
    | resolved hw hk hm' =>
      obtain ⟨l, hl, hs⟩ := hdone hm' hpath
      rw [hl] at hpath'
      generalize view db₂ c.blocker = v' at hpath'
      cases hpath' with
      | move ha =>
        have := (ha.reopening (by simp [hs, QueueState.isGuardedTerminal])).2.1
        simp [hm.reopen] at this
  | successor hc => simp [hsucc] at hc
  | @dependent _ r o hk hr hs hb' ho =>
    have ho : o = none := by
      simpa [Closing.rebinds, hterm] using ho
    subst ho
    rw [Path.single_iff] at hpath'
    refine ⟨ws ++ [.unpark], ?_, hpath.snoc hpath'⟩
    cases hws with
    | receipts hw =>
      refine .released hw hq ?_
      rw [← hb, ← parked_view]
      have hv := view_of_getById hr
      rw [hv] at hpath
      cases hv₀ : view db k with
      | none =>
        rw [hv₀] at hpath
        cases ws with
        | nil => cases Path.nil_iff.mp hpath
        | cons w ws =>
          obtain ⟨t, hstep, -⟩ := Path.cons_iff.mp hpath
          obtain rfl := hw w List.mem_cons_self
          cases hstep
      | some l =>
        rw [hv₀] at hpath
        obtain ⟨l', hl', hst, hbl, -⟩ := notes_keep hpath hw
        cases hl'
        exact ⟨l, hv₀, hst.symm.trans hs, hbl.symm.trans hb'⟩
    | released hw hx hp =>
      obtain ⟨v, -, hlast⟩ := Path.append_iff.mp hpath
      rw [Path.single_iff] at hlast
      rw [view_of_getById hr] at hlast
      generalize hl : lifeOf r (marks db₁ k) = l at hlast
      cases hlast
      have := congrArg Life.state hl
      simp [lifeOf, hs] at this
    | resolved hw hk' hm' =>
      obtain ⟨l, hl, hst⟩ := hdone hm' hpath
      rw [view_of_getById hr] at hl
      cases hl
      have hst : r.state = .done := hst
      simp [hs] at hst

lemma resolution_dead {env : Env} {db db' : Db} {j q b : String}
    (hu : update env db (resolutionInput j q) = .ok db') (hb : b = q ∨ ¬ live (view db) b) :
    ¬ live (view db') b := by
  obtain ⟨m, c, hm, hq, hterm, hsucc, hclosed, -⟩ := resolution_eq_ok hu
  by_cases hne : b = q
  · subst hne
    rintro ⟨l, hl, hlive⟩
    have hstep := hclosed.source
    rw [hq, hl] at hstep
    generalize view db b = u at hstep
    cases hstep
    have hlive : m.state.isBlockerLive = true := hlive
    simp [hm.state, QueueState.isBlockerLive] at hlive
  · exact hclosed.dead_other hsucc (hq ▸ hne) (hb.resolve_left hne)

lemma FiringEffect.resolveAll {env : Env} {db db₁ db₂ : Db} {targets : List String} {j : String}
    {us : List (String × ParkWake)} (h : FiringEffect db db₁ targets)
    (hus : ∀ t ∈ us, t.1 ∈ targets)
    (hu : us.foldlM (fun db t => update env db (resolutionInput j t.1)) db₁ = .ok db₂) :
    FiringEffect db db₂ targets ∧
      ∀ b, (b ∈ us.map Prod.fst ∨ ¬ live (view db₁) b) → ¬ live (view db₂) b := by
  have hpath := path_of_foldlM hu
  refine ⟨hpath.invariant_of_labels (I := fun db' => FiringEffect db db' targets)
    (fun _ _ _ ht hstep hI => hI.resolve ht hstep) hus h, ?_⟩
  clear hu h
  induction hpath with
  | nil => simp
  | @cons d d' d'' t us hstep _ ih =>
    intro b hb
    refine ih (fun t ht => hus t (List.mem_cons_of_mem _ ht)) b ?_
    simp only [List.map_cons, List.mem_cons] at hb
    rcases hb with (rfl | hb) | hb
    · exact .inr (resolution_dead hstep (.inl rfl))
    · exact .inl hb
    · exact .inr (resolution_dead hstep (.inr hb))

/-- **A firing**, row by row: it closes what it resolves. -/
theorem accountWake_effect {env : Env} {db db' : Db} {a : WakeAttempt}
    (h : accountWake env db a = .ok db') :
    FiringEffect db db' (resolvedTargets db a) ∧
      ∀ b ∈ resolvedTargets db a, ¬ live (view db') b := by
  have hself : ∀ targets, FiringEffect db db targets :=
    fun _ => ⟨fun k => ⟨[], .receipts (by simp), .nil _⟩, fun N => .refl _, rfl⟩
  unfold accountWake at h
  split at h
  · rename_i hactive
    unfold recordWatchdogWakeAttempt at h
    split at h
    · rename_i hnone
      cases pure_eq_ok.mp h
      -- with nothing parked on the job there is nothing to resolve
      refine ⟨hself _, fun b hb => ?_⟩
      obtain ⟨w, hw, -⟩ := mem_resolvedTargets hb
      rw [List.isEmpty_iff.mp hnone] at hw
      cases hw
    · simp only at h
      have hblocked : ∀ t ∈ findBlockedQitemsByWatchdog db a.jobId true,
        isBlocked db t.1 = true := by
        intro t ht
        unfold findBlockedQitemsByWatchdog at ht
        rw [List.mem_dedup] at ht
        obtain ⟨w, hw, rfl⟩ := List.mem_map.mp ht
        have hp := (List.mem_filter.mp hw).2
        simp only [Bool.and_eq_true] at hp
        exact hp.1.1
      obtain ⟨-, hins, hrows⟩ := receipts_view env a _ db hblocked
      have hreceipts : ∀ targets, FiringEffect db
          ((findBlockedQitemsByWatchdog db a.jobId true).foldl (recordFired env a) db) targets := by
        refine fun targets => ⟨fun k => ?_, fun N => clears_of_calm fun k => ?_, hins⟩
        · obtain ⟨ws, hw, hpath⟩ := hrows k
          exact ⟨ws, .receipts hw, hpath⟩
        · obtain ⟨ws, hw, hpath⟩ := hrows k
          refine ⟨ws, fun w h => ?_, hpath⟩
          rw [hw w h]
          trivial
      have hjobs : ∀ jobs targets, FiringEffect db
          (((findBlockedQitemsByWatchdog db a.jobId true).foldl (recordFired env a)
            db).setJobs jobs)
          targets :=
        fun jobs targets => ⟨(hreceipts targets).writes, (hreceipts targets).clears, hins⟩
      split at h
      · rename_i howed
        cases pure_eq_ok.mp h
        refine ⟨hreceipts _, fun b hb => ?_⟩
        simp only [Bool.or_eq_true, decide_eq_true_eq] at howed
        rcases howed with ho | ho
        · obtain ⟨t, ht⟩ := Option.isSome_iff_exists.mp ho
          simp [resolvedTargets, ht] at hb
        · simp [resolvedTargets, ho] at hb
      · rename_i howed
        simp only [Bool.or_eq_true, decide_eq_true_eq, not_or] at howed
        have htargets : resolvedTargets db a = ((findBlockedQitemsByWatchdog db a.jobId true).filter
            fun t => isUsageLimitBlocker db t.1).map Prod.fst := by
          have hretry : a.retryAt = none := by simpa using howed.1
          simp [resolvedTargets, hactive, hretry, howed.2]
        split at h
        · rename_i hnone
          cases pure_eq_ok.mp h
          obtain ⟨jobs, hj⟩ := settleFiredJob_eq env a
            (!(findCurrentQitemsByGeneratedTimer db a.jobId).isEmpty)
            ((findBlockedQitemsByWatchdog db a.jobId true).foldl (recordFired env a) db)
          rw [hj, htargets, List.isEmpty_iff.mp hnone]
          exact ⟨hjobs jobs _, by simp⟩
        · rw [htargets]
          obtain ⟨heffect, hdead⟩ := (hjobs _ _).resolveAll (fun t ht => List.mem_map_of_mem ht) h
          exact ⟨heffect, fun b hb => hdead b (.inl hb)⟩
  · rename_i hactive
    cases pure_eq_ok.mp h
    exact ⟨hself _, fun b hb => by simp [resolvedTargets, hactive] at hb⟩

/-! ### Every operation -/

/-- The one row an operation writes, and the write. -/
inductive OneWrite (env : Env) (db : Db) : Op → String → RowWrite → Prop
  | create {i : QueueCreateInput} {s : QueueItem} (hs : NewRow env i s) :
      OneWrite env db (.create i) s.qitemId (.insert (s.chainOfRecord.getD []))
  | claim {i : QueueClaimInput} : OneWrite env db (.claim i) i.qitemId .claim
  | unclaim {i : QueueUnclaimInput} : OneWrite env db (.unclaim i) i.qitemId .release
  | note {i : QueueUpdateInput} : OneWrite env db (.update i) i.qitemId .note
  | move {i : QueueUpdateInput} {qitem : QueueItem} {state : QueueState} {plan : UpdatePlan}
      (hr : db.getById i.qitemId = some qitem) (hstate : i.state = some state)
      (hplan : PlanAdmitted env db qitem state i plan) (hlive : state.isBlockerLive = true) :
      OneWrite env db (.update i) i.qitemId (.move (moveOf qitem plan i))
  | routeToFallback {i : FallbackInput} {line : String} :
      OneWrite env db (.routeToFallback i) i.qitemId (.reroute line)

/-- The operations that close a row, with the close they are. -/
inductive ClosingOp (env : Env) (db : Db) : Op → Closing → RowWrite → Prop
  | handoff {i : QueueHandoffInput} : ClosingOp env db (.handoff i)
      ⟨i.qitemId, .handedOff, i.toSession, true⟩ (.close .handedOff i.toSession)
  | handoffAndComplete {i : QueueHandoffInput} : ClosingOp env db (.handoffAndComplete i)
      ⟨i.qitemId, .done, i.toSession, true⟩ (.close .done i.toSession)
  | closeCrossHost {i : CrossHostCloseInput} {source : QueueItem}
      (hr : db.getById i.qitemId = some source) (hopen : source.state.isTerminalState = false) :
      ClosingOp env db (.closeCrossHost i)
      ⟨i.qitemId, i.terminalState.toQueueState, i.toSession, false⟩
      (.close i.terminalState.toQueueState i.closureTarget)
  | update {i : QueueUpdateInput} {qitem : QueueItem} {state : QueueState} {plan : UpdatePlan}
      (hr : db.getById i.qitemId = some qitem) (hstate : i.state = some state)
      (hplan : PlanAdmitted env db qitem state i plan)
      (hmove : isStatePreservingAppend qitem i = false) (hdead : state.isBlockerLive = false) :
      ClosingOp env db (.update i) (closingOf qitem plan i) (.move (moveOf qitem plan i))

/-- The acts on a generation's claims, with the write each claim goes through. -/
inductive SweepOp : Op → RowWrite → Prop
  | releaseClaims {g : String} : SweepOp (.releaseClaims g) .release
  | transferClaims {a b note : String} : SweepOp (.transferClaims a b note) .note

/-- What a committed operation did to the rows. -/
inductive Outcome (env : Env) (db db' : Db) (op : Op) : Prop
  | still (hv : view db' = view db)
  | one {k : String} {w : RowWrite} (ho : OneWrite env db op k w) (ht : Touched db db' k w)
  | closing {c : Closing} {w : RowWrite} (ho : ClosingOp env db op c w)
      (hc : ClosedWith db db' c w)
  | sweep {w : RowWrite} (ho : SweepOp op w) (hw : ∀ k, view db' k = view db k ∨
      (inProgressRow db k ∧ Step (view db k) w (view db' k)))
  | firing {a : WakeAttempt} (ho : op = .wakeAttempt a)
      (hf : FiringEffect db db' (resolvedTargets db a))
      (hdead : ∀ b ∈ resolvedTargets db a, ¬ live (view db') b)

lemma refreshQueueWait_eq (env : Env) (changed : Option String) (proof : Bool) (db : Db)
    (j : String) : ∃ jobs, refreshQueueWait env changed proof db j = db.setJobs jobs := by
  unfold refreshQueueWait
  dsimp only
  repeat' split
  all_goals first | exact ⟨db.jobs, rfl⟩ | exact ⟨_, rfl⟩

lemma refreshQueueWaits_eq (env : Env) (changed : Option String) (proof : Bool) (db : Db) :
    ∃ jobs, refreshQueueWaits env changed proof db = db.setJobs jobs := by
  unfold refreshQueueWaits
  refine (path_of_foldl (refreshQueueWait env changed proof) _ db).invariant
    (I := fun d => ∃ jobs, d = db.setJobs jobs) ?_ ⟨db.jobs, rfl⟩
  rintro _ j _ rfl ⟨jobs, rfl⟩
  obtain ⟨jobs', h⟩ := refreshQueueWait_eq env changed proof (db.setJobs jobs) j
  exact ⟨jobs', h⟩

lemma terminalBeforeDelivery_eq (db : Db) (j : String) :
    ∃ jobs, terminalBeforeDelivery db j = db.setJobs jobs := by
  unfold terminalBeforeDelivery
  split
  · split
    · exact ⟨_, rfl⟩
    · exact ⟨db.jobs, rfl⟩
  · exact ⟨db.jobs, rfl⟩

lemma map_snd_eq_ok {α : Type} {x : Result (α × Db)} {db : Db} (h : x.map Prod.snd = .ok db) :
    ∃ a, x = .ok (a, db) := by
  cases x with
  | error e => cases h
  | ok p =>
    obtain ⟨a, db₁⟩ := p
    cases h
    exact ⟨a, rfl⟩

/-- **What an operation can do.** -/
theorem exec_outcome {env : Env} {db db' : Db} {op : Op} (h : exec env db op = .ok db') :
    Outcome env db db' op := by
  cases op with
  | create i =>
    obtain ⟨reply, h⟩ := map_snd_eq_ok h
    rcases create_inserted h with ⟨r, b, -, rfl, -⟩ | ⟨-, s, hs, hins⟩
    · exact .still rfl
    · exact .one (.create hs) hins.touched
  | claim i => exact .one .claim (claim_touched h)
  | unclaim i => exact .one .unclaim (unclaim_touched h)
  | update i =>
    cases update_eq_ok h with
    | append _ _ _ ht => exact .one .note ht
    | move hr hstate hplan hlive ht => exact .one (.move hr hstate hplan hlive) ht
    | close hr hstate hplan hmove hdead hc =>
      exact .closing (.update hr hstate hplan hmove hdead) hc
  | handoff i => exact .closing .handoff (handoffWith_closedWith rfl h)
  | handoffAndComplete i => exact .closing .handoffAndComplete (handoffWith_closedWith rfl h)
  | closeCrossHost i =>
    obtain ⟨absorbed, h⟩ := map_snd_eq_ok h
    cases absorbed with
    | false =>
      obtain ⟨source, hr, ⟨hf, -⟩ | ⟨-, hopen, -⟩⟩ := closeCrossHost_eq_ok h
      · cases hf
      · exact .closing (.closeCrossHost hr hopen) (closeCrossHost_closedWith h)
    | true =>
      obtain ⟨-, -, ⟨-, rfl, -⟩ | ⟨hf, -⟩⟩ := closeCrossHost_eq_ok h
      · exact .still rfl
      · cases hf
  | routeToFallback i =>
    obtain ⟨seat, ht⟩ := routeToFallback_touched h
    exact .one .routeToFallback ht
  | releaseClaims g =>
    cases pure_eq_ok.mp h
    exact .sweep .releaseClaims (releaseClaims_view env db g)
  | transferClaims a b note =>
    cases pure_eq_ok.mp h
    exact .sweep .transferClaims (transferClaims_view env db a b note)
  | wakeAttempt a => exact .firing rfl (accountWake_effect h).1 (accountWake_effect h).2
  | terminalBeforeDelivery j =>
    cases pure_eq_ok.mp h
    obtain ⟨jobs, hj⟩ := terminalBeforeDelivery_eq db j
    exact .still (by rw [hj, view_setJobs])
  | refreshWaits changed proof =>
    cases pure_eq_ok.mp h
    obtain ⟨jobs, hj⟩ := refreshQueueWaits_eq env changed proof db
    exact .still (by rw [hj, view_setJobs])
  | job op =>
    cases hj : execJob env db.jobs op with
    | error e => simp [exec, hj, Except.map] at h
    | ok jobs =>
      obtain rfl : db.setJobs jobs = db' := by simpa [exec, hj, Except.map] using h
      exact .still (view_setJobs _ _)

/-- **No queue operation writes a workflow instance.** -/
theorem exec_instances {env : Env} {db db' : Db} {op : Op} (h : exec env db op = .ok db') :
    db'.instances = db.instances := by
  cases op with
  | create i =>
    obtain ⟨reply, h⟩ := map_snd_eq_ok h
    rcases create_inserted h with ⟨r, b, -, rfl, -⟩ | ⟨-, s, -, hins⟩
    · rfl
    · exact hins.instances
  | claim i =>
    replace h : claim env db i = .ok db' := h
    unfold claim at h
    obtain ⟨_, -, h⟩ := bind_eq_ok.mp h
    obtain ⟨_, -, h⟩ := bind_eq_ok.mp h
    obtain ⟨_, -, h⟩ := bind_eq_ok.mp h
    cases pure_eq_ok.mp h
    rw [Db.instances_emit, instances_retireParkGeneratedTimer]
    rfl
  | unclaim i =>
    replace h : unclaim env db i = .ok db' := h
    unfold unclaim at h
    obtain ⟨_, -, h⟩ := bind_eq_ok.mp h
    obtain ⟨_, -, h⟩ := bind_eq_ok.mp h
    cases pure_eq_ok.mp h
    rfl
  | update i => exact update_instances h
  | handoff i =>
    obtain ⟨_, note, s, db₂, db₃, e, -, -, hs, -, -, -, hprop, rfl⟩ := handoffWith_eq_ok h
    rw [Db.instances_emit, propagate_instances hprop, hs.instances, instances_closeSource]
  | handoffAndComplete i =>
    obtain ⟨_, note, s, db₂, db₃, e, -, -, hs, -, -, -, hprop, rfl⟩ := handoffWith_eq_ok h
    rw [Db.instances_emit, propagate_instances hprop, hs.instances, instances_closeSource]
  | closeCrossHost i =>
    obtain ⟨absorbed, h⟩ := map_snd_eq_ok h
    obtain ⟨_, -, ⟨-, rfl, -⟩ | ⟨-, -, note, e, hprop⟩⟩ := closeCrossHost_eq_ok h
    · rfl
    · rw [propagate_instances hprop, Db.instances_emit, instances_closeSource]
  | routeToFallback i =>
    replace h : routeToFallback env db i = .ok db' := h
    unfold routeToFallback at h
    obtain ⟨_, -, h⟩ := bind_eq_ok.mp h
    cases pure_eq_ok.mp h
    simp only [Db.instances_emit, Db.instances_append]
    split
    · rfl
    · rw [instances_retireParkGeneratedTimer]
      rfl
  | releaseClaims g =>
    cases pure_eq_ok.mp h
    unfold releaseClaimsByGeneration
    split
    · rfl
    · exact (path_of_foldl (releaseClaim env) (claimsOfGeneration db g) db).invariant
        (I := fun d => d.instances = db.instances) (fun _ _ _ hR hI => hR ▸ hI) rfl
  | transferClaims a b note =>
    cases pure_eq_ok.mp h
    unfold transferClaimsByGeneration
    split
    · rfl
    · exact (path_of_foldl (transferClaim env b note) (claimsOfGeneration db a) db).invariant
        (I := fun d => d.instances = db.instances) (fun _ _ _ hR hI => hR ▸ hI) rfl
  | wakeAttempt a => exact (accountWake_effect h).1.instances
  | terminalBeforeDelivery j =>
    cases pure_eq_ok.mp h
    obtain ⟨jobs, hj⟩ := terminalBeforeDelivery_eq db j
    rw [hj, Db.instances_setJobs]
  | refreshWaits changed proof =>
    cases pure_eq_ok.mp h
    obtain ⟨jobs, hj⟩ := refreshQueueWaits_eq env changed proof db
    rw [hj, Db.instances_setJobs]
  | job op =>
    cases hj : execJob env db.jobs op with
    | error e => simp [exec, hj, Except.map] at h
    | ok jobs =>
      obtain rfl : db.setJobs jobs = db' := by simpa [exec, hj, Except.map] using h
      rfl

/-! ### Row by row -/

/-- The writes one row goes through in an operation. -/
inductive Touches (env : Env) (db : Db) (op : Op) (k : String) : List RowWrite → Prop
  | untouched : Touches env db op k []
  | one {w : RowWrite} (ho : OneWrite env db op k w) : Touches env db op k [w]
  | closing {c : Closing} {w : RowWrite} {ws : List RowWrite} (ho : ClosingOp env db op c w)
      (hw : ClosingWrites db c w k ws) : Touches env db op k ws
  | sweep {w : RowWrite} (ho : SweepOp op w) (hk : inProgressRow db k) : Touches env db op k [w]
  | firing {a : WakeAttempt} {ws : List RowWrite} (ho : op = .wakeAttempt a)
      (hw : FiringWrites db (resolvedTargets db a) k ws) : Touches env db op k ws

/-- **The refinement**: every operation takes every row through writes of its life cycle. -/
theorem exec_touches {env : Env} {db db' : Db} {op : Op} (h : exec env db op = .ok db')
    (k : String) :
    ∃ ws, Touches env db op k ws ∧ Path Step (view db k) ws (view db' k) := by
  cases exec_outcome h with
  | still hv => exact ⟨[], .untouched, by simp [hv]⟩
  | @one k₀ w ho ht =>
    by_cases hk : k = k₀
    · subst hk
      exact ⟨[w], .one ho, .single ht.1⟩
    · exact ⟨[], .untouched, by simp [ht.2 k hk]⟩
  | closing ho hc =>
    obtain ⟨ws, hws, hpath⟩ := hc.writes k
    exact ⟨ws, .closing ho hws, hpath⟩
  | sweep ho hw =>
    rcases hw k with hv | ⟨hp, hstep⟩
    · exact ⟨[], .untouched, by simp [hv]⟩
    · exact ⟨_, .sweep ho hp, .single hstep⟩
  | firing ho hf _ =>
    obtain ⟨ws, hws, hpath⟩ := hf.writes k
    exact ⟨ws, .firing ho hws, hpath⟩

def activeRow (db : Db) (b : String) : Prop :=
  ∃ r, db.getById b = some r ∧ r.state.isBlockerLive = true

/-- The names a park may not outlive: queue item ids that are no person's address. -/
def itemName (env : Env) (b : String) : Prop :=
  startsWith b "qitem-" = true ∧ isPersonAddress env.humanRegistry b = false

lemma one_live {env : Env} {db db' : Db} {op : Op} {k : String} {w : RowWrite}
    (ho : OneWrite env db op k w) (ht : Touched db db' k w) {b : String}
    (hb : live (view db) b) : live (view db') b := by
  by_cases hk : b = k
  · subst hk
    by_cases hcalm : w.calm
    · exact ht.1.calm_live hcalm hb
    · cases ho with
      | @move i qitem state plan hr hstate hplan hlive =>
        have hstep := ht.1
        rw [view_of_getById hr] at hstep
        generalize hv' : view db' i.qitemId = v' at hstep
        cases hstep
        exact ⟨_, hv', (congrArg QueueState.isBlockerLive hplan.state_eq).trans hlive⟩
      | _ => exact absurd trivial hcalm
  · unfold live
    rw [ht.2 b hk]
    exact hb

/-- **Every operation clears what it closes.** -/
theorem exec_clears {env : Env} {db db' : Db} {op : Op} (h : exec env db op = .ok db') :
    Clears (itemName env) (view db) (view db') := by
  cases exec_outcome h with
  | still hv => exact hv ▸ .refl _
  | @one k₀ w ho ht =>
    refine ⟨fun b _ hb hdead => absurd (one_live ho ht hb) hdead, fun k b hb hp => ?_⟩
    by_cases hk : k = k₀
    · subst hk
      by_cases hcalm : w.calm
      · exact .inl (ht.1.calm_parked hcalm hp)
      · cases ho with
        | @move i qitem state plan hr hstate hplan hlive =>
          -- a new park is on a live blocker, which no write of this operation closes
          obtain ⟨l, hl, hs, hbl⟩ := hp
          have hstep := ht.1
          rw [view_of_getById hr] at hstep
          generalize hv' : view db' i.qitemId = v' at hstep
          cases hstep
          cases hv'.symm.trans hl
          have hs : plan.state = .blocked := hs
          have hbl : (if plan.state = .blocked then plan.blocker else none) = some b := hbl
          rw [if_pos hs] at hbl
          exact .inr (one_live (.move hr hstate hplan hlive) ht (live_view.mpr
            (hplan.live (hplan.state_eq.symm.trans hs) b hbl hb.2 hb.1)))
        | _ => exact absurd trivial hcalm
    · left
      unfold parked
      rw [← ht.2 k hk]
      exact hp
  | closing _ hc => exact hc.clears _
  | sweep ho hw =>
    refine clears_of_calm fun k => ?_
    rcases hw k with hv | ⟨-, hstep⟩
    · exact ⟨[], by simp, by simp [hv]⟩
    · refine ⟨[_], ?_, .single hstep⟩
      cases ho <;> simp [RowWrite.calm]
  | firing _ hf => exact hf.clears _

/-! ### The handoff family -/

/-- The row a handoff-family operation closes. -/
def handoffSource : Op → Option String
  | .handoff i => some i.qitemId
  | .handoffAndComplete i => some i.qitemId
  | .closeCrossHost i => some i.qitemId
  | _ => none

lemma ClosingOp.handoffSource_eq {env : Env} {db : Db} {op : Op} {c : Closing} {w : RowWrite}
    (h : ClosingOp env db op c w) {t : QueueState} {target : String} (hw : w = .close t target) :
    handoffSource op = some c.blocker := by
  subst hw
  cases h <;> rfl

/-- The close an operation runs, if it runs one. -/
def closeOf (db : Db) : Op → Option Closing
  | .handoff i => some ⟨i.qitemId, .handedOff, i.toSession, true⟩
  | .handoffAndComplete i => some ⟨i.qitemId, .done, i.toSession, true⟩
  | .closeCrossHost i => match db.getById i.qitemId with
    | some r => if r.state.isTerminalState then none
      else some ⟨i.qitemId, i.terminalState.toQueueState, i.toSession, false⟩
    | none => none
  | .update i => match db.getById i.qitemId, i.state with
    | some r, some s => if s.isBlockerLive || isStatePreservingAppend r i then none
      else some ⟨i.qitemId, s, (i.handedOffTo <|> r.handedOffTo).getD "", false⟩
    | _, _ => none
  | _ => none

lemma ClosingOp.closeOf_eq {env : Env} {db : Db} {op : Op} {c : Closing} {w : RowWrite}
    (h : ClosingOp env db op c w) : closeOf db op = some c := by
  cases h with
  | handoff => rfl
  | handoffAndComplete => rfl
  | closeCrossHost hr hopen => simp [closeOf, hr, hopen]
  | update hr hstate hplan hmove hdead =>
    simp [closeOf, hr, hstate, hmove, hdead, closingOf, hplan.state_eq]

lemma closedWith_of_closeOf {env : Env} {db db' : Db} {op : Op} (h : exec env db op = .ok db')
    {c : Closing} (hc : closeOf db op = some c) : ∃ w, ClosedWith db db' c w := by
  cases op with
  | handoff i =>
    cases hc
    exact ⟨_, handoffWith_closedWith rfl h⟩
  | handoffAndComplete i =>
    cases hc
    exact ⟨_, handoffWith_closedWith rfl h⟩
  | closeCrossHost i =>
    obtain ⟨absorbed, h⟩ := map_snd_eq_ok h
    obtain ⟨source, hr, ⟨-, -, hterm, -⟩ | ⟨rfl, hopen, -⟩⟩ := closeCrossHost_eq_ok h
    · simp [closeOf, hr, hterm] at hc
    · simp only [closeOf, hr, hopen, Bool.false_eq_true, if_false, Option.some.injEq] at hc
      subst hc
      exact ⟨_, closeCrossHost_closedWith h⟩
  | update i =>
    cases update_eq_ok h with
    | append hr hkeep => cases hs : i.state <;> simp [closeOf, hr, hkeep, hs] at hc
    | move hr hstate hplan hlive => simp [closeOf, hr, hstate, hlive] at hc
    | close hr hstate hplan hmove hdead hclosed =>
      have := (ClosingOp.update hr hstate hplan hmove hdead).closeOf_eq
      cases hc.symm.trans this
      exact ⟨_, hclosed⟩
  | _ => cases hc

lemma handoff_closes {env : Env} {db db' : Db} {op : Op} (h : exec env db op = .ok db') {k : String}
    (hk : handoffSource op = some k) {r : QueueItem} (hr : db.getById k = some r)
    (hopen : r.state.isTerminalState = false) :
    ∃ t target, t.isTerminalState = true ∧ Step (view db k) (.close t target) (view db' k) := by
  cases op with
  | handoff i =>
    cases hk
    exact ⟨_, _, rfl, (handoffWith_closedWith rfl h).source⟩
  | handoffAndComplete i =>
    cases hk
    exact ⟨_, _, rfl, (handoffWith_closedWith rfl h).source⟩
  | closeCrossHost i =>
    cases hk
    obtain ⟨absorbed, h⟩ := map_snd_eq_ok h
    cases absorbed with
    | false => exact ⟨_, _, CloseState.isTerminalState _, (closeCrossHost_closedWith h).source⟩
    | true =>
      obtain ⟨source, hs, ⟨-, -, hterm, -⟩ | ⟨hf, -⟩⟩ := closeCrossHost_eq_ok h
      · cases hr.symm.trans hs
        simp [hopen] at hterm
      · cases hf
  | _ => cases hk

lemma Touches.close_mem {env : Env} {db : Db} {op : Op} {k : String} {ws : List RowWrite}
    (h : Touches env db op k ws) {t : QueueState} {target : String}
    (hw : RowWrite.close t target ∈ ws) :
    handoffSource op = some k ∧ ws = [.close t target] := by
  cases h with
  | untouched => simp at hw
  | one ho =>
    obtain rfl := List.mem_singleton.mp hw
    cases ho
  | closing ho hcw =>
    cases hcw with
    | untouched => simp at hw
    | source =>
      obtain rfl := List.mem_singleton.mp hw
      exact ⟨ho.handoffSource_eq rfl, rfl⟩
    | successor => simp at hw
    | @dependent _ r o => cases o <;> simp [dependentWrite] at hw
  | sweep ho =>
    obtain rfl := List.mem_singleton.mp hw
    cases ho
  | firing ho hf =>
    cases hf with
    | receipts hn => cases hn _ hw
    | released hn =>
      rcases List.mem_append.mp hw with h | h
      · cases hn _ h
      · cases List.mem_singleton.mp h
    | resolved hn =>
      rcases List.mem_append.mp hw with h | h
      · rcases hn _ h with h | h <;> cases h
      · cases List.mem_singleton.mp h

/-! ### Runs -/

def commits (db : Db) (l : Env × Op) (db' : Db) : Prop := exec l.1 db l.2 = .ok db'

/-- The operation commits, and met a condition on the tables before it. -/
def commitsWhen (C : Env → Db → Op → Prop) (db : Db) (l : Env × Op) (db' : Db) : Prop :=
  commits db l db' ∧ C l.1 db l.2

/-- The tables after a list of operations, unless one of them is refused. -/
def runOps (db : Db) (ls : List (Env × Op)) :
    Result Db := ls.foldlM (fun db l => exec l.1 db l.2) db

lemma exists_run (db : Db) (ls : List (Env × Op)) (p : Db → Bool)
    (h : (runOps db ls).toOption.any p = true) : ∃ db', Path commits db ls db' ∧ p db' = true :=
  exists_of_foldlM ls p h

lemma exists_commit {db : Db} {l : Env × Op} {p : Db → Bool}
    (h : (exec l.1 db l.2).toOption.any p = true) : ∃ db', commits db l db' ∧ p db' = true := by
  cases hr : exec l.1 db l.2 with
  | error e => simp [hr, Except.toOption] at h
  | ok db' => exact ⟨db', hr, by simpa [hr, Except.toOption] using h⟩

/-- A daemon at one instant, with nobody registered and no seat binding in force. -/
def plainEnv (now random : ℕ) (ulid : String) : Env where
  now := now
  random := random
  ulid := ulid
  validateRig _ := true
  humanRegistry := .ok []
  sharedChannels := []
  resolveSessionAddresses s := [s]
  resolveOccupantGeneration _ := none
  outboxAttached := true
  retentionTarget _ _ _ := none
  draftAwareTarget _ := none
  deliveryTarget _ := none
  wrapPaneEnvelope _ _ body _ _ := body
  renderQueueHandoffNudge id _ := id
  withUrgentLine body _ := body
  attentionRevision _ := none

/-- A row, and everything it had in its chain of record, outlives every run. -/
theorem row_persists {db db' : Db} {ls : List (Env × Op)} (h : Path commits db ls db') {k : String}
    {r : QueueItem} (hr : db.getById k = some r) :
    ∃ r', db'.getById k = some r' ∧ r.chainOfRecord.getD [] <+: r'.chainOfRecord.getD [] := by
  have : ∃ l, view db' k = some l ∧ (lifeOf r (marks db k)).chain <+: l.chain := by
    refine h.invariant (I := fun d => ∃ l, view d k = some l ∧
      (lifeOf r (marks db k)).chain <+: l.chain) ?_ ⟨_, view_of_getById hr, List.prefix_refl _⟩
    rintro d l d' hstep ⟨l₁, hl₁, hp₁⟩
    obtain ⟨ws, -, hpath⟩ := exec_touches hstep k
    rw [hl₁] at hpath
    obtain ⟨l₂, hl₂, hp₂⟩ := chain_prefix_of_path hpath
    exact ⟨l₂, hl₂, hp₁.trans hp₂⟩
  obtain ⟨l, hl, hp⟩ := this
  obtain ⟨r', hr', rfl⟩ := view_eq_some.mp hl
  exact ⟨r', hr', hp⟩

end OpenRig.Refinement
