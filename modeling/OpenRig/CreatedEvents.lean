import OpenRig.RowFrames

/-!
The rows a daemon has announced as new.

The operation that inserts a row persists its `queue.created` event in the same transaction, and no
other operation persists one. So a row is announced at most once, and only once it is there.
-/

namespace OpenRig.CreatedEvents

open OpenRig.JsText OpenRig.Closure OpenRig.QueueDb OpenRig.Outbox OpenRig.Watchdogs
  OpenRig.Verbs OpenRig.Handoff
open OpenRig.Update OpenRig.Firing OpenRig.Runs OpenRig.RowEffects OpenRig.Propagation
open OpenRig.Refinement OpenRig.RowFrames

def announced : RigEvent → Option String
  | .created qitemId .. => some qitemId
  | _ => none

/-- The rows announced as new, newest first. -/
def createdIds (db : Db) : List String := db.events.filterMap announced

section
variable {db db' db₁ : Db} {env : Env}

lemma createdIds_congr (h : db'.events = db.events) : createdIds db' = createdIds db := by
  unfold createdIds
  rw [h]

lemma createdIds_emit (db : Db) (e : RigEvent) :
    createdIds (db.emit e) = (announced e).toList ++ createdIds db := by
  unfold createdIds
  rw [Db.events_emit, List.filterMap_cons]
  cases announced e <;> rfl

lemma createdIds_emit_none {e : RigEvent} (he : announced e = none) :
    createdIds (db.emit e) = createdIds db := by
  rw [createdIds_emit, he]
  rfl

/-! ### The verbs that insert nothing -/

lemma propagate_createdIds {input : PropagateInput}
    (h : propagateBlockerCompletion env input db = .ok db') : createdIds db' = createdIds db := by
  refine (path_of_foldlM h).invariant (I := fun d => createdIds d = createdIds db) ?_ rfl
  intro d row d' hstep hI
  rw [← hI]
  unfold propagateRow at hstep
  split at hstep
  · cases pure_eq_ok.mp hstep
    unfold rebindRow
    dsimp only
    rw [createdIds_emit_none rfl]
    refine createdIds_congr ?_
    rw [Db.events_recordWake]
    split
    · rfl
    · rw [events_retireParkGeneratedTimer]
      rfl
  · obtain ⟨_, rfl, outbox, e, rfl, _, _, _, _, rfl⟩ := unparkRow_eq hstep
    rw [createdIds_emit_none rfl]
    refine createdIds_congr ?_
    rw [Db.events_setOutbox, events_retireParkGeneratedTimer]
    rfl

lemma closeSource_events (env : Env) (db : Db) (terminal : QueueState) (q a b target note : String)
    (p principal : Option String) :
    (closeSource env db terminal q a b target note p principal).events = db.events := by
  unfold closeSource
  rw [events_retireParkGeneratedTimer]
  rfl

lemma settleParkWake_events (db : Db) (qitem : QueueItem) (plan : UpdatePlan)
    (parkWake : Option ParkWake) (n : ℕ) :
    (settleParkWake db qitem plan parkWake n).events = db.events := by
  unfold settleParkWake
  cases parkWake with
  | some wake =>
    dsimp only
    split
    · rw [Db.events_recordWake, events_retireParkGeneratedTimer]
    · rfl
  | none =>
    dsimp only
    split
    · rw [events_retireParkGeneratedTimer]
    · rfl

lemma appendOnly_createdIds {qitem : QueueItem} {input : QueueUpdateInput} {deadline : Option Time}
    (h : appendOnly env db qitem input deadline = .ok db') : createdIds db' = createdIds db := by
  unfold appendOnly at h
  obtain ⟨-, -, h⟩ := bind_eq_ok.mp h
  split at h
  · split at h
    · obtain ⟨-, -, h⟩ := bind_eq_ok.mp h
      simp at h
    · simp at h
  · cases pure_eq_ok.mp h
    rw [createdIds_emit_none rfl]
    refine createdIds_congr ?_
    rw [Db.events_append]
    split
    · split <;> rfl
    · split <;> rfl

lemma update_createdIds {input : QueueUpdateInput} (h : update env db input = .ok db') :
    createdIds db' = createdIds db := by
  unfold update at h
  obtain ⟨qitem, -, h⟩ := bind_eq_ok.mp h
  obtain ⟨deadline, -, h⟩ := bind_eq_ok.mp h
  split at h
  · exact appendOnly_createdIds h
  · split at h
    · exact appendOnly_createdIds h
    · obtain ⟨plan, -, h⟩ := bind_eq_ok.mp h
      obtain ⟨⟨wake, jobs⟩, -, h⟩ := bind_eq_ok.mp h
      unfold applyUpdate at h
      simp only at h
      split at h
      · obtain ⟨db₁, h₁, h⟩ := bind_eq_ok.mp h
        cases pure_eq_ok.mp h
        cases pure_eq_ok.mp h₁
        rw [createdIds_emit_none rfl]
        refine createdIds_congr ?_
        rw [settleParkWake_events]
        rfl
      · obtain ⟨db₁, h₁, h⟩ := bind_eq_ok.mp h
        cases pure_eq_ok.mp h
        rw [createdIds_emit_none rfl, propagate_createdIds h₁]
        refine createdIds_congr ?_
        rw [settleParkWake_events]
        rfl

lemma closeCrossHost_createdIds {input : CrossHostCloseInput} {absorbed : Bool}
    (h : closeCrossHostHandoffSource env db input = .ok (absorbed, db')) :
    createdIds db' = createdIds db := by
  unfold closeCrossHostHandoffSource at h
  obtain ⟨source, -, h⟩ := bind_eq_ok.mp h
  split at h
  · split at h
    · cases pure_eq_ok.mp h
      rfl
    · simp at h
  · obtain ⟨db₁, hprop, h⟩ := bind_eq_ok.mp h
    cases pure_eq_ok.mp h
    rw [propagate_createdIds hprop, createdIds_emit_none rfl]
    exact createdIds_congr (closeSource_events ..)

lemma recordFired_createdIds (env : Env) (a : WakeAttempt) (db : Db)
    (target : String × ParkWake) :
    createdIds (recordFired env a db target) = createdIds db := by
  unfold recordFired
  dsimp only
  rw [createdIds_emit_none rfl]
  refine createdIds_congr ?_
  split <;> rfl

lemma accountWake_createdIds {a : WakeAttempt} (h : accountWake env db a = .ok db') :
    createdIds db' = createdIds db := by
  have hfired : ∀ targets : List (String × ParkWake),
      createdIds (targets.foldl (recordFired env a) db) = createdIds db := fun targets =>
    (path_of_foldl (recordFired env a) targets db).invariant
      (I := fun d => createdIds d = createdIds db)
      (fun d t d' hd hI => by
        rw [← hd]
        exact (recordFired_createdIds env a d t).trans hI) rfl
  unfold accountWake at h
  split at h
  · unfold recordWatchdogWakeAttempt at h
    split at h
    · cases pure_eq_ok.mp h
      rfl
    · simp only at h
      split at h
      · cases pure_eq_ok.mp h
        exact hfired _
      · split at h
        · cases pure_eq_ok.mp h
          rw [← hfired]
          obtain ⟨jobs, hj⟩ := settleFiredJob_eq env a _ _
          rw [hj]
          rfl
        · exact (path_of_foldlM h).invariant (I := fun d => createdIds d = createdIds db)
            (fun d t d' hstep hI => (update_createdIds hstep).trans hI) (hfired _)
  · cases pure_eq_ok.mp h
    rfl

/-! ### The verbs that insert a row -/

/-- The row an insert announces: none, or one that was not there before. -/
def Announces (db db' : Db) : Prop :=
  createdIds db' = createdIds db ∨
    ∃ id, db.getById id = none ∧ (db'.getById id).isSome = true ∧
      createdIds db' = id :: createdIds db

lemma createInTransactionalContext_createdIds {input : QueueCreateInput}
    (h : createInTransactionalContext env db input = .ok db') :
    createdIds db' = input.id env :: createdIds db := by
  unfold createInTransactionalContext at h
  obtain ⟨-, -, h⟩ := bind_eq_ok.mp h
  obtain ⟨db₁, hins, h⟩ := bind_eq_ok.mp h
  obtain ⟨-, -, hdb⟩ := Db.insertRow_eq_ok hins
  cases pure_eq_ok.mp h
  rw [createdIds_emit]
  refine congrArg (input.id env :: ·) (createdIds_congr ?_)
  rw [Db.events_append, Db.events_updateRow, hdb]

lemma create_announces {input : QueueCreateInput} {reply : CreateReply}
    (h : create env db input = .ok (reply, db')) : Announces db db' := by
  rcases create_inserted h with ⟨_, _, -, rfl, -⟩ | ⟨hreply, s, hs, hins⟩
  · exact .inl rfl
  · refine .inr ⟨s.qitemId, hins.fresh, by rw [hins.getById_self]; rfl, ?_⟩
    unfold create at h
    obtain ⟨-, -, h⟩ := bind_eq_ok.mp h
    split at h
    · rename_i htxn
      cases pure_eq_ok.mp h
      unfold createTxn at htxn
      obtain ⟨db₁, h₁, htxn⟩ := bind_eq_ok.mp htxn
      rw [hs.qitemId, ← createInTransactionalContext_createdIds h₁]
      split at htxn
      · simp only at htxn
        split at htxn
        · rename_i hst
          cases pure_eq_ok.mp htxn
          rw [stageWakeIntent_db hst]
          rfl
        · cases pure_eq_ok.mp htxn
          rfl
      · cases pure_eq_ok.mp htxn
        rfl
    · split at h
      · cases h
      · split at h
        · cases h
        · split at h
          · cases pure_eq_ok.mp h
            cases hreply
          · simp at h

lemma stageHandoffWake_createdIds {q a b : String} {p : Option String} {n : Option Bool}
    (h : stageHandoffWake env db q a b p n = .ok db') : createdIds db' = createdIds db := by
  unfold stageHandoffWake at h
  split at h
  · rename_i hst
    cases h
    rw [stageWakeIntent_db hst]
    rfl
  · split at h
    · cases h
      rfl
    · cases h

lemma handoffWith_announces {variant : HandoffVariant} {input : QueueHandoffInput}
    (h : handoffWith variant env db input = .ok db') : Announces db db' := by
  obtain ⟨_, note, s, db₂, db₃, _, -, -, hins, hid, -, -, hprop, hdb⟩ := handoffWith_eq_ok h
  have hclosed : Edits (fun _ => True) db (closeSource env db variant.terminalState input.qitemId
      input.fromSession input.toSession input.toSession note input.identityProvenance
      input.identityPrincipal) :=
    .of_map (closeSource_rows ..) (fun _ => rfl) (fun _ => rfl) trivial
  have hfresh : db.getById (newQitemId env) = none := by
    rw [← hid]
    by_contra hthere
    have := hclosed.isSome (Option.ne_none_iff_isSome.mp hthere)
    rw [hins.fresh] at this
    cases this
  have hthere : (db'.getById (newQitemId env)).isSome = true := by
    rw [hdb, Db.getById_emit]
    refine (propagate_edits hprop).isSome ?_
    rw [← hid, hins.getById_self]
    rfl
  refine .inr ⟨newQitemId env, hfresh, hthere, ?_⟩
  unfold handoffWith at h
  obtain ⟨source, -, h⟩ := bind_eq_ok.mp h
  obtain ⟨-, -, h⟩ := bind_eq_ok.mp h
  obtain ⟨-, -, h⟩ := bind_eq_ok.mp h
  obtain ⟨-, -, h⟩ := bind_eq_ok.mp h
  obtain ⟨db₄, hrow, h⟩ := bind_eq_ok.mp h
  obtain ⟨db₅, hst, h⟩ := bind_eq_ok.mp h
  obtain ⟨db₆, hprop, h⟩ := bind_eq_ok.mp h
  obtain ⟨-, -, h⟩ := bind_eq_ok.mp h
  obtain ⟨-, -, hdb₄⟩ := Db.insertRow_eq_ok hrow
  cases pure_eq_ok.mp h
  rw [createdIds_emit, propagate_createdIds hprop, createdIds_emit_none rfl,
    stageHandoffWake_createdIds hst]
  refine congrArg (newQitemId env :: ·) (createdIds_congr ?_)
  rw [Db.events_append, hdb₄]
  exact closeSource_events ..

/-! ### Every operation -/

/-- **An operation announces the row it inserts**, and nothing else. -/
theorem exec_announces {op : Op} (h : exec env db op = .ok db') : Announces db db' := by
  cases op with
  | create i =>
    obtain ⟨reply, h⟩ := map_snd_eq_ok h
    exact create_announces h
  | claim i =>
    replace h : claim env db i = .ok db' := h
    unfold claim at h
    obtain ⟨_, -, h⟩ := bind_eq_ok.mp h
    obtain ⟨_, -, h⟩ := bind_eq_ok.mp h
    obtain ⟨_, -, h⟩ := bind_eq_ok.mp h
    cases pure_eq_ok.mp h
    refine .inl ?_
    rw [createdIds_emit_none rfl]
    exact createdIds_congr (events_retireParkGeneratedTimer ..)
  | unclaim i =>
    replace h : unclaim env db i = .ok db' := h
    unfold unclaim at h
    obtain ⟨_, -, h⟩ := bind_eq_ok.mp h
    obtain ⟨_, -, h⟩ := bind_eq_ok.mp h
    cases pure_eq_ok.mp h
    exact .inl (createdIds_emit_none rfl)
  | update i => exact .inl (update_createdIds h)
  | handoff i => exact handoffWith_announces h
  | handoffAndComplete i => exact handoffWith_announces h
  | closeCrossHost i =>
    obtain ⟨absorbed, h⟩ := map_snd_eq_ok h
    exact .inl (closeCrossHost_createdIds h)
  | routeToFallback i =>
    replace h : routeToFallback env db i = .ok db' := h
    unfold routeToFallback at h
    obtain ⟨_, -, h⟩ := bind_eq_ok.mp h
    cases pure_eq_ok.mp h
    refine .inl ?_
    rw [createdIds_emit_none rfl]
    refine createdIds_congr ?_
    rw [Db.events_append]
    split
    · rfl
    · exact events_retireParkGeneratedTimer ..
  | releaseClaims g =>
    cases pure_eq_ok.mp h
    unfold releaseClaimsByGeneration
    split
    · exact .inl rfl
    · refine .inl ?_
      exact (path_of_foldl (releaseClaim env) (claimsOfGeneration db g) db).invariant
        (I := fun d => createdIds d = createdIds db) (fun d q d' hd hI => by
          rw [← hd]
          exact hI) rfl
  | transferClaims a b note =>
    cases pure_eq_ok.mp h
    unfold transferClaimsByGeneration
    split
    · exact .inl rfl
    · refine .inl ?_
      exact (path_of_foldl (transferClaim env b note) (claimsOfGeneration db a) db).invariant
        (I := fun d => createdIds d = createdIds db) (fun d q d' hd hI => by
          rw [← hd]
          exact hI) rfl
  | wakeAttempt a => exact .inl (accountWake_createdIds h)
  | terminalBeforeDelivery j =>
    cases pure_eq_ok.mp h
    obtain ⟨jobs, hj⟩ := terminalBeforeDelivery_eq db j
    exact .inl (by rw [hj]; rfl)
  | refreshWaits changed proof =>
    cases pure_eq_ok.mp h
    obtain ⟨jobs, hj⟩ := refreshQueueWaits_eq env changed proof db
    exact .inl (by rw [hj]; rfl)
  | job op =>
    cases hj : execJob env db.jobs op with
    | error e => simp [exec, hj, Except.map] at h
    | ok jobs =>
      obtain rfl : db.setJobs jobs = db' := by simpa [exec, hj, Except.map] using h
      exact .inl rfl

/-- No row is announced twice, and none before it is there. -/
structure AnnouncedOnce (db : Db) : Prop where
  nodup : (createdIds db).Nodup
  there : ∀ id ∈ createdIds db, (db.getById id).isSome = true

lemma AnnouncedOnce.empty : AnnouncedOnce Db.empty :=
  ⟨List.nodup_nil, fun _ h => (List.not_mem_nil h).elim⟩

lemma AnnouncedOnce.step {op : Op} (h : exec env db op = .ok db') (hdb : AnnouncedOnce db) :
    AnnouncedOnce db' := by
  have hstays : ∀ id ∈ createdIds db, (db'.getById id).isSome = true := by
    intro id hid
    obtain ⟨r, hr⟩ := Option.isSome_iff_exists.mp (hdb.there id hid)
    obtain ⟨r', hr', -⟩ := (exec_grows h).tags id r hr
    rw [hr']
    rfl
  rcases exec_announces h with hsame | ⟨id, hfresh, hthere, hids⟩
  · exact ⟨hsame ▸ hdb.nodup, fun id hid => hstays id (hsame ▸ hid)⟩
  · refine ⟨hids ▸ List.nodup_cons.mpr ⟨fun hid => ?_, hdb.nodup⟩, fun k hk => ?_⟩
    · have := hdb.there id hid
      rw [hfresh] at this
      cases this
    · rcases List.mem_cons.mp (hids ▸ hk) with rfl | hk
      · exact hthere
      · exact hstays k hk

end

end OpenRig.CreatedEvents
