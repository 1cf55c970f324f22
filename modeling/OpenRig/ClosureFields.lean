import OpenRig.Refinement

/-!
Closure fields describe the row that stores them.

The admission of closure fields is per request, and the writes keep what a request leaves out.
A row parked with a park record therefore carries it out of the park when it is claimed, moved,
or released by its blocker, and a reopened row carries its old close along. The condition below
is exactly that no write lets a row leave a state with the fields of that state.
-/

namespace OpenRig.ClosureFields

open OpenRig.JsText OpenRig.Closure OpenRig.QueueDb OpenRig.Verbs OpenRig.Handoff OpenRig.Update
open OpenRig.Firing OpenRig.Runs OpenRig.Lifecycle OpenRig.RowEffects OpenRig.Propagation
open OpenRig.Moves OpenRig.Refinement

/-- The transition that closed a done row: the first of the trailing run in done. -/
def closingTransition (db : Db) (k : String) : Option Transition :=
  ((db.historyOf k).takeWhile fun t => t.state = .done).getLast?

/-- Closure fields stand beside an admitted state and reason, and those of a done row are the ones
its close supplied. -/
def FieldsDescribe (db : Db) : Prop :=
  ∀ k r, db.getById k = some r →
    (r.closureReason.isSome ∨ r.closureTarget.isSome → admittedPair r.state r.closureReason) ∧
    (r.state = .done → ∃ t, closingTransition db k = some t ∧
      t.closureReason = r.closureReason ∧ t.closureTarget = r.closureTarget)

/-- The row stores no closure field. -/
def bare (r : QueueItem) : Prop := r.closureReason = none ∧ r.closureTarget = none

/-- No row leaves its state with the closure fields of that state. -/
structure CarriesFields (db : Db) (op : Op) : Prop where
  /-- A claimed row stores none. -/
  claimed : ∀ i r, op = .claim i → db.getById i.qitemId = some r → bare r
  /-- A row moved to another state stores none, or the request brings its own. -/
  moved : ∀ i r s, op = .update i → db.getById i.qitemId = some r → i.state = some s →
    s ≠ r.state → bare r ∨
      (i.closureReason.isSome ∧ (s = .done → i.closureTarget.isSome ∨ r.closureTarget = none))
  /-- A row a close returns to its owner stores none. -/
  released : ∀ c k r, closeOf db op = some c → k ≠ c.blocker → db.getById k = some r →
    r.state = .blocked → r.blockedOn = some c.blocker → c.rebinds db r.destinationSession = false →
    bare r
  /-- A row a firing resolves stores no target, and a row it returns to its owner stores none. -/
  fired : ∀ a k r, op = .wakeAttempt a → db.getById k = some r →
    (k ∈ resolvedTargets db a → r.closureTarget = none) ∧
    (k ∉ resolvedTargets db a → (∃ x ∈ resolvedTargets db a, parkedRow db k x) → bare r)

/-! ### Rows and lives -/

lemma closing_marks (db : Db) (k : String) :
    Life.closing .done (marks db k) = (closingTransition db k).map markOf := by
  unfold Life.closing marks closingTransition
  rw [List.takeWhile_map, List.getLast?_map]
  rfl

lemma fieldsDescribe_view {db : Db} :
    FieldsDescribe db ↔ ∀ k l, view db k = some l → l.Described := by
  constructor
  · intro h k l hl
    obtain ⟨r, hr, rfl⟩ := view_eq_some.mp hl
    obtain ⟨hpair, hsupplied⟩ := h k r hr
    refine ⟨hpair, fun hs => ?_⟩
    obtain ⟨t, ht, h₁, h₂⟩ := hsupplied hs
    refine ⟨markOf t, ?_, h₁, h₂⟩
    change Life.closing .done (marks db k) = _
    rw [closing_marks, ht]
    rfl
  · intro h k r hr
    obtain ⟨hpair, hsupplied⟩ := h k _ (view_of_getById hr)
    refine ⟨hpair, fun hs => ?_⟩
    obtain ⟨m, hm, h₁, h₂⟩ := hsupplied hs
    change Life.closing .done (marks db k) = _ at hm
    rw [closing_marks, Option.map_eq_some_iff] at hm
    obtain ⟨t, ht, rfl⟩ := hm
    exact ⟨t, ht, h₁, h₂⟩

/-- Every row's log ends in its state. -/
def Logged (db : Db) : Prop := ∀ k l, view db k = some l → l.logged

lemma logged_of_path {v v' : Option Life} {ws : List RowWrite} (h : Path Step v ws v')
    (hv : ∀ l, v = some l → l.logged) : ∀ l, v' = some l → l.logged :=
  h.invariant (I := fun v : Option Life => ∀ l, v = some l → l.logged)
    (fun _ _ _ hstep _ _ hl => hstep.logged hl) hv

lemma logged_commits {db db' : Db} {l : Env × Op} (h : commits db l db') (hl : Logged db) :
    Logged db' := by
  intro k
  obtain ⟨ws, -, hpath⟩ := exec_touches h k
  exact logged_of_path hpath (hl k)

/-! ### Firings -/

lemma quiet_path {l : Life} {v' : Option Life} {ws : List RowWrite} (h : Path Step (some l) ws v')
    (hw : ∀ w ∈ ws, w = .note ∨ w = .unpark) : ∃ l', v' = some l' ∧
      l'.closureReason = l.closureReason ∧ l'.closureTarget = l.closureTarget := by
  refine h.invariant_of_labels (I := fun v : Option Life => ∃ l', v = some l' ∧
    l'.closureReason = l.closureReason ∧ l'.closureTarget = l.closureTarget) ?_ hw
      ⟨l, rfl, rfl, rfl⟩
  rintro _ w v (rfl | rfl) hstep ⟨l₁, rfl, h₁⟩
  · cases hstep
    exact ⟨_, rfl, h₁⟩
  · cases hstep
    exact ⟨_, rfl, h₁⟩

lemma receipts_described {v v' : Option Life} {ws : List RowWrite} (h : Path Step v ws v')
    (hw : ∀ w ∈ ws, w = .note) (hv : ∀ l, v = some l → l.logged ∧ l.Described) :
    ∀ l, v' = some l → l.logged ∧ l.Described := by
  refine h.invariant_of_labels
    (I := fun v : Option Life => ∀ l, v = some l → l.logged ∧ l.Described) ?_ hw hv
  rintro v w v' rfl hstep hI l hl
  exact ⟨hstep.logged hl, hstep.describes (fun l₀ h₀ => ⟨(hI l₀ h₀).1, (hI l₀ h₀).2, trivial⟩) l hl⟩

lemma released_described_iff {l l' : Life} {ws : List RowWrite}
    (h : Path Step (some l) (ws ++ [.unpark]) (some l')) (hw : ∀ w ∈ ws, w = .note)
    (hl : l.logged) (hd : l.Described) : l'.Described ↔ l.clean := by
  obtain ⟨v, hpre, hlast⟩ := Path.append_iff.mp h
  obtain ⟨l₁, rfl, hreason, htarget⟩ := quiet_path hpre fun w hmem => .inl (hw w hmem)
  obtain ⟨hl₁, hd₁⟩ := receipts_described hpre hw (fun _ he => by cases he; exact ⟨hl, hd⟩) l₁ rfl
  rw [(Path.single_iff.mp hlast).described_iff hl₁ hd₁]
  unfold RowWrite.keepsDescription Life.clean
  rw [hreason, htarget]

lemma resolved_described_iff {l l' : Life} {ws : List RowWrite} {m : Move} (hm : Resolves m)
    (h : Path Step (some l) (ws ++ [.move m]) (some l'))
    (hw : ∀ w ∈ ws, w = .note ∨ w = .unpark) (hl : l.logged) :
    l'.Described ↔ l.closureTarget = none := by
  obtain ⟨v, hpre, hlast⟩ := Path.append_iff.mp h
  obtain ⟨l₁, rfl, -, htarget⟩ := quiet_path hpre hw
  have hl₁ := logged_of_path hpre (fun _ he => by cases he; exact hl) l₁ rfl
  have hstep := Path.single_iff.mp hlast
  rw [← htarget]
  cases hstep with
  | move ha =>
    constructor
    · exact fun hd' => Life.target_none_of_described ha hl₁ hd' hm.state hm.closureTarget
    · intro hn
      exact Life.described_moved_of_supplied ha hl₁ (by simp [hm.closureReason]) fun _ => .inr hn

/-! ### One operation -/

/-- A described row in an open state other than blocked stores no closure field, nor does one
closed as failed or denied. -/
lemma clean_of_described {l : Life} (hd : l.Described) (hg : l.state.isGuardedTerminal = false)
    (hb : l.state ≠ .blocked) : l.clean := by
  by_contra hn
  exact hb (admittedPair_unguarded (hd.pair (by
    by_contra hn'
    exact hn (by simpa [Life.clean] using hn'))) hg).1

lemma keeps_of_moved {env : Env} {db : Db} {i : QueueUpdateInput} {r : QueueItem}
    {state : QueueState} {plan : UpdatePlan} (hc : CarriesFields db (.update i))
    (hr : db.getById i.qitemId = some r) (hstate : i.state = some state)
    (hplan : PlanAdmitted env db r state i plan) (hist : List Mark)
    (hd : (lifeOf r hist).Described) (ha : Admitted (lifeOf r hist) (moveOf r plan i)) :
    (RowWrite.move (moveOf r plan i)).keepsDescription (lifeOf r hist) := by
  have hm : (moveOf r plan i).state = state := hplan.state_eq
  by_cases hs : state = r.state
  · by_cases hb : r.state = .blocked
    · exact .inr (.inl ⟨hb, hm.trans (hs.trans hb)⟩)
    · refine .inl (clean_of_described hd ?_ hb)
      by_contra hg
      exact (ha.reopening (by simpa using hg)).1 (hm.trans hs)
  · rcases hc.moved i r state rfl hr hstate hs with hbare | ⟨hreason, htarget⟩
    · exact .inl hbare
    · refine .inr (.inr ⟨?_, fun hdone => ?_⟩)
      · exact hplan.reason_isSome hreason
      · rcases htarget (hm.symm.trans hdone) with ht | ht
        · exact .inl (by rw [show (moveOf r plan i).closureTarget = i.closureTarget from
            hplan.closureTarget]; exact ht)
        · exact .inr ht

lemma fieldsDescribe_of_carries {env : Env} {db db' : Db} {op : Op}
    (h : exec env db op = .ok db') (hl : Logged db) (hd : FieldsDescribe db)
    (hc : CarriesFields db op) : FieldsDescribe db' := by
  rw [fieldsDescribe_view] at hd ⊢
  have hstart : ∀ k l, view db k = some l → l.logged ∧ l.Described :=
    fun k l hv => ⟨hl k l hv, hd k l hv⟩
  intro k
  cases exec_outcome h with
  | still hv =>
    rw [hv]
    exact hd k
  | @one k₀ w ho ht =>
    by_cases hk : k = k₀
    · subst hk
      refine ht.1.describes fun l hv => ⟨hl k l hv, hd k l hv, ?_⟩
      cases ho with
      | @claim i =>
        obtain ⟨r, hr, rfl⟩ := view_eq_some.mp hv
        exact hc.claimed i r rfl hr
      | @move i qitem state plan hr hstate hplan hlive =>
        have hv' := hv
        rw [view_of_getById hr] at hv'
        cases hv'
        have hstep := ht.1
        rw [hv] at hstep
        generalize view db' i.qitemId = u at hstep
        cases hstep with
        | move ha => exact keeps_of_moved hc hr hstate hplan _ (hd _ _ hv) ha
      | _ => trivial
    · rw [ht.2 k hk]
      exact hd k
  | @closing c w ho hclosed =>
    obtain ⟨ws, hws, hpath⟩ := hclosed.writes k
    cases hws with
    | untouched =>
      rw [← Path.nil_iff.mp hpath]
      exact hd k
    | source =>
      have hstep := Path.single_iff.mp hpath
      refine hstep.describes fun l hv => ⟨hl _ l hv, hd _ l hv, ?_⟩
      cases ho with
      | @update i qitem state plan hr hstate hplan hmove hdead =>
        have hv' : view db i.qitemId = some l := hv
        rw [view_of_getById hr] at hv'
        cases hv'
        rw [hv] at hstep
        generalize view db' (closingOf qitem plan i).blocker = u at hstep
        cases hstep with
        | move ha => exact keeps_of_moved hc hr hstate hplan _ (hd _ _ hv) ha
      | _ => trivial
    | successor => exact (Path.single_iff.mp hpath).describes fun l hv =>
      ⟨hl _ l hv, hd _ l hv, trivial⟩
    | @dependent _ r o hk hr hs hb ho' =>
      refine (Path.single_iff.mp hpath).describes fun l hv => ⟨hl _ l hv, hd _ l hv, ?_⟩
      cases o with
      | some s => trivial
      | none =>
        rw [view_of_getById hr] at hv
        cases hv
        exact hc.released c k r ho.closeOf_eq hk hr hs hb ho'.symm
  | sweep ho hw =>
    rcases hw k with hv | ⟨-, hstep⟩
    · rw [hv]
      exact hd k
    · refine hstep.describes fun l hv => ⟨hl _ l hv, hd _ l hv, ?_⟩
      cases ho <;> trivial
  | @firing a ho hf hdead =>
    obtain ⟨ws, hws, hpath⟩ := hf.writes k
    cases hws with
    | receipts hw => exact fun l hv => (receipts_described hpath hw (hstart k) l hv).2
    | @released ws x hw hx hp =>
      intro l' hv'
      obtain ⟨r, hr, hp⟩ := hp
      rw [view_of_getById hr, hv'] at hpath
      obtain ⟨hlk, hdk⟩ := hstart k _ (view_of_getById hr)
      refine (released_described_iff hpath hw hlk hdk).mpr
        ((hc.fired a k r ho hr).2 ?_ ⟨x, hx, r, hr, hp⟩)
      -- a resolved row ends done, a released one pending
      intro hk
      refine hdead k hk ⟨l', hv', ?_⟩
      obtain ⟨u, -, hlast⟩ := Path.append_iff.mp hpath
      have hstep := Path.single_iff.mp hlast
      cases hstep
      rfl
    | resolved hw hk hm =>
      intro l' hv'
      obtain ⟨_, -, hb⟩ := mem_resolvedTargets hk
      obtain ⟨r, hr, -⟩ := (Option.any_eq_true _ _).mp hb
      rw [view_of_getById hr, hv'] at hpath
      exact (resolved_described_iff hm hpath hw (hl k _ (view_of_getById hr))).mpr
        ((hc.fired a k r ho hr).1 hk)

lemma keeps_of_step {db db' : Db} {k : String} {w : RowWrite} {r : QueueItem} (hl : Logged db)
    (hd : FieldsDescribe db) (hd' : FieldsDescribe db') (hr : db.getById k = some r)
    (hstep : Step (view db k) w (view db' k)) : w.keepsDescription (lifeOf r (marks db k)) := by
  have hv := view_of_getById hr
  obtain ⟨l', hl'⟩ := Option.isSome_iff_exists.mp hstep.isSome
  rw [hv, hl'] at hstep
  exact (hstep.described_iff (hl k _ hv) (fieldsDescribe_view.mp hd k _ hv)).mp
    (fieldsDescribe_view.mp hd' k l' hl')

lemma moved_of_keeps {env : Env} {db : Db} {i : QueueUpdateInput} {r : QueueItem}
    {s : QueueState} {plan : UpdatePlan} (hplan : PlanAdmitted env db r s i plan)
    (hs : s ≠ r.state) {hist : List Mark}
    (hk : (RowWrite.move (moveOf r plan i)).keepsDescription (lifeOf r hist)) :
    bare r ∨ (i.closureReason.isSome ∧
      (s = .done → i.closureTarget.isSome ∨ r.closureTarget = none)) := by
  have hm : (moveOf r plan i).state = s := hplan.state_eq
  rcases hk with hbare | ⟨hb, hm'⟩ | ⟨hreason, htarget⟩
  · exact .inl hbare
  · exact absurd (hm.symm.trans (hm'.trans hb.symm)) hs
  · refine .inr ⟨?_, fun hdone => ?_⟩
    · have hreason : plan.closureReason.isSome = true := hreason
      rw [hplan.closureReason] at hreason
      by_contra hn
      have hn : i.closureReason = none := by simpa using hn
      simp [hn] at hreason
    · rcases htarget (hm.trans hdone) with ht | ht
      · left
        rw [← hplan.closureTarget]
        exact ht
      · exact .inr ht

lemma carries_of_fieldsDescribe {env : Env} {db db' : Db} {op : Op}
    (h : exec env db op = .ok db') (hl : Logged db) (hd : FieldsDescribe db)
    (hd' : FieldsDescribe db') : CarriesFields db op where
  claimed := by
    rintro i r rfl hr
    exact keeps_of_step hl hd hd' hr (claim_touched h).1
  moved := by
    rintro i r s rfl hr hstate hs
    cases update_eq_ok h with
    | append hr' hkeep =>
      cases hr.symm.trans hr'
      exact absurd (state_of_append hkeep hstate).symm hs
    | move hr' hstate' hplan _ ht =>
      cases hr.symm.trans hr'
      cases hstate.symm.trans hstate'
      exact moved_of_keeps hplan hs (keeps_of_step hl hd hd' hr ht.1)
    | close hr' hstate' hplan _ _ hclosed =>
      cases hr.symm.trans hr'
      cases hstate.symm.trans hstate'
      exact moved_of_keeps hplan hs (keeps_of_step hl hd hd' hr hclosed.source)
  released := by
    intro c k r hc hk hr hs hb hown
    obtain ⟨w, hclosed⟩ := closedWith_of_closeOf h hc
    obtain ⟨o, ho, -, hstep⟩ := hclosed.dependents k r hk hr hs hb
    have hnone : o = none := by simpa [hown] using ho
    subst hnone
    exact keeps_of_step hl hd hd' hr hstep
  fired := by
    rintro a k r rfl hr
    obtain ⟨hf, hdead⟩ := accountWake_effect h
    obtain ⟨ws, hws, hpath⟩ := hf.writes k
    have hv := view_of_getById hr
    have hlk := hl k _ hv
    have hdk := fieldsDescribe_view.mp hd k _ hv
    obtain ⟨l', hl'⟩ : ∃ l', view db' k = some l' := by
      obtain ⟨l', hl', -⟩ := chain_prefix_of_path (hv ▸ hpath)
      exact ⟨l', hl'⟩
    have hdk' := fieldsDescribe_view.mp hd' k l' hl'
    rw [hv, hl'] at hpath
    constructor
    · intro hk
      obtain ⟨_, -, hblocked⟩ := mem_resolvedTargets hk
      obtain ⟨r', hr', hb⟩ := (Option.any_eq_true _ _).mp hblocked
      cases hr.symm.trans hr'
      have hb : r.state = .blocked := by simpa using hb
      have hclosed : ¬ l'.state.isBlockerLive = true := fun hlive => hdead k hk ⟨l', hl', hlive⟩
      cases hws with
      | receipts hw =>
        obtain ⟨_, he, hs, -⟩ := notes_keep hpath hw
        cases he
        have hs : l'.state = .blocked := hs.trans hb
        simp [hs, QueueState.isBlockerLive] at hclosed
      | released =>
        obtain ⟨_, -, hlast⟩ := Path.append_iff.mp hpath
        have hstep := Path.single_iff.mp hlast
        cases hstep
        exact absurd rfl hclosed
      | resolved hw _ hm => exact (resolved_described_iff hm hpath hw hlk).mp hdk'
    · rintro hk ⟨x, hx, hp⟩
      obtain ⟨_, -, hblocked⟩ := mem_resolvedTargets hx
      obtain ⟨rx, hrx, hbx⟩ := (Option.any_eq_true _ _).mp hblocked
      have hbx : rx.state = .blocked := by simpa using hbx
      have hlive : live (view db) x :=
        live_view.mpr ⟨rx, hrx, by simp [hbx, QueueState.isBlockerLive]⟩
      have hgone := (hf.clears fun _ => True).cleared x trivial hlive (hdead x hx) k
      cases hws with
      | receipts hw =>
        obtain ⟨r', hr', hs, hb⟩ := hp
        cases hr.symm.trans hr'
        obtain ⟨_, he, hs', hb', -⟩ := notes_keep hpath hw
        cases he
        exact absurd ⟨l', hl', hs'.trans hs, hb'.trans hb⟩ hgone
      | released hw => exact (released_described_iff hpath hw hlk hdk).mp hdk'
      | resolved _ hk' => exact absurd hk' hk

/-! ### Runs -/

/-- **Stored closure fields describe the row's current state**, in exactly the runs where no row
leaves its state with the closure fields of that state. -/
theorem closure_fields_describe_iff (ls : List (Env × Op)) (db : Db) :
    Path (fun d l d' => commits d l d' ∧ FieldsDescribe d') Db.empty ls db ↔
      Path (commitsWhen fun _ d op => CarriesFields d op) Db.empty ls db := by
  refine Path.guarded_iff (J := Logged) (C := fun d (l : Env × Op) => CarriesFields d l.2)
    (fun _ _ _ hm hl => logged_commits hm hl) (fun d l d' hm hl hd => ?_) ?_ ?_
  · exact ⟨fieldsDescribe_of_carries hm hl hd, carries_of_fieldsDescribe hm hl hd⟩
  · intro k l hl
    cases hl
  · intro k r hr
    cases hr

/-- A row is parked with a park record and claimed out of its park. -/
def parkRecordClaimed : List (Env × Op) :=
  [(plainEnv 0 0 "", .create
      { qitemId := some "qitem-a", sourceSession := "lead@rig", destinationSession := "dev@rig",
        body := "work" }),
   (plainEnv 1000 0 "", .update
      { qitemId := "qitem-a", actorSession := "dev@rig", state := some .blocked,
        blockedOn := some "fold:gate", closureReason := some "blocked_on",
        closureTarget := some "fold:gate" }),
   (plainEnv 2000 0 "", .claim { qitemId := "qitem-a", destinationSession := "dev@rig" })]

/-- A claimed row can still store the record of its park. -/
theorem claimed_row_stores_its_park_record :
    ∃ db, Path commits Db.empty parkRecordClaimed db ∧ ¬ FieldsDescribe db := by
  obtain ⟨db, hrun, hp⟩ := exists_run Db.empty parkRecordClaimed
    (fun db => (db.getById "qitem-a").any fun r => r.closureReason = some .blockedOn &&
      r.state = .inProgress) (by decide)
  obtain ⟨r, hr, hs⟩ := (Option.any_eq_true _ _).mp hp
  simp only [Bool.and_eq_true, decide_eq_true_eq] at hs
  refine ⟨db, hrun, fun h => ?_⟩
  have := (h "qitem-a" r hr).1 (.inl (by simp [hs.1]))
  simp [hs.1, hs.2, admittedPair] at this

end OpenRig.ClosureFields
