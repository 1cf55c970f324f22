import OpenRig.HistoryReaders
import OpenRig.ClosureFields

/-!
The retention of closed rows' logs, over whole runs.

A run's writes append transitions and keep the rows; its batches move the logs of closed rows that
no live instance holds. Two runs with the same writes, one of them without batches, have one
history (`Mirrors`): ids are drawn from a counter that outlives the rows, and a move keeps them. The
continuation of a park is read off the live table. A closed row's log has none to read where the
writes are disciplined (`Disciplined`), as those of the queue are; an append to a closed row of a
parked transition that names a plan takes the plan to the archive, where it is not found.
-/

namespace OpenRig.Archiving

open OpenRig.JsText OpenRig.Closure OpenRig.QueueDb OpenRig.SqlLike OpenRig.Update OpenRig.Runs
open OpenRig.HistoryTables OpenRig.HistoryReaders OpenRig.RecentActivity OpenRig.RowEffects
open OpenRig.Refinement OpenRig.ClosureFields OpenRig.Firing OpenRig.Lifecycle

/-- The tables, with the counter the transitions' ids are drawn from. -/
structure Daemon where
  tables : Tables
  sequence : ℕ
  drawn : ∀ x ∈ tables.historySource, x.transitionId ≤ sequence

/-- A daemon's tables before any write. -/
def Daemon.empty : Daemon where
  tables := { items := Table.empty, rigs := [], instances := [], live := [], archive := [],
              unique := List.nodup_nil }
  sequence := 0
  drawn := by simp [Tables.historySource]

/-! ### Writes -/

/-- A row's `INSERT` or `UPDATE`. -/
def put (items : Table QueueItem.qitemId) (item : QueueItem) : Table QueueItem.qitemId :=
  match items.insert? item with
  | some items => items
  | none => items.update item.qitemId fun r => { item with qitemId := r.qitemId }

def keepState (f : QueueItem → QueueItem) (r : QueueItem) : QueueItem :=
  { f r with qitemId := r.qitemId, state := r.state }

/-- `transitionLog.append`: the next id, on the live table. -/
def Daemon.append (d : Daemon) (ts : Time) (t : TransitionInput) : Daemon where
  tables := { d.tables with
    live := t.toTransition (d.sequence + 1) ts :: d.tables.live
    unique := by
      rw [List.cons_append, List.map_cons, List.nodup_cons]
      refine ⟨fun h => ?_, d.tables.unique⟩
      obtain ⟨x, hx, hid⟩ := List.mem_map.mp h
      have := d.drawn x hx
      have hid : x.transitionId = d.sequence + 1 := hid
      omega }
  sequence := d.sequence + 1
  drawn := by
    intro x hx
    rcases List.mem_cons.mp hx with rfl | hx
    · exact le_refl _
    · exact (d.drawn x hx).trans (Nat.le_succ _)

/-- What is written: a row with a transition, other columns of one, a transition alone, or the rigs
and instances. -/
inductive Write where
  | record (item : QueueItem) (ts : Time) (t : TransitionInput)
  | columns (id : String) (f : QueueItem → QueueItem)
  | append (ts : Time) (t : TransitionInput)
  | domain (rigs : List RigRow) (instances : List WorkflowInstance)

/-- What the queue's operations write: a row's transition records its new state, and a pass that
read the row earlier appends a note that names no plan. -/
def Write.Disciplined : Write → Prop
  | .record item _ t => t.qitemId = item.qitemId ∧ t.state = item.state
  | .append _ t => t.transitionNote.all (fun note => !startsWith note CONTINUATION_MARKER) = true
  | .columns _ _ | .domain _ _ => True

/-- The tables with other rows, rigs or instances. -/
def Daemon.withRows (d : Daemon) (items : Table QueueItem.qitemId) (rigs : List RigRow)
    (instances : List WorkflowInstance) : Daemon :=
  { d with tables := { d.tables with items, rigs, instances } }

def Daemon.write (d : Daemon) : Write → Daemon
  | .record item ts t =>
    (d.withRows (put d.tables.items item) d.tables.rigs d.tables.instances).append ts t
  | .columns id f =>
    d.withRows (d.tables.items.update id (keepState f)) d.tables.rigs d.tables.instances
  | .append ts t => d.append ts t
  | .domain rigs instances => d.withRows d.tables.items rigs instances

/-! ### Batches -/

structure RetentionOptions where
  nowIso : Time
  transitionsRetentionDays : ℕ := 30
  batchSize : ℤ := 500

/-- `cutoffIso`. -/
def RetentionOptions.cutoff (o : RetentionOptions) : ℤ :=
  o.nowIso - o.transitionsRetentionDays * (24 * 60 * 60 * 1000)

/-- A live instance's frontier column matches the row's id. -/
def onFrontier (t : Tables) (id : String) : Bool :=
  t.instances.any fun i => i.status.isLive && like (frontierPattern id)
    (jsonArray i.currentFrontier)

/-- The selection's `WHERE` clause; the `MAX` of no rows is null, which is below nothing. -/
def eligible (t : Tables) (o : RetentionOptions) (item : QueueItem) : Bool :=
  item.state.isTerminalState &&
    (((t.live.filter (·.qitemId = item.qitemId)).map Transition.ts).max?.any
      fun newest => (newest : ℤ) < o.cutoff) &&
    !onFrontier t item.qitemId

lemma moved_perm (live : List Transition) (archive : List (Transition × Time)) (id : String)
    (now : Time) :
    ((live.filter fun x => !decide (x.qitemId = id)) ++
      ((live.filter (·.qitemId = id)).map (·, now) ++ archive).map Prod.fst).Perm
        (live ++ archive.map Prod.fst) := by
  have hmap : ((live.filter (·.qitemId = id)).map fun x => (x, now)).map Prod.fst =
      live.filter (·.qitemId = id) := by
    rw [List.map_map]
    exact List.map_id _
  rw [List.map_append, hmap, ← List.append_assoc]
  exact (List.perm_append_comm.trans (List.filter_append_perm _ live)).append_right _

/-- `moveOne`: the row's live log goes to the archive. -/
def moveOne (now : Time) (t : Tables) (id : String) : Tables :=
  { t with
    live := t.live.filter fun x => !decide (x.qitemId = id)
    archive := (t.live.filter (·.qitemId = id)).map (·, now) ++ t.archive
    unique := ((moved_perm t.live t.archive id now).map _).nodup_iff.mpr t.unique }

lemma moveOne_perm (now : Time) (t : Tables) (id : String) :
    (moveOne now t id).historySource.Perm t.historySource := moved_perm t.live t.archive id now

/-- A batch's selection, or the part of it that was moved before a failure: the statement names
no order, and each row moves in a transaction of its own. -/
structure Selects (t : Tables) (o : RetentionOptions) (ids : List String) : Prop where
  once : ids.Nodup
  rows : ∀ id ∈ ids, ∃ item, t.items.get? id = some item ∧ eligible t o item = true
  limit : 0 ≤ o.batchSize → (ids.length : ℤ) ≤ o.batchSize

/-- `archiveAgedTerminalTransitions`, on the selected rows. -/
def archived (now : Time) (ids : List String) (t : Tables) : Tables := ids.foldl (moveOne now) t

lemma archived_perm (now : Time) (ids : List String) (t : Tables) :
    (archived now ids t).historySource.Perm t.historySource := by
  induction ids generalizing t with
  | nil => exact List.Perm.refl _
  | cons id ids ih => exact (ih (moveOne now t id)).trans (moveOne_perm now t id)

def Daemon.archive (d : Daemon) (now : Time) (ids : List String) : Daemon where
  tables := archived now ids d.tables
  sequence := d.sequence
  drawn := fun x hx => d.drawn x ((archived_perm now ids d.tables).mem_iff.mp hx)

inductive Label where
  | write (w : Write)
  | batch (o : RetentionOptions) (ids : List String)

def Label.isWrite : Label → Bool
  | .write _ => true
  | .batch _ _ => false

/-- A write, or a batch of a selection. -/
inductive Step : Daemon → Label → Daemon → Prop
  | write (d : Daemon) (w : Write) : Step d (.write w) (d.write w)
  | batch {d : Daemon} {o : RetentionOptions} {ids : List String} (h : Selects d.tables o ids) :
      Step d (.batch o ids) (d.archive o.nowIso ids)

/-! ### Logs, newest first -/

def liveLog (t : Tables) (id : String) : List Transition :=
  ordered newer (t.live.filter (·.qitemId = id))

def archivedLog (t : Tables) (id : String) : List Transition :=
  ordered newer ((t.archive.map Prod.fst).filter (·.qitemId = id))

def wholeLog (t : Tables) (id : String) : List Transition := ordered newer (rowHistory t id)

lemma ordered_newer_append {a b : List Transition}
    (h : ∀ x ∈ a, ∀ y ∈ b, y.transitionId < x.transitionId)
    (hn : ((a ++ b).map Transition.transitionId).Nodup) :
    ordered newer (a ++ b) = ordered newer a ++ ordered newer b := by
  refine Ordered.eq_of_perm (r := newer) inferInstance (ordered_pairwise _) ?_ ?_ ?_
  · rw [List.pairwise_append]
    refine ⟨ordered_pairwise a, ordered_pairwise b, fun x hx y hy => ?_⟩
    exact (h x (mem_ordered.mp hx) y (mem_ordered.mp hy)).le
  · exact (ordered_perm _).trans ((ordered_perm a).symm.append (ordered_perm b).symm)
  · exact ((ordered_perm _).map _).nodup_iff.mpr hn

lemma parkContinuation_append {a b : List Transition} (h : parkContinuation b = none) :
    parkContinuation (a ++ b) = parkContinuation a := by
  induction a with
  | nil => exact h
  | cons x a ih =>
    rw [List.cons_append, parkContinuation, parkContinuation]
    split
    · rfl
    · cases planOf x with
      | some plan => rfl
      | none => exact ih

lemma parkContinuation_out {x : Transition} (h : x.state ≠ .blocked) (rest : List Transition) :
    parkContinuation (x :: rest) = none := by
  rw [parkContinuation, if_pos h]

/-- What a run keeps: a row's archived log is older than its live one, and the live table is newest
first. -/
structure Apart (t : Tables) : Prop where
  apart : ∀ x ∈ t.live, ∀ y ∈ t.archive.map Prod.fst, y.qitemId = x.qitemId →
    y.transitionId < x.transitionId
  newest : t.live.Pairwise newer

/-- What disciplined writes keep: no archived log names a plan, and neither does the log of a closed
row. -/
structure Planless (t : Tables) : Prop where
  closed : ∀ id, parkContinuation (archivedLog t id) = none
  traced : ∀ id item, t.items.get? id = some item → item.state.isTerminalState = true →
    parkContinuation (wholeLog t id) = none

lemma wholeLog_of_apart {t : Tables} (h : ∀ x ∈ t.live, ∀ y ∈ t.archive.map Prod.fst,
    y.qitemId = x.qitemId → y.transitionId < x.transitionId) (id : String) :
    wholeLog t id = liveLog t id ++ archivedLog t id := by
  unfold wholeLog liveLog archivedLog rowHistory Tables.historySource
  rw [List.filter_append]
  refine ordered_newer_append (fun x hx y hy => ?_) ?_
  · obtain ⟨hx, hxid⟩ := List.mem_filter.mp hx
    obtain ⟨hy, hyid⟩ := List.mem_filter.mp hy
    exact h x hx y hy ((of_decide_eq_true hyid).trans (of_decide_eq_true hxid).symm)
  · rw [← List.filter_append]
    exact nodup_filter t.unique _

/-- **The live table is enough for a park's continuation** when no archived log names a plan. -/
lemma Apart.continuation {t : Tables} (h : Apart t) {id : String}
    (hclosed : parkContinuation (archivedLog t id) = none) :
    currentParkContinuation t id = parkContinuation (wholeLog t id) := by
  rw [wholeLog_of_apart h.apart, parkContinuation_append hclosed]
  rfl

/-! ### Steps keep the logs -/

lemma get?_put (items : Table QueueItem.qitemId) (item : QueueItem) (k : String) :
    (put items item).get? k = if k = item.qitemId then some item else items.get? k := by
  unfold put
  cases h : items.insert? item with
  | some items' => exact Table.get?_insert? h k
  | none =>
    dsimp only
    rw [Table.get?_update]
    split
    · rename_i hk
      obtain ⟨r, hget⟩ := Option.isSome_iff_exists.mp (Table.insert?_eq_none.mp h)
      have hid : r.qitemId = item.qitemId := Table.get?_key hget
      rw [hk, hget]
      simp [hid]
    · rfl

lemma wholeLog_append (d : Daemon) (ts : Time) (t : TransitionInput) (id : String) :
    wholeLog (d.append ts t).tables id =
      if id = t.qitemId then t.toTransition (d.sequence + 1) ts :: wholeLog d.tables id
      else wholeLog d.tables id := by
  have hrows : rowHistory (d.append ts t).tables id =
      if id = t.qitemId then t.toTransition (d.sequence + 1) ts :: rowHistory d.tables id
      else rowHistory d.tables id := by
    unfold rowHistory Tables.historySource Daemon.append
    rw [List.cons_append, List.filter_cons]
    by_cases h : id = t.qitemId
    · simp [h, TransitionInput.toTransition]
    · have h' : ¬ t.qitemId = id := fun e => h e.symm
      simp [h, h', TransitionInput.toTransition]
  unfold wholeLog
  have hn := nodup_rowHistory (d.append ts t).tables id
  rw [hrows] at hn ⊢
  split
  · rename_i hid
    rw [if_pos hid] at hn
    refine ordered_newer_append (a := [_]) (fun x hx y hy => ?_) hn
    obtain rfl := List.mem_singleton.mp hx
    exact Nat.lt_succ_of_le (d.drawn y (List.mem_filter.mp hy).1)
  · rfl

lemma Apart.append {d : Daemon} (h : Apart d.tables) (ts : Time) (t : TransitionInput) :
    Apart (d.append ts t).tables where
  apart := by
    intro x hx y hy hid
    rcases List.mem_cons.mp hx with rfl | hx
    · exact Nat.lt_succ_of_le (d.drawn y (List.mem_append_right _ hy))
    · exact h.apart x hx y hy hid
  newest := List.pairwise_cons.mpr ⟨fun y hy =>
    (d.drawn y (List.mem_append_left _ hy)).trans (Nat.le_succ _), h.newest⟩

lemma Apart.write {d : Daemon} (h : Apart d.tables) (w : Write) : Apart (d.write w).tables := by
  cases w with
  | record item ts t =>
    let rows := d.withRows (put d.tables.items item) d.tables.rigs d.tables.instances
    have hrows : Apart rows.tables := ⟨h.apart, h.newest⟩
    exact hrows.append ts t
  | columns id f => exact ⟨h.apart, h.newest⟩
  | append ts t => exact h.append ts t
  | domain rigs instances => exact ⟨h.apart, h.newest⟩

lemma parkContinuation_plain {x : Transition} {rest : List Transition} (h : planOf x = none)
    (hrest : parkContinuation rest = none) : parkContinuation (x :: rest) = none := by
  rw [parkContinuation]
  split
  · rfl
  · rw [h]
    exact hrest

lemma Planless.write {d : Daemon} (h : Planless d.tables) {w : Write} (hw : w.Disciplined) :
    Planless (d.write w).tables := by
  cases w with
  | record item ts t =>
    obtain ⟨hqitemId, hstate⟩ := hw
    refine ⟨h.closed, fun id found hget hterm => ?_⟩
    have hget := (get?_put d.tables.items item id).symm.trans hget
    have hlog := wholeLog_append (d.withRows (put d.tables.items item) d.tables.rigs
      d.tables.instances) ts t id
    refine (congrArg parkContinuation hlog).trans ?_
    rw [hqitemId]
    split
    · rename_i hid
      rw [if_pos hid] at hget
      obtain rfl := Option.some.inj hget
      refine parkContinuation_out (fun hb => ?_) _
      have hb : t.state = .blocked := hb
      rw [← hstate, hb] at hterm
      cases hterm
    · rename_i hid
      rw [if_neg hid] at hget
      exact h.traced id found hget hterm
  | columns id f =>
    refine ⟨h.closed, fun k found hget hterm => ?_⟩
    have hget := (Table.get?_update _ id (keepState f) (by intro _; rfl) k).symm.trans hget
    split at hget
    · obtain ⟨r, hr, hf⟩ := Option.map_eq_some_iff.mp hget
      refine h.traced k r hr ?_
      rw [← hf] at hterm
      exact hterm
    · exact h.traced k found hget hterm
  | append ts t =>
    refine ⟨h.closed, fun id found hget hterm => ?_⟩
    have hold := h.traced id found hget hterm
    refine (congrArg parkContinuation (wholeLog_append d ts t id)).trans ?_
    split
    · refine parkContinuation_plain ?_ hold
      unfold planOf TransitionInput.toTransition
      cases hn : t.transitionNote with
      | none => rfl
      | some note =>
        have hplain : (some note).all (fun note => !startsWith note CONTINUATION_MARKER) = true :=
          hn ▸ hw
        have hno : startsWith note CONTINUATION_MARKER = false := by simpa using hplain
        simp [Option.filter, hno]
    · exact hold
  | domain rigs instances => exact ⟨h.closed, h.traced⟩

lemma Apart.moveOne {t : Tables} (h : Apart t) (now : Time) (id : String) :
    Apart (moveOne now t id) where
  apart := by
    intro x hx y hy hid
    obtain ⟨hx, hne⟩ := List.mem_filter.mp hx
    have hne : x.qitemId ≠ id := by simpa using hne
    obtain ⟨⟨y', moved⟩, hmem, rfl⟩ := List.mem_map.mp hy
    rcases List.mem_append.mp hmem with hmem | hmem
    · obtain ⟨z, hz, he⟩ := List.mem_map.mp hmem
      cases he
      have hz : y'.qitemId = id := of_decide_eq_true (List.mem_filter.mp hz).2
      exact absurd (hid.symm.trans hz) hne
    · exact h.apart x hx y' (List.mem_map_of_mem hmem) hid
  newest := h.newest.filter _

lemma Planless.moveOne {t : Tables} (h : Planless t) (now : Time) {id : String} {item : QueueItem}
    (hget : t.items.get? id = some item) (hterm : item.state.isTerminalState = true) :
    Planless (moveOne now t id) where
  closed := by
    intro k
    have hfst : ((OpenRig.Archiving.moveOne now t id).archive.map Prod.fst) =
        t.live.filter (·.qitemId = id) ++ t.archive.map Prod.fst := by
      change List.map Prod.fst (_ ++ _) = _
      rw [List.map_append, List.map_map]
      exact congrArg (· ++ _) (List.map_id _)
    unfold archivedLog
    rw [hfst, List.filter_append, List.filter_filter]
    by_cases hk : k = id
    · subst hk
      have := h.traced k item hget hterm
      unfold wholeLog rowHistory Tables.historySource at this
      rw [List.filter_append] at this
      simpa using this
    · have hnone : (t.live.filter fun x =>
          decide (x.qitemId = k) && decide (x.qitemId = id)) = [] := by
        refine List.filter_eq_nil_iff.mpr fun x _ hx => ?_
        rw [Bool.and_eq_true, decide_eq_true_iff, decide_eq_true_iff] at hx
        exact hk (hx.1.symm.trans hx.2)
      rw [hnone, List.nil_append]
      exact h.closed k
  traced := by
    intro k found hfound hclosed
    have hwhole : wholeLog (OpenRig.Archiving.moveOne now t id) k = wholeLog t k :=
      ordered_congr ((moveOne_perm now t id).filter _) (nodup_rowHistory _ _)
    rw [hwhole]
    exact h.traced k found hfound hclosed

lemma Apart.archived {t : Tables} (h : Apart t) (now : Time) (ids : List String) :
    Apart (archived now ids t) := by
  induction ids generalizing t with
  | nil => exact h
  | cons id ids ih => exact ih (h.moveOne now id)

lemma Planless.archived {t : Tables} (h : Planless t) (now : Time) {ids : List String}
    (hids : ∀ id ∈ ids, ∃ item, t.items.get? id = some item ∧
      item.state.isTerminalState = true) : Planless (archived now ids t) := by
  induction ids generalizing t with
  | nil => exact h
  | cons id ids ih =>
    obtain ⟨item, hget, hterm⟩ := hids id List.mem_cons_self
    exact ih (h.moveOne now hget hterm) fun k hk => hids k (List.mem_cons_of_mem _ hk)

lemma eligible_terminal {t : Tables} {o : RetentionOptions} {item : QueueItem}
    (h : eligible t o item = true) : item.state.isTerminalState = true := by
  unfold eligible at h
  rw [Bool.and_eq_true, Bool.and_eq_true] at h
  exact h.1.1

lemma apart_step {d d' : Daemon} {l : Label} (h : Step d l d') (hd : Apart d.tables) :
    Apart d'.tables := by
  cases h with
  | write => exact hd.write _
  | batch => exact hd.archived _ _

/-- **Every reachable daemon keeps its logs apart.** -/
lemma apart_run {d : Daemon} {ls : List Label} (h : Path Step Daemon.empty ls d) :
    Apart d.tables := by
  have hempty : Apart Daemon.empty.tables := ⟨fun x hx => (List.not_mem_nil hx).elim, .nil⟩
  exact h.invariant (fun _ _ _ hs hd => apart_step hs hd) hempty

/-- The label is no write, or a disciplined one. -/
def Label.Disciplined : Label → Prop
  | .write w => w.Disciplined
  | .batch _ _ => True

lemma planless_step {d d' : Daemon} {l : Label} (h : Step d l d') (hl : l.Disciplined)
    (hd : Planless d.tables) : Planless d'.tables := by
  cases h with
  | write => exact hd.write hl
  | batch hsel =>
    refine hd.archived _ fun id hid => ?_
    obtain ⟨item, hget, hel⟩ := hsel.rows id hid
    exact ⟨item, hget, eligible_terminal hel⟩

/-- **Disciplined writes leave no plan in an archived log.** -/
lemma planless_run {d : Daemon} {ls : List Label} (h : Path Step Daemon.empty ls d)
    (hls : ∀ l ∈ ls, l.Disciplined) : Planless d.tables := by
  have hempty : Planless Daemon.empty.tables := ⟨fun _ => rfl, fun _ _ _ _ => rfl⟩
  exact h.invariant_of_labels (I := fun d : Daemon => Planless d.tables) (p := Label.Disciplined)
    (fun _ _ _ hl hs hd => planless_step hs hl hd) hls hempty

/-- **The verbs' writes are of this kind**: in every run of them the log of a closed row names no
plan, as its newest transition has the row's state. -/
theorem verbs_traced {db : Db} {ls : List (Env × Op)} (h : Path commits Db.empty ls db)
    {id : String} {r : QueueItem} (hr : db.getById id = some r)
    (hterm : r.state.isTerminalState = true) : parkContinuation (db.historyOf id) = none := by
  have hlog : Logged db := h.invariant (fun _ _ _ hs hl => logged_commits hs hl)
    fun k l hl => by cases hl
  have hhead := hlog id _ (view_of_getById hr)
  have hhead : (marks db id).head?.map Mark.state = some r.state := hhead
  unfold marks at hhead
  cases hist : db.historyOf id with
  | nil => rfl
  | cons x rest =>
    rw [hist] at hhead
    have hx : x.state = r.state := Option.some.inj hhead
    refine parkContinuation_out (fun hb => ?_) rest
    rw [← hx, hb] at hterm
    cases hterm

/-! ### The run without batches -/

/-- The run's daemon beside that of the run without batches. -/
structure Mirrors (d u : Daemon) : Prop where
  same : Same d.tables u.tables
  sequence : d.sequence = u.sequence
  archive : u.tables.archive = []

lemma Mirrors.refl {d : Daemon} (h : d.tables.archive = []) : Mirrors d d :=
  ⟨⟨rfl, rfl, List.Perm.refl _⟩, rfl, h⟩

lemma Mirrors.withRows {d u : Daemon} (h : Mirrors d u) {items : Table QueueItem.qitemId}
    {rigs : List RigRow} (is is' : List WorkflowInstance) :
    Mirrors (d.withRows items rigs is) (u.withRows items rigs is') :=
  ⟨⟨rfl, rfl, h.same.history⟩, h.sequence, h.archive⟩

lemma Mirrors.append {d u : Daemon} (h : Mirrors d u) (ts : Time) (t : TransitionInput) :
    Mirrors (d.append ts t) (u.append ts t) where
  same := by
    refine ⟨h.same.items, h.same.rigs, ?_⟩
    refine (h.same.history.cons (t.toTransition (d.sequence + 1) ts)).trans (List.Perm.of_eq ?_)
    rw [h.sequence]
    rfl
  sequence := congrArg (· + 1) h.sequence
  archive := h.archive

lemma Mirrors.write {d u : Daemon} (h : Mirrors d u) (w : Write) :
    Mirrors (d.write w) (u.write w) := by
  cases w with
  | record item ts t =>
    unfold Daemon.write
    dsimp only
    rw [h.same.items, h.same.rigs]
    exact (h.withRows _ _).append ts _
  | columns id f =>
    unfold Daemon.write
    dsimp only
    rw [h.same.items, h.same.rigs]
    exact h.withRows _ _
  | append ts t => exact h.append ts t
  | domain rigs instances =>
    unfold Daemon.write
    dsimp only
    rw [h.same.items]
    exact h.withRows _ _

lemma archived_rows (now : Time) (ids : List String) (t : Tables) :
    (archived now ids t).items = t.items ∧ (archived now ids t).rigs = t.rigs := by
  induction ids generalizing t with
  | nil => exact ⟨rfl, rfl⟩
  | cons id ids ih => exact ih (moveOne now t id)

lemma Mirrors.batch {d u : Daemon} (h : Mirrors d u) (now : Time) (ids : List String) :
    Mirrors (d.archive now ids) u where
  same := ⟨(archived_rows now ids d.tables).1.trans h.same.items,
    (archived_rows now ids d.tables).2.trans h.same.rigs,
    (archived_perm now ids d.tables).trans h.same.history⟩
  sequence := h.sequence
  archive := h.archive

/-- **The same writes without the batches** are a run, beside the run with them. -/
lemma mirrored {d d' u : Daemon} {ls : List Label} (h : Path Step d ls d') (hm : Mirrors d u) :
    ∃ u', Path Step u (ls.filter Label.isWrite) u' ∧ Mirrors d' u' := by
  induction h generalizing u with
  | nil d => exact ⟨u, .nil u, hm⟩
  | cons hstep hrest ih =>
    cases hstep with
    | write =>
      obtain ⟨u', hpath, hm'⟩ := ih (hm.write _)
      exact ⟨u', .cons (.write u _) hpath, hm'⟩
    | batch hsel => exact ih (hm.batch _ _)

/-- Every reader of the history answers over one store as over the other, which keeps the whole log
in the live table, newest first. -/
structure Invisible (sha256 : List Char → Vector UInt8 32) (t u : Tables) : Prop where
  history : ordered older t.historySource = u.live.reverse
  listForQitem : ∀ id, listForQitem t id = listForQitem u id
  listForActor : ∀ actorSession limit,
    listForActor t actorSession limit = listForActor u actorSession limit
  latestOwnerNotificationForQitem : ∀ id,
    latestOwnerNotificationForQitem t id = latestOwnerNotificationForQitem u id
  ownerNotificationsForQitems : ∀ qitemIds,
    ownerNotificationsForQitems t qitemIds = ownerNotificationsForQitems u qitemIds
  activeOwnerNotificationEpisodes : ∀ includePosted,
    activeOwnerNotificationEpisodes t includePosted =
      activeOwnerNotificationEpisodes u includePosted
  hasOwnerNotificationReceipt : ∀ id key, hasOwnerNotificationReceipt sha256 t id key =
    hasOwnerNotificationReceipt sha256 u id key
  findRelayOwnerNotificationReceiptByReplyRef : ∀ replyRef,
    findRelayOwnerNotificationReceiptByReplyRef sha256 t replyRef =
      findRelayOwnerNotificationReceiptByReplyRef sha256 u replyRef
  listRecent : ∀ scope requestedLimit,
    listRecent t scope requestedLimit = listRecent u scope requestedLimit

lemma Mirrors.history_eq {d u : Daemon} (h : Mirrors d u) (hu : Apart u.tables) :
    ordered older d.tables.historySource = u.tables.live.reverse := by
  have hsource : u.tables.historySource = u.tables.live := by
    unfold Tables.historySource
    rw [h.archive, List.map_nil, List.append_nil]
  have hperm := h.same.history
  rw [hsource] at hperm
  refine Ordered.eq_of_perm (r := older) inferInstance (ordered_pairwise _) ?_ ?_ ?_
  · exact List.pairwise_reverse.mpr hu.newest
  · exact (ordered_perm _).trans (hperm.trans (List.reverse_perm _).symm)
  · exact ((ordered_perm _).map _).nodup_iff.mpr d.tables.nodup

lemma Mirrors.invisible (sha256 : List Char → Vector UInt8 32) {d u : Daemon} (h : Mirrors d u)
    (hu : Apart u.tables) : Invisible sha256 d.tables u.tables where
  history := h.history_eq hu
  listForQitem := h.same.listForQitem_eq
  listForActor := h.same.listForActor_eq
  latestOwnerNotificationForQitem := h.same.latest_eq
  ownerNotificationsForQitems := h.same.notifications_eq
  activeOwnerNotificationEpisodes := h.same.episodes_eq
  hasOwnerNotificationReceipt := h.same.hasReceipt_eq sha256
  findRelayOwnerNotificationReceiptByReplyRef := h.same.byReplyRef_eq sha256
  listRecent := h.same.listRecent_eq

lemma Mirrors.continuation {d u : Daemon} (h : Mirrors d u) (hd : Apart d.tables)
    (hd' : Planless d.tables) (hu : Apart u.tables) (hu' : Planless u.tables) (id : String) :
    currentParkContinuation d.tables id = currentParkContinuation u.tables id := by
  rw [hd.continuation (hd'.closed id), hu.continuation (hu'.closed id)]
  exact congrArg parkContinuation (h.same.query newer _)

/-! ### Rows no batch moves -/

/-- A row that is not closed, or that a live instance holds. -/
def Guarded (t : Tables) (id : String) : Prop :=
  (∀ item, t.items.get? id = some item → item.state.isTerminalState = false) ∨
    ∃ i ∈ t.instances, i.status.isLive = true ∧ id ∈ i.currentFrontier

/-- The row's transitions in the archive. -/
def movedOf (t : Tables) (id : String) : List (Transition × Time) :=
  t.archive.filter (·.1.qitemId = id)

lemma onFrontier_of_mem {t : Tables} {id : String} {i : WorkflowInstance} (hi : i ∈ t.instances)
    (hlive : i.status.isLive = true) (hid : id ∈ i.currentFrontier) : onFrontier t id = true := by
  obtain ⟨before, after, h⟩ := jsonArray_contains hid
  refine List.any_eq_true.mpr ⟨i, hi, ?_⟩
  rw [hlive, Bool.true_and, h, jsonString_of_plain (i.plain _ hid)]
  have := like_contains before ('"' :: id.toList ++ ['"']) after
  simpa [frontierPattern] using this

lemma Guarded.not_selected {t : Tables} {id : String} (h : Guarded t id) {o : RetentionOptions}
    {ids : List String} (hsel : Selects t o ids) : id ∉ ids := by
  intro hmem
  obtain ⟨item, hget, hel⟩ := hsel.rows id hmem
  rcases h with h | ⟨i, hi, hlive, hid⟩
  · have := eligible_terminal hel
    rw [h item hget] at this
    cases this
  · have hkey : item.qitemId = id := Table.get?_key hget
    unfold eligible at hel
    rw [hkey, onFrontier_of_mem hi hlive hid] at hel
    simp at hel

lemma movedOf_archived {now : Time} {ids : List String} {id : String} (h : id ∉ ids) (t : Tables) :
    movedOf (archived now ids t) id = movedOf t id := by
  induction ids generalizing t with
  | nil => rfl
  | cons k ids ih =>
    rw [List.mem_cons, not_or] at h
    refine (ih h.2 (moveOne now t k)).trans ?_
    unfold movedOf moveOne
    rw [List.filter_append]
    have hnone :
      (((t.live.filter (·.qitemId = k)).map (·, now)).filter (·.1.qitemId = id)) = [] := by
      refine List.filter_eq_nil_iff.mpr fun x hx hid => ?_
      obtain ⟨y, hy, rfl⟩ := List.mem_map.mp hx
      have hk : y.qitemId = k := of_decide_eq_true (List.mem_filter.mp hy).2
      exact h.1 ((of_decide_eq_true hid).symm.trans hk)
    rw [hnone, List.nil_append]

/-- **A step moves no transition of a guarded row.** -/
lemma Step.keeps_guarded {d d' : Daemon} {l : Label} (h : Step d l d') {id : String}
    (hg : Guarded d.tables id) : movedOf d'.tables id = movedOf d.tables id := by
  cases h with
  | write => rename_i w; cases w <;> rfl
  | batch hsel => exact movedOf_archived (hg.not_selected hsel) d.tables

/-- **Archiving is invisible to the readers of the history.** Every run of writes and batches has
beside it the run of its writes alone. Every reader that asks both tables answers the same over
both, and so does the reader of a park's continuation when the writes are disciplined. Nothing of
the log is lost, duplicated or reordered, and no step moves a transition of a row that is not closed
or that a live instance holds. -/
theorem archiving_invisible (sha256 : List Char → Vector UInt8 32) {d : Daemon} {ls : List Label}
    (h : Path Step Daemon.empty ls d) :
    (∃ u, Path Step Daemon.empty (ls.filter Label.isWrite) u ∧ u.tables.archive = [] ∧
      Invisible sha256 d.tables u.tables ∧ ((∀ l ∈ ls, l.Disciplined) → ∀ id,
        currentParkContinuation d.tables id = currentParkContinuation u.tables id)) ∧
    ∀ l d', Step d l d' → ∀ id, Guarded d.tables id →
      movedOf d'.tables id = movedOf d.tables id := by
  obtain ⟨u, hu, hm⟩ := mirrored h (Mirrors.refl rfl)
  refine ⟨⟨u, hu, hm.archive, hm.invisible sha256 (apart_run hu), fun hls => ?_⟩,
    fun _ _ hs _ hg => hs.keeps_guarded hg⟩
  have hwrites : ∀ l ∈ ls.filter Label.isWrite, l.Disciplined := fun l hl =>
    hls l (List.mem_of_mem_filter hl)
  exact hm.continuation (apart_run h) (planless_run h hls) (apart_run hu) (planless_run hu hwrites)

/-! ### A row reopened after its log moved -/

def parkedRow (state : QueueState) : QueueItem :=
  { qitemId := "qitem-a", tsCreated := 0, tsUpdated := 0, sourceSession := "ops@rig",
    destinationSession := "dev@rig", state, priority := "normal", body := "" }

/-- The row's state written, with a note. -/
def wrote (state : QueueState) (ts : Time) (note : String) : Write :=
  .record (parkedRow state) ts
    { qitemId := "qitem-a", state, actorSession := "dev@rig", transitionNote := some note }

/-- The row is parked with a plan and closed; its log moves; it is reopened and parked again. -/
def reopened : List Label :=
  [.write (wrote .blocked 0 "continuation: ask ops"), .write (wrote .done 1000 "closed"),
   .batch { nowIso := 3000000000 } ["qitem-a"], .write (wrote .pending 3000001000 "reopened"),
   .write (wrote .blocked 3000002000 "waits")]

theorem archiving_invisible_reopened :
    ∃ d u : Daemon, Path Step Daemon.empty reopened d ∧
      Path Step Daemon.empty (reopened.filter Label.isWrite) u ∧
      (movedOf d.tables "qitem-a").length = 2 ∧ u.tables.archive = [] ∧
      Invisible (fun _ => Vector.replicate 32 0) d.tables u.tables ∧
      ∀ id, currentParkContinuation d.tables id = currentParkContinuation u.tables id := by
  have hsel : Selects ((Daemon.empty.write (wrote .blocked 0 "continuation: ask ops")).write
      (wrote .done 1000 "closed")).tables { nowIso := 3000000000 } ["qitem-a"] :=
    ⟨by decide, by
      intro id hid
      obtain rfl := List.mem_singleton.mp hid
      exact ⟨parkedRow .done, by decide, by decide⟩, by decide⟩
  have hpath : Path Step Daemon.empty reopened _ :=
    .cons (.write _ _) (.cons (.write _ _) (.cons (.batch hsel)
      (.cons (.write _ _) (.cons (.write _ _) (.nil _)))))
  have hls : ∀ l ∈ reopened, l.Disciplined := by
    simp [reopened, Label.Disciplined, Write.Disciplined, wrote, parkedRow]
  obtain ⟨⟨u, hu, hnone, hinv, hcontinuation⟩, -⟩ :=
    archiving_invisible (fun _ => Vector.replicate 32 0) hpath
  exact ⟨_, u, hpath, hu, by decide, hnone, hinv, hcontinuation hls⟩

/-! ### A plan written for a closed row -/

def latePlan : TransitionInput :=
  { qitemId := "qitem-a", state := .blocked, actorSession := "dev@rig",
    transitionNote := some "continuation: ask ops" }

/-- The row is closed; a parked transition that names a plan is appended; its log moves. -/
def plannedLate : List Label :=
  [.write (wrote .done 0 "closed"), .write (.append 1000 latePlan),
   .batch { nowIso := 3000000000 } ["qitem-a"]]

/-- The plan is read off the live table, and not once it has moved. -/
theorem plan_lost_in_archive :
    ∃ d u : Daemon, Path Step Daemon.empty plannedLate d ∧
      Path Step Daemon.empty (plannedLate.filter Label.isWrite) u ∧
      currentParkContinuation d.tables "qitem-a" = none ∧
      currentParkContinuation u.tables "qitem-a" = some "ask ops" := by
  have hsel : Selects ((Daemon.empty.write (wrote .done 0 "closed")).write
      (.append 1000 latePlan)).tables { nowIso := 3000000000 } ["qitem-a"] :=
    ⟨by decide, by
      intro id hid
      obtain rfl := List.mem_singleton.mp hid
      exact ⟨parkedRow .done, by decide, by decide⟩, by decide⟩
  have hpath : Path Step Daemon.empty plannedLate _ :=
    .cons (.write _ _) (.cons (.write _ _) (.cons (.batch hsel) (.nil _)))
  have hwrites : Path Step Daemon.empty (plannedLate.filter Label.isWrite) _ :=
    .cons (.write _ _) (.cons (.write _ _) (.nil _))
  exact ⟨_, _, hpath, hwrites, by decide, by decide⟩

end OpenRig.Archiving
