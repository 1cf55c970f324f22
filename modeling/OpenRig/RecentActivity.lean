import OpenRig.HistoryTables
import OpenRig.SqlLike
import OpenRig.FieldText

/-!
The recent activity of a rig.

The walk takes the rows a `LIKE` pattern selects, newest transition first, and stops at the limit.
The rig a row is shown under is read afterwards, by an exact parse of its sessions, so a row the
pattern selects and the parse refuses has taken a place by then. The answer is the newest
qualifying transitions of the rig exactly when no such row comes in between (`Covers`).
-/

namespace OpenRig.RecentActivity

open OpenRig.JsText OpenRig.Sessions OpenRig.Closure OpenRig.QueueDb OpenRig.SqlLike
open OpenRig.FieldText OpenRig.HistoryTables

inductive RecentQueueTransitionScope where
  | wholeInstance
  | rig (rig : String)

inductive RecentQueueTransitionTargetKind where
  | qitem | slice | mission
  deriving DecidableEq

structure RecentQueueTransition where
  transitionId : ℕ
  qitemId : String
  ts : Time
  actorSession : String
  change : String
  summary : Option Text
  bodyPreview : Option Text
  rig : String
  targetKind : RecentQueueTransitionTargetKind
  target : Text

/-! ### One transition -/

/-- `sessionRig`: the known rig a session's name ends in. -/
def sessionRig (knownRigs : List String) (session : String) : Option String :=
  if isHumanSeatSessionRef session then none
  else match parseSessionName session with
    | .canonical _ rig => if String.ofList rig ∈ knownRigs then some (String.ofList rig) else none
    | _ => none

def recentChange (x : Transition) (previousState : Option QueueState) : Option String :=
  let onTarget := fun verb word : String => match x.closureTarget.filter (· ≠ "") with
    | some target => verb ++ target
    | none => word
  if x.closureReason = some .handedOffTo then some (onTarget "handed off to " "handed off")
  else if x.state = .failed ∨ x.state = .denied ∨ x.state = .canceled then some x.state.text
  else if x.closureReason = some .denied ∨ x.closureReason = some .canceled ∨
      x.closureReason = some .escalation then x.closureReason.map ClosureReason.text
  else if x.state = .done ∧ x.closureReason = some .noFollowOn then some "completed"
  else if x.state = .inProgress ∧ previousState = some .blocked then some "resumed"
  else if x.state = .inProgress ∧ previousState = some .pending then some "claimed"
  else if x.state = .blocked ∧ previousState.isSome ∧ previousState ≠ some .blocked then
    some (onTarget "blocked on " "blocked")
  else none

def qualifiesAsRecent (x : Transition) (previousState : Option QueueState) : Bool :=
  (x.state = .inProgress && (previousState = some .pending || previousState = some .blocked)) ||
  (x.state = .blocked && previousState.isSome && previousState ≠ some .blocked) ||
  x.closureReason = some .handedOffTo ||
  (x.state = .done && x.closureReason = some .noFollowOn) ||
  (x.state = .failed || x.state = .denied || x.state = .canceled) ||
  (x.closureReason = some .denied || x.closureReason = some .canceled ||
    x.closureReason = some .escalation)

lemma recentChange_isSome (x : Transition) (previousState : Option QueueState) :
    (recentChange x previousState).isSome = qualifiesAsRecent x previousState := by
  unfold recentChange qualifiesAsRecent
  rcases x.closureReason with _ | r
  · cases x.state <;> rcases previousState with _ | p <;> first | rfl | (cases p <;> rfl)
  · cases r <;> cases x.state <;> rcases previousState with _ | p <;>
      first | rfl | (cases p <;> rfl)

/-- The summary's text, or nothing where it is blank. -/
def shownSummary (item : QueueItem) : Option Text :=
  (item.summary.map fun s => trim s.toList).filter (· ≠ [])

/-- `bodyPreview`: the first line of the body's head that says something. -/
def bodyPreview (bodyHead : Text) : Option Text :=
  match (bodyHead.splitOn '\n').find? fun line => trim line ≠ [] with
  | none => none
  | some line => some (if 240 < (trim line).length then (trim line).take 237 ++ "...".toList
      else trim line)

/-- The head the metadata query reads, for a row without a summary. -/
def bodyHead (item : QueueItem) : Option Text :=
  if item.summary.all isBlank then
    some ((item.body.toList.takeWhile (·.toNat ≠ 0)).take 2000)
  else none

def recentTarget (item : QueueItem) : RecentQueueTransitionTargetKind × Text :=
  let tagged := fun label : String =>
    (((item.tags.getD []).find? fun tag => startsWith tag label).map fun tag =>
      trim (tag.toList.drop label.length)).filter (· ≠ [])
  match tagged "slice:", tagged "mission:" with
  | some slice, _ => (.slice, slice)
  | none, some mission => (.mission, mission)
  | none, none => (.qitem, item.qitemId.toList)

/-! ### The walk -/

/-- `listRecent`'s rigs. -/
def scopeRigs (t : Tables) : RecentQueueTransitionScope → List String
  | .rig rig => [rig]
  | .wholeInstance => (t.rigs.filter (·.archivedAt.isNone)).map RigRow.name

/-- `requestedLimit`: between 1 and 20, and 20 where it is no finite number. -/
def clampLimit (requestedLimit : Option ℤ) : ℕ :=
  match requestedLimit with
  | some n => (min 20 (max 1 n)).toNat
  | none => 20

/-- The pattern that selects a rig's sessions. -/
def sessionPattern (rig : String) : List Char := '%' :: '@' :: escapeWildcards '\\' rig.toList

/-- A row one of the patterns matches, by its destination or its source. -/
def selected (rigNames : List String) (item : QueueItem) : Bool :=
  (rigNames.any fun rig => likeEscape '\\' (sessionPattern rig) item.destinationSession.toList) ||
    rigNames.any fun rig => likeEscape '\\' (sessionPattern rig) item.sourceSession.toList

/-- A row of which the sessions parse to a rig of the scope. -/
def inScope (rigNames : List String) (item : QueueItem) : Bool :=
  (sessionRig rigNames item.destinationSession).isSome ||
    (sessionRig rigNames item.sourceSession).isSome

def rowOf (t : Tables) (x : Transition) : Option QueueItem := t.items.get? x.qitemId

/-- `MAX(transition_id)` below a transition's, of the same row in one table. -/
def predecessor (table : List Transition) (x : Transition) : Option Transition :=
  (ordered newer (table.filter fun y =>
    y.qitemId = x.qitemId && y.transitionId < x.transitionId)).head?

/-- `previousState`: the greatest of the tables' predecessors. -/
def previousState (t : Tables) (x : Transition) : Option QueueState :=
  let found := fun (best candidate : Option Transition) => match best, candidate with
    | none, c => c
    | some b, none => some b
    | some b, some c => if b.transitionId < c.transitionId then some c else some b
  (found (found none (predecessor t.live x)) (predecessor (t.archive.map Prod.fst) x)).map
    Transition.state

/-- The walk's loop: it reads a predecessor where the rule needs one, and stops at the limit. -/
def collect (t : Tables) : ℕ → List Transition → List (Transition × Option QueueState)
  | 0, _ => []
  | _ + 1, [] => []
  | n + 1, x :: rest =>
    let previous := if x.state = .inProgress ∨ x.state = .blocked then previousState t x else none
    if qualifiesAsRecent x previous then (x, previous) :: collect t n rest
    else collect t (n + 1) rest

def newestQualifying (t : Tables) (rigNames : List String) (limit : ℕ) :
    List (Transition × Option QueueState) :=
  let scopeItems := (t.items.rows.filter (selected rigNames)).map QueueItem.qitemId
  collect t limit (ordered later (t.historySource.filter fun x => scopeItems.contains x.qitemId))

/-- What is shown of a walked transition, when a session names a rig of the scope. -/
def recentOf (t : Tables) (rigNames : List String) (row : Transition × Option QueueState) :
    Option RecentQueueTransition := do
  let change ← recentChange row.1 row.2
  let item ← rowOf t row.1
  let rig ← sessionRig rigNames item.destinationSession <|>
    sessionRig rigNames item.sourceSession <|> sessionRig rigNames row.1.actorSession
  return {
    transitionId := row.1.transitionId, qitemId := row.1.qitemId, ts := row.1.ts,
    actorSession := row.1.actorSession, change, summary := shownSummary item,
    bodyPreview := (bodyHead item).bind bodyPreview, rig,
    targetKind := (recentTarget item).1, target := (recentTarget item).2 }

def listRecent (t : Tables) (scope : RecentQueueTransitionScope) (requestedLimit : Option ℤ) :
    List RecentQueueTransition :=
  let rigNames := scopeRigs t scope
  if rigNames = [] then []
  else ((newestQualifying t rigNames (clampLimit requestedLimit)).reverse).filterMap
    (recentOf t rigNames)

/-! ### What is asked for -/

/-- The state of the same row's previous transition over the whole history. -/
def lagState (t : Tables) (x : Transition) : Option QueueState :=
  ((ordered older (t.historySource.filter fun y =>
    y.qitemId = x.qitemId && y.transitionId < x.transitionId)).getLast?).map Transition.state

/-- The qualifying transitions, newest first. -/
def qualifying (t : Tables) : List Transition :=
  (ordered later t.historySource).filter fun x => qualifiesAsRecent x (lagState t x)

/-- **The recent activity of a scope**: the newest qualifying transitions of its rows, newest
last. -/
def recentActivity (t : Tables) (rigNames : List String) (limit : ℕ) : List Transition :=
  (((qualifying t).filter fun x => (rowOf t x).any (inScope rigNames)).take limit).reverse

/-! ### Predecessors -/

lemma head_newer {l : List Transition} {y : Transition} (h : (ordered newer l).head? = some y) :
    y ∈ l ∧ ∀ z ∈ l, z.transitionId ≤ y.transitionId := by
  have hpair := ordered_pairwise (r := newer) l
  obtain ⟨rest, hrest⟩ := List.head?_eq_some_iff.mp h
  rw [hrest, List.pairwise_cons] at hpair
  refine ⟨mem_ordered.mp (hrest ▸ List.mem_cons_self), fun z hz => ?_⟩
  have hz : z ∈ y :: rest := hrest ▸ mem_ordered.mpr hz
  rcases List.mem_cons.mp hz with rfl | hz
  · exact le_refl _
  · exact hpair.1 z hz

lemma last_older {l : List Transition} {y : Transition}
    (h : (ordered older l).getLast? = some y) :
    y ∈ l ∧ ∀ z ∈ l, z.transitionId ≤ y.transitionId := by
  have hpair := ordered_pairwise (r := older) l
  obtain ⟨front, hfront⟩ := List.getLast?_eq_some_iff.mp h
  rw [hfront, List.pairwise_append] at hpair
  have hy : y ∈ ordered older l := by
    rw [hfront]
    simp
  refine ⟨mem_ordered.mp hy, fun z hz => ?_⟩
  have hz : z ∈ front ++ [y] := hfront ▸ mem_ordered.mpr hz
  rcases List.mem_append.mp hz with hz | hz
  · exact hpair.2.2 z hz y (List.mem_singleton_self y)
  · obtain rfl := List.mem_singleton.mp hz
    exact le_refl _

lemma newest_union {a b l : List Transition} (hl : ∀ x, x ∈ l ↔ x ∈ a ∨ x ∈ b)
    (hn : (l.map Transition.transitionId).Nodup) :
    (match (ordered newer a).head?, (ordered newer b).head? with
      | none, c => c
      | some x, none => some x
      | some x, some y => if x.transitionId < y.transitionId then some y else some x) =
      (ordered older l).getLast? := by
  have huniq : ∀ y z, y ∈ l → (∀ x ∈ l, x.transitionId ≤ y.transitionId) →
      (ordered older l).getLast? = some z → some y = some z := by
    intro y z hy hmax hz
    obtain ⟨hz, hmax'⟩ := last_older hz
    exact congrArg some (List.inj_on_of_nodup_map hn hy hz (le_antisymm (hmax' y hy) (hmax z hz)))
  have hsome : ∀ y, y ∈ l → (∀ x ∈ l, x.transitionId ≤ y.transitionId) →
      some y = (ordered older l).getLast? := by
    intro y hy hmax
    cases hz : (ordered older l).getLast? with
    | some z => exact huniq y z hy hmax hz
    | none =>
      have hnil := List.getLast?_eq_none_iff.mp hz
      have := mem_ordered (r := older).mpr hy
      rw [hnil] at this
      cases this
  have hempty : ∀ c : List Transition, (ordered newer c).head? = none → ∀ x, x ∉ c := by
    intro c hc x hx
    have hnil := List.head?_eq_none_iff.mp hc
    have := mem_ordered (r := newer).mpr hx
    rw [hnil] at this
    cases this
  cases ha : (ordered newer a).head? with
  | none =>
    have ha := hempty a ha
    cases hb : (ordered newer b).head? with
    | none =>
      have hb := hempty b hb
      cases hz : (ordered older l).getLast? with
      | none => rfl
      | some z => exact (((hl z).mp (last_older hz).1).elim (ha z) (hb z)).elim
    | some y =>
      obtain ⟨hy, hmax⟩ := head_newer hb
      exact hsome y ((hl y).mpr (.inr hy)) fun x hx =>
        hmax x (((hl x).mp hx).resolve_left (ha x))
  | some x =>
    obtain ⟨hx, hmax⟩ := head_newer ha
    cases hb : (ordered newer b).head? with
    | none =>
      have hb := hempty b hb
      exact hsome x ((hl x).mpr (.inl hx)) fun z hz =>
        hmax z (((hl z).mp hz).resolve_right (hb z))
    | some y =>
      obtain ⟨hy, hmax'⟩ := head_newer hb
      dsimp only
      split
      · rename_i hlt
        exact hsome y ((hl y).mpr (.inr hy)) fun z hz => ((hl z).mp hz).elim
          (fun h => le_trans (hmax z h) hlt.le) (hmax' z)
      · rename_i hge
        exact hsome x ((hl x).mpr (.inl hx)) fun z hz => ((hl z).mp hz).elim
          (hmax z) fun h => le_trans (hmax' z h) (not_lt.mp hge)

/-- **The walk's predecessor is the window's**: the same row's previous transition, whichever
table it is in. -/
lemma previousState_eq (t : Tables) (x : Transition) : previousState t x = lagState t x := by
  unfold previousState lagState predecessor
  refine congrArg (Option.map Transition.state) (newest_union (fun y => ?_)
    (nodup_filter t.nodup _))
  unfold Tables.historySource
  rw [List.filter_append, List.mem_append]

lemma qualifies_previous (t : Tables) (x : Transition) :
    qualifiesAsRecent x (if x.state = .inProgress ∨ x.state = .blocked then previousState t x
      else none) = qualifiesAsRecent x (lagState t x) := by
  split
  · rw [previousState_eq]
  · rename_i hs
    rw [not_or] at hs
    simp [qualifiesAsRecent, hs.1, hs.2]

/-! ### The walk's rows -/

/-- A walked transition, with the state the loop read for it. -/
def walkedRow (t : Tables) (x : Transition) : Transition × Option QueueState :=
  (x, if x.state = .inProgress ∨ x.state = .blocked then previousState t x else none)

lemma collect_eq (t : Tables) (n : ℕ) (l : List Transition) :
    collect t n l =
      ((l.filter fun x => qualifiesAsRecent x (lagState t x)).take n).map (walkedRow t) := by
  induction l generalizing n with
  | nil => cases n <;> rfl
  | cons x rest ih =>
    cases n with
    | zero => rfl
    | succ n =>
      rw [collect, qualifies_previous, List.filter_cons]
      split
      · rw [List.take_succ_cons, List.map_cons, ih]
        rfl
      · exact ih (n + 1)

lemma scopeItems_contains (t : Tables) (rigNames : List String) (x : Transition) :
    ((t.items.rows.filter (selected rigNames)).map QueueItem.qitemId).contains x.qitemId =
      (rowOf t x).any (selected rigNames) := by
  rw [Bool.eq_iff_iff, List.contains_iff_mem, List.mem_map, Option.any_eq_true]
  constructor
  · rintro ⟨item, hitem, hid⟩
    obtain ⟨hget, hsel⟩ := Table.mem_filter.mp hitem
    rw [hid] at hget
    exact ⟨item, hget, hsel⟩
  · rintro ⟨item, hget, hsel⟩
    have hid := Table.get?_key hget
    refine ⟨item, Table.mem_filter.mpr ⟨?_, hsel⟩, hid⟩
    rw [hid]
    exact hget

/-- The qualifying transitions of the rows the patterns select, newest first. -/
def walked (t : Tables) (rigNames : List String) : List Transition :=
  (qualifying t).filter fun x => (rowOf t x).any (selected rigNames)

/-- The qualifying transitions of the rows in scope, newest first. -/
def ofScope (t : Tables) (rigNames : List String) : List Transition :=
  (qualifying t).filter fun x => (rowOf t x).any (inScope rigNames)

/-- A transition a session of which names a rig of the scope: its row's, or its actor's. -/
def named (t : Tables) (rigNames : List String) (x : Transition) : Bool :=
  (rowOf t x).any fun item =>
    inScope rigNames item || (sessionRig rigNames x.actorSession).isSome

lemma newestQualifying_eq (t : Tables) (rigNames : List String) (limit : ℕ) :
    newestQualifying t rigNames limit =
      ((walked t rigNames).take limit).map (walkedRow t) := by
  unfold newestQualifying walked qualifying
  dsimp only
  simp only [scopeItems_contains]
  rw [collect_eq, ordered_filter t.nodup, List.filter_filter, List.filter_filter]
  simp only [Bool.and_comm]

lemma recentOf_isSome {t : Tables} {rigNames : List String} {x : Transition}
    {previous : Option QueueState} (h : qualifiesAsRecent x previous = true) :
    (recentOf t rigNames (x, previous)).isSome = named t rigNames x := by
  rw [← recentChange_isSome] at h
  obtain ⟨change, hc⟩ := Option.isSome_iff_exists.mp h
  unfold recentOf named inScope
  rw [hc]
  cases hr : rowOf t x with
  | none => rfl
  | some item =>
    cases hd : sessionRig rigNames item.destinationSession <;>
      cases hs : sessionRig rigNames item.sourceSession <;>
      cases ha : sessionRig rigNames x.actorSession <;> simp [hd, hs]

lemma recentOf_id {t : Tables} {rigNames : List String} {x : Transition}
    {previous : Option QueueState} {e : RecentQueueTransition}
    (h : recentOf t rigNames (x, previous) = some e) : e.transitionId = x.transitionId := by
  unfold recentOf at h
  simp only [Option.bind_eq_bind, Option.bind_eq_some_iff] at h
  obtain ⟨change, -, item, -, rig, -, h⟩ := h
  cases h
  rfl

lemma shown_ids {t : Tables} {rigNames : List String} {l : List Transition}
    (hl : ∀ x ∈ l, qualifiesAsRecent x (lagState t x) = true) :
    ((l.map (walkedRow t)).filterMap (recentOf t rigNames)).map RecentQueueTransition.transitionId =
      (l.filter (named t rigNames)).map Transition.transitionId := by
  induction l with
  | nil => rfl
  | cons x rest ih =>
    have ih := ih fun y hy => hl y (List.mem_cons_of_mem _ hy)
    have hx := hl x List.mem_cons_self
    rw [← qualifies_previous] at hx
    have hsome : (recentOf t rigNames (walkedRow t x)).isSome = named t rigNames x :=
      recentOf_isSome hx
    rw [List.map_cons, List.filterMap_cons, List.filter_cons]
    cases hr : recentOf t rigNames (walkedRow t x) with
    | none =>
      rw [hr] at hsome
      simpa [← hsome] using ih
    | some e =>
      rw [hr] at hsome
      simpa [← hsome, recentOf_id hr] using ih

/-! ### When the answer is the recent activity -/

/-- **When the walk answers for the scope**: the newest transitions of the rows in scope are among
the newest of the rows the patterns select, and none of these is shown for its actor alone. -/
structure Covers (t : Tables) (rigNames : List String) (limit : ℕ) : Prop where
  reached : ∀ x ∈ (ofScope t rigNames).take limit, x ∈ (walked t rigNames).take limit
  owned : ∀ x ∈ (walked t rigNames).take limit, named t rigNames x = true →
    (rowOf t x).any (inScope rigNames) = true

lemma nodup_qualifying (t : Tables) : ((qualifying t).map Transition.transitionId).Nodup :=
  nodup_filter (((ordered_perm _).map _).nodup_iff.mpr t.nodup) _

lemma cut_eq {t : Tables} {a b : List Transition} (ha : a.Sublist (qualifying t))
    (hb : b.Sublist (qualifying t)) (h : ∀ x, x ∈ a ↔ x ∈ b) : a = b := by
  have hn := nodup_qualifying t
  have hsorted : (qualifying t).Pairwise later := (ordered_pairwise _).filter _
  have hna := hn.sublist (ha.map _)
  refine Ordered.eq_of_perm inferInstance (hsorted.sublist ha) (hsorted.sublist hb) ?_ hna
  exact (List.perm_ext_iff_of_nodup (hna.of_map _) ((hn.sublist (hb.map _)).of_map _)).mpr h

lemma ofScope_sublist (t : Tables) (rigNames : List String) (limit : ℕ) :
    ((ofScope t rigNames).take limit).Sublist (qualifying t) :=
  (List.take_sublist _ _).trans List.filter_sublist

lemma walked_sublist (t : Tables) (rigNames : List String) (limit : ℕ) (p : Transition → Bool) :
    (((walked t rigNames).take limit).filter p).Sublist (qualifying t) :=
  List.filter_sublist.trans ((List.take_sublist _ _).trans List.filter_sublist)

lemma Covers.filter_eq {t : Tables} {rigNames : List String} {limit : ℕ}
    (h : Covers t rigNames limit) :
    ((walked t rigNames).take limit).filter (named t rigNames) =
      (ofScope t rigNames).take limit := by
  refine cut_eq (walked_sublist t rigNames limit _) (ofScope_sublist t rigNames limit) fun x => ?_
  rw [List.mem_filter]
  constructor
  · rintro ⟨hx, hname⟩
    have hin := h.owned x hx hname
    have hq : x ∈ qualifying t := (List.mem_filter.mp (List.mem_of_mem_take hx)).1
    have hof : x ∈ ofScope t rigNames := List.mem_filter.mpr ⟨hq, hin⟩
    by_contra hout
    -- the scope's newest and this one are more than the walk took
    have hlen : ((ofScope t rigNames).take limit).length = limit := by
      rw [List.length_take, min_eq_left]
      by_contra hlt
      rw [List.take_of_length_le (not_le.mp hlt).le] at hout
      exact hout hof
    have hnodup : (x :: (ofScope t rigNames).take limit).Nodup :=
      List.nodup_cons.mpr ⟨hout, ((nodup_qualifying t).sublist
        ((ofScope_sublist t rigNames limit).map _)).of_map _⟩
    have hsub : x :: (ofScope t rigNames).take limit ⊆ (walked t rigNames).take limit := by
      intro y hy
      rcases List.mem_cons.mp hy with rfl | hy
      · exact hx
      · exact h.reached y hy
    have hle := (List.subperm_of_subset hnodup hsub).length_le
    have htake := List.length_take_le limit (walked t rigNames)
    rw [List.length_cons, hlen] at hle
    omega
  · intro hx
    obtain ⟨hq, hin⟩ := List.mem_filter.mp (List.mem_of_mem_take hx)
    refine ⟨h.reached x hx, ?_⟩
    obtain ⟨item, hr, hscope⟩ := (Option.any_eq_true _ _).mp hin
    rw [named, hr, Option.any_some, hscope, Bool.true_or]

lemma covers_iff (t : Tables) (rigNames : List String) (limit : ℕ) :
    ((walked t rigNames).take limit).filter (named t rigNames) =
      (ofScope t rigNames).take limit ↔ Covers t rigNames limit := by
  constructor
  · intro h
    refine ⟨fun x hx => ?_, fun x hx hname => ?_⟩
    · rw [← h] at hx
      exact List.mem_of_mem_filter hx
    · have hmem : x ∈ (ofScope t rigNames).take limit := by
        rw [← h]
        exact List.mem_filter.mpr ⟨hx, hname⟩
      exact (List.mem_filter.mp (List.mem_of_mem_take hmem)).2
  · exact Covers.filter_eq

lemma listRecent_ids (t : Tables) (scope : RecentQueueTransitionScope)
    (requestedLimit : Option ℤ) :
    (listRecent t scope requestedLimit).map RecentQueueTransition.transitionId =
      (((walked t (scopeRigs t scope)).take (clampLimit requestedLimit)).filter
        (named t (scopeRigs t scope))).reverse.map Transition.transitionId := by
  unfold listRecent
  dsimp only
  generalize scopeRigs t scope = rigNames
  split
  · rename_i hnil
    have hwalk : walked t [] = [] := by
      refine List.filter_eq_nil_iff.mpr fun x _ => ?_
      cases rowOf t x <;> simp [selected]
    rw [hnil, hwalk]
    simp
  · rw [newestQualifying_eq, ← List.map_reverse, shown_ids, List.filter_reverse]
    intro x hx
    have hx := List.mem_of_mem_take (List.mem_reverse.mp hx)
    exact (List.mem_filter.mp (List.mem_filter.mp hx).1).2

/-- **The recent activity is the newest qualifying transitions of the scope** exactly when the
walk answers for it, for any tables, scope and limit. -/
theorem recent_activity_iff (t : Tables) (scope : RecentQueueTransitionScope)
    (requestedLimit : Option ℤ) :
    (listRecent t scope requestedLimit).map RecentQueueTransition.transitionId =
        (recentActivity t (scopeRigs t scope) (clampLimit requestedLimit)).map
          Transition.transitionId ↔
      Covers t (scopeRigs t scope) (clampLimit requestedLimit) := by
  rw [listRecent_ids, ← covers_iff]
  generalize scopeRigs t scope = rigNames
  generalize clampLimit requestedLimit = limit
  unfold recentActivity
  change _ = (((ofScope t rigNames).take limit).reverse).map Transition.transitionId ↔ _
  constructor
  · intro h
    rw [List.map_reverse, List.map_reverse, List.reverse_inj] at h
    have ha := walked_sublist t rigNames limit (named t rigNames)
    have hb := ofScope_sublist t rigNames limit
    have hinj := List.inj_on_of_nodup_map (nodup_qualifying t)
    refine cut_eq ha hb fun x => ⟨fun hx => ?_, fun hx => ?_⟩
    · have hid := List.mem_map_of_mem (f := Transition.transitionId) hx
      rw [h] at hid
      obtain ⟨y, hy, he⟩ := List.mem_map.mp hid
      exact hinj (hb.mem hy) (ha.mem hx) he ▸ hy
    · have hid := List.mem_map_of_mem (f := Transition.transitionId) hx
      rw [← h] at hid
      obtain ⟨y, hy, he⟩ := List.mem_map.mp hid
      exact hinj (ha.mem hy) (hb.mem hx) he ▸ hy
  · intro h
    rw [h]

/-! ### Pattern and parse -/

lemma splitFirst_eq_some {c : Char} {s : String} {before after : List Char}
    (h : splitFirst c s = some (before, after)) : s.toList = before ++ c :: after := by
  unfold splitFirst at h
  rw [List.span_eq_takeWhile_dropWhile] at h
  have hcut := List.takeWhile_append_dropWhile (p := (· ≠ c)) (l := s.toList)
  cases hd : s.toList.dropWhile (· ≠ c) with
  | nil =>
    rw [hd] at h
    cases h
  | cons d rest =>
    have hfirst : d = c := by
      have := List.head?_dropWhile_not (· ≠ c) s.toList
      rw [hd] at this
      simpa using this
    rw [hd] at h hcut
    cases h
    rw [hfirst] at hcut
    exact hcut.symm

lemma sessionRig_eq_some {rigNames : List String} {session rig : String}
    (h : sessionRig rigNames session = some rig) :
    rig ∈ rigNames ∧ ∃ member, session.toList = member ++ '@' :: rig.toList := by
  unfold sessionRig at h
  split at h
  · cases h
  · split at h
    · rename_i member rigText hparse
      split at h
      · rename_i hmem
        cases h
        refine ⟨hmem, member, ?_⟩
        unfold parseSessionName at hparse
        split at hparse
        · rename_i before after hsplit
          split at hparse
          · cases hparse
          · split at hparse
            · cases hparse
              simpa using splitFirst_eq_some hsplit
            · cases hparse
        · split at hparse <;> cases hparse
      · cases h
    · cases h

/-- **The patterns miss no row in scope**, where no rig's name holds the escape character. -/
lemma selected_of_inScope {rigNames : List String}
    (hplain : ∀ rig ∈ rigNames, '\\' ∉ rig.toList) {item : QueueItem}
    (h : inScope rigNames item = true) : selected rigNames item = true := by
  have hmatch : ∀ session : String, (sessionRig rigNames session).isSome = true →
      (rigNames.any fun rig => likeEscape '\\' (sessionPattern rig) session.toList) = true := by
    intro session hs
    obtain ⟨rig, hr⟩ := Option.isSome_iff_exists.mp hs
    obtain ⟨hmem, member, hsession⟩ := sessionRig_eq_some hr
    refine List.any_eq_true.mpr ⟨rig, hmem, ?_⟩
    rw [hsession]
    refine likeEscape_percent member ?_
    have hself : likeEscape '\\' (escapeWildcards '\\' rig.toList) rig.toList = true :=
      likeEscape_self (by decide) (hplain rig hmem)
    rw [likeEscape.eq_def]
    simpa using hself
  unfold inScope at h
  unfold selected
  rw [Bool.or_eq_true] at h ⊢
  exact h.imp (hmatch _) (hmatch _)

/-- The walk answers for the scope when every row it takes is in scope. -/
theorem covers_of_inScope {t : Tables} {rigNames : List String} {limit : ℕ}
    (hplain : ∀ rig ∈ rigNames, '\\' ∉ rig.toList)
    (h : ∀ x ∈ (walked t rigNames).take limit, (rowOf t x).any (inScope rigNames) = true) :
    Covers t rigNames limit := by
  have hof : (walked t rigNames).filter (fun x => (rowOf t x).any (inScope rigNames)) =
      ofScope t rigNames := by
    unfold walked ofScope
    rw [List.filter_filter]
    refine List.filter_congr fun x _ => ?_
    cases hr : rowOf t x with
    | none => rfl
    | some item =>
      cases hin : inScope rigNames item with
      | false => simp [hin]
      | true => simp [hin, selected_of_inScope hplain hin]
  refine ⟨fun x hx => ?_, fun x hx _ => h x hx⟩
  rw [← hof, ← List.take_append_drop limit (walked t rigNames), List.filter_append,
    List.filter_eq_self.mpr h] at hx
  by_cases hlen : limit ≤ (walked t rigNames).length
  · rwa [List.take_append_of_le_length (by simp [hlen]), List.take_of_length_le (by simp)] at hx
  · rw [List.drop_of_length_le (not_le.mp hlen).le, List.filter_nil, List.append_nil] at hx
    exact List.mem_of_mem_take hx

/-! ### A row of another rig -/

def handedRow (id destination : String) : QueueItem :=
  { qitemId := id, tsCreated := 0, tsUpdated := 0, sourceSession := "ops@hub",
    destinationSession := destination, state := .failed, priority := "normal", body := "" }

def failure (n : ℕ) (id : String) : Transition :=
  { transitionId := n, qitemId := id, ts := 1000 * n, state := .failed, actorSession := "ops@hub",
    transitionNote := none, closureReason := none, closureTarget := none,
    identityProvenance := none, identityPrincipal := none, ownerNotification := none }

/-- Two rigs whose names differ in case only, and a failure in each. -/
def twoRigs : Tables where
  items := ⟨[handedRow "qitem-a" "qa@dev", handedRow "qitem-b" "qa@DEV"], by decide⟩
  rigs := [⟨"dev", none⟩, ⟨"DEV", none⟩]
  instances := []
  live := [failure 2 "qitem-b", failure 1 "qitem-a"]
  archive := []
  unique := by decide

/-- The other rig's newer failure takes the place, and nothing is shown. -/
theorem other_rig_takes_place :
    listRecent twoRigs (.rig "dev") (some 1) = [] ∧
      (recentActivity twoRigs ["dev"] 1).map Transition.transitionId = [1] := by
  decide +kernel

end OpenRig.RecentActivity
