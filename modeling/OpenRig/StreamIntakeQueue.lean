import OpenRig.StreamIntake

/-!
The intake's memory: before an id comes everything that is still to be taken before its item, at
every point of a catch-up and of a drain, whatever comes or goes meanwhile.
-/

namespace OpenRig.StreamIntake

open OpenRig.JsText OpenRig.StreamStore OpenRig.Runs

/-! ### Pushing ids -/

lemma mem_push {ids l : List String} {id : String} : id ∈ push ids l ↔ id ∈ ids ∨ id ∈ l := by
  induction l generalizing ids with
  | nil => simp [push]
  | cons a l ih =>
    rw [push, ih]
    split
    · rename_i ha
      rw [List.mem_cons]
      constructor
      · rintro (h | h)
        · exact .inl h
        · exact .inr (.inr h)
      · rintro (h | rfl | h)
        · exact .inl h
        · exact .inl ha
        · exact .inr h
    · rw [List.mem_append, List.mem_singleton, List.mem_cons, or_assoc]

lemma push_append (ids l : List String) : ∃ more, push ids l = ids ++ more := by
  induction l generalizing ids with
  | nil => exact ⟨[], by simp [push]⟩
  | cons a l ih =>
    obtain ⟨more, hmore⟩ := ih (if a ∈ ids then ids else ids ++ [a])
    rw [push, hmore]
    split
    · exact ⟨more, rfl⟩
    · exact ⟨a :: more, by simp⟩

lemma push_new {ids : List String} {id : String} (h : id ∉ ids) : push ids [id] = ids ++ [id] := by
  simp [push, h]

/-! ### What is ahead -/

lemma ahead_some {c k : String} : Paging.ahead (some c) k = true ↔ c < k := by
  rw [Paging.ahead, Option.all_some, decide_eq_true_eq]

lemma not_ahead_some {c k : String} : Paging.ahead (some c) k = false ↔ k ≤ c := by
  rw [Paging.ahead, Option.all_some, decide_eq_false_iff_not, not_lt]

/-- An item that is still to be taken. -/
structure Ahead (items : Items) (cursor : Option String) (x : StreamItem) : Prop where
  there : x ∈ items.rows
  live : live x = true
  ahead : Paging.ahead cursor (sortKey x) = true

/-- Before each id stands what is to be taken before its item. -/
def Ordered (items : Items) (cursor : Option String) (ids : List String) : Prop :=
  ∀ pre id post, ids = pre ++ id :: post → ∀ y, items.get? id = some y →
    ∀ x, Ahead items cursor x → sortKey x < sortKey y → x.streamItemId ∈ pre

/-- The ids stand in the order of their items' keys. -/
def Ascending (items : Items) (ids : List String) : Prop :=
  ids.Pairwise fun i j => ∀ x y, items.get? i = some x → items.get? j = some y →
    sortKey x < sortKey y

lemma ordered_append {items : Items} {cursor : Option String} {ids : List String} {id : String}
    (h : Ordered items cursor ids) (hid : ∀ y, items.get? id = some y →
      ∀ x, Ahead items cursor x → sortKey x < sortKey y → x.streamItemId ∈ ids) :
    Ordered items cursor (ids ++ [id]) := by
  intro pre id' post heq y hy x hx hlt
  rcases List.eq_nil_or_concat post with rfl | ⟨post', last, rfl⟩
  · obtain ⟨rfl, hlast⟩ := List.append_inj' heq rfl
    cases hlast
    exact hid y hy x hx hlt
  · have hcons : pre ++ id' :: (post' ++ [last]) = (pre ++ id' :: post') ++ [last] := by simp
    rw [List.concat_eq_append, hcons] at heq
    obtain ⟨rfl, -⟩ := List.append_inj' heq rfl
    exact h pre id' post' rfl y hy x hx hlt

lemma ordered_push {items : Items} {cursor : Option String} {ids l : List String}
    (h : Ordered items cursor ids)
    (hl : ∀ pre id post, l = pre ++ id :: post → ∀ y, items.get? id = some y →
      ∀ x, Ahead items cursor x → sortKey x < sortKey y →
        x.streamItemId ∈ pre ∨ x.streamItemId ∈ ids) : Ordered items cursor (push ids l) := by
  induction l generalizing ids with
  | nil => exact h
  | cons a l ih =>
    rw [push]
    refine ih ?_ fun pre id post heq y hy x hx hlt => ?_
    · split
      · exact h
      · refine ordered_append h fun y hy x hx hlt => ?_
        simpa using hl [] a l rfl y hy x hx hlt
    · have := hl (a :: pre) id post (by rw [heq, List.cons_append]) y hy x hx hlt
      rw [List.mem_cons] at this
      split
      · rename_i ha
        rcases this with (hxa | hpre) | hids
        · exact .inr (hxa ▸ ha)
        · exact .inl hpre
        · exact .inr hids
      · rw [List.mem_append, List.mem_singleton]
        rcases this with (hxa | hpre) | hids
        · exact .inr (.inr hxa)
        · exact .inl hpre
        · exact .inr (.inl hids)

lemma ordered_held {items : Items} {cursor : Option String} {ids held : List String}
    (h : Ordered items cursor ids) (hheld : Ascending items held)
    (hall : ∀ x, Ahead items cursor x → x.streamItemId ∈ held ∨ x.streamItemId ∈ ids) :
    Ordered items cursor (push ids held) := by
  refine ordered_push h fun pre id post heq y hy x hx hlt => ?_
  rcases hall x hx with hin | hin
  · left
    rw [heq] at hin hheld
    obtain ⟨-, hcons, hacross⟩ := List.pairwise_append.mp hheld
    have hget : items.get? x.streamItemId = some x := Table.get?_of_mem hx.there
    rcases List.mem_append.mp hin with hpre | hrest
    · exact hpre
    rcases List.mem_cons.mp hrest with hid | hpost
    · rw [← hid, hget] at hy
      cases hy
      exact absurd hlt (lt_irrefl _)
    · -- It would stand after an item with a greater key.
      have := (List.pairwise_cons.mp hcons).1 _ hpost y x hy hget
      exact absurd hlt (lt_asymm this)
  · exact .inr hin

/-! ### The invariant -/

/-- An emit's id and sort key. -/
abbrev Draw := String × String

def draws : Label → List Draw
  | .emit _ ulid key input _ => [(input.streamItemId.getD ulid, key)]
  | _ => []

def drawn (ls : List Label) : List Draw := ls.flatMap draws

/-- What a catch-up has put in its place so far: the pending ids hold what is ahead up to a key, and
the held ones what is ahead of the bound. -/
def Placed (fs : List Draw) (items : Items) (cursor : Option String) (p : Coordinator) : Prop :=
  match p.catchUp with
  | none => p.catchUpIncomplete = false →
      ∀ x, Ahead items cursor x → x.streamItemId ∈ p.pendingStreamItemIds
  | some (.draining bound last full) => (∀ f ∈ fs, bound < f.2) ∧ last ≤ bound ∧
      (∀ x, Ahead items cursor x → sortKey x ≤ (if full then last else bound) →
        x.streamItemId ∈ p.pendingStreamItemIds) ∧
      ∀ x, Ahead items cursor x → bound < sortKey x → x.streamItemId ∈ p.heldLiveItemIds
  | some (.yielded bound current) => (∀ f ∈ fs, bound < f.2) ∧ (∀ f ∈ fs, current < f.2) ∧
      (∀ x, Ahead items cursor x → current < sortKey x) ∧
      ∀ x, Ahead items cursor x → bound < sortKey x → x.streamItemId ∈ p.heldLiveItemIds

/-- An id with an item, or one that is not drawn again. -/
def Settled (fs : List Draw) (items : Items) (id : String) : Prop :=
  (items.get? id).isSome ∨ ∀ f ∈ fs, f.1 ≠ id

/-- The coordinator's memory, before the draws to come. -/
structure Running (fs : List Draw) (items : Items) (cursor : Option String) (p : Coordinator) :
    Prop where
  order : Ordered items cursor p.pendingStreamItemIds
  held : Ascending items p.heldLiveItemIds
  pendingSettled : ∀ id ∈ p.pendingStreamItemIds, Settled fs items id
  heldSettled : ∀ id ∈ p.heldLiveItemIds, Settled fs items id
  placed : Placed fs items cursor p
  handled : p.processing = some true → ∃ id rest, p.pendingStreamItemIds = id :: rest ∧
    ∀ y, items.get? id = some y → Paging.ahead cursor (sortKey y) = false

/-! ### Fewer items ahead -/

/-- Items go or are archived, and the cursor moves on. -/
structure Eases (items items' : Items) (cursor cursor' : Option String) : Prop where
  rows : ∀ id y', items'.get? id = some y' → ∃ y, items.get? id = some y ∧ sortKey y' = sortKey y
  live : ∀ x ∈ items'.rows, StreamIntake.live x = true → x ∈ items.rows
  onward : ∀ k, Paging.ahead cursor' k = true → Paging.ahead cursor k = true

variable {cfg : Settings} {fs : List Draw} {items items' : Items} {cursor cursor' : Option String}
  {p : Coordinator} {w w' : World}

lemma Eases.ahead (h : Eases items items' cursor cursor') {x : StreamItem}
    (hx : Ahead items' cursor' x) : Ahead items cursor x :=
  ⟨h.live x hx.there hx.live, hx.live, h.onward _ hx.ahead⟩

lemma Ordered.ease (h : Eases items items' cursor cursor') {ids : List String}
    (ho : Ordered items cursor ids) : Ordered items' cursor' ids := by
  intro pre id post heq y' hy' x hx hlt
  obtain ⟨y, hy, hkey⟩ := h.rows id y' hy'
  exact ho pre id post heq y hy x (h.ahead hx) (hkey ▸ hlt)

lemma Ascending.ease (h : Eases items items' cursor cursor') {ids : List String}
    (ha : Ascending items ids) : Ascending items' ids := by
  refine ha.imp fun {i j} hij x' y' hx' hy' => ?_
  obtain ⟨x, hx, hkx⟩ := h.rows i x' hx'
  obtain ⟨y, hy, hky⟩ := h.rows j y' hy'
  rw [hkx, hky]
  exact hij x y hx hy

lemma Placed.ease (h : Eases items items' cursor cursor') (hp : Placed fs items cursor p) :
    Placed fs items' cursor' p := by
  unfold Placed at hp ⊢
  split
  · rename_i hnone
    rw [hnone] at hp
    exact fun hlive x hx => hp hlive x (h.ahead hx)
  · rename_i bound last full heq
    rw [heq] at hp
    exact ⟨hp.1, hp.2.1, fun x hx => hp.2.2.1 x (h.ahead hx), fun x hx => hp.2.2.2 x (h.ahead hx)⟩
  · rename_i bound current heq
    rw [heq] at hp
    exact ⟨hp.1, hp.2.1, fun x hx => hp.2.2.1 x (h.ahead hx), fun x hx => hp.2.2.2 x (h.ahead hx)⟩

lemma Running.ease (h : Eases items items' cursor cursor')
    (hsettled : ∀ id, Settled fs items id → Settled fs items' id)
    (hr : Running fs items cursor p) : Running fs items' cursor' p where
  order := hr.order.ease h
  held := hr.held.ease h
  pendingSettled id hid := hsettled id (hr.pendingSettled id hid)
  heldSettled id hid := hsettled id (hr.heldSettled id hid)
  placed := hr.placed.ease h
  handled hdone := by
    obtain ⟨id, rest, heq, hbehind⟩ := hr.handled hdone
    refine ⟨id, rest, heq, fun y' hy' => ?_⟩
    obtain ⟨y, hy, hkey⟩ := h.rows id y' hy'
    by_contra hahead
    have := h.onward _ (Bool.eq_true_of_not_eq_false hahead)
    rw [hkey, hbehind y hy] at this
    cases this

lemma eases_archive (now : Time) (items : Items) (id : String) (cursor : Option String) :
    Eases items (archive now items id) cursor cursor := by
  refine ⟨fun i y' hy' => ?_, fun x hx hlive => ?_, fun _ h => h⟩
  · unfold archive at hy'
    rw [Table.get?_updateWhere] at hy'
    obtain ⟨y, hy, rfl⟩ := Option.map_eq_some_iff.mp hy'
    refine ⟨y, hy, ?_⟩
    unfold Table.rewrite
    split <;> rfl
  · obtain ⟨old, hold, rfl⟩ := List.mem_map.mp hx
    unfold Table.rewrite at hlive ⊢
    split
    · rename_i harchived
      rw [if_pos harchived] at hlive
      cases hlive
    · exact hold

lemma eases_prune (items : Items) (gone : List String) (cursor : Option String) :
    Eases items (prune items gone) cursor cursor := by
  refine ⟨fun i y hy => ⟨y, ?_, rfl⟩, fun x hx _ => (List.mem_filter.mp hx).1, fun _ h => h⟩
  obtain ⟨hmem, hkey⟩ := Table.get?_eq_some.mp hy
  exact Table.get?_eq_some.mpr ⟨(List.mem_filter.mp hmem).1, hkey⟩

lemma Settled.archive {id : String} (h : Settled fs items id) (now : Time) (gone : String) :
    Settled fs (archive now items gone) id := by
  refine h.imp_left fun hthere => ?_
  unfold StreamStore.archive
  rw [Table.get?_updateWhere, Option.isSome_map]
  exact hthere

lemma Settled.prune {id : String} (h : Settled fs items id) {gone : List String}
    (hgone : ∀ i ∈ gone, ∀ f ∈ fs, f.1 ≠ i) : Settled fs (prune items gone) id := by
  by_cases hid : id ∈ gone
  · exact .inr (hgone id hid)
  · refine h.imp_left fun hthere => ?_
    obtain ⟨y, hy⟩ := Option.isSome_iff_exists.mp hthere
    obtain ⟨hmem, hkey⟩ := Table.get?_eq_some.mp hy
    refine Option.isSome_iff_exists.mpr ⟨y, Table.get?_eq_some.mpr ⟨?_, hkey⟩⟩
    exact List.mem_filter.mpr ⟨hmem, by simpa [hkey] using hid⟩

/-! ### Catch-up -/

lemma Running.incomplete (h : Running fs items cursor p) :
    Running fs items cursor (incomplete p) :=
  { h with placed := fun hcomplete => by cases hcomplete }

lemma Running.completed (h : Running fs items cursor (StreamIntake.incomplete p))
    (hall : ∀ x, Ahead items cursor x →
      x.streamItemId ∈ p.heldLiveItemIds ∨ x.streamItemId ∈ p.pendingStreamItemIds) :
    Running fs items cursor (completed p) where
  order := ordered_held h.order h.held hall
  held := List.Pairwise.nil
  pendingSettled id hid := (mem_push.mp hid).elim (h.pendingSettled id) (h.heldSettled id)
  heldSettled _ hid := absurd hid List.not_mem_nil
  placed _ x hx := mem_push.mpr (hall x hx).symm
  handled hdone := by
    obtain ⟨id, rest, heq, hbehind⟩ := h.handled hdone
    obtain ⟨more, hmore⟩ := push_append p.pendingStreamItemIds p.heldLiveItemIds
    refine ⟨id, rest ++ more, ?_, hbehind⟩
    change p.pendingStreamItemIds = _ at heq
    rw [StreamIntake.completed, hmore, heq, List.cons_append]

/-- A page of the catch-up: the next items up to the bound. -/
def pageRead (cfg : Settings) (items : Items) (hdistinct : (items.rows.map sortKey).Nodup)
    (bound : String) : Paging.Read sortKey where
  store := items.rows
  distinct := hdistinct
  want s := live s && sortKey s ≤ bound
  size := cfg.pageSize

lemma page_eq (hdistinct : (items.rows.map sortKey).Nodup) (bound current : String) :
    (pageRead cfg items hdistinct bound).page (some current) =
      nextItems cfg items current bound := rfl

lemma mem_rest_of_ahead (cfg : Settings) (hdistinct : (items.rows.map sortKey).Nodup)
    {bound current : String} {x : StreamItem} (hx : Ahead items cursor x)
    (hcurrent : current < sortKey x)
    (hbound : sortKey x ≤ bound) :
    x ∈ (pageRead cfg items hdistinct bound).rest (some current) := by
  refine Paging.mem_rest.mpr ⟨hx.there, ?_, ?_⟩
  · simp [pageRead, hx.live, hbound]
  · exact ahead_some.mpr hcurrent

lemma page_order (hdistinct : (items.rows.map sortKey).Nodup) {bound current : String}
    (hcurrent : ∀ x, Ahead items cursor x → current < sortKey x) :
    ∀ pre id post, (nextItems cfg items current bound).map (·.streamItemId) = pre ++ id :: post →
      ∀ y, items.get? id = some y → ∀ x, Ahead items cursor x → sortKey x < sortKey y →
        x.streamItemId ∈ pre := by
  intro pre id post heq y hy x hx hlt
  obtain ⟨front, tail, hpage, rfl, hrest⟩ := List.map_eq_append_iff.mp heq
  obtain ⟨z, back, rfl, rfl, rfl⟩ := List.map_eq_cons_iff.mp hrest
  have hz : z ∈ nextItems cfg items current bound := by
    rw [hpage]
    simp
  rw [← page_eq hdistinct] at hz hpage
  obtain ⟨hstore, hwant, -⟩ := Paging.mem_page hz
  obtain rfl : z = y := by
    have hget : items.get? z.streamItemId = some z := Table.get?_of_mem hstore
    exact Option.some.inj (hget.symm.trans hy)
  have hzbound : sortKey z ≤ bound := by
    have : live z = true ∧ sortKey z ≤ bound := by simpa [pageRead] using hwant
    exact this.2
  have hxrest := mem_rest_of_ahead cfg hdistinct hx (hcurrent x hx)
    (le_of_lt (lt_of_lt_of_le hlt hzbound))
  -- The rest is ascending and starts with the page.
  have hasc : ((pageRead cfg items hdistinct bound).rest (some current)).Pairwise
      fun a b => sortKey a < sortKey b :=
    Paging.rest_ascending hdistinct (pageRead cfg items hdistinct bound).want (some current)
  have hsplit : (pageRead cfg items hdistinct bound).rest (some current) =
      front ++ z :: (back ++ ((pageRead cfg items hdistinct bound).rest (some current)).drop
        cfg.pageSize) := by
    conv_lhs => rw [← List.take_append_drop cfg.pageSize
      ((pageRead cfg items hdistinct bound).rest (some current))]
    rw [← List.cons_append, ← List.append_assoc, ← hpage]
    rfl
  rw [hsplit] at hasc hxrest
  rcases List.mem_append.mp hxrest with hfront | hlater
  · exact List.mem_map_of_mem hfront
  · rcases List.mem_cons.mp hlater with rfl | hback
    · exact absurd hlt (lt_irrefl _)
    · have := (List.pairwise_cons.mp (List.pairwise_append.mp hasc).2.1).1 x hback
      exact absurd hlt (lt_asymm this)

/-- **The loop over the pages** keeps the invariant, from where nothing ahead is behind it. -/
lemma Running.nextPage (h : Running fs items cursor (StreamIntake.incomplete p))
    (hdistinct : (items.rows.map sortKey).Nodup)
    (env : CatchUpEnv) {bound current : String} (hbound : ∀ f ∈ fs, bound < f.2)
    (hcurrent : ∀ x, Ahead items cursor x → current < sortKey x)
    (hheld : ∀ x, Ahead items cursor x → bound < sortKey x → x.streamItemId ∈ p.heldLiveItemIds) :
    Running fs items cursor (nextPage cfg env items p bound current) := by
  unfold StreamIntake.nextPage
  split
  · rename_i hend
    refine h.completed fun x hx => .inl (hheld x hx ?_)
    exact lt_of_le_of_lt (not_lt.mp hend) (hcurrent x hx)
  split
  · exact h
  dsimp only
  split
  · rename_i hnone
    rw [List.getLast?_eq_none_iff] at hnone
    refine h.completed fun x hx => .inl (hheld x hx ?_)
    by_contra hle
    have hrest := mem_rest_of_ahead cfg hdistinct hx (hcurrent x hx)
      (not_lt.mp hle)
    rw [← page_eq hdistinct, Paging.Read.page, List.take_eq_nil_iff] at hnone
    rcases hnone with hzero | hnil
    · exact absurd hzero (Nat.pos_iff_ne_zero.mp cfg.pageSize_pos)
    · rw [hnil] at hrest
      cases hrest
  · rename_i last hlast
    have hlastmem : last ∈ nextItems cfg items current bound := List.mem_of_getLast? hlast
    rw [← page_eq hdistinct] at hlastmem
    have hlastbound : sortKey last ≤ bound := by
      have : live last = true ∧ sortKey last ≤ bound := by
        simpa [pageRead] using (Paging.mem_page hlastmem).2.1
      exact this.2
    have hnext : Paging.next sortKey (some current)
        ((pageRead cfg items hdistinct bound).page (some current)) = some (sortKey last) := by
      rw [page_eq, Paging.next, hlast]
      rfl
    refine ⟨?_, h.held, fun id hid => ?_, h.heldSettled, ⟨hbound, hlastbound, fun x hx hle => ?_,
      hheld⟩, fun hdone => ?_⟩
    · exact ordered_push h.order fun pre id post heq y hy x hx hlt =>
        .inl (page_order hdistinct hcurrent pre id post heq y hy x hx hlt)
    · rcases mem_push.mp hid with hold | hpage
      · exact h.pendingSettled id hold
      · obtain ⟨z, hz, rfl⟩ := List.mem_map.mp hpage
        rw [← page_eq hdistinct] at hz
        have hget : items.get? z.streamItemId = some z :=
          Table.get?_of_mem (Paging.mem_page hz).1
        exact .inl (hget ▸ rfl)
    · refine mem_push.mpr (.inr (List.mem_map_of_mem ?_))
      rw [← page_eq hdistinct]
      have hxbound : sortKey x ≤ bound := by
        split at hle
        · exact hle.trans hlastbound
        · exact hle
      have hrest := mem_rest_of_ahead cfg hdistinct hx (hcurrent x hx)
        hxbound
      split at hle
      · refine Paging.mem_page_of_passed hrest ?_
        rw [hnext]
        exact not_ahead_some.mpr hle
      · rename_i hshort
        rw [decide_eq_true_eq, ← page_eq hdistinct] at hshort
        have hall : ((pageRead cfg items hdistinct bound).rest (some current)).length ≤
            (pageRead cfg items hdistinct bound).size := by
          by_contra hlong
          refine hshort ?_
          rw [Paging.Read.page, List.length_take]
          exact le_min (le_refl _) (le_of_lt (not_le.mp hlong))
        rw [Paging.Read.page, List.take_of_length_le hall]
        exact hrest
    · obtain ⟨id, rest, heq, hbehind⟩ := h.handled hdone
      obtain ⟨more, hmore⟩ := push_append p.pendingStreamItemIds
        ((nextItems cfg items current bound).map (·.streamItemId))
      change p.pendingStreamItemIds = _ at heq
      exact ⟨id, rest ++ more, by rw [hmore, heq, List.cons_append], hbehind⟩

lemma Running.resume (h : Running fs items cursor p)
    (hw : w.items = items ∧ w.lastSortKey = cursor)
    (hdistinct : (items.rows.map sortKey).Nodup)
    (hcursor : ∀ c ∈ cursor, ∀ f ∈ fs, c < f.2) (env : CatchUpEnv) {p' : Coordinator}
    (hresume : resumeCatchUp cfg env w p = some p') : Running fs items cursor p' := by
  obtain ⟨rfl, rfl⟩ := hw
  have hplaced := h.placed
  unfold Placed at hplaced
  unfold resumeCatchUp at hresume
  cases hcatch : p.catchUp with
  | none => simp [hcatch] at hresume
  | some c =>
    rw [hcatch] at hplaced hresume
    cases c with
    | draining bound last full =>
      obtain ⟨hbound, hle, hpending, hheld⟩ := hplaced
      dsimp only at hresume
      split at hresume
      · cases hresume
        exact h.incomplete
      rename_i hempty
      rw [not_not] at hempty
      split at hresume
      · cases hresume
        exact h.incomplete
      split at hresume
      · rename_i hfull
        cases hresume
        simp only [hempty, hfull, if_true, List.not_mem_nil, imp_false, not_le] at hpending
        refine { h with placed := ⟨hbound, fun f hf => ?_, fun x hx => ?_, hheld⟩ }
        · cases hc : w.lastSortKey with
          | none => exact lt_of_le_of_lt hle (hbound f hf)
          | some c => exact hcursor c hc f hf
        · cases hc : w.lastSortKey with
          | none => exact hpending x hx
          | some c =>
            have := hx.ahead
            rw [hc] at this
            exact ahead_some.mp this
      · rename_i hshort
        cases hresume
        rw [Bool.not_eq_true] at hshort
        refine h.incomplete.completed fun x hx => ?_
        by_cases hxb : sortKey x ≤ bound
        · refine .inr (hpending x hx ?_)
          rw [hshort]
          exact hxb
        · exact .inl (hheld x hx (not_le.mp hxb))
    | yielded bound current =>
      cases hresume
      exact h.incomplete.nextPage hdistinct env hplaced.1 hplaced.2.2.1 hplaced.2.2.2

/-! ### Draining -/

lemma Ordered.drop {dropped ids : List String} (h : Ordered items cursor (dropped ++ ids))
    (hdropped : ∀ x, Ahead items cursor x → x.streamItemId ∉ dropped) :
    Ordered items cursor ids := by
  intro pre id post heq y hy x hx hlt
  have := h (dropped ++ pre) id post (by rw [heq, List.append_assoc]) y hy x hx hlt
  exact (List.mem_append.mp this).resolve_left (hdropped x hx)

lemma Placed.drop {dropped ids : List String} (h : Placed fs items cursor p)
    (hids : p.pendingStreamItemIds = dropped ++ ids)
    (hdropped : ∀ x, Ahead items cursor x → x.streamItemId ∉ dropped)
    (processing : Option Bool) :
    Placed fs items cursor { p with pendingStreamItemIds := ids, processing := processing } := by
  have hkeep {x : StreamItem} (hx : Ahead items cursor x)
      (hin : x.streamItemId ∈ p.pendingStreamItemIds) : x.streamItemId ∈ ids := by
    rw [hids] at hin
    exact (List.mem_append.mp hin).resolve_left (hdropped x hx)
  unfold Placed at h ⊢
  dsimp only
  split
  · rename_i hnone
    rw [hnone] at h
    exact fun hcomplete x hx => hkeep hx (h hcomplete x hx)
  · rename_i bound last full heq
    rw [heq] at h
    exact ⟨h.1, h.2.1, fun x hx hle => hkeep hx (h.2.2.1 x hx hle), h.2.2.2⟩
  · rename_i bound current heq
    rw [heq] at h
    exact h

lemma Running.drop {dropped ids : List String} (h : Running fs items cursor p)
    (hids : p.pendingStreamItemIds = dropped ++ ids)
    (hdropped : ∀ x, Ahead items cursor x → x.streamItemId ∉ dropped)
    {processing : Option Bool} (hproc : processing = some true → ∃ id rest, ids = id :: rest ∧
      ∀ y, items.get? id = some y → Paging.ahead cursor (sortKey y) = false) :
    Running fs items cursor { p with pendingStreamItemIds := ids, processing := processing } where
  order := (hids ▸ h.order : Ordered items cursor (dropped ++ ids)).drop hdropped
  held := h.held
  pendingSettled id hid := h.pendingSettled id (hids ▸ List.mem_append_right _ hid)
  heldSettled := h.heldSettled
  placed := h.placed.drop hids hdropped processing
  handled := hproc

/-! ### What comes -/

lemma Placed.fewer {f : Draw} (h : Placed (f :: fs) items cursor p) : Placed fs items cursor p := by
  unfold Placed at h ⊢
  split
  · rename_i hnone
    rw [hnone] at h
    exact h
  · rename_i bound last full heq
    rw [heq] at h
    exact ⟨fun g hg => h.1 g (List.mem_cons_of_mem _ hg), h.2⟩
  · rename_i bound current heq
    rw [heq] at h
    exact ⟨fun g hg => h.1 g (List.mem_cons_of_mem _ hg),
      fun g hg => h.2.1 g (List.mem_cons_of_mem _ hg), h.2.2⟩

lemma Settled.fewer {f : Draw} {id : String} (h : Settled (f :: fs) items id) :
    Settled fs items id :=
  h.imp_right fun hnew g hg => hnew g (List.mem_cons_of_mem _ hg)

/-- A new item: after all others, under an id that the coordinator does not hold. -/
structure Arrives (fs : List Draw) (items items' : Items) (s : StreamItem) : Prop where
  absent : items.get? s.streamItemId = none
  rows : items'.rows = items.rows ++ [s]
  lookup : ∀ id, items'.get? id = if id = s.streamItemId then some s else items.get? id
  last : ∀ x ∈ items.rows, sortKey x < sortKey s

variable {s : StreamItem}

lemma Arrives.unheld (h : Arrives fs items items' s) {id : String}
    (hid : Settled ((s.streamItemId, sortKey s) :: fs) items id) : id ≠ s.streamItemId := by
  rintro rfl
  rcases hid with hthere | hnew
  · rw [h.absent] at hthere
    cases hthere
  · exact hnew _ List.mem_cons_self rfl

lemma Arrives.settled (h : Arrives fs items items' s) {id : String}
    (hid : Settled ((s.streamItemId, sortKey s) :: fs) items id) : Settled fs items' id := by
  refine hid.fewer.imp_left fun hthere => ?_
  rw [h.lookup, if_neg (h.unheld hid)]
  exact hthere

lemma Arrives.ahead (h : Arrives fs items items' s) {x : StreamItem}
    (hx : Ahead items' cursor x) : Ahead items cursor x ∨ x = s := by
  have hmem := hx.there
  rw [h.rows, List.mem_append, List.mem_singleton] at hmem
  exact hmem.imp_left fun hold => ⟨hold, hx.live, hx.ahead⟩

lemma Arrives.ordered (h : Arrives fs items items' s) {ids : List String}
    (hids : ∀ id ∈ ids, Settled ((s.streamItemId, sortKey s) :: fs) items id)
    (ho : Ordered items cursor ids) : Ordered items' cursor ids := by
  intro pre id post heq y hy x hx hlt
  have hid : id ∈ ids := by simp [heq]
  rw [h.lookup, if_neg (h.unheld (hids id hid))] at hy
  rcases h.ahead hx with hx | rfl
  · exact ho pre id post heq y hy x hx hlt
  · exact absurd hlt (lt_asymm (h.last y (Table.get?_eq_some.mp hy).1))

lemma Arrives.ascending (h : Arrives fs items items' s) {ids : List String}
    (hids : ∀ id ∈ ids, Settled ((s.streamItemId, sortKey s) :: fs) items id)
    (ha : Ascending items ids) : Ascending items' ids := by
  refine ha.imp_of_mem fun {i j} hi hj hij x y hx hy => ?_
  rw [h.lookup, if_neg (h.unheld (hids i hi))] at hx
  rw [h.lookup, if_neg (h.unheld (hids j hj))] at hy
  exact hij x y hx hy

lemma Arrives.ascending_append (h : Arrives fs items items' s) {ids : List String}
    (hids : ∀ id ∈ ids, Settled ((s.streamItemId, sortKey s) :: fs) items id)
    (ha : Ascending items ids) : Ascending items' (ids ++ [s.streamItemId]) := by
  refine List.pairwise_append.mpr ⟨h.ascending hids ha, List.pairwise_singleton _ _, ?_⟩
  intro i hi j hj x y hx hy
  rw [List.mem_singleton.mp hj, h.lookup, if_pos rfl] at hy
  rw [h.lookup, if_neg (h.unheld (hids i hi))] at hx
  cases hy
  exact h.last x (Table.get?_eq_some.mp hx).1

lemma Arrives.handled (h : Arrives fs items items' s)
    (hr : Running ((s.streamItemId, sortKey s) :: fs) items cursor p) (more : List String)
    (hdone : p.processing = some true) :
    ∃ id rest, p.pendingStreamItemIds ++ more = id :: rest ∧
      ∀ y, items'.get? id = some y → Paging.ahead cursor (sortKey y) = false := by
  obtain ⟨id, rest, heq, hbehind⟩ := hr.handled hdone
  refine ⟨id, rest ++ more, by rw [heq, List.cons_append], fun y hy => ?_⟩
  have hid : Settled ((s.streamItemId, sortKey s) :: fs) items id :=
    hr.pendingSettled id (heq ▸ List.mem_cons_self)
  rw [h.lookup, if_neg (h.unheld hid)] at hy
  exact hbehind y hy

/-- **A new item's event** is kept in its place, live or while a catch-up runs. -/
lemma Running.enqueue (hr : Running ((s.streamItemId, sortKey s) :: fs) items cursor p)
    (h : Arrives fs items items' s) :
    Running fs items' cursor (enqueue false p s.streamItemId) := by
  have hnew {ids : List String}
      (hids : ∀ id ∈ ids, Settled ((s.streamItemId, sortKey s) :: fs) items id) :
      push ids [s.streamItemId] = ids ++ [s.streamItemId] :=
    push_new fun hin => h.unheld (hids _ hin) rfl
  have hsettled {ids : List String}
      (hids : ∀ id ∈ ids, Settled ((s.streamItemId, sortKey s) :: fs) items id) :
      ∀ id ∈ ids ++ [s.streamItemId], Settled fs items' id := by
    intro id hid
    rcases List.mem_append.mp hid with hid | hid
    · exact h.settled (hids id hid)
    · rw [List.mem_singleton.mp hid]
      exact .inl (by rw [h.lookup, if_pos rfl]; rfl)
  have hkeep (ids : List String) (x : StreamItem) (hold : x.streamItemId ∈ ids) :
      x.streamItemId ∈ ids ++ [s.streamItemId] := List.mem_append_left _ hold
  have hthis (ids : List String) : s.streamItemId ∈ ids ++ [s.streamItemId] :=
    List.mem_append_right _ (List.mem_singleton_self _)
  have hplaced := hr.placed
  unfold StreamIntake.enqueue
  rw [if_neg Bool.false_ne_true]
  split
  · rename_i hcatching
    rw [hnew hr.heldSettled]
    refine ⟨h.ordered hr.pendingSettled hr.order, h.ascending_append hr.heldSettled hr.held,
      fun id hid => h.settled (hr.pendingSettled id hid), hsettled hr.heldSettled, ?_,
      fun hdone => ?_⟩
    · unfold Placed at hplaced ⊢
      dsimp only
      cases hcatch : p.catchUp with
      | none =>
        rw [hcatch] at hcatching
        intro hcomplete
        rw [hcomplete] at hcatching
        cases hcatching
      | some c =>
        rw [hcatch] at hplaced
        cases c with
        | draining bound last full =>
          obtain ⟨hbound, hle, hpending, hheld⟩ := hplaced
          have hs : bound < sortKey s := hbound _ List.mem_cons_self
          refine ⟨fun g hg => hbound g (List.mem_cons_of_mem _ hg), hle, fun x hx hxle => ?_,
            fun x hx hlt => ?_⟩
          · rcases h.ahead hx with hx | rfl
            · exact hpending x hx hxle
            · have hxb : sortKey x ≤ bound := by
                split at hxle
                · exact hxle.trans hle
                · exact hxle
              exact absurd hs (not_lt.mpr hxb)
          · rcases h.ahead hx with hx | rfl
            · exact hkeep _ x (hheld x hx hlt)
            · exact hthis _
        | yielded bound current =>
          obtain ⟨hbound, hcurrent, hafter, hheld⟩ := hplaced
          refine ⟨fun g hg => hbound g (List.mem_cons_of_mem _ hg),
            fun g hg => hcurrent g (List.mem_cons_of_mem _ hg), fun x hx => ?_,
            fun x hx hlt => ?_⟩
          · rcases h.ahead hx with hx | rfl
            · exact hafter x hx
            · exact hcurrent _ List.mem_cons_self
          · rcases h.ahead hx with hx | rfl
            · exact hkeep _ x (hheld x hx hlt)
            · exact hthis _
    · obtain ⟨id, rest, heq, hbehind⟩ := h.handled hr [] hdone
      exact ⟨id, rest, by rw [← heq, List.append_nil], hbehind⟩
  · rename_i hlive
    rw [Bool.not_eq_true, Bool.or_eq_false_iff, Option.isSome_eq_false_iff,
      Option.isNone_iff_eq_none] at hlive
    obtain ⟨hcatch, hcomplete⟩ := hlive
    unfold Placed at hplaced
    rw [hcatch] at hplaced
    rw [hnew hr.pendingSettled]
    refine ⟨ordered_append (h.ordered hr.pendingSettled hr.order) fun y hy x hx hlt => ?_,
      h.ascending hr.heldSettled hr.held, hsettled hr.pendingSettled,
      fun id hid => h.settled (hr.heldSettled id hid), ?_, fun hdone => h.handled hr _ hdone⟩
    · rw [h.lookup, if_pos rfl] at hy
      cases hy
      rcases h.ahead hx with hx | rfl
      · exact hplaced hcomplete x hx
      · exact absurd hlt (lt_irrefl _)
    · unfold Placed
      dsimp only
      rw [hcatch]
      intro _ x hx
      rcases h.ahead hx with hx | rfl
      · exact hkeep _ x (hplaced hcomplete x hx)
      · exact hthis _

end OpenRig.StreamIntake
