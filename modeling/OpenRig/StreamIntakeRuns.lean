import Mathlib.Data.List.TakeWhile
import OpenRig.StreamIntakeQueue

/-!
What the intake keeps over its runs, whatever fails and wherever it is stopped: each item is noted
at most once, and the cursor never passes an item that was not taken.
-/

namespace OpenRig.StreamIntake

open OpenRig.JsText OpenRig.StreamStore OpenRig.Runs

/-! ### The invariant -/

/-- The sort keys on the intake rows. -/
def notedKeys (rows : Table IntakeRow.qitemId) : List String := rows.rows.flatMap (·.sortKeys)

/-- A permit's record is read past, and an item whose row would have the id of another key's row
counts as handled; any other stands on a row. -/
def Taken (cfg : Settings) (rows : Table IntakeRow.qitemId) (x : StreamItem) : Prop :=
  permit x = some true ∨ sortKey x ∈ notedKeys rows ∨
    ∃ k ∈ notedKeys rows, k ≠ sortKey x ∧
      cfg.streamIntakeQitemId k = cfg.streamIntakeQitemId (sortKey x)

/-- What the intake rows hold, against the cursor. -/
structure Noted (cfg : Settings) (w : World) : Prop where
  once : (notedKeys w.rows).Nodup
  behind : ∀ k ∈ notedKeys w.rows, Paging.ahead w.lastSortKey k = false
  opening : ∀ r ∈ w.rows.rows, ∃ k ∈ r.sortKeys, r.qitemId = cfg.streamIntakeQitemId k
  complete : ∀ f ∈ w.floor, ∀ x ∈ w.items.rows, live x = true → f < sortKey x →
    Paging.ahead w.lastSortKey (sortKey x) = false → Taken cfg w.rows x

structure Sound (cfg : Settings) (fs : List Draw) (w : World) : Prop where
  ascending : (w.items.rows.map sortKey).Pairwise (· < ·)
  keysOld : ∀ x ∈ w.items.rows, ∀ f ∈ fs, sortKey x < f.2
  nonempty : ∀ x ∈ w.items.rows, sortKey x ≠ ""
  cursorOld : ∀ c ∈ w.lastSortKey, ∀ f ∈ fs, c < f.2
  noted : Noted cfg w
  running : ∀ p ∈ w.coordinator, Running fs w.items w.lastSortKey p

variable {cfg : Settings} {fs : List Draw} {items items' : Items} {cursor : Option String}
  {p : Coordinator} {w w' : World} {s : StreamItem}

/-! ### The start of a catch-up -/

lemma le_newest {x : StreamItem} (hdistinct : (items.rows.map sortKey).Nodup)
    (hx : x ∈ items.rows) (hlive : live x = true) :
    ∃ b, newest items = some b ∧ sortKey x ≤ b := by
  have hrest : x ∈ Paging.rest sortKey items.rows live none :=
    Paging.mem_rest.mpr ⟨hx, hlive, rfl⟩
  have hasc := Paging.rest_ascending hdistinct live none
  obtain hnil | ⟨front, l, hfront⟩ :=
    List.eq_nil_or_concat (Paging.rest sortKey items.rows live none)
  · rw [hnil] at hrest
    cases hrest
  rw [hfront] at hrest hasc
  rw [List.concat_eq_append] at hfront hrest hasc
  refine ⟨sortKey l, by simp [newest, hfront], ?_⟩
  rcases List.mem_append.mp hrest with hin | hin
  · exact le_of_lt ((List.pairwise_append.mp hasc).2.2 x hin l (List.mem_singleton_self l))
  · rw [List.mem_singleton.mp hin]

lemma newest_mem {b : String} (h : newest items = some b) : ∃ x ∈ items.rows, sortKey x = b := by
  obtain ⟨x, hx, rfl⟩ := Option.map_eq_some_iff.mp h
  exact ⟨x, (Paging.mem_rest.mp (List.mem_of_getLast? hx)).1, rfl⟩

lemma Sound.distinct (h : Sound cfg fs w) : (w.items.rows.map sortKey).Nodup :=
  h.ascending.imp fun hlt => ne_of_lt hlt

lemma empty_lt {s : String} (h : s ≠ "") : "" < s := by
  rw [String.lt_iff_toList_lt]
  cases hs : s.toList with
  | nil => exact absurd (String.toList_eq_nil_iff.mp hs) h
  | cons c cs => exact List.nil_lt_cons c cs

lemma newest_old (h : Sound cfg fs w) {b : String} (hb : newest w.items = some b) :
    ∀ f ∈ fs, b < f.2 := by
  obtain ⟨x, hx, rfl⟩ := newest_mem hb
  exact h.keysOld x hx

/-- **A catch-up begins**, at the start or after one that did not end. -/
lemma Sound.catchUp (h : Sound cfg fs w) (hkeys : ∀ f ∈ fs, f.2 ≠ "")
    (hp : Running fs w.items w.lastSortKey (incomplete p)) {env : CatchUpEnv}
    (hon : env.off = false) : Sound cfg fs (catchUp cfg env w p) := by
  have become {p' : Coordinator} (hp' : Running fs w.items w.lastSortKey p') :
      Sound cfg fs { w with coordinator := some p' } := by
    refine { h with noted := ?_, running := fun q hq => ?_ }
    · exact { h.noted with }
    · cases hq
      exact hp'
  unfold StreamIntake.catchUp
  dsimp only
  split
  · exact become hp
  split
  · rename_i hnone
    split
    · exact become hp
    -- Nothing was noted yet, and no item is after the newest one.
    have hbehind : ∀ x ∈ w.items.rows, live x = true → sortKey x ≤ (newest w.items).getD "" := by
      intro x hx hlive
      obtain ⟨b, hb, hle⟩ := le_newest h.distinct hx hlive
      rw [hb]
      exact hle
    have heases : Eases w.items w.items w.lastSortKey (some ((newest w.items).getD "")) :=
      ⟨fun _ y hy => ⟨y, hy, rfl⟩, fun _ hx _ => hx, fun _ _ => by rw [hnone]; rfl⟩
    have hnew : ∀ f ∈ fs, (newest w.items).getD "" < f.2 := by
      intro f hf
      cases hb : newest w.items with
      | none => exact empty_lt (hkeys f hf)
      | some b => exact newest_old h hb f hf
    refine { h with cursorOld := ?_, noted := ⟨h.noted.once, ?_, h.noted.opening, ?_⟩,
                    running := ?_ }
    · intro c hc
      cases hc
      exact hnew
    · intro k hk
      have := h.noted.behind k hk
      rw [hnone] at this
      cases this
    · intro f hf x hx hlive hlt
      cases hf
      exact absurd hlt (not_lt.mpr (hbehind x hx hlive))
    · intro q hq
      cases hq
      refine (hp.ease heases fun _ hid => hid).completed fun x hx => ?_
      exact absurd (ahead_some.mp hx.ahead) (not_lt.mpr (hbehind x hx.there hx.live))
  · rename_i cursor hcursor
    rw [hon, if_neg Bool.false_ne_true]
    split
    · exact become hp
    split
    · rename_i hnone
      refine become (hp.completed fun x hx => ?_)
      obtain ⟨b, hb, -⟩ := le_newest h.distinct hx.there hx.live
      rw [hnone] at hb
      cases hb
    · rename_i bound hbound
      have hle : ∀ x, Ahead w.items w.lastSortKey x → cursor < sortKey x ∧ sortKey x ≤ bound := by
        intro x hx
        obtain ⟨b, hb, hle⟩ := le_newest h.distinct hx.there hx.live
        have hahead := hx.ahead
        rw [hbound] at hb
        rw [hcursor] at hahead
        cases hb
        exact ⟨ahead_some.mp hahead, hle⟩
      split
      · rename_i hdone
        refine become (hp.completed fun x hx => ?_)
        exact absurd ((hle x hx).1.trans_le ((hle x hx).2.trans hdone)) (lt_irrefl _)
      · have hpage : Running fs w.items w.lastSortKey
            (StreamIntake.incomplete { p with catchUpIncomplete := false }) := hp
        exact become (hpage.nextPage h.distinct env (newest_old h hbound)
          (fun x hx => (hle x hx).1)
          fun x hx hlt => absurd hlt (not_lt.mpr (hle x hx).2))

/-! ### Handling an item -/

lemma behind_eq {s : StreamItem} (h : sortKey s ≠ "") (cursor : Option String) :
    behind cursor s = !Paging.ahead cursor (sortKey s) := by
  cases cursor with
  | none => rfl
  | some c =>
    rw [behind, Option.any_some, Paging.ahead, Option.all_some, Bool.eq_iff_iff]
    simp only [ne_eq, Bool.and_eq_true, decide_eq_true_eq, Bool.not_eq_true',
      decide_eq_false_iff_not, not_lt]
    constructor
    · exact And.right
    · intro hle
      refine ⟨?_, hle⟩
      rintro rfl
      exact absurd (empty_lt h) (not_lt.mpr hle)

lemma notedKeys_update {rows : Table IntakeRow.qitemId} {id : String} {r : IntakeRow}
    (hr : rows.get? id = some r) (f : IntakeRow → IntakeRow) (hf : ∀ r, (f r).qitemId = r.qitemId)
    {more : List String} (hkeys : ∀ r, (f r).sortKeys = r.sortKeys ++ more) :
    (notedKeys (rows.update id f hf)).Perm (notedKeys rows ++ more) := by
  obtain ⟨hmem, rfl⟩ := Table.get?_eq_some.mp hr
  obtain ⟨front, back, hsplit⟩ := List.append_of_mem hmem
  have hnodup := rows.nodup
  rw [hsplit, List.map_append, List.map_cons, List.nodup_middle, List.nodup_cons,
    List.mem_append] at hnodup
  have hother {l : List IntakeRow} (hl : r.qitemId ∉ l.map IntakeRow.qitemId) :
      l.map (Table.rewrite (fun r' => r'.qitemId = r.qitemId) f) = l := by
    refine (List.map_congr_left fun r' hr' => ?_).trans (List.map_id l)
    have hne : r'.qitemId ≠ r.qitemId := fun heq => hl (heq ▸ List.mem_map_of_mem hr')
    simp [Table.rewrite, hne]
  push Not at hnodup
  change (List.flatMap _ (rows.rows.map _)).Perm (List.flatMap _ rows.rows ++ more)
  rw [hsplit, List.map_append, List.map_cons, hother hnodup.1.1, hother hnodup.1.2]
  simp only [Table.rewrite, decide_true, if_true, List.flatMap_append, List.flatMap_cons, hkeys,
    List.append_assoc]
  exact ((List.perm_append_comm).append_left _).append_left _

/-- The rows after an item: its key is added, or a row has the id of its own. -/
structure Takes (cfg : Settings) (s : StreamItem) (rows rows' : Table IntakeRow.qitemId) :
    Prop where
  keys : ∃ more, (notedKeys rows').Perm (notedKeys rows ++ more) ∧
    (more = [sortKey s] ∨ more = [] ∧ ((∃ r ∈ rows.rows,
      r.qitemId = cfg.streamIntakeQitemId (sortKey s)) ∨ permit s = some true))
  opening : (∀ r ∈ rows.rows, ∃ k ∈ r.sortKeys, r.qitemId = cfg.streamIntakeQitemId k) →
    ∀ r ∈ rows'.rows, ∃ k ∈ r.sortKeys, r.qitemId = cfg.streamIntakeQitemId k

lemma noteItem_takes {env : DrainEnv} {s : StreamItem} {destination : String}
    (h : noteItem cfg env w s destination = some w') :
    ∃ rows, w' = writeCursor { w with rows } s ∧ Takes cfg s w.rows rows := by
  unfold noteItem at h
  split at h
  · rename_i qitemId _
    split at h
    · rename_i hunclaimed
      cases h
      refine ⟨_, rfl, ⟨[sortKey s], ?_, .inl rfl⟩, fun hopen r' hr' => ?_⟩
      · unfold unclaimed at hunclaimed
        cases hr : w.rows.get? qitemId with
        | none => simp [hr] at hunclaimed
        | some r => exact notedKeys_update hr (noted s) (noted_qitemId s) fun _ => rfl
      · obtain ⟨r, hr, rfl⟩ := List.mem_map.mp hr'
        obtain ⟨k, hk, hid⟩ := hopen r hr
        unfold Table.rewrite
        split
        · exact ⟨k, List.mem_append_left _ hk, hid⟩
        · exact ⟨k, hk, hid⟩
    · cases h
  · split at h
    · cases h
    split at h
    · rename_i rows hins
      cases h
      obtain ⟨-, hrows⟩ := Table.insert?_eq_some hins
      refine ⟨_, rfl, ⟨[sortKey s], ?_, .inl rfl⟩, fun hopen r' hr' => ?_⟩
      · unfold notedKeys
        rw [hrows, List.flatMap_append]
        exact List.Perm.of_eq (by simp [opened, sortKey])
      · rw [hrows, List.mem_append, List.mem_singleton] at hr'
        rcases hr' with hr' | rfl
        · exact hopen r' hr'
        · exact ⟨s.streamSortKey, List.mem_singleton_self _, rfl⟩
    · rename_i hins
      cases h
      obtain ⟨r, hr⟩ := Option.isSome_iff_exists.mp (Table.insert?_eq_none.mp hins)
      obtain ⟨hmem, hid⟩ := Table.get?_eq_some.mp hr
      exact ⟨w.rows, rfl, ⟨[], by simp, .inr ⟨rfl, .inl ⟨r, hmem, hid⟩⟩⟩, fun hopen => hopen⟩

inductive Handled (cfg : Settings) (w : World) (s : StreamItem) : World × Bool → Prop where
  | left : Handled cfg w s (w, false)
  | behind (h : Paging.ahead w.lastSortKey (sortKey s) = false) : Handled cfg w s (w, true)
  | taken (done : Bool) (rows : Table IntakeRow.qitemId)
      (h : Paging.ahead w.lastSortKey (sortKey s) = true) (ht : Takes cfg s w.rows rows) :
      Handled cfg w s (writeCursor { w with rows } s, done)

lemma handleStreamItem_spec {env : DrainEnv} {s : StreamItem} {destination : String}
    {out : World × Bool} (hs : sortKey s ≠ "")
    (h : handleStreamItem cfg env w s destination = some out) : Handled cfg w s out := by
  unfold handleStreamItem at h
  rw [behind_eq hs] at h
  split at h
  · cases h
    exact .left
  split at h
  · rename_i hbehind
    cases h
    exact .behind (by simpa using hbehind)
  rename_i hahead
  rw [Bool.not_eq_true', Bool.not_eq_false] at hahead
  split at h
  · cases h
    exact .left
  split at h
  · cases h
    exact .left
  · rename_i hpermit
    cases h
    exact .taken true w.rows hahead ⟨⟨[], by simp, .inr ⟨rfl, .inr hpermit⟩⟩, fun hopen => hopen⟩
  · obtain ⟨w', hw', rfl⟩ := Option.map_eq_some_iff.mp h
    obtain ⟨rows, rfl, htakes⟩ := noteItem_takes hw'
    exact .taken _ rows hahead htakes

/-- **The cursor moves to an item** before which nothing is to be taken, and what is not ahead of
it is taken. -/
lemma Noted.take (h : Noted cfg w) (hdistinct : (w.items.rows.map sortKey).Nodup) {s : StreamItem}
    (hs : s ∈ w.items.rows) (hahead : Paging.ahead w.lastSortKey (sortKey s) = true)
    (hfirst : ∀ x, Ahead w.items w.lastSortKey x → ¬ sortKey x < sortKey s)
    {rows : Table IntakeRow.qitemId} (ht : Takes cfg s w.rows rows) :
    Noted cfg (writeCursor { w with rows } s) := by
  obtain ⟨more, hperm, hmore⟩ := ht.keys
  have hnew : sortKey s ∉ notedKeys w.rows := by
    intro hin
    rw [h.behind _ hin] at hahead
    cases hahead
  have hold {k : String} (hk : k ∈ notedKeys w.rows) : k ∈ notedKeys rows :=
    hperm.symm.subset (List.mem_append_left _ hk)
  refine ⟨hperm.nodup_iff.mpr ?_, fun k hk => ?_, ht.opening h.opening, ?_⟩
  · rcases hmore with rfl | ⟨rfl, -⟩
    · refine List.nodup_append.mpr ⟨h.once, List.nodup_singleton _, fun a ha b hb hab => ?_⟩
      rw [List.mem_singleton] at hb
      exact hnew (hb ▸ hab ▸ ha)
    · rw [List.append_nil]
      exact h.once
  · refine not_ahead_some.mpr ?_
    rcases List.mem_append.mp (hperm.subset hk) with hk | hk
    · by_contra hlt
      have := h.behind k hk
      rw [Paging.ahead_trans hahead (le_of_lt (not_le.mp hlt))] at this
      cases this
    · rcases hmore with rfl | ⟨rfl, -⟩
      · rw [List.mem_singleton.mp hk]
      · cases hk
  · intro f hf x hx hlive hlt hbehind
    cases hxahead : Paging.ahead w.lastSortKey (sortKey x) with
    | false =>
      rcases h.complete f hf x hx hlive hlt hxahead with hpermit | hin | ⟨k, hk, hne, heq⟩
      · exact .inl hpermit
      · exact .inr (.inl (hold hin))
      · exact .inr (.inr ⟨k, hold hk, hne, heq⟩)
    | true =>
      -- It is the item itself: nothing was ahead before it.
      have hle : sortKey x ≤ sortKey s := not_ahead_some.mp hbehind
      have heq : sortKey x = sortKey s :=
        le_antisymm hle (not_lt.mp (hfirst x ⟨hx, hlive, hxahead⟩))
      obtain rfl : x = s := List.inj_on_of_nodup_map hdistinct hx hs heq
      rcases hmore with rfl | ⟨-, ⟨r, hr, hid⟩ | hpermit⟩
      · exact .inr (.inl (hperm.symm.subset (List.mem_append_right _ (List.mem_singleton_self _))))
      · obtain ⟨k, hk, hopen⟩ := h.opening r hr
        have hkin : k ∈ notedKeys w.rows := List.mem_flatMap.mpr ⟨r, hr, hk⟩
        exact .inr (.inr ⟨k, hold hkin, fun hkx => hnew (hkx ▸ hkin), hopen.symm.trans hid⟩)
      · exact .inl hpermit

/-! ### Draining -/

lemma Sound.handle (h : Sound cfg fs w) {p : Coordinator} {s : StreamItem} {rest : List String}
    (hs : s ∈ w.items.rows) (hrunning : Running fs w.items w.lastSortKey p)
    (hids : p.pendingStreamItemIds = s.streamItemId :: rest) {out : World × Bool}
    (hout : Handled cfg w s out) :
    Sound cfg fs { out.1 with coordinator := some { p with processing := some out.2 } } := by
  have hself (y : StreamItem) (hy : w.items.get? s.streamItemId = some y) : y = s := by
    have hget : w.items.get? s.streamItemId = some s := Table.get?_of_mem hs
    exact Option.some.inj (hy.symm.trans hget)
  have hnone (x : StreamItem) (_ : Ahead w.items w.lastSortKey x) :
      x.streamItemId ∉ ([] : List String) := List.not_mem_nil
  cases hout with
  | left =>
    refine { h with noted := { h.noted with }, running := fun q hq => ?_ }
    cases hq
    exact hrunning.drop rfl hnone fun hfalse => by cases hfalse
  | behind hbehind =>
    refine { h with noted := { h.noted with }, running := fun q hq => ?_ }
    cases hq
    refine hrunning.drop rfl hnone fun _ => ⟨_, rest, hids, fun y hy => ?_⟩
    rw [hself y hy]
    exact hbehind
  | taken done rows hahead htakes =>
    have hfirst : ∀ x, Ahead w.items w.lastSortKey x → ¬ sortKey x < sortKey s := by
      intro x hx hlt
      exact absurd (hrunning.order [] _ rest hids s (Table.get?_of_mem hs) x hx hlt)
        List.not_mem_nil
    have hnoted := h.noted.take h.distinct hs hahead hfirst htakes
    have heases : Eases w.items w.items w.lastSortKey (some (sortKey s)) :=
      ⟨fun _ y hy => ⟨y, hy, rfl⟩, fun _ hx _ => hx,
        fun k hk => Paging.ahead_trans hahead (le_of_lt (ahead_some.mp hk))⟩
    refine { h with cursorOld := ?_, noted := { hnoted with }, running := fun q hq => ?_ }
    · intro c hc
      cases hc
      exact h.keysOld s hs
    · cases hq
      refine (hrunning.ease heases fun _ hid => hid).drop rfl (fun x _ => List.not_mem_nil)
        fun _ => ⟨_, rest, hids, fun y hy => ?_⟩
      rw [hself y hy]
      exact not_ahead_some.mpr (le_refl _)

/-- **The loop of a drain**, from ids of which nothing is in hand. -/
lemma Sound.drainLoop (h : Sound cfg fs w) {p : Coordinator}
    (hrunning : Running fs w.items w.lastSortKey { p with processing := none }) {env : DrainEnv}
    (hloop : drainLoop cfg env w p = some w') : Sound cfg fs w' := by
  unfold StreamIntake.drainLoop at hloop
  have hsplit := List.takeWhile_append_dropWhile
    (p := fun id => (w.items.get? id).isNone) (l := p.pendingStreamItemIds)
  have hmissing (x : StreamItem) (hx : Ahead w.items w.lastSortKey x) :
      x.streamItemId ∉ p.pendingStreamItemIds.takeWhile fun id => (w.items.get? id).isNone := by
    intro hin
    have hnone := List.mem_takeWhile_imp hin
    have hget : w.items.get? x.streamItemId = some x := Table.get?_of_mem hx.there
    simp [hget] at hnone
  have hleft : Running fs w.items w.lastSortKey
      { p with
        pendingStreamItemIds := p.pendingStreamItemIds.dropWhile fun id =>
          (w.items.get? id).isNone
        processing := none } :=
    hrunning.drop hsplit.symm hmissing fun hfalse => by cases hfalse
  have hstop : Sound cfg fs
      { w with
        coordinator := some
          { p with
            pendingStreamItemIds := p.pendingStreamItemIds.dropWhile fun id =>
              (w.items.get? id).isNone
            processing := none } } := by
    refine { h with noted := { h.noted with }, running := fun q hq => ?_ }
    cases hq
    exact hleft
  dsimp only at hloop
  split at hloop
  · cases hloop
    exact hstop
  rename_i id rest hids
  split at hloop
  · rename_i s destination hs hdestination
    obtain ⟨out, hout, rfl⟩ := Option.map_eq_some_iff.mp hloop
    obtain ⟨hmem, rfl⟩ := Table.get?_eq_some.mp hs
    exact h.handle hmem hleft hids (handleStreamItem_spec (h.nonempty s hmem) hout)
  · cases hloop
    exact hstop

lemma Sound.drain (h : Sound cfg fs w) {p : Coordinator} (hp : w.coordinator = some p)
    {env : DrainEnv} (hdrain : drain cfg env w p = some w') : Sound cfg fs w' := by
  have hrunning := h.running p hp
  have hnone (x : StreamItem) (_ : Ahead w.items w.lastSortKey x) :
      x.streamItemId ∉ ([] : List String) := List.not_mem_nil
  unfold StreamIntake.drain at hdrain
  split at hdrain
  · split at hdrain
    · cases hdrain
    · exact h.drainLoop (hrunning.drop rfl hnone fun hfalse => by cases hfalse) hdrain
  · rename_i hproc
    obtain ⟨id, rest, hids, hbehind⟩ := hrunning.handled hproc
    have htail : p.pendingStreamItemIds = [id] ++ p.pendingStreamItemIds.tail := by
      rw [hids]
      rfl
    refine h.drainLoop
      (hrunning.drop htail (fun x hx hin => ?_) fun hfalse => by cases hfalse) hdrain
    · have hget : w.items.get? x.streamItemId = some x := Table.get?_of_mem hx.there
      have hfalse := hbehind x (List.mem_singleton.mp hin ▸ hget)
      rw [hx.ahead] at hfalse
      cases hfalse
  · cases hdrain
    refine { h with noted := { h.noted with }, running := fun q hq => ?_ }
    cases hq
    exact hrunning.drop rfl hnone fun hfalse => by cases hfalse

/-! ### Emits -/

lemma Sound.fewer {f : Draw} (h : Sound cfg (f :: fs) w) : Sound cfg fs w where
  ascending := h.ascending
  keysOld x hx g hg := h.keysOld x hx g (List.mem_cons_of_mem _ hg)
  nonempty := h.nonempty
  cursorOld c hc g hg := h.cursorOld c hc g (List.mem_cons_of_mem _ hg)
  noted := h.noted
  running p hp :=
    { h.running p hp with
      pendingSettled := fun id hid => ((h.running p hp).pendingSettled id hid).fewer
      heldSettled := fun id hid => ((h.running p hp).heldSettled id hid).fewer
      placed := (h.running p hp).placed.fewer }

/-- **An emit.** -/
lemma Sound.emit {now : Time} {ulid key : String} {input : StreamEmitInput}
    (h : Sound cfg ((input.streamItemId.getD ulid, key) :: fs) w) (hkey : key ≠ "")
    (hkeys : ∀ f ∈ fs, key < f.2)
    (hstep : Step cfg w (.emit now ulid key input false) w') : Sound cfg fs w' := by
  unfold Step step StreamStore.emit at hstep
  dsimp only at hstep
  cases hget : w.items.get? (input.streamItemId.getD ulid) with
  | some existing =>
    rw [hget] at hstep
    cases hstep
    exact h.fewer
  | none =>
    cases hins : w.items.insert? (emitted now (input.streamItemId.getD ulid) key input) with
    | none =>
      have := Table.insert?_eq_none.mp hins
      rw [show StreamItem.id (emitted now (input.streamItemId.getD ulid) key input) =
        input.streamItemId.getD ulid from rfl, hget] at this
      cases this
    | some items' =>
      rw [hget, hins] at hstep
      cases hstep
      have hlookup := Table.get?_insert? hins
      have harrives : Arrives fs w.items items'
          (emitted now (input.streamItemId.getD ulid) key input) :=
        ⟨hget, (Table.insert?_eq_some hins).2, hlookup,
          fun x hx => h.keysOld x hx _ List.mem_cons_self⟩
      have hmem {x : StreamItem} (hx : x ∈ items'.rows) :
          x ∈ w.items.rows ∨ x = emitted now (input.streamItemId.getD ulid) key input := by
        rw [harrives.rows, List.mem_append, List.mem_singleton] at hx
        exact hx
      refine ⟨?_, fun x hx g hg => ?_, fun x hx => ?_, h.fewer.cursorOld,
        { h.noted with complete := fun f hf x hx hlive hlt hbehind => ?_ }, fun q hq => ?_⟩
      · change (items'.rows.map sortKey).Pairwise _
        rw [harrives.rows, List.map_append]
        refine List.pairwise_append.mpr ⟨h.ascending, List.pairwise_singleton _ _, ?_⟩
        intro k hk k' hk'
        obtain ⟨x, hx, rfl⟩ := List.mem_map.mp hk
        rw [List.mem_singleton.mp hk']
        exact harrives.last x hx
      · rcases hmem hx with hx | rfl
        · exact h.fewer.keysOld x hx g hg
        · exact hkeys g hg
      · rcases hmem hx with hx | rfl
        · exact h.nonempty x hx
        · exact hkey
      · rcases hmem hx with hx | rfl
        · exact h.noted.complete f hf x hx hlive hlt hbehind
        · -- A new item is ahead of the cursor.
          exfalso
          change Paging.ahead w.lastSortKey key = false at hbehind
          cases hc : w.lastSortKey with
          | none =>
            rw [hc] at hbehind
            cases hbehind
          | some c =>
            rw [hc] at hbehind
            exact absurd (h.cursorOld c hc _ List.mem_cons_self)
              (not_lt.mpr (not_ahead_some.mp hbehind))
      · obtain ⟨p, hp, rfl⟩ := Option.map_eq_some_iff.mp hq
        exact (h.running p hp).enqueue harrives

/-! ### Runs -/

def prunes : Label → List String
  | .prune gone => gone
  | _ => []

/-- Sort keys ascend from emit to emit, and no id is emitted after retention deleted it. -/
structure Drawn (ls : List Label) : Prop where
  keys : ((drawn ls).map Prod.snd).Pairwise (· < ·)
  nonempty : ∀ f ∈ drawn ls, f.2 ≠ ""
  pruned : ls.Pairwise fun l l' => ∀ id ∈ prunes l, ∀ f ∈ draws l', f.1 ≠ id

/-- Intake is not off when an item comes and when a catch-up begins. -/
def on : Label → Bool
  | .emit _ _ _ _ off => !off
  | .start env | .retry env => !env.off
  | _ => true

lemma Drawn.tail {l : Label} {ls : List Label} (h : Drawn (l :: ls)) : Drawn ls := by
  obtain ⟨hkeys, hnonempty, hpruned⟩ := h
  rw [drawn, List.flatMap_cons] at hkeys hnonempty
  rw [List.map_append] at hkeys
  exact ⟨(List.pairwise_append.mp hkeys).2.1,
    fun f hf => hnonempty f (List.mem_append_right _ hf), (List.pairwise_cons.mp hpruned).2⟩

lemma Sound.eases (h : Sound cfg fs w) (heases : Eases w.items items' w.lastSortKey w.lastSortKey)
    (hsettled : ∀ id, Settled fs w.items id → Settled fs items' id)
    (hkeys : (items'.rows.map sortKey).Sublist (w.items.rows.map sortKey)) :
    Sound cfg fs { w with items := items' } := by
  have hold (x : StreamItem) (hx : x ∈ items'.rows) : ∃ y ∈ w.items.rows, sortKey y = sortKey x :=
    List.mem_map.mp (hkeys.subset (List.mem_map_of_mem hx))
  refine ⟨h.ascending.sublist hkeys, fun x hx f hf => ?_, fun x hx => ?_, h.cursorOld,
    { h.noted with
      complete := fun f hf x hx hlive => h.noted.complete f hf x (heases.live x hx hlive) hlive },
    fun p hp => (h.running p hp).ease heases hsettled⟩
  · obtain ⟨y, hy, heq⟩ := hold x hx
    exact heq ▸ h.keysOld y hy f hf
  · obtain ⟨y, hy, heq⟩ := hold x hx
    exact heq ▸ h.nonempty y hy

lemma notedKeys_claim (rows : Table IntakeRow.qitemId) (qitemId : String) (pending : Bool) :
    notedKeys (rows.update qitemId (setPending pending) (setPending_qitemId pending)) =
      notedKeys rows := by
  change List.flatMap _ (rows.rows.map _) = List.flatMap _ rows.rows
  rw [List.flatMap_map]
  refine List.flatMap_congr fun r _ => ?_
  unfold Table.rewrite
  split <;> rfl

/-- **Every step keeps the invariant.** -/
lemma sound_step {l : Label} (h : Sound cfg (draws l ++ fs) w) (hstep : Step cfg w l w')
    (hkeys : ((draws l ++ fs).map Prod.snd).Pairwise (· < ·))
    (hnonempty : ∀ f ∈ draws l ++ fs, f.2 ≠ "") (hgone : ∀ id ∈ prunes l, ∀ f ∈ fs, f.1 ≠ id)
    (hon : on l = true) : Sound cfg fs w' := by
  cases l with
  | emit now ulid key input off =>
    obtain rfl : off = false := by simpa [on] using hon
    refine h.emit (hnonempty _ List.mem_cons_self) (fun f hf => ?_) hstep
    exact (List.pairwise_cons.mp hkeys).1 f.2 (List.mem_map_of_mem hf)
  | archive now id =>
    cases hstep
    refine h.eases (eases_archive now _ id _) (fun _ hid => hid.archive now id) ?_
    have hsame : (archive now w.items id).rows.map sortKey = w.items.rows.map sortKey := by
      unfold archive Table.updateWhere
      rw [List.map_map]
      refine List.map_congr_left fun x _ => ?_
      simp only [Function.comp_apply, Table.rewrite]
      split <;> rfl
    exact hsame ▸ List.Sublist.refl _
  | prune gone =>
    cases hstep
    exact h.eases (eases_prune _ gone _) (fun _ hid => hid.prune hgone)
      (List.filter_sublist.map _)
  | claim qitemId pending =>
    cases hstep
    have hclaim := notedKeys_claim w.rows qitemId pending
    refine { h with noted := ⟨?_, ?_, fun r hr => ?_, fun f hf x hx hlive hlt hbehind => ?_⟩ }
    · exact hclaim ▸ h.noted.once
    · exact hclaim ▸ h.noted.behind
    · obtain ⟨old, hold, rfl⟩ := List.mem_map.mp hr
      unfold Table.rewrite
      split
      · exact h.noted.opening old hold
      · exact h.noted.opening old hold
    · have := h.noted.complete f hf x hx hlive hlt hbehind
      unfold Taken at this ⊢
      dsimp only
      rw [hclaim]
      exact this
  | start env =>
    unfold Step step at hstep
    dsimp only at hstep
    split at hstep
    · cases hstep
    cases hstep
    have hfresh : Running fs w.items w.lastSortKey (incomplete {}) :=
      { order := fun pre id post heq => by simp [incomplete] at heq
        held := List.Pairwise.nil
        pendingSettled := fun _ hid => absurd hid List.not_mem_nil
        heldSettled := fun _ hid => absurd hid List.not_mem_nil
        placed := fun hcomplete => by cases hcomplete
        handled := fun hdone => by cases hdone }
    exact h.catchUp hnonempty hfresh (by simpa [on] using hon)
  | stop =>
    cases hstep
    exact { h with
      noted := { h.noted with }
      running := fun p hp => by cases hp }
  | retry env =>
    obtain ⟨p, hp, hretry⟩ := Option.bind_eq_some_iff.mp hstep
    split at hretry
    · cases hretry
      exact h.catchUp hnonempty (h.running p hp).incomplete (by simpa [on] using hon)
    · cases hretry
  | resume env =>
    obtain ⟨p, hp, hresume⟩ := Option.bind_eq_some_iff.mp hstep
    obtain ⟨p', hp', rfl⟩ := Option.map_eq_some_iff.mp hresume
    refine { h with noted := { h.noted with }, running := fun q hq => ?_ }
    cases hq
    exact (h.running p hp).resume ⟨rfl, rfl⟩ h.distinct h.cursorOld env hp'
  | drain env =>
    obtain ⟨p, hp, hdrain⟩ := Option.bind_eq_some_iff.mp hstep
    exact h.drain hp hdrain

/-- **Every run keeps the invariant.** -/
lemma sound_run {ls : List Label} (hrun : Path (Step cfg) w ls w') (hdrawn : Drawn ls)
    (hon : ∀ l ∈ ls, on l = true) (h : Sound cfg (drawn ls) w) : Sound cfg [] w' := by
  induction hrun with
  | nil => exact h
  | @cons s t u l ls hstep _ ih =>
    have htail := hdrawn.tail
    have hgone : ∀ id ∈ prunes l, ∀ f ∈ drawn ls, f.1 ≠ id := by
      intro id hid f hf
      obtain ⟨l', hl', hf⟩ := List.mem_flatMap.mp hf
      exact (List.pairwise_cons.mp hdrawn.pruned).1 l' hl' id hid f hf
    refine ih htail (fun l' hl' => hon l' (List.mem_cons_of_mem _ hl')) ?_
    exact sound_step h hstep hdrawn.keys hdrawn.nonempty hgone (hon l List.mem_cons_self)

lemma sound_empty (fs : List Draw) : Sound cfg fs .empty := by
  refine ⟨List.Pairwise.nil, ?_, ?_, ?_, ⟨List.nodup_nil, ?_, ?_, ?_⟩, ?_⟩ <;>
    simp [World.empty, Table.empty, notedKeys]

/-- **Intake takes each item once.** Whatever fails, whenever items come, go or are archived, and
wherever the process is stopped and started again: no item is on two intake rows or twice on one;
the cursor stands before no item that is on a row; every live item that came after the first start
and that the cursor has reached was taken; and every other one is in the hands of the coordinator
as soon as it has caught up. -/
theorem intake_takes_each_once {ls : List Label} (hrun : Path (Step cfg) .empty ls w)
    (hdrawn : Drawn ls) (hon : ∀ l ∈ ls, on l = true) :
    (notedKeys w.rows).Nodup ∧
      (∀ k ∈ notedKeys w.rows, Paging.ahead w.lastSortKey k = false) ∧
      (∀ f ∈ w.floor, ∀ x ∈ w.items.rows, live x = true → f < sortKey x →
        Paging.ahead w.lastSortKey (sortKey x) = false → Taken cfg w.rows x) ∧
      ∀ p ∈ w.coordinator, p.catchUp = none → p.catchUpIncomplete = false →
        ∀ x ∈ w.items.rows, live x = true → Paging.ahead w.lastSortKey (sortKey x) = true →
          x.streamItemId ∈ p.pendingStreamItemIds := by
  have h := sound_run hrun hdrawn hon (sound_empty _)
  refine ⟨h.noted.once, h.noted.behind, h.noted.complete, ?_⟩
  intro p hp hcatch hcomplete x hx hlive hahead
  have hplaced := (h.running p hp).placed
  unfold Placed at hplaced
  rw [hcatch] at hplaced
  exact hplaced hcomplete x ⟨hx, hlive, hahead⟩

/-- The first item is history; the second is handled live, and of the two that come while the
process is down the pages of the next start take one each. -/
theorem intake_takes_each_once_restarted :
    ∃ (cfg : Settings) (w : World),
      w.rows.rows.map (·.sortKeys) = [["k2", "k3", "k4"]] ∧ (notedKeys w.rows).Nodup ∧
        ∀ x ∈ w.items.rows, live x = true → "k1" < sortKey x → sortKey x ≤ "k4" →
          Taken cfg w.rows x := by
  let cfg : Settings :=
    { streamIntakeQitemId := fun k => "qitem-stream-intake-" ++ k, pageSize := 1 }
  let item (id : String) : StreamEmitInput :=
    { streamItemId := some id, sourceSession := "a@rig", body := "hello", size := by decide }
  let first : DrainEnv := { destination := some "queue.worker" }
  let later : DrainEnv := { first with existing := some "qitem-stream-intake-k2" }
  let ls : List Label := [.emit 1 "u1" "k1" (item "m1") false, .start {},
    .emit 2 "u2" "k2" (item "m2") false, .drain first, .drain {}, .stop,
    .emit 3 "u3" "k3" (item "m3") false, .emit 4 "u4" "k4" (item "m4") false, .start {},
    .drain later, .drain {}, .resume {}, .resume {}, .drain later, .drain {}, .resume {},
    .resume {}]
  have hplay : ((ls.foldlM (step cfg) World.empty).map fun w =>
      (w.rows.rows.map (·.sortKeys), w.lastSortKey, w.floor)) =
        some ([["k2", "k3", "k4"]], some "k4", some "k1") := by decide +kernel
  obtain ⟨w, hw, hshape⟩ := Option.map_eq_some_iff.mp hplay
  obtain ⟨hrows, hcursor, hfloor⟩ : w.rows.rows.map (·.sortKeys) = [["k2", "k3", "k4"]] ∧
    w.lastSortKey = some "k4" ∧ w.floor = some "k1" := by simpa using hshape
  obtain ⟨honce, -, htaken, -⟩ := intake_takes_each_once (path_iff_foldlM.mpr hw)
    ⟨by decide +kernel, by decide +kernel, by decide +kernel⟩ (by decide +kernel)
  refine ⟨cfg, w, hrows, honce, fun x hx hlive hlt hle => ?_⟩
  refine htaken "k1" hfloor x hx hlive hlt ?_
  rw [hcursor]
  exact not_ahead_some.mpr hle

end OpenRig.StreamIntake
