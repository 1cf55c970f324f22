import OpenRig.ReaderPages
import OpenRig.Paging
import OpenRig.Runs

/-!
Readers of the stream. A reader's subscription holds a filter and a cursor; a read returns what
matches after the cursor and moves the cursor past it, and says so when retention took items away
that the reader had not come to.
-/

namespace OpenRig.StreamReaders

open OpenRig.JsText OpenRig.StreamStore OpenRig.ReaderPages OpenRig.Runs

/-! ### The tables -/

structure Db where
  items : Items
  subscriptions : Table StreamSubscription.readerSession
  mark : Option (StreamRetention.Mark Time String) := none

def Db.empty : Db := ⟨.empty, .empty, none⟩

structure Env where
  now : Time
  ulid : String
  sortKey : String
  /-- The logical id of the session's node, when this daemon has it. -/
  logicalId : String → Option String

abbrev Position := Time ×ₗ String

def readThrough (s : StreamSubscription) : Position := toLex (s.readThroughTs, s.readThroughKey)

/-! ### Subscriptions -/

def seatName (reader : String) : String := String.ofList (reader.toList.takeWhile (· ≠ '@'))

def readerIds (env : Env) (reader : String) : List String :=
  (([some reader, some (seatName reader), env.logicalId reader].filterMap id).filter
    (· ≠ "")).eraseDups

structure SubscribeInput where
  readerSession : String
  hintTags : Option (List String) := none
  hintType : Option String := none
  actor : String

def filterTags (env : Env) (input : SubscribeInput) : List String :=
  match input.hintTags with
  | some (tag :: tags) => (tag :: tags).eraseDups
  | _ => if truthy input.hintType then [] else readerIds env input.readerSession

def subscribed (env : Env) (input : SubscribeInput) : StreamSubscription where
  readerSession := input.readerSession
  hintTags := filterTags env input
  hintType := input.hintType
  readThroughTs := env.now
  readThroughKey := ""
  createdBy := input.actor
  createdAt := env.now
  updatedAt := env.now

def refiltered (env : Env) (input : SubscribeInput) (s : StreamSubscription) :
    StreamSubscription :=
  { s with
    hintTags := filterTags env input
    hintType := input.hintType
    updatedAt := env.now }

lemma refiltered_reader (env : Env) (input : SubscribeInput) (s : StreamSubscription) :
    (refiltered env input s).readerSession = s.readerSession := rfl

/-- A new subscription reads from now on; an update keeps the cursor. -/
def subscribe (env : Env) (db : Db) (input : SubscribeInput) : Db :=
  match db.subscriptions.insert? (subscribed env input) with
  | some subscriptions => { db with subscriptions }
  | none =>
    { db with
      subscriptions := db.subscriptions.update input.readerSession (refiltered env input)
        (refiltered_reader env input) }

def unsubscribe (db : Db) (reader : String) : Db :=
  { db with subscriptions := db.subscriptions.erase reader }

/-! ### Reading -/

def filtered (s : StreamSubscription) (x : StreamItem) : Bool :=
  (!s.hintTags.isEmpty || truthy s.hintType) &&
    (s.hintTags.isEmpty ||
      ((x.hintTags.map Tags.each).getD []).any fun tag => tag.eachText.any (· ∈ s.hintTags)) &&
    (!truthy s.hintType || x.hintType = s.hintType)

/-- Addressed to the reader, or in its filter, and not archived. -/
def matching (s : StreamSubscription) (x : StreamItem) : Bool :=
  x.archivedAt.isNone && (x.hintDestination = some s.readerSession || filtered s x)

def unread (db : Db) (s : StreamSubscription) (after : Position) : List StreamItem :=
  db.items.rows.filter fun x => matching s x && after < position x

def gapOf (db : Db) (s : StreamSubscription) : Option Gap :=
  db.mark.bind fun m =>
    if readThrough s < m.position then
      some ⟨s.readThroughTs, m.prunedThroughTs, m.prunedItems⟩
    else none

def pageLimit (limit : Option ℤ) : ℕ :=
  (min (max 1 (limit.getD READ_PAGE_ITEMS)) READ_PAGE_ITEMS).toNat

/-- Where the cursor goes: past the page, or to the pruned edge when there is nothing to read. -/
def advanced (db : Db) (s : StreamSubscription) (page : List StreamItem) : Option (Time × String) :=
  match page.getLast? with
  | some last => some (last.tsEmitted, last.streamSortKey)
  | none => (gapOf db s).bind fun _ => db.mark.map fun m => (m.prunedThroughTs, m.prunedThroughKey)

def readOn (now : Time) (next : Time × String) (s : StreamSubscription) : StreamSubscription :=
  { s with
    readThroughTs := next.1
    readThroughKey := next.2
    updatedAt := now }

lemma readOn_reader (now : Time) (next : Time × String) (s : StreamSubscription) :
    (readOn now next s).readerSession = s.readerSession := rfl

def matched (db : Db) (s : StreamSubscription) : List StreamItem :=
  Paging.rest position db.items.rows (matching s) (some (readThrough s))

def taken (db : Db) (s : StreamSubscription) (limit : Option ℤ) : List StreamItem :=
  fill true (bytes (envelope (shownSubscription s) (gapOf db s)))
    (((matched db s).take (pageLimit limit + 1)).take (pageLimit limit))

def moveCursor (now : Time) (db : Db) (reader : String) (next : Option (Time × String)) : Db :=
  match next with
  | some moved =>
    { db with
      subscriptions := db.subscriptions.update reader (readOn now moved) (readOn_reader now moved) }
  | none => db

def pageOf (db : Db) (s : StreamSubscription) (limit : Option ℤ) : Page :=
  let rows := (matched db s).take (pageLimit limit + 1)
  let page := taken db s limit
  let next := (advanced db s page).getD (s.readThroughTs, s.readThroughKey)
  let rest := unread db s (toLex next)
  { subscription := shownSubscription s
    items := page.map pageItem
    readThroughTs := next.1
    readThroughKey := next.2
    more := page.length < rows.length
    unreadItems := rest.length
    unreadBytes := (rest.map fun x => byteLength x.body).sum
    gap := gapOf db s }

def readPage (env : Env) (db : Db) (reader : String) (limit : Option ℤ) : Option (Db × Page) :=
  (db.subscriptions.get? reader).map fun s =>
    (moveCursor env.now db reader (advanced db s (taken db s limit)), pageOf db s limit)

/-! ### Calls -/

inductive Call where
  | emit (input : StreamEmitInput)
  | archive (streamItemId : String)
  | prune (gone : List String)
  | subscribe (input : SubscribeInput)
  | unsubscribe (reader : String)
  | read (reader : String) (limit : Option ℤ)

/-- A retention batch, whichever items it takes: they go, and the mark tells how far it went. -/
def prune (now : Time) (db : Db) (gone : List String) : Db :=
  let doomed := StreamRetention.ascending position (db.items.rows.filter (·.id ∈ gone))
  match doomed.getLast? with
  | none => db
  | some last =>
    { db with
      items := StreamStore.prune db.items gone
      mark := some (StreamRetention.markAfter db.mark last.toStreamItem doomed.length now) }

def exec (env : Env) (db : Db) : Call → Db × Option Page
  | .emit input => ({ db with items := (emit env.now env.ulid env.sortKey db.items input).1 }, none)
  | .archive id => ({ db with items := archive env.now db.items id }, none)
  | .prune gone => (prune env.now db gone, none)
  | .subscribe input => (subscribe env db input, none)
  | .unsubscribe reader => (unsubscribe db reader, none)
  | .read reader limit =>
    match readPage env db reader limit with
    | some (db', page) => (db', some page)
    | none => (db, none)

structure Label where
  env : Env
  call : Call
  page : Option Page

def Step (s : Db) (l : Label) (t : Db) : Prop := exec l.env s l.call = (t, l.page)

/-- A call, with the page it returns. -/
def labelOf (env : Env) (s : Db) (c : Call) : Label := ⟨env, c, (exec env s c).2⟩

lemma step_labelOf (env : Env) (s : Db) (c : Call) :
    Step s (labelOf env s c) (exec env s c).1 := rfl

/-! ### What a read does -/

def cursor (db : Db) (reader : String) : Option Position :=
  (db.subscriptions.get? reader).map readThrough

variable {env : Env} {s t u : Db} {reader : String} {limit : Option ℤ}

lemma taken_take (db : Db) (sub : StreamSubscription) (limit : Option ℤ) :
    ∃ n, taken db sub limit = (matched db sub).take n := by
  unfold taken
  rw [List.take_take]
  obtain ⟨n, hn⟩ := fill_take true (bytes (envelope (shownSubscription sub) (gapOf db sub)))
    ((matched db sub).take (min (pageLimit limit) (pageLimit limit + 1)))
  rw [hn, List.take_take]
  exact ⟨_, rfl⟩

lemma pageLimit_pos (limit : Option ℤ) : 0 < pageLimit limit := by
  unfold pageLimit
  have : (READ_PAGE_ITEMS : ℤ) = 20 := rfl
  omega

lemma taken_ne_nil (limit : Option ℤ) {db : Db} {sub : StreamSubscription}
    (h : matched db sub ≠ []) :
    taken db sub limit ≠ [] := by
  unfold taken
  obtain ⟨n, hn⟩ : ∃ n, pageLimit limit = n + 1 :=
    ⟨pageLimit limit - 1, by have := pageLimit_pos limit; omega⟩
  cases hrows : matched db sub with
  | nil => exact absurd hrows h
  | cons x rest =>
    rw [hn, List.take_succ_cons, List.take_succ_cons, fill_first]
    exact List.cons_ne_nil _ _

/-- What a read returns and where it leaves the reader. -/
structure Reads (s : Db) (reader : String) (sub : StreamSubscription) (limit : Option ℤ) (t : Db)
    (page : Page) : Prop where
  found : s.subscriptions.get? reader = some sub
  items : t.items = s.items
  mark : t.mark = s.mark
  result : page = pageOf s sub limit
  stands : cursor t reader = some (((advanced s sub (taken s sub limit)).map toLex).getD
    (readThrough sub))
  others : ∀ other, other ≠ reader → cursor t other = cursor s other

lemma cursor_update (db : Db) (reader : String) (f : StreamSubscription → StreamSubscription)
    (hf : ∀ s, (f s).readerSession = s.readerSession) (other : String) :
    cursor { db with subscriptions := db.subscriptions.update reader f hf } other =
      if other = reader then (db.subscriptions.get? other).map (readThrough ∘ f)
      else cursor db other := by
  unfold cursor
  dsimp only
  rw [Table.get?_update]
  split
  · rw [Option.map_map]
  · rfl

lemma readPage_some {page : Page} (h : readPage env s reader limit = some (t, page)) :
    ∃ sub, Reads s reader sub limit t page := by
  unfold readPage at h
  obtain ⟨sub, hsub, heq⟩ := Option.map_eq_some_iff.mp h
  obtain ⟨rfl, rfl⟩ := Prod.mk.inj heq
  clear h heq
  cases hmoved : advanced s sub (taken s sub limit) with
  | none =>
    refine ⟨sub, hsub, rfl, rfl, rfl, ?_, fun other _ => rfl⟩
    rw [hmoved]
    exact congrArg (Option.map readThrough) hsub
  | some moved =>
    refine ⟨sub, hsub, rfl, rfl, rfl, ?_, fun other hother => ?_⟩
    · rw [hmoved, moveCursor, cursor_update, if_pos rfl, hsub]
      rfl
    · rw [moveCursor, cursor_update, if_neg hother]

/-! ### Positions -/

def PageItem.position (x : PageItem) : Position := toLex (x.tsEmitted, x.streamSortKey)

/-- There is an item at this place of the stream. -/
def Present (p : Position) (db : Db) : Prop := ∃ x ∈ db.items.rows, position x = p

/-- Retention went past this place. -/
def Pruned (p : Position) (db : Db) : Prop := ∃ m ∈ db.mark, p ≤ m.position

/-- The page tells that retention went past this place, and the reader had not. -/
def Tells (p : Position) (page : Page) : Prop := ∃ g ∈ page.gap, (ofLex p).1 ≤ g.through

lemma tells_of_pruned {p : Position} {sub : StreamSubscription} (hp : Pruned p s)
    (hbehind : readThrough sub < p) : Tells p (pageOf s sub limit) := by
  obtain ⟨m, hm, hle⟩ := hp
  refine ⟨⟨sub.readThroughTs, m.prunedThroughTs, m.prunedItems⟩, ?_, ?_⟩
  · change gapOf s sub = some _
    rw [gapOf, hm, Option.bind_some, if_pos (lt_of_lt_of_le hbehind hle)]
  · exact (Prod.Lex.le_iff.mp hle).elim le_of_lt fun h => le_of_eq h.1

lemma advanced_cases (db : Db) (sub : StreamSubscription) (limit : Option ℤ) :
    (matched db sub ≠ [] ∧ ((advanced db sub (taken db sub limit)).map toLex).getD
        (readThrough sub) = ((taken db sub limit).getLast?.map position).getD (readThrough sub)) ∨
      (matched db sub = [] ∧ taken db sub limit = [] ∧ readThrough sub ≤
        ((advanced db sub (taken db sub limit)).map toLex).getD (readThrough sub)) := by
  by_cases hempty : matched db sub = []
  · right
    have htaken : taken db sub limit = [] := by
      obtain ⟨n, hn⟩ := taken_take db sub limit
      rw [hn, hempty, List.take_nil]
    refine ⟨hempty, htaken, ?_⟩
    rw [htaken]
    unfold advanced gapOf
    cases hmark : db.mark with
    | none => exact le_refl _
    | some m =>
      dsimp only [List.getLast?_nil, Option.bind_some]
      split
      · rename_i hlt
        exact le_of_lt hlt
      · exact le_refl _
  · left
    refine ⟨hempty, ?_⟩
    unfold advanced
    cases hlast : (taken db sub limit).getLast? with
    | none => exact absurd (List.getLast?_eq_none_iff.mp hlast) (taken_ne_nil limit hempty)
    | some last => rfl

/-- Where a read leaves the cursor. -/
def landed (db : Db) (sub : StreamSubscription) (limit : Option ℤ) : Position :=
  ((advanced db sub (taken db sub limit)).map toLex).getD (readThrough sub)

/-- **One page** goes up from the cursor, ends at the new one, and passes over nothing that
matches. -/
structure Walks (db : Db) (sub : StreamSubscription) (limit : Option ℤ) : Prop where
  ascending : (taken db sub limit).Pairwise fun x y => position x < position y
  ahead : ∀ x ∈ taken db sub limit, readThrough sub < position x
  passed : ∀ x ∈ taken db sub limit, position x ≤ landed db sub limit
  onward : readThrough sub ≤ landed db sub limit
  complete : ∀ x ∈ db.items.rows, matching sub x = true → readThrough sub < position x →
    position x ≤ landed db sub limit → x ∈ taken db sub limit

lemma walks {db : Db} (hdistinct : (db.items.rows.map position).Nodup) (sub : StreamSubscription)
    (limit : Option ℤ) : Walks db sub limit := by
  obtain ⟨n, hn⟩ := taken_take db sub limit
  -- The page, as a page of the library.
  let r : Paging.Read position := ⟨db.items.rows, hdistinct, matching sub, n⟩
  have hpage : r.page (some (readThrough sub)) = taken db sub limit := hn.symm
  have hasc : (r.page (some (readThrough sub))).Pairwise fun a b => position a < position b :=
    Paging.page_ascending
  have hahead : ∀ x ∈ taken db sub limit, readThrough sub < position x := by
    intro x hx
    rw [← hpage] at hx
    simpa [Paging.ahead] using (Paging.mem_page hx).2.2
  rw [hpage] at hasc
  rcases advanced_cases db sub limit with ⟨hne, hlanded⟩ | ⟨hempty, htaken, hle⟩
  · have hnext : Paging.next position (some (readThrough sub)) (r.page (some (readThrough sub))) =
        some (landed db sub limit) := by
      rw [hpage, landed, hlanded, Paging.next]
      cases hlast : (taken db sub limit).getLast? with
      | none => rfl
      | some last => rfl
    have hpassed : ∀ x ∈ taken db sub limit, position x ≤ landed db sub limit := by
      intro x hx
      by_contra hlt
      rw [not_le] at hlt
      have hafter : Paging.ahead (Paging.next position (some (readThrough sub))
          (r.page (some (readThrough sub)))) (position x) = true := by
        rw [hnext]
        simpa [Paging.ahead] using hlt
      have hbehind := Paging.page_behind hafter
      exact lt_irrefl _ (hbehind.2 x (hpage ▸ hx))
    refine ⟨hasc, hahead, hpassed, ?_, fun x hx hmatch hlt hle => ?_⟩
    · obtain ⟨x, hx⟩ := List.exists_mem_of_ne_nil _ (taken_ne_nil limit hne)
      exact (le_of_lt (hahead x hx)).trans (hpassed x hx)
    · rw [← hpage]
      refine Paging.mem_page_of_passed (Paging.mem_rest.mpr ⟨hx, hmatch, ?_⟩) ?_
      · simpa [Paging.ahead] using hlt
      · rw [hnext]
        simpa [Paging.ahead] using hle
  · refine ⟨hasc, hahead, by simp [htaken], hle, fun x hx hmatch hlt _ => ?_⟩
    have hmem : x ∈ matched db sub :=
      Paging.mem_rest.mpr ⟨hx, hmatch, by simpa [Paging.ahead] using hlt⟩
    rw [hempty] at hmem
    cases hmem

/-! ### What other calls do -/

def draws (env : Env) : Call → List (String × Time)
  | .emit _ => [(env.sortKey, env.now)]
  | _ => []

def drawn (ls : List Label) : List (String × Time) := ls.flatMap fun l => draws l.env l.call

lemma items_subscribe (env : Env) (db : Db) (input : SubscribeInput) :
    (subscribe env db input).items = db.items ∧ (subscribe env db input).mark = db.mark := by
  unfold subscribe
  split <;> exact ⟨rfl, rfl⟩

lemma exec_read (env : Env) (db : Db) (reader : String) (limit : Option ℤ) :
    (∃ db' page, readPage env db reader limit = some (db', page) ∧
      exec env db (.read reader limit) = (db', some page)) ∨
    (db.subscriptions.get? reader = none ∧ exec env db (.read reader limit) = (db, none)) := by
  cases h : readPage env db reader limit with
  | some p => exact .inl ⟨p.1, p.2, rfl, by simp [exec, h]⟩
  | none =>
    refine .inr ⟨?_, by simp [exec, h]⟩
    unfold readPage at h
    exact Option.map_eq_none_iff.mp h

lemma exec_stamps (env : Env) (db : Db) (c : Call) :
    (stamps (exec env db c).1.items).Sublist (stamps db.items ++ draws env c) := by
  have same : ∀ {t : Db}, t.items = db.items →
      (stamps t.items).Sublist (stamps db.items ++ draws env c) := by
    intro t h
    rw [h]
    exact List.sublist_append_left _ _
  cases c with
  | emit input => exact stamps_emit _ _ _ db.items input
  | archive id =>
    refine List.Sublist.trans ?_ (List.sublist_append_left _ _)
    exact (stamps_archive env.now db.items id).symm ▸ List.Sublist.refl _
  | prune gone =>
    refine List.Sublist.trans ?_ (List.sublist_append_left _ _)
    change (stamps (prune env.now db gone).items).Sublist _
    unfold prune
    dsimp only
    split
    · exact List.Sublist.refl _
    · exact stamps_prune db.items gone
  | subscribe input => exact same (items_subscribe env db input).1
  | unsubscribe reader => exact same rfl
  | read reader limit =>
    rcases exec_read env db reader limit with ⟨t, page, h, heq⟩ | ⟨-, heq⟩
    · obtain ⟨sub, hreads⟩ := readPage_some h
      rw [heq]
      exact same hreads.items
    · rw [heq]
      exact same rfl

lemma stamps_run (keys : List (String × Time)) {ls : List Label} (h : Path Step s ls t)
    (hs : (stamps s.items).Sublist keys) : (stamps t.items).Sublist (keys ++ drawn ls) := by
  induction h generalizing keys with
  | nil s => simpa [drawn] using hs
  | @cons s u t l ls hstep _ ih =>
    have hone := exec_stamps l.env s l.call
    rw [show exec l.env s l.call = (u, l.page) from hstep] at hone
    have := ih _ (hone.trans (hs.append (List.Sublist.refl _)))
    rwa [List.append_assoc] at this

lemma cursor_exec (env : Env) {c : Call} {p : Position} (hread : ∀ limit, c ≠ .read reader limit)
    (hunsubscribe : c ≠ .unsubscribe reader) (h : cursor s reader = some p) :
    cursor (exec env s c).1 reader = some p := by
  cases c with
  | emit input => exact h
  | archive id => exact h
  | prune gone =>
    change cursor (prune env.now s gone) reader = some p
    unfold prune
    dsimp only
    split <;> exact h
  | subscribe input =>
    change cursor (subscribe env s input) reader = some p
    unfold subscribe
    split
    · rename_i subscriptions hins
      unfold cursor at h ⊢
      dsimp only
      rw [Table.get?_insert? hins]
      split
      · rename_i heq
        rw [heq, (Table.insert?_eq_some hins).1] at h
        cases h
      · exact h
    · rw [cursor_update]
      split
      · exact h
      · exact h
  | unsubscribe other =>
    have hne : other ≠ reader := by
      rintro rfl
      exact hunsubscribe rfl
    unfold exec unsubscribe cursor at *
    obtain ⟨sub, hsub, rfl⟩ := Option.map_eq_some_iff.mp h
    obtain ⟨hmem, hkey⟩ := Table.get?_eq_some.mp hsub
    have : (s.subscriptions.erase other).get? reader = some sub :=
      Table.get?_eq_some.mpr ⟨Table.mem_erase.mpr ⟨hmem, hkey ▸ hne.symm⟩, hkey⟩
    rw [this]
    rfl
  | read other limit =>
    have hne : reader ≠ other := by
      rintro rfl
      exact hread limit rfl
    rcases exec_read env s other limit with ⟨t, page, hpage, heq⟩ | ⟨-, heq⟩
    · obtain ⟨sub, hreads⟩ := readPage_some hpage
      rw [heq]
      exact (hreads.others reader hne).trans h
    · rw [heq]
      exact h

lemma there_exec {p : Position} (env : Env) (c : Call) (h : Present p s ∨ Pruned p s) :
    Present p (exec env s c).1 ∨ Pruned p (exec env s c).1 := by
  have same : ∀ {t : Db}, t.items = s.items → t.mark = s.mark → Present p t ∨ Pruned p t := by
    intro t hitems hmark
    unfold Present Pruned
    rw [hitems, hmark]
    exact h
  cases c with
  | emit input =>
    refine h.imp (fun ⟨x, hx, hp⟩ => ⟨x, ?_, hp⟩) id
    change x ∈ (StreamStore.emit env.now env.ulid env.sortKey s.items input).1.rows
    unfold StreamStore.emit
    dsimp only
    split
    · exact hx
    · cases hins : s.items.insert? (emitted env.now (input.streamItemId.getD env.ulid) env.sortKey
          input) with
      | none => exact hx
      | some items =>
        rw [Option.getD_some, (Table.insert?_eq_some hins).2]
        exact List.mem_append_left _ hx
  | archive id =>
    refine h.imp (fun ⟨x, hx, hp⟩ => ?_) fun hp => hp
    refine ⟨Table.rewrite (fun s => s.id = id && s.archivedAt.isNone) (archived env.now) x,
      List.mem_map_of_mem hx, ?_⟩
    unfold Table.rewrite
    split
    · exact hp
    · exact hp
  | prune gone =>
    change Present p (prune env.now s gone) ∨ Pruned p (prune env.now s gone)
    unfold prune
    dsimp only
    split
    · exact h
    rename_i last hlast
    have hmark := StreamRetention.markAfter_position s.mark last.toStreamItem
      (StreamRetention.ascending position (s.items.rows.filter (·.id ∈ gone))).length env.now
    rcases h with ⟨x, hx, hp⟩ | ⟨m, hm, hle⟩
    · by_cases hgone : x.id ∈ gone
      · -- It went, so the batch's last item is not before it.
        right
        refine ⟨_, rfl, ?_⟩
        have hxlast : position x ≤ position last := by
          refine StreamRetention.le_getLast (StreamRetention.ascending_pairwise position _) ?_ hlast
          exact (StreamRetention.mem_ascending position).mpr (List.mem_filter.mpr
            ⟨hx, by simpa using hgone⟩)
        rw [hmark, ← hp]
        cases s.mark with
        | none => exact hxlast
        | some m => exact hxlast.trans (le_max_right _ _)
      · exact .inl ⟨x, List.mem_filter.mpr ⟨hx, by simpa using hgone⟩, hp⟩
    · right
      refine ⟨_, rfl, ?_⟩
      rw [hmark, show s.mark = some m from hm]
      exact hle.trans (le_max_left _ _)
  | subscribe input => exact same (items_subscribe env s input).1 (items_subscribe env s input).2
  | unsubscribe reader => exact same rfl rfl
  | read reader limit =>
    rcases exec_read env s reader limit with ⟨t, page, hpage, heq⟩ | ⟨-, heq⟩
    · obtain ⟨sub, hreads⟩ := readPage_some hpage
      rw [heq]
      exact same hreads.items hreads.mark
    · rw [heq]
      exact h

/-! ### Runs -/

/-- The page of a read by this reader. -/
def pageFor (reader : String) (l : Label) : Option Page :=
  match l.call with
  | .read r _ => if r = reader then l.page else none
  | _ => none

def pages (reader : String) (ls : List Label) : List Page := ls.filterMap (pageFor reader)

/-- At each of the reader's reads, an item at this place matches its filter. -/
def Wanted (reader : String) (p : Position) (s : Db) (ls : List Label) : Prop :=
  ∀ front l back u, ls = front ++ l :: back → Path Step s front u →
    (∃ limit, l.call = .read reader limit) → ∀ x ∈ u.items.rows, position x = p →
      ∀ sub, u.subscriptions.get? reader = some sub → matching sub x = true

lemma Wanted.tail {p : Position} {l : Label} {ls : List Label} (hstep : Step s l u)
    (h : Wanted reader p s (l :: ls)) : Wanted reader p u ls := by
  intro front l' back v heq hpath
  exact h (l :: front) l' back v (by rw [heq, List.cons_append]) (.cons hstep hpath)

/-- What a reader got along a run. -/
structure Served (reader : String) (s : Db) (ls : List Label) (t : Db) (c d : Position) :
    Prop where
  stands : cursor t reader = some d
  onward : c ≤ d
  ascending : ((pages reader ls).flatMap (·.items)).Pairwise fun x y =>
    PageItem.position x < PageItem.position y
  between : ∀ x ∈ (pages reader ls).flatMap (·.items),
    c < PageItem.position x ∧ PageItem.position x ≤ d
  complete : ∀ p, c < p → Present p s ∨ Pruned p s → Wanted reader p s ls →
    (∃ x ∈ (pages reader ls).flatMap (·.items), PageItem.position x = p) ∨
      (∃ page ∈ pages reader ls, Tells p page) ∨ (d < p ∧ (Present p t ∨ Pruned p t))

lemma Served.skip {ls : List Label} {l : Label} {c d : Position} (hstep : Step s l u)
    (hpage : pageFor reader l = none) (h : Served reader u ls t c d) :
    Served reader s (l :: ls) t c d := by
  have hpages : pages reader (l :: ls) = pages reader ls := List.filterMap_cons_none hpage
  refine ⟨h.stands, h.onward, ?_, ?_, fun p hp hthere hwanted => ?_⟩
  · rw [hpages]
    exact h.ascending
  · rw [hpages]
    exact h.between
  · rw [hpages]
    have hthere' := there_exec l.env l.call hthere
    rw [show exec l.env s l.call = (u, l.page) from hstep] at hthere'
    exact h.complete p hp hthere' (hwanted.tail hstep)

lemma Served.read {ls : List Label} {l : Label} {sub : StreamSubscription} {limit : Option ℤ}
    {d : Position} (hdistinct : (s.items.rows.map position).Nodup) (hstep : Step s l u)
    (hcall : l.call = .read reader limit) {page : Page} (hpage : l.page = some page)
    (hreads : Reads s reader sub limit u page)
    (h : Served reader u ls t (landed s sub limit) d) :
    Served reader s (l :: ls) t (readThrough sub) d := by
  have hw := walks hdistinct sub limit
  have hpages : pages reader (l :: ls) = page :: pages reader ls :=
    List.filterMap_cons_some (by rw [pageFor, hcall]; simpa using hpage)
  have hitems : page.items = (taken s sub limit).map pageItem := by
    rw [hreads.result]
    rfl
  refine ⟨h.stands, hw.onward.trans h.onward, ?_, ?_, fun p hp hthere hwanted => ?_⟩
  · rw [hpages, List.flatMap_cons, hitems]
    refine List.pairwise_append.mpr ⟨List.pairwise_map.mpr hw.ascending, h.ascending, ?_⟩
    intro x hx y hy
    obtain ⟨a, ha, rfl⟩ := List.mem_map.mp hx
    exact lt_of_le_of_lt (hw.passed a ha) (h.between y hy).1
  · intro x hx
    rw [hpages, List.flatMap_cons, hitems] at hx
    rcases List.mem_append.mp hx with hx | hx
    · obtain ⟨a, ha, rfl⟩ := List.mem_map.mp hx
      exact ⟨hw.ahead a ha, (hw.passed a ha).trans h.onward⟩
    · exact ⟨lt_of_le_of_lt hw.onward (h.between x hx).1, (h.between x hx).2⟩
  · rw [hpages, List.flatMap_cons]
    rcases hthere with ⟨x, hx, hxp⟩ | hpruned
    · have hmatch := hwanted [] l ls s rfl (.nil s) ⟨limit, hcall⟩ x hx hxp sub hreads.found
      by_cases hpassed : p ≤ landed s sub limit
      · -- It is on this page.
        have hmem := hw.complete x hx hmatch (hxp ▸ hp) (hxp ▸ hpassed)
        exact .inl ⟨pageItem x, List.mem_append_left _ (hitems ▸ List.mem_map_of_mem hmem), hxp⟩
      · have hthere : Present p u := by
          refine ⟨x, ?_, hxp⟩
          rw [hreads.items]
          exact hx
        rcases h.complete p (not_le.mp hpassed) (.inl hthere) (hwanted.tail hstep) with
          ⟨y, hy, hyp⟩ | ⟨q, hq, htells⟩ | hlater
        · exact .inl ⟨y, List.mem_append_right _ hy, hyp⟩
        · exact .inr (.inl ⟨q, List.mem_cons_of_mem _ hq, htells⟩)
        · exact .inr (.inr hlater)
    · refine .inr (.inl ⟨page, List.mem_cons_self, ?_⟩)
      rw [hreads.result]
      exact tells_of_pruned hpruned hp

lemma served_run {ls : List Label} (h : Path Step s ls t) {keys : List (String × Time)}
    (hs : (stamps s.items).Sublist keys) (hfresh : Fresh (keys ++ drawn ls))
    (hkept : ∀ l ∈ ls, l.call ≠ .unsubscribe reader) {c : Position}
    (hc : cursor s reader = some c) : ∃ d, Served reader s ls t c d := by
  induction h generalizing keys c with
  | nil s =>
    exact ⟨c, hc, le_refl c, List.Pairwise.nil, by simp [pages],
      fun p hp hthere _ => .inr (.inr ⟨hp, hthere⟩)⟩
  | @cons s u t l ls hstep hrest ih =>
    obtain ⟨hkeptl, hkept'⟩ := List.forall_mem_cons.mp hkept
    have hone := exec_stamps l.env s l.call
    have hexec : exec l.env s l.call = (u, l.page) := hstep
    rw [hexec] at hone
    have hu : (stamps u.items).Sublist (keys ++ draws l.env l.call) :=
      hone.trans (hs.append (List.Sublist.refl _))
    have hfresh' : Fresh (keys ++ draws l.env l.call ++ drawn ls) := by
      rw [List.append_assoc]
      exact hfresh
    by_cases hread : ∃ limit, l.call = .read reader limit
    · obtain ⟨limit, hcall⟩ := hread
      obtain ⟨sub, hsub, rfl⟩ := Option.map_eq_some_iff.mp hc
      rcases exec_read l.env s reader limit with ⟨v, page, hpage, heq⟩ | ⟨hnone, -⟩
      · rw [hcall, heq] at hexec
        obtain ⟨rfl, hlpage⟩ := Prod.mk.inj hexec
        obtain ⟨sub', hreads⟩ := readPage_some hpage
        obtain rfl := Option.some.inj (hsub.symm.trans hreads.found)
        obtain ⟨d, hd⟩ := ih hu hfresh' hkept' hreads.stands
        have hdistinct := positions_distinct hfresh (hs.trans (List.sublist_append_left _ _))
        exact ⟨d, hd.read hdistinct hstep hcall hlpage.symm hreads⟩
      · rw [hsub] at hnone
        cases hnone
    · push Not at hread
      have hcu := cursor_exec l.env hread hkeptl hc
      rw [hexec] at hcu
      obtain ⟨d, hd⟩ := ih hu hfresh' hkept' hcu
      refine ⟨d, hd.skip hstep ?_⟩
      unfold pageFor
      split
      · rename_i r limit hcall
        rw [if_neg]
        rintro rfl
        exact hread limit hcall
      · rfl

/-- **A reader loses nothing silently.** Along any run of emits, archivals, retention batches,
subscriptions and reads, a reader whose subscription is not ended gets its items in ascending
stream order over all its pages, none twice and none from behind its cursor. And an item ahead of
the cursor that matches its filter at each of its reads is on one of its pages, or still ahead of
its cursor, or a page told it that retention went past that item. -/
theorem reader_loses_nothing {before ls : List Label} (h₀ : Path Step .empty before s)
    (h : Path Step s ls t) (hfresh : Fresh (drawn before ++ drawn ls))
    (hkept : ∀ l ∈ ls, l.call ≠ .unsubscribe reader) {c : Position}
    (hc : cursor s reader = some c) : ∃ d, Served reader s ls t c d := by
  refine served_run h ?_ hfresh hkept hc
  simpa using stamps_run [] h₀ (List.Sublist.refl [])

/-- A reader gets the item of its topic, and is told of the one that was pruned. -/
theorem reader_loses_nothing_pruned : ∃ (s t : Db) (ls : List Label) (c d : Position),
    (pages "b@rig" ls).map (fun p => (p.items.map (·.streamItemId), p.gap.isSome)) =
      [(["m1"], false), ([], true)] ∧ Served "b@rig" s ls t c d := by
  let env (k : ℕ) (key : String) : Env := ⟨k, "u", key, fun _ => none⟩
  let item (id : String) : StreamEmitInput :=
    { streamItemId := some id, sourceSession := "a@rig", body := "hello", size := by decide
      hintTags := some (.array [.text "topic"]) }
  let s₁ := (exec (env 0 "") .empty (.subscribe
    { readerSession := "b@rig", hintTags := some ["topic"], actor := "a@rig" })).1
  let s₂ := (exec (env 1 "k1") s₁ (.emit (item "m1"))).1
  let s₃ := (exec (env 2 "") s₂ (.read "b@rig" none)).1
  let s₄ := (exec (env 3 "k2") s₃ (.emit (item "m2"))).1
  let s₅ := (exec (env 4 "") s₄ (.prune ["m2"])).1
  let s₆ := (exec (env 5 "") s₅ (.read "b@rig" none)).1
  let before := [labelOf (env 0 "") .empty (.subscribe
    { readerSession := "b@rig", hintTags := some ["topic"], actor := "a@rig" })]
  let ls := [labelOf (env 1 "k1") s₁ (.emit (item "m1")),
    labelOf (env 2 "") s₂ (.read "b@rig" none), labelOf (env 3 "k2") s₃ (.emit (item "m2")),
    labelOf (env 4 "") s₄ (.prune ["m2"]), labelOf (env 5 "") s₅ (.read "b@rig" none)]
  have h₀ : Path Step .empty before s₁ := .single (step_labelOf ..)
  have h : Path Step s₁ ls s₆ := .cons (step_labelOf ..) (.cons (step_labelOf ..)
    (.cons (step_labelOf ..) (.cons (step_labelOf ..) (.single (step_labelOf ..)))))
  obtain ⟨d, hd⟩ := reader_loses_nothing h₀ h ⟨by decide +kernel, by decide +kernel⟩
    (by simp [ls, labelOf]) (show cursor s₁ "b@rig" = some (toLex (0, "")) from rfl)
  exact ⟨s₁, s₆, ls, _, d, by decide +kernel, hd⟩

/-! ### Sizes -/

/-- The texts that no clip shortens are short. -/
structure Bounded (db : Db) : Prop where
  items : ∀ x ∈ db.items.rows, Stored x
  cursors : ∀ sub ∈ db.subscriptions.rows, bytes (jsonString sub.readThroughKey) ≤ 66
  mark : ∀ m ∈ db.mark, bytes (jsonString m.prunedThroughKey) ≤ 66

lemma stored_emitted {sortKey : String} (hkey : bytes (jsonString sortKey) ≤ 66) (now : Time)
    (id : String) (input : StreamEmitInput) : Stored (emitted now id sortKey input) := by
  obtain ⟨hcap, hcases⟩ := capStreamBody_spec input.body input.size
  have hlimit : STREAM_BODY_CAP_BYTES < 2 ^ 53 := by decide
  refine ⟨hkey, lt_of_le_of_lt hcap hlimit, fun t ht => ?_⟩
  change (capStreamBody input.body).2 = some t at ht
  rcases hcases with hwhole | ⟨kept, rest, used, hbody, hused, hcut, -, -⟩
  · rw [hwhole] at ht
    cases ht
  · rw [hcut] at ht
    cases ht
    refine ⟨lt_of_le_of_lt ?_ input.size, input.size⟩
    rw [byteLength, hbody, List.map_append, List.sum_append, ← hused]
    exact Nat.le_add_right _ _

lemma bounded_emit (hs : Bounded s) (hkey : bytes (jsonString env.sortKey) ≤ 66)
    (input : StreamEmitInput) : Bounded (exec env s (.emit input)).1 := by
  refine ⟨?_, hs.cursors, hs.mark⟩
  intro x hx
  change x ∈ (StreamStore.emit env.now env.ulid env.sortKey s.items input).1.rows at hx
  unfold StreamStore.emit at hx
  dsimp only at hx
  split at hx
  · exact hs.items x hx
  · cases hins : s.items.insert? (emitted env.now (input.streamItemId.getD env.ulid) env.sortKey
        input) with
    | none =>
      rw [hins] at hx
      exact hs.items x hx
    | some items =>
      rw [hins, Option.getD_some, (Table.insert?_eq_some hins).2] at hx
      rcases List.mem_append.mp hx with hx | hx
      · exact hs.items x hx
      · rw [List.mem_singleton.mp hx]
        exact stored_emitted hkey _ _ _

lemma bounded_prune (hs : Bounded s) (now : Time) (gone : List String) :
    Bounded (prune now s gone) := by
  unfold prune
  dsimp only
  split
  · exact hs
  rename_i last hlast
  refine ⟨fun x hx => hs.items x (List.mem_filter.mp hx).1, hs.cursors, ?_⟩
  rintro _ ⟨⟩
  have hmem : last ∈ s.items.rows :=
    (List.mem_filter.mp ((StreamRetention.mem_ascending position).mp
      (List.mem_of_getLast? hlast))).1
  have hkey : bytes (jsonString last.streamSortKey) ≤ 66 := (hs.items last hmem).key
  unfold StreamRetention.markAfter
  split
  · exact hkey
  · rename_i m hm
    split
    · exact hkey
    · exact hs.mark m hm

lemma bounded_moveCursor (hs : Bounded s) (now : Time) (reader : String)
    {next : Option (Time × String)}
    (hnext : ∀ moved ∈ next, bytes (jsonString moved.2) ≤ 66) :
    Bounded (moveCursor now s reader next) := by
  unfold moveCursor
  split
  · rename_i moved
    refine ⟨hs.items, fun sub hsub => ?_, hs.mark⟩
    obtain ⟨old, hold, rfl⟩ := List.mem_map.mp hsub
    unfold Table.rewrite
    split
    · exact hnext moved rfl
    · exact hs.cursors old hold
  · exact hs

lemma advanced_key (hs : Bounded s) (sub : StreamSubscription) (limit : Option ℤ) :
    ∀ moved ∈ advanced s sub (taken s sub limit), bytes (jsonString moved.2) ≤ 66 := by
  intro moved hmoved
  unfold advanced at hmoved
  split at hmoved
  · rename_i last hlast
    cases hmoved
    obtain ⟨n, hn⟩ := taken_take s sub limit
    have hmem : last ∈ matched s sub := List.mem_of_mem_take (hn ▸ List.mem_of_getLast? hlast)
    exact (hs.items last (Paging.mem_rest.mp hmem).1).key
  · obtain ⟨g, -, hmark⟩ := Option.bind_eq_some_iff.mp hmoved
    obtain ⟨m, hm, rfl⟩ := Option.map_eq_some_iff.mp hmark
    exact hs.mark m hm

lemma bounded_subscribe (hs : Bounded s) (env : Env) (input : SubscribeInput) :
    Bounded (subscribe env s input) := by
  unfold subscribe
  split
  · rename_i subscriptions hins
    refine ⟨hs.items, fun sub hsub => ?_, hs.mark⟩
    dsimp only at hsub
    rw [(Table.insert?_eq_some hins).2] at hsub
    rcases List.mem_append.mp hsub with hsub | hsub
    · exact hs.cursors sub hsub
    · rw [List.mem_singleton.mp hsub]
      change bytes (jsonString "") ≤ 66
      decide
  · refine ⟨hs.items, fun sub hsub => ?_, hs.mark⟩
    obtain ⟨old, hold, rfl⟩ := List.mem_map.mp hsub
    unfold Table.rewrite
    split
    · exact hs.cursors old hold
    · exact hs.cursors old hold

lemma bounded_step {l : Label} (hkey : bytes (jsonString l.env.sortKey) ≤ 66) (hstep : Step s l t)
    (hs : Bounded s) : Bounded t := by
  obtain rfl : (exec l.env s l.call).1 = t := congrArg Prod.fst hstep
  cases l.call with
  | emit input => exact bounded_emit hs hkey input
  | archive id =>
    refine ⟨fun x hx => ?_, hs.cursors, hs.mark⟩
    obtain ⟨old, hold, rfl⟩ := List.mem_map.mp hx
    have hstored := hs.items old hold
    unfold Table.rewrite
    split
    · exact ⟨hstored.key, hstored.body, hstored.truncation⟩
    · exact hstored
  | prune gone => exact bounded_prune hs l.env.now gone
  | subscribe input => exact bounded_subscribe hs l.env input
  | unsubscribe reader =>
    exact ⟨hs.items, fun sub hsub => hs.cursors sub (Table.mem_erase.mp hsub).1, hs.mark⟩
  | read reader limit =>
    rcases exec_read l.env s reader limit with ⟨t, page, hpage, heq⟩ | ⟨-, heq⟩
    · rw [heq]
      unfold readPage at hpage
      obtain ⟨sub, -, heq'⟩ := Option.map_eq_some_iff.mp hpage
      obtain ⟨rfl, -⟩ := Prod.mk.inj heq'
      exact bounded_moveCursor hs _ _ (advanced_key hs sub limit)
    · rw [heq]
      exact hs

/-- A sort key is an id of a bounded length. -/
def ShortKey (l : Label) : Prop := bytes (jsonString l.env.sortKey) ≤ 66

lemma bounded_empty : Bounded .empty where
  items _ h := absurd h List.not_mem_nil
  cursors _ h := absurd h List.not_mem_nil
  mark _ h := by cases h

lemma bounded_run {ls : List Label} (h : Path Step .empty ls s) (hkeys : ∀ l ∈ ls, ShortKey l) :
    Bounded s :=
  h.invariant_of_labels (I := Bounded) (p := ShortKey)
    (fun _ _ _ hkey hstep hs => bounded_step hkey hstep hs) hkeys bounded_empty

/-- The counts of a page are integers that the language holds exactly. -/
structure Countable (page : Page) : Prop where
  unreadItems : page.unreadItems < 2 ^ 53
  unreadBytes : page.unreadBytes < 2 ^ 53
  pruned : ∀ g ∈ page.gap, g.prunedItemsTotal < 2 ^ 53

lemma pageOf_fits (hs : Bounded s) {sub : StreamSubscription}
    (hsub : s.subscriptions.get? reader = some sub) (limit : Option ℤ)
    (hcounts : Countable (pageOf s sub limit)) :
    bytes (pageOf s sub limit).json ≤ READ_PAGE_BYTES := by
  have henvelope := bytes_envelope sub hcounts.pruned
  have hrows : ∀ x ∈ ((matched s sub).take (pageLimit limit + 1)).take (pageLimit limit),
      Stored x := fun x hx =>
    hs.items x (Paging.mem_rest.mp (List.mem_of_mem_take (List.mem_of_mem_take hx))).1
  have hfill := fill_bytes (bytes (envelope (shownSubscription sub) (gapOf s sub)))
    (by
      have hcap : READ_PAGE_BYTES = 65536 := rfl
      change bytes (envelope (shownSubscription sub) (gapOf s sub)) ≤ 6200 at henvelope
      omega) hrows
  have hkey : bytes (jsonString (pageOf s sub limit).readThroughKey) ≤ 66 := by
    have hadvanced := advanced_key hs sub limit
    change bytes (jsonString ((advanced s sub (taken s sub limit)).getD
      (sub.readThroughTs, sub.readThroughKey)).2) ≤ 66
    cases hmoved : advanced s sub (taken s sub limit) with
    | none => exact hs.cursors sub (Table.get?_eq_some.mp hsub).1
    | some moved => exact hadvanced moved hmoved
  have hts := bytes_instant (pageOf s sub limit).readThroughTs
  refine (bytes_response_le (hts.trans (by decide)) hkey hcounts.unreadItems
    hcounts.unreadBytes).trans ?_
  change bytes (envelope (shownSubscription sub) (gapOf s sub)) +
    bytes (commas (((taken s sub limit).map pageItem).map (·.json))) ≤ READ_PAGE_BYTES
  rw [List.map_map]
  exact hfill

lemma taken_length (db : Db) (sub : StreamSubscription) (limit : Option ℤ) :
    (taken db sub limit).length ≤ pageLimit limit := by
  unfold taken
  obtain ⟨n, hn⟩ := fill_take true (bytes (envelope (shownSubscription sub) (gapOf db sub)))
    (((matched db sub).take (pageLimit limit + 1)).take (pageLimit limit))
  rw [hn, List.length_take, List.length_take]
  omega

lemma more_iff {db : Db} (hdistinct : (db.items.rows.map position).Nodup)
    (sub : StreamSubscription) (limit : Option ℤ) :
    (pageOf db sub limit).more = true ↔ 0 < (pageOf db sub limit).unreadItems := by
  have hw := walks hdistinct sub limit
  obtain ⟨n, hn⟩ := taken_take db sub limit
  have hlimit := taken_length db sub limit
  have hlanded : toLex ((advanced db sub (taken db sub limit)).getD
      (sub.readThroughTs, sub.readThroughKey)) = landed db sub limit := by
    unfold landed
    cases advanced db sub (taken db sub limit) <;> rfl
  have hunread : 0 < (pageOf db sub limit).unreadItems ↔
      ∃ x ∈ db.items.rows, matching sub x = true ∧ landed db sub limit < position x := by
    change 0 < (unread db sub (toLex ((advanced db sub (taken db sub limit)).getD
      (sub.readThroughTs, sub.readThroughKey)))).length ↔ _
    rw [hlanded, List.length_pos_iff_exists_mem]
    simp only [unread, List.mem_filter, Bool.and_eq_true, decide_eq_true_eq]
  have hmore : (pageOf db sub limit).more = true ↔
      (taken db sub limit).length < (matched db sub).length := by
    change decide ((taken db sub limit).length <
      ((matched db sub).take (pageLimit limit + 1)).length) = true ↔ _
    rw [decide_eq_true_eq, List.length_take]
    omega
  rw [hmore, hunread]
  constructor
  · intro hlt
    have hsplit : matched db sub = taken db sub limit ++ (matched db sub).drop n := by
      rw [hn, List.take_append_drop]
    obtain ⟨x, hx⟩ : ∃ x, x ∈ (matched db sub).drop n := by
      refine List.exists_mem_of_ne_nil _ fun hnil => ?_
      rw [hnil, List.append_nil] at hsplit
      rw [← hsplit] at hlt
      exact lt_irrefl _ hlt
    have hasc : (matched db sub).Pairwise fun a b => position a < position b :=
      Paging.rest_ascending hdistinct (matching sub) (some (readThrough sub))
    rw [hsplit] at hasc
    have hafter := (List.pairwise_append.mp hasc).2.2
    obtain ⟨hmem, hmatch, hahead⟩ := Paging.mem_rest.mp (List.mem_of_mem_drop hx)
    refine ⟨x, hmem, hmatch, ?_⟩
    by_contra hle
    have hin := hw.complete x hmem hmatch (by simpa [Paging.ahead] using hahead) (not_lt.mp hle)
    exact lt_irrefl _ (hafter x hin x hx)
  · rintro ⟨x, hx, hmatch, hlt⟩
    have hin : x ∈ matched db sub := Paging.mem_rest.mpr ⟨hx, hmatch, by
      simpa [Paging.ahead] using lt_of_le_of_lt hw.onward hlt⟩
    by_contra hlen
    rw [hn, List.length_take] at hlen
    have hall : taken db sub limit = matched db sub := by
      rw [hn]
      exact List.take_of_length_le (by omega)
    exact absurd (hw.passed x (hall ▸ hin)) (not_le.mpr hlt)

/-- **A page fits.** In every state that calls reach, whatever was emitted: a page with its
metadata is at most 64 KiB once serialized, it has at most as many items as the call asked for (at
most twenty) and at least one when something matches ahead, and it tells exactly whether anything is
left unread. -/
theorem reader_page_fits {ls : List Label} (h : Path Step .empty ls s) (hfresh : Fresh (drawn ls))
    (hkeys : ∀ l ∈ ls, ShortKey l) {page : Page}
    (hread : readPage env s reader limit = some (t, page)) (hcounts : Countable page) :
    bytes page.json ≤ READ_PAGE_BYTES ∧
      page.items.length ≤ pageLimit limit ∧ pageLimit limit ≤ READ_PAGE_ITEMS ∧
      (page.items = [] → page.unreadItems = 0) ∧ (page.more = true ↔ 0 < page.unreadItems) := by
  have hbounded := bounded_run h hkeys
  have hstamps : (stamps s.items).Sublist (drawn ls) := by
    simpa using stamps_run [] h (List.Sublist.refl [])
  have hdistinct := positions_distinct hfresh hstamps
  obtain ⟨sub, hreads⟩ := readPage_some hread
  obtain rfl := hreads.result
  refine ⟨pageOf_fits hbounded hreads.found limit hcounts, ?_, ?_, fun hnil => ?_,
    more_iff hdistinct sub limit⟩
  · change ((taken s sub limit).map pageItem).length ≤ pageLimit limit
    rw [List.length_map]
    exact taken_length s sub limit
  · unfold pageLimit
    have : (READ_PAGE_ITEMS : ℤ) = 20 := rfl
    have : READ_PAGE_ITEMS = 20 := rfl
    omega
  · have htaken : taken s sub limit = [] := List.map_eq_nil_iff.mp hnil
    have hempty : matched s sub = [] := by
      by_contra hne
      exact taken_ne_nil limit hne htaken
    by_contra hpos
    obtain hmore := (more_iff hdistinct sub limit).mpr (Nat.pos_of_ne_zero hpos)
    change decide (_ < ((matched s sub).take (pageLimit limit + 1)).length) = true at hmore
    rw [hempty] at hmore
    simp at hmore

lemma pageItem_clipped {r : StreamItem} {n : ℕ}
    (h : r.hintType = some (String.ofList (.replicate n 'x'))) (hn : FIELD_CHARS < n) :
    (pageItem r).metadataTruncated = true := by
  have hlong : ¬ utf16Length (String.ofList (.replicate n 'x')) ≤ FIELD_CHARS := by
    have hunit : (if 0xFFFF < 'x'.toNat then 2 else 1) = 1 := by decide
    unfold utf16Length
    rw [String.toList_ofList, List.map_replicate, List.sum_replicate_nat, hunit]
    simpa using hn
  have hclip : (clipOptional r.hintType).2 = true := by
    rw [h, clipOptional, clip, if_neg hlong]
  unfold pageItem
  simp [hclip]

/-- A page of one item of two, its type clipped. -/
theorem reader_page_fits_clipped : ∃ page : Page,
    page.items.map (fun x => (x.streamItemId, x.metadataTruncated)) = [("m1", true)] ∧
      page.more = true ∧ page.items.length ≤ 1 ∧ bytes page.json ≤ READ_PAGE_BYTES := by
  let env (k : ℕ) (key : String) : Env := ⟨k, "u", key, fun _ => none⟩
  let item (id : String) : StreamEmitInput :=
    { streamItemId := some id, sourceSession := "a@rig", body := "hello", size := by decide
      hintDestination := some "b@rig", hintType := some (String.ofList (List.replicate 300 'x')) }
  let s₁ := (exec (env 0 "k0") .empty (.subscribe { readerSession := "b@rig", actor := "a@rig" })).1
  let s₂ := (exec (env 1 "k1") s₁ (.emit (item "m1"))).1
  let s₃ := (exec (env 2 "k2") s₂ (.emit (item "m2"))).1
  have h : Path Step .empty
      [labelOf (env 0 "k0") .empty (.subscribe { readerSession := "b@rig", actor := "a@rig" }),
        labelOf (env 1 "k1") s₁ (.emit (item "m1")), labelOf (env 2 "k2") s₂ (.emit (item "m2"))]
      s₃ :=
    .cons (step_labelOf ..) (.cons (step_labelOf ..) (.single (step_labelOf ..)))
  obtain ⟨p, hp⟩ : ∃ p, readPage (env 3 "") s₃ "b@rig" (some 1) = some p :=
    ⟨(readPage (env 3 "") s₃ "b@rig" (some 1)).get (by decide +kernel), by simp⟩
  have hpage : p.2.more = true ∧ p.2.unreadItems < 2 ^ 53 ∧ p.2.unreadBytes < 2 ^ 53 ∧
      p.2.gap = none := by
    have hall : (readPage (env 3 "") s₃ "b@rig" (some 1)).all (fun p =>
        p.2.more = true ∧ p.2.unreadItems < 2 ^ 53 ∧ p.2.unreadBytes < 2 ^ 53 ∧
          p.2.gap = none) = true := by decide +kernel
    rw [hp] at hall
    simpa using hall
  obtain ⟨hmore, hunread, hbytes, hgap⟩ := hpage
  have hitems : p.2.items = [pageItem (emitted 1 "m1" "k1" (item "m1"))] := by
    have hmap : (readPage (env 3 "") s₃ "b@rig" (some 1)).map (·.2.items) =
        some [pageItem (emitted 1 "m1" "k1" (item "m1"))] := rfl
    rw [hp] at hmap
    exact Option.some.inj hmap
  have hclipped : (pageItem (emitted 1 "m1" "k1" (item "m1"))).metadataTruncated = true :=
    pageItem_clipped (n := 300) rfl (by decide)
  have hkeys : ∀ l ∈ [labelOf (env 0 "k0") .empty
        (.subscribe { readerSession := "b@rig", actor := "a@rig" }),
      labelOf (env 1 "k1") s₁ (.emit (item "m1")), labelOf (env 2 "k2") s₂ (.emit (item "m2"))],
      ShortKey l := by
    intro l hl
    simp only [List.mem_cons, List.not_mem_nil, or_false] at hl
    rcases hl with rfl | rfl | rfl
    · change bytes (jsonString "k0") ≤ 66
      decide +kernel
    · change bytes (jsonString "k1") ≤ 66
      decide +kernel
    · change bytes (jsonString "k2") ≤ 66
      decide +kernel
  obtain ⟨hfits, hlength, -⟩ := reader_page_fits (t := p.1) h
    ⟨by decide +kernel, by decide +kernel⟩ hkeys hp ⟨hunread, hbytes, by simp [hgap]⟩
  have hid : (pageItem (emitted 1 "m1" "k1" (item "m1"))).streamItemId = "m1" := by
    decide +kernel
  have hshown :
    p.2.items.map (fun x => (x.streamItemId, x.metadataTruncated)) = [("m1", true)] := by
    rw [hitems, List.map_singleton, hclipped, hid]
  exact ⟨p.2, hshown, hmore, hlength, hfits⟩

end OpenRig.StreamReaders
