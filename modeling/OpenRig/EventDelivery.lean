import OpenRig.EventBus

/-!
Delivery of committed events.

While an event is handed to the subscribers, whatever they do only stores rows. So a fan-out has a
closed form, a drain is a run that handles the first pending row at each step, and both keep one
account of the rows handled, the rows stored and the calls made.
-/

namespace OpenRig.EventBus

open OpenRig.Runs

universe u
variable {α : Type u}

/-- The corrupt row a payload reports. -/
def Payload.reported : Payload α → Option ℕ
  | .event (.deliveryPoisoned seq _ _) => some seq
  | _ => none

def EventRow.wellFormed (r : EventRow α) : Bool := r.payload.wellFormed

lemma Act.reported_of_mem_stored {a : Act α} {p : Payload α} (h : p ∈ a.stored) :
    p.reported = none := by
  cases a with
  | emit a =>
    obtain rfl : p = _ := List.mem_singleton.mp h
    rfl
  | transaction events commits =>
    cases commits with
    | false => simp [Act.stored] at h
    | true =>
      obtain ⟨a, _, rfl⟩ := List.mem_map.mp h
      rfl
  | envelope e =>
    rw [Act.stored] at h
    split at h
    · simp at h
    · obtain ⟨a, _, rfl⟩ := List.mem_map.mp h
      rfl
  | corrupt text error =>
    obtain rfl : p = _ := List.mem_singleton.mp h
    rfl

lemma Reaction.reported_of_mem_stored {r : Reaction α} {p : Payload α} (h : p ∈ r.stored) :
    p.reported = none := by
  obtain ⟨a, _, h⟩ := List.mem_flatMap.mp h
  exact a.reported_of_mem_stored h

namespace Bus

/-! ### The account -/

/-- The calls that hand a row to the subscribers. -/
def announce (b : Bus α) (r : EventRow α) : List (ℕ × ℕ) := b.subscribers.map fun s => (s, r.seq)

/-- The calls of subscribers that handling the rows takes. -/
def callsFor (b : Bus α) (rows : List (EventRow α)) : ℕ :=
  (rows.filter EventRow.wellFormed).length * b.subscribers.length

/-- The bus handled the rows in order, and stored the payloads meanwhile. -/
structure Handled (b : Bus α) (rows : List (EventRow α)) (ps : List (Payload α)) (t : Bus α) :
    Prop where
  subscribers : t.subscribers = b.subscribers
  notifying : t.notifyingSubscribers = b.notifyingSubscribers
  draining : t.drainingNotifyRows = b.drainingNotifyRows
  log_eq : t.rows = b.rows ++ b.nextRows ps
  sequence : t.sequence = b.sequence + ps.length
  calls : t.calls = b.calls ++ (rows.filter EventRow.wellFormed).flatMap b.announce
  reactions : t.reactions = b.reactions.drop (b.callsFor rows)
  stored : ps.filter (fun p => p.reported.isNone) =
    (b.reactions.take (b.callsFor rows)).flatMap Reaction.stored
  reports : ps.filterMap Payload.reported =
    (rows.filter fun r => !r.wellFormed).map EventRow.seq

lemma Handled.refl (b : Bus α) : Handled b [] [] b := by
  constructor <;> simp [callsFor]

lemma callsFor_append (b : Bus α) (rows rows' : List (EventRow α)) :
    b.callsFor (rows ++ rows') = b.callsFor rows + b.callsFor rows' := by
  rw [callsFor, List.filter_append, List.length_append, Nat.add_mul]
  rfl

lemma Handled.persistAll_rows {b t : Bus α} {rows : List (EventRow α)} {ps : List (Payload α)}
    (h : Handled b rows ps t) (qs : List (Payload α)) :
    b.nextRows ps ++ t.nextRows qs = b.nextRows (ps ++ qs) := by
  rw [nextRows_append]
  congr 1
  apply nextRows_congr
  rw [h.sequence, persistAll_eq]

lemma Handled.trans {b t u : Bus α} {rows rows' : List (EventRow α)} {ps ps' : List (Payload α)}
    (h : Handled b rows ps t) (h' : Handled t rows' ps' u) :
    Handled b (rows ++ rows') (ps ++ ps') u where
  subscribers := h'.subscribers.trans h.subscribers
  notifying := h'.notifying.trans h.notifying
  draining := h'.draining.trans h.draining
  log_eq := by rw [h'.log_eq, h.log_eq, List.append_assoc, h.persistAll_rows]
  sequence := by rw [h'.sequence, h.sequence, List.length_append, Nat.add_assoc]
  calls := by
    have hannounce : t.announce = b.announce := by
      funext r
      rw [announce, announce, h.subscribers]
    rw [h'.calls, h.calls, List.append_assoc, List.filter_append, List.flatMap_append, hannounce]
  reactions := by
    rw [h'.reactions, h.reactions, List.drop_drop, callsFor_append, callsFor, callsFor, callsFor,
      h.subscribers]
  stored := by
    have hcalls : t.callsFor rows' = b.callsFor rows' := by
      rw [callsFor, callsFor, h.subscribers]
    rw [List.filter_append, h.stored, h'.stored, h.reactions, callsFor_append, List.take_add,
      List.flatMap_append, hcalls]
  reports := by
    rw [List.filterMap_append, h.reports, h'.reports, List.filter_append, List.map_append]

lemma Handled.log {b t : Bus α} {rows : List (EventRow α)} {ps : List (Payload α)}
    (h : Handled b rows ps t) (hb : Log b) : Log t := by
  have hlog := hb.persistAll ps
  rw [persistAll_eq] at hlog
  exact hlog.congr h.log_eq h.sequence

/-! ### A fan-out -/

/-- A level that leaves a busy bus alone. -/
structure Quiet (l : Level α) : Prop where
  notify : ∀ b row, b.notifyingSubscribers = true → l.notify b row = b
  drain : ∀ b c, b.notifyingSubscribers = true → l.drain b c = b

lemma quiet_level (sha : String → String) (d : ℕ) : Quiet (level sha d : Level α) := by
  cases d with
  | zero => exact ⟨fun _ _ _ => rfl, fun _ _ _ => rfl⟩
  | succ d =>
    constructor
    · intro b row hb
      simp [level, notifyWith, hb]
    · intro b c hb
      simp [level, drainWith, hb]

@[simp] lemma notifying_persistAll (b : Bus α) (ps : List (Payload α)) :
    (b.persistAll ps).notifyingSubscribers = b.notifyingSubscribers := by
  rw [persistAll_eq]

lemma act_eq_persistAll {l : Level α} (hl : Quiet l) {b : Bus α}
    (hb : b.notifyingSubscribers = true) (a : Act α) : act l b a = b.persistAll a.stored := by
  cases a with
  | emit a => exact hl.notify _ _ hb
  | transaction events commits =>
    cases commits with
    | false => rfl
    | true =>
      have hkeep : ∀ (rows : List (EventRow α)) (c : Bus α), c.notifyingSubscribers = true →
          rows.foldl l.notify c = c := by
        intro rows
        induction rows with
        | nil => intro c _; rfl
        | cons row rows ih =>
          intro c hc
          rw [List.foldl_cons, hl.notify c row hc, ih c hc]
      exact hkeep _ _ (by rw [notifying_persistAll, hb])
  | envelope e =>
    simp only [act, Act.stored]
    split
    · rfl
    · exact hl.drain _ _ (by rw [notifying_persistAll, hb])
  | corrupt text error => rfl

lemma acts_eq_persistAll {l : Level α} (hl : Quiet l) {b : Bus α}
    (hb : b.notifyingSubscribers = true) (acts : List (Act α)) :
    acts.foldl (act l) b = b.persistAll (acts.flatMap Act.stored) := by
  induction acts generalizing b with
  | nil => rfl
  | cons a acts ih =>
    have hnext : (b.persistAll a.stored).notifyingSubscribers = true := by
      rw [notifying_persistAll, hb]
    rw [List.foldl_cons, act_eq_persistAll hl hb, ih hnext, List.flatMap_cons, persistAll_append]

lemma callSubscriber_eq {l : Level α} (hl : Quiet l) {b : Bus α}
    (hb : b.notifyingSubscribers = true) (seq s : ℕ) :
    callSubscriber l seq b s =
      { b.persistAll ((b.reactions.take 1).flatMap Reaction.stored) with
        calls := b.calls ++ [(s, seq)]
        reactions := b.reactions.drop 1 } := by
  rw [callSubscriber]
  cases hr : b.reactions with
  | nil => simp
  | cons r rest =>
    simp only [List.take_succ_cons, List.take_zero, List.flatMap_cons, List.flatMap_nil,
      List.append_nil, List.drop_succ_cons, List.drop_zero]
    rw [acts_eq_persistAll hl (by exact hb), persistAll_eq, persistAll_eq]
    rfl

/-- **A fan-out** calls every subscriber, and stores what they store. -/
lemma fanOut_eq {l : Level α} (hl : Quiet l) {b : Bus α} (hb : b.notifyingSubscribers = true)
    (row : EventRow α) :
    fanOut l b row =
      { b.persistAll ((b.reactions.take b.subscribers.length).flatMap Reaction.stored) with
        calls := b.calls ++ b.announce row
        reactions := b.reactions.drop b.subscribers.length } := by
  have hloop : ∀ (subs : List ℕ) (c : Bus α), c.notifyingSubscribers = true →
      subs.foldl (callSubscriber l row.seq) c =
        { c.persistAll ((c.reactions.take subs.length).flatMap Reaction.stored) with
          calls := c.calls ++ subs.map fun s => (s, row.seq)
          reactions := c.reactions.drop subs.length } := by
    intro subs
    induction subs with
    | nil => intro c _; simp
    | cons s subs ih =>
      intro c hc
      have hnext : (callSubscriber l row.seq c s).notifyingSubscribers = true := by
        rw [callSubscriber_eq hl hc, persistAll_eq]
        exact hc
      rw [List.foldl_cons, ih _ hnext, callSubscriber_eq hl hc]
      have htake : c.reactions.take (subs.length + 1) =
          c.reactions.take 1 ++ (c.reactions.drop 1).take subs.length := by
        rw [Nat.add_comm, List.take_add]
      rw [List.length_cons, htake, List.flatMap_append, persistAll_append]
      simp only [persistAll_eq, List.map_cons, List.append_assoc, List.cons_append,
        List.nil_append, List.drop_drop, Bus.mk.injEq, true_and, and_true]
      refine ⟨rfl, by rw [Nat.add_comm]⟩
  exact hloop b.subscribers b hb

/-! ### Handling one row -/

/-- What the subscribers of a well-formed row store, or the report of a corrupt one. -/
def aftermath (sha : String → String) (b : Bus α) (row : EventRow α) : List (Payload α) :=
  match row.payload with
  | .event _ => (b.reactions.take b.subscribers.length).flatMap Reaction.stored
  | .corrupt text error => [.event (.deliveryPoisoned row.seq error.text (sha text))]

/-- The step of a drain in closed form. -/
def handle (sha : String → String) (b : Bus α) (row : EventRow α) : Bus α :=
  match row.payload with
  | .event _ =>
    { b.persistAll (b.aftermath sha row) with
      calls := b.calls ++ b.announce row
      reactions := b.reactions.drop b.subscribers.length
      watermark := max b.watermark row.seq }
  | .corrupt text error =>
    { b.persistAll (b.aftermath sha row) with
      watermark := row.seq
      lastPoison := some (row.seq, error.text, sha text) }

lemma filter_stored (rs : List (Reaction α)) :
    (rs.flatMap Reaction.stored).filter (fun p => p.reported.isNone) =
      rs.flatMap Reaction.stored := by
  refine List.filter_eq_self.mpr fun p hp => ?_
  obtain ⟨r, _, hp⟩ := List.mem_flatMap.mp hp
  rw [r.reported_of_mem_stored hp]
  rfl

lemma reports_stored (rs : List (Reaction α)) :
    (rs.flatMap Reaction.stored).filterMap Payload.reported = [] := by
  refine List.filterMap_eq_nil_iff.mpr fun p hp => ?_
  obtain ⟨r, _, hp⟩ := List.mem_flatMap.mp hp
  exact r.reported_of_mem_stored hp

lemma handled_handle (sha : String → String) (b : Bus α) (row : EventRow α) :
    Handled b [row] (b.aftermath sha row) (b.handle sha row) := by
  obtain ⟨seq, payload⟩ := row
  cases payload with
  | event e =>
    have hwf : [(⟨seq, .event e⟩ : EventRow α)].filter EventRow.wellFormed = [⟨seq, .event e⟩] :=
      rfl
    have hcalls : b.callsFor [⟨seq, .event e⟩] = b.subscribers.length := by
      rw [callsFor, hwf, List.length_singleton, Nat.one_mul]
    constructor
    case reports => exact reports_stored _
    case stored =>
      rw [hcalls]
      exact filter_stored _
    case reactions =>
      rw [hcalls]
      rfl
    case calls =>
      rw [hwf, List.flatMap_singleton]
      rfl
    all_goals simp only [handle, persistAll_eq]
  | corrupt text error =>
    have hwf : [(⟨seq, .corrupt text error⟩ : EventRow α)].filter EventRow.wellFormed = [] := rfl
    have hcalls : b.callsFor [⟨seq, .corrupt text error⟩] = 0 := by
      rw [callsFor, hwf, List.length_nil, Nat.zero_mul]
    constructor
    case reports => rfl
    case stored =>
      rw [hcalls]
      rfl
    case reactions =>
      rw [hcalls]
      simp only [handle, persistAll_eq, List.drop_zero]
    case calls =>
      rw [hwf]
      simp only [handle, persistAll_eq, List.flatMap_nil, List.append_nil]
    all_goals simp only [handle, persistAll_eq]

/-- A level that hands a row over when it is called from a drain. -/
def Delivers (l : Level α) : Prop :=
  ∀ b row, b.drainingNotifyRows = true → b.notifyingSubscribers = false →
    row.wellFormed = true → ∀ sha, l.notify b row = b.handle sha row

lemma fanOut_handle {l : Level α} (hl : Quiet l) {b : Bus α} (hb : b.notifyingSubscribers = false)
    {row : EventRow α} (hrow : row.wellFormed = true) (sha : String → String) :
    { fanOut l { b with notifyingSubscribers := true } row with
        notifyingSubscribers := false
        watermark :=
          max (fanOut l { b with notifyingSubscribers := true } row).watermark row.seq } =
      b.handle sha row := by
  obtain ⟨seq, payload⟩ := row
  cases payload with
  | corrupt text error => simp [EventRow.wellFormed, Payload.wellFormed] at hrow
  | event e =>
    rw [fanOut_eq hl rfl]
    simp only [handle, aftermath, persistAll_eq, Bus.mk.injEq, true_and]
    exact ⟨rfl, hb.symm, rfl⟩

lemma notifyWith_eq {l : Level α} (hl : Quiet l) {b : Bus α} (hb : b.notifyingSubscribers = false)
    {row : EventRow α} (hrow : row.wellFormed = true) (sha : String → String) :
    notifyWith l b row =
      if b.drainingNotifyRows then b.handle sha row else l.drain (b.handle sha row) b.maxSeq := by
  have hfan := fanOut_handle hl hb hrow sha
  have hdraining := (handled_handle sha b row).draining
  rw [← hdraining, notifyWith, if_neg (by rw [hb]; decide)]
  exact congrArg (fun t : Bus α => if t.drainingNotifyRows then t else l.drain t b.maxSeq) hfan

lemma delivers_notifyWith {l : Level α} (hl : Quiet l) (d : Bus α → ℕ → Bus α) :
    Delivers ⟨notifyWith l, d⟩ := by
  intro b row hd hn hrow sha
  have hstep := notifyWith_eq hl hn hrow sha
  rw [if_pos hd] at hstep
  exact hstep

lemma delivers_level (sha : String → String) (d : ℕ) : Delivers (level sha (d + 1) : Level α) :=
  delivers_notifyWith (quiet_level sha d) _

/-! ### A drain -/

/-- One step of a drain: the first row behind the cursor. -/
def Drains (sha : String → String) (s : Bus α × ℕ) (row : EventRow α) (t : Bus α × ℕ) : Prop :=
  (∃ rest, s.1.rowsAfter s.2 = row :: rest) ∧ t = (s.1.handle sha row, row.seq)

/-- A bus in the loop of a drain. -/
structure InDrain (b : Bus α) : Prop where
  log : Log b
  notifying : b.notifyingSubscribers = false
  draining : b.drainingNotifyRows = true

lemma InDrain.handle {b : Bus α} (h : InDrain b) (sha : String → String) (row : EventRow α) :
    InDrain (b.handle sha row) :=
  have hh := handled_handle sha b row
  ⟨hh.log h.log, hh.notifying.trans h.notifying, hh.draining.trans h.draining⟩

lemma Log.rowsAfter_tail {b : Bus α} (h : Log b) {c : ℕ} {row : EventRow α}
    {rest : List (EventRow α)} (hrows : b.rowsAfter c = row :: rest) :
    b.rowsAfter row.seq = rest := by
  have hasc : (b.rowsAfter c).Pairwise fun r r' => r.seq < r'.seq := h.ascending.filter _
  have hc : c < row.seq := by
    have hmem : row ∈ b.rowsAfter c := hrows ▸ List.mem_cons_self
    simpa [rowsAfter] using (List.mem_filter.mp hmem).2
  have hsplit : b.rowsAfter row.seq = (b.rowsAfter c).filter fun r => decide (row.seq < r.seq) := by
    rw [rowsAfter, rowsAfter, List.filter_filter]
    apply List.filter_congr
    intro r _
    have himp : row.seq < r.seq → c < r.seq := fun h => Nat.lt_trans hc h
    by_cases hr : row.seq < r.seq
    · simp [hr, himp hr]
    · simp [hr]
  rw [hrows] at hasc hsplit
  rw [hsplit, List.filter_cons_of_neg (by simp)]
  refine List.filter_eq_self.mpr fun r hr => ?_
  simpa using (List.pairwise_cons.mp hasc).1 r hr

lemma Handled.rowsAfter {b t : Bus α} {rows : List (EventRow α)} {ps : List (Payload α)}
    (h : Handled b rows ps t) {c : ℕ} (hc : c ≤ b.sequence) :
    t.rowsAfter c = b.rowsAfter c ++ b.nextRows ps := by
  have hnew : (b.nextRows ps).filter (fun r => decide (c < r.seq)) = b.nextRows ps := by
    refine List.filter_eq_self.mpr fun r hr => ?_
    have hlo := (seq_of_mem_nextRows hr).1
    simp only [decide_eq_true_eq]
    omega
  rw [Bus.rowsAfter, h.log_eq, List.filter_append, hnew]
  rfl

lemma drains_batch {l : Level α} (hl : Delivers l) (sha : String → String)
    {batch : List (EventRow α)} : ∀ {s : Bus α × ℕ} {rest : List (EventRow α)}, InDrain s.1 →
      s.1.rowsAfter s.2 = batch ++ rest →
      Path (Drains sha) s batch (batch.foldl (drainRow sha l) s) := by
  induction batch with
  | nil => intro s rest _ _; exact .nil s
  | cons row batch ih =>
    intro s rest hs hrows
    have hrow : drainRow sha l s row = (s.1.handle sha row, row.seq) := by
      obtain ⟨seq, payload⟩ := row
      cases payload with
      | event e =>
        rw [drainRow, hl s.1 _ hs.draining hs.notifying rfl sha]
      | corrupt text error =>
        simp only [drainRow, Bus.handle, aftermath, persistAll_eq, persist, nextRows_cons,
          nextRows_nil, List.length_singleton]
    rw [List.cons_append] at hrows
    have hmem : row ∈ s.1.rowsAfter s.2 := by
      rw [hrows]
      exact List.mem_cons_self
    have hbound : row.seq ≤ s.1.sequence := hs.log.bounded row (List.mem_filter.mp hmem).1
    have htail : (s.1.handle sha row).rowsAfter row.seq =
        batch ++ (rest ++ s.1.nextRows (s.1.aftermath sha row)) := by
      rw [(handled_handle sha s.1 row).rowsAfter hbound, hs.log.rowsAfter_tail hrows,
        List.append_assoc]
    rw [List.foldl_cons, hrow]
    exact .cons ⟨⟨_, hrows⟩, rfl⟩ (ih (hs.handle sha row) htail)

/-- The account of a drain between two points: the rows handled are those that were pending or
came meanwhile, in order, up to those pending now. -/
structure DrainAccount (s : Bus α × ℕ) (rows : List (EventRow α)) (ps : List (Payload α))
    (t : Bus α × ℕ) : Prop where
  handled : Handled s.1 rows ps t.1
  inDrain : InDrain t.1
  order : rows ++ t.1.rowsAfter t.2 = s.1.rowsAfter s.2 ++ s.1.nextRows ps
  backlog : backlog t + rows.length = backlog s
  cursor : s.1.watermark = s.2 ∨ (s.1.watermark ≤ s.2 ∧ rows ≠ []) → t.1.watermark = t.2
  bound : s.2 ≤ s.1.maxSeq → t.2 ≤ t.1.maxSeq

lemma Handled.maxSeq_le {b t : Bus α} {rows : List (EventRow α)} {ps : List (Payload α)}
    (h : Handled b rows ps t) : b.maxSeq ≤ t.maxSeq := by
  refine maxSeq_le_iff.mpr fun r hr => le_maxSeq ?_
  rw [h.log_eq]
  exact List.mem_append_left _ hr

lemma weight_append (ps qs : List (Payload α)) : weight (ps ++ qs) = weight ps + weight qs := by
  rw [weight, List.map_append, List.sum_append]
  rfl

lemma Drains.account {sha : String → String} {s t : Bus α × ℕ} {row : EventRow α}
    (h : Drains sha s row t) (hs : InDrain s.1) :
    DrainAccount s [row] (s.1.aftermath sha row) t := by
  obtain ⟨⟨rest, hrows⟩, rfl⟩ := h
  have hmem : row ∈ s.1.rowsAfter s.2 := hrows ▸ List.mem_cons_self
  obtain ⟨hin, hc⟩ := List.mem_filter.mp hmem
  have hcursor : s.2 < row.seq := by simpa using hc
  have hhandled := handled_handle sha s.1 row
  have hafter : (s.1.handle sha row).rowsAfter row.seq =
      rest ++ s.1.nextRows (s.1.aftermath sha row) := by
    rw [hhandled.rowsAfter (hs.log.bounded row hin), hs.log.rowsAfter_tail hrows]
  constructor
  case handled => exact hhandled
  case inDrain => exact hs.handle sha row
  case order => rw [hafter, hrows, List.cons_append, List.nil_append, List.cons_append]
  case backlog =>
    have hreactions := hhandled.reactions
    obtain ⟨seq, payload⟩ := row
    simp only [Bus.backlog, hafter, hrows, List.map_append, List.map_cons, map_payload_nextRows,
      weight_append, hreactions, List.length_singleton]
    cases payload with
    | event e =>
      have hcalls : s.1.callsFor [⟨seq, .event e⟩] = s.1.subscribers.length := by
        rw [callsFor]
        exact Nat.one_mul _
      have hsplit := List.take_append_drop s.1.subscribers.length s.1.reactions
      have hweight : weight (s.1.reactions.flatMap Reaction.stored) =
          weight (s.1.aftermath sha ⟨seq, .event e⟩) +
            weight ((s.1.reactions.drop s.1.subscribers.length).flatMap Reaction.stored) := by
        rw [← weight_append, aftermath, ← List.flatMap_append, hsplit]
      rw [hcalls, hweight]
      simp only [weight, List.map_cons, List.sum_cons, Payload.wellFormed, if_true]
      omega
    | corrupt text error =>
      have hcalls : s.1.callsFor [⟨seq, .corrupt text error⟩] = 0 := by
        rw [callsFor]
        exact Nat.zero_mul _
      rw [hcalls, List.drop_zero]
      simp only [aftermath, weight, List.map_cons, List.map_nil, List.sum_cons, List.sum_nil,
        Payload.wellFormed, if_true, Bool.false_eq_true, if_false]
      omega
  case cursor =>
    intro hle
    obtain ⟨seq, payload⟩ := row
    cases payload with
    | event e =>
      simp only [Bus.handle]
      simp only at hcursor
      omega
    | corrupt text error => rfl
  case bound => exact fun _ => Nat.le_trans (le_maxSeq hin) hhandled.maxSeq_le

lemma DrainAccount.refl {s : Bus α × ℕ} (hs : InDrain s.1) : DrainAccount s [] [] s where
  handled := .refl s.1
  inDrain := hs
  order := by rw [nextRows_nil, List.append_nil, List.nil_append]
  backlog := rfl
  cursor := by
    rintro (h | ⟨_, h⟩)
    · exact h
    · exact absurd rfl h
  bound := id

lemma DrainAccount.cons {s t u : Bus α × ℕ} {row : EventRow α} {rows : List (EventRow α)}
    {ps ps' : List (Payload α)} (h : DrainAccount s [row] ps t) (h' : DrainAccount t rows ps' u) :
    DrainAccount s (row :: rows) (ps ++ ps') u where
  handled := h.handled.trans h'.handled
  inDrain := h'.inDrain
  order := by
    have ho := h.order
    rw [List.cons_append, List.nil_append] at ho
    rw [List.cons_append, h'.order, ← List.cons_append, ho, List.append_assoc,
      h.handled.persistAll_rows]
  backlog := by
    have h₁ := h.backlog
    have h₂ := h'.backlog
    rw [List.length_singleton] at h₁
    rw [List.length_cons]
    omega
  cursor := by
    intro hs
    have hle : s.1.watermark ≤ s.2 := by omega
    exact h'.cursor (.inl (h.cursor (.inr ⟨hle, List.cons_ne_nil _ _⟩)))
  bound := fun hs => h'.bound (h.bound hs)

/-- **The account of a run of a drain.** -/
theorem drains_account {sha : String → String} {s t : Bus α × ℕ} {rows : List (EventRow α)}
    (h : Path (Drains sha) s rows t) (hs : InDrain s.1) : ∃ ps, DrainAccount s rows ps t := by
  induction h with
  | nil s => exact ⟨[], .refl hs⟩
  | cons hstep _ ih =>
    have hfirst := hstep.account hs
    obtain ⟨ps, hrest⟩ := ih hfirst.inDrain
    exact ⟨_, hfirst.cons hrest⟩

/-- **A drain** handles first pending rows, and with fuel for its backlog it leaves none. -/
theorem drainLoop_drains {l : Level α} (hl : Delivers l) (sha : String → String) :
    ∀ (fuel : ℕ) (s : Bus α × ℕ), InDrain s.1 →
      ∃ rows, Path (Drains sha) s rows (drainLoop sha l fuel s) ∧
        (backlog s ≤ fuel →
          (drainLoop sha l fuel s).1.rowsAfter (drainLoop sha l fuel s).2 = []) := by
  intro fuel
  induction fuel with
  | zero =>
    intro s _
    refine ⟨[], .nil s, fun hfuel => ?_⟩
    have hweight : weight ((s.1.rowsAfter s.2).map EventRow.payload) = 0 := by
      rw [backlog] at hfuel
      omega
    cases hrows : s.1.rowsAfter s.2 with
    | nil => exact hrows
    | cons row rows =>
      rw [hrows, weight, List.map_cons, List.map_cons, List.sum_cons] at hweight
      split at hweight <;> omega
  | succ fuel ih =>
    intro s hs
    rw [drainLoop]
    cases hbatch : (s.1.rowsAfter s.2).take 500 with
    | nil =>
      refine ⟨[], .nil s, fun _ => ?_⟩
      rcases List.take_eq_nil_iff.mp hbatch with h | h
      · omega
      · exact h
    | cons row rows =>
      have hsplit : s.1.rowsAfter s.2 = (row :: rows) ++ (s.1.rowsAfter s.2).drop 500 := by
        rw [← hbatch, List.take_append_drop]
      have hpath := drains_batch hl sha hs hsplit
      obtain ⟨ps, hacc⟩ := drains_account hpath hs
      obtain ⟨later, hlater, hdone⟩ := ih _ hacc.inDrain
      refine ⟨_, hpath.append hlater, fun hfuel => hdone ?_⟩
      have hlen := hacc.backlog
      rw [List.length_cons] at hlen
      omega

/-- A bus that no call is running on. -/
structure Idle (b : Bus α) : Prop where
  log : Log b
  notifying : b.notifyingSubscribers = false
  draining : b.drainingNotifyRows = false
  watermark : b.watermark ≤ b.maxSeq

lemma drainLoop_handled {l : Level α} (hl : Delivers l) (sha : String → String) {b : Bus α}
    (hb : InDrain b) {c : ℕ} (hle : b.watermark ≤ c) (hc : c ≤ b.maxSeq) :
    let t := drainLoop sha l (backlog (b, c)) (b, c)
    ∃ ps, Handled b (b.rowsAfter c ++ b.nextRows ps) ps t.1 ∧ InDrain t.1 ∧
      (b.rowsAfter c = [] → ps = []) ∧ b.watermark ≤ t.1.watermark ∧
      t.1.watermark ≤ t.1.maxSeq ∧
      (b.watermark = c ∨ b.rowsAfter c ≠ [] → ∀ r ∈ t.1.rows, r.seq ≤ t.1.watermark) := by
  intro t
  obtain ⟨rows, hpath, hdone⟩ := drainLoop_drains hl sha (backlog (b, c)) (b, c) hb
  have hend : t.1.rowsAfter t.2 = [] := hdone (Nat.le_refl _)
  have hpast : ∀ r ∈ t.1.rows, r.seq ≤ t.2 := by
    intro r hr
    have hnot := List.filter_eq_nil_iff.mp hend r hr
    simpa using hnot
  cases rows with
  | nil =>
    have ht : (b, c) = t := Path.nil_iff.mp hpath
    rw [← ht] at hend hpast ⊢
    refine ⟨[], ?_, hb, fun _ => rfl, Nat.le_refl _, Nat.le_trans hle hc, ?_⟩
    · rw [nextRows_nil, List.append_nil, hend]
      exact .refl b
    · rintro (h | h)
      · exact fun r hr => h ▸ hpast r hr
      · exact absurd hend h
  | cons row rows =>
    obtain ⟨ps, hacc⟩ := drains_account hpath hb
    have horder := hacc.order
    have hwm : t.1.watermark = t.2 := hacc.cursor (.inr ⟨hle, List.cons_ne_nil _ _⟩)
    have hbound : t.2 ≤ t.1.maxSeq := hacc.bound hc
    rw [hend, List.append_nil] at horder
    obtain ⟨u, ⟨⟨rest, hfirst⟩, _⟩, _⟩ := Path.cons_iff.mp hpath
    refine ⟨ps, horder ▸ hacc.handled, hacc.inDrain, fun h => ?_, ?_, hwm ▸ hbound, fun _ => ?_⟩
    · rw [h] at hfirst
      cases hfirst
    · have hmem : row ∈ b.rowsAfter c := hfirst ▸ List.mem_cons_self
      obtain ⟨hin, hlt⟩ := List.mem_filter.mp hmem
      have hlt : c < row.seq := by simpa using hlt
      have hmem' : row ∈ t.1.rows := by
        rw [hacc.handled.log_eq]
        exact List.mem_append_left _ hin
      have hseq := hpast row hmem'
      omega
    · exact hwm ▸ hpast

lemma Handled.undrain {b t : Bus α} {rows : List (EventRow α)} {ps : List (Payload α)}
    (hb : b.drainingNotifyRows = false)
    (h : Handled { b with drainingNotifyRows := true } rows ps t) :
    Handled b rows ps { t with drainingNotifyRows := false } where
  subscribers := h.subscribers
  notifying := h.notifying
  draining := hb.symm
  log_eq := h.log_eq
  sequence := h.sequence
  calls := h.calls
  reactions := h.reactions
  stored := h.stored
  reports := h.reports

/-- **A drain of an idle bus** handles what is behind the cursor and what comes meanwhile, and
leaves nothing behind the watermark if it handled anything. -/
theorem drainWith_handled {l : Level α} (hl : Delivers l) (sha : String → String) {b : Bus α}
    (hb : Idle b) {c : ℕ} (hle : b.watermark ≤ c) (hc : c ≤ b.maxSeq) :
    ∃ ps, Handled b (b.rowsAfter c ++ b.nextRows ps) ps (drainWith sha l b c) ∧
      Idle (drainWith sha l b c) ∧ (b.rowsAfter c = [] → ps = []) ∧
      b.watermark ≤ (drainWith sha l b c).watermark ∧
      (b.watermark = c ∨ b.rowsAfter c ≠ [] →
        ∀ r ∈ (drainWith sha l b c).rows, r.seq ≤ (drainWith sha l b c).watermark) := by
  have hin : InDrain { b with drainingNotifyRows := true } :=
    ⟨hb.log.congr rfl rfl, hb.notifying, rfl⟩
  obtain ⟨ps, hh, hend, hnone, hmono, hmax, hall⟩ := drainLoop_handled hl sha hin hle hc
  have hfree : ¬ (b.drainingNotifyRows || b.notifyingSubscribers) = true := by
    rw [hb.draining, hb.notifying]
    decide
  rw [drainWith, if_neg hfree]
  exact ⟨ps, hh.undrain hb.draining, ⟨hend.log.congr rfl rfl, hend.notifying, rfl, hmax⟩, hnone,
    hmono, hall⟩

lemma Idle.handle {b : Bus α} (h : Idle b) (sha : String → String) {row : EventRow α}
    (hrow : row ∈ b.rows) : Idle (b.handle sha row) := by
  have hh := handled_handle sha b row
  refine ⟨hh.log h.log, hh.notifying.trans h.notifying, hh.draining.trans h.draining, ?_⟩
  have hmax := hh.maxSeq_le
  have hseq := le_maxSeq hrow
  have hwm := h.watermark
  obtain ⟨seq, payload⟩ := row
  cases payload with
  | event e =>
    simp only [Bus.handle] at hmax hseq ⊢
    omega
  | corrupt text error =>
    simp only [Bus.handle] at hmax hseq ⊢
    omega

/-- **A direct notification of an idle bus** hands its row over, then everything stored
meanwhile. -/
theorem notify_handled (sha : String → String) (d : ℕ) {b : Bus α} (hb : Idle b)
    {row : EventRow α} (hrow : row ∈ b.rows) (hwf : row.wellFormed = true) :
    let t := (level sha (d + 3)).notify b row
    ∃ ps, Handled b (row :: b.nextRows ps) ps t ∧ Idle t ∧
      ((b.reactions.take b.subscribers.length).flatMap Reaction.stored = [] → ps = []) ∧
      b.watermark ≤ t.watermark ∧ row.seq ≤ t.watermark ∧
      ∀ r ∈ b.nextRows ps, r.seq ≤ t.watermark := by
  intro t
  have hmid := hb.handle sha hrow
  have ht : t = drainWith sha (level sha (d + 1)) (b.handle sha row) b.maxSeq := by
    have hstep := notifyWith_eq (quiet_level sha (d + 2)) hb.notifying hwf sha
    rw [if_neg (by rw [hb.draining]; decide)] at hstep
    exact hstep
  have hfirst := handled_handle sha b row
  have hpending := hb.log.rowsAfter_nextRows hfirst.log_eq
  have hwm : (b.handle sha row).watermark = max b.watermark row.seq := by
    obtain ⟨seq, payload⟩ := row
    cases payload with
    | event e => rfl
    | corrupt text error => simp [EventRow.wellFormed, Payload.wellFormed] at hwf
  have hle : (b.handle sha row).watermark ≤ b.maxSeq := by
    rw [hwm]
    exact Nat.max_le.mpr ⟨hb.watermark, le_maxSeq hrow⟩
  obtain ⟨ps, hh, hidle, hnone, hmono, hall⟩ :=
    drainWith_handled (delivers_level sha d) sha hmid hle hfirst.maxSeq_le
  have hnext : b.nextRows (b.aftermath sha row) ++ (b.handle sha row).nextRows ps =
      b.nextRows (b.aftermath sha row ++ ps) := hfirst.persistAll_rows ps
  rw [← ht] at hh hidle hmono hall
  rw [hpending, hnext] at hh
  rw [hpending] at hnone hall
  refine ⟨b.aftermath sha row ++ ps, hfirst.trans hh, hidle, ?_, ?_, ?_, ?_⟩
  · intro hquiet
    have hafter : b.aftermath sha row = [] := by
      obtain ⟨seq, payload⟩ := row
      cases payload with
      | event e => exact hquiet
      | corrupt text error => simp [EventRow.wellFormed, Payload.wellFormed] at hwf
    rw [hafter, nextRows_nil] at hnone
    rw [hafter, hnone rfl, List.append_nil]
  · omega
  · omega
  · intro r hr
    by_cases hpend : b.nextRows (b.aftermath sha row) = []
    · have hps : b.aftermath sha row ++ ps = [] := by
        have hlen := congrArg List.length hpend
        rw [length_nextRows, List.length_nil] at hlen
        rw [List.length_eq_zero_iff.mp hlen, hnone hpend, List.append_nil]
      rw [hps] at hr
      simp at hr
    · refine hall (.inr hpend) r ?_
      rw [hh.log_eq, hfirst.log_eq, List.append_assoc, hnext]
      exact List.mem_append_right _ hr

/-! ### A transaction -/

lemma wellFormed_of_mem_nextRows {b : Bus α} {ps : List (Payload α)} {r : EventRow α}
    (h : r ∈ b.nextRows ps) : r.payload ∈ ps := by
  rw [← map_payload_nextRows b ps]
  exact List.mem_map_of_mem h

lemma stored_nil_of_handled {b t : Bus α} {row : EventRow α} {ps : List (Payload α)}
    (h : Handled b (row :: b.nextRows ps) ps t) (hwf : row.wellFormed = true)
    (hnone : (b.nextRows ps).filter EventRow.wellFormed = []) : ps = [] := by
  have hcorrupt : ∀ r ∈ b.nextRows ps, r.wellFormed = false := by
    intro r hr
    simpa using List.filter_eq_nil_iff.mp hnone r hr
  have hreports : ps.filterMap Payload.reported = [] := by
    refine List.filterMap_eq_nil_iff.mpr fun p hp => ?_
    rw [← map_payload_nextRows b ps] at hp
    obtain ⟨r, hr, rfl⟩ := List.mem_map.mp hp
    have hr' := hcorrupt r hr
    obtain ⟨seq, payload⟩ := r
    cases payload with
    | event e => simp [EventRow.wellFormed, Payload.wellFormed] at hr'
    | corrupt text error => rfl
  have hall : (b.nextRows ps).filter (fun r => !r.wellFormed) = b.nextRows ps := by
    refine List.filter_eq_self.mpr fun r hr => ?_
    rw [hcorrupt r hr]
    rfl
  have hacc := h.reports
  rw [hreports, List.filter_cons_of_neg (by simp [hwf]), hall] at hacc
  have hlen := congrArg List.length hacc
  rw [List.length_nil, List.length_map, length_nextRows] at hlen
  exact List.length_eq_zero_iff.mp hlen.symm

/-- **A transaction's notifications** hand over its rows and everything stored meanwhile; they do it
in order exactly when the subscribers store nothing before the last row's fan-out. -/
theorem notifyAll_handled (sha : String → String) (d : ℕ) {own : List (EventRow α)} :
    ∀ {b : Bus α}, Idle b → (∀ r ∈ own, r ∈ b.rows ∧ r.wellFormed = true) →
      let t := own.foldl (level sha (d + 3)).notify b
      ∃ handled ps, Handled b handled ps t ∧ Idle t ∧
        handled.Perm (own ++ b.nextRows ps) ∧
        handled.filter (fun r => !r.wellFormed) =
          (b.nextRows ps).filter (fun r => !r.wellFormed) ∧
        b.watermark ≤ t.watermark ∧ (∀ r ∈ own ++ b.nextRows ps, r.seq ≤ t.watermark) ∧
        ((handled.filter EventRow.wellFormed).map EventRow.seq =
            own.map EventRow.seq ++ ((b.nextRows ps).filter EventRow.wellFormed).map EventRow.seq ↔
          (b.reactions.take ((own.length - 1) * b.subscribers.length)).flatMap Reaction.stored =
            []) := by
  induction own with
  | nil =>
    intro b hb _ t
    refine ⟨[], [], .refl b, hb, ?_, rfl, Nat.le_refl _, ?_, ?_⟩
    · exact .refl _
    · intro r hr
      simp at hr
    · simp
  | cons row own ih =>
    intro b hb hown t
    obtain ⟨hin, hwf⟩ := hown row List.mem_cons_self
    obtain ⟨ps₁, hfirst, hidle, hquiet, hmono, hrow, hall⟩ := notify_handled sha d hb hin hwf
    have hmem : ∀ r ∈ own, r ∈ ((level sha (d + 3)).notify b row).rows ∧ r.wellFormed = true := by
      intro r hr
      obtain ⟨hr', hw⟩ := hown r (List.mem_cons_of_mem _ hr)
      refine ⟨?_, hw⟩
      rw [hfirst.log_eq]
      exact List.mem_append_left _ hr'
    obtain ⟨handled, ps₂, hrest, hidle', hperm, hcorr, hmono', hall', horder⟩ := ih hidle hmem
    have hnext := hfirst.persistAll_rows ps₂
    refine ⟨row :: b.nextRows ps₁ ++ handled, ps₁ ++ ps₂, hfirst.trans hrest, hidle', ?_, ?_,
      Nat.le_trans hmono hmono', ?_, ?_⟩
    · rw [← hnext, List.cons_append, List.cons_append]
      refine .cons row ((hperm.append_left _).trans ?_)
      rw [← List.append_assoc, ← List.append_assoc]
      exact .append_right _ List.perm_append_comm
    · rw [← hnext, List.filter_append, List.filter_append, hcorr,
        List.filter_cons_of_neg (by simp [hwf])]
    · intro r hr
      rw [← hnext] at hr
      simp only [List.cons_append, List.mem_cons, List.mem_append] at hr
      rcases hr with rfl | hr | hr | hr
      · exact Nat.le_trans hrow hmono'
      · exact hall' r (List.mem_append_left _ hr)
      · exact Nat.le_trans (hall r hr) hmono'
      · exact hall' r (List.mem_append_right _ hr)
    · have hfilter : (row :: b.nextRows ps₁ ++ handled).filter EventRow.wellFormed =
          row :: ((b.nextRows ps₁).filter EventRow.wellFormed ++
            handled.filter EventRow.wellFormed) := by
        rw [List.cons_append, List.filter_cons_of_pos hwf, List.filter_append]
      rw [hfilter, ← hnext, List.filter_append, List.map_cons, List.map_cons, List.map_append,
        List.map_append, List.cons_append]
      cases own with
      | nil =>
        -- the last row: what it brings comes after it
        have hlast := horder.mpr (by simp)
        rw [hlast]
        simp
      | cons r own =>
        have hcalls : b.callsFor [row] = b.subscribers.length := by
          rw [callsFor, List.filter_cons_of_pos hwf]
          exact Nat.one_mul _
        have hcount : ((row :: r :: own).length - 1) * b.subscribers.length =
            b.subscribers.length + ((r :: own).length - 1) * b.subscribers.length := by
          simp only [List.length_cons, Nat.add_sub_cancel]
          rw [Nat.add_mul, Nat.one_mul, Nat.add_comm]
        rw [hcount, List.take_add, List.flatMap_append, List.append_eq_nil_iff]
        have hlater : ps₁ = [] →
            ((handled.filter EventRow.wellFormed).map EventRow.seq = (r :: own).map EventRow.seq ++
              ((((level sha (d + 3)).notify b row).nextRows ps₂).filter EventRow.wellFormed).map
                EventRow.seq ↔
            ((b.reactions.drop b.subscribers.length).take
              (((r :: own).length - 1) * b.subscribers.length)).flatMap Reaction.stored = []) := by
          intro hnil
          have hreactions := hfirst.reactions
          rw [hnil, nextRows_nil, hcalls] at hreactions
          rw [horder, hreactions, hfirst.subscribers]
        constructor
        · intro heq
          have heq := (List.cons.inj heq).2
          have hnone : (b.nextRows ps₁).filter EventRow.wellFormed = [] := by
            cases hcase : (b.nextRows ps₁).filter EventRow.wellFormed with
            | nil => rfl
            | cons x xs =>
              rw [hcase, List.map_cons, List.map_cons] at heq
              have hseq : x.seq = r.seq := (List.cons.inj heq).1
              have hx : x ∈ b.nextRows ps₁ := (List.mem_filter.mp (hcase ▸ List.mem_cons_self)).1
              have hlo := (seq_of_mem_nextRows hx).1
              have hhi := hb.log.bounded r (hown r (by simp)).1
              omega
          have hnil := stored_nil_of_handled hfirst hwf hnone
          have hstored := hfirst.stored
          rw [hnil, nextRows_nil, hcalls] at hstored
          rw [hnone, List.map_nil, List.nil_append, List.nil_append] at heq
          exact ⟨hstored.symm, (hlater hnil).mp heq⟩
        · rintro ⟨hnow, hthen⟩
          have hnil := hquiet hnow
          rw [(hlater hnil).mpr hthen, hnil, nextRows_nil]
          rfl

end Bus

end OpenRig.EventBus
