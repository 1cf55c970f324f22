import OpenRig.ParkTimers

/-!
What staging a wake leaves in the outbox.

A staging writes the entry under its own id. It may retire older reminders about the same row,
and nothing else: `Stages` says so. The wake of a row a close returns to its owner has an id of
its own, made of the transition that returned the row, and a propagation keeps track of them in
`Wakes`.
-/

namespace OpenRig.WakeIntents

open OpenRig.JsText OpenRig.Sessions OpenRig.Closure OpenRig.QueueDb OpenRig.Outbox
open OpenRig.Watchdogs OpenRig.Verbs OpenRig.Handoff OpenRig.Runs OpenRig.Propagation

/-! ### One staging -/

/-- What the entry under an id is about. -/
def pointerAt (o : Entries) (id : String) : Option (Option String) :=
  (o.get? id).map OutboxEntry.auditPointer

/-- A write of the entry under `id`, about `p`: entries about anything else stay as they are, and
none goes away or changes what it is about. -/
structure Stages (o o' : Entries) (id p : String) : Prop where
  others : ∀ k, k ≠ id → pointerAt o k ≠ some (some p) → o'.get? k = o.get? k
  pointers : ∀ k, k ≠ id ∨ (o.get? k).isSome → pointerAt o' k = pointerAt o k
  own : o.get? id = none → ∀ e, o'.get? id = some e → e.auditPointer = some p

namespace Stages

variable {o o' : Entries} {id p : String}

lemma refl (o : Entries) (id p : String) : Stages o o id p where
  others _ _ _ := rfl
  pointers _ _ := rfl
  own hn e he := by
    rw [hn] at he
    cases he

lemma get?_eq (h : Stages o o' id p) {k : String} {e : OutboxEntry} (hk : k ≠ id)
    (he : o.get? k = some e) (hp : e.auditPointer ≠ some p) : o'.get? k = some e := by
  rw [h.others k hk, he]
  simpa [pointerAt, he] using hp

lemma get?_of (h : Stages o o' id p) {k : String} {e : OutboxEntry} (hk : k ≠ id)
    (he : o'.get? k = some e) : ∃ e', o.get? k = some e' ∧ e'.auditPointer = e.auditPointer := by
  have hp := h.pointers k (.inl hk)
  rw [pointerAt, pointerAt, he, Option.map_some] at hp
  exact Option.map_eq_some_iff.mp hp.symm

lemma isSome (h : Stages o o' id p) {k : String} (hk : (o.get? k).isSome) :
    (o'.get? k).isSome := by
  have hp := congrArg Option.isSome (h.pointers k (.inr hk))
  simp only [pointerAt, Option.isSome_map] at hp
  exact hp.trans hk

end Stages

lemma get?_record (now : Time) (o : Entries) (input : OutboxRecordInput) (k : String) :
    (k ≠ input.outboxId ∨ (o.get? k).isSome → (record now o input).get? k = o.get? k) ∧
      (o.get? input.outboxId = none → ∃ e, (record now o input).get? input.outboxId = some e ∧
        e.auditPointer = input.auditPointer ∧ e.destinationSession = input.destinationSession ∧
        e.tags = input.tags ∧ e.deliveryState = .pending) := by
  unfold record
  cases hi : o.insert? _ with
  | none =>
    have hs := Table.insert?_eq_none.mp hi
    refine ⟨fun _ => rfl, fun hn => ?_⟩
    rw [hn] at hs
    cases hs
  | some o' =>
    rw [Option.getD_some]
    have hfresh := (Table.insert?_eq_some hi).1
    refine ⟨fun hk => ?_, fun _ => ?_⟩
    · rw [Table.get?_insert? hi]
      refine if_neg ?_
      rintro rfl
      rcases hk with hk | hk
      · exact hk rfl
      · rw [hfresh] at hk
        cases hk
    · rw [Table.get?_insert? hi, if_pos rfl]
      exact ⟨_, rfl, rfl, rfl, rfl, rfl⟩

/-- A fresh wake kept in the outbox: pending, or held for its seat. -/
structure Kept (e : OutboxEntry) (destination p : String) (tags : Option (List String)) : Prop where
  pointer : e.auditPointer = some p
  destination : e.destinationSession = destination
  tags : e.tags = tags
  state : e.deliveryState = .pending ∨ e.deliveryState = .retained

lemma get?_rewrite_own {o : Entries} {id : String} (q : OutboxEntry → Bool)
    {f : OutboxEntry → OutboxEntry} {hf : ∀ e, (f e).outboxId = e.outboxId}
    (hq : ∀ e, q e = true → e.outboxId = id) {k : String} (hk : k ≠ id) :
    (o.updateWhere q f hf).get? k = o.get? k := by
  rw [Table.get?_updateWhere]
  cases he : o.get? k with
  | none => rfl
  | some e =>
    have hkey := Table.get?_key he
    have hn : ¬ q e = true := fun h => hk (hkey.symm.trans (hq e h))
    simp [Table.rewrite, hn]

lemma pointerAt_updateWhere {o : Entries} (q : OutboxEntry → Bool) {f : OutboxEntry → OutboxEntry}
    {hf : ∀ e, (f e).outboxId = e.outboxId} (hp : ∀ e, (f e).auditPointer = e.auditPointer)
    (k : String) :
    pointerAt (o.updateWhere q f hf) k = pointerAt o k := by
  unfold pointerAt
  rw [Table.get?_updateWhere, Option.map_map]
  congr 1
  funext e
  simp only [Function.comp_apply, Table.rewrite]
  split
  · exact hp e
  · rfl

lemma get?_rewrite_about {o : Entries} {p : String} (q : OutboxEntry → Bool)
    {f : OutboxEntry → OutboxEntry} {hf : ∀ e, (f e).outboxId = e.outboxId}
    (hq : ∀ e, q e = true → e.auditPointer = some p)
    {k : String} (hk : pointerAt o k ≠ some (some p)) :
    (o.updateWhere q f hf).get? k = o.get? k := by
  rw [Table.get?_updateWhere]
  cases he : o.get? k with
  | none => rfl
  | some e =>
    have hn : ¬ q e = true := fun h => hk (by rw [pointerAt, he, Option.map_some, hq e h])
    simp [Table.rewrite, hn]

/-- The write that marks an entry held. -/
def hold (binding : GuardBinding) (e : OutboxEntry) : OutboxEntry :=
  { e with deliveryState := .retained, guardBinding := some binding, deliveredAt := none }

lemma hold_id (binding : GuardBinding) (e : OutboxEntry) :
    (hold binding e).outboxId = e.outboxId := rfl

/-- The entries such a write is for. -/
def undelivered (id : String) (e : OutboxEntry) : Bool :=
  e.outboxId = id && (e.deliveryState = .pending || e.deliveryState = .sending)

lemma undelivered_id {id : String} {e : OutboxEntry} (h : undelivered id e = true) :
    e.outboxId = id := by
  simp only [undelivered, Bool.and_eq_true, decide_eq_true_eq] at h
  exact h.1

lemma get?_hold {o : Entries} {id : String} {e : OutboxEntry} (binding : GuardBinding)
    (he : o.get? id = some e) (hs : e.deliveryState = .pending) :
    (o.updateWhere (undelivered id) (hold binding) (hold_id binding)).get? id = some
      (hold binding e) := by
  rw [Table.get?_updateWhere, he]
  simp [Table.rewrite, undelivered, Table.get?_key he, hs]

lemma stages_hold (o : Entries) (id p : String) (binding : GuardBinding)
    (h : (o.get? id).isSome) :
    Stages o (o.updateWhere (undelivered id) (hold binding) (hold_id binding)) id p where
  others k hk _ := get?_rewrite_own _ (fun _ => undelivered_id) hk
  pointers k _ := pointerAt_updateWhere _ (by intro _; rfl) k
  own hn := by
    rw [hn] at h
    cases h

lemma stages_record {now : Time} {o o₁ : Entries} {input : OutboxRecordInput} {p : String}
    (hp : input.auditPointer = some p)
    (hother : ∀ k, pointerAt o k ≠ some (some p) → o₁.get? k = o.get? k)
    (hptr : ∀ k, pointerAt o₁ k = pointerAt o k) :
    Stages o (record now o₁ input) input.outboxId p where
  others k hk hpk := ((get?_record now o₁ input k).1 (.inl hk)).trans (hother k hpk)
  pointers k hk := by
    have hsome : (o₁.get? k).isSome = (o.get? k).isSome := by
      have := congrArg Option.isSome (hptr k)
      simpa [pointerAt] using this
    unfold pointerAt
    rw [(get?_record now o₁ input k).1 (hk.imp_right fun h => hsome.trans h)]
    exact hptr k
  own hn e he := by
    have hn₁ : o₁.get? input.outboxId = none := by
      have := hptr input.outboxId
      rw [pointerAt, pointerAt, hn] at this
      simpa using this
    obtain ⟨e', he', hp', -⟩ := (get?_record now o₁ input input.outboxId).2 hn₁
    cases he'.symm.trans he
    exact hp'.trans hp

lemma Stages.trans {o o' o'' : Entries} {id p : String} (h : Stages o o' id p)
    (h' : Stages o' o'' id p) (hs : (o'.get? id).isSome) : Stages o o'' id p where
  others k hk hp := by
    refine (h'.others k hk ?_).trans (h.others k hk hp)
    rwa [h.pointers k (.inl hk)]
  pointers k hk := by
    rw [h'.pointers k ?_, h.pointers k hk]
    by_cases he : k = id
    · exact .inr (he ▸ hs)
    · exact .inl he
  own hn e he := by
    obtain ⟨e', he'⟩ := Option.isSome_iff_exists.mp hs
    have hp := h'.pointers id (.inr hs)
    rw [pointerAt, pointerAt, he, he'] at hp
    have hp : e.auditPointer = e'.auditPointer := by simpa using hp
    exact hp.trans (h.own hn e' he')

lemma retain_eq_ok {now : Time} {o o' : Entries} {input : OutboxRecordInput} {p : String}
    {binding : GuardBinding} (hp : input.auditPointer = some p)
    (h : retain now o input binding false = .ok o') :
    Stages o o' input.outboxId p ∧ (o.get? input.outboxId = none →
      ∃ e, o'.get? input.outboxId = some e ∧ Kept e input.destinationSession p input.tags) := by
  unfold retain at h
  cases he : o.get? input.outboxId with
  | some e =>
    simp only [he, Option.isNone_some, Bool.false_and, Bool.false_eq_true, if_false] at h
    refine ⟨?_, fun hn => by cases hn⟩
    split at h
    · simp [refuse, bind, Except.bind] at h
    · split at h
      · cases pure_eq_ok.mp h
        exact .refl _ _ _
      · split at h
        · simp [refuse, bind, Except.bind] at h
        · obtain ⟨-, -, h⟩ := bind_eq_ok.mp h
          cases pure_eq_ok.mp h
          exact stages_hold o input.outboxId p binding (by simp [he])
  | none =>
    simp only [he, Option.isNone_none, Bool.not_false, Bool.and_true, Bool.true_and,
      if_true, Bool.false_eq_true, if_false] at h
    obtain ⟨-, -, h⟩ := bind_eq_ok.mp h
    cases pure_eq_ok.mp h
    generalize ho₁ : (if input.senderSession = watchdogSender && truthy input.auditPointer then
      o.updateWhere (supersededReminder input binding) fun e =>
        { e with
          deliveryState := .retired, retiredAt := some now, retiredBy := some watchdogSender,
          retirementReason := some "superseded by a newer reminder from the same watchdog job" }
      else o) = o₁
    have hother : ∀ k, pointerAt o k ≠ some (some p) → o₁.get? k = o.get? k := by
      intro k hk
      rw [← ho₁]
      split
      · refine get?_rewrite_about _ (fun e h => ?_) hk
        simp only [supersededReminder, Bool.and_eq_true, decide_eq_true_eq] at h
        exact h.1.2.trans hp
      · rfl
    have hptr : ∀ k, pointerAt o₁ k = pointerAt o k := by
      intro k
      rw [← ho₁]
      split
      · exact pointerAt_updateWhere _ (by intro _; rfl) k
      · rfl
    have hn₁ : o₁.get? input.outboxId = none :=
      (hother _ (by simp [pointerAt, he])).trans he
    obtain ⟨e, hrec, hep, hed, het, hes⟩ := (get?_record now o₁ input input.outboxId).2 hn₁
    have hs : ((record now o₁ input).get? input.outboxId).isSome := by simp [hrec]
    refine ⟨(stages_record hp hother hptr).trans (stages_hold _ _ _ binding hs) hs, fun _ => ?_⟩
    exact ⟨hold binding e, get?_hold binding hrec hes, hep.trans hp, hed, het, .inr rfl⟩

lemma stages_bind (o : Entries) (id p : String) (q : OutboxEntry → Bool)
    (f : OutboxEntry → OutboxEntry) (hf : ∀ e, (f e).outboxId = e.outboxId)
    (hp : ∀ e, (f e).auditPointer = e.auditPointer) (hq : ∀ e, q e = true → e.outboxId = id)
    (h : (o.get? id).isSome) : Stages o (o.updateWhere q f hf) id p where
  others k hk _ := get?_rewrite_own q hq hk
  pointers k _ := pointerAt_updateWhere q hp k
  own hn := by
    rw [hn] at h
    cases h

lemma outboxId_bound (b : GuardBinding) (e : OutboxEntry) :
    OutboxEntry.outboxId { e with guardBinding := some b } = e.outboxId := rfl

/-- A fresh wake, with the seat it is for when the transport names one. -/
def recordBound (now : Time) (o : Entries) (entry : OutboxRecordInput)
    (binding : Option GuardBinding) : Entries :=
  match binding with
  | some b => (record now o entry).updateWhere
      (fun e => e.outboxId = entry.outboxId && e.guardBinding.isNone)
      (fun e => { e with guardBinding := some b }) (outboxId_bound b)
  | none => record now o entry

lemma recordBound_spec (now : Time) (o : Entries) {entry : OutboxRecordInput} {p : String}
    (binding : Option GuardBinding) (hp : entry.auditPointer = some p) :
    Stages o (recordBound now o entry binding) entry.outboxId p ∧
      (o.get? entry.outboxId = none → ∃ e,
        (recordBound now o entry binding).get? entry.outboxId = some e ∧
          Kept e entry.destinationSession p entry.tags) := by
  have hrec : Stages o (record now o entry) entry.outboxId p :=
    stages_record hp (fun k _ => rfl) fun k => rfl
  obtain ⟨hold, hnew⟩ := get?_record now o entry entry.outboxId
  have hs : ((record now o entry).get? entry.outboxId).isSome := by
    cases hn : o.get? entry.outboxId with
    | none =>
      obtain ⟨e, he, -⟩ := hnew hn
      simp [he]
    | some e =>
      rw [hold (.inr (by simp [hn])), hn]
      rfl
  unfold recordBound
  cases binding with
  | none =>
    refine ⟨hrec, fun hn => ?_⟩
    obtain ⟨e, he, hep, hed, het, hes⟩ := hnew hn
    exact ⟨e, he, hep.trans hp, hed, het, .inl hes⟩
  | some b =>
    dsimp only
    refine ⟨hrec.trans (stages_bind _ _ _ _ _ _ (fun _ => rfl) (fun e he => ?_) hs) hs,
      fun hn => ?_⟩
    · simp only [Bool.and_eq_true, decide_eq_true_eq] at he
      exact he.1
    · obtain ⟨e, he, hep, hed, het, hes⟩ := hnew hn
      rw [Table.get?_updateWhere, he, Option.map_some]
      refine ⟨_, rfl, ?_⟩
      unfold Table.rewrite
      split
      · exact ⟨hep.trans hp, hed, het, .inl hes⟩
      · exact ⟨hep.trans hp, hed, het, .inl hes⟩

/-- **One staging**: the outbox alone is written, and a wake under a free id is kept there, unless
no store is attached. -/
theorem recordWakeIntent_eq_ok {env : Env} {db db' : Db} {input : WakeIntentInput}
    (h : recordWakeIntent env db input = .ok db') :
    Stages db.outbox db'.outbox input.outboxId input.auditPointer ∧
      (env.outboxAttached = false → db'.outbox = db.outbox) ∧
      (env.outboxAttached = true → db.outbox.get? input.outboxId = none →
        ∃ e, db'.outbox.get? input.outboxId = some e ∧
          Kept e input.toSession input.auditPointer input.tags) := by
  unfold recordWakeIntent at h
  split at h
  · rename_i hoff
    cases pure_eq_ok.mp h
    simp only [Bool.not_eq_true'] at hoff
    exact ⟨.refl _ _ _, fun _ => rfl, fun hon => by simp [hoff] at hon⟩
  · rename_i hon
    simp only [Bool.not_eq_true', Bool.not_eq_false] at hon
    simp only at h
    split at h
    · obtain ⟨o, hret, ho⟩ := bind_eq_ok.mp h
      cases pure_eq_ok.mp ho
      obtain ⟨hst, hkept⟩ := retain_eq_ok rfl hret
      exact ⟨hst, fun hoff => by simp [hon] at hoff, fun _ hn => hkept hn⟩
    · obtain ⟨entry, hid, hp, hd, ht, hdb⟩ : ∃ entry : OutboxRecordInput,
          entry.outboxId = input.outboxId ∧ entry.auditPointer = some input.auditPointer ∧
          entry.destinationSession = input.toSession ∧ entry.tags = input.tags ∧
          db'.outbox = recordBound env.now db.outbox entry
            (env.deliveryTarget input.toSession) := by
        split at h
        · obtain ⟨-, -, h⟩ := bind_eq_ok.mp h
          cases pure_eq_ok.mp h
          exact ⟨_, rfl, rfl, rfl, rfl, rfl⟩
        · cases pure_eq_ok.mp h
          exact ⟨_, rfl, rfl, rfl, rfl, rfl⟩
      obtain ⟨hst, hkept⟩ := recordBound_spec env.now db.outbox
        (env.deliveryTarget input.toSession) hp
      rw [hid, ← hdb] at hst hkept
      rw [hd, ht] at hkept
      exact ⟨hst, fun hoff => by simp [hon] at hoff, fun _ hn => hkept hn⟩

end OpenRig.WakeIntents
