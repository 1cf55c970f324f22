import OpenRig.Closure
import OpenRig.Runs

/-!
The life of one queue item, apart from how the verbs store it.

A life is the row's state, its blocker, its closure fields, its chain of record and the log of
its transitions. `Step` lists every write a life admits, with the condition the queue checks
before it; the verbs refine it in `RowEffects`. What the queue promises about single rows is
proved here, write by write.
-/

namespace OpenRig.Lifecycle

open OpenRig.JsText OpenRig.Closure OpenRig.Runs

structure Mark where
  state : QueueState
  closureReason : Option ClosureReason
  closureTarget : Option String
  note : Option String
  deriving DecidableEq

/-- One row and its log, newest first. -/
structure Life where
  state : QueueState
  blockedOn : Option String
  closureReason : Option ClosureReason
  closureTarget : Option String
  chain : List String
  history : List Mark
  deriving DecidableEq

/-- What a state write of `update` asks for. -/
structure Move where
  state : QueueState
  closureReason : Option ClosureReason
  closureTarget : Option String
  blockedOn : Option String
  note : Option String
  reopen : Bool

def reopenAcknowledged (note : String) : String := "reopen acknowledged: " ++ note

/-- The states and reasons that may stand together on a row with closure fields. -/
def admittedPair (state : QueueState) (reason : Option ClosureReason) : Prop :=
  match state, reason with
  | .done, some r => r ≠ .blockedOn
  | .blocked, some .blockedOn => True
  | .handedOff, some .handedOffTo => True
  | .canceled, some .superseded => True
  | _, _ => False

namespace Life

/-- The row after a move: closure fields the request leaves out keep their old value. -/
def moved (l : Life) (m : Move) : Life :=
  { l with
    state := m.state
    blockedOn := if m.state = .blocked then m.blockedOn else none
    closureReason := m.closureReason <|> l.closureReason
    closureTarget := m.closureTarget <|> l.closureTarget
    history := ⟨m.state, m.closureReason, m.closureTarget, m.note⟩ :: l.history }

/-- No closure field is set. -/
def clean (l : Life) : Prop := l.closureReason = none ∧ l.closureTarget = none

/-- The log ends in the row's state. -/
def logged (l : Life) : Prop := l.history.head?.map Mark.state = some l.state

/-- The first transition of the trailing run in state `s`. -/
def closing (s : QueueState) (history : List Mark) : Option Mark :=
  (history.takeWhile (·.state = s)).getLast?

/-- A blocker is named only while the row is parked. -/
def blockedWhileParked (l : Life) : Prop := l.blockedOn ≠ none → l.state = .blocked

/-- Closure fields stand beside an admitted state, and those of a done row are the ones its
close supplied. -/
structure Described (l : Life) : Prop where
  pair : l.closureReason.isSome ∨ l.closureTarget.isSome → admittedPair l.state l.closureReason
  supplied : l.state = .done → ∃ m, closing .done l.history = some m ∧
    m.closureReason = l.closureReason ∧ m.closureTarget = l.closureTarget

end Life

/-- What `update` checks before a move. -/
structure Admitted (l : Life) (m : Move) : Prop where
  /-- A guarded row is left only deliberately. -/
  reopening : l.state.isGuardedTerminal = true → m.state ≠ l.state ∧ m.reopen = true ∧
    m.state.isBlockerLive = true ∧
    ∃ text, isBlank text = false ∧ m.note = some (reopenAcknowledged text)
  /-- Closure fields come with an admitted pair. -/
  fields : m.closureReason.isSome ∨ m.closureTarget.isSome → admittedPair m.state m.closureReason
  /-- A done close says why. -/
  why : m.state = .done → m.closureReason.isSome

inductive RowWrite where
  | insert (chain : List String)
  | claim
  | release
  | note
  | reroute (line : String)
  | close (terminal : QueueState) (target : String)
  | move (m : Move)
  | rebind (successor : String)
  | unpark

/-- **The life cycle**: every write of a row, with what the queue checked before it. -/
inductive Step : Option Life → RowWrite → Option Life → Prop
  | insert {chain : List String} {n : Option String} {h : List Mark} :
    Step none (.insert chain)
      (some ⟨.pending, none, none, none, chain, ⟨.pending, none, none, n⟩ :: h⟩)
  | claim {l : Life} {t n : Option String} (h : l.state = .pending ∨ l.state = .blocked) :
    Step (some l) .claim (some { l with
      state := .inProgress, blockedOn := none, history := ⟨.inProgress, none, t, n⟩ :: l.history })
  | release {l : Life} {n : Option String} (h : l.state = .inProgress) :
    Step (some l) .release (some { l with
      state := .pending, history := ⟨.pending, none, none, n⟩ :: l.history })
  | note {l : Life} {t n : Option String} :
    Step (some l) .note (some { l with history := ⟨l.state, none, t, n⟩ :: l.history })
  | reroute {l : Life} {t n : Option String} {line : String} :
    Step (some l) (.reroute line) (some { l with
      chain := l.chain ++ [line], history := ⟨l.state, none, t, n⟩ :: l.history })
  | close {l : Life} {terminal : QueueState} {target : String} {n : Option String}
      (hopen : l.state.isTerminalState = false) (hterm : terminal.isTerminalState = true) :
    Step (some l) (.close terminal target) (some { l with
      state := terminal, closureReason := some .handedOffTo, closureTarget := some target,
      history := ⟨terminal, some .handedOffTo, some target, n⟩ :: l.history })
  | move {l : Life} {m : Move} (h : Admitted l m) : Step (some l) (.move m) (some (l.moved m))
  | rebind {l : Life} {s : String} {n : Option String} (h : l.state = .blocked) :
    Step (some l) (.rebind s) (some { l with
      blockedOn := some s, history := ⟨.blocked, none, none, n⟩ :: l.history })
  | unpark {l : Life} {n : Option String} (h : l.state = .blocked) :
    Step (some l) .unpark (some { l with
      state := .pending, blockedOn := none, history := ⟨.pending, none, none, n⟩ :: l.history })

/-! ### Rows stay -/

lemma Step.isSome {v v' : Option Life} {w : RowWrite} (h : Step v w v') : v'.isSome := by
  cases h <;> rfl

lemma Step.chain_prefix {l : Life} {v' : Option Life} {w : RowWrite} (h : Step (some l) w v') :
    ∃ l', v' = some l' ∧ l.chain <+: l'.chain := by
  cases h with
  | reroute => exact ⟨_, rfl, List.prefix_append _ _⟩
  | _ => exact ⟨_, rfl, List.prefix_refl _⟩

lemma chain_prefix_of_path {l : Life} {v' : Option Life} {ws : List RowWrite}
    (h : Path Step (some l) ws v') : ∃ l', v' = some l' ∧ l.chain <+: l'.chain := by
  refine h.invariant (I := fun v => ∃ l', v = some l' ∧ l.chain <+: l'.chain) ?_
    ⟨l, rfl, List.prefix_refl _⟩
  rintro _ w t hstep ⟨l₁, rfl, h₁⟩
  obtain ⟨l₂, rfl, h₂⟩ := hstep.chain_prefix
  exact ⟨l₂, rfl, h₁.trans h₂⟩

lemma Step.logged {v v' : Option Life} {w : RowWrite} (h : Step v w v') {l' : Life}
    (hl' : v' = some l') : l'.logged := by
  subst hl'
  cases h with
  | rebind h => simp [Life.logged, h]
  | _ => simp [Life.logged, Life.moved]

/-! ### Guarded rows -/

/-- The move was acknowledged, and its transition says so. -/
structure Reopens (m : Move) (l' : Life) : Prop where
  reopen : m.reopen = true
  active : l'.state.isBlockerLive = true
  target : l'.state = m.state
  logged : ∃ t, l'.history.head? = some t ∧ t.state = l'.state ∧ t.note = m.note

/-- **What can move a guarded row**: a deliberate reopen, or a handoff-family close of a canceled
row, the one closed state that close does not count as terminal. -/
theorem Step.guarded {l l' : Life} {w : RowWrite} (h : Step (some l) w (some l'))
    (hg : l.state.isGuardedTerminal = true) (hne : l'.state ≠ l.state) :
    (∃ m, w = .move m ∧ Reopens m l') ∨
      ∃ terminal target, w = .close terminal target ∧ l.state = .canceled := by
  cases h with
  | claim h => rcases h with h | h <;> simp [h, QueueState.isGuardedTerminal] at hg
  | release h => simp [h, QueueState.isGuardedTerminal] at hg
  | note => exact absurd rfl hne
  | reroute => exact absurd rfl hne
  | close hopen =>
    refine .inr ⟨_, _, rfl, ?_⟩
    revert hg hopen
    cases l.state <;> simp [QueueState.isGuardedTerminal, QueueState.isTerminalState]
  | @move _ m ha =>
    obtain ⟨-, hr, hlive, -⟩ := ha.reopening hg
    exact .inl ⟨m, rfl, hr, hlive, rfl, _, rfl, rfl, rfl⟩
  | rebind h => simp [h, QueueState.isGuardedTerminal] at hg
  | unpark h => simp [h, QueueState.isGuardedTerminal] at hg

/-- A write that is neither a handoff-family close nor a reopening move. -/
def RowWrite.ordinary : RowWrite → Prop
  | .close _ _ => False
  | .move m => m.reopen = false
  | _ => True

lemma guarded_of_ordinary {l : Life} {v' : Option Life} {ws : List RowWrite}
    (h : Path Step (some l) ws v') (hw : ∀ w ∈ ws, w.ordinary)
    (hg : l.state.isGuardedTerminal = true) : ∃ l', v' = some l' ∧ l'.state = l.state := by
  refine h.invariant_of_labels (I := fun v => ∃ l', v = some l' ∧ l'.state = l.state) ?_ hw
    ⟨l, rfl, rfl⟩
  rintro _ w v hord hstep ⟨l₁, rfl, h₁⟩
  obtain ⟨l₂, rfl⟩ := Option.isSome_iff_exists.mp hstep.isSome
  refine ⟨l₂, rfl, ?_⟩
  by_contra hne
  rcases hstep.guarded (h₁ ▸ hg) (fun e => hne (e.trans h₁)) with ⟨m, rfl, hr⟩ | ⟨_, _, rfl, _⟩
  · have hord : m.reopen = false := hord
    simp [hr.reopen] at hord
  · exact hord

/-! ### Leaving the active states -/

/-! ### Blockers -/

/-- **A blocker is named only while parked**, after every write but a handoff-family close of a
row that names one. -/
theorem Step.blockedWhileParked {v v' : Option Life} {w : RowWrite} (h : Step v w v')
    (hb : ∀ l, v = some l → l.blockedWhileParked)
    (hc : ∀ terminal target l, w = .close terminal target → v = some l → l.blockedOn = none) :
    ∀ l', v' = some l' → l'.blockedWhileParked := by
  rintro l' rfl
  cases h with
  | insert => simp [Life.blockedWhileParked]
  | claim => simp [Life.blockedWhileParked]
  | release hs => exact fun hn => by simp [hb _ rfl hn] at hs
  | @note l => exact hb l rfl
  | @reroute l => exact hb l rfl
  | close => exact fun hn => absurd (hc _ _ _ rfl rfl) hn
  | move =>
    intro hn
    by_contra hs
    exact hn (if_neg hs)
  | rebind hs => exact fun _ => hs
  | unpark => simp [Life.blockedWhileParked]

/-! ### Closure fields -/

/-- The writes that leave described closure fields described: a row leaves a state with closure
fields only through a write that brings its own. -/
def RowWrite.keepsDescription (l : Life) : RowWrite → Prop
  | .claim => l.clean
  | .unpark => l.clean
  | .move m => l.clean ∨ (l.state = .blocked ∧ m.state = .blocked) ∨
      (m.closureReason.isSome ∧
        (m.state = .done → m.closureTarget.isSome ∨ l.closureTarget = none))
  | _ => True

lemma Life.described_of_clean {l : Life} (hc : l.clean) (hs : l.state ≠ .done) :
    l.Described where
  pair := by simp [hc.1, hc.2]
  supplied h := absurd h hs

lemma Life.closing_cons {l : Life} (hl : l.logged) (hs : l.state ≠ .done) (m : Mark)
    (hm : m.state = .done) : closing .done (m :: l.history) = some m := by
  obtain ⟨state, blockedOn, reason, target, chain, history⟩ := l
  cases history with
  | nil => simp [closing, hm]
  | cons a rest =>
    have ha : a.state = state := by simpa [Life.logged] using hl
    have hne : a.state ≠ .done := ha ▸ hs
    simp [closing, hm, hne]

lemma Life.closing_stay {history : List Mark} {c : Mark} (m : Mark) (hm : m.state = .done)
    (hc : closing .done history = some c) : closing .done (m :: history) = some c := by
  unfold closing at hc ⊢
  rw [List.takeWhile_cons_of_pos (by simpa using hm), List.getLast?_cons, hc]
  rfl

lemma Life.pair_blocked {l : Life} (hd : l.Described) (hs : l.state = .blocked) :
    l.clean ∨ l.closureReason = some .blockedOn := by
  by_cases h : l.closureReason.isSome ∨ l.closureTarget.isSome
  · right
    have := hd.pair h
    rw [hs] at this
    revert this
    rcases l.closureReason with _ | r
    · simp [admittedPair]
    · cases r <;> simp [admittedPair]
  · left
    simpa [Life.clean] using h

lemma Admitted.ne_done {l : Life} {m : Move} (ha : Admitted l m) (hs : m.state = .done) :
    l.state ≠ .done := by
  intro e
  have hg : l.state.isGuardedTerminal = true := by simp [e, QueueState.isGuardedTerminal]
  exact (ha.reopening hg).1 (hs.trans e.symm)

lemma Life.described_moved_of_supplied {l : Life} {m : Move} (ha : Admitted l m) (hl : l.logged)
    (hr : m.closureReason.isSome)
    (ht : m.state = .done → m.closureTarget.isSome ∨ l.closureTarget = none) :
    (l.moved m).Described where
  pair _ := by
    have := ha.fields (.inl hr)
    obtain ⟨r, hr⟩ := Option.isSome_iff_exists.mp hr
    simpa [moved, hr] using this
  supplied hs := by
    have hs : m.state = .done := hs
    refine ⟨_, Life.closing_cons hl (ha.ne_done hs) _ hs, ?_, ?_⟩
    · obtain ⟨r, hr⟩ := Option.isSome_iff_exists.mp hr
      simp [moved, hr]
    · rcases ht hs with ht | ht
      · obtain ⟨t, ht⟩ := Option.isSome_iff_exists.mp ht
        simp [moved, ht]
      · simp [moved, ht]

lemma Life.described_moved_of_clean {l : Life} {m : Move} (ha : Admitted l m) (hl : l.logged)
    (hc : l.clean) : (l.moved m).Described := by
  by_cases hr : m.closureReason.isSome
  · exact Life.described_moved_of_supplied ha hl hr fun _ => .inr hc.2
  · have hr' : m.closureReason = none := by simpa using hr
    have ht' : m.closureTarget = none := by
      by_contra h
      have := ha.fields (.inr (Option.isSome_iff_ne_none.mpr h))
      rw [hr'] at this
      cases hs : m.state <;> simp [admittedPair, hs] at this
    refine Life.described_of_clean ⟨?_, ?_⟩ fun hs => hr (ha.why hs)
    · simp [moved, hr', hc.1]
    · simp [moved, ht', hc.2]

lemma Life.described_moved_of_park {l : Life} {m : Move} (ha : Admitted l m) (hl : l.logged)
    (hd : l.Described) (hs : l.state = .blocked) (hm : m.state = .blocked) :
    (l.moved m).Described := by
  rcases Life.pair_blocked hd hs with hc | hb
  · exact Life.described_moved_of_clean ha hl hc
  · by_cases hr : m.closureReason.isSome
    · exact Life.described_moved_of_supplied ha hl hr fun h => by simp [hm] at h
    · have hr' : m.closureReason = none := by simpa using hr
      refine ⟨fun _ => ?_, fun h => ?_⟩
      · simp [moved, hm, hr', hb, admittedPair]
      · have : m.state = .done := h
        simp [hm] at this

/-- **Closure fields describe the current state**, after every write that keeps the
description. -/
theorem Step.described {l : Life} {v' : Option Life} {w : RowWrite} (h : Step (some l) w v')
    (hl : l.logged) (hd : l.Described) (hk : w.keepsDescription l) :
    ∃ l', v' = some l' ∧ l'.Described := by
  cases h with
  | claim => exact ⟨_, rfl, Life.described_of_clean hk (by simp)⟩
  | release hs =>
    refine ⟨_, rfl, Life.described_of_clean ?_ (by simp)⟩
    by_contra hc
    have : l.closureReason.isSome ∨ l.closureTarget.isSome := by
      by_contra hn
      exact hc (by simpa [Life.clean] using hn)
    have := hd.pair this
    rw [hs] at this
    exact this
  | note =>
    refine ⟨_, rfl, hd.pair, fun hs => ?_⟩
    obtain ⟨c, hc, h₁, h₂⟩ := hd.supplied hs
    exact ⟨c, Life.closing_stay _ hs hc, h₁, h₂⟩
  | reroute =>
    refine ⟨_, rfl, hd.pair, fun hs => ?_⟩
    obtain ⟨c, hc, h₁, h₂⟩ := hd.supplied hs
    exact ⟨c, Life.closing_stay _ hs hc, h₁, h₂⟩
  | @close _ terminal _ _ hopen hterm =>
    have hpair : admittedPair terminal (some .handedOffTo) := by
      cases terminal <;> simp_all [QueueState.isTerminalState, admittedPair]
    have hne : l.state ≠ .done := by
      intro e
      simp [e, QueueState.isTerminalState] at hopen
    exact ⟨_, rfl, fun _ => hpair, fun hs => ⟨_, Life.closing_cons hl hne _ hs, rfl, rfl⟩⟩
  | move ha =>
    refine ⟨_, rfl, ?_⟩
    rcases hk with hc | ⟨hs, hm⟩ | ⟨hr, ht⟩
    · exact Life.described_moved_of_clean ha hl hc
    · exact Life.described_moved_of_park ha hl hd hs hm
    · exact Life.described_moved_of_supplied ha hl hr ht
  | rebind hs =>
    refine ⟨_, rfl, hd.pair, fun h => ?_⟩
    have h : l.state = .done := h
    simp [hs] at h
  | unpark => exact ⟨_, rfl, Life.described_of_clean hk (by simp)⟩

lemma Step.describes {v v' : Option Life} {w : RowWrite} (h : Step v w v')
    (hv : ∀ l, v = some l → l.logged ∧ l.Described ∧ w.keepsDescription l) :
    ∀ l', v' = some l' → l'.Described := by
  rintro l' rfl
  cases v with
  | none =>
    cases h
    exact Life.described_of_clean ⟨rfl, rfl⟩ (by simp)
  | some l =>
    obtain ⟨hl, hd, hk⟩ := hv l rfl
    obtain ⟨_, he, hd'⟩ := h.described hl hd hk
    cases he
    exact hd'

lemma blocked_of_admittedPair {s : QueueState} (h : admittedPair s (some .blockedOn)) :
    s = .blocked := by
  cases s <;> simp [admittedPair] at h ⊢

lemma admittedPair_unguarded {s : QueueState} {r : Option ClosureReason} (h : admittedPair s r)
    (hs : s.isGuardedTerminal = false) : s = .blocked ∧ r = some .blockedOn := by
  rcases r with _ | r
  · cases s <;> simp [admittedPair] at h
  · cases s <;> cases r <;> simp_all [admittedPair, QueueState.isGuardedTerminal]

/-- A close that names no target describes only a row that had none: its own transition has none,
and the row keeps the old one. -/
lemma Life.target_none_of_described {l : Life} {m : Move} (ha : Admitted l m) (hl : l.logged)
    (hd' : (l.moved m).Described) (hs : m.state = .done) (hn : m.closureTarget = none) :
    l.closureTarget = none := by
  by_contra ht
  obtain ⟨t, ht⟩ := Option.ne_none_iff_exists'.mp ht
  obtain ⟨c, hclosing, -, htarget⟩ := hd'.supplied hs
  cases (Life.closing_cons hl (ha.ne_done hs)
    ⟨m.state, m.closureReason, m.closureTarget, m.note⟩ hs).symm.trans hclosing
  simp [Life.moved, hn, ht] at htarget

lemma keepsDescription_of_moved {l : Life} {m : Move} (ha : Admitted l m) (hl : l.logged)
    (hd : l.Described) (hd' : (l.moved m).Described) : (RowWrite.move m).keepsDescription l := by
  by_cases hc : l.clean
  · exact .inl hc
  by_cases hr : m.closureReason.isSome
  · refine .inr (.inr ⟨hr, fun hs => ?_⟩)
    by_cases ht : m.closureTarget.isSome
    · exact .inl ht
    · exact .inr (Life.target_none_of_described ha hl hd' hs (by simpa using ht))
  · have hr' : m.closureReason = none := by simpa using hr
    have hpair : admittedPair l.state l.closureReason := by
      refine hd.pair ?_
      by_contra hn
      exact hc (by simpa [Life.clean] using hn)
    have hreason : l.closureReason.isSome := by
      by_contra hn
      have hn : l.closureReason = none := by simpa using hn
      rw [hn] at hpair
      cases hs : l.state <;> simp [admittedPair, hs] at hpair
    have hpair' : admittedPair m.state l.closureReason := by
      have := hd'.pair (.inl (by simpa [Life.moved, hr'] using hreason))
      simpa [Life.moved, hr'] using this
    refine .inr (.inl ?_)
    by_cases hg : l.state.isGuardedTerminal = true
    · have hlive := (ha.reopening hg).2.2.1
      obtain ⟨hm, hb⟩ := admittedPair_unguarded hpair' (by
        by_contra hn
        simp [QueueState.not_live_of_guarded (by simpa using hn)] at hlive)
      exact ⟨blocked_of_admittedPair (hb ▸ hpair), hm⟩
    · obtain ⟨hs, hb⟩ := admittedPair_unguarded hpair (by simpa using hg)
      exact ⟨hs, blocked_of_admittedPair (hb ▸ hpair')⟩

/-- **Exactly the writes that keep the description** leave a described row described. -/
theorem Step.described_iff {l l' : Life} {w : RowWrite} (h : Step (some l) w (some l'))
    (hl : l.logged) (hd : l.Described) : l'.Described ↔ w.keepsDescription l := by
  constructor
  · intro hd'
    have hclean : ¬ l'.state.isGuardedTerminal = true → l'.state ≠ .blocked → l'.clean := by
      intro hg hb
      by_contra hn
      have := hd'.pair (by
        by_contra hn'
        exact hn (by simpa [Life.clean] using hn'))
      exact hb (admittedPair_unguarded this (by simpa using hg)).1
    cases h with
    | claim => exact hclean (by simp [QueueState.isGuardedTerminal]) (by simp)
    | unpark => exact hclean (by simp [QueueState.isGuardedTerminal]) (by simp)
    | move ha => exact keepsDescription_of_moved ha hl hd hd'
    | _ => trivial
  · intro hk
    obtain ⟨_, he, hd'⟩ := h.described hl hd hk
    cases he
    exact hd'

/-! ### Parks over all rows -/

section
variable (v : String → Option Life)

/-- The row is parked on `b`. -/
def parked (k b : String) : Prop := ∃ l, v k = some l ∧ l.state = .blocked ∧ l.blockedOn = some b

/-- The row exists and is active. -/
def live (b : String) : Prop := ∃ l, v b = some l ∧ l.state.isBlockerLive = true

/-- No row is parked on a name of `N` that is not an active row. -/
def noDeadPark (N : String → Prop) : Prop := ∀ k b, N b → parked v k b → live v b

end

variable {N : String → Prop} {v v₁ v' v'' : String → Option Life}

lemma parked_live {k b : String} (h : parked v k b) : live v k := by
  obtain ⟨l, hl, hs, -⟩ := h
  exact ⟨l, hl, by simp [hs, QueueState.isBlockerLive]⟩

/-- A commit clears what it closes: no row stays parked on a row that left the active states, and
a row newly parked on a name of `N` is parked on an active row. -/
structure Clears (N : String → Prop) (v v' : String → Option Life) : Prop where
  cleared : ∀ b, N b → live v b → ¬ live v' b → ∀ k, ¬ parked v' k b
  fresh : ∀ k b, N b → parked v' k b → parked v k b ∨ live v' b

namespace Clears

lemma refl (v : String → Option Life) : Clears N v v :=
  ⟨fun _ _ h h' => absurd h h', fun _ _ _ h => .inl h⟩

lemma mono {N' : String → Prop} (hN : ∀ b, N' b → N b) (h : Clears N v v') : Clears N' v v' :=
  ⟨fun b hb => h.cleared b (hN b hb), fun k b hb => h.fresh k b (hN b hb)⟩

lemma trans (h : Clears N v v') (h' : Clears N v' v'') : Clears N v v'' where
  cleared b hb hlive hdead k hp := by
    rcases h'.fresh k b hb hp with hp' | hl
    · by_cases hl' : live v' b
      · exact h'.cleared b hb hl' hdead k hp
      · exact h.cleared b hb hlive hl' k hp'
    · exact hdead hl
  fresh k b hb hp := by
    by_contra hn
    push Not at hn
    rcases h'.fresh k b hb hp with hp' | hl
    · rcases h.fresh k b hb hp' with hp₀ | hl'
      · exact hn.1 hp₀
      · exact h'.cleared b hb hl' hn.2 k hp
    · exact hn.2 hl

/-- **Dead parks never appear** across a commit that clears what it closes. -/
theorem noDeadPark (h : Clears N v v') (hv : noDeadPark v N) : Lifecycle.noDeadPark v' N := by
  intro k b hb hp
  by_contra hdead
  rcases h.fresh k b hb hp with hp' | hl
  · exact h.cleared b hb (hv k b hb hp') hdead k hp
  · exact hdead hl

end Clears

/-- A write that neither closes a row nor parks it anew. -/
def RowWrite.calm : RowWrite → Prop
  | .close _ _ => False
  | .move _ => False
  | .rebind _ => False
  | _ => True

lemma Step.calm_live {u u' : Option Life} {w : RowWrite} (h : Step u w u') (hw : w.calm)
    (hu : ∃ l, u = some l ∧ l.state.isBlockerLive = true) :
    ∃ l, u' = some l ∧ l.state.isBlockerLive = true := by
  obtain ⟨l, rfl, hl⟩ := hu
  cases h with
  | claim => exact ⟨_, rfl, rfl⟩
  | release => exact ⟨_, rfl, rfl⟩
  | note => exact ⟨_, rfl, hl⟩
  | reroute => exact ⟨_, rfl, hl⟩
  | unpark => exact ⟨_, rfl, rfl⟩
  | _ => exact hw.elim

lemma Step.calm_parked {u u' : Option Life} {w : RowWrite} {b : String} (h : Step u w u')
    (hw : w.calm) (hu : ∃ l, u' = some l ∧ l.state = .blocked ∧ l.blockedOn = some b) :
    ∃ l, u = some l ∧ l.state = .blocked ∧ l.blockedOn = some b := by
  obtain ⟨l', hl', hs, hb⟩ := hu
  cases h with
  | note =>
    cases hl'
    exact ⟨_, rfl, hs, hb⟩
  | reroute =>
    cases hl'
    exact ⟨_, rfl, hs, hb⟩
  | close => exact hw.elim
  | move => exact hw.elim
  | rebind => exact hw.elim
  | _ =>
    cases hl'
    simp at hs

lemma clears_of_calm
    (h : ∀ k, ∃ ws, (∀ w ∈ ws, RowWrite.calm w) ∧ Path Step (v k) ws (v' k)) : Clears N v v' where
  cleared b _ hlive hdead := by
    obtain ⟨ws, hw, hp⟩ := h b
    exact absurd (hp.invariant_of_labels (I := fun u : Option Life =>
      ∃ l, u = some l ∧ l.state.isBlockerLive = true)
        (fun _ _ _ hw hstep hu => hstep.calm_live hw hu) hw hlive) hdead
  fresh k b _ hp := by
    obtain ⟨ws, hw, hpath⟩ := h k
    by_contra hn
    push Not at hn
    have := hpath.invariant_of_labels
      (I := fun u : Option Life => ¬ ∃ l, u = some l ∧ l.state = .blocked ∧ l.blockedOn = some b)
      (fun _ _ _ hw hstep hu hu' => hu (hstep.calm_parked hw hu')) hw hn.1
    exact this hp

/-- The write a parked row goes through when its blocker closes, given the successor its owner is
offered. -/
def dependentWrite : Option String → RowWrite
  | some s => .rebind s
  | none => .unpark

lemma Step.dependent {l : Life} {u' : Option Life} {o : Option String}
    (h : Step (some l) (dependentWrite o) u') : ∃ l', u' = some l' ∧
      l'.state.isBlockerLive = true ∧
      ((∃ s, o = some s ∧ l'.state = .blocked ∧ l'.blockedOn = some s) ∨
        (o = none ∧ l'.state = .pending ∧ l'.blockedOn = none)) := by
  cases o with
  | some s =>
    cases h with
    | rebind hs => exact ⟨_, rfl, by simp [hs, QueueState.isBlockerLive], .inl ⟨s, rfl, hs, rfl⟩⟩
  | none =>
    cases h with
    | unpark => exact ⟨_, rfl, rfl, .inr ⟨rfl, rfl, rfl⟩⟩

/-- **A close with its propagation clears**: `v₁` is the tables once the row `x` is closed and the
successor inserted, and each row then parked on `x` goes through one dependent write. -/
theorem clears_of_close {x : String} (hx : ¬ live v₁ x)
    (hsame : ∀ k, k ≠ x → v₁ k = v k ∨ (v k = none ∧ ∃ l, v₁ k = some l ∧ l.state = .pending))
    (hout : ∀ k, ¬ parked v₁ k x → v' k = v₁ k)
    (hin : ∀ k, parked v₁ k x → ∃ o, (∀ s, o = some s → live v₁ s) ∧
      Step (v₁ k) (dependentWrite o) (v' k)) : Clears N v v' := by
  have hkeep : ∀ b, live v₁ b → live v' b := by
    intro b hb
    by_cases hp : parked v₁ b x
    · obtain ⟨o, -, hstep⟩ := hin b hp
      obtain ⟨l, hl, -⟩ := hp
      rw [hl] at hstep
      obtain ⟨l', hl', hlive, -⟩ := hstep.dependent
      exact ⟨l', hl', hlive⟩
    · unfold live
      rw [hout b hp]
      exact hb
  have hx' : ∀ k, parked v' k x → False := by
    intro k hp'
    by_cases hp : parked v₁ k x
    · obtain ⟨o, ho, hstep⟩ := hin k hp
      obtain ⟨l, hl, -⟩ := hp
      rw [hl] at hstep
      obtain ⟨l', hl', -, ⟨s, hs, -, hb⟩ | ⟨-, hs, -⟩⟩ := hstep.dependent
      · obtain ⟨l'', hl'', -, hb''⟩ := hp'
        cases hl'.symm.trans hl''
        cases hb.symm.trans hb''
        exact hx (ho _ hs)
      · obtain ⟨l'', hl'', hs'', -⟩ := hp'
        cases hl'.symm.trans hl''
        simp [hs] at hs''
    · unfold parked at hp'
      rw [hout k hp] at hp'
      exact hp hp'
  constructor
  · intro b _ hlive hdead k hp'
    by_cases hb : b = x
    · subst hb
      exact hx' k hp'
    · refine hdead (hkeep b ?_)
      rcases hsame b hb with h | ⟨hnone, -⟩
      · unfold live
        rw [h]
        exact hlive
      · obtain ⟨l, hl, -⟩ := hlive
        simp [hnone] at hl
  · intro k b _ hp'
    by_cases hp : parked v₁ k x
    · obtain ⟨o, ho, hstep⟩ := hin k hp
      obtain ⟨l, hl, -⟩ := hp
      rw [hl] at hstep
      obtain ⟨l'', hl'', hs'', hb''⟩ := hp'
      obtain ⟨l', hl', -, ⟨s, hs, -, hb⟩ | ⟨-, hs, -⟩⟩ := hstep.dependent
      · cases hl'.symm.trans hl''
        cases hb.symm.trans hb''
        exact .inr (hkeep _ (ho _ hs))
      · cases hl'.symm.trans hl''
        simp [hs] at hs''
    · unfold parked at hp'
      rw [hout k hp] at hp'
      by_cases hk : k = x
      · subst hk
        exact absurd (parked_live hp') hx
      · rcases hsame k hk with h | ⟨-, l, hl, hpend⟩
        · rw [h] at hp'
          exact .inl hp'
        · obtain ⟨l', hl', hs', -⟩ := hp'
          cases hl.symm.trans hl'
          simp [hpend] at hs'

end OpenRig.Lifecycle
