import OpenRig.LocalClock

/-!
Quiet hours against the local clock.

A daily rule's occurrence of a day starts and ends at the instants its local times resolve to. Both
are first instants of the clock, so occurrences stand in order and do not overlap, and the clock
says which four days may matter.
-/

namespace OpenRig.QuietWindows

open OpenRig.LocalClock Timezone

/-- A local `HH:MM`, in minutes. -/
abbrev HHMM := Fin 1440

def localFieldsMs (z : Timezone) (ms : ℤ) : ℤ := z.minute ms

def localDate (z : Timezone) (now : ℤ) : ℤ := localFieldsMs z now / DAY

/-- A local date and time as a UTC-epoch number of the same fields. -/
def wanted (day : ℤ) (hhmm : HHMM) : ℤ := day * DAY + hhmm.val * MINUTE

/-- The instants that the three probes find for a local time. -/
def matchesOf (z : Timezone) (localMs : ℤ) : List ℤ :=
  ([localMs - DAY, localMs, localMs + DAY].map fun probe =>
    localMs - (localFieldsMs z probe - probe)).filter fun candidate =>
      localFieldsMs z candidate = localMs

/-- The loop over the minutes from the wanted one, this many of them. -/
def findFrom (z : Timezone) : ℕ → ℤ → Option ℤ
  | 0, _ => none
  | n + 1, localMs =>
    match (matchesOf z localMs).min? with
    | some t => some t
    | none => findFrom z n (localMs + MINUTE)

/-- Nothing is a time that does not occur. -/
def zonedLocalToInstant (z : Timezone) (day : ℤ) (hhmm : HHMM) : Option ℤ :=
  findFrom z (24 * 60 + 1) (wanted day hhmm)

inductive Occurrence where
  | until
  /-- By the local date of its start. -/
  | day (d : ℤ)
  deriving DecidableEq

inductive Rule where
  | daily (start finish : HHMM)
  | until (at' : ℤ)

structure Row where
  windowId : String
  revision : ℕ
  rule : Rule
  timezone : Timezone
  setAt : ℤ
  ended : Option Occurrence := none
  cleared : Bool := false

inductive QuietState where
  | noWindow
  /-- The next boundary is a start. -/
  | inactive (windowId : String) (revision : ℕ) (nextBoundary : Option ℤ)
  /-- The next boundary is an end. -/
  | active (windowId : String) (revision : ℕ) (occurrence : Occurrence)
      (occurrenceStart nextBoundary : ℤ)
  deriving DecidableEq

def startOf (z : Timezone) (start : HHMM) (day : ℤ) : Option ℤ := zonedLocalToInstant z day start

/-- A rule that ends no later than it starts ends on the next day. -/
def endDay (start finish : HHMM) (day : ℤ) : ℤ := if start < finish then day else day + 1

def endOf (z : Timezone) (start finish : HHMM) (day : ℤ) : Option ℤ :=
  zonedLocalToInstant z (endDay start finish day) finish

/-- The days in turn, with the next start found so far. -/
def searchDays (row : Row) (start finish : HHMM) (now : ℤ) : List ℤ → Option ℤ → Option QuietState
  | [], nextStart => some (.inactive row.windowId row.revision nextStart)
  | day :: days, nextStart =>
    match startOf row.timezone start day, endOf row.timezone start finish day with
    | some startMs, some endMs =>
      if endMs ≤ startMs then searchDays row start finish now days nextStart
      else if startMs ≤ now ∧ now < endMs ∧ row.ended ≠ some (.day day) then
        some (.active row.windowId row.revision (.day day) startMs endMs)
      else if now < startMs ∧ nextStart.all (startMs < ·) then
        searchDays row start finish now days (some startMs)
      else searchDays row start finish now days nextStart
    | _, _ => none

def quietStateFor (row : Option Row) (now : ℤ) : Option QuietState :=
  match row with
  | none => some .noWindow
  | some row =>
    if row.cleared then some (.inactive row.windowId row.revision none)
    else
      match row.rule with
      | .until untilMs =>
        if now < untilMs ∧ row.ended ≠ some .until then
          some (.active row.windowId row.revision .until row.setAt untilMs)
        else some (.inactive row.windowId row.revision none)
      | .daily start finish =>
        let today := localDate row.timezone now
        searchDays row start finish now [today - 1, today, today + 1, today + 2] none

/-! ### Resolving a local time -/

section Resolve

variable {z : Timezone}

lemma mem_matchesOf {localMs t : ℤ} : t ∈ matchesOf z localMs ↔
    (∃ probe ∈ [localMs - DAY, localMs, localMs + DAY],
      t = localMs - (localFieldsMs z probe - probe)) ∧ z.minute t = localMs := by
  unfold matchesOf
  rw [List.mem_filter, List.mem_map, decide_eq_true_eq]
  refine and_congr_left fun _ => ⟨?_, ?_⟩
  · rintro ⟨probe, hp, rfl⟩
    exact ⟨probe, hp, rfl⟩
  · rintro ⟨probe, hp, rfl⟩
    exact ⟨probe, hp, rfl⟩

lemma probe_offset {probe : ℤ} (h : MINUTE ∣ probe) :
    localFieldsMs z probe - probe = z.offset probe := by
  obtain ⟨k, hk⟩ := Int.dvd_add h (z.aligned probe)
  unfold localFieldsMs minute clock
  rw [hk, Int.mul_ediv_cancel_left k (by decide), ← hk]
  omega

/-- **The three probes find the first instant** that shows a minute, if any does. -/
lemma earliest_mem (hz : z.OnMinutes) {t : ℤ} (hmin : ∀ u < t, z.minute u ≠ z.minute t) :
    t ∈ matchesOf z (z.minute t) := by
  have hclock : z.clock t = z.minute t := clock_of_earliest hz hmin
  set x := z.minute t with hx
  have hdvd : MINUTE ∣ x := minute_dvd t
  have hday : MINUTE ∣ DAY := ⟨1440, rfl⟩
  have hnear := abs_le.mp (z.bounded t)
  obtain ⟨c, hbefore, hafter, -⟩ := one_change (z := z) (a := x - DAY) (b := x + DAY) (by
    unfold DAY HOUR MINUTE
    omega) (by
    unfold DAY HOUR MINUTE
    omega)
  have ha : x - DAY ≤ t := by
    unfold clock at hclock
    unfold DAY HOUR MINUTE at *
    omega
  have hb : t ≤ x + DAY := by
    unfold clock at hclock
    unfold DAY HOUR MINUTE at *
    omega
  refine mem_matchesOf.mpr ⟨?_, rfl⟩
  by_cases hc : t < c
  · refine ⟨x - DAY, by simp, ?_⟩
    rw [probe_offset (Int.dvd_sub hdvd hday), ← hbefore t ha hc]
    unfold clock at hclock
    omega
  · refine ⟨x + DAY, by simp, ?_⟩
    rw [probe_offset (Int.dvd_add hdvd hday), ← hafter t ha (not_lt.mp hc) hb]
    unfold clock at hclock
    omega

lemma min?_matchesOf (hz : z.OnMinutes) {t : ℤ} (hmin : ∀ u < t, z.minute u ≠ z.minute t) :
    (matchesOf z (z.minute t)).min? = some t := by
  rw [List.min?_eq_some_iff]
  refine ⟨earliest_mem hz hmin, fun u hu => ?_⟩
  by_contra hlt
  exact hmin u (not_le.mp hlt) (mem_matchesOf.mp hu).2

lemma matchesOf_eq_nil {localMs : ℤ} (h : ∀ t, z.minute t ≠ localMs) : matchesOf z localMs = [] :=
  List.eq_nil_iff_forall_not_mem.mpr fun t ht => h t (mem_matchesOf.mp ht).2

lemma findFrom_first (hz : z.OnMinutes) {x t : ℤ} (h : z.First x t) (hx : MINUTE ∣ x) (n : ℕ)
    (hn : z.minute t - x < n * MINUTE) : findFrom z n x = some t := by
  have hmin : ∀ u < t, z.minute u ≠ z.minute t := by
    intro u hu he
    have := h.2 u hu
    have := h.1
    omega
  induction n generalizing x with
  | zero =>
    have := h.1
    rw [Nat.cast_zero, zero_mul] at hn
    omega
  | succ n ih =>
    rw [findFrom]
    by_cases hshown : z.minute t = x
    · rw [← hshown, min?_matchesOf hz hmin]
    · have hlt : x < z.minute t := lt_of_le_of_ne h.1 (Ne.symm hshown)
      rw [matchesOf_eq_nil (fun u => h.none_between hx le_rfl hlt u)]
      have hnext : x + MINUTE ≤ z.minute t := by
        obtain ⟨k, hk⟩ := minute_dvd (z := z) t
        obtain ⟨j, rfl⟩ := hx
        rw [hk] at hlt ⊢
        unfold MINUTE at *
        omega
      refine ih ⟨hnext, fun u hu => ?_⟩ (Int.dvd_add hx dvd_rfl) ?_
      · have := h.2 u hu
        unfold MINUTE
        omega
      · rw [Nat.cast_succ, add_mul, one_mul] at hn
        omega

lemma wanted_dvd (day : ℤ) (hhmm : HHMM) : MINUTE ∣ wanted day hhmm :=
  Int.dvd_add (Dvd.dvd.mul_left ⟨1440, rfl⟩ day) (dvd_mul_left _ _)

/-- **A local time resolves to the first instant of the clock.** -/
lemma zonedLocalToInstant_first (hz : z.OnMinutes) {day : ℤ} {hhmm : HHMM} {t : ℤ}
    (h : z.First (wanted day hhmm) t) : zonedLocalToInstant z day hhmm = some t := by
  refine findFrom_first hz h (wanted_dvd day hhmm) _ ?_
  have := h.minute_le (wanted_dvd day hhmm)
  have hbound : DAY < ((24 * 60 + 1 : ℕ) : ℤ) * MINUTE := by decide
  omega

end Resolve

/-! ### Occurrences -/

section Occurrences

variable {row : Row} {start finish : HHMM}

/-- The resolved window of a day's occurrence. -/
def Window (row : Row) (start finish : HHMM) (day s e : ℤ) : Prop :=
  startOf row.timezone start day = some s ∧ endOf row.timezone start finish day = some e

def On (row : Row) (start finish : HHMM) (now day : ℤ) : Prop :=
  ∃ s e, Window row start finish day s e ∧ s ≤ now ∧ now < e ∧ row.ended ≠ some (.day day)

def startTime (start : HHMM) (day : ℤ) : ℤ := wanted day start

def endTime (start finish : HHMM) (day : ℤ) : ℤ := wanted (endDay start finish day) finish

lemma window_iff (hz : row.timezone.OnMinutes) {day s e : ℤ} :
    Window row start finish day s e ↔ row.timezone.First (startTime start day) s ∧
      row.timezone.First (endTime start finish day) e := by
  have hresolve : ∀ {d : ℤ} {h : HHMM} {t : ℤ},
      zonedLocalToInstant row.timezone d h = some t ↔ row.timezone.First (wanted d h) t := by
    intro d h t
    refine ⟨fun ht => ?_, zonedLocalToInstant_first hz⟩
    obtain ⟨u, hu⟩ := exists_first (z := row.timezone) (wanted d h)
    rw [zonedLocalToInstant_first hz hu] at ht
    exact Option.some.inj ht ▸ hu
  exact and_congr hresolve hresolve

lemma exists_window (hz : row.timezone.OnMinutes) (day : ℤ) :
    ∃ s e, Window row start finish day s e := by
  obtain ⟨s, hs⟩ := exists_first (z := row.timezone) (startTime start day)
  obtain ⟨e, he⟩ := exists_first (z := row.timezone) (endTime start finish day)
  exact ⟨s, e, (window_iff hz).mpr ⟨hs, he⟩⟩

lemma hhmm_lt (h : HHMM) : (h.val : ℤ) < 1440 := by
  have := h.isLt
  omega

lemma startTime_mono {d d' : ℤ} (h : d ≤ d') : startTime start d ≤ startTime start d' := by
  unfold startTime wanted DAY HOUR MINUTE
  omega

lemma endTime_le_next (hne : start ≠ finish) {d d' : ℤ} (h : d < d') :
    endTime start finish d ≤ startTime start d' := by
  have hs := hhmm_lt start
  have hf := hhmm_lt finish
  unfold endTime startTime wanted endDay DAY HOUR MINUTE
  split
  · omega
  · rename_i hle
    have hle : finish.val ≤ start.val := not_lt.mp hle
    have hval : finish.val ≠ start.val := fun he => hne (Fin.ext he.symm)
    omega

lemma On.unique (hz : row.timezone.OnMinutes) (hne : start ≠ finish) {now d d' : ℤ}
    (h : On row start finish now d) (h' : On row start finish now d') : d = d' := by
  have hlt : ∀ {a b : ℤ}, On row start finish now a → On row start finish now b → ¬ a < b := by
    rintro a b ⟨s, e, hw, -, hend, -⟩ ⟨s', e', hw', hstart, -, -⟩ hab
    have hord : e ≤ s' :=
      ((window_iff hz).mp hw).2.mono ((window_iff hz).mp hw').1 (endTime_le_next hne hab)
    omega
  exact le_antisymm (not_lt.mp (hlt h' h)) (not_lt.mp (hlt h h'))

def searched (row : Row) (now : ℤ) : List ℤ :=
  let today := localDate row.timezone now
  [today - 1, today, today + 1, today + 2]

lemma date_bounds (z : Timezone) (t : ℤ) :
    localDate z t * DAY ≤ z.minute t ∧ z.minute t < (localDate z t + 1) * DAY := by
  unfold localDate localFieldsMs DAY HOUR MINUTE
  omega

lemma over_before (hz : row.timezone.OnMinutes) {now day s e : ℤ}
    (h : Window row start finish day s e) (hday : day < localDate row.timezone now - 1) :
    e ≤ now := by
  refine ((window_iff hz).mp h).2.le_iff.mpr ⟨now, le_rfl, ?_⟩
  have hdate := (date_bounds row.timezone now).1
  have hf := hhmm_lt finish
  have hnext : endTime start finish day < (day + 2) * DAY := by
    unfold endTime wanted endDay DAY HOUR MINUTE
    split
    · omega
    · omega
  unfold DAY HOUR MINUTE at *
  omega

lemma not_started (hz : row.timezone.OnMinutes) {now day s e : ℤ}
    (h : Window row start finish day s e) (hday : localDate row.timezone now + 1 < day) :
    now < s := by
  by_contra hle
  obtain ⟨u, hu, hreached⟩ := ((window_iff hz).mp h).1.le_iff.mp (not_lt.mp hle)
  have hclock := hreached.trans (minute_le u)
  have hback := clock_back (z := row.timezone) hu
  have hdate := (date_bounds row.timezone now).2
  have hlt := lt_minute (z := row.timezone) now
  obtain ⟨k, hk⟩ := minute_dvd (z := row.timezone) now
  unfold startTime wanted at hclock
  unfold DAY HOUR MINUTE at *
  omega

lemma On.mem_searched (hz : row.timezone.OnMinutes) {now day : ℤ}
    (h : On row start finish now day) : day ∈ searched row now := by
  obtain ⟨s, e, hw, hs, he, -⟩ := h
  have hback : localDate row.timezone now - 1 ≤ day := by
    by_contra hlt
    have := over_before hz hw (not_le.mp hlt)
    omega
  have hahead : day ≤ localDate row.timezone now + 1 := by
    by_contra hlt
    have := not_started hz hw (not_le.mp hlt)
    omega
  unfold searched
  simp only [List.mem_cons, List.not_mem_nil, or_false]
  omega

/-- An occurrence that is not empty and has not started. -/
def Upcoming (row : Row) (start finish : HHMM) (now day s : ℤ) : Prop :=
  ∃ e, Window row start finish day s e ∧ s < e ∧ now < s

/-- What a search of these days finds, from the next start found before them: the occurrence that is
on, or the earliest start ahead. -/
def Finds (row : Row) (start finish : HHMM) (now : ℤ) (days : List ℤ) (next : Option ℤ)
    (result : Option QuietState) : Prop :=
  (∃ day ∈ days, ∃ s e, Window row start finish day s e ∧ On row start finish now day ∧
    result = some (.active row.windowId row.revision (.day day) s e)) ∨
  ((∀ day ∈ days, ¬ On row start finish now day) ∧
    ∃ next', result = some (.inactive row.windowId row.revision next') ∧
      (∀ b, next' = some b →
        next = some b ∨ ∃ day ∈ days, Upcoming row start finish now day b) ∧
      (∀ b, next = some b → ∃ b', next' = some b' ∧ b' ≤ b) ∧
      ∀ day ∈ days, ∀ s, Upcoming row start finish now day s → ∃ b', next' = some b' ∧ b' ≤ s)

lemma Finds.pass {now day : ℤ} {days : List ℤ} {next next₁ : Option ℤ}
    {result : Option QuietState} (h : Finds row start finish now days next₁ result)
    (hoff : ¬ On row start finish now day)
    (hfrom : ∀ b, next₁ = some b → next = some b ∨ Upcoming row start finish now day b)
    (hkeep : ∀ b, next = some b → ∃ b', next₁ = some b' ∧ b' ≤ b)
    (hown : ∀ b, Upcoming row start finish now day b → ∃ b', next₁ = some b' ∧ b' ≤ b) :
    Finds row start finish now (day :: days) next result := by
  rcases h with ⟨day', hd', s', e', hw', hon, hres⟩ | ⟨hnone, next', hres, h1, h2, h3⟩
  · exact .inl ⟨day', List.mem_cons_of_mem _ hd', s', e', hw', hon, hres⟩
  · have hbelow : ∀ b, (∃ b₁, next₁ = some b₁ ∧ b₁ ≤ b) → ∃ b', next' = some b' ∧ b' ≤ b := by
      rintro b ⟨b₁, hb₁, hle₁⟩
      obtain ⟨b', hb', hle'⟩ := h2 b₁ hb₁
      exact ⟨b', hb', hle'.trans hle₁⟩
    refine .inr ⟨?_, next', hres, ?_, fun b hb => hbelow b (hkeep b hb), ?_⟩
    · intro d hd
      rcases List.mem_cons.mp hd with rfl | hd
      · exact hoff
      · exact hnone d hd
    · intro b hb
      rcases h1 b hb with hb | ⟨d, hd, hup⟩
      · rcases hfrom b hb with hb | hup
        · exact .inl hb
        · exact .inr ⟨day, List.mem_cons_self, hup⟩
      · exact .inr ⟨d, List.mem_cons_of_mem _ hd, hup⟩
    · intro d hd b hup
      rcases List.mem_cons.mp hd with rfl | hd
      · exact hbelow b (hown b hup)
      · exact h3 d hd b hup

lemma searchDays_finds (hz : row.timezone.OnMinutes) (now : ℤ) (days : List ℤ)
    (next : Option ℤ) : Finds row start finish now days next
      (searchDays row start finish now days next) := by
  induction days generalizing next with
  | nil =>
    right
    exact ⟨by simp, next, rfl, fun b hb => .inl hb, fun b hb => ⟨b, hb, le_rfl⟩, by simp⟩
  | cons day days ih =>
    obtain ⟨s, e, hw⟩ : ∃ s e, Window row start finish day s e := exists_window hz day
    have hsame : ∀ s' e', Window row start finish day s' e' → s' = s ∧ e' = e := by
      rintro s' e' ⟨hs', he'⟩
      exact ⟨Option.some.inj (hs'.symm.trans hw.1), Option.some.inj (he'.symm.trans hw.2)⟩
    have hkept : ∀ b, next = some b → ∃ b', next = some b' ∧ b' ≤ b :=
      fun b hb => ⟨b, hb, le_rfl⟩
    have hunfold := searchDays.eq_2 row start finish now next day days
    rw [hw.1, hw.2] at hunfold
    dsimp only at hunfold
    by_cases hempty : e ≤ s
    · rw [if_pos hempty] at hunfold
      rw [hunfold]
      refine (ih next).pass ?_ (fun b hb => .inl hb) hkept ?_
      · rintro ⟨s', e', hw', hs', he', -⟩
        obtain ⟨rfl, rfl⟩ := hsame s' e' hw'
        omega
      · rintro b ⟨e', hw', hlt, -⟩
        obtain ⟨rfl, rfl⟩ := hsame b e' hw'
        omega
    rw [if_neg hempty] at hunfold
    by_cases hon : s ≤ now ∧ now < e ∧ row.ended ≠ some (.day day)
    · rw [if_pos hon] at hunfold
      exact .inl ⟨day, List.mem_cons_self, s, e, hw, ⟨s, e, hw, hon⟩, hunfold⟩
    rw [if_neg hon] at hunfold
    have hoff : ¬ On row start finish now day := by
      rintro ⟨s', e', hw', hrest⟩
      obtain ⟨rfl, rfl⟩ := hsame s' e' hw'
      exact hon hrest
    by_cases hahead : now < s ∧ next.all (s < ·)
    · rw [if_pos hahead] at hunfold
      rw [hunfold]
      refine (ih (some s)).pass hoff ?_ ?_ ?_
      · rintro b ⟨⟩
        exact .inr ⟨e, hw, not_le.mp hempty, hahead.1⟩
      · rintro b rfl
        exact ⟨s, rfl, (by simpa using hahead.2 : s < b).le⟩
      · rintro b ⟨e', hw', -, -⟩
        exact ⟨s, rfl, (hsame b e' hw').1.ge⟩
    · rw [if_neg hahead] at hunfold
      rw [hunfold]
      refine (ih next).pass hoff (fun b hb => .inl hb) hkept ?_
      rintro b ⟨e', hw', -, hlt⟩
      obtain ⟨rfl, rfl⟩ := hsame b e' hw'
      cases next with
      | none => exact absurd ⟨hlt, rfl⟩ hahead
      | some b₀ =>
        refine ⟨b₀, rfl, ?_⟩
        by_contra hgt
        exact hahead ⟨hlt, by simpa using hgt⟩

/-! ### The state -/

def QuietState.on : QuietState → Option Occurrence
  | .active _ _ occurrence _ _ => some occurrence
  | _ => none

def QuietState.boundary : QuietState → Option ℤ
  | .active _ _ _ _ finish => some finish
  | .inactive _ _ next => next
  | .noWindow => none

/-- A daily window that is set, with two different times. -/
structure Daily (row : Row) (start finish : HHMM) : Prop where
  rule : row.rule = .daily start finish
  set : row.cleared = false
  nonempty : start ≠ finish

lemma quietStateFor_daily (h : Daily row start finish) (now : ℤ) :
    quietStateFor (some row) now = searchDays row start finish now (searched row now) none := by
  unfold quietStateFor
  dsimp only
  rw [if_neg (by rw [h.set]; decide), h.rule]
  rfl

/-- **The state is the occurrence that is on**, with its end; or none is on, and the boundary is the
earliest start ahead of the days searched. -/
lemma quietStateFor_cases (h : Daily row start finish) (hz : row.timezone.OnMinutes) (now : ℤ) :
    (∃ d s e, Window row start finish d s e ∧ On row start finish now d ∧
      quietStateFor (some row) now = some (.active row.windowId row.revision (.day d) s e)) ∨
    ((∀ d, ¬ On row start finish now d) ∧ ∃ next,
      quietStateFor (some row) now = some (.inactive row.windowId row.revision next) ∧
      (∀ b, next = some b → ∃ d ∈ searched row now, Upcoming row start finish now d b) ∧
      ∀ d ∈ searched row now, ∀ s, Upcoming row start finish now d s →
        ∃ b, next = some b ∧ b ≤ s) := by
  rw [quietStateFor_daily h now]
  have hfinds : Finds row start finish now (searched row now) none _ :=
    searchDays_finds hz now (searched row now) none
  rcases hfinds with ⟨d, -, s, e, hw, hon, hres⟩ | ⟨hnone, next, hres, hfrom, -, hleast⟩
  · exact .inl ⟨d, s, e, hw, hon, hres⟩
  · refine .inr ⟨fun d hon => hnone d (hon.mem_searched hz) hon, next, hres, fun b hb => ?_, hleast⟩
    rcases hfrom b hb with hb | hup
    · cases hb
    · exact hup

lemma on_iff (h : Daily row start finish) (hz : row.timezone.OnMinutes) (now d : ℤ) :
    (∃ st, quietStateFor (some row) now = some st ∧ st.on = some (.day d)) ↔
      On row start finish now d := by
  rcases quietStateFor_cases h hz now with ⟨d', s, e, -, hon, hres⟩ | ⟨hnone, next, hres, -⟩
  · constructor
    · rintro ⟨st, hst, hd⟩
      rw [hres] at hst
      cases hst
      cases hd
      exact hon
    · intro hd
      exact ⟨_, hres, by rw [hd.unique hz h.nonempty hon]; rfl⟩
  · constructor
    · rintro ⟨st, hst, hd⟩
      rw [hres] at hst
      cases hst
      cases hd
    · exact fun hd => absurd hd (hnone d)

lemma on_eq_none (h : Daily row start finish) (hz : row.timezone.OnMinutes) {now : ℤ}
    (hnone : ∀ d, ¬ On row start finish now d) :
    ∃ st, quietStateFor (some row) now = some st ∧ st.on = none := by
  rcases quietStateFor_cases h hz now with ⟨d', s, e, -, hon, -⟩ | ⟨-, next, hres, -⟩
  · exact absurd hon (hnone d')
  · exact ⟨_, hres, rfl⟩

lemma off_before (hz : row.timezone.OnMinutes) {now b t : ℤ}
    (hoff : ∀ d, ¬ On row start finish now d)
    (hfrom : ∃ d ∈ searched row now, Upcoming row start finish now d b)
    (hleast : ∀ d ∈ searched row now, ∀ s, Upcoming row start finish now d s → b ≤ s)
    (hnow : now ≤ t) (ht : t < b) (d : ℤ) : ¬ On row start finish t d := by
  rintro ⟨s, e, hw, hs, he, hmark⟩
  by_cases hstarted : s ≤ now
  · exact hoff d ⟨s, e, hw, hstarted, by omega, hmark⟩
  have hup : Upcoming row start finish now d s := ⟨e, hw, by omega, by omega⟩
  by_cases hin : d ∈ searched row now
  · have := hleast d hin s hup
    omega
  -- Outside the days searched, an occurrence is over or starts after the last of them.
  have hback : localDate row.timezone now - 1 ≤ d := by
    by_contra hlt
    have := over_before hz hw (not_le.mp hlt)
    omega
  obtain ⟨d₀, hd₀, e₀, hw₀, -, -⟩ := hfrom
  have hlater : d₀ ≤ d := by
    unfold searched at hin hd₀
    simp only [List.mem_cons, List.not_mem_nil, or_false] at hin hd₀
    omega
  have := ((window_iff hz).mp hw₀).1.mono ((window_iff hz).mp hw).1 (startTime_mono hlater)
  omega

/-- **Quiet hours follow the local clock.** On a clock that changes on whole minutes, a local time
resolves to the first instant that shows it or, if none does, the next minute that exists. A state
is reported at every instant; an occurrence is on exactly within its resolved window, unless it was
ended. And up to a reported boundary the state and its occurrence stay; at the boundary they change,
provided that an ended mark names an occurrence that has started. -/
theorem quiet_hours (row : Row) (start finish : HHMM) (h : Daily row start finish)
    (hz : row.timezone.OnMinutes) :
    (∀ day hhmm, ∃ t, zonedLocalToInstant row.timezone day hhmm = some t ∧
      wanted day hhmm ≤ localFieldsMs row.timezone t ∧
      (∀ u, localFieldsMs row.timezone u = localFieldsMs row.timezone t → t ≤ u) ∧
      ∀ y, wanted day hhmm ≤ y → y < localFieldsMs row.timezone t →
        ∀ u, localFieldsMs row.timezone u ≠ y) ∧
    (∀ now, ∃ st, quietStateFor (some row) now = some st) ∧
    (∀ now d, (∃ st, quietStateFor (some row) now = some st ∧ st.on = some (.day d)) ↔
      ∃ s e, startOf row.timezone start d = some s ∧ endOf row.timezone start finish d = some e ∧
        s ≤ now ∧ now < e ∧ row.ended ≠ some (.day d)) ∧
    ∀ now st b, quietStateFor (some row) now = some st → st.boundary = some b →
      now < b ∧
      (∀ t, now ≤ t → t < b → ∃ st', quietStateFor (some row) t = some st' ∧ st'.on = st.on) ∧
      ((∀ d s, row.ended = some (.day d) → startOf row.timezone start d = some s → s ≤ now) →
        ∃ st', quietStateFor (some row) b = some st' ∧ st'.on ≠ st.on) := by
  have htotal : ∀ now, ∃ st, quietStateFor (some row) now = some st := by
    intro now
    rcases quietStateFor_cases h hz now with ⟨d, s, e, -, -, hres⟩ | ⟨-, next, hres, -⟩
    · exact ⟨_, hres⟩
    · exact ⟨_, hres⟩
  refine ⟨fun day hhmm => ?_, htotal, fun now d => ?_, fun now st b hst hb => ?_⟩
  · obtain ⟨t, ht⟩ := exists_first (z := row.timezone) (wanted day hhmm)
    refine ⟨t, zonedLocalToInstant_first hz ht, ht.1, fun u hu => ?_, fun y hy hlt =>
      ht.none_between (wanted_dvd day hhmm) hy hlt⟩
    exact ht.le_iff.mpr ⟨u, le_rfl, ht.1.trans hu.ge⟩
  · rw [on_iff h hz]
    constructor
    · rintro ⟨s, e, ⟨hs, he⟩, hrest⟩
      exact ⟨s, e, hs, he, hrest⟩
    · rintro ⟨s, e, hs, he, hrest⟩
      exact ⟨s, e, ⟨hs, he⟩, hrest⟩
  · rcases quietStateFor_cases h hz now with
      ⟨d, s, e, hw, hon, hres⟩ | ⟨hoff, next, hres, hfrom, hleast⟩
    · -- An occurrence is on, and the boundary is its end.
      rw [hres] at hst
      cases hst
      obtain rfl : e = b := Option.some.inj hb
      have hsame : ∀ {s' e'}, Window row start finish d s' e' → s' = s ∧ e' = e := by
        rintro s' e' ⟨hs', he'⟩
        exact ⟨Option.some.inj (hs'.symm.trans hw.1), Option.some.inj (he'.symm.trans hw.2)⟩
      obtain ⟨s', e', hw', hs, he, hmark⟩ := hon
      obtain ⟨rfl, rfl⟩ := hsame hw'
      refine ⟨he, fun t h1 h2 => ?_, fun _ => ?_⟩
      · exact (on_iff h hz t d).mpr ⟨s', e', hw, by omega, h2, hmark⟩
      · obtain ⟨st', hst'⟩ := htotal e'
        refine ⟨st', hst', fun heq => ?_⟩
        obtain ⟨s₁, e₁, hw₁, -, hlt, -⟩ := (on_iff h hz e' d).mp ⟨st', hst', heq⟩
        obtain ⟨-, rfl⟩ := hsame hw₁
        omega
    · -- None is on, and the boundary is the earliest start ahead.
      rw [hres] at hst
      cases hst
      obtain rfl : next = some b := hb
      have hsource := hfrom b rfl
      have hmin : ∀ d ∈ searched row now, ∀ s, Upcoming row start finish now d s → b ≤ s := by
        intro d hd s hup
        obtain ⟨b', hb', hle⟩ := hleast d hd s hup
        cases hb'
        exact hle
      obtain ⟨d₀, hd₀, e₀, hw₀, hlt₀, hnow₀⟩ := hsource
      refine ⟨hnow₀, fun t h1 h2 => ?_, fun hmark => ?_⟩
      · exact on_eq_none h hz
          (off_before hz hoff ⟨d₀, hd₀, e₀, hw₀, hlt₀, hnow₀⟩ hmin h1 h2)
      · have hon : On row start finish b d₀ := by
          refine ⟨b, e₀, hw₀, le_rfl, hlt₀, fun hended => ?_⟩
          have := hmark d₀ b hended hw₀.1
          omega
        obtain ⟨st', hst', hstate⟩ := (on_iff h hz b d₀).mpr hon
        refine ⟨st', hst', fun heq => ?_⟩
        rw [hstate] at heq
        cases heq

end Occurrences

/-! ### Two clocks -/

/-- The clock goes ahead by an hour at 02:00 of day 0, and back at 03:00 of day 210. -/
def SPRING : ℤ := HOUR

def AUTUMN : ℤ := 210 * DAY + HOUR

def summerOffset (t : ℤ) : ℤ := if SPRING ≤ t ∧ t < AUTUMN then 2 * HOUR else HOUR

lemma summer_change {t : ℤ} (h : summerOffset t ≠ summerOffset (t - 1)) :
    t = SPRING ∨ t = AUTUMN := by
  by_contra hne
  rw [not_or] at hne
  have hsame : (SPRING ≤ t ∧ t < AUTUMN) ↔ (SPRING ≤ t - 1 ∧ t - 1 < AUTUMN) := by omega
  exact h (if_congr hsame rfl rfl)

lemma summerOffset_cases (t : ℤ) : summerOffset t = 2 * HOUR ∨ summerOffset t = HOUR := by
  unfold summerOffset
  split
  · exact .inl rfl
  · exact .inr rfl

/-- An hour ahead of UTC, and two in summer. -/
def summerTime : Timezone where
  offset := summerOffset
  aligned t := by
    rcases summerOffset_cases t with h | h <;> rw [h]
    · exact ⟨120, rfl⟩
    · exact ⟨60, rfl⟩
  bounded t := by
    rcases summerOffset_cases t with h | h <;> rw [h] <;> decide
  change t := by
    rcases summerOffset_cases t with h | h <;> rcases summerOffset_cases (t - 1) with h' | h' <;>
      rw [h, h'] <;> decide
  apart t u hlt ht hu := by
    rcases summer_change ht with rfl | rfl <;> rcases summer_change hu with rfl | rfl
    · exact absurd hlt (lt_irrefl _)
    · decide
    · exact absurd hlt (by decide)
    · exact absurd hlt (lt_irrefl _)

lemma summerTime_onMinutes : summerTime.OnMinutes := by
  intro t ht
  rcases summer_change ht with rfl | rfl
  · exact ⟨60, rfl⟩
  · exact ⟨210 * 1440 + 60, rfl⟩

/-- A daily window from 02:30 to 06:00, its occurrence of day 1 ended. -/
def earlyHours : Row where
  windowId := "w"
  revision := 1
  rule := .daily 150 360
  timezone := summerTime
  setAt := 0
  ended := some (.day 1)

/-- No clock shows 02:30 on day 0: the window starts at the jump, when it shows 03:00. On day 210 it
shows 02:30 twice, and the window starts at the first; day 1 was ended. -/
theorem quiet_hours_summer :
    (zonedLocalToInstant summerTime 0 150 = some SPRING ∧
      localFieldsMs summerTime SPRING = wanted 0 180) ∧
    (∃ st, quietStateFor (some earlyHours) SPRING = some st ∧ st.on = some (.day 0)) ∧
    (∃ st, quietStateFor (some earlyHours) (AUTUMN - 30 * MINUTE) = some st ∧
      st.on = some (.day 210) ∧ localFieldsMs summerTime (AUTUMN + 30 * MINUTE) = wanted 210 150) ∧
    ∀ t, ¬ ∃ st, quietStateFor (some earlyHours) t = some st ∧ st.on = some (.day 1) := by
  obtain ⟨-, -, hon, -⟩ :=
    quiet_hours earlyHours 150 360 ⟨rfl, rfl, by decide⟩ summerTime_onMinutes
  have hspring := (hon SPRING 0).mpr ⟨SPRING, 4 * HOUR, by decide +kernel, by decide +kernel,
    by decide, by decide, by decide⟩
  have hautumn := (hon (AUTUMN - 30 * MINUTE) 210).mpr ⟨AUTUMN - 30 * MINUTE, AUTUMN + 4 * HOUR,
    by decide +kernel, by decide +kernel, by decide, by decide, by decide⟩
  obtain ⟨st, hst, hday⟩ := hautumn
  refine ⟨⟨by decide +kernel, by decide⟩, hspring, ⟨st, hst, hday, by decide⟩, fun t ht => ?_⟩
  obtain ⟨s, e, -, -, -, -, hended⟩ := (hon t 1).mp ht
  exact hended rfl

def utc : Timezone where
  offset := fun _ => 0
  aligned := fun _ => dvd_zero _
  bounded := fun _ => by decide
  change := fun _ => by decide
  apart := fun _ _ _ h => absurd rfl h

/-- A daily window of the small hours in UTC. -/
def smallHours (ended : Option Occurrence) : Row where
  windowId := "w"
  revision := 1
  rule := .daily 60 120
  timezone := utc
  setAt := 0
  ended := ended

/-- A clock that jumps ahead by an hour half a minute past midnight. -/
def halfMinute : Timezone where
  offset := fun t => if t < 30000 then 0 else HOUR
  aligned := fun t => by
    split
    · exact dvd_zero _
    · exact ⟨60, rfl⟩
  bounded := fun t => by
    split
    · decide
    · decide
  change := fun t => by
    split
    · split
      · decide
      · decide
    · split
      · decide
      · decide
  apart := fun t u h ht hu => by
    split at ht
    · split at ht
      · exact absurd rfl ht
      · omega
    · split at ht
      · split at hu
        · omega
        · split at hu
          · omega
          · exact absurd rfl hu
      · exact absurd rfl ht

/-- Off the whole minute, 01:00 is first shown half a minute past midnight and resolves to 01:01. An
ended mark for the occurrence ahead leaves a start reported at which nothing starts. -/
theorem boundary_without_change :
    (localFieldsMs halfMinute 30000 = wanted 0 60 ∧
      zonedLocalToInstant halfMinute 0 60 = some 60000) ∧
    quietStateFor (some (smallHours (some (.day 0)))) 0 =
      some (.inactive "w" 1 (some (60 * MINUTE))) ∧
    quietStateFor (some (smallHours (some (.day 0)))) (60 * MINUTE) =
      some (.inactive "w" 1 (some (25 * 60 * MINUTE))) := by
  refine ⟨⟨by decide, by decide +kernel⟩, by decide +kernel, by decide +kernel⟩

end OpenRig.QuietWindows
