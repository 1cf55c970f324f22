import OpenRig.Appended
import OpenRig.Archiving

/-!
The outcomes a row keeps when it is rerouted.

A reroute writes its line at the end of the row's `resolution` and takes back the one the reroute
before it wrote. It finds that line by the note it printed: the note of the row's last reroute ends
in the line's reason, in brackets. A longer end of the field cannot be that reason, as the label
would have to end in an opening bracket; but once an outcome was stored after the line, a note
whose destination reads like the line may match the whole field.
-/

namespace OpenRig.Reroutes

open OpenRig.JsText OpenRig.Closure OpenRig.QueueDb OpenRig.Verbs OpenRig.Update OpenRig.Firing
open OpenRig.Runs OpenRig.Lifecycle OpenRig.RowEffects OpenRig.Propagation OpenRig.Moves
open OpenRig.Refinement OpenRig.ClosureFields OpenRig.Appended OpenRig.HistoryTables
open OpenRig.Archiving

/-! ### The field -/

/-- One writing into a row's `resolution`. -/
inductive Segment where
  | outcome (text : String)
  | line (reason : String)

def Segment.text : Segment → String
  | .outcome text => text
  | .line reason => "fallback: " ++ reason

/-- A text after what the field holds, on a line of its own. -/
def addLine (res : Option String) (text : String) : String :=
  match res.filter (· ≠ "") with
  | some r => r ++ "\n" ++ text
  | none => text

def render (segs : List Segment) : Option String :=
  segs.foldl (fun res seg => some (addLine res seg.text)) none

@[simp] lemma render_snoc (segs : List Segment) (seg : Segment) :
    render (segs ++ [seg]) = some (addLine (render segs) seg.text) := by
  simp [render]

/-! ### What an operation writes of a row's outcomes -/

/-- The outcome an update of the row stores: a text that is not blank, on the update that closes an
open row. -/
def storedOutcome (r : QueueItem) (input : QueueUpdateInput) : Option String :=
  input.resolution.filter fun text =>
    !isBlank text && r.state.isBlockerLive && input.state.any fun s => !s.isBlockerLive

/-- The outcome an operation stores on the row. -/
def outcomeOf (db : Db) (k : String) : Op → Option String
  | .update input =>
    if input.qitemId = k then (db.getById k).bind fun r => storedOutcome r input else none
  | _ => none

/-- The reason of a reroute of the row. -/
def reasonOf (k : String) : Op → Option String
  | .routeToFallback input => if input.qitemId = k then some input.reason else none
  | _ => none

/-- **What may happen to the field**: an outcome or a line is added at the end; a new line may take
the place of the line the reroute before it wrote, while nothing stands after that. -/
inductive Writes : List Segment → Option String → Option String → List Segment → Prop
  | kept (segs : List Segment) : Writes segs none none segs
  | stored (segs : List Segment) (text : String) :
    Writes segs (some text) none (segs ++ [.outcome text])
  | added (segs : List Segment) (reason : String) :
    Writes segs none (some reason) (segs ++ [.line reason])
  | replaced (segs : List Segment) (old reason : String) :
    Writes (segs ++ [.line old]) none (some reason) (segs ++ [.line reason])

/-- The operation commits and its writings are the field afterwards. -/
def Tracks (k : String) (p : Db × List Segment) (l : Env × Op) (p' : Db × List Segment) : Prop :=
  commits p.1 l p'.1 ∧ Writes p.2 (outcomeOf p.1 k l.2) (reasonOf k l.2) p'.2 ∧
    resolutionOf p'.1 k = render p'.2

/-! ### Whose line it is -/

/-- A line begins at `i` whose rest the printed note ends in, in brackets. -/
def startsAt (r printed : List Char) (i : ℕ) : Bool :=
  "fallback: ".toList.isPrefixOf (r.drop i) && (i = 0 || r[i - 1]? = some '\n') &&
    (" (".toList ++ r.drop (i + 10) ++ [')']).isSuffixOf printed

lemma fallbackLineStart_eq (db : Db) (qitemId resolution : String) :
    fallbackLineStart db qitemId resolution =
      (latestReroute false false (db.historyOf qitemId)).bind fun found =>
        if found.2 then
          if startsAt resolution.toList found.1.toList 0 then some 0 else none
        else (lineStarts resolution.toList).find? (startsAt resolution.toList found.1.toList) := by
  unfold fallbackLineStart
  cases latestReroute false false (db.historyOf qitemId) with
  | none => rfl
  | some found => rfl

def label : List Char := "fallback: ".toList

lemma startsAt_line {front x z : List Char} (hfront : front = [] ∨ ∃ p, front = p ++ ['\n']) :
    startsAt (front ++ (label ++ x)) (z ++ (" (".toList ++ x ++ [')'])) front.length = true := by
  unfold startsAt
  rw [List.drop_left, List.drop_append, List.drop_of_length_le (by omega), List.nil_append,
    show front.length + 10 - front.length = label.length by rw [Nat.add_sub_cancel_left]; rfl,
    List.drop_left, Bool.and_eq_true, Bool.and_eq_true]
  refine ⟨⟨List.isPrefixOf_iff_prefix.mpr (List.prefix_append _ _), ?_⟩,
    List.isSuffixOf_iff_suffix.mpr (List.suffix_append _ _)⟩
  rcases hfront with rfl | ⟨p, rfl⟩
  · rfl
  · simp

/-- **The label does not end in an opening bracket**: no note ends both in a reason, in brackets,
and in a longer text that ends in the reason's line. -/
lemma not_longer {x y z : List Char} :
    ¬ (" (".toList ++ (y ++ (label ++ x)) ++ [')']) <:+ z ++ (" (".toList ++ x ++ [')']) := by
  intro h
  have hshort : (" (".toList ++ x ++ [')']) <:+ z ++ (" (".toList ++ x ++ [')']) :=
    List.suffix_append _ _
  have hline : (label ++ x ++ [')']) <:+ z ++ (" (".toList ++ x ++ [')']) := by
    refine List.IsSuffix.trans ⟨" (".toList ++ y, ?_⟩ h
    simp
  have hlen : " (".toList.length ≤ label.length := by decide
  obtain ⟨w, hw⟩ := List.suffix_of_suffix_length_le hshort hline (by
    simp only [List.length_append]
    omega)
  have hw : (w ++ " (".toList) ++ (x ++ [')']) = label ++ (x ++ [')']) := by
    simpa only [List.append_assoc] using hw
  have hlast := congrArg List.getLast? (List.append_cancel_right hw)
  have hopen : " (".toList.getLast? = some '(' := by decide
  have hspace : label.getLast? = some ' ' := by decide
  rw [List.getLast?_append, hopen, hspace] at hlast
  exact absurd (Option.some.inj hlast) (by decide)

lemma startsAt_before {p x z : List Char} {i : ℕ} (hi : i ≤ p.length) :
    startsAt (p ++ '\n' :: (label ++ x)) (z ++ (" (".toList ++ x ++ [')'])) i = false := by
  by_contra h
  rw [Bool.not_eq_false] at h
  unfold startsAt at h
  rw [Bool.and_eq_true, Bool.and_eq_true] at h
  obtain ⟨⟨hstart, -⟩, hend⟩ := h
  obtain ⟨rest, hrest⟩ := List.isPrefixOf_iff_prefix.mp hstart
  -- the label holds no line break, so it ends before the one in front of the line
  have hfar : i + 10 ≤ p.length := by
    by_contra hnear
    have hbreak : (p ++ '\n' :: (label ++ x))[p.length]? = some '\n' := by simp
    have hat : ((p ++ '\n' :: (label ++ x)).drop i)[p.length - i]? = some '\n' := by
      rw [List.getElem?_drop, Nat.add_sub_cancel' hi, hbreak]
    rw [← hrest, List.getElem?_append_left (by simp; omega)] at hat
    have hmem : '\n' ∈ "fallback: ".toList := List.mem_of_getElem? hat
    revert hmem
    decide
  rw [List.drop_append_of_le_length hfar] at hend
  refine not_longer (x := x) (y := p.drop (i + 10) ++ ['\n']) (z := z) ?_
  simpa using List.isSuffixOf_iff_suffix.mp hend

/-! ### The row's last reroute -/

lemma latestReroute_plain {x : Transition} (h : reroutes x = false) (newerClosed mayFollow : Bool)
    (rest : List Transition) :
    latestReroute newerClosed mayFollow (x :: rest) = latestReroute (!x.state.isBlockerLive)
      (mayFollow || (newerClosed && x.state.isBlockerLive)) rest := by
  unfold reroutes at h
  rw [latestReroute]
  cases hn : x.transitionNote with
  | none => rfl
  | some note =>
    rw [hn, Option.any_some] at h
    dsimp only
    rw [h]
    rfl

lemma latestReroute_found {x : Transition} (h : reroutes x = true) (newerClosed mayFollow : Bool)
    (rest : List Transition) :
    ∃ note, x.transitionNote = some note ∧ latestReroute newerClosed mayFollow (x :: rest) =
      some (note, mayFollow || (newerClosed && x.state.isBlockerLive)) := by
  unfold reroutes at h
  rw [latestReroute]
  cases hn : x.transitionNote with
  | none => simp [hn] at h
  | some note =>
    rw [hn, Option.any_some] at h
    refine ⟨note, rfl, ?_⟩
    dsimp only
    rw [h]
    rfl

lemma latestReroute_lower {l : List Transition} {nc mf nc' mf' b : Bool} {note : String}
    (h : latestReroute nc mf l = some (note, b)) (hn : nc' = true → nc = true)
    (hm : mf' = true → mf = true) :
    ∃ b', latestReroute nc' mf' l = some (note, b') ∧ (b' = true → b = true) := by
  induction l generalizing nc mf nc' mf' with
  | nil => cases h
  | cons x rest ih =>
    cases hx : reroutes x with
    | false =>
      rw [latestReroute_plain hx] at h ⊢
      refine ih h id ?_
      cases nc <;> cases mf <;> simp_all
    | true =>
      obtain ⟨n, hnote, hfound⟩ := latestReroute_found hx nc mf rest
      obtain ⟨n', hnote', hfound'⟩ := latestReroute_found hx nc' mf' rest
      rw [hfound] at h
      cases h
      cases hnote.symm.trans hnote'
      refine ⟨_, hfound', ?_⟩
      cases nc <;> cases mf <;> simp_all

lemma latestReroute_true {l : List Transition} {nc b : Bool} {note : String}
    (h : latestReroute nc true l = some (note, b)) : b = true := by
  induction l generalizing nc with
  | nil => cases h
  | cons x rest ih =>
    cases hx : reroutes x with
    | false =>
      rw [latestReroute_plain hx, Bool.true_or] at h
      exact ih h
    | true =>
      obtain ⟨n, -, hfound⟩ := latestReroute_found hx nc true rest
      rw [hfound, Bool.true_or] at h
      cases h
      rfl

lemma latestReroute_append {new l : List Transition} (hnew : ∀ x ∈ new, reroutes x = false)
    {nc mf b : Bool} {note : String} (h : latestReroute nc mf (new ++ l) = some (note, b)) :
    ∃ b', latestReroute false false l = some (note, b') ∧ (b' = true → b = true) := by
  induction new generalizing nc mf with
  | nil => exact latestReroute_lower h (by simp) (by simp)
  | cons x new ih =>
    rw [List.cons_append, latestReroute_plain (hnew x List.mem_cons_self)] at h
    exact ih (fun y hy => hnew y (List.mem_cons_of_mem _ hy)) h

lemma latestReroute_closed {x y : Transition} {l : List Transition} {b : Bool} {note : String}
    (hx : reroutes x = false) (hdead : x.state.isBlockerLive = false)
    (hlive : y.state.isBlockerLive = true)
    (h : latestReroute false false (x :: y :: l) = some (note, b)) : b = true := by
  rw [latestReroute_plain hx, hdead] at h
  cases hy : reroutes y with
  | false =>
    rw [latestReroute_plain hy, hlive] at h
    exact latestReroute_true h
  | true =>
    obtain ⟨n, -, hfound⟩ := latestReroute_found hy (!false) (false || (false && false)) l
    rw [hfound, hlive] at h
    cases h
    rfl

/-! ### The line a reroute takes back -/

lemma some_fallbackResolution (db : Db) (qitem : QueueItem) (reason : String) :
    fallbackResolution db qitem reason = addLine
      (match qitem.resolution.filter (· ≠ "") with
        | none => qitem.resolution
        | some text => match fallbackLineStart db qitem.qitemId text with
          | some start => some (String.ofList (text.toList.take (start - 1)))
          | none => qitem.resolution) ("fallback: " ++ reason) := rfl

lemma fallbackResolution_added {db : Db} {qitem : QueueItem} {reason : String}
    (h : ∀ text, qitem.resolution = some text →
      fallbackLineStart db qitem.qitemId text = none) :
    fallbackResolution db qitem reason = addLine qitem.resolution ("fallback: " ++ reason) := by
  rw [some_fallbackResolution]
  congr 1
  cases hres : qitem.resolution with
  | none => rfl
  | some text =>
    cases hf : (some text).filter (· ≠ "") with
    | none => rfl
    | some t =>
      obtain ⟨ht, -⟩ := Option.filter_eq_some_iff.mp hf
      cases ht
      dsimp only
      rw [h text hres]

lemma addLine_toList (res : Option String) (x : String) :
    ∃ front : List Char, (front = [] ∧ res.filter (· ≠ "") = none ∨
        ∃ r, front = r.toList ++ ['\n'] ∧ res.filter (· ≠ "") = some r) ∧
      (addLine res ("fallback: " ++ x)).toList = front ++ (label ++ x.toList) := by
  unfold addLine
  cases hres : res.filter (· ≠ "") with
  | none => exact ⟨[], .inl ⟨rfl, rfl⟩, by rw [String.toList_append]; rfl⟩
  | some r =>
    refine ⟨r.toList ++ ['\n'], .inr ⟨r, rfl, rfl⟩, ?_⟩
    have hbreak : "\n".toList = ['\n'] := by decide
    rw [String.toList_append, String.toList_append, String.toList_append, hbreak]
    unfold label
    simp only [List.append_assoc]

lemma fallbackResolution_replaced {db : Db} {qitem : QueueItem} {res : Option String}
    {reason x : String} {front : List Char}
    (hres : qitem.resolution = some (addLine res ("fallback: " ++ x)))
    (hfront : front = [] ∧ res.filter (· ≠ "") = none ∨
      ∃ r, front = r.toList ++ ['\n'] ∧ res.filter (· ≠ "") = some r)
    (htext : (addLine res ("fallback: " ++ x)).toList = front ++ (label ++ x.toList))
    (hstart : fallbackLineStart db qitem.qitemId (addLine res ("fallback: " ++ x)) =
      some front.length) :
    fallbackResolution db qitem reason = addLine res ("fallback: " ++ reason) := by
  have hne : addLine res ("fallback: " ++ x) ≠ "" := by
    intro h
    have hlen := congrArg (fun s : String => s.toList.length) h
    have hlabel : label.length = 10 := by decide
    simp only [htext, List.length_append, hlabel] at hlen
    have hempty : "".toList.length = 0 := by decide
    omega
  rw [some_fallbackResolution, hres]
  have hfilter : (some (addLine res ("fallback: " ++ x))).filter (· ≠ "") =
      some (addLine res ("fallback: " ++ x)) := by
    simp [Option.filter, hne]
  rw [hfilter]
  dsimp only
  rw [hstart, htext]
  unfold addLine
  dsimp only
  rcases hfront with ⟨rfl, hnone⟩ | ⟨r, rfl, hsome⟩
  · rw [hnone]
    rfl
  · rw [hsome]
    have hcut : (r.toList ++ ['\n'] ++ (label ++ x.toList)).take
        ((r.toList ++ ['\n']).length - 1) = r.toList := by simp
    rw [hcut, String.ofList_toList]
    obtain ⟨-, hr⟩ := Option.filter_eq_some_iff.mp hsome
    simp only [Option.filter, hr, if_true]

/-! ### What an operation leaves of one row -/

lemma note_toList (a b x : String) :
    ∃ z, ("fallback-routed: " ++ a ++ " → " ++ b ++ " (" ++ x ++ ")").toList =
      z ++ (" (".toList ++ x.toList ++ [')']) := by
  have hclose : ")".toList = [')'] := by decide
  refine ⟨("fallback-routed: " ++ a ++ " → " ++ b).toList, ?_⟩
  rw [String.toList_append, String.toList_append, String.toList_append, hclose]
  simp only [List.append_assoc]

lemma routeToFallback_eq_ok {env : Env} {db db' : Db} {input : FallbackInput}
    (h : routeToFallback env db input = .ok db') :
    ∃ qitem x, db.getById input.qitemId = some qitem ∧ reroutes x = true ∧
      x.transitionNote = some ("fallback-routed: " ++ qitem.destinationSession ++ " → " ++
        input.fallbackDestination ++ " (" ++ input.reason ++ ")") ∧
      Appends (fun _ => True) db.transitions db'.transitions ∧
      (∀ k, db'.historyOf k = if k = input.qitemId then x :: db.historyOf k else db.historyOf k) ∧
      ∀ k, resolutionOf db' k = if k = input.qitemId then
        some (fallbackResolution db qitem input.reason) else resolutionOf db k := by
  unfold routeToFallback at h
  obtain ⟨qitem, hr, h⟩ := bind_eq_ok.mp h
  have hr := requireItem_eq_ok.mp hr
  cases pure_eq_ok.mp h
  set db₁ := db.updateRow input.qitemId
    (fallbackRow env input (fallbackResolution db qitem input.reason)) with hdb₁
  set db₂ := if armedQueueWait db₁ input.qitemId = true then db₁ else
    Watchdogs.retireParkGeneratedTimer db₁ input.qitemId "park_rerouted" with hdb₂
  have hitems : db₂.items = db₁.items := by
    rw [hdb₂]
    split
    · rfl
    · exact Watchdogs.items_retireParkGeneratedTimer _ _ _
  have hlog : db₂.transitions = db.transitions := by
    rw [hdb₂]
    split
    · rfl
    · rw [Watchdogs.transitions_retireParkGeneratedTimer]
      rfl
  refine ⟨qitem, TransitionInput.toTransition
    { qitemId := input.qitemId, state := qitem.state, actorSession := fallbackActor,
      transitionNote := some ("fallback-routed: " ++ qitem.destinationSession ++ " → " ++
        input.fallbackDestination ++ " (" ++ input.reason ++ ")"),
      closureTarget := if qitem.state = .inProgress then db₂.retainedClaimBlocker input.qitemId
        else none } db₂.nextTransitionId env.now, hr, ?_, rfl, ?_, fun k => ?_, fun k => ?_⟩
  · have hstart : startsWith ("fallback-routed: " ++ qitem.destinationSession ++ " → " ++
        input.fallbackDestination ++ " (" ++ input.reason ++ ")") "fallback-routed: " = true := by
      rw [String.append_assoc, String.append_assoc, String.append_assoc, String.append_assoc,
        String.append_assoc]
      exact startsWith_append _ _
    simp [reroutes, TransitionInput.toTransition, hstart]
  · have hgrown : Appends (fun _ => True) db.transitions db₂.transitions := by
      rw [hlog]
      exact .refl _
    exact hgrown.cons env.now trivial
  · rw [Db.historyOf_emit, Db.historyOf_append]
    have hkeep : db₂.historyOf k = db.historyOf k := by
      unfold Db.historyOf
      rw [hlog]
    rw [hkeep]
  · have hget : ∀ k, resolutionOf db₂ k = resolutionOf db₁ k := by
      intro k
      unfold resolutionOf Db.getById
      rw [hitems]
    change resolutionOf db₂ k = _
    have hrow := Db.getById_updateRow db input.qitemId
      (fallbackRow env input (fallbackResolution db qitem input.reason)) (fun _ => rfl) k
    rw [hget]
    refine (congrArg (Option.bind · QueueItem.resolution) hrow).trans ?_
    unfold resolutionOf
    split
    · rename_i hk
      rw [hk, hr]
      rfl
    · rfl

lemma leaves_history {S : String → Prop} {db db' : Db} (h : Leaves S Plain db db') (k : String) :
    ∃ new, db'.historyOf k = new ++ db.historyOf k ∧ ∀ x ∈ new, reroutes x = false := by
  obtain ⟨new, hnew, hall⟩ := h.log.split
  refine ⟨new.filter (·.qitemId = k), ?_, fun x hx => ?_⟩
  · unfold Db.historyOf
    rw [hnew, List.filter_append]
  · obtain ⟨t, id, ts, ht, rfl⟩ := hall x (List.mem_of_mem_filter hx)
    exact ht id ts

lemma update_resolution {env : Env} {db db' : Db} {input : QueueUpdateInput} {r : QueueItem}
    (h : update env db input = .ok db') (hr : db.getById input.qitemId = some r) :
    resolutionOf db' input.qitemId = match storedOutcome r input with
      | some text => some (addLine r.resolution text)
      | none => r.resolution := by
  have hkept : resolutionOf db input.qitemId = r.resolution := by
    unfold resolutionOf
    rw [hr]
    rfl
  have hnone : ∀ deadline, appendOnly env db r input deadline = .ok db' →
      (input.state.any fun s => r.state.isBlockerLive && !s.isBlockerLive) = false →
      resolutionOf db' input.qitemId = match storedOutcome r input with
        | some text => some (addLine r.resolution text)
        | none => r.resolution := by
    intro deadline happend hopen
    have hout := (appendOnly_leaves (S := fun _ => False) happend).outcomes input.qitemId id
    have hstored : storedOutcome r input = none := by
      unfold storedOutcome
      cases input.resolution with
      | none => rfl
      | some text =>
        cases hs : input.state with
        | none => simp [Option.filter]
        | some s =>
          rw [hs, Option.any_some] at hopen
          simp [Option.filter, Bool.and_assoc, hopen]
    rw [hstored, hout, hkept]
  unfold update at h
  obtain ⟨q, hq, h⟩ := bind_eq_ok.mp h
  cases (requireItem_eq_ok.mp hq).symm.trans hr
  have hid := Db.getById_id hr
  obtain ⟨deadline, -, h⟩ := bind_eq_ok.mp h
  split at h
  · rename_i hkeep
    refine hnone deadline h ?_
    unfold isStatePreservingAppend at hkeep
    cases hs : input.state with
    | none => rfl
    | some s =>
      rw [hs] at hkeep
      rw [Option.any_some]
      cases hl : r.state.isBlockerLive with
      | false => rfl
      | true =>
        have hg : r.state.isGuardedTerminal = false := by
          cases hst : r.state <;> simp_all [QueueState.isBlockerLive, QueueState.isGuardedTerminal]
        simp only [hg, Option.isNone_some, Bool.false_or, Bool.false_and, Bool.and_eq_true,
          decide_eq_true_eq, Option.some.injEq] at hkeep
        rw [hkeep.2, hl]
        rfl
  · split at h
    · rename_i hs
      exact hnone deadline h (by rw [hs]; rfl)
    · rename_i state hstate
      obtain ⟨plan, hplan, h⟩ := bind_eq_ok.mp h
      have hplan := (admitUpdate_eq_ok hplan).state_eq
      obtain ⟨⟨wake, jobs⟩, -, h⟩ := bind_eq_ok.mp h
      unfold applyUpdate at h
      simp only [hid] at h
      have hnext : nextResolution r plan input = match storedOutcome r input with
          | some text => some (addLine r.resolution text)
          | none => r.resolution := by
        unfold nextResolution storedOutcome addLine
        rw [hstate, hplan, Option.any_some]
        dsimp only
        cases (input.resolution.filter fun text => !isBlank text &&
          r.state.isBlockerLive && !state.isBlockerLive) with
        | none => rfl
        | some text => cases r.resolution.filter (· ≠ "") <;> rfl
      rw [← hnext]
      have hmoved : ∀ d : Db, d.items = ((db.setJobs jobs).updateRow input.qitemId
          (movedRow env plan input (nextResolution r plan input))).items →
          resolutionOf d input.qitemId = nextResolution r plan input := by
        intro d hd
        have hrow := Db.getById_updateRow (db.setJobs jobs) input.qitemId
          (movedRow env plan input (nextResolution r plan input)) (fun _ => rfl) input.qitemId
        rw [if_pos rfl, Db.getById_setJobs, hr] at hrow
        unfold resolutionOf Db.getById
        rw [hd]
        exact congrArg (Option.bind · QueueItem.resolution) hrow
      split at h
      · obtain ⟨db₁, hprop, h⟩ := bind_eq_ok.mp h
        cases pure_eq_ok.mp hprop
        cases pure_eq_ok.mp h
        exact hmoved _ (items_settleParkWake _ _ _ _ _)
      · obtain ⟨db₁, hprop, h⟩ := bind_eq_ok.mp h
        cases pure_eq_ok.mp h
        have hout := (propagate_leaves (S := fun _ => False) hprop).outcomes input.qitemId id
        exact Eq.trans hout (hmoved _ (items_settleParkWake _ _ _ _ _))

lemma stored_closes {env : Env} {db db' : Db} {input : QueueUpdateInput} {r : QueueItem}
    {text : String} (hatt : attested input.actorSession input.identityProvenance)
    (h : update env db input = .ok db') (hr : db.getById input.qitemId = some r)
    (ho : storedOutcome r input = some text) :
    r.state.isBlockerLive = true ∧ ∃ x, db'.historyOf input.qitemId =
      x :: db.historyOf input.qitemId ∧ x.state.isBlockerLive = false ∧ reroutes x = false := by
  obtain ⟨-, hp⟩ := Option.filter_eq_some_iff.mp ho
  rw [Bool.and_eq_true, Bool.and_eq_true, Option.any_eq_true] at hp
  obtain ⟨⟨-, hlive⟩, s, hs, hdead⟩ := hp
  have hdead : s.isBlockerLive = false := by simpa using hdead
  refine ⟨hlive, ?_⟩
  have hstep : ∃ m,
    m.state = s ∧ Step (view db input.qitemId) (.move m) (view db' input.qitemId) := by
    cases update_eq_ok h with
    | append hr' hkeep =>
      cases hr'.symm.trans hr
      exfalso
      have hg : r.state.isGuardedTerminal = false := by
        cases hst : r.state <;> simp_all [QueueState.isBlockerLive, QueueState.isGuardedTerminal]
      have hne : s ≠ r.state := by
        rintro rfl
        rw [hlive] at hdead
        cases hdead
      simp [isStatePreservingAppend, hs, hg, hne] at hkeep
    | move hr' hstate _ hl =>
      cases hs.symm.trans hstate
      rw [hdead] at hl
      cases hl
    | close hr' hstate hplan _ _ hclosed =>
      cases hr'.symm.trans hr
      cases hs.symm.trans hstate
      exact ⟨_, hplan.state_eq, hclosed.source⟩
  obtain ⟨m, hm, hstep⟩ := hstep
  obtain ⟨new, hnew, hplain⟩ :=
    leaves_history ((update_leaves h).mono fun _ ht => ht hatt) input.qitemId
  rw [view_of_getById hr] at hstep
  generalize hv : view db' input.qitemId = v' at hstep
  cases hstep
  obtain ⟨r', -, hl'⟩ := view_eq_some.mp hv
  have hmarks : marks db' input.qitemId =
      ⟨m.state, m.closureReason, m.closureTarget, m.note⟩ :: marks db input.qitemId :=
    congrArg Life.history hl'
  unfold marks at hmarks
  rw [hnew, List.map_append] at hmarks
  have hlen := congrArg List.length hmarks
  rw [List.length_append, List.length_cons, List.length_map] at hlen
  obtain ⟨x, rfl⟩ := List.length_eq_one_iff.mp (show new.length = 1 by omega)
  refine ⟨x, hnew, ?_, hplain x List.mem_cons_self⟩
  have hx := congrArg List.head? hmarks
  have hx : x.state = m.state := congrArg Mark.state (Option.some.inj hx)
  rw [hx, hm]
  exact hdead

/-! ### Runs -/

/-- The note of the row's last reroute reads as if the whole field were its line. -/
def readsAsLine (db : Db) (k : String) : Bool :=
  match latestReroute false false (db.historyOf k), resolutionOf db k with
  | some found, some text => startsAt text.toList found.1.toList 0
  | _, _ => false

/-- Whether an outcome of the row was stored since its last reroute. -/
def stillStored (k : String) (db : Db) (op : Op) (stored : Bool) : Bool :=
  if (reasonOf k op).isSome then false else stored || (outcomeOf db k op).isSome

/-- **When a reroute tells outcome and line apart**: an operation commits, its caller's name is its
own, and where an outcome was stored since the last reroute, that reroute's note does not read as
if the whole field were its line. -/
structure Clearly (k : String) (p : Db × Bool) (l : Env × Op) (p' : Db × Bool) : Prop where
  commits : commits p.1 l p'.1
  stored : p'.2 = stillStored k p.1 l.2 p.2
  attested : Attested l.2
  clear : (reasonOf k l.2).isSome = true → p.2 = true → readsAsLine p.1 k = false

/-- What holds of the row between the operations. -/
structure Traced (k : String) (db : Db) (stored : Bool) (segs : List Segment) : Prop where
  field : resolutionOf db k = render segs
  line : stored = false → ∀ note b, latestReroute false false (db.historyOf k) = some (note, b) →
    ∃ z x pre, note.toList = z ++ (" (".toList ++ String.toList x ++ [')']) ∧
      segs = pre ++ [.line x]
  outcome : stored = true → ∀ note b,
    latestReroute false false (db.historyOf k) = some (note, b) → b = true

lemma Traced.kept {k : String} {db db' : Db} {stored : Bool} {segs : List Segment}
    (h : Traced k db stored segs) (hres : resolutionOf db' k = resolutionOf db k)
    {new : List Transition} (hnew : db'.historyOf k = new ++ db.historyOf k)
    (hplain : ∀ x ∈ new, reroutes x = false) : Traced k db' stored segs where
  field := hres.trans h.field
  line := by
    intro hs note b hfound
    rw [hnew] at hfound
    obtain ⟨b', hold, -⟩ := latestReroute_append hplain hfound
    exact h.line hs note b' hold
  outcome := by
    intro hs note b hfound
    rw [hnew] at hfound
    obtain ⟨b', hold, himp⟩ := latestReroute_append hplain hfound
    exact himp (h.outcome hs note b' hold)

lemma Traced.update {k : String} {env : Env} {db db' : Db} {stored : Bool} {segs : List Segment}
    {input : QueueUpdateInput} (h : Traced k db stored segs) (hlog : Logged db)
    (hatt : attested input.actorSession input.identityProvenance)
    (hu : Update.update env db input = .ok db') (hk : input.qitemId = k) :
    ∃ segs', Writes segs (outcomeOf db k (.update input)) none segs' ∧
      Traced k db' (stored || (outcomeOf db k (.update input)).isSome) segs' := by
  subst hk
  obtain ⟨r, hr⟩ : ∃ r, db.getById input.qitemId = some r := by
    cases update_eq_ok hu with
    | append hr => exact ⟨_, hr⟩
    | move hr => exact ⟨_, hr⟩
    | close hr => exact ⟨_, hr⟩
  have hof : outcomeOf db input.qitemId (.update input) = storedOutcome r input := by
    simp [outcomeOf, hr]
  have hkept : resolutionOf db input.qitemId = r.resolution := by
    unfold resolutionOf
    rw [hr]
    rfl
  have hres := update_resolution hu hr
  rw [hof]
  cases ho : storedOutcome r input with
  | none =>
    obtain ⟨new, hnew, hplain⟩ :=
      leaves_history ((update_leaves hu).mono fun _ ht => ht hatt) input.qitemId
    rw [ho] at hres
    refine ⟨segs, .kept segs, ?_⟩
    simpa using h.kept (hres.trans hkept.symm) hnew hplain
  | some text =>
    rw [ho] at hres
    obtain ⟨hlive, x, hnew, hdead, hplain⟩ := stored_closes hatt hu hr ho
    refine ⟨_, .stored segs text, ?_, fun hs => by simp at hs, fun _ note b hfound => ?_⟩
    · rw [hres, render_snoc, ← h.field, hkept]
      rfl
    · have hhead := hlog input.qitemId _ (view_of_getById hr)
      have hhead : (marks db input.qitemId).head?.map Mark.state = some r.state := hhead
      unfold marks at hhead
      rw [hnew] at hfound
      cases hist : db.historyOf input.qitemId with
      | nil =>
        rw [hist] at hhead
        cases hhead
      | cons y l =>
        rw [hist] at hhead hfound
        have hy : y.state = r.state := Option.some.inj hhead
        exact latestReroute_closed hplain hdead (hy ▸ hlive) hfound

lemma Traced.reroute {k : String} {env : Env} {db db' : Db} {stored : Bool} {segs : List Segment}
    {input : FallbackInput} (h : Traced k db stored segs)
    (hr : routeToFallback env db input = .ok db') (hk : input.qitemId = k)
    (hclear : stored = true → readsAsLine db k = false) :
    ∃ segs', Writes segs none (some input.reason) segs' ∧ Traced k db' false segs' := by
  subst hk
  obtain ⟨qitem, x, hget, hx, hnote, -, hlog, hfield⟩ := routeToFallback_eq_ok hr
  have hid : qitem.qitemId = input.qitemId := Db.getById_id hget
  have hkept : qitem.resolution = render segs := by
    have hfield := h.field
    unfold resolutionOf at hfield
    rw [hget] at hfield
    exact hfield
  have hlog := hlog input.qitemId
  have hfield := hfield input.qitemId
  rw [if_pos rfl] at hlog hfield
  -- whichever line is there afterwards, the newest reroute printed its reason
  have htraced : ∀ pre, some (fallbackResolution db qitem input.reason) =
      render (pre ++ [.line input.reason]) →
      Traced input.qitemId db' false (pre ++ [.line input.reason]) := by
    intro pre hpre
    refine ⟨hfield.trans hpre, fun _ note b hfound => ?_, fun hs => by cases hs⟩
    obtain ⟨n, hn, hfirst⟩ := latestReroute_found hx false false (db.historyOf input.qitemId)
    rw [hlog, hfirst] at hfound
    cases hfound
    cases hn.symm.trans hnote
    obtain ⟨z, hz⟩ := note_toList qitem.destinationSession input.fallbackDestination input.reason
    exact ⟨z, input.reason, pre, hz, rfl⟩
  have hadded : (∀ text, qitem.resolution = some text →
      fallbackLineStart db qitem.qitemId text = none) →
      ∃ segs', Writes segs none (some input.reason) segs' ∧
        Traced input.qitemId db' false segs' := by
    intro hnone
    refine ⟨_, .added segs input.reason, htraced segs ?_⟩
    rw [fallbackResolution_added hnone, render_snoc, hkept]
    rfl
  cases hfound : latestReroute false false (db.historyOf input.qitemId) with
  | none =>
    refine hadded fun text _ => ?_
    rw [fallbackLineStart_eq, hid, hfound]
    rfl
  | some found =>
    obtain ⟨note, b⟩ := found
    cases hs : stored with
    | true =>
      have hb := h.outcome hs note b hfound
      have hreads := hclear hs
      refine hadded fun text htext => ?_
      unfold readsAsLine at hreads
      rw [hfound, h.field, ← hkept, htext] at hreads
      rw [fallbackLineStart_eq, hid, hfound, Option.bind_some, hb]
      simp only [if_true]
      rw [if_neg (by simpa using hreads)]
    | false =>
      obtain ⟨z, x, pre, hz, rfl⟩ := h.line hs note b hfound
      rw [render_snoc] at hkept
      obtain ⟨front, hfront, htext⟩ := addLine_toList (render pre) x
      have hends : front = [] ∨ ∃ p, front = p ++ ['\n'] := by
        rcases hfront with ⟨hnil, -⟩ | ⟨r, hr, -⟩
        · exact .inl hnil
        · exact .inr ⟨_, hr⟩
      have hat := startsAt_line (x := x.toList) (z := z) hends
      have hbefore : ∀ i, i < front.length →
          startsAt (front ++ (label ++ x.toList)) note.toList i = false := by
        intro i hi
        rcases hends with rfl | ⟨p, rfl⟩
        · cases hi
        · rw [hz, List.append_assoc]
          exact startsAt_before (by simpa using hi)
      rw [← hz] at hat
      have hreplaced : fallbackLineStart db qitem.qitemId
          (addLine (render pre) ("fallback: " ++ x)) = some front.length →
          ∃ segs', Writes (pre ++ [.line x]) none (some input.reason) segs' ∧
            Traced input.qitemId db' false segs' := by
        intro hstart
        refine ⟨_, .replaced pre x input.reason, htraced pre ?_⟩
        rw [fallbackResolution_replaced hkept hfront htext hstart, render_snoc]
        rfl
      have hscan := fallbackLineStart_eq db qitem.qitemId
        (addLine (render pre) ("fallback: " ++ x))
      rw [hid, hfound, Option.bind_some, htext] at hscan
      cases hb : b with
      | true =>
        rw [hb] at hscan
        simp only [if_true] at hscan
        by_cases hnil : front = []
        · subst hnil
          have hat : startsAt ([] ++ (label ++ x.toList)) note.toList 0 = true := hat
          rw [if_pos hat] at hscan
          exact hreplaced (hid ▸ hscan)
        · have hpos : 0 < front.length := List.length_pos_iff.mpr hnil
          rw [hbefore 0 hpos] at hscan
          refine hadded fun text ht => ?_
          cases hkept.symm.trans ht
          exact hid ▸ hscan
      | false =>
        rw [hb] at hscan
        refine hreplaced ?_
        rw [hid, hscan]
        simp only [Bool.false_eq_true, if_false]
        unfold lineStarts
        rw [List.find?_filter, List.find?_range_eq_some]
        have hlabel : label.length = 10 := by decide
        have hbreak : (decide (front.length = 0) ||
            decide ((front ++ (label ++ x.toList))[front.length - 1]? = some '\n')) = true := by
          rcases hends with rfl | ⟨p, rfl⟩
          · rfl
          · simp
        refine ⟨?_, ?_, fun i hi => ?_⟩
        · simp only [hat, hbreak, and_self, decide_true]
        · simp only [List.length_append, hlabel, List.mem_range]
          omega
        · simp only [hbefore i hi, Bool.false_eq_true, and_false, decide_false, Bool.not_false]

/-- **One operation** leaves the row traced, with one writing at most. -/
lemma traced_step {k : String} {p p' : Db × Bool} {l : Env × Op} {segs : List Segment}
    (h : Clearly k p l p') (hlog : Logged p.1) (ht : Traced k p.1 p.2 segs) :
    ∃ segs', Writes segs (outcomeOf p.1 k l.2) (reasonOf k l.2) segs' ∧
      Traced k p'.1 p'.2 segs' := by
  obtain ⟨db, stored⟩ := p
  obtain ⟨db', stored'⟩ := p'
  obtain ⟨env, op⟩ := l
  have hstored : stored' = stillStored k db op stored := h.stored
  have hexec : exec env db op = .ok db' := h.commits
  have hatt : Attested op := h.attested
  have hother : (∀ input, op ≠ .routeToFallback input) → ¬ written op k →
      outcomeOf db k op = none → reasonOf k op = none → ∃ segs',
        Writes segs (outcomeOf db k op) (reasonOf k op) segs' ∧ Traced k db' stored' segs' := by
    intro hno hwritten hout hreason
    have hleaves := exec_leaves hexec hatt hno
    obtain ⟨new, hnew, hplain⟩ := leaves_history hleaves k
    have hsame : stored' = stored := by
      rw [hstored]
      simp [stillStored, hout, hreason]
    rw [hout, hreason, hsame]
    exact ⟨segs, .kept segs, ht.kept (hleaves.outcomes k hwritten) hnew hplain⟩
  cases op with
  | update input =>
    by_cases hk : input.qitemId = k
    · obtain ⟨segs', hw, ht'⟩ := ht.update hlog hatt hexec hk
      refine ⟨segs', hw, ?_⟩
      rw [hstored]
      exact ht'
    · exact hother (fun _ => nofun) (fun hw => hk hw.1.symm) (if_neg hk) rfl
  | routeToFallback input =>
    by_cases hk : input.qitemId = k
    · have hreason : reasonOf k (.routeToFallback input) = some input.reason := if_pos hk
      obtain ⟨segs', hw, ht'⟩ := ht.reroute hexec hk fun hs => h.clear (by rw [hreason]; rfl) hs
      refine ⟨segs', ?_, ?_⟩
      · rw [hreason]
        exact hw
      · have hsame : stored' = false := by
          rw [hstored]
          simp [stillStored, hreason]
        rw [hsame]
        exact ht'
    · obtain ⟨_, _, -, -, -, -, hhist, hres⟩ := routeToFallback_eq_ok hexec
      have hreason : reasonOf k (.routeToFallback input) = none := if_neg hk
      have hsame : stored' = stored := by
        rw [hstored]
        simp [stillStored, hreason, outcomeOf]
      have hne : ¬ k = input.qitemId := fun e => hk e.symm
      rw [hreason, hsame]
      have hnew : db'.historyOf k = [] ++ db.historyOf k := (hhist k).trans (if_neg hne)
      exact ⟨segs, .kept segs, ht.kept ((hres k).trans (if_neg hne)) hnew (by simp)⟩
  | _ => exact hother (fun _ => nofun) id rfl rfl

lemma exec_appends {env : Env} {db db' : Db} {op : Op} (h : exec env db op = .ok db') :
    Appends (fun _ => True) db.transitions db'.transitions := by
  by_cases hno : ∀ input, op ≠ .routeToFallback input
  · exact (exec_leaves_if h hno).log.mono fun _ _ => trivial
  · push Not at hno
    obtain ⟨input, rfl⟩ := hno
    obtain ⟨_, _, -, -, -, happ, -⟩ := routeToFallback_eq_ok (show routeToFallback _ _ _ = _ from h)
    exact happ

/-! ### The log in two tables -/

/-- The log of `db`, with the older part of a row's in the archive. -/
structure Stored (db : Db) (t : Tables) : Prop where
  history : t.historySource.Perm db.transitions
  apart : ∀ x ∈ t.live, ∀ y ∈ t.archive.map Prod.fst, y.qitemId = x.qitemId →
    y.transitionId < x.transitionId

/-- The row's log as the reroute reads it: the live table and then the archive, each newest first.
The loop carries its flags from one to the other. -/
def readBack (db : Db) (t : Tables) (k : String) : Db :=
  { db with transitions := liveLog t k ++ archivedLog t k }

lemma Stored.historyOf {db : Db} {t : Tables} (h : Stored db t) (hc : Counted db.transitions)
    (k : String) : (readBack db t k).historyOf k = db.historyOf k := by
  have hsorted : (db.historyOf k).Pairwise newer :=
    (hc.2.imp fun h => le_of_lt h).filter _
  have hlog : liveLog t k ++ archivedLog t k = db.historyOf k := by
    rw [← wholeLog_of_apart h.apart]
    refine Ordered.eq_of_perm (r := newer) inferInstance (ordered_pairwise _) hsorted
      ((ordered_perm _).trans (h.history.filter _)) ?_
    exact ((ordered_perm _).map _).nodup_iff.mpr (HistoryReaders.nodup_rowHistory t k)
  unfold readBack
  unfold Db.historyOf at hlog ⊢
  dsimp only
  rw [hlog, List.filter_filter]
  simp

/-- **Rerouting keeps the recorded outcomes.** In every run in which the reroutes of a row tell
outcome and line apart, its field is written by the stored outcomes, all of them, in order, and by
the reroutes' lines, of which a new one takes the place of the last writing at most; and it is the
same wherever the older part of the log is. -/
theorem reroutes_keep_outcomes {k : String} {db : Db} {stored : Bool} {ls : List (Env × Op)}
    (h : Path (Clearly k) (Db.empty, false) ls (db, stored)) :
    (∃ segs, Path (Tracks k) (Db.empty, []) ls (db, segs)) ∧
      ∀ t, Stored db t → ∀ text,
        fallbackLineStart (readBack db t k) k text = fallbackLineStart db k text := by
  have hkept : Counted db.transitions := by
    refine h.invariant (I := fun p : Db × Bool => Counted p.1.transitions)
      (fun p l p' hs hc => (exec_appends hs.commits).counted hc) ?_
    exact ⟨by simp [Db.empty], List.Pairwise.nil⟩
  constructor
  · have hrun : ∀ {p p' : Db × Bool} {ls : List (Env × Op)}, Path (Clearly k) p ls p' →
        ∀ segs, Logged p.1 → Traced k p.1 p.2 segs →
          ∃ segs', Path (Tracks k) (p.1, segs) ls (p'.1, segs') := by
      intro p p' ls hpath
      induction hpath with
      | nil p => exact fun segs _ _ => ⟨segs, .nil _⟩
      | @cons p p₁ p₂ l ls hstep _ ih =>
        intro segs hlog ht
        obtain ⟨segs₁, hw, ht₁⟩ := traced_step hstep hlog ht
        obtain ⟨segs₂, hrest⟩ := ih segs₁ (logged_commits hstep.commits hlog) ht₁
        exact ⟨segs₂, .cons (t := (p₁.1, segs₁)) ⟨hstep.commits, hw, ht₁.field⟩ hrest⟩
    refine hrun h [] (fun _ _ hl => by cases hl) ⟨rfl, fun _ _ _ hf => ?_, fun hs => by cases hs⟩
    cases hf
  · intro t ht text
    rw [fallbackLineStart_eq, fallbackLineStart_eq, ht.historyOf hkept]

/-! ### A row rerouted twice -/

/-- A step of such a run, as it is played. -/
def playClearly (k : String) (p : Db × Bool) (l : Env × Op) : Option (Db × Bool) :=
  match l.2 with
  | .create _ | .routeToFallback _ | .update { identityProvenance := some _, .. } =>
    if (reasonOf k l.2).isSome && p.2 && readsAsLine p.1 k then none
    else (exec l.1 p.1 l.2).toOption.map fun db => (db, stillStored k p.1 l.2 p.2)
  | _ => none

lemma clearly_of_play {k : String} {p p' : Db × Bool} {l : Env × Op}
    (h : playClearly k p l = some p') : Clearly k p l p' := by
  obtain ⟨env, op⟩ := l
  have hstep : Attested op → (if (reasonOf k op).isSome && p.2 && readsAsLine p.1 k then none
      else (exec env p.1 op).toOption.map fun db => (db, stillStored k p.1 op p.2)) = some p' →
      Clearly k p (env, op) p' := by
    intro hatt h
    split at h
    · cases h
    · rename_i hclear
      obtain ⟨db, hdb, rfl⟩ := Option.map_eq_some_iff.mp h
      refine ⟨?_, rfl, hatt, fun hr hs => ?_⟩
      · cases he : exec env p.1 op with
        | error e =>
          rw [he] at hdb
          cases hdb
        | ok d =>
          rw [he] at hdb
          cases hdb
          exact he
      · simpa [hr, hs] using hclear
  unfold playClearly at h
  split at h
  · rename_i heq
    obtain rfl : op = _ := heq
    exact hstep trivial h
  · rename_i heq
    obtain rfl : op = _ := heq
    exact hstep trivial h
  · rename_i heq
    obtain rfl : op = _ := heq
    exact hstep (.inr rfl) h
  · cases h

/-- A row is created, rerouted for `reason` and closed with an outcome; then it is reopened. -/
def reroutedAndClosed (destination reason outcome : String) : List (Env × Op) :=
  [(plainEnv 0 0 "", .create
      { qitemId := some "qitem-a", sourceSession := "lead@rig", destinationSession := "dev@rig",
        body := "work" }),
   (plainEnv 1000 0 "", .routeToFallback
      { qitemId := "qitem-a", fallbackDestination := destination, reason }),
   (plainEnv 2000 0 "", .update
      { qitemId := "qitem-a", actorSession := destination, state := some .done,
        closureReason := some "no-follow-on", resolution := some outcome,
        identityProvenance := some "transport:v1" }),
   (plainEnv 3000 0 "", .update
      { qitemId := "qitem-a", actorSession := "lead@rig", state := some .pending, reopen := true,
        transitionNote := some "again", identityProvenance := some "transport:v1" })]

/-- The row is rerouted once more. -/
def reroutedAgain : Env × Op :=
  (plainEnv 4000 0 "", .routeToFallback
    { qitemId := "qitem-a", fallbackDestination := "ops@rig", reason := "z" })

theorem reroutes_keep_outcomes_twice : ∃ db segs,
    Path (Tracks "qitem-a") (Db.empty, [])
      (reroutedAndClosed "qa@rig" "x" "fixed" ++ [reroutedAgain]) (db, segs) ∧
    resolutionOf db "qitem-a" = some "fallback: x\nfixed\nfallback: z" := by
  have hplay : ((reroutedAndClosed "qa@rig" "x" "fixed" ++ [reroutedAgain]).foldlM
      (playClearly "qitem-a") (Db.empty, false)).any (fun p =>
        resolutionOf p.1 "qitem-a" = some "fallback: x\nfixed\nfallback: z") = true := by decide
  obtain ⟨⟨db, stored⟩, hp, hres⟩ := (Option.any_eq_true _ _).mp hplay
  have hpath := (path_iff_foldlM.mpr hp).mono fun _ _ _ h => clearly_of_play h
  obtain ⟨⟨segs, htracks⟩, -⟩ := reroutes_keep_outcomes hpath
  exact ⟨db, segs, htracks, of_decide_eq_true hres⟩

/-- The row was rerouted to a destination that reads like its line, and the outcome stored after it
goes on as that destination does: the next reroute takes the outcome for the line. -/
theorem reroute_loses_outcome : ∃ db db',
    Path commits Db.empty (reroutedAndClosed "d (x\ny" "x" "y (x") db ∧
    resolutionOf db "qitem-a" = some "fallback: x\ny (x" ∧ commits db reroutedAgain db' ∧
    resolutionOf db' "qitem-a" = some "fallback: z" := by
  obtain ⟨db, hrun, hp⟩ := exists_run Db.empty (reroutedAndClosed "d (x\ny" "x" "y (x")
    (fun db : Db => resolutionOf db "qitem-a" = some "fallback: x\ny (x" &&
      (exec reroutedAgain.1 db reroutedAgain.2).toOption.any fun db' : Db =>
        resolutionOf db' "qitem-a" = some "fallback: z") (by decide)
  rw [Bool.and_eq_true, decide_eq_true_eq] at hp
  obtain ⟨hres, hp⟩ := hp
  cases he : exec reroutedAgain.1 db reroutedAgain.2 with
  | error e =>
    rw [he] at hp
    cases hp
  | ok db' =>
    rw [he] at hp
    exact ⟨db, db', hrun, hres, he, of_decide_eq_true hp⟩

end OpenRig.Reroutes
