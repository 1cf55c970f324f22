import Mathlib.Algebra.BigOperators.Group.List.Basic
import Mathlib.Algebra.Group.Nat.Even
import Mathlib.Data.List.Chain
import OpenRig.SecretRedaction
import OpenRig.SlackParts

/-!
Cutting a long brief: nothing is lost, every piece fits, and a retry cuts it the same way.

The walk that measures a piece takes a high surrogate together with whatever unit follows. Where
that is a second high surrogate, the low one after it stands alone, and a cut may fall before it.
-/

namespace OpenRig.SlackSplit

open OpenRig.SlackParts OpenRig.SecretRedaction

/-- `replaceAll` of one unit. -/
def replaceUnit (c : UInt16) (replacement : Text) (text : Text) : Text :=
  text.flatMap fun d => if d = c then replacement else [d]

def escapeSlackText (text : Text) : Text :=
  replaceUnit 0x3E (unitsOf "&gt;") (replaceUnit 0x3C (unitsOf "&lt;")
    (replaceUnit 0x26 (unitsOf "&amp;") text))

def isLowSurrogate (c : UInt16) : Bool := 0xDC00 ≤ c && c ≤ 0xDFFF

def shown (text : Text) : Text := trimEnd (redactSecrets text)

def splitBrief (text : Text) (budgetFor : ℕ → ℕ) : Option (List Text) :=
  splitForSlack (shown text) fun i => some (budgetFor i)

def replayBrief (text : Text) (lengths : List ℕ) : Option (List Text) :=
  replayPieces (shown text) (some lengths)

/-- The widest pair the walk takes in one step: a high surrogate and an escaped `&`. -/
def widestPair : ℕ := 6

/-- One piece ends between the halves of a pair that the next one starts with. -/
def cutsPair (p q : Text) : Bool := p.getLast?.any isHighSurrogate && q.head?.any isLowSurrogate

def KeepsPairs (pieces : List Text) : Prop := pieces.IsChain fun p q => cutsPair p q = false

/-- A low surrogate comes after an even number of high ones in a row. `run` of them went before. -/
def misread : ℕ → Text → Bool
  | _, [] => false
  | run, c :: rest =>
    if isHighSurrogate c then misread (run + 1) rest
    else (isLowSurrogate c && run != 0 && run % 2 == 0) || misread 0 rest

/-! ### Widths -/

def width (text : Text) : ℕ := (text.map escapedWidth).sum

lemma replaceUnit_append (c : UInt16) (r s t : Text) :
    replaceUnit c r (s ++ t) = replaceUnit c r s ++ replaceUnit c r t :=
  List.flatMap_append

lemma escapeSlackText_append (s t : Text) :
    escapeSlackText (s ++ t) = escapeSlackText s ++ escapeSlackText t := by
  simp only [escapeSlackText, replaceUnit_append]

lemma escapeSlackText_unit (c : UInt16) : (escapeSlackText [c]).length = escapedWidth c := by
  by_cases ha : c = 0x26
  · subst ha
    decide
  · by_cases hl : c = 0x3C
    · subst hl
      decide
    · by_cases hg : c = 0x3E
      · subst hg
        decide
      · simp [escapeSlackText, replaceUnit, escapedWidth, ha, hl, hg]

lemma length_escapeSlackText (text : Text) : (escapeSlackText text).length = width text := by
  induction text with
  | nil => rfl
  | cons c text ih =>
    rw [← List.singleton_append, escapeSlackText_append, List.length_append, ih,
      escapeSlackText_unit]
    rfl

lemma width_append (s t : Text) : width (s ++ t) = width s + width t := by
  simp [width]

lemma width_cons (c : UInt16) (t : Text) : width (c :: t) = escapedWidth c + width t := by
  simp [width]

lemma escapedWidth_pos (c : UInt16) : 0 < escapedWidth c := by
  unfold escapedWidth
  split
  · omega
  · split <;> omega

lemma escapedWidth_le (c : UInt16) : escapedWidth c ≤ 5 := by
  unfold escapedWidth
  split
  · omega
  · split <;> omega

lemma escapedWidth_high {c : UInt16} (h : isHighSurrogate c = true) : escapedWidth c = 1 := by
  have hne : ∀ d : UInt16, isHighSurrogate d = false → c ≠ d := by
    rintro d hd rfl
    rw [h] at hd
    cases hd
  unfold escapedWidth
  rw [if_neg (hne _ (by decide)), if_neg (not_or.mpr ⟨hne _ (by decide), hne _ (by decide)⟩)]

lemma width_take_le (text : Text) {m n : ℕ} (h : m ≤ n) :
    width (text.take m) ≤ width (text.take n) := by
  obtain ⟨k, rfl⟩ := Nat.exists_eq_add_of_le h
  rw [List.take_add, width_append]
  omega

/-! ### The walk -/

lemma width_fitting (budget : ℕ) (text : Text) :
    width (text.take (fitting budget text)) ≤ budget := by
  fun_induction fitting budget text with
  | case1 => simp [width]
  | case2 => simp [width]
  | case3 budget c h => simpa [width] using h
  | case4 => simp [width]
  | case5 budget c d rest hc h ih =>
    rw [Nat.add_comm, List.take_succ_cons, List.take_succ_cons, width_cons, width_cons]
    omega
  | case6 => simp [width]
  | case7 budget c d rest hc h ih =>
    rw [Nat.add_comm, List.take_succ_cons, width_cons]
    omega

lemma fitting_le (budget : ℕ) (text : Text) : fitting budget text ≤ text.length := by
  fun_induction fitting budget text with
  | case1 => simp
  | case2 => simp
  | case3 => simp
  | case4 => simp
  | case5 budget c d rest hc h ih =>
    simp only [List.length_cons]
    omega
  | case6 => simp
  | case7 budget c d rest hc h ih =>
    simp only [List.length_cons] at ih ⊢
    omega

lemma fitting_ne_zero {budget : ℕ} (hb : widestPair ≤ budget) {text : Text} (ht : text ≠ []) :
    fitting budget text ≠ 0 := by
  unfold widestPair at hb
  match text with
  | [c] =>
    have := escapedWidth_le c
    simp only [fitting]
    rw [if_neg (by omega)]
    omega
  | c :: d :: rest =>
    have hcle := escapedWidth_le c
    have hdle := escapedWidth_le d
    simp only [fitting]
    by_cases hc : isHighSurrogate c = true
    · have hwidth := escapedWidth_high hc
      rw [if_pos hc, if_neg (by omega)]
      omega
    · rw [if_neg hc, if_neg (by omega)]
      omega

/-- The high surrogates in a row at the end of a text; `run` of them went before it. -/
def runAfter : ℕ → Text → ℕ
  | run, [] => run
  | run, c :: rest => runAfter (if isHighSurrogate c then run + 1 else 0) rest

lemma runAfter_append (run : ℕ) (s t : Text) :
    runAfter run (s ++ t) = runAfter (runAfter run s) t := by
  induction s generalizing run with
  | nil => rfl
  | cons c s ih => exact ih _

lemma misread_append (run : ℕ) (s t : Text) :
    misread run (s ++ t) = (misread run s || misread (runAfter run s) t) := by
  induction s generalizing run with
  | nil => simp [misread, runAfter]
  | cons c s ih =>
    rw [List.cons_append, misread, misread, runAfter]
    split
    · exact ih _
    · rw [ih, Bool.or_assoc]

lemma runAfter_last {run : ℕ} {text : Text} {c : UInt16} (h : text.getLast? = some c) :
    (isHighSurrogate c = true → runAfter run text ≠ 0) ∧
      (isHighSurrogate c = false → runAfter run text = 0) := by
  obtain ⟨front, rfl⟩ := List.getLast?_eq_some_iff.mp h
  rw [runAfter_append]
  constructor
  · intro hc
    simp [runAfter, hc]
  · intro hc
    simp [runAfter, hc]

/-- **The walk stops after whole pairs of high surrogates**, unless it took the whole text. -/
lemma even_fitting (budget : ℕ) (text : Text) {run : ℕ} (hrun : Even run) :
    fitting budget text = text.length ∨
      Even (runAfter run (text.take (fitting budget text))) := by
  fun_induction fitting budget text generalizing run with
  | case1 => exact .inl rfl
  | case2 => exact .inr (by simpa [runAfter] using hrun)
  | case3 => exact .inl rfl
  | case4 => exact .inr (by simpa [runAfter] using hrun)
  | case5 budget c d rest hc h ih =>
    have hnext : Even (if isHighSurrogate d then run + 1 + 1 else 0) := by
      split
      · exact hrun.add_one.add_one
      · exact Even.zero
    rcases ih hnext with hall | heven
    · left
      simp only [List.length_cons]
      omega
    · right
      rw [Nat.add_comm, List.take_succ_cons, List.take_succ_cons]
      simpa [runAfter, hc] using heven
  | case6 => exact .inr (by simpa [runAfter] using hrun)
  | case7 budget c d rest hc h ih =>
    rcases ih (Even.zero) with hall | heven
    · left
      simp only [List.length_cons] at hall ⊢
      omega
    · right
      rw [Nat.add_comm, List.take_succ_cons]
      simpa [runAfter, hc] using heven

/-! ### The cut -/

lemma boundary_spec (room pattern : Text) :
    boundary room pattern = pattern.length - 1 ∨
      ∃ front, room.take (boundary room pattern) = front ++ pattern ∧
        boundary room pattern ≤ room.length := by
  unfold boundary
  cases h : lastIndexOf room pattern with
  | none => exact .inl rfl
  | some i =>
    right
    have hmem := List.mem_of_getLast? h
    obtain ⟨tail, htail⟩ := List.isPrefixOf_iff_prefix.mp (List.mem_filter.mp hmem).2
    refine ⟨room.take i, ?_, ?_⟩
    · rw [List.take_add, ← htail, List.take_left]
    · have hlen := congrArg List.length htail
      have hi := List.mem_range.mp (List.mem_filter.mp hmem).1
      simp only [List.length_append, List.length_drop] at hlen
      exact (by omega : i + pattern.length ≤ room.length)

lemma cutAt_spec (rest : Text) {fit : ℕ} (hfit : fit ≠ 0) (hle : fit ≤ rest.length) :
    cutAt rest fit ≤ fit ∧ fit < 2 * cutAt rest fit ∧ (cutAt rest fit = fit ∨
      ∃ c, (rest.take (cutAt rest fit)).getLast? = some c ∧ isHighSurrogate c = false) := by
  have hlen : (rest.take fit).length = fit := by rw [List.length_take, min_eq_left hle]
  unfold cutAt
  dsimp only
  cases hf : List.find? _ _ with
  | none =>
    rw [Option.getD_none]
    exact ⟨le_rfl, by omega, .inl rfl⟩
  | some b =>
    rw [Option.getD_some]
    have hhalf : fit < 2 * b := by simpa using List.find?_some hf
    have hmem := List.mem_of_find?_eq_some hf
    -- Each boundary: the pattern's last unit stands before it, or nothing was found.
    have hat : ∀ pattern : Text, b = boundary (rest.take fit) pattern → pattern.length ≤ 2 →
        (∀ c, pattern.getLast? = some c → isHighSurrogate c = false) → pattern ≠ [] →
        b ≤ fit ∧ (b = fit ∨
          ∃ c, (rest.take b).getLast? = some c ∧ isHighSurrogate c = false) := by
      intro pattern hb hshort hlow hne
      rcases boundary_spec (rest.take fit) pattern with hnone | ⟨front, hfront, hbound⟩
      · rw [← hb] at hnone
        exact ⟨by omega, .inl (by omega)⟩
      · rw [← hb, hlen] at hbound
        rw [← hb, List.take_take, min_eq_left hbound] at hfront
        refine ⟨hbound, .inr ?_⟩
        obtain ⟨c, hc⟩ := Option.isSome_iff_exists.mp (List.getLast?_isSome.mpr hne)
        exact ⟨c, by rw [hfront, List.getLast?_append_of_ne_nil _ hne, hc], hlow c hc⟩
    have hboth : b ≤ fit ∧ (b = fit ∨
        ∃ c, (rest.take b).getLast? = some c ∧ isHighSurrogate c = false) := by
      rcases List.mem_cons.mp hmem with hb | hmem
      · exact hat _ hb (by simp) (by rintro c ⟨⟩; decide) (by simp)
      · rcases List.mem_cons.mp hmem with hb | hmem
        · exact hat _ hb (by simp) (by rintro c ⟨⟩; decide) (by simp)
        · exact hat _ (List.mem_singleton.mp hmem) (by simp) (by rintro c ⟨⟩; decide) (by simp)
    exact ⟨hboth.1, hhalf, hboth.2⟩

lemma splitFrom_cut {budgetFor : ℕ → Option ℕ} {index budget : ℕ} {rest : Text}
    (hrest : rest ≠ []) (hb : budgetFor index = some budget)
    (hall : fitting budget rest ≠ rest.length) (hfit : fitting budget rest ≠ 0) :
    splitFrom budgetFor index rest =
      (splitFrom budgetFor (index + 1) (rest.drop (cutAt rest (fitting budget rest)))).map
        fun pieces => rest.take (cutAt rest (fitting budget rest)) :: pieces := by
  rw [splitFrom, if_neg hrest]
  simp only [hb]
  rw [if_neg hall, dif_neg hfit]

lemma splitFrom_whole {budgetFor : ℕ → Option ℕ} {index budget : ℕ} {rest : Text}
    (hrest : rest ≠ []) (hb : budgetFor index = some budget)
    (hall : fitting budget rest = rest.length) : splitFrom budgetFor index rest = some [rest] := by
  rw [splitFrom, if_neg hrest]
  simp only [hb]
  rw [if_pos hall]

/-- Each piece fits its own budget, and none is empty. -/
def Fits (budgetFor : ℕ → ℕ) (index : ℕ) (pieces : List Text) : Prop :=
  ∀ i p, pieces[i]? = some p → p ≠ [] ∧ (escapeSlackText p).length ≤ budgetFor (index + i)

/-- **The splitter ends**, with pieces that fit. -/
lemma splitFrom_fits {rooms : ℕ → Option ℕ} {budgetFor : ℕ → ℕ}
    (hrooms : ∀ i, rooms i = some (budgetFor i)) (hroom : ∀ i, widestPair ≤ budgetFor i)
    (index : ℕ) (rest : Text) :
    ∃ pieces, splitFrom rooms index rest = some pieces ∧ Fits budgetFor index pieces := by
  induction hn : rest.length using Nat.strong_induction_on generalizing index rest with
  | _ n ih =>
    subst hn
    by_cases hrest : rest = []
    · subst hrest
      exact ⟨[], by rw [splitFrom, if_pos rfl], by simp [Fits]⟩
    have hfit := fitting_ne_zero (hroom index) hrest
    have hle := fitting_le (budgetFor index) rest
    by_cases hall : fitting (budgetFor index) rest = rest.length
    · refine ⟨[rest], splitFrom_whole hrest (hrooms index) hall, ?_⟩
      intro i p hp
      match i with
      | 0 =>
        obtain rfl : rest = p := by simpa using hp
        have hwidth := width_fitting (budgetFor index) rest
        rw [hall, List.take_length] at hwidth
        exact ⟨hrest, by rwa [length_escapeSlackText]⟩
      | i + 1 => simp at hp
    · obtain ⟨hcut, hhalf, -⟩ := cutAt_spec rest hfit hle
      have hshorter : (rest.drop (cutAt rest (fitting (budgetFor index) rest))).length <
          rest.length := by
        rw [List.length_drop]
        omega
      obtain ⟨pieces, hpieces, hfits⟩ := ih _ hshorter (index + 1) _ rfl
      have hsplit := splitFrom_cut hrest (hrooms index) hall hfit
      rw [hpieces, Option.map_some] at hsplit
      refine ⟨_, hsplit, ?_⟩
      intro i p hp
      match i with
      | 0 =>
        obtain rfl : rest.take _ = p := by simpa using hp
        refine ⟨?_, ?_⟩
        · rw [ne_eq, List.take_eq_nil_iff]
          exact not_or.mpr ⟨by omega, hrest⟩
        · rw [length_escapeSlackText]
          exact (width_take_le rest hcut).trans (width_fitting _ _)
      | i + 1 =>
        obtain ⟨hne, hlen⟩ := hfits i p (by simpa using hp)
        exact ⟨hne, by rwa [Nat.add_comm i 1, ← Nat.add_assoc]⟩

/-! ### Surrogate pairs -/

lemma startsLow_of_not_misread {run : ℕ} (heven : Even run) (hrun : run ≠ 0) {text : Text}
    (h : misread run text = false) : text.head?.any isLowSurrogate = false := by
  cases text with
  | nil => rfl
  | cons c text =>
    rw [List.head?_cons, Option.any_some]
    by_contra hlow
    have hlow : isLowSurrogate c = true := by simpa using hlow
    have hnot : isHighSurrogate c = false := by
      unfold isHighSurrogate isLowSurrogate at *
      simp only [Bool.and_eq_true, decide_eq_true_eq, Bool.and_eq_false_iff,
        decide_eq_false_iff_not, UInt16.le_iff_toNat_le] at hlow ⊢
      right
      have h1 : (0xDC00 : UInt16).toNat = 56320 := rfl
      have h2 : (0xDBFF : UInt16).toNat = 56319 := rfl
      omega
    rw [misread, hnot, hlow] at h
    simp [hrun, Nat.even_iff.mp heven] at h

/-- **No cut falls inside a pair**, where no low surrogate is misread. -/
lemma keepsPairs_of_not_misread {budgetFor : ℕ → Option ℕ} {index : ℕ} {rest : Text}
    {pieces : List Text} (h : splitFrom budgetFor index rest = some pieces) {run : ℕ}
    (heven : Even run) (hread : misread run rest = false) : KeepsPairs pieces := by
  induction hn : rest.length using Nat.strong_induction_on generalizing index rest pieces run with
  | _ n ih =>
    subst hn
    by_cases hrest : rest = []
    · rw [splitFrom, if_pos hrest] at h
      cases h
      exact List.IsChain.nil
    cases hb : budgetFor index with
    | none =>
      rw [splitFrom, if_neg hrest] at h
      simp [hb] at h
    | some budget =>
      by_cases hall : fitting budget rest = rest.length
      · rw [splitFrom_whole hrest hb hall] at h
        cases h
        exact List.IsChain.singleton _
      by_cases hfit : fitting budget rest = 0
      · rw [splitFrom, if_neg hrest] at h
        simp only [hb] at h
        rw [if_neg hall, dif_pos hfit] at h
        cases h
      have hle := fitting_le budget rest
      obtain ⟨hcut, hhalf, hplace⟩ := cutAt_spec rest hfit hle
      rw [splitFrom_cut hrest hb hall hfit] at h
      obtain ⟨tail, htail, rfl⟩ := Option.map_eq_some_iff.mp h
      set cut := cutAt rest (fitting budget rest)
      -- The run of high surrogates before the cut has even length.
      have heven' : Even (runAfter run (rest.take cut)) := by
        rcases hplace with hwhole | ⟨c, hc, hlow⟩
        · rw [hwhole]
          exact (even_fitting budget rest heven).resolve_left hall
        · rw [(runAfter_last hc).2 hlow]
          exact Even.zero
      have hafter : misread (runAfter run (rest.take cut)) (rest.drop cut) = false := by
        rw [← List.take_append_drop cut rest, misread_append, Bool.or_eq_false_iff] at hread
        exact hread.2
      have hshorter : (rest.drop cut).length < rest.length := by
        rw [List.length_drop]
        omega
      have hchain := ih _ hshorter htail heven' hafter rfl
      refine List.isChain_cons.mpr ⟨fun q hq => ?_, hchain⟩
      have hstart : q.head? = (rest.drop cut).head? ∨ q = [] := by
        have hflat := splitFrom_flatten htail
        cases tail with
        | nil => cases hq
        | cons q' tail =>
          obtain rfl : q' = q := by simpa using hq
          cases q' with
          | nil => exact .inr rfl
          | cons c q' =>
            left
            rw [← hflat]
            rfl
      unfold cutsPair
      rcases hstart with hstart | rfl
      · rw [hstart]
        cases hlast : (rest.take cut).getLast? with
        | none => rfl
        | some c =>
          rw [Option.any_some]
          cases hc : isHighSurrogate c with
          | false => rfl
          | true => exact startsLow_of_not_misread heven' ((runAfter_last hlast).1 hc) hafter
      · simp

/-- The steps of the walk, each as a piece of its own. -/
def steps : Text → List Text
  | [] => []
  | [c] => [[c]]
  | c :: d :: rest => if isHighSurrogate c then [c, d] :: steps rest else [c] :: steps (d :: rest)

lemma steps_flatten (text : Text) : (steps text).flatten = text := by
  fun_induction steps text with
  | case1 => rfl
  | case2 => rfl
  | case3 c d rest _ ih => rw [List.flatten_cons, ih]; rfl
  | case4 c d rest _ ih => rw [List.flatten_cons, ih]; rfl

lemma head?_steps_flatten {text q : Text} (h : (steps text).head? = some q) :
    q.head? = text.head? := by
  fun_cases steps text with
  | case1 => cases h
  | case2 => cases h; rfl
  | case3 c d rest hc =>
    rw [steps, if_pos hc] at h
    cases h
    rfl
  | case4 c d rest hc =>
    rw [steps, if_neg hc] at h
    cases h
    rfl

lemma fitting_step {step rest : Text} {tail : List Text} (h : steps rest = step :: tail) :
    fitting (width step) rest = step.length ∧ 0 < step.length ∧ step.length ≤ 2 ∧
      rest.take step.length = step ∧ steps (rest.drop step.length) = tail := by
  have hnone : ∀ t : Text, fitting 0 t = 0 := by
    intro t
    match t with
    | [] => rfl
    | [c] => simp [fitting, escapedWidth_pos]
    | c :: d :: t =>
      have hc := escapedWidth_pos c
      have hd := escapedWidth_pos d
      simp [fitting, hc]
  match rest with
  | [] => cases h
  | [c] =>
    cases h
    simp [fitting, width, steps]
  | c :: d :: rest =>
    by_cases hc : isHighSurrogate c = true
    · rw [steps, if_pos hc] at h
      cases h
      simp [fitting, hc, width, hnone]
    · rw [steps, if_neg hc] at h
      cases h
      simp [fitting, hc, width, hnone]

lemma splitFrom_steps {budgetFor : ℕ → Option ℕ} (index : ℕ) (rest : Text)
    (hb : ∀ i, budgetFor (index + i) = (steps rest)[i]?.map width) :
    splitFrom budgetFor index rest = some (steps rest) := by
  induction hn : rest.length using Nat.strong_induction_on generalizing index rest with
  | _ n ih =>
    subst hn
    cases hs : steps rest with
    | nil =>
      have hrest := steps_flatten rest
      rw [hs] at hrest
      obtain rfl : [] = rest := hrest
      rw [splitFrom, if_pos rfl]
    | cons step tail =>
      obtain ⟨hfit, hpos, hshort, htake, hdrop⟩ := fitting_step hs
      have hrest : rest ≠ [] := by
        rintro rfl
        cases hs
      have hbudget : budgetFor index = some (width step) := by simpa [hs] using hb 0
      by_cases hall : step.length = rest.length
      · rw [splitFrom_whole hrest hbudget (hfit.trans hall)]
        rw [hall, List.take_length] at htake
        rw [hall, List.drop_length] at hdrop
        rw [htake, ← hdrop]
        rfl
      have hne : fitting (width step) rest ≠ 0 := by omega
      have hall : fitting (width step) rest ≠ rest.length := by omega
      obtain ⟨hcut, hhalf, -⟩ := cutAt_spec rest hne (fitting_le _ rest)
      have hcut : cutAt rest (fitting (width step) rest) = step.length := by omega
      rw [splitFrom_cut hrest hbudget hall hne, hcut, htake]
      have hnext : ∀ i,
          budgetFor (index + 1 + i) = (steps (rest.drop step.length))[i]?.map width := by
        intro i
        rw [hdrop, Nat.add_assoc, Nat.add_comm 1 i, hb (i + 1), hs, List.getElem?_cons_succ]
      have hshorter : (rest.drop step.length).length < rest.length := by
        rw [List.length_drop]
        have := List.length_pos_of_ne_nil hrest
        omega
      rw [ih _ hshorter (index + 1) _ hnext rfl, hdrop, Option.map_some]

lemma not_misread_of_steps {text : Text} (h : KeepsPairs (steps text)) {run : ℕ} (heven : Even run)
    (hstart : run ≠ 0 → text.head?.any isLowSurrogate = false) : misread run text = false := by
  fun_induction steps text generalizing run with
  | case1 => rfl
  | case2 c =>
    rw [misread]
    split
    · rfl
    · rw [misread, Bool.or_false]
      by_cases hrun : run = 0
      · simp [hrun]
      · have hlow : isLowSurrogate c = false := by simpa using hstart hrun
        simp [hlow]
  | case3 c d rest hc ih =>
    obtain ⟨hlink, hrest⟩ := List.isChain_cons.mp h
    rw [misread, if_pos hc, misread]
    split
    · rename_i hd
      refine ih hrest heven.add_one.add_one fun _ => ?_
      cases hq : (steps rest).head? with
      | none =>
        have hnil := List.head?_eq_none_iff.mp hq
        have hflat := steps_flatten rest
        rw [hnil] at hflat
        rw [← hflat]
        rfl
      | some q =>
        have hcuts := hlink q hq
        rw [cutsPair, head?_steps_flatten hq] at hcuts
        simpa [hd] using hcuts
    · rw [ih hrest Even.zero (fun hne => absurd rfl hne), Bool.or_false]
      have hodd : (run + 1) % 2 ≠ 0 := by
        have := Nat.even_iff.mp heven
        omega
      simp [hodd]
  | case4 c d rest hc ih =>
    obtain ⟨-, hrest⟩ := List.isChain_cons.mp h
    rw [misread, if_neg hc, ih hrest Even.zero (fun hne => absurd rfl hne), Bool.or_false]
    by_cases hrun : run = 0
    · simp [hrun]
    · have hlow : isLowSurrogate c = false := by simpa using hstart hrun
      simp [hlow]

/-- **Splitting a brief.** With room for the widest pair, the splitter ends in non-empty pieces that
fit their budgets and join back to the text, and a replay of their lengths gives them again. No cut
falls inside a surrogate pair, whatever the budgets, exactly when no low surrogate of the text comes
after an even number of high ones in a row. -/
theorem brief_split (text : Text) :
    (∀ budgetFor : ℕ → ℕ, (∀ i, widestPair ≤ budgetFor i) →
      ∃ pieces, splitBrief text budgetFor = some pieces ∧ pieces.flatten = shown text ∧
        Fits budgetFor 0 pieces ∧ replayBrief text (pieces.map (·.length)) = some pieces) ∧
    ((∀ budgetFor : ℕ → Option ℕ, ∀ pieces,
      splitForSlack (shown text) budgetFor = some pieces → KeepsPairs pieces) ↔
        misread 0 (shown text) = false) := by
  refine ⟨fun budgetFor hroom => ?_, fun h => ?_, fun h budgetFor pieces hsplit => ?_⟩
  · obtain ⟨pieces, hpieces, hfits⟩ := splitFrom_fits (fun _ => rfl) hroom 0 (shown text)
    have hflat := splitForSlack_flatten hpieces
    exact ⟨pieces, hpieces, hflat, hfits, replayPieces_lengths hflat⟩
  · have hsteps : splitForSlack (shown text) (fun i => (steps (shown text))[i]?.map width) =
        some (steps (shown text)) :=
      splitFrom_steps 0 (shown text) fun i => by rw [Nat.zero_add]
    exact not_misread_of_steps (h _ _ hsteps) Even.zero fun hne => absurd rfl hne
  · exact keepsPairs_of_not_misread hsplit Even.zero h

/-- Four letters, a lone high surrogate and an emoji: room for six units cuts the emoji in two. -/
theorem emoji_cut_in_two :
    let text := unitsOf "aaaa" ++ [0xD83D, 0xD83D, 0xDE00]
    (∀ i : ℕ, widestPair ≤ (fun _ => 6) i) ∧
      splitBrief text (fun _ => 6) = some [unitsOf "aaaa" ++ [0xD83D, 0xD83D], [0xDE00]] ∧
      ¬ KeepsPairs [unitsOf "aaaa" ++ [0xD83D, 0xD83D], [0xDE00]] := by
  intro text
  have hshown : shown text = unitsOf "aaaa" ++ [0xD83D, 0xD83D, 0xDE00] := by decide
  have hfit : fitting 6 (shown text) = 6 := by
    rw [hshown]
    decide
  have hcut : cutAt (shown text) 6 = 6 := by
    rw [hshown]
    decide
  refine ⟨fun _ => le_rfl, ?_, ?_⟩
  · have hne : shown text ≠ [] := by
      rw [hshown]
      decide
    have hall : fitting 6 (shown text) ≠ (shown text).length := by
      rw [hfit, hshown]
      decide
    have hlast : splitFrom (fun _ => some 6) 1 [0xDE00] = some [[0xDE00]] :=
      splitFrom_whole (by decide) rfl (by decide)
    have hfirst : splitFrom (fun _ => some 6) 0 (shown text) =
        (splitFrom (fun _ => some 6) 1
          ((shown text).drop (cutAt (shown text) (fitting 6 (shown text))))).map
            fun pieces =>
              (shown text).take (cutAt (shown text) (fitting 6 (shown text))) :: pieces :=
      splitFrom_cut hne rfl hall (by rw [hfit]; decide)
    rw [splitBrief, splitForSlack, hfirst, hfit, hcut, hshown]
    exact congrArg _ hlast
  · intro h
    exact absurd (List.isChain_cons.mp h).1 (by decide)

end OpenRig.SlackSplit
