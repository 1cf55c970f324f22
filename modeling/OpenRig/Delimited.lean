import OpenRig.Placeholders
import OpenRig.TextSearch
import Mathlib.Data.List.ReduceOption

/-!
Replacing what stands between two delimiters, over any alphabet, and texts with places in them.

A match begins at the first opening delimiter and ends with the first closing one after it. A text
with places is a list of units in which `none` stands for one fixed piece: what a replacement does
to the printed text and to the text with places agrees where no delimiter overlaps that piece.
-/

namespace OpenRig.Delimited

open OpenRig.Placeholders OpenRig.TextSearch

variable {α : Type}

/-! ### The first place of a piece -/

section Cut

variable {m text a b : List α}

lemma infix_dropLast_cons {c : α} :
    m <:+: c :: a ++ m.dropLast ↔ m <+: c :: a ++ m.dropLast ∨ m <:+: a ++ m.dropLast := by
  rw [List.cons_append, List.infix_cons_iff]

lemma not_infix_dropLast (hm : m ≠ []) : ¬ m <:+: m.dropLast := by
  intro h
  have hle := h.length_le
  have hpos := List.length_pos_iff.mpr hm
  rw [List.length_dropLast] at hle
  omega

variable [DecidableEq α]

/-- The text before and after the first place of `m`. -/
def cut (m : List α) : List α → Option (List α × List α)
  | [] => none
  | c :: rest =>
    if m.isPrefixOf (c :: rest) then some ([], (c :: rest).drop m.length)
    else (cut m rest).map fun ab => (c :: ab.1, ab.2)

/-- `text.includes(m)`, for a piece that is not empty. -/
def includes (text m : List α) : Bool := (cut m text).isSome

lemma cut_eq_none (hm : m ≠ []) : cut m text = none ↔ ¬ m <:+: text := by
  induction text with
  | nil => simpa [cut] using hm
  | cons c text ih =>
    rw [List.infix_cons_iff, not_or, ← ih, cut]
    by_cases h : m <+: c :: text
    · simp [List.isPrefixOf_iff_prefix.mpr h, h]
    · rw [if_neg fun hp => h (List.isPrefixOf_iff_prefix.mp hp)]
      simp [h]

lemma includes_iff (hm : m ≠ []) : includes text m = true ↔ m <:+: text := by
  rw [includes, Option.isSome_iff_ne_none, Ne, cut_eq_none hm, not_not]

lemma cut_eq_some (hm : m ≠ []) :
    cut m text = some (a, b) ↔ text = a ++ m ++ b ∧ ¬ m <:+: a ++ m.dropLast := by
  induction text generalizing a with
  | nil =>
    constructor
    · intro h
      cases h
    · rintro ⟨h, -⟩
      exact absurd (List.append_eq_nil_iff.mp (List.append_eq_nil_iff.mp h.symm).1).2 hm
  | cons c text ih =>
    rw [cut]
    by_cases h : m <+: c :: text
    · rw [if_pos (List.isPrefixOf_iff_prefix.mpr h)]
      obtain ⟨rest, hrest⟩ := h
      rw [← hrest, List.drop_left]
      constructor
      · intro he
        obtain ⟨rfl, rfl⟩ : [] = a ∧ rest = b := by simpa using he
        exact ⟨by simp, by simpa using not_infix_dropLast hm⟩
      · rintro ⟨he, hno⟩
        cases a with
        | nil =>
          rw [List.nil_append, List.append_right_inj] at he
          rw [he]
        | cons d a =>
          -- the piece stands at the start, before the place that is claimed to be the first
          have hpre : d :: a ++ m.dropLast <+: m ++ rest := by
            rw [he, List.append_assoc]
            exact (List.prefix_append_right_inj _).mpr ((List.dropLast_prefix m).trans ⟨b, rfl⟩)
          have hlen : m.length ≤ (d :: a ++ m.dropLast).length := by
            simp only [List.cons_append, List.length_cons, List.length_append, List.length_dropLast]
            omega
          exact absurd (List.prefix_of_prefix_length_le ⟨rest, rfl⟩ hpre hlen).isInfix hno
    · rw [if_neg (by simpa [List.isPrefixOf_iff_prefix] using h)]
      constructor
      · intro he
        obtain ⟨⟨a', b'⟩, hcut, he⟩ := Option.map_eq_some_iff.mp he
        obtain ⟨rfl, rfl⟩ : c :: a' = a ∧ b' = b := by simpa using he
        obtain ⟨htext, hno⟩ := ih.mp hcut
        refine ⟨by rw [htext]; rfl, fun hin => ?_⟩
        rcases infix_dropLast_cons.mp hin with hpre | hin
        · refine h (hpre.trans ?_)
          rw [htext, List.append_assoc, List.cons_append, List.cons_prefix_cons]
          refine ⟨rfl, (List.prefix_append_right_inj a').mpr ?_⟩
          exact (List.dropLast_prefix m).trans ⟨b', rfl⟩
        · exact hno hin
      · rintro ⟨he, hno⟩
        cases a with
        | nil => exact absurd ⟨b, by simpa using he.symm⟩ h
        | cons d a =>
          obtain ⟨rfl, htext⟩ : c = d ∧ text = a ++ m ++ b := by simpa using he
          have hcut : cut m text = some (a, b) :=
            ih.mpr ⟨htext, fun hin => hno (infix_dropLast_cons.mpr (.inr hin))⟩
          rw [hcut]
          rfl

lemma exists_cut (hm : m ≠ []) (h : m <:+: text) : ∃ a b, cut m text = some (a, b) := by
  cases hc : cut m text with
  | none => exact absurd h ((cut_eq_none hm).mp hc)
  | some ab => exact ⟨ab.1, ab.2, rfl⟩

end Cut

/-! ### Replacing what stands between two delimiters -/

structure Pair (α : Type) where
  opening : List α
  closing : List α

/-- A text with a match: the opening delimiter and, somewhere after it, the closing one. -/
def Pair.Within (p : Pair α) (text : List α) : Prop :=
  ∃ body, p.opening ++ body ++ p.closing <:+: text

structure Pair.Proper (p : Pair α) : Prop where
  opening : p.opening ≠ []
  closing : p.closing ≠ []

variable {p : Pair α} {text a b after rest : List α}

lemma Pair.Within.mono {text' : List α} (h : p.Within text) (ht : text <:+: text') :
    p.Within text' :=
  h.imp fun _ hb => hb.trans ht

section Replace

variable [DecidableEq α]

/-- How long the match at the start of a text is. -/
def Pair.matchLength (p : Pair α) (text : List α) : Option ℕ :=
  if p.opening.isPrefixOf text then
    (cut p.closing (text.drop p.opening.length)).map fun ab =>
      p.opening.length + ab.1.length + p.closing.length
  else none

/-- `text.replace(/opening[\s\S]*?closing/g, () => r)`. -/
def Pair.replace (p : Pair α) (r text : List α) : List α :=
  (replaceAll (fun _ t => (p.matchLength t).map fun n => ⟨n, r, ()⟩) () 0 text).1

/-- The first match: the first opening delimiter, and the first closing one after it. -/
structure Pair.First (p : Pair α) (text a b after : List α) : Prop where
  opened : cut p.opening text = some (a, b ++ p.closing ++ after)
  closed : cut p.closing (b ++ p.closing ++ after) = some (b, after)

lemma Pair.First.text_eq (hp : p.Proper) (h : p.First text a b after) :
    text = a ++ p.opening ++ (b ++ p.closing ++ after) :=
  ((cut_eq_some hp.opening).mp h.opened).1

lemma Pair.Within.exists_first (hp : p.Proper) (h : p.Within text) :
    ∃ a b after, p.First text a b after := by
  obtain ⟨body, x, y, htext⟩ := h
  have hin : p.opening <:+: text :=
    ⟨x, body ++ p.closing ++ y, by rw [← htext]; simp only [List.append_assoc]⟩
  obtain ⟨a, rest, hopen⟩ := exists_cut hp.opening hin
  obtain ⟨htext', hno⟩ := (cut_eq_some hp.opening).mp hopen
  -- the first opening delimiter is no later than that of the match, so the closing one follows it
  have hle : a.length ≤ x.length := by
    by_contra hlt
    refine hno ?_
    have hx : x ++ p.opening <+: text :=
      ⟨body ++ p.closing ++ y, by rw [← htext]; simp only [List.append_assoc]⟩
    have ha : a ++ p.opening.dropLast <+: text := by
      rw [htext', List.append_assoc]
      exact (List.prefix_append_right_inj a).mpr
        ((List.dropLast_prefix p.opening).trans ⟨rest, rfl⟩)
    have hpre : x ++ p.opening <+: a ++ p.opening.dropLast := by
      refine List.prefix_of_prefix_length_le hx ha ?_
      have := List.length_pos_iff.mpr hp.opening
      simp only [List.length_append, List.length_dropLast]
      omega
    exact (List.suffix_append x p.opening).isInfix.trans hpre.isInfix
  have hafter : p.closing <:+: rest := by
    have hdrop : rest = text.drop (a.length + p.opening.length) := by
      rw [htext', List.drop_append_of_le_length (by simp), List.drop_eq_nil_of_le (by simp),
        List.nil_append]
    have hdrop' : body ++ p.closing ++ y = text.drop (x.length + p.opening.length) := by
      rw [← htext, show x ++ (p.opening ++ body ++ p.closing) ++ y =
        (x ++ p.opening) ++ (body ++ p.closing ++ y) by simp only [List.append_assoc],
        List.drop_append_of_le_length (by simp), List.drop_eq_nil_of_le (by simp), List.nil_append]
    have hsuffix : body ++ p.closing ++ y <:+ rest := by
      rw [hdrop, hdrop']
      exact List.drop_suffix_drop_left text (by omega)
    exact (List.infix_append body p.closing y).trans hsuffix.isInfix
  obtain ⟨b, after, hclose⟩ := exists_cut hp.closing hafter
  have hrest := ((cut_eq_some hp.closing).mp hclose).1
  exact ⟨a, b, after, hrest ▸ hopen, hrest ▸ hclose⟩

lemma Pair.within_of_matchLength (hp : p.Proper) {n : ℕ} (h : p.matchLength text = some n) :
    p.Within text := by
  rw [matchLength] at h
  split at h
  · rename_i hpre
    obtain ⟨rest, rfl⟩ := List.isPrefixOf_iff_prefix.mp hpre
    rw [List.drop_left] at h
    obtain ⟨⟨b, after⟩, hclose, -⟩ := Option.map_eq_some_iff.mp h
    rw [((cut_eq_some hp.closing).mp hclose).1]
    exact ⟨b, [], after, by simp⟩
  · cases h

lemma Pair.replace_eq_self (hp : p.Proper) (h : ¬ p.Within text) (r : List α) :
    p.replace r text = text := by
  have hover := replaceAll_over (s := ())
    (f := fun _ t => (p.matchLength t).map fun n => (⟨n, r, ()⟩ : Found α Unit)) text []
    fun x y htext _ => by
      rw [Option.map_eq_none_iff, List.append_nil]
      by_contra hn
      obtain ⟨n, hn⟩ := Option.ne_none_iff_exists'.mp hn
      exact h ((within_of_matchLength hp hn).mono (htext ▸ (List.suffix_append x y).isInfix))
  rw [List.append_nil] at hover
  rw [Pair.replace, hover, replaceAll_nil, List.append_nil]

lemma Pair.First.replace_eq (hp : p.Proper) (h : p.First text a b after) (r : List α) :
    p.replace r text = a ++ (r ++ p.replace r after) := by
  obtain ⟨htext, hno⟩ := (cut_eq_some hp.opening).mp h.opened
  have hmatch : p.matchLength (p.opening ++ b ++ p.closing ++ after) =
      some (p.opening.length + b.length + p.closing.length) := by
    have happ : p.opening ++ b ++ p.closing ++ after = p.opening ++ (b ++ p.closing ++ after) := by
      simp only [List.append_assoc]
    rw [matchLength, happ, if_pos (List.isPrefixOf_iff_prefix.mpr ⟨_, rfl⟩), List.drop_left,
      h.closed, Option.map_some]
  have hover := replaceAll_over (s := ())
    (f := fun _ t => (p.matchLength t).map fun n => (⟨n, r, ()⟩ : Found α Unit))
    a (p.opening ++ b ++ p.closing ++ after) fun x y ha hy => by
      rw [Option.map_eq_none_iff, matchLength, if_neg]
      intro hpre
      have hpre := List.isPrefixOf_iff_prefix.mp hpre
      refine hno (List.IsInfix.trans ?_ (List.suffix_append x (y ++ p.opening.dropLast)).isInfix
        |>.trans (by rw [ha, List.append_assoc]))
      have hcut : y ++ p.opening.dropLast <+: y ++ (p.opening ++ b ++ p.closing ++ after) := by
        refine (List.prefix_append_right_inj y).mpr ((List.dropLast_prefix p.opening).trans ?_)
        exact ⟨b ++ p.closing ++ after, by simp only [List.append_assoc]⟩
      refine (List.prefix_of_prefix_length_le hpre hcut ?_).isInfix
      have := List.length_pos_iff.mpr hp.opening
      have := List.length_pos_iff.mpr hy
      simp only [List.length_append, List.length_dropLast]
      omega
  have hne : p.opening ++ b ++ p.closing ≠ [] := by
    simp [hp.opening]
  have hf : (p.matchLength (p.opening ++ b ++ p.closing ++ after)).map
      (fun n => (⟨n, r, ()⟩ : Found α Unit)) =
        some ⟨p.opening.length + b.length + p.closing.length, r, ()⟩ := by
    rw [hmatch]
    rfl
  have hfound := replaceAll_found (s := ())
    (f := fun _ t => (p.matchLength t).map fun n => (⟨n, r, ()⟩ : Found α Unit)) hne hf
    (by simp only [List.length_append])
  rw [Pair.replace, htext, show a ++ p.opening ++ (b ++ p.closing ++ after) =
    a ++ (p.opening ++ b ++ p.closing ++ after) by simp only [List.append_assoc], hover, hfound]
  rfl

end Replace


/-! ### Texts with places -/

/-- The text with `w` in each place. -/
def print (w : List α) (s : List (Option α)) : List α := s.flatMap fun u => u.elim w ([·])

/-- A text without places. -/
def plain (t : List α) : List (Option α) := t.map some

def Pair.lift (p : Pair α) : Pair (Option α) := ⟨plain p.opening, plain p.closing⟩

section Places

variable {w m t : List α} {s : List (Option α)}

@[simp] lemma print_nil : print w ([] : List (Option α)) = [] := rfl

@[simp] lemma print_some (c : α) : print w (some c :: s) = c :: print w s := rfl

@[simp] lemma print_none : print w (none :: s) = w ++ print w s := rfl

@[simp] lemma print_append (s' : List (Option α)) : print w (s ++ s') = print w s ++ print w s' :=
  List.flatMap_append

@[simp] lemma print_plain (w t : List α) : print w (plain t) = t := by
  induction t with
  | nil => rfl
  | cons c t ih => exact congrArg (c :: ·) ih

@[simp] lemma plain_append (t t' : List α) : plain (t ++ t') = plain t ++ plain t' :=
  List.map_append

@[simp] lemma own_plain (t : List α) : (plain t).reduceOption = t := by
  induction t with
  | nil => rfl
  | cons c t ih => exact congrArg (c :: ·) ih

lemma plain_ne_nil (hm : m ≠ []) : plain m ≠ [] := by
  simpa [plain] using hm

lemma none_notMem_plain : none ∉ plain t := by
  simp [plain]

lemma split_places (s : List (Option α)) :
    s = plain s.reduceOption ∧ none ∉ s ∨ ∃ a s', s = plain a ++ none :: s' := by
  induction s with
  | nil => exact .inl ⟨rfl, List.not_mem_nil⟩
  | cons u s ih =>
    cases u with
    | none => exact .inr ⟨[], s, rfl⟩
    | some c =>
      rcases ih with ⟨hs, hno⟩ | ⟨a, s', rfl⟩
      · exact .inl ⟨congrArg (some c :: ·) hs, by simpa using hno⟩
      · exact .inr ⟨c :: a, s', rfl⟩

lemma infix_print (h : plain m <:+: s) (w : List α) : m <:+: print w s := by
  obtain ⟨x, y, rfl⟩ := h
  exact ⟨print w x, print w y, by simp⟩

lemma infix_of_plain (h : plain m <:+: plain t) : m <:+: t := by
  simpa using infix_print h []

/-- The piece `m` stands nowhere in the printed text but where it stands in the text with places. -/
def Sees (m w : List α) (s : List (Option α)) : Prop :=
  ∀ s', s' <:+: s → m <:+: print w s' → plain m <:+: s'

lemma Sees.mono {s' : List (Option α)} (h : Sees m w s) (hs : s' <:+: s) : Sees m w s' :=
  fun s₀ h₀ => h s₀ (h₀.trans hs)

lemma sees_plain (m w t : List α) : Sees m w (plain t) := by
  intro s' hs' hm
  have hs : s' = plain s'.reduceOption := by
    rcases split_places s' with ⟨h, -⟩ | ⟨a, s₂, rfl⟩
    · exact h
    · exact absurd (hs'.subset (by simp)) none_notMem_plain
  rw [hs] at hm ⊢
  rw [print_plain] at hm
  exact hm.map some

/-- The piece `m` does not overlap the piece `w`. -/
structure Apart (m w : List α) : Prop where
  inside : ¬ m <:+: w
  ends : ∀ x y, m = x ++ y → x ≠ [] → y ≠ [] → ¬ x <:+ w ∧ ¬ y <+: w ∧ ¬ w <+: y

lemma Apart.prefix_print (h : Apart m w) {x y : List α} (hm : m = x ++ y) (hx : x ≠ [])
    (hy : y <+: print w s) : plain y <+: s := by
  induction s generalizing x y with
  | nil =>
    obtain rfl := List.prefix_nil.mp hy
    exact List.nil_prefix
  | cons u s ih =>
    cases y with
    | nil => exact List.nil_prefix
    | cons c y =>
      cases u with
      | some d =>
        rw [print_some, List.cons_prefix_cons] at hy
        obtain ⟨rfl, hrest⟩ := hy
        exact List.cons_prefix_cons.mpr ⟨rfl, ih (x := x ++ [c]) (by simp [hm]) (by simp) hrest⟩
      | none =>
        obtain ⟨-, hyw, hwy⟩ := h.ends x (c :: y) hm hx (List.cons_ne_nil c y)
        rcases List.prefix_or_prefix_of_prefix hy (List.prefix_append w (print w s)) with h' | h'
        · exact absurd h' hyw
        · exact absurd h' hwy

lemma Apart.infix_of_print (h : Apart m w) (hm : m <:+: print w s) : plain m <:+: s := by
  induction s with
  | nil =>
    obtain rfl : m = [] := List.infix_nil.mp hm
    exact List.infix_rfl
  | cons u s ih =>
    cases u with
    | some c =>
      rw [print_some, List.infix_cons_iff] at hm
      rcases hm with hpre | hin
      · cases m with
        | nil => exact List.nil_infix
        | cons d m =>
          rw [List.cons_prefix_cons] at hpre
          obtain ⟨rfl, hpre'⟩ := hpre
          have hrest := h.prefix_print (x := [d]) rfl (by simp) hpre'
          exact (List.cons_prefix_cons.mpr ⟨rfl, hrest⟩).isInfix
      · exact (ih hin).trans (List.suffix_cons _ s).isInfix
    | none =>
      rw [print_none] at hm
      rcases infix_append_cases hm with hin | hin | ⟨x, y, hx, hy, hxy, hsuf, -⟩
      · exact absurd hin h.inside
      · exact (ih hin).trans (List.suffix_cons _ s).isInfix
      · exact absurd hsuf (h.ends x y hxy hx hy).1

lemma Apart.sees (h : Apart m w) (s : List (Option α)) : Sees m w s :=
  fun _ _ hm => h.infix_of_print hm

end Places

/-! ### Replacing in a text with places -/

section Printed

variable {w : List α} {s : List (Option α)}

lemma Pair.Proper.lift (hp : p.Proper) : p.lift.Proper :=
  ⟨plain_ne_nil hp.opening, plain_ne_nil hp.closing⟩

variable [DecidableEq α]

lemma cut_print {m : List α} (hm : m ≠ []) (h : Sees m w s) :
    cut m (print w s) = (cut (plain m) s).map (Prod.map (print w) (print w)) := by
  cases hc : cut (plain m) s with
  | none =>
    refine (cut_eq_none hm).mpr fun hin => ?_
    exact (cut_eq_none (plain_ne_nil hm)).mp hc (h s List.infix_rfl hin)
  | some ab =>
    obtain ⟨a, b⟩ := ab
    obtain ⟨rfl, hno⟩ := (cut_eq_some (plain_ne_nil hm)).mp hc
    have hdrop : plain m.dropLast = (plain m).dropLast := List.map_dropLast
    refine (cut_eq_some hm).mpr ⟨by simp, fun hin => hno ?_⟩
    rw [← hdrop]
    refine h _ ?_ (by simpa using hin)
    obtain ⟨z, hz⟩ := (List.dropLast_prefix m).map some
    exact ⟨[], z ++ b, by rw [plain, plain, ← hz]; simp⟩

lemma Pair.First.print {a b after : List (Option α)} (hp : p.Proper)
    (ho : Sees p.opening w s) (hc : Sees p.closing w s) (h : p.lift.First s a b after) :
    p.First (print w s) (print w a) (print w b) (print w after) := by
  have htext := h.text_eq hp.lift
  constructor
  · rw [cut_print hp.opening ho, show plain p.opening = p.lift.opening from rfl, h.opened]
    simp [Pair.lift]
  · have hafter : b ++ p.lift.closing ++ after <:+: s := by
      rw [htext]
      exact (List.suffix_append _ _).isInfix
    have hcut := cut_print hp.closing (hc.mono hafter)
    rw [show plain p.closing = p.lift.closing from rfl, h.closed] at hcut
    simpa [Pair.lift] using hcut

lemma Pair.Within.of_print (hp : p.Proper) (ho : Sees p.opening w s) (hc : Sees p.closing w s)
    (h : p.Within (print w s)) : p.lift.Within s := by
  obtain ⟨a, b, after, hfirst⟩ := h.exists_first hp
  have hopen := hfirst.opened
  rw [cut_print hp.opening ho] at hopen
  obtain ⟨⟨a', rest⟩, hopen', heq⟩ := Option.map_eq_some_iff.mp hopen
  obtain ⟨-, hrest⟩ := Prod.mk.injEq .. ▸ heq
  have hs := ((cut_eq_some hp.lift.opening).mp hopen').1
  have hsuffix : rest <:+: s := by
    rw [hs]
    exact (List.suffix_append _ _).isInfix
  have hclose := hfirst.closed
  rw [← hrest, cut_print hp.closing (hc.mono hsuffix)] at hclose
  obtain ⟨⟨b', after'⟩, hclose', -⟩ := Option.map_eq_some_iff.mp hclose
  have hrest' := ((cut_eq_some hp.lift.closing).mp hclose').1
  refine ⟨b', a', after', ?_⟩
  rw [hs, hrest']
  simp only [List.append_assoc, Pair.lift]

lemma Pair.print_replace (hp : p.Proper) (ho : Sees p.opening w s) (hc : Sees p.closing w s)
    (r : List (Option α)) :
    print w (p.lift.replace r s) = p.replace (print w r) (print w s) := by
  induction hn : s.length using Nat.strong_induction_on generalizing s with
  | _ n ih =>
    by_cases hw : p.lift.Within s
    · obtain ⟨a, b, after, hfirst⟩ := hw.exists_first hp.lift
      have htext := hfirst.text_eq hp.lift
      have hafter : after <:+: s := by
        rw [htext]
        exact (List.suffix_append _ _).isInfix.trans (List.suffix_append _ _).isInfix
      have hlt : after.length < n := by
        have := List.length_pos_iff.mpr hp.lift.opening
        rw [← hn, htext]
        simp only [List.length_append]
        omega
      rw [hfirst.replace_eq hp.lift, (hfirst.print hp ho hc).replace_eq hp, print_append,
        print_append, ih _ hlt (ho.mono hafter) (hc.mono hafter) rfl]
    · rw [replace_eq_self hp.lift hw,
        replace_eq_self hp fun h => hw (h.of_print hp ho hc)]

lemma Pair.own_replace (hp : p.Proper) {r : List (Option α)} (hr : r.reduceOption = []) :
    (p.lift.replace r s).reduceOption.Sublist s.reduceOption ∧
      (p.lift.Within s →
        (p.lift.replace r s).reduceOption.length + p.opening.length ≤ s.reduceOption.length) := by
  induction hn : s.length using Nat.strong_induction_on generalizing s with
  | _ n ih =>
    by_cases hw : p.lift.Within s
    · obtain ⟨a, b, after, hfirst⟩ := hw.exists_first hp.lift
      have htext := hfirst.text_eq hp.lift
      have hlt : after.length < n := by
        have := List.length_pos_iff.mpr hp.lift.opening
        rw [← hn, htext]
        simp only [List.length_append]
        omega
      obtain ⟨hsub, -⟩ := ih _ hlt rfl
      have hown : s.reduceOption = a.reduceOption ++
          (p.opening ++ (b.reduceOption ++ p.closing ++ after.reduceOption)) := by
        rw [htext]
        simp [List.reduceOption_append, Pair.lift]
      rw [hfirst.replace_eq hp.lift, List.reduceOption_append, List.reduceOption_append, hr,
        List.nil_append, hown]
      refine ⟨(hsub.trans ?_).append_left _, fun _ => ?_⟩
      · exact ((List.suffix_append _ _).trans (List.suffix_append _ _)).sublist
      · have := hsub.length_le
        simp only [List.length_append]
        omega
    · rw [replace_eq_self hp.lift hw]
      exact ⟨.refl _, fun h => absurd h hw⟩

end Printed

section Within

variable {w : List α} {s : List (Option α)}

lemma Pair.Within.opening (h : p.lift.Within s) : plain p.opening <:+: s := by
  obtain ⟨y, x, z, hs⟩ := h
  exact ⟨x, y ++ p.lift.closing ++ z, by rw [← hs]; simp [Pair.lift]⟩

lemma Pair.Within.closing (h : p.lift.Within s) : plain p.closing <:+: s := by
  obtain ⟨y, x, z, hs⟩ := h
  exact ⟨x ++ (p.lift.opening ++ y), z, by rw [← hs]; simp [Pair.lift]⟩

lemma Pair.within_plain {t : List α} : p.lift.Within (plain t) ↔ p.Within t := by
  constructor
  · rintro ⟨y, u, v, hy⟩
    refine ⟨y.reduceOption, u.reduceOption, v.reduceOption, ?_⟩
    have hown := congrArg List.reduceOption hy
    simpa [List.reduceOption_append, Pair.lift] using hown
  · rintro ⟨y, hy⟩
    exact ⟨plain y, by simpa [Pair.lift, plain] using hy.map some⟩

lemma Pair.Within.of_place (hp : p.Proper) {a : List α}
    (h : p.lift.Within (plain a ++ none :: s)) : p.Within a ∨ plain p.closing <:+: s := by
  obtain ⟨z, hz⟩ := h
  have hlast : plain p.closing <:+ p.lift.opening ++ z ++ p.lift.closing := List.suffix_append _ _
  rcases infix_append_cases hz with hin | hin | ⟨x, y, -, hy, hxy, -, hpre⟩
  · exact .inl (within_plain.mp ⟨z, hin⟩)
  · refine .inr ?_
    rcases List.infix_cons_iff.mp (hlast.isInfix.trans hin) with hpre | hin
    · obtain ⟨c, m, hm⟩ := List.exists_cons_of_ne_nil hp.closing
      rw [hm] at hpre
      exact absurd (List.cons_prefix_cons.mp hpre).1 (by simp)
    · exact hin
  · -- the closing delimiter cannot hold the place
    obtain ⟨u, y, rfl⟩ := List.exists_cons_of_ne_nil hy
    obtain ⟨rfl, hys⟩ := List.cons_prefix_cons.mp hpre
    rw [hxy] at hlast
    have hsuffix : y <:+ x ++ none :: y := (List.suffix_cons _ _).trans (List.suffix_append _ _)
    by_cases hle : (plain p.closing).length ≤ y.length
    · exact .inr ((List.suffix_of_suffix_length_le hlast hsuffix hle).isInfix.trans hys.isInfix)
    · have hmem := List.suffix_of_suffix_length_le (List.suffix_append x (none :: y)) hlast
        (by rw [List.length_cons]; omega)
      exact absurd (hmem.subset List.mem_cons_self) none_notMem_plain

end Within

/-! ### Reading a printed text again -/

/-- The piece between the delimiters that stands in the places. -/
def Pair.piece (p : Pair α) (body : List α) : List α := p.opening ++ body ++ p.closing

/-- The piece shows its delimiters only as its two ends, and they overlap no such piece. -/
structure Pair.Frames (p : Pair α) (body : List α) : Prop where
  opening_apart : ∀ x y, p.opening = x ++ y → x ≠ [] → y ≠ [] → ¬ y <+: p.opening
  closing_once : ¬ p.closing <:+: p.opening ++ body ++ p.closing.dropLast
  closing_apart : ∀ x y, p.closing = x ++ y → x ≠ [] → y ≠ [] → ¬ y <+: p.piece body

/-- No opening delimiter stands before a closing one or before a place. -/
structure Pair.Calm (p : Pair α) (s : List (Option α)) : Prop where
  closing : ¬ p.lift.Within s
  place : ∀ y, ¬ plain p.opening ++ y ++ [none] <:+: s

section Reread

variable {w body : List α} {s : List (Option α)}

lemma Pair.Calm.mono {s' : List (Option α)} (h : p.Calm s) (hs : s' <:+: s) : p.Calm s' :=
  ⟨fun hw => h.closing (hw.mono hs), fun y hy => h.place y (hy.trans hs)⟩

lemma infix_behind {m a : List α} (hm : m ≠ []) (ha : ¬ m <:+: a) {y : List (Option α)}
    (h : plain m ++ y <:+: plain a ++ none :: s) : plain m ++ y <:+: s := by
  obtain ⟨c, m, rfl⟩ := List.exists_cons_of_ne_nil hm
  have hpre : ∀ {x : List (Option α)}, plain (c :: m) <+: x → x <:+: plain a → False :=
    fun hx hxa => ha (infix_of_plain (hx.isInfix.trans hxa))
  rcases infix_append_cases h with hin | hin | ⟨x, z, hx, hz, hxz, hsuf, hzp⟩
  · exact (hpre (List.prefix_append _ _) hin).elim
  · rcases List.infix_cons_iff.mp hin with hp | hin
    · exact absurd (List.cons_prefix_cons.mp hp).1 (by simp)
    · exact hin
  · -- across: the piece of it before the place would be shorter than the delimiter
    rcases List.append_eq_append_iff.mp hxz with ⟨l, hl, -⟩ | ⟨l, hl, hzl⟩
    · exact (hpre ⟨l, hl.symm⟩ hsuf.isInfix).elim
    · obtain ⟨u, z, rfl⟩ := List.exists_cons_of_ne_nil hz
      obtain rfl : u = none := (List.cons_prefix_cons.mp hzp).1
      cases l with
      | nil => exact (hpre ⟨[], by simpa using hl⟩ hsuf.isInfix).elim
      | cons v l =>
        obtain rfl : none = v := (List.cons.inj hzl).1
        have hmem : none ∈ plain (c :: m) := by simp [hl]
        exact (none_notMem_plain hmem).elim

lemma calm_behind (hp : p.Proper) {a : List α} (ha : ¬ p.opening <:+: a) (h : p.Calm s) :
    p.Calm (plain a ++ none :: s) := by
  constructor
  · rintro ⟨y, hy⟩
    rw [List.append_assoc] at hy
    exact h.closing ⟨y, by simpa [Pair.lift] using infix_behind hp.opening ha hy⟩
  · intro y hy
    rw [List.append_assoc] at hy
    exact h.place y (by simpa using infix_behind hp.opening ha hy)

variable [DecidableEq α]

lemma cut_plain {m t : List α} (hm : m ≠ []) :
    cut (plain m) (plain t) = (cut m t).map (Prod.map plain plain) := by
  cases hc : cut m t with
  | none =>
    exact (cut_eq_none (plain_ne_nil hm)).mpr fun hin =>
      (cut_eq_none hm).mp hc (infix_of_plain hin)
  | some ab =>
    obtain ⟨rfl, hno⟩ := (cut_eq_some hm).mp hc
    refine (cut_eq_some (plain_ne_nil hm)).mpr ⟨by simp, fun hin => hno ?_⟩
    refine infix_of_plain ?_
    rwa [plain_append, plain, plain, plain, List.map_dropLast]

lemma Pair.First.plain {t a b after : List α} (hp : p.Proper) (h : p.First t a b after) :
    p.lift.First (plain t) (plain a) (plain b) (plain after) := by
  constructor
  · rw [Pair.lift, cut_plain hp.opening, h.opened]
    simp
  · have hcut := cut_plain (t := b ++ p.closing ++ after) hp.closing
    rw [h.closed] at hcut
    simpa [Pair.lift] using hcut

lemma Pair.Frames.first (hp : p.Proper) (hf : p.Frames body) {a rest : List α}
    (ha : ¬ p.opening <:+: a) : p.First (a ++ (p.piece body ++ rest)) a body rest := by
  constructor
  · refine (cut_eq_some hp.opening).mpr ⟨by simp [Pair.piece], fun hin => ?_⟩
    rcases infix_append_cases hin with hin | hin | ⟨x, y, hx, hy, hxy, -, hpre⟩
    · exact ha hin
    · exact not_infix_dropLast hp.opening hin
    · exact hf.opening_apart x y hxy hx hy (hpre.trans (List.dropLast_prefix _))
  · refine (cut_eq_some hp.closing).mpr ⟨rfl, fun hin => hf.closing_once (hin.trans ?_)⟩
    rw [List.append_assoc]
    exact (List.suffix_append _ _).isInfix

lemma Pair.Frames.cut_closing (hp : p.Proper) (hf : p.Frames body) (a rest : List α)
    (ha : ¬ p.closing <:+: a) :
    cut p.closing (a ++ (p.piece body ++ rest)) = some (a ++ (p.opening ++ body), rest) := by
  refine (cut_eq_some hp.closing).mpr ⟨by simp [Pair.piece], fun hin => ?_⟩
  rw [List.append_assoc] at hin
  rcases infix_append_cases hin with hin | hin | ⟨x, y, hx, hy, hxy, -, hpre⟩
  · exact ha hin
  · exact hf.closing_once hin
  · refine hf.closing_apart x y hxy hx hy (hpre.trans ?_)
    exact (List.prefix_append_right_inj _).mpr (List.dropLast_prefix _)

lemma Pair.Frames.reread_cases (hp : p.Proper) (hf : p.Frames body) (s : List (Option α)) :
    s = plain s.reduceOption ∨
      (∃ a s', s = plain a ++ none :: s' ∧ ¬ p.opening <:+: a ∧
        p.First (print (p.piece body) s) a body (print (p.piece body) s')) ∨
      ∃ a l b s', s = plain (a ++ p.opening) ++ l ++ s' ∧ ¬ p.Calm s ∧
        p.First (print (p.piece body) s) a b (print (p.piece body) s') := by
  rcases split_places s with ⟨hs, -⟩ | ⟨t, s', rfl⟩
  · exact .inl hs
  refine .inr ?_
  rw [print_append, print_plain, print_none]
  by_cases ht : p.opening <:+: t
  · obtain ⟨a, t', hopen⟩ := exists_cut hp.opening ht
    obtain ⟨rfl, hno⟩ := (cut_eq_some hp.opening).mp hopen
    refine .inr ?_
    by_cases hclosing : p.closing <:+: t'
    · obtain ⟨b, t'', hclose⟩ := exists_cut hp.closing hclosing
      obtain ⟨rfl, hno'⟩ := (cut_eq_some hp.closing).mp hclose
      refine ⟨a, plain (b ++ p.closing), b,
        plain t'' ++ none :: s', by simp, fun hcalm => ?_, ?_⟩
      · refine hcalm.closing ⟨plain b, plain a,
          plain t'' ++ none :: s', ?_⟩
        simp [Pair.lift]
      · constructor
        · exact (cut_eq_some hp.opening).mpr ⟨by simp, hno⟩
        · exact (cut_eq_some hp.closing).mpr ⟨by simp, hno'⟩
    · refine ⟨a, plain t' ++ [none], t' ++ (p.opening ++ body), s', by simp,
        fun hcalm => ?_, ?_⟩
      · refine hcalm.place (plain t') ⟨plain a, s', ?_⟩
        simp
      · constructor
        · refine (cut_eq_some hp.opening).mpr ⟨?_, hno⟩
          simp [Pair.piece]
        · have := hf.cut_closing hp t' (print (p.piece body) s') hclosing
          rw [← this]
          simp [Pair.piece]
  · exact .inl ⟨t, s', rfl, ht, hf.first hp ht⟩

/-- **Reading a printed text again.** The places are found where they were, and nothing else, just
when no opening delimiter stands before a closing one or a place; else text outside them is lost. -/
theorem Pair.Frames.reread (hp : p.Proper) (hf : p.Frames body) (s : List (Option α)) :
    let out := p.lift.replace [none] (plain (print (p.piece body) s))
    (p.Calm s → out = s) ∧ out.reduceOption.Sublist s.reduceOption ∧
      (¬ p.Calm s → out.reduceOption.length + p.opening.length ≤ s.reduceOption.length) := by
  induction hn : s.length using Nat.strong_induction_on generalizing s with
  | _ n ih =>
    rcases hf.reread_cases hp s with
      hs | ⟨a, s', rfl, ha, hfirst⟩ | ⟨a, l, b, s', rfl, hno, hfirst⟩
    · dsimp only
      obtain ⟨hsub, hlen⟩ := Pair.own_replace (s := s) hp (r := [none]) rfl
      have hplace : ∀ y, ¬ plain p.opening ++ y ++ [none] <:+: s := by
        intro y hy
        rw [hs] at hy
        exact none_notMem_plain (hy.subset (by simp))
      rw [hs, print_plain, ← hs]
      refine ⟨fun hcalm => replace_eq_self hp.lift hcalm.closing _, hsub, fun hno => hlen ?_⟩
      by_contra hw
      exact hno ⟨hw, hplace⟩
    · have hlt : s'.length < n := by
        rw [← hn]
        simp only [List.length_append, List.length_cons]
        omega
      obtain ⟨heq, hsub, hlen⟩ := ih _ hlt s' rfl
      dsimp only at heq hsub hlen ⊢
      rw [(hfirst.plain hp).replace_eq hp.lift]
      simp only [List.reduceOption_append, own_plain, List.cons_append, List.nil_append,
        List.reduceOption_cons_of_none]
      refine ⟨fun hcalm => ?_, hsub.append_left a, fun hno => ?_⟩
      · have hbehind := (List.suffix_cons none s').trans (List.suffix_append (plain a) _)
        rw [heq (hcalm.mono hbehind.isInfix)]
      · have := hlen fun hcalm => hno (calm_behind hp ha hcalm)
        simp only [List.length_append]
        omega
    · have hlt : s'.length < n := by
        have := List.length_pos_iff.mpr hp.opening
        rw [← hn]
        simp only [List.length_append, plain, List.length_map]
        omega
      obtain ⟨-, hsub, -⟩ := ih _ hlt s' rfl
      dsimp only at hsub ⊢
      rw [(hfirst.plain hp).replace_eq hp.lift]
      simp only [List.reduceOption_append, own_plain, List.cons_append, List.nil_append,
        List.reduceOption_cons_of_none, List.append_assoc]
      have hlen := hsub.length_le
      refine ⟨fun hcalm => (hno (by simpa using hcalm)).elim, (hsub.trans ?_).append_left a,
        fun _ => ?_⟩
      · exact ((List.suffix_append _ _).trans (List.suffix_append _ _)).sublist
      · simp only [List.length_append]
        omega

end Reread

end OpenRig.Delimited
