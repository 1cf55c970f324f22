import OpenRig.JsText
import Mathlib.Data.List.DropRight

/-!
Text made of fields: trimming, splitting at white space, joining with spaces, the value of a named
field among the words, and the text after the first occurrence of another.
-/

namespace OpenRig.FieldText

open OpenRig.JsText

abbrev Text := List Char

/-- `s.trim()`. -/
def trim (s : Text) : Text := (s.dropWhile isWhitespace).rdropWhile isWhitespace

/-- `s.split(/\s+/)` of a trimmed text that is not empty. -/
def words (s : Text) : List Text := (s.splitOnP isWhitespace).filter (· ≠ [])

/-- `tokens.join(" ")`. -/
def spaced : List Text → Text
  | [] => []
  | [t] => t
  | t :: ts => t ++ ' ' :: spaced ts

def field (name value : Text) : Text := name ++ '=' :: value

/-- The value of the first word that begins with the name and an equals sign, unless it is empty. -/
def valueOf (name : Text) (fields : List Text) : Option Text :=
  ((fields.find? (name ++ ['=']).isPrefixOf).map (·.drop (name.length + 1))).filter (· ≠ [])

/-- What follows the first occurrence of the pattern. -/
def afterFirst (pattern : Text) : Text → Option Text
  | [] => if pattern = [] then some [] else none
  | c :: s =>
    if pattern.isPrefixOf (c :: s) then some ((c :: s).drop pattern.length)
    else afterFirst pattern s

/-- A word: some characters, none of them white space. -/
def IsWord (w : Text) : Prop := w ≠ [] ∧ ∀ c ∈ w, isWhitespace c = false

/-! ### Trimming -/

lemma trim_eq_self {s : Text} (hhead : ∀ c ∈ s.head?, isWhitespace c = false)
    (hlast : ∀ c ∈ s.getLast?, isWhitespace c = false) : trim s = s := by
  have hdrop : s.dropWhile isWhitespace = s := by
    cases s with
    | nil => rfl
    | cons c s => rw [List.dropWhile_cons_of_neg (by simp [hhead c rfl])]
  rw [trim, hdrop, List.rdropWhile_eq_self_iff]
  intro hne
  simp [hlast (s.getLast hne) (List.getLast_mem_getLast? hne)]

lemma trim_getLast {s : Text} : ∀ c ∈ (trim s).getLast?, isWhitespace c = false := by
  intro c hc
  have hne : trim s ≠ [] := by
    intro hnil
    rw [hnil] at hc
    simp at hc
  rw [List.getLast?_eq_some_getLast hne] at hc
  obtain rfl := Option.some.inj hc
  exact Bool.eq_false_iff.mpr (List.rdropWhile_last_not isWhitespace (s.dropWhile isWhitespace) hne)

lemma trim_head {s : Text} : ∀ c ∈ (trim s).head?, isWhitespace c = false := by
  intro c hc
  obtain ⟨rest, hrest⟩ : trim s <+: s.dropWhile isWhitespace := List.rdropWhile_prefix _ _
  have hdrop : (s.dropWhile isWhitespace).head? = some c := by
    rw [← hrest, List.head?_append, hc]
    rfl
  have := List.head?_dropWhile_not isWhitespace s
  rw [hdrop] at this
  exact this

lemma trim_trim (s : Text) : trim (trim s) = trim s := trim_eq_self trim_head trim_getLast

/-! ### Words -/

@[simp] lemma words_nil : words [] = [] := by
  unfold words
  rw [List.splitOnP_nil]
  rfl

lemma words_append {c : Char} (hc : isWhitespace c = true) (a b : Text) :
    words (a ++ c :: b) = words a ++ words b := by
  unfold words
  rw [List.splitOnP_append_cons a b hc, List.filter_append]

lemma words_cons {c : Char} (hc : isWhitespace c = true) (b : Text) :
    words (c :: b) = words b := by
  simpa using words_append hc [] b

lemma words_of_word {w : Text} (h : IsWord w) : words w = [w] := by
  unfold words
  rw [List.splitOnP_eq_singleton h.2]
  simp [h.1]

lemma words_trim (s : Text) : words (trim s) = words s := by
  have hdrop : ∀ s : Text, words (s.dropWhile isWhitespace) = words s := by
    intro s
    induction s with
    | nil => rfl
    | cons c s ih =>
      by_cases hc : isWhitespace c = true
      · rw [List.dropWhile_cons_of_pos hc, ih, words_cons hc]
      · rw [List.dropWhile_cons_of_neg hc]
  have hrdrop : ∀ s : Text, words (s.rdropWhile isWhitespace) = words s := by
    intro s
    induction s using List.reverseRecOn with
    | nil => rfl
    | append_singleton s c ih =>
      by_cases hc : isWhitespace c = true
      · rw [List.rdropWhile_concat_pos _ _ _ hc, ih, words_append hc, words_nil, List.append_nil]
      · rw [List.rdropWhile_concat_neg _ _ _ hc]
  rw [trim, hrdrop, hdrop]

lemma spaced_snoc (ts : List Text) (t : Text) (h : ts ≠ []) :
    spaced (ts ++ [t]) = spaced ts ++ ' ' :: t := by
  induction ts with
  | nil => exact absurd rfl h
  | cons u ts ih =>
    cases ts with
    | nil => rfl
    | cons v ts =>
      have := ih (by simp)
      rw [List.cons_append] at this
      simp only [List.cons_append, spaced, this, List.append_assoc]

/-- The words of a joined list of words, whatever its last text is made of. -/
lemma words_spaced {ts : List Text} (h : ∀ t ∈ ts, IsWord t) (w : Text) :
    words (spaced (ts ++ [w])) = ts ++ words w := by
  induction ts with
  | nil => rfl
  | cons t ts ih =>
    have hspaced : spaced (t :: ts ++ [w]) = t ++ ' ' :: spaced (ts ++ [w]) := by
      cases ts with
      | nil => rfl
      | cons u ts => rfl
    rw [hspaced, words_append rfl, words_of_word (h t List.mem_cons_self),
      ih fun u hu => h u (List.mem_cons_of_mem t hu), List.cons_append, List.nil_append,
      List.cons_append]

lemma words_spaced_words {ts : List Text} (h : ∀ t ∈ ts, IsWord t) : words (spaced ts) = ts := by
  rcases List.eq_nil_or_concat ts with rfl | ⟨init, t, rfl⟩
  · rfl
  · rw [List.concat_eq_append] at h ⊢
    rw [words_spaced (fun u hu => h u (List.mem_append_left _ hu)),
      words_of_word (h t (List.mem_append_right _ (List.mem_singleton_self t)))]

lemma words_append_word {a d : Text} (ha : IsWord a)
    (hd : ∀ c ∈ d.head?, isWhitespace c = false) :
    words (a ++ d) = (a ++ (words d).headD []) :: (words d).tail := by
  have hsplit : ∀ a : Text, (∀ c ∈ a, isWhitespace c = false) →
      (a ++ d).splitOnP isWhitespace = (d.splitOnP isWhitespace).modifyHead (a ++ ·) := by
    intro a ha
    induction a with
    | nil =>
      cases h : d.splitOnP isWhitespace with
      | nil => simp [h]
      | cons w ws => simp [h]
    | cons c a ih =>
      have hc : ¬isWhitespace c = true := by simp [ha c List.mem_cons_self]
      rw [List.cons_append, List.splitOnP_cons_eq_if_modifyHead, if_neg hc,
        ih fun x hx => ha x (List.mem_cons_of_mem c hx), List.modifyHead_modifyHead]
      rfl
  unfold words
  rw [hsplit a ha.2]
  cases hd' : d.splitOnP isWhitespace with
  | nil => exact absurd hd' (List.splitOnP_ne_nil _ _)
  | cons w ws =>
    have hw : w = [] → ws = [] := by
      rintro rfl
      cases d with
      | nil =>
        rw [List.splitOnP_nil] at hd'
        exact (List.cons.inj hd').2.symm
      | cons c d =>
        have hc : ¬isWhitespace c = true := by simp [hd c rfl]
        rw [List.splitOnP_cons_eq_if_modifyHead, if_neg hc] at hd'
        cases h : d.splitOnP isWhitespace with
        | nil => exact absurd h (List.splitOnP_ne_nil _ _)
        | cons x xs =>
          rw [h] at hd'
          cases hd'
    by_cases hnil : w = []
    · rw [hnil, hw hnil]
      simp [ha.1]
    · simp [ha.1, hnil]

lemma spaced_cons (t : Text) {ts : List Text} (h : ts ≠ []) :
    spaced (t :: ts) = t ++ ' ' :: spaced ts := by
  cases ts with
  | nil => exact absurd rfl h
  | cons u ts => rfl

lemma noSpace_of_all {w : Text} (h : (w.all fun c => !isWhitespace c) = true) :
    ∀ c ∈ w, isWhitespace c = false := fun c hc => by
  simpa using List.all_eq_true.mp h c hc

lemma isWord_field {name value : Text} (hn : ∀ c ∈ name, isWhitespace c = false)
    (hv : ∀ c ∈ value, isWhitespace c = false) : IsWord (field name value) := by
  refine ⟨by simp [field], fun c hc => ?_⟩
  rcases List.mem_append.mp hc with hc | hc
  · exact hn c hc
  · rcases List.mem_cons.mp hc with rfl | hc
    · decide
    · exact hv c hc

/-! ### Fields -/

lemma field_isPrefixOf {name name' value : Text} (h : '=' ∉ name) (h' : '=' ∉ name') :
    (name ++ ['=']).isPrefixOf (field name' value) = true ↔ name = name' := by
  rw [List.isPrefixOf_iff_prefix]
  constructor
  · intro hp
    induction name generalizing name' with
    | nil =>
      cases name' with
      | nil => rfl
      | cons d name' =>
        simp only [field, List.nil_append, List.cons_append, List.cons_prefix_cons] at hp
        exact absurd (List.mem_cons.mpr (.inl hp.1)) h'
    | cons c name ih =>
      cases name' with
      | nil =>
        simp only [field, List.nil_append, List.cons_append, List.cons_prefix_cons] at hp
        exact absurd (List.mem_cons.mpr (.inl hp.1.symm)) h
      | cons d name' =>
        simp only [field, List.cons_append, List.cons_prefix_cons] at hp
        obtain ⟨rfl, hp⟩ := hp
        rw [ih (fun hm => h (List.mem_cons_of_mem _ hm)) (fun hm => h' (List.mem_cons_of_mem _ hm))
          hp]
  · rintro rfl
    exact ⟨value, by simp [field]⟩

lemma valueOf_cons_ne {name w : Text} (h : (name ++ ['=']).isPrefixOf w = false)
    (fields : List Text) : valueOf name (w :: fields) = valueOf name fields := by
  rw [valueOf, List.find?_cons_of_neg (by simp [h])]
  rfl

lemma valueOf_cons_field {name value : Text} (hn : '=' ∉ name) (hv : value ≠ [])
    (fields : List Text) : valueOf name (field name value :: fields) = some value := by
  rw [valueOf, List.find?_cons_of_pos ((field_isPrefixOf hn hn).mpr rfl)]
  have hdrop : (field name value).drop (name.length + 1) = value := by
    rw [field, List.append_cons]
    exact List.drop_left' (by simp)
  simp [hdrop, hv]

lemma valueOf_eq_none {name : Text} {fields : List Text}
    (h : ∀ w ∈ fields, (name ++ ['=']).isPrefixOf w = false) : valueOf name fields = none := by
  rw [valueOf, List.find?_eq_none.mpr fun w hw => by simp [h w hw]]
  rfl

/-- The fields that have a value, in order. -/
def fieldsOf (opts : List (Text × Option Text)) : List Text :=
  opts.filterMap fun o => o.2.map (field o.1)

/-- **A named field reads back** from a list of fields with distinct names. -/
theorem valueOf_fieldsOf {opts : List (Text × Option Text)} {name : Text} {value : Option Text}
    (hnodup : (opts.map Prod.fst).Nodup) (heq : ∀ o ∈ opts, '=' ∉ o.1)
    (hne : ∀ o ∈ opts, o.2 ≠ some []) (h : (name, value) ∈ opts) (rest : List Text)
    (hrest : value = none → valueOf name rest = none) :
    valueOf name (fieldsOf opts ++ rest) = value := by
  induction opts with
  | nil => cases h
  | cons o opts ih =>
    obtain ⟨n, v⟩ := o
    rw [List.map_cons, List.nodup_cons] at hnodup
    have hn : '=' ∉ n := heq (n, v) List.mem_cons_self
    have heq' : ∀ o ∈ opts, '=' ∉ o.1 := fun o ho => heq o (List.mem_cons_of_mem _ ho)
    have hne' : ∀ o ∈ opts, o.2 ≠ some [] := fun o ho => hne o (List.mem_cons_of_mem _ ho)
    rcases List.mem_cons.mp h with heqo | hmem
    · obtain ⟨rfl, rfl⟩ := Prod.mk.inj heqo
      cases value with
      | some value =>
        have hv : value ≠ [] := fun hnil =>
          hne (name, some value) List.mem_cons_self (congrArg some hnil)
        exact valueOf_cons_field hn hv _
      | none =>
        -- No other field has this name.
        have hothers : ∀ w ∈ fieldsOf opts, (name ++ ['=']).isPrefixOf w = false := by
          intro w hw
          obtain ⟨o, ho, hw⟩ := List.mem_filterMap.mp hw
          obtain ⟨x, -, rfl⟩ := Option.map_eq_some_iff.mp hw
          rw [Bool.eq_false_iff]
          intro hp
          rw [(field_isPrefixOf hn (heq' o ho)).mp hp] at hnodup
          exact hnodup.1 (List.mem_map.mpr ⟨o, ho, rfl⟩)
        have hskip : ∀ ws : List Text, (∀ w ∈ ws, (name ++ ['=']).isPrefixOf w = false) →
            valueOf name (ws ++ rest) = none := by
          intro ws hws
          induction ws with
          | nil => exact hrest rfl
          | cons w ws ihw =>
            rw [List.cons_append, valueOf_cons_ne (hws w List.mem_cons_self)]
            exact ihw fun u hu => hws u (List.mem_cons_of_mem w hu)
        exact hskip _ hothers
    · have hnn : name ≠ n := by
        rintro rfl
        exact hnodup.1 (List.mem_map.mpr ⟨(name, value), hmem, rfl⟩)
      have ih' := ih hnodup.2 heq' hne' hmem
      cases v with
      | none => exact ih'
      | some v =>
        have hp : (name ++ ['=']).isPrefixOf (field n v) = false := by
          rw [Bool.eq_false_iff]
          exact fun hp => hnn ((field_isPrefixOf (heq' _ hmem) hn).mp hp)
        exact (valueOf_cons_ne hp _).trans ih'

/-! ### The text after an occurrence -/

lemma afterFirst_append {c : Char} {pattern w : Text} (h : c ∉ w) (rest : Text) :
    afterFirst (c :: pattern) (w ++ rest) = afterFirst (c :: pattern) rest := by
  induction w with
  | nil => rfl
  | cons d w ih =>
    have hne : ¬(c :: pattern).isPrefixOf (d :: (w ++ rest)) = true := by
      rw [List.isPrefixOf_iff_prefix, List.cons_prefix_cons]
      exact fun hp => h (List.mem_cons.mpr (.inl hp.1))
    rw [List.cons_append, afterFirst, if_neg hne]
    exact ih fun hm => h (List.mem_cons_of_mem d hm)

lemma afterFirst_cons_ne {c d e : Char} {pattern rest : Text} (h : d ≠ e) :
    afterFirst (c :: d :: pattern) (c :: e :: rest) =
      afterFirst (c :: d :: pattern) (e :: rest) := by
  have hne : ¬(c :: d :: pattern).isPrefixOf (c :: e :: rest) = true := by
    rw [List.isPrefixOf_iff_prefix, List.cons_prefix_cons, List.cons_prefix_cons]
    exact fun hp => h hp.2.1
  rw [afterFirst, if_neg hne]

lemma afterFirst_self {c : Char} {pattern rest : Text} :
    afterFirst (c :: pattern) (c :: pattern ++ rest) = some rest := by
  have hp : (c :: pattern).isPrefixOf (c :: (pattern ++ rest)) = true := by
    rw [List.isPrefixOf_iff_prefix]
    exact ⟨rest, rfl⟩
  rw [List.cons_append, afterFirst, if_pos hp]
  simp

lemma afterFirst_spaced {d : Char} {pattern : Text} {ts : List Text} (hw : ∀ t ∈ ts, IsWord t)
    (hd : ∀ t ∈ ts, t.head? ≠ some d) (rest : Text) :
    afterFirst (' ' :: d :: pattern) (spaced ts ++ rest) =
      afterFirst (' ' :: d :: pattern) rest := by
  have hspace : ∀ t ∈ ts, ' ' ∉ t := by
    intro t ht hm
    have := (hw t ht).2 ' ' hm
    revert this
    decide
  induction ts with
  | nil => rfl
  | cons t ts ih =>
    have ih := ih (fun u hu => hw u (List.mem_cons_of_mem t hu))
      (fun u hu => hd u (List.mem_cons_of_mem t hu))
      fun u hu => hspace u (List.mem_cons_of_mem t hu)
    have ht := hspace t List.mem_cons_self
    by_cases hnil : ts = []
    · subst hnil
      exact afterFirst_append ht rest
    · obtain ⟨u, us, rfl⟩ := List.exists_cons_of_ne_nil hnil
      obtain ⟨c, u', rfl⟩ := List.exists_cons_of_ne_nil (hw u (by simp)).1
      have hc : d ≠ c := by
        rintro rfl
        exact hd (d :: u') (by simp) rfl
      obtain ⟨tail, htail⟩ : ∃ tail, spaced ((c :: u') :: us) ++ rest = c :: tail := by
        cases us with
        | nil => exact ⟨_, rfl⟩
        | cons v us => exact ⟨_, rfl⟩
      rw [spaced_cons t hnil, List.append_assoc, List.cons_append, afterFirst_append ht, htail,
        afterFirst_cons_ne hc, ← htail, ih]

end OpenRig.FieldText
