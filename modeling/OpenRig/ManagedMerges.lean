import OpenRig.ManagedMarkers
import OpenRig.Runs
import Mathlib.Data.List.TakeWhile

/-!
What a run of merges keeps of a guidance file.

What a call writes is printed from a text with places. Reading it again finds that text, just when
it is quiet; else text outside the blocks is lost.
-/

namespace OpenRig.ManagedBlocks

open OpenRig.Delimited OpenRig.Runs OpenRig.SecretRedaction

variable {c : Merge} {s : Placed}

/-! ### The ids of a call -/

lemma replaceableIds_cases (c : Merge) (existing : Text) :
    ∃ ids, c.blockId ∉ ids ∧ (∀ id ∈ ids, id ∈ c.allReplaceIds) ∧
      c.replaceableIds existing =
        if replaceable existing c.blockId then c.blockId :: ids else ids := by
  refine ⟨((c.replaceBlockIds.filter fun b => !b == c.blockId).eraseDups).filter
    (replaceable existing), ?_, ?_, ?_⟩
  · simp
  · intro id hid
    have hmem := (List.mem_filter.mp hid).1
    rw [Merge.allReplaceIds, List.eraseDups_cons]
    exact List.mem_cons_of_mem _ hmem
  · rw [Merge.replaceableIds, Merge.allReplaceIds, List.eraseDups_cons, List.filter_cons]

lemma mem_replaceableIds {existing id : Text} (hid : id ∈ c.allReplaceIds)
    (h : replaceable existing id = true) : id ∈ c.replaceableIds existing :=
  List.mem_filter.mpr ⟨hid, h⟩

lemma mem_allReplaceIds {existing id : Text} (h : id ∈ c.replaceableIds existing) :
    id ∈ c.allReplaceIds := (List.mem_filter.mp h).1

lemma replaceable_current {w : Text} {s : Placed} {id : Text}
    (h : (current id).lift.Within s) : replaceable (print w s) id = true := by
  have hs := (includes_iff (isMarker_start id).ne_nil).mpr (infix_print (h.opening) w)
  have he := (includes_iff (isMarker_end id).ne_nil).mpr (infix_print (h.closing) w)
  rw [replaceable, hs, he]
  rfl

lemma replaceable_legacy {w : Text} {s : Placed} {id : Text}
    (h : (legacy id).lift.Within s) : replaceable (print w s) id = true := by
  have hs := (includes_iff (isMarker_legacyStart id).ne_nil).mpr
    (infix_print (h.opening) w)
  have he := (includes_iff (isMarker_legacyEnd id).ne_nil).mpr
    (infix_print (h.closing) w)
  rw [replaceable, hs, he, Bool.and_self, Bool.or_true]

lemma infix_block (c : Merge) :
    MANAGED_BLOCK_START c.blockId <:+: c.block ∧ MANAGED_BLOCK_END c.blockId <:+: c.block := by
  constructor
  · exact ⟨[], [NL] ++ c.content ++ [NL] ++ MANAGED_BLOCK_END c.blockId,
      by simp [Merge.block, managedBlockText]⟩
  · exact (List.suffix_append _ _).isInfix

lemma replaceable_block {existing : Text} (h : c.block <:+: existing) :
    replaceable existing c.blockId = true := by
  obtain ⟨hs, he⟩ := infix_block c
  rw [replaceable, (includes_iff (isMarker_start _).ne_nil).mpr (hs.trans h),
    (includes_iff (isMarker_end _).ne_nil).mpr (he.trans h)]
  rfl

lemma block_infix_print {s : Placed} (h : none ∈ s) (w : Text) : w <:+: print w s := by
  obtain ⟨x, y, rfl⟩ := List.append_of_mem h
  exact ⟨print w x, print w y, by simp⟩

/-! ### One call, with places -/

lemma own_replacement (id : Text) :
    (if id = c.blockId then [none] else [] : Placed).reduceOption = [] := by
  split <;> rfl

lemma print_replacement (id : Text) :
    print c.block (if id = c.blockId then [none] else []) =
      if id = c.blockId then c.block else [] := by
  split <;> simp

lemma print_placeId (h : c.Apart) {id : Text} (hid : id ∈ c.allReplaceIds) {s : Placed}
    (hs : id = c.blockId → ∃ t, s = plain t) :
    print c.block (c.placeId s id) = c.replaceId (print c.block s) id := by
  have hl := h.legacy id hid
  have hsees : Sees (current id).opening c.block s ∧ Sees (current id).closing c.block s := by
    by_cases he : id = c.blockId
    · obtain ⟨t, rfl⟩ := hs he
      exact ⟨sees_plain _ _ _, sees_plain _ _ _⟩
    · obtain ⟨ho, hc⟩ := h.current id hid he
      exact ⟨ho.sees s, hc.sees s⟩
  rw [Merge.placeId, Merge.replaceId, Pair.print_replace (proper_legacy id) (hl.1.sees _)
    (hl.2.sees _), Pair.print_replace (proper_current id) hsees.1 hsees.2, print_replacement]

lemma print_foldl (h : c.Apart) {ids : List Text} (hids : ∀ id ∈ ids, id ∈ c.allReplaceIds)
    (hno : c.blockId ∉ ids) (s : Placed) :
    print c.block (ids.foldl c.placeId s) = ids.foldl c.replaceId (print c.block s) := by
  induction ids generalizing s with
  | nil => rfl
  | cons id ids ih =>
    rw [List.mem_cons, not_or] at hno
    obtain ⟨hne, hno⟩ := hno
    rw [List.foldl_cons, List.foldl_cons, ih (fun i hi => hids i (List.mem_cons_of_mem _ hi)) hno,
      print_placeId h (hids id List.mem_cons_self) fun he => absurd he.symm hne]

lemma print_outside (h : c.Apart) (existing : Text) :
    print c.block (c.outside (some existing)) =
      (c.replaceableIds existing).foldl c.replaceId existing := by
  obtain ⟨ids, hno, hids, heq⟩ := replaceableIds_cases c existing
  rw [Merge.outside, heq]
  split
  · rw [List.foldl_cons, List.foldl_cons, print_foldl h hids hno,
      print_placeId h (blockId_mem c) fun _ => ⟨existing, rfl⟩, print_plain]
  · rw [print_foldl h hids hno, print_plain]

/-! ### Reading the written file again -/

lemma own_placeId (s : Placed) (id : Text) :
    (c.placeId s id).reduceOption.Sublist s.reduceOption ∧
      ((current id).lift.Within s ∨ (legacy id).lift.Within s →
        (c.placeId s id).reduceOption.length + 4 ≤ s.reduceOption.length) := by
  have hr := own_replacement (c := c) id
  obtain ⟨hsub₁, hlen₁⟩ := Pair.own_replace (s := s) (proper_current id) hr
  obtain ⟨hsub₂, hlen₂⟩ := Pair.own_replace (proper_legacy id) hr
    (s := (current id).lift.replace (if id = c.blockId then [none] else []) s)
  have h₁ := four_le_start id
  have h₂ := four_le_legacyStart id
  have hle := hsub₂.length_le
  refine ⟨hsub₂.trans hsub₁, fun h => ?_⟩
  by_cases hw : (current id).lift.Within s
  · have := hlen₁ hw
    exact (Nat.add_le_add hle h₁).trans this
  · rw [Pair.replace_eq_self (proper_current id).lift hw] at hlen₂ hsub₂
    rw [Merge.placeId, Pair.replace_eq_self (proper_current id).lift hw]
    exact (Nat.add_le_add_left h₂ _).trans (hlen₂ (h.resolve_left hw))

lemma placeId_eq_self {s : Placed} {id : Text} (hc : ¬ (current id).lift.Within s)
    (hl : ¬ (legacy id).lift.Within s) : c.placeId s id = s := by
  rw [Merge.placeId, Pair.replace_eq_self (proper_current id).lift hc,
    Pair.replace_eq_self (proper_legacy id).lift hl]

lemma own_foldl (ids : List Text) (s : Placed) :
    (ids.foldl c.placeId s).reduceOption.Sublist s.reduceOption ∧
      ((∃ id ∈ ids, (current id).lift.Within s ∨ (legacy id).lift.Within s) →
        (ids.foldl c.placeId s).reduceOption.length + 4 ≤ s.reduceOption.length) := by
  induction ids generalizing s with
  | nil => exact ⟨.refl _, by simp⟩
  | cons id ids ih =>
    obtain ⟨hsub, hlen⟩ := own_placeId (c := c) s id
    obtain ⟨hsub', hlen'⟩ := ih (c.placeId s id)
    refine ⟨hsub'.trans hsub, ?_⟩
    rintro ⟨i, hi, hw⟩
    rw [List.foldl_cons]
    by_cases hid : (current id).lift.Within s ∨ (legacy id).lift.Within s
    · have := hlen hid
      have := hsub'.length_le
      omega
    · -- the first id has no match, so the text is as before
      obtain ⟨hc, hl⟩ := not_or.mp hid
      rw [placeId_eq_self hc hl] at hlen' ⊢
      rcases List.mem_cons.mp hi with rfl | hi
      · exact absurd hw hid
      · exact hlen' ⟨i, hi, hw⟩

lemma foldl_eq_self {ids : List Text} {s : Placed}
    (h : ∀ id ∈ ids, ¬ (current id).lift.Within s ∧ ¬ (legacy id).lift.Within s) :
    ids.foldl c.placeId s = s := by
  induction ids with
  | nil => rfl
  | cons id ids ih =>
    obtain ⟨hc, hl⟩ := h id List.mem_cons_self
    rw [List.foldl_cons, placeId_eq_self hc hl]
    exact ih fun i hi => h i (List.mem_cons_of_mem _ hi)

lemma outside_print (h : c.Apart) (s : Placed) :
    (current c.blockId).Calm s ∧
        c.outside (some (print c.block s)) =
          (c.replaceableIds (print c.block s)).foldl c.placeId s ∨
      ¬ (current c.blockId).Calm s ∧
        (c.ownText (some (print c.block s))).length + 4 ≤ s.reduceOption.length ∧
        (c.ownText (some (print c.block s))).Sublist s.reduceOption := by
  obtain ⟨ids, -, -, heq⟩ := replaceableIds_cases c (print c.block s)
  have hp := proper_current c.blockId
  by_cases hb : replaceable (print c.block s) c.blockId = true
  · rw [if_pos hb] at heq
    obtain ⟨hsame, hsub, hlen⟩ := h.own.reread hp s
    rw [← block_eq] at hsame hsub hlen
    by_cases hcalm : (current c.blockId).Calm s
    · refine .inl ⟨hcalm, ?_⟩
      rw [Merge.outside, heq, List.foldl_cons, List.foldl_cons, Merge.placeId, Merge.placeId,
        if_pos rfl, hsame hcalm, Pair.replace_eq_self hp.lift hcalm.closing]
    · refine .inr ⟨hcalm, ?_⟩
      have h₁ := four_le_start c.blockId
      have h₂ := hlen hcalm
      obtain ⟨hsub₂, -⟩ := Pair.own_replace (r := [none]) (proper_legacy c.blockId) rfl
        (s := (current c.blockId).lift.replace [none] (plain (print c.block s)))
      obtain ⟨hsub₃, -⟩ := own_foldl (c := c) ids (c.placeId (plain (print c.block s)) c.blockId)
      have hown : (c.ownText (some (print c.block s))).Sublist
          ((current c.blockId).lift.replace [none] (plain (print c.block s))).reduceOption := by
        rw [Merge.ownText, Merge.outside, heq, List.foldl_cons]
        refine hsub₃.trans ?_
        rw [Merge.placeId, if_pos rfl]
        exact hsub₂
      have := hown.length_le
      exact ⟨(Nat.add_le_add this h₁).trans h₂, hown.trans hsub⟩
  · -- without the block's markers the text has no place
    rw [if_neg hb] at heq
    have hno : none ∉ s := fun hn => hb (replaceable_block (block_infix_print hn c.block))
    have hplain : s = plain s.reduceOption := by
      rcases split_places s with ⟨hs, -⟩ | ⟨a, s', rfl⟩
      · exact hs
      · simp at hno
    refine .inl ⟨⟨fun hw => hb (replaceable_current hw), fun y hy => ?_⟩, ?_⟩
    · exact hno (hy.subset (by simp))
    · rw [Merge.outside]
      congr 1
      rw [hplain, print_plain]

lemma quiet_or (h : ¬ Quiet c s) (hcalm : (current c.blockId).Calm s) :
    ∃ id ∈ c.allReplaceIds, (current id).lift.Within s ∨ (legacy id).lift.Within s := by
  by_contra hno
  push Not at hno
  exact h ⟨hcalm, fun id hid => (hno id hid).1, fun id hid => (hno id hid).2⟩

/-- **What reading the written file finds.** A quiet text is found as it was written; of any other
the text outside blocks gets shorter. -/
theorem outside_again (h : c.Apart) (s : Placed) :
    (Quiet c s → c.outside (some (print c.block s)) = s) ∧
      (c.ownText (some (print c.block s))).Sublist s.reduceOption ∧
      (¬ Quiet c s →
        (c.ownText (some (print c.block s))).length + 4 ≤ s.reduceOption.length) := by
  rcases outside_print h s with ⟨hcalm, heq⟩ | ⟨hcalm, hlen, hsub⟩
  · obtain ⟨hsub, hlen⟩ := own_foldl (c := c) (c.replaceableIds (print c.block s)) s
    rw [Merge.ownText, heq]
    refine ⟨fun hq => ?_, hsub, fun hq => ?_⟩
    · refine foldl_eq_self fun id hid => ?_
      have hid := mem_allReplaceIds hid
      exact ⟨hq.current id hid, hq.legacy id hid⟩
    · obtain ⟨id, hid, hw⟩ := quiet_or hq hcalm
      refine hlen ⟨id, mem_replaceableIds hid ?_, hw⟩
      exact hw.elim replaceable_current replaceable_legacy
  · exact ⟨fun hq => absurd hq.own hcalm, hsub, fun _ => hlen⟩

/-! ### Line breaks and white space at the ends -/

lemma infix_snoc {β : Type} {l s : List β} {a : β} (hl : l ≠ []) (ha : l.getLast? ≠ some a)
    (h : l <:+: s ++ [a]) : l <:+: s := by
  rcases List.infix_concat_iff.mp h with hsuf | hin
  · obtain ⟨x, hx⟩ := hsuf
    refine absurd ?_ ha
    have hlast := congrArg List.getLast? hx
    rw [List.getLast?_append_of_ne_nil x hl, List.getLast?_concat] at hlast
    exact hlast
  · exact hin

lemma infix_newlines {m t : Text} (hm : m.getLast? = some 0x3E) {n : ℕ}
    (h : m <:+: t ++ List.replicate n NL) : m <:+: t := by
  have hne : m ≠ [] := by
    rintro rfl
    cases hm
  induction n with
  | zero => simpa using h
  | succ n ih =>
    rw [List.replicate_succ', ← List.append_assoc] at h
    exact ih (infix_snoc hne (by rw [hm]; decide) h)

lemma Pair.getLast_needle {p : Pair UInt16} (h : IsMarker p.closing) (y : Text) :
    (p.opening ++ y ++ p.closing).getLast? = some 0x3E := by
  rw [List.getLast?_append_of_ne_nil _ h.ne_nil, h.getLast]

/-- A text that has no match of a given id and no marker of the block's own. -/
structure Bare (c : Merge) (t : Text) : Prop where
  own : ¬ MANAGED_BLOCK_START c.blockId <:+: t
  current : ∀ id ∈ c.allReplaceIds, ¬ (current id).Within t
  legacy : ∀ id ∈ c.allReplaceIds, ¬ (legacy id).Within t

lemma Bare.mono {t t' : Text} (h : Bare c t) (ht : t' <:+: t) : Bare c t' :=
  ⟨fun hin => h.own (hin.trans ht), fun id hid hw => h.current id hid (hw.mono ht),
    fun id hid hw => h.legacy id hid (hw.mono ht)⟩

lemma bare_newlines {t : Text} (n : ℕ) : Bare c (t ++ List.replicate n NL) ↔ Bare c t := by
  refine ⟨fun h => h.mono (List.prefix_append _ _).isInfix, fun h => ⟨fun hin => ?_, ?_, ?_⟩⟩
  · exact h.own (infix_newlines (isMarker_start _).getLast hin)
  · rintro id hid ⟨y, hy⟩
    exact h.current id hid ⟨y, infix_newlines (Pair.getLast_needle (isMarker_end id) y) hy⟩
  · rintro id hid ⟨y, hy⟩
    exact h.legacy id hid ⟨y, infix_newlines (Pair.getLast_needle (isMarker_legacyEnd id) y) hy⟩

lemma bare_nil (c : Merge) : Bare c [] := by
  refine ⟨fun h => (isMarker_start _).ne_nil (List.infix_nil.mp h), ?_, ?_⟩
  · rintro id - ⟨y, hy⟩
    exact (isMarker_end id).ne_nil (List.append_eq_nil_iff.mp (List.infix_nil.mp hy)).2
  · rintro id - ⟨y, hy⟩
    exact (isMarker_legacyEnd id).ne_nil (List.append_eq_nil_iff.mp (List.infix_nil.mp hy)).2

lemma within_before {p : Pair UInt16} (hp : p.Proper) {x y : Text}
    (hy : y.length < p.closing.length) (h : p.lift.Within (plain x ++ none :: plain y)) :
    p.Within x := by
  refine (h.of_place hp).resolve_right fun hin => ?_
  have := (infix_of_plain hin).length_le
  omega

lemma quiet_one {x y : Text} (hy : y.length ≤ 1) :
    Quiet c (plain x ++ none :: plain y) ↔ Bare c x := by
  have hshort : ∀ {m : Text}, 4 ≤ m.length → y.length < m.length := fun h => by omega
  have hx : plain x <:+: plain x ++ none :: plain y := (List.prefix_append _ _).isInfix
  constructor
  · intro h
    refine ⟨fun hin => ?_, fun id hid hw => ?_, fun id hid hw => ?_⟩
    · obtain ⟨u, v, rfl⟩ := hin
      exact h.own.place (plain v) ⟨plain u, plain y, by simp [current]⟩
    · exact h.current id hid ((Pair.within_plain.mpr hw).mono hx)
    · exact h.legacy id hid ((Pair.within_plain.mpr hw).mono hx)
  · intro h
    have hcalm : (current c.blockId).Calm (plain y) := by
      refine ⟨fun hw => ?_, fun z hz => none_notMem_plain (hz.subset (by simp))⟩
      have := (infix_of_plain hw.closing).length_le
      have := hshort (four_le_end c.blockId)
      simp only [current] at *
      omega
    exact ⟨calm_behind (proper_current _) h.own hcalm,
      fun id hid hw => h.current id hid (within_before (proper_current id)
        (hshort (four_le_end id)) hw),
      fun id hid hw => h.legacy id hid (within_before (proper_legacy id)
        (hshort (four_le_legacyEnd id)) hw)⟩

lemma trimEnd_spec (t : Text) : ∃ trail, t = trimEnd t ++ trail ∧
    (∀ x ∈ trail, isSpaceUnit x = true) ∧
      ∀ x, (trimEnd t).getLast? = some x → isSpaceUnit x = false := by
  refine ⟨(t.reverse.takeWhile isSpaceUnit).reverse, ?_, ?_, ?_⟩
  · rw [trimEnd, ← List.reverse_append, List.takeWhile_append_dropWhile, List.reverse_reverse]
  · intro x hx
    exact List.mem_takeWhile_imp (List.mem_reverse.mp hx)
  · intro x hx
    rw [trimEnd, List.getLast?_reverse] at hx
    have := List.head?_dropWhile_not isSpaceUnit t.reverse
    rw [hx] at this
    simpa using this

lemma trim_spec (t : Text) : ∃ lead trail, t = lead ++ trim t ++ trail ∧
    (∀ x ∈ trail, isSpaceUnit x = true) ∧ (∀ x ∈ lead, isSpaceUnit x = true) ∧
      (∀ x, (trim t).head? = some x → isSpaceUnit x = false) ∧
        ∀ x, (trim t).getLast? = some x → isSpaceUnit x = false := by
  obtain ⟨trail, ht, htrail, hlast⟩ := trimEnd_spec t
  refine ⟨(trimEnd t).takeWhile isSpaceUnit, trail, ?_, htrail, ?_, ?_, ?_⟩
  · rw [trim, List.takeWhile_append_dropWhile, ← ht]
  · intro x hx
    exact List.mem_takeWhile_imp hx
  · intro x hx
    have := List.head?_dropWhile_not isSpaceUnit (trimEnd t)
    rw [trim] at hx
    rw [hx] at this
    simpa using this
  · intro x hx
    refine hlast x ?_
    have hne : trim t ≠ [] := by
      intro h
      rw [h] at hx
      cases hx
    have hsplit : trimEnd t = (trimEnd t).takeWhile isSpaceUnit ++ trim t :=
      (List.takeWhile_append_dropWhile).symm
    rw [hsplit, List.getLast?_append_of_ne_nil _ hne]
    exact hx

lemma trimEnd_eq_self {t : Text} (hlast : ∀ x, t.getLast? = some x → isSpaceUnit x = false) :
    trimEnd t = t := by
  rw [trimEnd]
  cases hr : t.reverse with
  | nil => rw [List.reverse_eq_nil_iff.mp hr]; rfl
  | cons x r =>
    have hx := hlast x (by rw [← List.head?_reverse, hr]; rfl)
    rw [List.dropWhile_cons_of_neg (by simp [hx]), ← hr, List.reverse_reverse]

lemma trim_eq_self {t : Text} (hhead : ∀ x, t.head? = some x → isSpaceUnit x = false)
    (hlast : ∀ x, t.getLast? = some x → isSpaceUnit x = false) : trim t = t := by
  rw [trim, trimEnd_eq_self hlast]
  cases t with
  | nil => rfl
  | cons x t => rw [List.dropWhile_cons_of_neg (by simp [hhead x rfl])]

lemma trim_of_cover {t core : Text} {n : ℕ} (h : t.Sublist (core ++ List.replicate n NL))
    (hcore : trim t = core) (hne : core ≠ []) : ∃ m ≤ n, t = core ++ List.replicate m NL := by
  obtain ⟨lead, trail, ht, -, hlead, hhead, -⟩ := trim_spec t
  rw [hcore] at ht hhead
  obtain ⟨d, rest, rfl⟩ := List.exists_cons_of_ne_nil hne
  have hd := hhead d rfl
  -- no white space is before the first other unit, or that unit would be left over
  have hlead' : lead = [] := by
    cases lead with
    | nil => rfl
    | cons x lead =>
      have hx := hlead x List.mem_cons_self
      have hxd : x ≠ d := fun he => by simp [← he, hx] at hd
      rw [ht, List.cons_append, List.cons_append, List.cons_append] at h
      have hcount := (h.of_cons_of_ne hxd).countP_le (p := fun u => !isSpaceUnit u)
      have hnl : (List.replicate n NL).countP (fun u => !isSpaceUnit u) = 0 := by
        rw [List.countP_replicate, if_neg (by decide)]
      simp only [List.countP_cons, List.countP_append, hnl, hd, hx] at hcount
      simp at hcount
      omega
  subst hlead'
  rw [ht, List.nil_append] at h ⊢
  obtain ⟨m, hm, htrail⟩ := List.sublist_replicate_iff.mp ((List.append_sublist_append_left _).mp h)
  exact ⟨m, hm, by rw [htrail]⟩

lemma getLast_block (c : Merge) : c.block.getLast? = some 0x3E := by
  rw [Merge.block, managedBlockText,
    List.getLast?_append_of_ne_nil _ (isMarker_end c.blockId).ne_nil, (isMarker_end _).getLast]

lemma head_block (c : Merge) : c.block.head? = some 0x3C := by
  obtain ⟨x, hx⟩ := isMarker_start c.blockId
  simp [Merge.block, managedBlockText, hx]

lemma block_ne_nil (c : Merge) : c.block ≠ [] := by
  intro h
  have := head_block c
  rw [h] at this
  cases this

lemma not_space_ends : isSpaceUnit 0x3E = false ∧ isSpaceUnit 0x3C = false := by decide

lemma trim_appended (c : Merge) (t : Text) :
    trim (trim t ++ MANAGED_BLOCK_APPEND_SEPARATOR ++ c.block) =
      if trim t = [] then c.block
      else trim t ++ MANAGED_BLOCK_APPEND_SEPARATOR ++ c.block := by
  have hne := block_ne_nil c
  split
  · rename_i hnil
    have hlast : trimEnd ([] ++ MANAGED_BLOCK_APPEND_SEPARATOR ++ c.block) =
        NL :: NL :: c.block := by
      refine trimEnd_eq_self fun x hx => ?_
      rw [List.getLast?_append_of_ne_nil _ hne, getLast_block] at hx
      rw [← Option.some.inj hx]
      exact not_space_ends.1
    have hdrop : c.block.dropWhile isSpaceUnit = c.block := by
      obtain ⟨x, rest, hx⟩ := List.exists_cons_of_ne_nil hne
      have hhead := head_block c
      rw [hx] at hhead ⊢
      obtain rfl : x = 0x3C := Option.some.inj hhead
      rw [List.dropWhile_cons_of_neg (by rw [not_space_ends.2]; simp)]
    rw [hnil, trim, hlast]
    exact hdrop
  · rename_i hcore
    obtain ⟨-, -, -, -, -, hhead, -⟩ := trim_spec t
    refine trim_eq_self (fun x hx => hhead x ?_) fun x hx => ?_
    · rwa [List.append_assoc, List.head?_append_of_ne_nil _ hcore] at hx
    · rw [List.getLast?_append_of_ne_nil _ hne, getLast_block] at hx
      rw [← Option.some.inj hx]
      exact not_space_ends.1

/-! ### The written file with places -/

def Merge.ended (c : Merge) (s : Placed) : Placed :=
  if [NL].isSuffixOf (print c.block s) then s else s ++ [some NL]

lemma print_ended (c : Merge) (s : Placed) :
    print c.block (c.ended s) = endLine (print c.block s) := by
  rw [Merge.ended, endLine]
  split <;> simp

lemma includes_of_place {s : Placed} (h : none ∈ s) :
    includes (print c.block s) (MANAGED_BLOCK_START c.blockId) = true ∧
      includes (print c.block s) (MANAGED_BLOCK_END c.blockId) = true := by
  have hin := block_infix_print h c.block
  obtain ⟨hs, he⟩ := infix_block c
  exact ⟨(includes_iff (isMarker_start _).ne_nil).mpr (hs.trans hin),
    (includes_iff (isMarker_end _).ne_nil).mpr (he.trans hin)⟩

lemma print_of_no_place {s : Placed} (h : none ∉ s) (w : Text) :
    s = plain s.reduceOption ∧ print w s = s.reduceOption := by
  rcases split_places s with ⟨hs, -⟩ | ⟨a, s', rfl⟩
  · refine ⟨hs, ?_⟩
    rw [hs, print_plain, own_plain]
  · simp at h

/-- How a call goes: into a file that is not there, at the end of one, or in place. -/
inductive Goes (c : Merge) : Option Text → Placed → Prop
  | created : Goes c none [none]
  | added {existing : Text} : c.replaceableIds existing = [] →
      c.outside (some existing) = plain existing →
      Goes c (some existing) (plain (existing ++ List.replicate 2 NL) ++ none :: plain [])
  | appended {existing own : Text} : c.replaceableIds existing ≠ [] →
      c.outside (some existing) = plain own →
      Goes c (some existing)
        (plain (if trim own = [] then [] else trim own ++ List.replicate 2 NL) ++
          none :: plain [NL])
  | replaced {existing : Text} : c.replaceableIds existing ≠ [] →
      MANAGED_BLOCK_START c.blockId <:+: print c.block (c.outside (some existing)) →
      Goes c (some existing) (c.ended (c.outside (some existing)))

lemma exists_goes (h : c.Apart) (file : Option Text) :
    ∃ s, Goes c file s ∧ mergeManagedBlock c file = print c.block s := by
  cases file with
  | none => exact ⟨_, .created, by simp [mergeManagedBlock]⟩
  | some existing =>
    rw [mergeManagedBlock]
    by_cases hr : c.replaceableIds existing = []
    · rw [if_neg (not_not_intro hr)]
      refine ⟨_, .added hr ?_, ?_⟩
      · rw [Merge.outside, hr]
        rfl
      · simp [MANAGED_BLOCK_APPEND_SEPARATOR]
    · rw [if_pos hr]
      dsimp only
      rw [← print_outside h]
      split
      · rename_i hmissing
        have hno : none ∉ c.outside (some existing) := by
          intro hn
          obtain ⟨hs, he⟩ := includes_of_place (c := c) hn
          simp [hs, he] at hmissing
        obtain ⟨hplain, hprint⟩ := print_of_no_place hno c.block
        refine ⟨_, .appended hr hplain, ?_⟩
        rw [hprint, trim_appended, endLine]
        have hlast : ∀ t : Text, ¬ [NL].isSuffixOf (t ++ c.block) = true := by
          intro t ht
          obtain ⟨u, hu⟩ := List.isSuffixOf_iff_suffix.mp ht
          have hl := congrArg List.getLast? hu
          rw [List.getLast?_append_of_ne_nil t (block_ne_nil c), getLast_block] at hl
          simp [NL] at hl
        split
        · rename_i hnil
          rw [if_neg (by simpa using hlast [])]
          simp
        · rename_i hcore
          rw [if_neg (hlast _)]
          simp [MANAGED_BLOCK_APPEND_SEPARATOR]
      · rename_i hthere
        refine ⟨_, .replaced hr ?_, (print_ended c _).symm⟩
        simp only [Bool.or_eq_true, Bool.not_eq_true', not_or, Bool.not_eq_false] at hthere
        exact (includes_iff (isMarker_start _).ne_nil).mp hthere.1

lemma quiet_mono {s s' : Placed} (h : Quiet c s) (hs : s' <:+: s) : Quiet c s' :=
  ⟨h.own.mono hs, fun id hid hw => h.current id hid (hw.mono hs),
    fun id hid hw => h.legacy id hid (hw.mono hs)⟩

lemma quiet_ended : Quiet c (c.ended s) ↔ Quiet c s := by
  rw [Merge.ended]
  split
  · exact .rfl
  · refine ⟨fun h => quiet_mono h (List.prefix_append _ _).isInfix, fun h => ?_⟩
    have hlast : ∀ {p : Pair UInt16}, IsMarker p.closing → p.lift.Within (s ++ [some NL]) →
        p.lift.Within s := by
      rintro p hp ⟨y, hy⟩
      refine ⟨y, infix_snoc ?_ ?_ hy⟩
      · simp [Pair.lift, plain, hp.ne_nil]
      · have hlast : (plain p.closing).getLast? = some (some 0x3E) := by
          rw [plain, List.getLast?_map, hp.getLast]
          rfl
        rw [Pair.lift, List.getLast?_append_of_ne_nil _ (plain_ne_nil hp.ne_nil), hlast]
        decide
    refine ⟨⟨fun hw => h.own.closing (hlast (isMarker_end _) hw), fun y hy => ?_⟩,
      fun id hid hw => h.current id hid (hlast (isMarker_end id) hw),
      fun id hid hw => h.legacy id hid (hlast (isMarker_legacyEnd id) hw)⟩
    exact h.own.place y (infix_snoc (by simp) (by simp) hy)

lemma own_ended (c : Merge) (s : Placed) :
    s.reduceOption.Sublist (c.ended s).reduceOption ∧
      (c.ended s).reduceOption.length ≤ s.reduceOption.length + 1 := by
  rw [Merge.ended]
  split
  · exact ⟨.refl _, by omega⟩
  · simp [List.reduceOption_append]

lemma count_ended (c : Merge) (s : Placed) : (c.ended s).count none = s.count none := by
  rw [Merge.ended]
  split <;> simp

lemma mem_ended {c : Merge} {s : Placed} : none ∈ c.ended s ↔ none ∈ s := by
  rw [← List.count_pos_iff, ← List.count_pos_iff, count_ended]

/-! ### What a merge keeps, and when -/

lemma trimmed_iff {own : Text} {s : Placed}
    (hs : s = plain (if trim own = [] then [] else trim own ++ List.replicate 2 NL) ++
      none :: plain [NL]) :
    Trimmed own ↔ own.Sublist s.reduceOption := by
  have hown : s.reduceOption =
      (if trim own = [] then [] else trim own ++ List.replicate 2 NL) ++ [NL] := by
    rw [hs]
    simp [List.reduceOption_append]
  rw [hown]
  constructor
  · rintro (rfl | rfl | ⟨hne, n, hn, ht⟩)
    · exact List.nil_sublist _
    · exact List.sublist_append_right _ _
    · rw [if_neg hne, List.append_assoc, ← List.replicate_succ']
      have hle : (List.replicate n NL).Sublist (List.replicate 3 NL) :=
        (List.replicate_sublist_replicate NL).mpr hn
      have hsub := hle.append_left (trim own)
      rwa [← ht] at hsub
  · intro h
    by_cases hne : trim own = []
    · rw [if_pos hne, List.nil_append] at h
      rcases List.sublist_singleton.mp h with h | h
      · exact .inl h
      · exact .inr (.inl h)
    · rw [if_neg hne, List.append_assoc, ← List.replicate_succ'] at h
      obtain ⟨m, hm, ht⟩ := trim_of_cover h rfl hne
      exact .inr (.inr ⟨hne, m, hm, ht⟩)

lemma bare_trimmed {own : Text} (h : Trimmed own) :
    Bare c (if trim own = [] then [] else trim own ++ List.replicate 2 NL) ↔ Bare c own := by
  rcases h with rfl | rfl | ⟨hne, n, -, ht⟩
  · exact .rfl
  · rw [if_pos (by decide)]
    exact (bare_newlines 1).symm
  · rw [if_neg hne, bare_newlines]
    conv_rhs => rw [ht]
    rw [bare_newlines]

lemma placed_of_plain {file : Option Text} {own : Text} (h : c.outside file = plain own) :
    c.placed file = plain own ++ none :: plain [] := by
  rw [Merge.placed, h, if_neg none_notMem_plain]
  rfl

/-- What a settled call writes. -/
structure Written (c : Merge) (file : Option Text) (s : Placed) : Prop where
  quiet : Quiet c s
  place : none ∈ s
  own : (c.ownText file).Sublist s.reduceOption

/-- **A call is settled when it writes a quiet text that has the block and all text outside.** -/
lemma settled_iff {file : Option Text} {s : Placed} (h : Goes c file s) :
    Settled c file ↔ Written c file s := by
  cases h with
  | created =>
    have hq : Quiet c [none] := (quiet_one (x := []) (y := []) (by simp)).mpr (bare_nil c)
    refine ⟨fun _ => ⟨hq, by simp, List.nil_sublist _⟩, fun _ => ⟨hq, ?_⟩⟩
    rintro - ⟨_, h, -⟩
    cases h
  | @added existing hr hout =>
    have hown : c.ownText (some existing) = existing := by
      rw [Merge.ownText, hout, own_plain]
    have hbare := (quiet_one (c := c) (x := existing ++ List.replicate 2 NL) (y := [])
      (by simp)).trans (bare_newlines 2)
    have hbare' := quiet_one (c := c) (x := existing) (y := []) (by simp)
    rw [← placed_of_plain hout] at hbare'
    constructor
    · intro hs
      refine ⟨hbare.mpr (hbare'.mp hs.quiet), by simp, ?_⟩
      rw [hown]
      simp [List.reduceOption_append]
    · intro hw
      refine ⟨hbare'.mpr (hbare.mp hw.quiet), ?_⟩
      rintro - ⟨_, he, hne⟩
      cases he
      exact absurd hr hne
  | @appended existing own hr hout =>
    have hown : c.ownText (some existing) = own := by
      rw [Merge.ownText, hout, own_plain]
    have hno : none ∉ c.outside (some existing) := by
      rw [hout]
      exact none_notMem_plain
    have hbare := quiet_one (c := c) (y := [NL])
      (x := if trim own = [] then [] else trim own ++ List.replicate 2 NL) (by simp)
    have hbare' := quiet_one (c := c) (x := own) (y := []) (by simp)
    rw [← placed_of_plain hout] at hbare'
    constructor
    · intro hs
      have htrim : Trimmed own := hown ▸ hs.trimmed hno ⟨existing, rfl, hr⟩
      refine ⟨hbare.mpr ((bare_trimmed htrim).mpr (hbare'.mp hs.quiet)), by simp, ?_⟩
      rw [hown]
      exact (trimmed_iff rfl).mp htrim
    · intro hw
      have htrim : Trimmed own := (trimmed_iff rfl).mpr (hown ▸ hw.own)
      refine ⟨hbare'.mpr ((bare_trimmed htrim).mp (hbare.mp hw.quiet)), fun _ _ => ?_⟩
      rw [hown]
      exact htrim
  | @replaced existing hr hin =>
    have hplaced : none ∈ c.outside (some existing) →
        c.placed (some existing) = c.outside (some existing) := fun h => if_pos h
    constructor
    · intro hs
      have hplace : none ∈ c.outside (some existing) := by
        by_contra hno
        obtain ⟨hplain, hprint⟩ := print_of_no_place hno c.block
        have hq := hs.quiet
        rw [placed_of_plain hplain] at hq
        rw [hprint] at hin
        exact ((quiet_one (by simp)).mp hq).own hin
      refine ⟨quiet_ended.mpr (hplaced hplace ▸ hs.quiet), mem_ended.mpr hplace, ?_⟩
      exact (own_ended c _).1
    · intro hw
      have hplace := mem_ended.mp hw.place
      refine ⟨?_, fun hno => absurd hplace hno⟩
      rw [hplaced hplace]
      exact quiet_ended.mp hw.quiet

lemma Goes.own_length {file : Option Text} {s : Placed} (h : Goes c file s) :
    s.reduceOption.length ≤ (c.ownText file).length + 3 := by
  cases h with
  | created => simp
  | added hr hout => simp [Merge.ownText, hout, List.reduceOption_append]
  | @appended existing own hr hout =>
    obtain ⟨lead, trail, ht, -⟩ := trim_spec own
    have hlen := congrArg List.length ht
    simp only [List.length_append] at hlen
    rw [Merge.ownText, hout, own_plain]
    split
    · simp [List.reduceOption_append]
    · simp only [List.reduceOption_append, own_plain, List.length_append, List.length_replicate,
        List.reduceOption_cons_of_none, List.length_singleton]
      omega
  | @replaced existing hr hin =>
    have := (own_ended c (c.outside (some existing))).2
    rw [Merge.ownText]
    omega

lemma Goes.count {file : Option Text} {s : Placed} (h : Goes c file s) :
    s.count none ≤ c.blocks file + 1 := by
  have hzero : ∀ t : Text, (plain t).count none = 0 :=
    fun t => List.count_eq_zero.mpr none_notMem_plain
  cases h with
  | created => simp
  | added hr hout => simp [hzero]
  | appended hr hout => simp [hzero]
  | replaced hr hin =>
    rw [count_ended, Merge.blocks]
    omega

/-- **A merge keeps the text outside blocks when it is settled, and only then.** -/
theorem kept_iff (h : c.Apart) (file : Option Text) :
    Kept c file (mergeManagedBlock c file) ↔ Settled c file := by
  obtain ⟨s, hgoes, hwrite⟩ := exists_goes h file
  rw [settled_iff hgoes, hwrite]
  obtain ⟨hfound, hsub, hlost⟩ := outside_again h s
  constructor
  · intro hk
    have hquiet : Quiet c s := by
      by_contra hq
      have := hlost hq
      have := hk.own.length_le
      have := hgoes.own_length
      omega
    refine ⟨hquiet, ?_, hk.own.trans hsub⟩
    by_contra hno
    obtain ⟨hplain, hprint⟩ := print_of_no_place hno c.block
    have hin := hk.block
    rw [hprint] at hin
    have hw : (current c.blockId).Within s.reduceOption :=
      ⟨[NL] ++ c.content ++ [NL], by rw [block_eq] at hin; exact hin⟩
    rw [← Pair.within_plain, ← hplain] at hw
    exact hquiet.own.closing hw
  · intro hw
    have heq := hfound hw.quiet
    refine ⟨block_infix_print hw.place _, ?_, ?_⟩
    · rw [Merge.blocks, heq]
      exact hgoes.count
    · have hown : c.ownText (some (print c.block s)) = s.reduceOption := by
        rw [Merge.ownText, heq]
      rw [hown]
      exact hw.own

/-! ### Repeated merges and runs -/

lemma ended_ended (c : Merge) (s : Placed) : c.ended (c.ended s) = c.ended s := by
  have hend : [NL].isSuffixOf (print c.block (c.ended s)) = true := by
    rw [print_ended, endLine]
    split
    · assumption
    · exact List.isSuffixOf_iff_suffix.mpr (List.suffix_append _ _)
  rw [Merge.ended, if_pos hend]

lemma merge_again (h : c.Apart) {s : Placed} (hq : Quiet c s) (hplace : none ∈ s) :
    mergeManagedBlock c (some (print c.block s)) = print c.block (c.ended s) ∧
      Settled c (some (print c.block s)) := by
  have heq := (outside_again h s).1 hq
  have hmem := mem_replaceableIds (blockId_mem c)
    (replaceable_block (block_infix_print hplace c.block))
  obtain ⟨hstart, hend⟩ := includes_of_place (c := c) hplace
  constructor
  · rw [mergeManagedBlock, if_pos (List.ne_nil_of_mem hmem), ← print_outside h, heq]
    simp only [hstart, hend, print_ended, Bool.not_true, Bool.or_self]
    rfl
  · have hplaced : c.placed (some (print c.block s)) = s := by
      rw [Merge.placed, heq, if_pos hplace]
    refine ⟨by rw [hplaced]; exact hq, fun hno => ?_⟩
    rw [heq] at hno
    exact absurd hplace hno

lemma times_written (h : c.Apart) {file : Option Text} (hs : Settled c file) :
    ∃ s, Quiet c s ∧ none ∈ s ∧ c.times file 1 = some (print c.block s) ∧
      ∀ n, c.times file (n + 2) = some (print c.block (c.ended s)) := by
  obtain ⟨s, hgoes, hwrite⟩ := exists_goes h file
  have hw := (settled_iff hgoes).mp hs
  have hone : c.times file 1 = some (print c.block s) := congrArg some hwrite
  have hquiet := quiet_ended.mpr hw.quiet
  refine ⟨s, hw.quiet, hw.place, hone, fun n => ?_⟩
  induction n with
  | zero =>
    rw [Merge.times, hone, (merge_again h hw.quiet hw.place).1]
  | succ n ih =>
    rw [Merge.times, ih, (merge_again h hquiet (mem_ended.mpr hw.place)).1, ended_ended]

/-- **Repeating a settled merge** keeps the text each time and changes nothing after the second. -/
theorem keepsText_iff (h : c.Apart) (file : Option Text) : KeepsText c file ↔ Settled c file := by
  refine ⟨fun hk => (kept_iff h file).mp (hk.kept 0), fun hs => ?_⟩
  obtain ⟨s, hq, hplace, hone, hmore⟩ := times_written h hs
  constructor
  · intro n
    rw [kept_iff h]
    match n with
    | 0 => exact hs
    | 1 =>
      rw [hone]
      exact (merge_again h hq hplace).2
    | n + 2 =>
      rw [hmore]
      exact (merge_again h (quiet_ended.mpr hq) (mem_ended.mpr hplace)).2
  · intro n hn
    obtain ⟨n, rfl⟩ := Nat.exists_eq_add_of_le' hn
    exact (hmore (n + 1)).trans (hmore n).symm

/-- A call of `mergeManagedBlock` on the file. -/
def Merges (file : Option Text) (c : Merge) (file' : Option Text) : Prop :=
  c.Apart ∧ file' = some (mergeManagedBlock c file)

/-- **Merging touches only managed blocks when it is settled.** In a run of merges every call keeps,
however often it is repeated, the text outside blocks, adds its block at most once and leaves it in
the file, and changes nothing after the second time, just when every call is settled. -/
theorem merges_keep_text {file file' : Option Text} {calls : List Merge} :
    Path (fun f c f' => Merges f c f' ∧ KeepsText c f) file calls file' ↔
      Path (fun f c f' => Merges f c f' ∧ Settled c f) file calls file' := by
  refine Path.good_iff (I := fun _ => True) (fun _ _ _ _ _ => trivial) ?_ trivial
  rintro f c f' ⟨h, -⟩ -
  exact (keepsText_iff h f).symm

/-- **A closing marker before an opening one.** The block is never written, though both its markers
are in the file. -/
theorem merge_without_block : (Merge.mk [0x61] [0x78] []).Unmarked ∧
    ¬ KeepsText ⟨[0x61], [0x78], []⟩
      (some (MANAGED_BLOCK_END [0x61] ++ [NL] ++ MANAGED_BLOCK_START [0x61])) := by
  refine ⟨⟨by decide, by decide⟩, fun h => ?_⟩
  have hin := (includes_iff (block_ne_nil _)).mpr (h.kept 0).block
  revert hin
  decide +kernel

end OpenRig.ManagedBlocks
