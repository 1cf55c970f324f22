import OpenRig.ManagedBlocks

/-!
The markers of managed blocks: how they lie in texts, and calls whose markers stand apart.
-/

namespace OpenRig.ManagedBlocks

open OpenRig.Delimited OpenRig.SecretRedaction

/-! ### Markers -/

/-- A marker has its angle brackets at its two ends only. -/
def IsMarker (m : Text) : Prop := ∃ x, m = 0x3C :: (x ++ [0x3E])

lemma marker_of_lead {lead : Text} (h : lead.head? = some 0x3C) (id : Text) :
    IsMarker (lead ++ id ++ unitsOf " -->") := by
  cases lead with
  | nil => cases h
  | cons c lead =>
    obtain rfl : c = 0x3C := Option.some.inj h
    exact ⟨lead ++ id ++ unitsOf " --", by simp [unitsOf]⟩

lemma isMarker_start (id : Text) : IsMarker (MANAGED_BLOCK_START id) := marker_of_lead rfl id
lemma isMarker_end (id : Text) : IsMarker (MANAGED_BLOCK_END id) := marker_of_lead rfl id
lemma isMarker_legacyStart (id : Text) : IsMarker (LEGACY_BLOCK_START id) := marker_of_lead rfl id
lemma isMarker_legacyEnd (id : Text) : IsMarker (LEGACY_BLOCK_END id) := marker_of_lead rfl id

lemma IsMarker.ne_nil {m : Text} (h : IsMarker m) : m ≠ [] := by
  obtain ⟨x, rfl⟩ := h
  exact List.cons_ne_nil _ _

lemma IsMarker.getLast {m : Text} (h : IsMarker m) : m.getLast? = some 0x3E := by
  obtain ⟨x, rfl⟩ := h
  simp [List.getLast?_cons]

lemma proper_current (id : Text) : (current id).Proper :=
  ⟨(isMarker_start id).ne_nil, (isMarker_end id).ne_nil⟩

lemma proper_legacy (id : Text) : (legacy id).Proper :=
  ⟨(isMarker_legacyStart id).ne_nil, (isMarker_legacyEnd id).ne_nil⟩

lemma four_le_start (id : Text) : 4 ≤ (MANAGED_BLOCK_START id).length := by
  have : (unitsOf "<!-- BEGIN OpenRig MANAGED BLOCK: ").length = 34 := by decide
  simp only [MANAGED_BLOCK_START, List.length_append]
  omega

lemma four_le_end (id : Text) : 4 ≤ (MANAGED_BLOCK_END id).length := by
  have : (unitsOf "<!-- END OpenRig MANAGED BLOCK: ").length = 32 := by decide
  simp only [MANAGED_BLOCK_END, List.length_append]
  omega

lemma four_le_legacyStart (id : Text) : 4 ≤ (LEGACY_BLOCK_START id).length := by
  have : (unitsOf "<!-- BEGIN RIGGED MANAGED BLOCK: ").length = 33 := by decide
  simp only [LEGACY_BLOCK_START, List.length_append]
  omega

lemma four_le_legacyEnd (id : Text) : 4 ≤ (LEGACY_BLOCK_END id).length := by
  have : (unitsOf "<!-- END RIGGED MANAGED BLOCK: ").length = 31 := by decide
  simp only [LEGACY_BLOCK_END, List.length_append]
  omega

lemma block_eq (c : Merge) :
    c.block = (current c.blockId).piece ([NL] ++ c.content ++ [NL]) := by
  simp only [Merge.block, managedBlockText, Pair.piece, current, List.append_assoc]

/-! ### Calls whose markers stand apart -/

lemma blockId_mem (c : Merge) : c.blockId ∈ c.allReplaceIds := by
  simp [Merge.allReplaceIds]

def MARKER_LEADS : List Text :=
  [unitsOf "<!-- BEGIN OpenRig MANAGED BLOCK: ", unitsOf "<!-- END OpenRig MANAGED BLOCK: ",
    unitsOf "<!-- BEGIN RIGGED MANAGED BLOCK: ", unitsOf "<!-- END RIGGED MANAGED BLOCK: "]

/-- No id has an angle bracket, and the content no marker. -/
structure Merge.Unmarked (c : Merge) : Prop where
  ids : ∀ id ∈ c.allReplaceIds, 0x3C ∉ id ∧ 0x3E ∉ id
  content : ∀ lead ∈ MARKER_LEADS, ¬ lead <:+: c.content

/-- A marker with angle brackets at its two ends only, which the content does not have. -/
structure Lone (content m : Text) : Prop where
  ends : ∃ x, m = 0x3C :: (x ++ [0x3E]) ∧ 0x3C ∉ x ∧ 0x3E ∉ x
  content : ¬ m <:+: content

lemma lone_of_lead {content lead id : Text} (hlead : lead ∈ MARKER_LEADS)
    (hid : 0x3C ∉ id ∧ 0x3E ∉ id) (hcontent : ¬ lead <:+: content) :
    Lone content (lead ++ id ++ unitsOf " -->") := by
  have htail : ∀ l ∈ MARKER_LEADS, l.head? = some 0x3C ∧ 0x3C ∉ l.tail ∧ 0x3E ∉ l.tail := by
    decide
  obtain ⟨hhead, hlt, hgt⟩ := htail lead hlead
  refine ⟨?_, fun h => hcontent (List.IsInfix.trans ?_ h)⟩
  · cases lead with
    | nil => cases hhead
    | cons x lead =>
      obtain rfl : x = 0x3C := Option.some.inj hhead
      refine ⟨lead ++ id ++ unitsOf " --", by simp [unitsOf], ?_, ?_⟩
      · simp only [List.mem_append, not_or]
        exact ⟨⟨hlt, hid.1⟩, by decide⟩
      · simp only [List.mem_append, not_or]
        exact ⟨⟨hgt, hid.2⟩, by decide⟩
  · rw [List.append_assoc]
    exact (List.prefix_append _ _).isInfix

lemma Lone.cut {content m x y : Text} (h : Lone content m) (hm : m = x ++ y) (hx : x ≠ [])
    (hy : y ≠ []) : 0x3E ∉ x ∧ 0x3C ∉ y := by
  obtain ⟨z, rfl, hlt, hgt⟩ := h.ends
  obtain ⟨u, x, rfl⟩ := List.exists_cons_of_ne_nil hx
  obtain ⟨rfl, hz⟩ := List.cons.inj hm
  obtain ⟨y, v, rfl⟩ := (List.eq_nil_or_concat y).resolve_left hy
  have hz : z ++ [0x3E] = (x ++ y) ++ [v] := by simpa using hz
  obtain ⟨rfl, hv⟩ := List.append_inj' hz rfl
  obtain rfl : 0x3E = v := List.singleton_inj.mp hv
  simp only [List.mem_append, not_or] at hlt hgt
  constructor
  · rw [List.mem_cons, not_or]
    exact ⟨by decide, hgt.1⟩
  · simp only [List.concat_eq_append, List.mem_append, not_or]
    exact ⟨hlt.2, by decide⟩

lemma Lone.head {content m : Text} (h : Lone content m) : m.head? = some 0x3C := by
  obtain ⟨x, rfl, -⟩ := h.ends
  rfl

lemma Lone.last {content m : Text} (h : Lone content m) : m.getLast? = some 0x3E := by
  obtain ⟨x, rfl, -⟩ := h.ends
  simp [List.getLast?_cons]

lemma Lone.ne_nil {content m : Text} (h : Lone content m) : m ≠ [] := by
  obtain ⟨x, rfl, -⟩ := h.ends
  exact List.cons_ne_nil _ _

lemma Lone.not_prefix {content m x y t : Text} (h : Lone content m) (hm : m = x ++ y) (hx : x ≠ [])
    (hy : y ≠ []) (ht : t.head? = some 0x3C) : ¬ y <+: t ∧ ¬ t <+: y := by
  have hlt := (h.cut hm hx hy).2
  obtain ⟨u, t, rfl⟩ := List.exists_cons_of_ne_nil (l := t) (by rintro rfl; cases ht)
  obtain rfl : u = 0x3C := Option.some.inj ht
  obtain ⟨v, y, rfl⟩ := List.exists_cons_of_ne_nil hy
  constructor
  · intro hp
    obtain rfl : v = 0x3C := (List.cons_prefix_cons.mp hp).1
    exact hlt List.mem_cons_self
  · intro hp
    exact hlt (hp.subset List.mem_cons_self)

lemma Lone.not_suffix {content m x y t : Text} (h : Lone content m) (hm : m = x ++ y) (hx : x ≠ [])
    (hy : y ≠ []) (ht : t.getLast? = some 0x3E) : ¬ x <:+ t := by
  rintro ⟨z, rfl⟩
  rw [List.getLast?_append_of_ne_nil z hx] at ht
  exact (h.cut hm hx hy).1 (List.mem_of_getLast? ht)

lemma Lone.eq_of_infix {content m m' : Text} (h : Lone content m) (h' : Lone content m')
    (hin : m <:+: m') : m = m' := by
  obtain ⟨x, y, rfl⟩ := hin
  obtain rfl : x = [] := by
    by_contra hx
    have hlt := (h'.cut (List.append_assoc x m y) hx (by simp [h.ne_nil])).2
    exact hlt (List.mem_append_left _ (List.mem_of_head? h.head))
  obtain rfl : y = [] := by
    by_contra hy
    have hgt := (h'.cut rfl h.ne_nil hy).1
    exact hgt (List.mem_of_getLast? h.last)
  simp

lemma Lone.infix_framed {content m t : Text} (h : Lone content m)
    (ht : t = [] ∨ t.head? = some 0x3C) (hin : m <:+: [NL] ++ content ++ [NL] ++ t) : m <:+: t := by
  have hnl : ∀ {r : Text}, ¬ m <+: NL :: r := by
    intro r hp
    obtain ⟨x, rfl, -⟩ := h.ends
    exact absurd (List.cons_prefix_cons.mp hp).1 (by decide)
  rw [show [NL] ++ content ++ [NL] ++ t = NL :: (content ++ (NL :: t)) by simp] at hin
  rcases List.infix_cons_iff.mp hin with hp | hin
  · exact absurd hp hnl
  rcases TextSearch.infix_append_cases hin with hin | hin | ⟨x, y, hx, hy, hxy, -, hp⟩
  · exact absurd hin h.content
  · rcases List.infix_cons_iff.mp hin with hp | hin
    · exact absurd hp hnl
    · exact hin
  · -- the second part would be the line break, and then the text after it
    obtain ⟨v, y, rfl⟩ := List.exists_cons_of_ne_nil hy
    obtain ⟨rfl, hrest⟩ := List.cons_prefix_cons.mp hp
    have hlt := (h.cut hxy hx hy).2
    have hlast := h.last
    rw [hxy, List.getLast?_append_of_ne_nil x hy] at hlast
    cases y with
    | nil => exact absurd (Option.some.inj hlast) (by decide)
    | cons w y =>
      rcases ht with rfl | ht
      · exact absurd (List.prefix_nil.mp hrest) (List.cons_ne_nil w y)
      · obtain ⟨r, rfl⟩ := hrest
        obtain rfl : w = 0x3C := Option.some.inj ht
        exact absurd (List.mem_cons_of_mem _ List.mem_cons_self) hlt

lemma take_lead {lead id : Text} (h : lead ∈ MARKER_LEADS) :
    (lead ++ id ++ unitsOf " -->").take 12 = lead.take 12 := by
  have hlen : ∀ l ∈ MARKER_LEADS, 12 ≤ l.length := by decide
  rw [List.append_assoc, List.take_append_of_le_length (hlen lead h)]

lemma marker_ne {lead lead' id id' : Text} (h : lead ∈ MARKER_LEADS) (h' : lead' ∈ MARKER_LEADS)
    (hne : lead.take 12 ≠ lead'.take 12) :
    lead ++ id ++ unitsOf " -->" ≠ lead' ++ id' ++ unitsOf " -->" := by
  intro he
  have htake := congrArg (List.take 12) he
  rw [take_lead h, take_lead h'] at htake
  exact hne htake

lemma marker_inj {lead id id' : Text}
    (h : lead ++ id ++ unitsOf " -->" = lead ++ id' ++ unitsOf " -->") : id = id' := by
  rw [List.append_assoc, List.append_assoc] at h
  exact List.append_cancel_right (List.append_cancel_left h)

section Unmarked

variable {c : Merge}

lemma Merge.Unmarked.lone (h : c.Unmarked) {id lead : Text} (hid : id ∈ c.allReplaceIds)
    (hlead : lead ∈ MARKER_LEADS) : Lone c.content (lead ++ id ++ unitsOf " -->") :=
  lone_of_lead hlead (h.ids id hid) (h.content lead hlead)

lemma Lone.eq_of_block {m : Text} (h : Lone c.content m)
    (hs : Lone c.content (MANAGED_BLOCK_START c.blockId))
    (he : Lone c.content (MANAGED_BLOCK_END c.blockId)) (hin : m <:+: c.block) :
    m = MANAGED_BLOCK_START c.blockId ∨ m = MANAGED_BLOCK_END c.blockId := by
  rw [Merge.block, managedBlockText, show MANAGED_BLOCK_START c.blockId ++ [NL] ++ c.content ++
    [NL] ++ MANAGED_BLOCK_END c.blockId = MANAGED_BLOCK_START c.blockId ++ ([NL] ++ c.content ++
    [NL] ++ MANAGED_BLOCK_END c.blockId) by simp] at hin
  rcases TextSearch.infix_append_cases hin with hin | hin | ⟨x, y, hx, hy, hxy, hsuf, -⟩
  · exact .inl (h.eq_of_infix hs hin)
  · exact .inr (h.eq_of_infix he (h.infix_framed (.inr he.head) hin))
  · exact absurd hsuf (h.not_suffix hxy hx hy hs.last)

lemma Lone.apart {m : Text} (h : Lone c.content m)
    (hs : Lone c.content (MANAGED_BLOCK_START c.blockId))
    (he : Lone c.content (MANAGED_BLOCK_END c.blockId))
    (hns : m ≠ MANAGED_BLOCK_START c.blockId) (hne : m ≠ MANAGED_BLOCK_END c.blockId) :
    Delimited.Apart m c.block := by
  have hhead : c.block.head? = some 0x3C := by
    rw [Merge.block, managedBlockText]
    simp [hs.head]
  have hlast : c.block.getLast? = some 0x3E := by
    rw [Merge.block, managedBlockText, List.getLast?_append_of_ne_nil _ he.ne_nil, he.last]
  refine ⟨fun hin => ?_, fun x y hm hx hy => ⟨h.not_suffix hm hx hy hlast, ?_⟩⟩
  · exact (h.eq_of_block hs he hin).elim hns hne
  · exact h.not_prefix hm hx hy hhead

/-- **Ids without angle brackets and content without markers** make markers that stand apart. -/
theorem apart_of_unmarked (h : c.Unmarked) : c.Apart := by
  have hs : Lone c.content (MANAGED_BLOCK_START c.blockId) := h.lone (blockId_mem c) (by decide)
  have he : Lone c.content (MANAGED_BLOCK_END c.blockId) := h.lone (blockId_mem c) (by decide)
  have hhead : (current c.blockId).opening.head? = some 0x3C := hs.head
  refine ⟨⟨?_, ?_, ?_⟩, fun id hid hne => ⟨?_, ?_⟩, fun id hid => ⟨?_, ?_⟩⟩
  · exact fun x y hm hx hy => (hs.not_prefix hm hx hy hs.head).1
  · intro hin
    rw [List.append_assoc] at hin
    rcases TextSearch.infix_append_cases hin with hin | hin | ⟨x, y, hx, hy, hxy, hsuf, -⟩
    · exact marker_ne (by decide) (by decide) (by decide) (he.eq_of_infix hs hin)
    · refine not_infix_dropLast he.ne_nil (he.infix_framed (.inr ?_) hin)
      obtain ⟨z, hz, -⟩ := he.ends
      rw [hz, List.dropLast_cons_of_ne_nil (by simp)]
      rfl
    · exact he.not_suffix hxy hx hy hs.last hsuf
  · intro x y hm hx hy
    refine (he.not_prefix hm hx hy ?_).1
    rw [Pair.piece, List.append_assoc, List.head?_append_of_ne_nil _ (proper_current _).opening]
    exact hhead
  · exact (h.lone hid (by decide)).apart hs he (fun hm => hne (marker_inj hm))
      (marker_ne (by decide) (by decide) (by decide))
  · exact (h.lone hid (by decide)).apart hs he (marker_ne (by decide) (by decide) (by decide))
      (fun hm => hne (marker_inj hm))
  · exact (h.lone hid (by decide)).apart hs he (marker_ne (by decide) (by decide) (by decide))
      (marker_ne (by decide) (by decide) (by decide))
  · exact (h.lone hid (by decide)).apart hs he (marker_ne (by decide) (by decide) (by decide))
      (marker_ne (by decide) (by decide) (by decide))

end Unmarked

end OpenRig.ManagedBlocks
