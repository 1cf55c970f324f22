import OpenRig.FieldText
import Mathlib.Data.List.TakeWhile

/-!
Addressable markdown: the headers of a text, the sections they open, the address of each, and the
gate that every named section is addressable.

Letters outside ASCII lower to letters a slug drops, but for two.
-/

namespace OpenRig.MarkdownAddress

open OpenRig.JsText OpenRig.FieldText

/-- Addressable depth: H2 and H3. -/
def MIN_LEVEL : ℕ := 2

def MAX_LEVEL : ℕ := 3

/-! ### Slugs -/

/-- `toLowerCase`, as far as a slug can tell. -/
def lower (c : Char) : Text :=
  if 'A' ≤ c ∧ c ≤ 'Z' then [Char.ofNat (c.toNat + 32)]
  else if c.toNat = 0x212A then ['k']
  else if c.toNat = 0x130 then ['i', Char.ofNat 0x307]
  else [c]

/-- `[a-z0-9]` -/
def isSlugChar (c : Char) : Bool := ('a' ≤ c && c ≤ 'z') || ('0' ≤ c && c ≤ '9')

def replaceRuns (p : Char → Bool) (by' : Char) : Text → Text
  | [] => []
  | c :: s =>
    if p c then
      match s with
      | d :: _ => if p d then replaceRuns p by' s else by' :: replaceRuns p by' s
      | [] => [by']
    else c :: replaceRuns p by' s

def slugifyHeader (title : Text) : Text :=
  let plain := (title.flatMap lower).filter fun c => !"`*_~".toList.contains c
  ((replaceRuns (fun c => !isSlugChar c) '-' plain).dropWhile (· = '-')).rdropWhile (· = '-')

/-! ### Addresses -/

structure ParsedAddress where
  ref : Text
  headerPath : List Text
  deriving DecidableEq

inductive AddressError where
  /-- The address has more than one `#`. -/
  | separators (hashCount : ℕ)
  | emptyRef
  | emptySegment
  | tooDeep (levels : ℕ)
  deriving DecidableEq

def parseAddress (address : Text) : Except AddressError ParsedAddress :=
  match address.splitOn '#' with
  | [ref] => if ref = [] then .error .emptyRef else .ok { ref, headerPath := [] }
  | [ref, headerPart] =>
    if ref = [] then .error .emptyRef
    else
      let headerPath := headerPart.splitOn '/'
      if headerPath.any (· = []) then .error .emptySegment
      else if MAX_LEVEL - MIN_LEVEL + 1 < headerPath.length then .error (.tooDeep headerPath.length)
      else .ok { ref, headerPath }
  | parts => .error (.separators (parts.length - 1))

/-! ### Headers -/

structure HeaderHit where
  level : ℕ
  title : Text
  line : ℕ
  deriving DecidableEq

structure Fence where
  marker : Char
  length : ℕ
  line : ℕ
  deriving DecidableEq

structure ScanState where
  fence : Option Fence := none
  comment : Bool := false
  deriving DecidableEq

/-- Up to three spaces, and `<!--`. -/
def opensComment (line : Text) : Bool :=
  (line.takeWhile (· = ' ')).length ≤ 3 && "<!--".toList.isPrefixOf (line.dropWhile (· = ' '))

/-- `line.includes("-->")` -/
def closesComment (line : Text) : Bool := line.tails.any "-->".toList.isPrefixOf

def backtick : Char := Char.ofNat 0x60

/-- A fence marker, its length and what follows it on the line. -/
def fenceMatch (line : Text) : Option (Char × ℕ × Text) :=
  if 3 < (line.takeWhile isWhitespace).length then none
  else
    match line.dropWhile isWhitespace with
    | [] => none
    | c :: s =>
      let run := (c :: s).takeWhile (· = c)
      if (c = backtick ∨ c = '~') ∧ 3 ≤ run.length then
        some (c, run.length, (c :: s).dropWhile (· = c))
      else none

/-- `/[\r\u2028\u2029]/` -/
def isTitleBreak (c : Char) : Bool := c = '\r' || c.toNat = 0x2028 || c.toNat = 0x2029

def atxHeading (line : Text) : Option (ℕ × Text) :=
  let marks := line.drop (min 3 (line.takeWhile (· = ' ')).length)
  let level := (marks.takeWhile (· = '#')).length
  let rest := marks.drop level
  if level < 1 ∨ 6 < level then none
  else if rest.head?.any (!isWhitespace ·) then none
  else if (trim rest).any isTitleBreak then none
  else some (level, trim rest)

/-- One line of `scanHeaders`. -/
def scanLine (s : ScanState) (i : ℕ) (line : Text) : ScanState × Option HeaderHit :=
  if s.comment then (if closesComment line then { s with comment := false } else s, none)
  else if s.fence.isNone ∧ opensComment line then
    ({ s with comment := !closesComment line }, none)
  else
    match fenceMatch line, s.fence with
    | some (marker, length, rest), none =>
      -- Backticks in an opener's info string prevent a fenced block.
      if marker = backtick ∧ backtick ∈ rest then (s, none)
      else ({ s with fence := some { marker, length, line := i } }, none)
    | some (marker, length, rest), some fence =>
      if fence.marker = marker ∧ fence.length ≤ length ∧
          rest.all (fun c => c = ' ' || c = '\t' || c = '\r') then
        ({ s with fence := none }, none)
      else (s, none)
    | none, some _ => (s, none)
    | none, none => (s, (atxHeading line).map fun (level, title) => { level, title, line := i })

def scanFrom (s : ScanState) (i : ℕ) : List Text → ScanState × List HeaderHit
  | [] => (s, [])
  | line :: lines =>
    let hit := scanLine s i line
    let rest := scanFrom hit.1 (i + 1) lines
    (rest.1, hit.2.toList ++ rest.2)

/-- The headers, and where an open fence began, if the text ends in one. -/
def scanHeaders (lines : List Text) : List HeaderHit × Option ℕ :=
  let scan := scanFrom {} 0 lines
  (scan.2, scan.1.fence.map (·.line))

/-! ### Sections -/

structure MarkdownSection where
  level : ℕ
  title : Text
  headerPath : List Text
  headerLine : ℕ
  /-- To the next header of the same level or above. -/
  text : Text
  /-- To the next header of any level. -/
  ownText : Text
  deriving DecidableEq

/-- `lines.slice(start, end).join("\n")`. -/
def span (lines : List Text) (start stop : ℕ) : Text :=
  ['\n'].intercalate ((lines.drop start).take (stop - start))

/-- The scope of the headers after this one. -/
def nextScope (currentH2 : Option Text) (h : HeaderHit) : Option Text :=
  if h.level < MIN_LEVEL then if h.title = [] then some [] else none
  else if h.level = 2 then some (slugifyHeader h.title)
  else currentH2

def sectionOf (lines : List Text) (currentH2 : Option Text) (h : HeaderHit)
    (after : List HeaderHit) : MarkdownSection :=
  let slug := slugifyHeader h.title
  { level := h.level
    title := h.title
    headerPath :=
      if h.level = 2 then [slug]
      else match currentH2 with
        | some parent => [parent, slug]
        | none => [slug]
    headerLine := h.line
    text := span lines h.line (((after.find? (·.level ≤ h.level)).map (·.line)).getD lines.length)
    ownText := span lines h.line ((after.head?.map (·.line)).getD lines.length) }

def sectionsFrom (lines : List Text) (currentH2 : Option Text) :
    List HeaderHit → List MarkdownSection
  | [] => []
  | h :: after =>
    let rest := sectionsFrom lines (nextScope currentH2 h) after
    if h.level < MIN_LEVEL ∨ MAX_LEVEL < h.level then rest
    else sectionOf lines currentH2 h after :: rest

def parseMarkdownSections (text : Text) : List MarkdownSection :=
  let lines := text.splitOn '\n'
  sectionsFrom lines none (scanHeaders lines).1

/-- `headerPath.join("/")`. -/
def joined (headerPath : List Text) : Text := ['/'].intercalate headerPath

inductive ResolutionError where
  | noSlug
  | ambiguous (wanted : Text) (lines : List ℕ)
  /-- With the sections under the same parent, and all of them. -/
  | noMatch (wanted : Text) (candidates all : List Text)
  deriving DecidableEq

def resolveAddress (text : Text) (headerPath : List Text) :
    Except ResolutionError MarkdownSection :=
  if headerPath = [] then .error .noSlug
  else
    let sections := parseMarkdownSections text
    let wanted := joined headerPath
    match sections.filter fun s => joined s.headerPath = wanted with
    | [s] => .ok s
    | [] =>
      let parentPath := joined headerPath.dropLast
      let candidates := (sections.filter fun s => joined s.headerPath.dropLast = parentPath).map
        fun s => joined s.headerPath
      .error (.noMatch wanted candidates (sections.map fun s => joined s.headerPath))
    | hits => .error (.ambiguous wanted (hits.map (·.headerLine)))

/-! ### The gate -/

inductive AddressabilityFinding where
  | duplicateHeaderPath (headerPath : Text) (lines : List ℕ)
  | unaddressableHeader (headerPath : Text) (line : ℕ) (title : Text)
  | unterminatedFence (line : ℕ)
  deriving DecidableEq

/-- Whether the scope is a blank heading, after this header. -/
def blankScope (blank : Bool) (h : HeaderHit) : Bool := if h.level ≤ 2 then h.title = [] else blank

/-- Each section with whether a blank heading is its scope. -/
def withScope (headers : List HeaderHit) (blank : Bool) :
    List MarkdownSection → List (MarkdownSection × Bool)
  | [] => []
  | s :: sections =>
    let passed := headers.takeWhile (·.line ≤ s.headerLine)
    let blank := passed.foldl blankScope blank
    (s, blank) :: withScope (headers.drop passed.length) blank sections

/-- Blank headings and what they hold are not validated. -/
def skipped (s : MarkdownSection) (blank : Bool) : Bool :=
  s.title = [] || (blank && s.headerPath.length = 2 && s.headerPath[1]? ≠ some [])

/-- Of the remaining ones, those an address cannot name, and the paths of the others. -/
def unaddressable (s : MarkdownSection) (blank : Bool) : Bool :=
  !skipped s blank && s.headerPath.any (· = [])

def addressed (s : MarkdownSection) (blank : Bool) : Bool :=
  !skipped s blank && !s.headerPath.any (· = [])

def duplicates (seen : List (Text × ℕ)) : List AddressabilityFinding :=
  (seen.map Prod.fst).eraseDups.filterMap fun path =>
    let lines := (seen.filter fun e => e.1 = path).map Prod.snd
    if 1 < lines.length then some (.duplicateHeaderPath path lines) else none

def validateMarkdownAddressability (text : Text) : List AddressabilityFinding :=
  let lines := text.splitOn '\n'
  let (headers, unterminated) := scanHeaders lines
  let sections := withScope headers false (parseMarkdownSections text)
  (unterminated.map AddressabilityFinding.unterminatedFence).toList ++
    ((sections.filter fun e => unaddressable e.1 e.2).map fun e =>
      .unaddressableHeader (joined e.1.headerPath) e.1.headerLine e.1.title) ++
    duplicates ((sections.filter fun e => addressed e.1 e.2).map fun e =>
      (joined e.1.headerPath, e.1.headerLine))

/-! ### Slugs hold no separator -/

lemma mem_replaceRuns {p : Char → Bool} {by' c : Char} {s : Text} (h : c ∈ replaceRuns p by' s) :
    c = by' ∨ p c = false := by
  fun_induction replaceRuns p by' s with
  | case1 => cases h
  | case2 d hd e s he ih => exact ih h
  | case3 d hd e s he ih =>
    rcases List.mem_cons.mp h with rfl | h
    · exact .inl rfl
    · exact ih h
  | case4 d hd => exact .inl (List.mem_singleton.mp h)
  | case5 d s hd ih =>
    rcases List.mem_cons.mp h with rfl | h
    · exact .inr (by simpa using hd)
    · exact ih h

lemma mem_slugifyHeader {title : Text} {c : Char} (h : c ∈ slugifyHeader title) :
    c = '-' ∨ isSlugChar c = true := by
  have hrun := (List.dropWhile_sublist _).mem ((List.rdropWhile_prefix _ _).mem h)
  rcases mem_replaceRuns hrun with h | h
  · exact .inl h
  · exact .inr (by simpa using h)

lemma slug_separators (title : Text) : '/' ∉ slugifyHeader title ∧ '#' ∉ slugifyHeader title := by
  constructor
  · intro h
    have := mem_slugifyHeader h
    revert this
    decide
  · intro h
    have := mem_slugifyHeader h
    revert this
    decide

lemma slug_nil : slugifyHeader [] = [] := by decide

/-! ### The outline -/

/-- The sections, each with whether a blank heading is its scope. -/
def outline (lines : List Text) (currentH2 : Option Text) (blank : Bool) :
    List HeaderHit → List (MarkdownSection × Bool)
  | [] => []
  | h :: after =>
    let rest := outline lines (nextScope currentH2 h) (blankScope blank h) after
    if h.level < MIN_LEVEL ∨ MAX_LEVEL < h.level then rest
    else (sectionOf lines currentH2 h after, blankScope blank h) :: rest

section Outline

variable {lines : List Text} {currentH2 : Option Text} {blank : Bool} {headers : List HeaderHit}

lemma outline_sections :
    (outline lines currentH2 blank headers).map Prod.fst =
      sectionsFrom lines currentH2 headers := by
  induction headers generalizing currentH2 blank with
  | nil => rfl
  | cons h after ih =>
    unfold outline sectionsFrom
    split
    · exact ih
    · rw [List.map_cons, ih]

lemma mem_outline {e : MarkdownSection × Bool} (he : e ∈ outline lines currentH2 blank headers) :
    ∃ before h after, headers = before ++ h :: after ∧ 2 ≤ h.level ∧ h.level ≤ 3 ∧
      e.1 = sectionOf lines (before.foldl nextScope currentH2) h after ∧
      e.2 = blankScope (before.foldl blankScope blank) h := by
  induction headers generalizing currentH2 blank with
  | nil => cases he
  | cons h after ih =>
    have hrest : e ∈ outline lines (nextScope currentH2 h) (blankScope blank h) after →
        ∃ before h' after', h :: after = before ++ h' :: after' ∧ 2 ≤ h'.level ∧ h'.level ≤ 3 ∧
          e.1 = sectionOf lines (before.foldl nextScope currentH2) h' after' ∧
          e.2 = blankScope (before.foldl blankScope blank) h' := by
      intro he
      obtain ⟨before, h', after', rfl, hmin, hmax, hs, hb⟩ := ih he
      exact ⟨h :: before, h', after', rfl, hmin, hmax, hs, hb⟩
    unfold outline at he
    split at he
    · exact hrest he
    · rename_i hlevel
      rcases List.mem_cons.mp he with rfl | he
      · simp only [MIN_LEVEL, MAX_LEVEL] at hlevel
        exact ⟨[], h, after, rfl, by omega, by omega, rfl, rfl⟩
      · exact hrest he

lemma withScope_cons {h : HeaderHit} {after : List HeaderHit} {sections : List MarkdownSection}
    (hle : ∀ s ∈ sections, h.line ≤ s.headerLine) :
    withScope (h :: after) blank sections = withScope after (blankScope blank h) sections := by
  cases sections with
  | nil => rfl
  | cons s sections =>
    unfold withScope
    rw [List.takeWhile_cons_of_pos (by simpa using hle s List.mem_cons_self)]
    rfl

lemma withScope_outline (hsorted : headers.Pairwise (·.line < ·.line)) :
    withScope headers blank (sectionsFrom lines currentH2 headers) =
      outline lines currentH2 blank headers := by
  induction headers generalizing currentH2 blank with
  | nil => rfl
  | cons h after ih =>
    rw [List.pairwise_cons] at hsorted
    have hafter : ∀ s ∈ sectionsFrom lines (nextScope currentH2 h) after,
      h.line ≤ s.headerLine := by
      intro s hs
      have hsections : (outline lines (nextScope currentH2 h) blank after).map Prod.fst =
          sectionsFrom lines (nextScope currentH2 h) after := outline_sections
      rw [← hsections] at hs
      obtain ⟨e, he, rfl⟩ := List.mem_map.mp hs
      obtain ⟨before, h', after', rfl, -, -, hs', -⟩ := mem_outline he
      rw [hs']
      exact Nat.le_of_lt (hsorted.1 h' (by simp))
    unfold sectionsFrom outline
    split
    · rw [withScope_cons hafter, ih hsorted.2]
    · have hnone : after.takeWhile (·.line ≤ h.line) = [] := by
        rw [List.takeWhile_eq_nil_iff]
        intro hlen
        have hlt := hsorted.1 _ (List.get_mem after ⟨0, hlen⟩)
        simp only [decide_eq_true_eq, not_le]
        exact hlt
      have htake : (h :: after).takeWhile (·.line ≤ h.line) = [h] := by
        rw [List.takeWhile_cons_of_pos (by simp), hnone]
      unfold withScope
      have hline : (sectionOf lines currentH2 h after).headerLine = h.line := rfl
      rw [hline, htake]
      exact congrArg _ (ih hsorted.2)

lemma scope_of_blank (hblank : blank = true → currentH2 = some []) {h : HeaderHit}
    (h' : blankScope blank h = true) : nextScope currentH2 h = some [] := by
  unfold blankScope at h'
  unfold nextScope MIN_LEVEL
  split at h'
  · have ht : h.title = [] := by simpa using h'
    rw [ht, if_pos rfl, slug_nil]
    split
    · rfl
    · rw [if_pos (by omega)]
  · rw [if_neg (by omega), if_neg (by omega)]
    exact hblank h'

lemma scopes_of_blank (before : List HeaderHit) (hblank : blank = true → currentH2 = some [])
    (h : before.foldl blankScope blank = true) : before.foldl nextScope currentH2 = some [] := by
  induction before generalizing currentH2 blank with
  | nil => exact hblank h
  | cons g before ih => exact ih (fun hg => scope_of_blank hblank hg) h

lemma blankScope_last (before : List HeaderHit) :
    before.foldl blankScope false =
      (before.filter (·.level ≤ 2)).getLast?.any (·.title = []) := by
  induction before using List.reverseRecOn with
  | nil => rfl
  | append_singleton before h ih =>
    rw [List.foldl_append, List.foldl_cons, List.foldl_nil, blankScope, List.filter_append]
    by_cases hl : h.level ≤ 2
    · simp [hl]
    · simp [hl, ih]

end Outline

/-! ### Where headers stand -/

/-- The scan's state before a line. -/
def stateBefore (lines : List Text) (line : ℕ) : ScanState := (scanFrom {} 0 (lines.take line)).1

lemma scanLine_hit {s : ScanState} {i : ℕ} {line : Text} {h : HeaderHit}
    (hh : (scanLine s i line).2 = some h) :
    s.fence = none ∧ s.comment = false ∧ h.line = i ∧
      atxHeading line = some (h.level, h.title) := by
  unfold scanLine at hh
  split at hh
  · cases hh
  rename_i hcomment
  split at hh
  · cases hh
  split at hh
  · split at hh <;> cases hh
  · split at hh <;> cases hh
  · cases hh
  · rename_i hfence
    obtain ⟨⟨level, title⟩, hatx, rfl⟩ := Option.map_eq_some_iff.mp hh
    exact ⟨hfence, by simpa using hcomment, rfl, hatx⟩

lemma scanFrom_hit {s : ScanState} {i : ℕ} {lines : List Text} {h : HeaderHit}
    (hh : h ∈ (scanFrom s i lines).2) :
    ∃ before line after, lines = before ++ line :: after ∧ h.line = i + before.length ∧
      atxHeading line = some (h.level, h.title) ∧ (scanFrom s i before).1.fence = none ∧
      (scanFrom s i before).1.comment = false := by
  induction lines generalizing s i with
  | nil => cases hh
  | cons line lines ih =>
    rcases List.mem_append.mp hh with hh | hh
    · obtain ⟨hfence, hcomment, hline, hatx⟩ := scanLine_hit (Option.mem_toList.mp hh)
      exact ⟨[], line, lines, rfl, hline, hatx, hfence, hcomment⟩
    · obtain ⟨before, line', after, rfl, hline, hatx, hfence, hcomment⟩ := ih hh
      refine ⟨line :: before, line', after, rfl, ?_, hatx, hfence, hcomment⟩
      rw [hline, List.length_cons]
      omega

lemma scanFrom_sorted (s : ScanState) (i : ℕ) (lines : List Text) :
    (scanFrom s i lines).2.Pairwise (·.line < ·.line) := by
  induction lines generalizing s i with
  | nil => exact .nil
  | cons line lines ih =>
    refine List.pairwise_append.mpr ⟨?_, ih _ _, fun a ha b hb => ?_⟩
    · cases (scanLine s i line).2 with
      | none => exact .nil
      | some h => exact List.pairwise_singleton _ _
    · obtain ⟨-, -, hline, -⟩ := scanLine_hit (Option.mem_toList.mp ha)
      obtain ⟨before, -, -, -, hb, -⟩ := scanFrom_hit hb
      omega

lemma header_outside {lines : List Text} {h : HeaderHit} (hh : h ∈ (scanHeaders lines).1) :
    ∃ line, lines[h.line]? = some line ∧ atxHeading line = some (h.level, h.title) ∧
      (stateBefore lines h.line).fence = none ∧ (stateBefore lines h.line).comment = false := by
  obtain ⟨before, line, after, rfl, hline, hatx, hfence, hcomment⟩ := scanFrom_hit hh
  rw [Nat.zero_add] at hline
  refine ⟨line, by rw [hline]; simp, hatx, ?_⟩
  unfold stateBefore
  rw [hline, List.take_left]
  exact ⟨hfence, hcomment⟩

/-! ### Spans -/

def ownTexts (lines : List Text) : List HeaderHit → List Text
  | [] => []
  | h :: after => span lines h.line ((after.head?.map (·.line)).getD lines.length) ::
      ownTexts lines after

lemma ownTexts_length (lines : List Text) (headers : List HeaderHit) :
    (ownTexts lines headers).length = headers.length := by
  induction headers with
  | nil => rfl
  | cons h after ih => rw [ownTexts, List.length_cons, List.length_cons, ih]

lemma ownTexts_append (lines : List Text) (before after : List HeaderHit) :
    (ownTexts lines (before ++ after)).drop before.length = ownTexts lines after := by
  induction before with
  | nil => rfl
  | cons h before ih => rw [List.cons_append, ownTexts, List.length_cons, List.drop_succ_cons, ih]

lemma intercalate_append {x y : List Text} (hx : x ≠ []) (hy : y ≠ []) :
    ['\n'].intercalate (x ++ y) = ['\n'].intercalate x ++ '\n' :: ['\n'].intercalate y := by
  induction x with
  | nil => exact absurd rfl hx
  | cons a x ih =>
    cases x with
    | nil =>
      rw [List.singleton_append, List.intercalate_cons_of_ne_nil hy, List.intercalate_singleton,
        List.append_assoc]
      rfl
    | cons b x =>
      rw [List.cons_append, List.intercalate_cons_of_ne_nil (by simp), ih (by simp),
        List.intercalate_cons_cons]
      simp

lemma span_append {lines : List Text} {a b c : ℕ} (hab : a < b) (hbc : b < c)
    (hc : c ≤ lines.length) : span lines a b ++ '\n' :: span lines b c = span lines a c := by
  unfold span
  have hx : (lines.drop a).take (b - a) ≠ [] := by
    rw [← List.length_pos_iff, List.length_take, List.length_drop]
    omega
  have hy : (lines.drop b).take (c - b) ≠ [] := by
    rw [← List.length_pos_iff, List.length_take, List.length_drop]
    omega
  rw [← intercalate_append hx hy]
  congr 1
  have hcut : c - a = (b - a) + (c - b) := by omega
  rw [hcut, List.take_add, List.drop_drop]
  congr 3
  omega

lemma ownTexts_span {lines : List Text} {h : HeaderHit} {after : List HeaderHit}
    (hsorted : (h :: after).Pairwise (·.line < ·.line))
    (hlt : ∀ g ∈ h :: after, g.line < lines.length) {k : ℕ} (hk : k ≤ after.length) :
    ['\n'].intercalate ((ownTexts lines (h :: after)).take (k + 1)) =
      span lines h.line ((after[k]?.map (·.line)).getD lines.length) := by
  induction k generalizing h after with
  | zero =>
    rw [ownTexts, List.take_succ_cons, List.take_zero, List.intercalate_singleton]
    cases after with
    | nil => rfl
    | cons g after => rfl
  | succ k ih =>
    cases after with
    | nil => simp at hk
    | cons g after =>
      rw [List.pairwise_cons] at hsorted
      have hg : h.line < g.line := hsorted.1 g List.mem_cons_self
      have ih := ih hsorted.2 (fun x hx => hlt x (List.mem_cons_of_mem h hx))
        (by simpa using hk)
      rw [ownTexts, List.take_succ_cons, List.intercalate_cons_of_ne_nil (by simp [ownTexts]), ih,
        List.getElem?_cons_succ]
      have hlast : g.line < ((after[k]?.map (·.line)).getD lines.length) ∧
          ((after[k]?.map (·.line)).getD lines.length) ≤ lines.length := by
        cases hx : after[k]? with
        | none => exact ⟨hlt g (by simp), le_refl _⟩
        | some x =>
          have hmem := List.mem_of_getElem? hx
          rw [List.pairwise_cons] at hsorted
          exact ⟨hsorted.2.1 x hmem, Nat.le_of_lt (hlt x (by simp [hmem]))⟩
      have := span_append hg hlast.1 hlast.2
      simpa using this

lemma find_nested (level : ℕ) (after : List HeaderHit) :
    after.find? (·.level ≤ level) = after[(after.takeWhile (level < ·.level)).length]? := by
  induction after with
  | nil => rfl
  | cons g after ih =>
    by_cases hg : level < g.level
    · rw [List.find?_cons_of_neg (by simpa using hg),
        List.takeWhile_cons_of_pos (by simpa using hg),
        List.length_cons, List.getElem?_cons_succ, ih]
    · rw [List.find?_cons_of_pos (by simpa using hg),
        List.takeWhile_cons_of_neg (by simpa using hg)]
      rfl

/-! ### The gate is exact -/

/-- A section whose title is not blank, under no blank heading. -/
def Named (headers : List HeaderHit) (s : MarkdownSection) : Prop :=
  s.title ≠ [] ∧ (s.level = 3 →
    ∀ p ∈ (headers.filter fun h => h.level ≤ 2 ∧ h.line < s.headerLine).getLast?, p.title ≠ [])

/-- A path of the parser: one slug, or a parent's and one. -/
structure PathOk (e : MarkdownSection × Bool) : Prop where
  separators : ∀ segment ∈ e.1.headerPath, '/' ∉ segment ∧ '#' ∉ segment
  nonempty : e.1.headerPath ≠ []
  depth : e.1.headerPath.length ≤ 2
  last : e.1.headerPath.getLast? = some (slugifyHeader e.1.title)
  blank : e.2 = true → e.1.headerPath.length = 2 → e.1.headerPath[0]? = some []

section Gate

variable {text : Text}

def outlineOf (text : Text) : List (MarkdownSection × Bool) :=
  outline (text.splitOn '\n') none false (scanHeaders (text.splitOn '\n')).1

lemma outlineOf_sections (text : Text) :
    (outlineOf text).map Prod.fst = parseMarkdownSections text := outline_sections

lemma validate_eq (text : Text) : validateMarkdownAddressability text =
    ((scanHeaders (text.splitOn '\n')).2.map AddressabilityFinding.unterminatedFence).toList ++
      (((outlineOf text).filter fun e => unaddressable e.1 e.2).map fun e =>
        .unaddressableHeader (joined e.1.headerPath) e.1.headerLine e.1.title) ++
      duplicates (((outlineOf text).filter fun e => addressed e.1 e.2).map fun e =>
        (joined e.1.headerPath, e.1.headerLine)) := by
  have hscope : withScope (scanHeaders (text.splitOn '\n')).1 false
      (parseMarkdownSections text) = outlineOf text :=
    withScope_outline (scanFrom_sorted {} 0 (text.splitOn '\n'))
  unfold validateMarkdownAddressability
  rw [← hscope]

lemma scope_separators (before : List HeaderHit) (currentH2 : Option Text)
    (h : ∀ p ∈ currentH2, '/' ∉ p ∧ '#' ∉ p) :
    ∀ p ∈ before.foldl nextScope currentH2, '/' ∉ p ∧ '#' ∉ p := by
  induction before generalizing currentH2 with
  | nil => exact h
  | cons g before ih =>
    refine ih _ fun p hp => ?_
    unfold nextScope at hp
    split at hp
    · split at hp
      · obtain rfl := Option.some.inj hp
        simp
      · cases hp
    split at hp
    · obtain rfl := Option.some.inj hp
      exact slug_separators _
    · exact h p hp

lemma pathOk_of_mem {e : MarkdownSection × Bool} (he : e ∈ outlineOf text) : PathOk e := by
  obtain ⟨before, h, after, -, hmin, hmax, hs, hb⟩ := mem_outline he
  have hsep := scope_separators before none (by simp)
  have hblank : before.foldl blankScope false = true → before.foldl nextScope none = some [] :=
    scopes_of_blank before (by simp)
  obtain ⟨s, b⟩ := e
  dsimp only at hs hb
  subst hs
  unfold sectionOf
  by_cases htwo : h.level = 2
  · refine ⟨?_, ?_, ?_, ?_, ?_⟩ <;> simp only [htwo, ↓reduceIte]
    · simpa using slug_separators h.title
    · simp
    · simp
    · rfl
    · simp
  · have hthree : ¬h.level ≤ 2 := by omega
    rw [blankScope, if_neg hthree] at hb
    cases hscope : before.foldl nextScope none with
    | none =>
      refine ⟨?_, ?_, ?_, ?_, ?_⟩ <;> simp only [htwo, ↓reduceIte]
      · simpa using slug_separators h.title
      · simp
      · simp
      · rfl
      · simp
    | some parent =>
      refine ⟨?_, ?_, ?_, ?_, ?_⟩ <;> simp only [htwo, ↓reduceIte]
      · have hp := hsep parent hscope
        intro segment hseg
        simp only [List.mem_cons, List.not_mem_nil, or_false] at hseg
        rcases hseg with rfl | rfl
        · exact hp
        · exact slug_separators h.title
      · simp
      · simp
      · rfl
      · intro hbt _
        have := hblank (hb ▸ hbt)
        rw [hscope] at this
        exact this

lemma joined_inj {p p' : List Text} (h : ∀ segment ∈ p, '/' ∉ segment)
    (h' : ∀ segment ∈ p', '/' ∉ segment) (hne : p ≠ []) (hne' : p' ≠ [])
    (heq : joined p = joined p') : p = p' := by
  unfold joined at heq
  rw [← List.splitOn_intercalate '/' h hne, heq, List.splitOn_intercalate '/' h' hne']

lemma not_skipped {e : MarkdownSection × Bool} (he : e ∈ outlineOf text)
    (hn : Named (scanHeaders (text.splitOn '\n')).1 e.1) : skipped e.1 e.2 = false := by
  obtain ⟨before, h, after, hsplit, hmin, hmax, hs, hb⟩ := mem_outline he
  obtain ⟨s, b⟩ := e
  dsimp only at hs hb hn ⊢
  have hsorted := scanFrom_sorted {} 0 (text.splitOn '\n')
  change (scanHeaders (text.splitOn '\n')).1.Pairwise _ at hsorted
  have hlevel : s.level = h.level := by rw [hs]; rfl
  have hline : s.headerLine = h.line := by rw [hs]; rfl
  unfold skipped
  rw [Bool.or_eq_false_iff]
  refine ⟨by simpa using hn.1, ?_⟩
  by_cases htwo : h.level = 2
  · have hlen : s.headerPath.length = 1 := by
      rw [hs]
      simp [sectionOf, htwo]
    simp [hlen]
  · -- The headers before a section of level three are those its scope is read off.
    have hthree : ¬h.level ≤ 2 := by omega
    have hfilter : ((scanHeaders (text.splitOn '\n')).1.filter
        fun g => g.level ≤ 2 ∧ g.line < s.headerLine) = before.filter (·.level ≤ 2) := by
      rw [hsplit, List.pairwise_append, List.pairwise_cons] at hsorted
      rw [hsplit, List.filter_append, List.filter_cons_of_neg (by simp [hthree]), hline]
      have hbefore : (before.filter fun g => g.level ≤ 2 ∧ g.line < h.line) =
          before.filter (·.level ≤ 2) := by
        refine List.filter_congr fun g hg => ?_
        have hlt := hsorted.2.2 g hg h List.mem_cons_self
        simp [hlt]
      have hafter : (after.filter fun g => g.level ≤ 2 ∧ g.line < h.line) = [] := by
        rw [List.filter_eq_nil_iff]
        intro g hg
        have hlt := hsorted.2.1.1 g hg
        simp only [decide_eq_true_eq, not_and, not_lt]
        exact fun _ => Nat.le_of_lt hlt
      rw [hbefore, hafter, List.append_nil]
    have hscope := hn.2 (by omega)
    rw [hfilter] at hscope
    rw [blankScope, if_neg hthree, blankScope_last] at hb
    have hfalse : b = false := by
      rw [hb]
      cases hlast : (before.filter (·.level ≤ 2)).getLast? with
      | none => rfl
      | some p => simpa using hscope p hlast
    simp [hfalse]

lemma not_skipped_of_path {e : MarkdownSection × Bool} (he : e ∈ outlineOf text)
    (h : ∀ segment ∈ e.1.headerPath, segment ≠ []) : skipped e.1 e.2 = false := by
  have hok := pathOk_of_mem he
  unfold skipped
  rw [Bool.or_eq_false_iff]
  constructor
  · rw [decide_eq_false_iff_not]
    intro ht
    have hlast := hok.last
    rw [ht, slug_nil] at hlast
    exact h [] (List.mem_of_getLast? hlast) rfl
  · rw [Bool.eq_false_iff]
    intro hs
    simp only [Bool.and_eq_true, decide_eq_true_eq] at hs
    exact h [] (List.mem_of_getElem? (hok.blank hs.1.1 hs.1.2)) rfl

lemma addressed_of_path {e : MarkdownSection × Bool} (he : e ∈ outlineOf text)
    (h : [] ∉ e.1.headerPath) : addressed e.1 e.2 = true := by
  have hne : ∀ segment ∈ e.1.headerPath, segment ≠ [] := fun segment hs heq => h (heq ▸ hs)
  unfold addressed
  rw [not_skipped_of_path he hne]
  simpa using hne

lemma mem_duplicates {seen : List (Text × ℕ)} {path : Text} {a b : ℕ} (ha : (path, a) ∈ seen)
    (hb : (path, b) ∈ seen) (hab : a ≠ b) :
    ∃ lines, .duplicateHeaderPath path lines ∈ duplicates seen ∧ a ∈ lines ∧ b ∈ lines := by
  have hmem : ∀ x, (path, x) ∈ seen →
      x ∈ (seen.filter fun e => e.1 = path).map Prod.snd := by
    intro x hx
    exact List.mem_map.mpr ⟨(path, x), List.mem_filter.mpr ⟨hx, by simp⟩, rfl⟩
  have hlen : 1 < ((seen.filter fun e => e.1 = path).map Prod.snd).length := by
    by_contra hle
    rw [not_lt] at hle
    have ha' := hmem a ha
    have hb' := hmem b hb
    generalize (seen.filter fun e => e.1 = path).map Prod.snd = l at hle ha' hb'
    cases l with
    | nil => cases ha'
    | cons x l =>
      have hnil : l = [] := List.length_eq_zero_iff.mp (by simpa using hle)
      subst hnil
      exact hab ((List.mem_singleton.mp ha').trans (List.mem_singleton.mp hb').symm)
  refine ⟨_, List.mem_filterMap.mpr ⟨path, ?_, if_pos hlen⟩, hmem a ha, hmem b hb⟩
  exact List.mem_eraseDups.mpr (List.mem_map.mpr ⟨(path, a), ha, rfl⟩)

lemma count_of_no_duplicates {seen : List (Text × ℕ)} (h : duplicates seen = []) (path : Text) :
    (seen.filter fun e => e.1 = path).length ≤ 1 := by
  by_contra hlt
  rw [not_le] at hlt
  have hmem : path ∈ (seen.map Prod.fst).eraseDups := by
    obtain ⟨e, he⟩ := List.exists_mem_of_length_pos (Nat.zero_lt_of_lt hlt)
    rw [List.mem_filter] at he
    exact List.mem_eraseDups.mpr (List.mem_map.mpr ⟨e, he.1, by simpa using he.2⟩)
  have := List.filterMap_eq_nil_iff.mp h path hmem
  simp [hlt] at this

lemma parseAddress_joined {e : MarkdownSection × Bool} (he : e ∈ outlineOf text)
    (h : [] ∉ e.1.headerPath) {ref : Text} (href : ref ≠ []) (hhash : '#' ∉ ref) :
    parseAddress (ref ++ '#' :: joined e.1.headerPath) =
      .ok { ref, headerPath := e.1.headerPath } := by
  have hok := pathOk_of_mem he
  have hjoined : '#' ∉ joined e.1.headerPath := by
    unfold joined
    have := fun segment hs => (hok.separators segment hs).2
    generalize e.1.headerPath = path at this
    induction path with
    | nil => simp
    | cons p path ih =>
      cases path with
      | nil => simpa using this p
      | cons r path =>
        rw [List.intercalate_cons_cons]
        have hp := this p List.mem_cons_self
        have hr := ih fun segment hs => this segment (List.mem_cons_of_mem p hs)
        simp [hp, hr]
  have hsplit : (ref ++ '#' :: joined e.1.headerPath).splitOn '#' =
      [ref, joined e.1.headerPath] := by
    have hls : ∀ l ∈ [ref, joined e.1.headerPath], '#' ∉ l := by
      simp [hhash, hjoined]
    have := List.splitOn_intercalate '#' hls (by simp)
    rwa [List.intercalate_cons_cons, List.intercalate_singleton, List.append_assoc] at this
  have hpath : (joined e.1.headerPath).splitOn '/' = e.1.headerPath :=
    List.splitOn_intercalate '/' (fun segment hs => (hok.separators segment hs).1) hok.nonempty
  have hany : e.1.headerPath.any (· = []) = false := by
    rw [List.any_eq_false]
    intro segment hs heq
    exact h (of_decide_eq_true heq ▸ hs)
  have hdepth : ¬MAX_LEVEL - MIN_LEVEL + 1 < e.1.headerPath.length := by
    have := hok.depth
    simp only [MAX_LEVEL, MIN_LEVEL]
    omega
  unfold parseAddress
  rw [hsplit]
  dsimp only
  rw [if_neg href, hpath, hany, if_neg (by simp), if_neg hdepth]

lemma resolveAddress_joined (hnone : validateMarkdownAddressability text = [])
    {e : MarkdownSection × Bool} (he : e ∈ outlineOf text) (h : [] ∉ e.1.headerPath) :
    resolveAddress text e.1.headerPath = .ok e.1 := by
  have hok := pathOk_of_mem he
  rw [validate_eq, List.append_eq_nil_iff] at hnone
  have hcount := count_of_no_duplicates hnone.2 (joined e.1.headerPath)
  rw [List.filter_map, List.length_map] at hcount
  have hfilter : (parseMarkdownSections text).filter (fun s =>
        joined s.headerPath = joined e.1.headerPath) =
      (((outlineOf text).filter fun x => addressed x.1 x.2).filter fun x =>
        joined x.1.headerPath = joined e.1.headerPath).map Prod.fst := by
    rw [← outlineOf_sections, List.filter_map, List.filter_filter]
    congr 1
    refine List.filter_congr fun x hx => ?_
    simp only [Function.comp_apply]
    by_cases hj : joined x.1.headerPath = joined e.1.headerPath
    · -- A path that joins to the same text is the same path.
      have hokx := pathOk_of_mem hx
      have hpath : x.1.headerPath = e.1.headerPath :=
        joined_inj (fun segment hs => (hokx.separators segment hs).1)
          (fun segment hs => (hok.separators segment hs).1) hokx.nonempty hok.nonempty hj
      have haddr := addressed_of_path hx (hpath ▸ h)
      simp [hj, haddr]
    · simp [hj]
  have hmem : e ∈ ((outlineOf text).filter fun x => addressed x.1 x.2).filter fun x =>
      joined x.1.headerPath = joined e.1.headerPath := by
    simp [he, addressed_of_path he h]
  unfold resolveAddress
  rw [if_neg hok.nonempty]
  dsimp only
  rw [hfilter]
  change (List.filter _ _).length ≤ 1 at hcount
  simp only [Function.comp_def] at hcount
  generalize ((outlineOf text).filter fun x => addressed x.1 x.2).filter (fun x =>
    joined x.1.headerPath = joined e.1.headerPath) = l at hcount hmem
  cases l with
  | nil => cases hmem
  | cons x l =>
    have hnil : l = [] := List.length_eq_zero_iff.mp (by simpa using hcount)
    subst hnil
    obtain rfl := List.mem_singleton.mp hmem
    rfl

end Gate

/-! ### The whole text -/

/-- The headers stand outside fences and comments, in order; their own texts tile the text from the
first; and a section's text is its own and those of the headers nested under it. -/
structure Tiled (lines : List Text) (headers : List HeaderHit) (sections : List MarkdownSection) :
    Prop where
  sorted : headers.Pairwise (·.line < ·.line)
  outside : ∀ h ∈ headers, ∃ line, lines[h.line]? = some line ∧
    atxHeading line = some (h.level, h.title) ∧ (stateBefore lines h.line).fence = none ∧
    (stateBefore lines h.line).comment = false
  tile : ∀ h after, headers = h :: after →
    ['\n'].intercalate (ownTexts lines headers) = span lines h.line lines.length
  sections : ∀ s ∈ sections, ∃ before h after, headers = before ++ h :: after ∧
    s.level = h.level ∧ s.title = h.title ∧ s.headerLine = h.line ∧
    (ownTexts lines headers)[before.length]? = some s.ownText ∧
    s.text = ['\n'].intercalate (((ownTexts lines headers).drop before.length).take
      ((after.takeWhile (h.level < ·.level)).length + 1))

lemma tiled (text : Text) : Tiled (text.splitOn '\n') (scanHeaders (text.splitOn '\n')).1
    (parseMarkdownSections text) := by
  have hsorted : (scanHeaders (text.splitOn '\n')).1.Pairwise (·.line < ·.line) :=
    scanFrom_sorted {} 0 (text.splitOn '\n')
  have houtside := fun h (hh : h ∈ (scanHeaders (text.splitOn '\n')).1) => header_outside hh
  have hlt : ∀ h ∈ (scanHeaders (text.splitOn '\n')).1, h.line < (text.splitOn '\n').length := by
    intro h hh
    obtain ⟨line, hline, -⟩ := houtside h hh
    exact (List.getElem?_eq_some_iff.mp hline).1
  refine ⟨hsorted, houtside, fun h after heq => ?_, fun s hs => ?_⟩
  · rw [heq] at hsorted hlt ⊢
    have := ownTexts_span hsorted hlt (le_refl after.length)
    rw [List.take_of_length_le (by rw [ownTexts_length]; simp)] at this
    simpa using this
  · rw [← outlineOf_sections] at hs
    obtain ⟨e, he, rfl⟩ := List.mem_map.mp hs
    obtain ⟨before, h, after, heq, -, -, hs, -⟩ := mem_outline he
    have hsub : (h :: after).Sublist (scanHeaders (text.splitOn '\n')).1 := by
      rw [heq]
      exact List.sublist_append_right _ _
    have hdrop : (ownTexts (text.splitOn '\n') (scanHeaders (text.splitOn '\n')).1).drop
        before.length = ownTexts (text.splitOn '\n') (h :: after) := by
      rw [heq, ownTexts_append]
    refine ⟨before, h, after, heq, by rw [hs]; rfl, by rw [hs]; rfl, by rw [hs]; rfl, ?_, ?_⟩
    · rw [← List.head?_drop, hdrop, hs]
      rfl
    · rw [hdrop, ownTexts_span (hsorted.sublist hsub) (fun g hg => hlt g (hsub.mem hg))
        (List.takeWhile_sublist _).length_le, hs]
      unfold sectionOf
      dsimp only
      rw [find_nested]

/-- **The gate is exact.** With no finding every named section is reached by its address; a named
section whose path has an empty segment, or is that of another, is found; and the sections tile
the text. -/
theorem addressability_exact (text : Text) :
    (validateMarkdownAddressability text = [] → ∀ s ∈ parseMarkdownSections text,
      Named (scanHeaders (text.splitOn '\n')).1 s → ∀ ref, ref ≠ [] → '#' ∉ ref →
        parseAddress (ref ++ '#' :: joined s.headerPath) = .ok { ref, headerPath := s.headerPath } ∧
        resolveAddress text s.headerPath = .ok s) ∧
    (∀ s ∈ parseMarkdownSections text, Named (scanHeaders (text.splitOn '\n')).1 s →
      [] ∈ s.headerPath →
        .unaddressableHeader (joined s.headerPath) s.headerLine s.title ∈
          validateMarkdownAddressability text) ∧
    (∀ s ∈ parseMarkdownSections text, ∀ s' ∈ parseMarkdownSections text,
      Named (scanHeaders (text.splitOn '\n')).1 s → s'.headerLine ≠ s.headerLine →
      s'.headerPath = s.headerPath → [] ∉ s.headerPath →
        ∃ lines, .duplicateHeaderPath (joined s.headerPath) lines ∈
            validateMarkdownAddressability text ∧
          s.headerLine ∈ lines ∧ s'.headerLine ∈ lines) ∧
    Tiled (text.splitOn '\n') (scanHeaders (text.splitOn '\n')).1 (parseMarkdownSections text) := by
  have hunaddressable : ∀ e ∈ outlineOf text, Named (scanHeaders (text.splitOn '\n')).1 e.1 →
      [] ∈ e.1.headerPath →
        .unaddressableHeader (joined e.1.headerPath) e.1.headerLine e.1.title ∈
          validateMarkdownAddressability text := by
    intro e he hn hempty
    rw [validate_eq]
    refine List.mem_append_left _ (List.mem_append_right _ (List.mem_map.mpr ⟨e, ?_, rfl⟩))
    rw [List.mem_filter]
    refine ⟨he, ?_⟩
    rw [unaddressable, not_skipped he hn]
    simpa using hempty
  have hlift : ∀ s ∈ parseMarkdownSections text, ∃ e ∈ outlineOf text, e.1 = s := by
    intro s hs
    rw [← outlineOf_sections] at hs
    exact List.mem_map.mp hs
  refine ⟨fun hnone s hs hn ref href hhash => ?_, fun s hs hn hempty => ?_,
    fun s hs s' hs' hn hline hpath hempty => ?_, tiled text⟩
  · obtain ⟨e, he, rfl⟩ := hlift s hs
    have hempty : [] ∉ e.1.headerPath := by
      intro hempty
      have := hunaddressable e he hn hempty
      rw [hnone] at this
      cases this
    exact ⟨parseAddress_joined he hempty href hhash, resolveAddress_joined hnone he hempty⟩
  · obtain ⟨e, he, rfl⟩ := hlift s hs
    exact hunaddressable e he hn hempty
  · obtain ⟨e, he, rfl⟩ := hlift s hs
    obtain ⟨e', he', rfl⟩ := hlift s' hs'
    have hseen : ∀ x ∈ outlineOf text, [] ∉ x.1.headerPath →
        (joined x.1.headerPath, x.1.headerLine) ∈
          ((outlineOf text).filter fun e => addressed e.1 e.2).map fun e =>
            (joined e.1.headerPath, e.1.headerLine) := by
      intro x hx hxe
      exact List.mem_map.mpr ⟨x, List.mem_filter.mpr ⟨hx, addressed_of_path hx hxe⟩, rfl⟩
    have ha := hseen e he hempty
    have hb := hseen e' he' (hpath ▸ hempty)
    rw [hpath] at hb
    obtain ⟨lines, hmem, hal, hbl⟩ := mem_duplicates ha hb hline.symm
    refine ⟨lines, ?_, hal, hbl⟩
    rw [validate_eq]
    exact List.mem_append_right _ hmem

/-- A section of level three, past a fence with a heading in it. -/
theorem addressability_exact_nested :
    let text := "# T\n## A b\n~~~\n## no\n~~~\n### C!\nend".toList
    ∃ s ∈ parseMarkdownSections text, s.headerPath = ["a-b".toList, "c".toList] ∧
      parseAddress "doc#a-b/c".toList = .ok { ref := "doc".toList, headerPath := s.headerPath } ∧
      resolveAddress text s.headerPath = .ok s := by
  intro text
  have hnone : validateMarkdownAddressability text = [] := by decide +kernel
  have hs : ∃ s ∈ parseMarkdownSections text,
      s.headerPath = ["a-b".toList, "c".toList] ∧ s.title ≠ [] ∧
        ∀ p ∈ ((scanHeaders (text.splitOn '\n')).1.filter
          fun h => h.level ≤ 2 ∧ h.line < s.headerLine).getLast?, p.title ≠ [] := by
    decide +kernel
  obtain ⟨s, hmem, hpath, htitle, hscope⟩ := hs
  obtain ⟨hparse, hresolve⟩ := (addressability_exact text).1 hnone s hmem
    ⟨htitle, fun _ => hscope⟩ "doc".toList (by decide) (by decide)
  refine ⟨s, hmem, hpath, ?_, hresolve⟩
  rw [hpath] at hparse ⊢
  exact hparse

end OpenRig.MarkdownAddress
