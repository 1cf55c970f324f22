import OpenRig.Decimals
import OpenRig.PersonWords
import OpenRig.Placeholders
import OpenRig.SlackSplit

/-!
Agent-written Markdown as Slack mrkdwn.

A line is redacted and escaped; then code spans, links and bare URLs are set aside under marks
`<n>`, the bold markers are rewritten, and the marks are filled in. Each regular expression is a
matcher at the start of a text, which answers with its groups.
-/

namespace OpenRig.SlackMrkdwn

open OpenRig.Decimals OpenRig.Placeholders OpenRig.SecretRedaction OpenRig.SlackSplit
open OpenRig.PersonWords

/-! ### Units -/

def LANGLE : UInt16 := 0x3C
def RANGLE : UInt16 := 0x3E
def BAR : UInt16 := 0x7C
def TICK : UInt16 := 0x60
def STAR : UInt16 := 0x2A
def UNDERSCORE : UInt16 := 0x5F
def OPEN : UInt16 := 0x28
def CLOSE : UInt16 := 0x29
def LBRACKET : UInt16 := 0x5B
def RBRACKET : UInt16 := 0x5D
def HASH : UInt16 := 0x23
def SPACE : UInt16 := 0x20

/-- What `.` does not match. -/
def isLineTerminator (c : UInt16) : Bool :=
  c == 10 || c == 13 || c == 0x2028 || c == 0x2029

def HTTPS : Text := unitsOf "https://"

/-! ### Safe URLs -/

structure ParsedUrl where
  username : Text
  password : Text

section Convert

-- `new URL`, with none for a thrown error
variable (newURL : Text → Option ParsedUrl)

def isSafeHttpsUrl (url : Text) : Bool :=
  HTTPS.isPrefixOf url && HTTPS.length < url.length &&
    (url.drop HTTPS.length).all (!isSpaceUnit ·) && !containsSecret url &&
    (newURL url).any fun parsed => parsed.username == [] && parsed.password == []

/-- `replaceAll` of a text. -/
def replaceText (part replacement : Text) (text : Text) : Text :=
  (replaceAll (fun (_ : Unit) t =>
    if part.isPrefixOf t then some ⟨part.length, replacement, ()⟩ else none) () 0 text).1

def unescape (url : Text) : Text :=
  replaceText (unitsOf "&amp;") [0x26]
    (replaceText (unitsOf "&gt;") [RANGLE] (replaceText (unitsOf "&lt;") [LANGLE] url))

/-! ### Marks -/

def mark (i : ℕ) : Text := LANGLE :: decimal i ++ [RANGLE]

/-- `<(\d+)>`: its length and its number. -/
def markAt : Text → Option (ℕ × ℕ)
  | [] => none
  | c :: rest =>
    let digits := rest.takeWhile isDigitUnit
    if c = LANGLE ∧ digits ≠ [] ∧ (rest.drop digits.length).head? = some RANGLE then
      some (digits.length + 2, parseDecimal digits)
    else none

/-- A mark gives way to its text. -/
def filling (held : List Text) (seen : List ℕ) (text : Text) : Option (Found UInt16 (List ℕ)) :=
  (markAt text).map fun (length, i) => ⟨length, held.getD i [], seen ++ [i]⟩

/-- `restore`, with the indices it put back. -/
def restoring (held : List Text) (text : Text) : Text × List ℕ :=
  replaceAll (filling held) [] 0 text

def restore (held : List Text) (text : Text) : Text := (restoring held text).1

/-! ### The matchers -/

def codeSpanAt : Text → Option Text
  | [] => none
  | c :: rest =>
    let code := rest.takeWhile fun d => d != TICK && d != NL
    if c = TICK ∧ code ≠ [] ∧ (rest.drop code.length).head? = some TICK then
      some (TICK :: code ++ [TICK])
    else none

/-- The length of the target of a Markdown link, up to the `)` that closes it. `inside` a pair of
parentheses, which do not nest. -/
def mdUrlLength : Bool → Text → Option ℕ
  | _, [] => none
  | inside, c :: rest =>
    if c = CLOSE then if inside then (mdUrlLength false rest).map (· + 1) else some 0
    else if c = OPEN then if inside then none else (mdUrlLength true rest).map (· + 1)
    else if isSpaceUnit c then none
    else (mdUrlLength inside rest).map (· + 1)

/-- A Markdown link: its label and its target. -/
def mdLinkAt : Text → Option (Text × Text)
  | [] => none
  | c :: rest =>
    let label := rest.takeWhile fun d => d != RBRACKET && d != NL
    if c = LBRACKET ∧ label ≠ [] then
      match rest.drop label.length with
      | a :: b :: target =>
        if a = RBRACKET ∧ b = OPEN then
          match mdUrlLength false target with
          | some (n + 1) => some (label, target.take (n + 1))
          | _ => none
        else none
      | _ => none
    else none

def ESCAPED_LT : Text := unitsOf "&lt;"
def ESCAPED_GT : Text := unitsOf "&gt;"

/-- The label of a Slack link, up to the first `&gt;` after its first unit. -/
def slackLabel : Bool → Text → Option Text
  | _, [] => none
  | started, c :: rest =>
    if started && ESCAPED_GT.isPrefixOf (c :: rest) then some []
    else if isLineTerminator c then none
    else (slackLabel true rest).map (c :: ·)

/-- The rest of the URL of a Slack link after `https://`, and the label that follows it. -/
def slackUrl : Bool → Text → Option (Text × Option Text)
  | _, [] => none
  | started, c :: rest =>
    if started && c == BAR then (slackLabel false rest).map fun label => ([], some label)
    else if started && ESCAPED_GT.isPrefixOf (c :: rest) then some ([], none)
    else if isSpaceUnit c || c == BAR then none
    else (slackUrl true rest).map fun (url, label) => (c :: url, label)

/-- A Slack link: its URL and its label. -/
def slackLinkAt (text : Text) : Option (Text × Option Text) :=
  if (ESCAPED_LT ++ HTTPS).isPrefixOf text then
    (slackUrl false (text.drop (ESCAPED_LT ++ HTTPS).length)).map fun (url, label) =>
      (HTTPS ++ url, label)
  else none

def isBareUnit (c : UInt16) : Bool :=
  !isSpaceUnit c && c != LANGLE && c != RANGLE && c != BAR && c != TICK

def bareUrlAt (text : Text) : Option Text :=
  if HTTPS.isPrefixOf text then
    let rest := (text.drop HTTPS.length).takeWhile isBareUnit
    if rest = [] then none else some (HTTPS ++ rest)
  else none

/-- Up to two marker units after a unit that is no space. `last` is the unit before. -/
def boldGroup (marker : UInt16) : Option UInt16 → Text → Option Text
  | _, [] => none
  | last, c :: rest =>
    if last.any (!isSpaceUnit ·) && c == marker && rest.head? == some marker then some []
    else if isLineTerminator c then none
    else (boldGroup marker (some c) rest).map (c :: ·)

/-- Bold text between two pairs of markers. -/
def boldAt (marker : UInt16) : Text → Option Text
  | a :: b :: c :: rest =>
    if a = marker ∧ b = marker ∧ !isSpaceUnit c then boldGroup marker none (c :: rest) else none
  | _ => none

/-! ### Bare URLs in a sentence -/

/-- How often `__` stands in a text, none overlapping. -/
def countPairs : Text → ℕ
  | a :: b :: rest =>
    if a = UNDERSCORE ∧ b = UNDERSCORE then countPairs rest + 1 else countPairs (b :: rest)
  | _ => 0

/-- How many units the end of a URL gives back to the sentence at once. -/
def trimmed (url : Text) : Option ℕ :=
  if [STAR, STAR].isSuffixOf url then some 2
  else if [UNDERSCORE, UNDERSCORE].isSuffixOf url && countPairs url % 2 == 1 then some 2
  else if url.getLast?.any (oneOf ".,;:!?") then some 1
  else if [CLOSE].isSuffixOf url && url.count OPEN < url.count CLOSE then some 1
  else if [RBRACKET].isSuffixOf url && url.count LBRACKET < url.count RBRACKET then some 1
  else none

/-- As long as something is given back; there are no more rounds than units. -/
def trimRounds : ℕ → Text → Text
  | 0, url => url
  | rounds + 1, url =>
    match trimmed url with
    | some n => trimRounds rounds (url.take (url.length - n))
    | none => url

/-- The URL and what follows it in the sentence. -/
def trimBareUrl (found : Text) : Text × Text :=
  let url := trimRounds found.length found
  (url, found.drop url.length)

/-! ### One line -/

/-- A safe link is set aside, with what its label put back; any other stays as it is. -/
def link (s : Stock UInt16) (original url : Text) (label : Option Text) : Text × Stock UInt16 :=
  let shown := label.map (restoring s.held)
  let raw := unescape url
  if !isSafeHttpsUrl newURL raw || raw.any (fun c => c == LANGLE || c == RANGLE || c == BAR) ||
      shown.any (·.1.contains BAR) then (original, s)
  else
    match shown with
    | none => (mark s.held.length, s.hold (LANGLE :: url ++ [RANGLE]))
    | some (text, restored) =>
      (mark s.held.length, { s.hold (LANGLE :: url ++ BAR :: text ++ [RANGLE]) with
        restored := s.restored ++ restored })

abbrev Pass := Stock UInt16 → Text → Option (Found UInt16 (Stock UInt16))

def codePass : Pass := fun s text =>
  (codeSpanAt text).map fun code => ⟨code.length, mark s.held.length, s.hold code⟩

def mdLinkText (label url : Text) : Text :=
  LBRACKET :: label ++ RBRACKET :: OPEN :: url ++ [CLOSE]

def mdLinkPass : Pass := fun s text =>
  (mdLinkAt text).map fun (label, url) =>
    let out := link newURL s (mdLinkText label url) url (some label)
    ⟨(mdLinkText label url).length, out.1, out.2⟩

def slackLinkText (url : Text) (label : Option Text) : Text :=
  ESCAPED_LT ++ url ++ (label.elim [] (BAR :: ·)) ++ ESCAPED_GT

def slackLinkPass : Pass := fun s text =>
  (slackLinkAt text).map fun (url, label) =>
    let out := link newURL s (slackLinkText url label) url label
    ⟨(slackLinkText url label).length, out.1, out.2⟩

def bareUrlPass : Pass := fun s text =>
  (bareUrlAt text).map fun found =>
    let (url, rest) := trimBareUrl found
    ⟨found.length, mark s.held.length ++ rest, s.hold url⟩

def boldPass (marker : UInt16) : Pass := fun s text =>
  (boldAt marker text).map fun bold => ⟨bold.length + 4, STAR :: bold ++ [STAR], s⟩

def passes : List Pass :=
  [codePass, mdLinkPass newURL, slackLinkPass newURL, bareUrlPass, boldPass STAR,
    boldPass UNDERSCORE]

/-- The line after the passes, and what was set aside. -/
def rewritten (line : Text) : Text × Stock UInt16 :=
  (passes newURL).foldl (fun out pass => replaceAll pass out.2 0 out.1) (escapeSlackText line, {})

def inlineMarkdownToMrkdwn (line : Text) : Text :=
  restore (rewritten newURL line).2.held (rewritten newURL line).1

/-! ### Lines and fences -/

/-- The marker of `FENCE_PATTERN`, and what follows it. -/
def fenceMarker (line : Text) : Option Text :=
  let indent := line.takeWhile (· == SPACE)
  let rest := line.drop indent.length
  match rest with
  | [] => none
  | c :: _ =>
    let run := rest.takeWhile (· == c)
    if indent.length ≤ 3 ∧ (c = TICK ∨ c = 0x7E) ∧ 3 ≤ run.length then some run else none

/-- A line that may close a fence holds only the marker. -/
def onlyFence (line : Text) : Bool :=
  let indent := line.takeWhile (· == SPACE)
  let run := (line.drop indent.length).takeWhile fun c => c == TICK || c == 0x7E
  indent.length ≤ 3 && run != [] && (line.drop (indent.length + run.length)).all isSpaceUnit

/-- Closing hashes and white space at the end of a heading. -/
def headingEnd (text : Text) : Bool :=
  text.all isSpaceUnit ||
    text.head?.any isSpaceUnit &&
      let hashes := text.dropWhile isSpaceUnit
      hashes.head? == some HASH && (hashes.dropWhile (· == HASH)).all isSpaceUnit

/-- The text of a heading: as little as possible before such an end. -/
def headingText : Text → Option Text
  | [] => some []
  | c :: rest =>
    if headingEnd (c :: rest) then some []
    else if isLineTerminator c then none
    else (headingText rest).map (c :: ·)

def headingOf (line : Text) : Option Text :=
  let hashes := line.takeWhile (· == HASH)
  let rest := line.drop hashes.length
  if 1 ≤ hashes.length ∧ hashes.length ≤ 6 ∧ rest.head?.any isSpaceUnit then
    headingText (rest.dropWhile isSpaceUnit)
  else none

/-- The indent and the text of a list item. -/
def itemOf (line : Text) : Option (Text × Text) :=
  let indent := line.takeWhile isSpaceUnit
  match line.drop indent.length with
  | c :: rest =>
    let text := rest.dropWhile isSpaceUnit
    if oneOf "-*+" c ∧ rest.head?.any isSpaceUnit ∧ !text.any isLineTerminator then
      some (indent, text)
    else none
  | [] => none

/-- The text is one run between stars. -/
def isBold (text : Text) : Bool :=
  3 ≤ text.length && text.head? == some STAR && text.getLast? == some STAR &&
    !(text.drop 1).dropLast.any fun c => c == STAR || c == NL

/-- One line, with the fence that is open before it and after. -/
def convertLine (fence line : Text) : Text × Text :=
  let marker := fenceMarker line
  if fence ≠ [] then
    let closes := marker.any (fun m => m.head? == fence.head? && fence.length ≤ m.length) &&
      onlyFence line
    (escapeSlackText line, if closes then [] else fence)
  else
    match marker with
    | some m => (escapeSlackText line, m)
    | none =>
      match headingOf line with
      | some [] => ([], [])
      | some heading =>
        let inner := inlineMarkdownToMrkdwn newURL heading
        (if isBold inner then inner else STAR :: inner ++ [STAR], [])
      | none =>
        match itemOf line with
        | some (indent, rest) =>
          (indent ++ unitsOf "- " ++ inlineMarkdownToMrkdwn newURL rest, [])
        | none => (inlineMarkdownToMrkdwn newURL line, [])

/-- The lines in turn, and the fence still open at the end. -/
def convertLines : Text → List Text → List Text × Text
  | fence, [] => ([], fence)
  | fence, line :: lines =>
    let one := convertLine newURL fence line
    let out := convertLines one.2 lines
    (one.1 :: out.1, out.2)

def convertMarkdown (text openFence : Text) : Text × Text :=
  let out := convertLines newURL openFence ((redactSecrets text).splitOn NL)
  (joinWith [NL] out.1, out.2)

def markdownToSlackMrkdwn (text openFence : Text) : Text :=
  let converted := convertMarkdown newURL text openFence
  let head := if [TICK].isPrefixOf openFence then unitsOf "```" ++ [NL] else []
  let tail := if [TICK].isPrefixOf converted.2 then NL :: unitsOf "```" else []
  head ++ converted.1 ++ tail

end Convert

end OpenRig.SlackMrkdwn
