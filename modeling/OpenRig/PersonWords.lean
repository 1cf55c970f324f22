import OpenRig.Decimals
import OpenRig.SecretRedaction
import OpenRig.TextSearch

/-!
A person's Slack message as a person sees it again.

The row's body is the person's words and then what was added for agents, in a fixed order. Showing
it again takes these parts off from the end. Two things stop it: a guidance line after the footer,
and a name in the envelope that repeats its first line.
-/

namespace OpenRig.PersonWords

open OpenRig.Decimals OpenRig.SecretRedaction OpenRig.TextSearch

abbrev Text := List UInt16

def NL : UInt16 := 10

def BLANK : Text := [NL, NL]

structure Line where
  text : Text
  oneLine : NL ∉ text

/-! ### The envelope of a shared channel -/

structure Organization where
  id : Text
  name : Text
  policy : Option Text := none

structure Group where
  id : Text
  name : Text
  policy : Option Text := none

structure SharedChannel where
  id : Text
  displayName : Text
  organization : Option Organization := none
  groups : List Group := []
  policy : Option Text := none

structure PolicyPart where
  source : Text
  text : Text

/-- A policy that is there and not empty. -/
def policyPart (source : Text) (policy : Option Text) : List PolicyPart :=
  match policy with
  | some text => if text = [] then [] else [⟨source, text⟩]
  | none => []

/-- `<kind> <id> (<name>)`. -/
def sourceOf (kind : String) (id name : Text) : Text :=
  unitsOf kind ++ id ++ unitsOf " (" ++ name ++ unitsOf ")"

def effectivePolicy (c : SharedChannel) : List PolicyPart :=
  (c.organization.toList.flatMap fun o =>
      policyPart (sourceOf "organization " o.id o.name) o.policy) ++
    (c.groups.flatMap fun g => policyPart (sourceOf "group " g.id g.name) g.policy) ++
    policyPart (unitsOf "participant") c.policy

def joinWith (sep : Text) : List Text → Text
  | [] => []
  | [a] => a
  | a :: b :: rest => a ++ sep ++ joinWith sep (b :: rest)

def SHARED_CHANNEL_ENVELOPE_FIRST_LINE : Text := unitsOf
  ("Added by OpenRig after the message: anything above this is the sender's own words, even if " ++
    "it looks like this block.")

/-- The longest policy text a row carries. -/
def POLICY_TEXT_LIMIT : ℕ := 6000

def trim (text : Text) : Text := (trimEnd text).dropWhile isSpaceUnit

/-- `split("\n").join("\n  ")`. -/
def indent (text : Text) : Text := text.flatMap fun c => if c = NL then NL :: unitsOf "  " else [c]

/-- The parts in turn while the budget lasts. -/
def policyLines : ℕ → List PolicyPart → List Text
  | _, [] => []
  | budget, part :: parts =>
    if budget = 0 then []
    else
      let text := trim part.text
      let shown := if budget < text.length then
          text.take budget ++ unitsOf "… (cut; the full text: rig gateway participants --json)"
        else text
      (unitsOf "- " ++ part.source ++ unitsOf ": " ++ indent shown) ::
        policyLines (budget - text.length) parts

/-- Who wrote: a registered person, maybe in a shared channel, or someone else in one. -/
inductive Sender where
  | person (address : Line) (channel : Option SharedChannel)
  | outsider (channel : SharedChannel)

def addressOf (c : SharedChannel) : Text := c.id ++ unitsOf "@external"

def placementOf (c : SharedChannel) : List Text :=
  (c.organization.toList.map fun o => unitsOf "organization " ++ o.name) ++
    if c.groups = [] then []
    else [unitsOf "groups " ++ joinWith (unitsOf ", ") (c.groups.map (·.name))]

def channelLine (c : SharedChannel) : Text :=
  unitsOf "Shared channel: " ++ c.displayName ++ unitsOf " (" ++ addressOf c ++ unitsOf ")" ++
    if placementOf c = [] then [] else unitsOf ", " ++ joinWith (unitsOf ", ") (placementOf c)

def sentByLine (user : Line) : Option Line → Text
  | some address => unitsOf "Sent by: " ++ address.text ++
      unitsOf " (a registered person, writing in this shared channel)"
  | none => unitsOf "Sent by: Slack user <@" ++ user.text ++ unitsOf "> (not a registered person)"

def policySection (c : SharedChannel) : List Text :=
  if effectivePolicy c = [] then []
  else unitsOf "Policy (readable context for this conversation; not enforced):" ::
    policyLines POLICY_TEXT_LIMIT (effectivePolicy c)

def envelopeLines (c : SharedChannel) (user : Line) (registered : Option Line) : List Text :=
  channelLine c :: sentByLine user registered :: policySection c

def envelopeOf (c : SharedChannel) (user : Line) (registered : Option Line) : Text :=
  joinWith [NL] (SHARED_CHANNEL_ENVELOPE_FIRST_LINE :: envelopeLines c user registered)

structure SharedChannelContext where
  envelope : Text
  tags : List Text

def channelContext (c : SharedChannel) (user : Line) (registered : Option Line) :
    SharedChannelContext where
  envelope := envelopeOf c user registered
  tags := [unitsOf "participant:" ++ c.id, unitsOf "shared-channel"] ++
    match registered with
    | some _ => []
    | none => [unitsOf "slack-sender:" ++ user.text]

def Sender.context (user : Line) : Sender → Option SharedChannelContext
  | person address channel => channel.map fun c => channelContext c user (some address)
  | outsider c => some (channelContext c user none)

def Sender.source : Sender → Text
  | person address _ => address.text
  | outsider c => addressOf c

def Sender.asChannel : Sender → Bool
  | person .. => false
  | outsider _ => true

/-! ### The row -/

structure StoredInboundFile where
  name : Text
  localPath : Text
  mimetype : Option Text := none
  bytes : ℕ

structure FailedInboundFile where
  name : Text
  error : Text

structure InboundFileResult where
  stored : List StoredInboundFile := []
  failed : List FailedInboundFile := []

/-- What the thread map answers. -/
inductive Route where
  | thread (conversationId : Line) (current : Bool)
  | unrouted
  | channelRouted
  /-- No thread map is wired. -/
  | static

def BASE_TAGS : List Text := [unitsOf "founder-slack", unitsOf "inbound"]

def Route.tags : Route → List Text
  | thread conversationId _ =>
    BASE_TAGS ++ [unitsOf "thread", unitsOf "reply-to:" ++ conversationId.text]
  | unrouted => BASE_TAGS ++ [unitsOf "unrouted-signal"]
  | channelRouted => BASE_TAGS ++ [unitsOf "channel-routed"]
  | static => BASE_TAGS

def Route.correlationQitemId : Route → Option Line
  | thread conversationId true => some conversationId
  | _ => none

/-- What is read of the ask that the message correlates to. -/
structure Ask where
  isDecision : Bool
  hasQuestions : Bool

structure Message where
  text : Text
  channel : Line
  user : Line
  ts : Line
  recoveredAfterGap : Bool := false
  recoveredThreadReply : Bool := false
  transfer : Option InboundFileResult := none
  sender : Sender
  route : Route := .static
  ask : Option Ask := none
  mintsRoot : Bool := false
  /-- It lands as the answer to the ask. -/
  humanAnswer : Bool := false

section Compose

variable (isoDate : Text → Text) (m : Message)

def recoveryNotice : List Text :=
  if m.recoveredAfterGap then
    [unitsOf "Recovered after a gap (late delivery). Originally posted " ++ isoDate m.ts.text ++
      unitsOf " (Slack ts " ++ m.ts.text ++ unitsOf ")." ++
      match m.recoveredThreadReply, m.route.correlationQitemId with
      | true, some id => unitsOf " It was not applied as an answer to " ++ id.text ++
          unitsOf "; read it and decide."
      | _, _ => []]
  else []

def storedLine (f : StoredInboundFile) : Text :=
  unitsOf "- " ++ f.localPath ++ unitsOf " (" ++ f.name ++
    (match f.mimetype with
      | some t => if t = [] then [] else unitsOf ", " ++ t
      | none => []) ++
    unitsOf ", " ++ decimal f.bytes ++ unitsOf " bytes)"

def failedLine (f : FailedInboundFile) : Text :=
  unitsOf "FILE TRANSFER FAILED: " ++ f.name ++ unitsOf " — " ++ f.error

def attachmentLines (t : InboundFileResult) : List Text :=
  (if t.stored = [] then []
    else unitsOf "Attachments (workspace-local copies):" :: t.stored.map storedLine) ++
    t.failed.map failedLine

/-- No block without files. -/
def attachments : Option Text :=
  match m.transfer with
  | some t => if attachmentLines t = [] then none else some (joinWith [NL] (attachmentLines t))
  | none => none

def envelope : Option Text := (m.sender.context m.user).map (·.envelope)

def sourceLine : Text :=
  unitsOf "Source: slack channel=" ++ m.channel.text ++ unitsOf " user=" ++ m.user.text ++
    unitsOf " ts=" ++ m.ts.text

def ROUTED_LINE : Text := unitsOf
  "Routed by openrig slack-inbound. Default destination per config; re-route via queue as needed."

def footerLines : List Text :=
  unitsOf "---" :: sourceLine m ::
    (m.route.correlationQitemId.toList.map fun id => unitsOf "In reply to: " ++ id.text) ++
    [ROUTED_LINE]

def footer : Text := NL :: breakLines NL (footerLines m)

def sections : List Text :=
  recoveryNotice isoDate m ++ [m.text] ++ (attachments m).toList ++ (envelope m).toList

def joinSections (ss : List Text) : Text := joinWith BLANK (ss.filter (· ≠ []))

structure Summary where
  summary : Text
  body : Text
  attachmentsChars : Option ℕ

def headline : Text :=
  if trim m.text ≠ [] then m.text
  else match m.transfer.bind fun t =>
      ((t.stored.head?.map (·.name)) <|> (t.failed.head?.map (·.name))) with
    | some name => if name = [] then m.text else unitsOf "[file] " ++ name
    | none => m.text

def summaryOf : Summary where
  summary := (if m.recoveredAfterGap then unitsOf "[Recovered after gap] " else []) ++
    m.sender.source ++ unitsOf " via Slack: " ++ (headline m).take 90
  body := joinSections (sections isoDate m) ++ footer m
  attachmentsChars := (attachments m).map List.length

def GUIDANCE : Text :=
  unitsOf "Read the person's words; closing the decision does not mean approval."

/-- The reply is to a decision that asks questions. -/
def guided : Bool :=
  !m.sender.asChannel && m.route.correlationQitemId.isSome &&
    m.ask.any fun a => a.isDecision && a.hasQuestions

def body : Text :=
  (summaryOf isoDate m).body ++ if guided m then NL :: GUIDANCE else []

def SLACK_ATTACHMENTS_TAG_PREFIX : Text := unitsOf "slack-attachments:"

def landedTags : List Text :=
  m.route.tags ++ (if m.mintsRoot then [unitsOf "slack-thread-root"] else []) ++
    ((m.sender.context m.user).map (·.tags)).getD [] ++
    ((summaryOf isoDate m).attachmentsChars.toList.filter (· ≠ 0)).map fun n =>
      SLACK_ATTACHMENTS_TAG_PREFIX ++ decimal n

/-! ### The row's tags -/

variable (sha256Hex : Text → Text)

def slackBodyTag (body : Text) : Text := unitsOf "slack-body:" ++ (sha256Hex body).take 16

def tagsWithBody (tags : List Text) (body : Text) : List Text :=
  if tags.contains (unitsOf "founder-slack") then tags ++ [slackBodyTag sha256Hex body] else tags

/-- An answer's row has one tag more. -/
def rowTags : List Text :=
  let tags := tagsWithBody sha256Hex (landedTags isoDate m) (body isoDate m)
  if m.humanAnswer then (tags ++ [unitsOf "human-answer"]).eraseDups else tags

end Compose

/-! ### Showing it again -/

def FOOTER_START : Text := BLANK ++ unitsOf "---" ++ [NL]

def ROUTED_START : Text := NL :: unitsOf "Routed by openrig slack-inbound"

/-- `/\nRouted by openrig slack-inbound[^\n]*$/.test(text)`. -/
def routedAtEnd (text : Text) : Bool :=
  text.tails.any fun s => ROUTED_START.isPrefixOf s && (s.drop ROUTED_START.length).all (· ≠ NL)

def cutFooter (text : Text) : Text :=
  match lastIndexOf FOOTER_START text with
  | some i => if routedAtEnd (text.drop i) then text.take i else text
  | none => text

def ENVELOPE_START : Text := BLANK ++ SHARED_CHANNEL_ENVELOPE_FIRST_LINE ++ [NL]

def cutEnvelope (tags : List Text) (text : Text) : Text :=
  if tags.contains (unitsOf "shared-channel") then
    match lastIndexOf ENVELOPE_START text with
    | some i => text.take i
    | none => if (SHARED_CHANNEL_ENVELOPE_FIRST_LINE ++ [NL]).isPrefixOf text then [] else text
  else text

def attachmentsChars (tags : List Text) : Option ℕ :=
  (tags.find? SLACK_ATTACHMENTS_TAG_PREFIX.isPrefixOf).map fun tag =>
    parseDecimal (tag.drop SLACK_ATTACHMENTS_TAG_PREFIX.length)

def SLACK_ATTACHMENTS_HEADINGS : List Text :=
  [unitsOf "Attachments (workspace-local copies):" ++ [NL], unitsOf "FILE TRANSFER FAILED: "]

/-- The recorded block, at a section boundary and with its own heading. -/
def cutAttachments (tags : List Text) (text : Text) : Text :=
  match attachmentsChars tags with
  | some chars =>
    if 0 < chars ∧ chars ≤ text.length then
      let start := text.length - chars
      if (start = 0 ∨ (text.take start).drop (start - 2) = BLANK) ∧
          SLACK_ATTACHMENTS_HEADINGS.any (·.isPrefixOf (text.drop start)) then
        text.take (start - 2)
      else text
    else text
  | none => text

def personFacingBody (sha256Hex : Text → Text) (body : Option Text) (tags : Option (List Text)) :
    Option Text :=
  match body, tags with
  | some b, some tags =>
    if tags.contains (unitsOf "inbound") ∧ tags.contains (unitsOf "founder-slack") ∧
        tags.contains (slackBodyTag sha256Hex b) then
      some (cutAttachments tags (cutEnvelope tags (cutFooter b)))
    else some b
  | body, _ => body

/-- The late-recovery notice, where there is one, and the person's words. -/
def words (isoDate : Text → Text) (m : Message) : Text :=
  joinSections (recoveryNotice isoDate m ++ [m.text])

def allFooterLines (m : Message) : List Text :=
  footerLines m ++ if guided m then [GUIDANCE] else []

/-- What still follows the envelope where it is looked for. -/
def leftFooter (m : Message) : Text :=
  if guided m then NL :: breakLines NL (allFooterLines m) else []

/-- The envelope's first line comes again after it, as a paragraph. -/
def Echoes (m : Message) : Prop :=
  ∃ e, envelope m = some e ∧ ENVELOPE_START <:+: e ++ leftFooter m

/-! ### Sections -/

lemma joinWith_snoc (sep : Text) (l : List Text) (x : Text) :
    joinWith sep (l ++ [x]) = if l = [] then x else joinWith sep l ++ sep ++ x := by
  induction l with
  | nil => rfl
  | cons a l ih =>
    cases l with
    | nil => rfl
    | cons b l =>
      rw [if_neg (List.cons_ne_nil b l), List.cons_append] at ih
      rw [if_neg (List.cons_ne_nil a _), List.cons_append, List.cons_append, joinWith, ih, joinWith]
      simp only [List.append_assoc]

lemma joinWith_cons_isPrefix (sep a : Text) (l : List Text) : a <+: joinWith sep (a :: l) := by
  cases l with
  | nil => exact List.prefix_rfl
  | cons b l => exact ⟨sep ++ joinWith sep (b :: l), by rw [joinWith, List.append_assoc]⟩

lemma joinWith_eq_nil {sep : Text} {l : List Text} (h : ∀ x ∈ l, x ≠ []) :
    joinWith sep l = [] ↔ l = [] := by
  refine ⟨fun hj => ?_, fun hl => by rw [hl]; rfl⟩
  cases l with
  | nil => rfl
  | cons a l =>
    have hpre := joinWith_cons_isPrefix sep a l
    rw [hj] at hpre
    exact absurd (List.prefix_nil.mp hpre) (h a List.mem_cons_self)

def attach (before : Text) : Option Text → Text
  | none => before
  | some x => if before = [] then x else before ++ BLANK ++ x

@[simp] lemma attach_none (before : Text) : attach before none = before := rfl

lemma attach_nil (x : Text) : attach [] (some x) = x := by
  simp [attach]

lemma attach_of_ne {before : Text} (h : before ≠ []) (x : Text) :
    attach before (some x) = before ++ BLANK ++ x := by
  simp [attach, h]

lemma joinSections_attach (ss : List Text) {o : Option Text} (h : ∀ x, o = some x → x ≠ []) :
    joinSections (ss ++ o.toList) = attach (joinSections ss) o := by
  cases o with
  | none => simp [attach]
  | some x =>
    have hx := h x rfl
    have hnil : joinSections ss = [] ↔ ss.filter (· ≠ []) = [] :=
      joinWith_eq_nil fun y hy => by simpa using (List.mem_filter.mp hy).2
    have hfilter : (ss ++ [x]).filter (· ≠ []) = ss.filter (· ≠ []) ++ [x] := by
      rw [List.filter_append]
      simp [hx]
    have hsnoc : joinSections (ss ++ [x]) = joinWith BLANK (ss.filter (· ≠ []) ++ [x]) := by
      rw [joinSections, hfilter]
    rw [Option.toList_some, hsnoc, joinWith_snoc, attach]
    by_cases hs : ss.filter (· ≠ []) = []
    · rw [if_pos hs, if_pos (hnil.mpr hs)]
    · rw [if_neg hs, if_neg fun h => hs (hnil.mp h)]
      rfl

variable {isoDate : Text → Text} {m : Message}

lemma attachments_heading {block : Text} (h : attachments m = some block) :
    ∃ heading ∈ SLACK_ATTACHMENTS_HEADINGS, heading <+: block := by
  unfold attachments at h
  cases ht : m.transfer with
  | none => simp [ht] at h
  | some t =>
    by_cases hl : attachmentLines t = []
    · simp [ht, hl] at h
    obtain rfl : joinWith [NL] (attachmentLines t) = block := by simpa [ht, hl] using h
    cases hs : t.stored with
    | cons f stored =>
      refine ⟨_, List.mem_cons_self, ?_⟩
      have hlines : ∃ l ls, attachmentLines t =
          unitsOf "Attachments (workspace-local copies):" :: l :: ls := by
        simp [attachmentLines, hs]
      obtain ⟨l, ls, hlines⟩ := hlines
      rw [hlines, joinWith]
      exact ⟨_, rfl⟩
    | nil =>
      cases hf : t.failed with
      | nil => simp [attachmentLines, hs, hf] at hl
      | cons f failed =>
        refine ⟨_, List.mem_cons_of_mem _ List.mem_cons_self, ?_⟩
        have hlines : attachmentLines t = failedLine f :: failed.map failedLine := by
          simp [attachmentLines, hs, hf]
        rw [hlines]
        refine .trans ?_ (joinWith_cons_isPrefix ..)
        simp only [failedLine, List.append_assoc]
        exact List.prefix_append ..

lemma attachments_ne_nil {block : Text} (h : attachments m = some block) : block ≠ [] := by
  rintro rfl
  obtain ⟨heading, hmem, hpre⟩ := attachments_heading h
  rw [List.prefix_nil.mp hpre] at hmem
  revert hmem
  decide

lemma envelope_first {e : Text} (h : envelope m = some e) :
    SHARED_CHANNEL_ENVELOPE_FIRST_LINE ++ [NL] <+: e := by
  have hof : ∀ c user registered,
      SHARED_CHANNEL_ENVELOPE_FIRST_LINE ++ [NL] <+: envelopeOf c user registered :=
    fun c user registered => ⟨_, rfl⟩
  unfold envelope at h
  cases hs : m.sender with
  | person address channel =>
    cases channel with
    | none => simp [hs, Sender.context] at h
    | some c =>
      obtain rfl : envelopeOf c m.user (some address) = e := by
        simpa [hs, Sender.context, channelContext] using h
      exact hof ..
  | outsider c =>
    obtain rfl : envelopeOf c m.user none = e := by
      simpa [hs, Sender.context, channelContext] using h
    exact hof ..

lemma envelope_ne_nil {e : Text} (h : envelope m = some e) : e ≠ [] := by
  rintro rfl
  have hpre := List.prefix_nil.mp (envelope_first h)
  simp at hpre

lemma body_eq : body isoDate m =
    attach (attach (words isoDate m) (attachments m)) (envelope m) ++
      NL :: breakLines NL (allFooterLines m) := by
  have hsections : joinSections (sections isoDate m) =
      attach (attach (words isoDate m) (attachments m)) (envelope m) := by
    rw [sections, joinSections_attach _ fun _ => envelope_ne_nil,
      joinSections_attach _ fun _ => attachments_ne_nil, words]
  have hlines : breakLines NL (allFooterLines m) = breakLines NL (footerLines m) ++
      if guided m then NL :: GUIDANCE else [] := by
    unfold allFooterLines breakLines
    rw [List.flatMap_append]
    split <;> simp
  rw [body, summaryOf, hsections, footer, hlines]
  simp only [List.append_assoc, List.cons_append]

/-! ### The footer -/

lemma footer_line {l : Text} (h : l ∈ allFooterLines m) : l ≠ [] ∧ NL ∉ l := by
  have closed : ∀ l ∈ [unitsOf "---", GUIDANCE, ROUTED_LINE], l ≠ [] ∧ NL ∉ l := by decide
  have headed : ∀ {a b : Text}, a ≠ [] → NL ∉ a → NL ∉ b → a ++ b ≠ [] ∧ NL ∉ a ++ b := by
    intro a b ha hna hnb
    refine ⟨fun h => ha (List.append_eq_nil_iff.mp h).1, fun h => ?_⟩
    exact (List.mem_append.mp h).elim hna hnb
  simp only [allFooterLines, footerLines, List.mem_append, List.mem_cons, List.not_mem_nil,
    or_false, List.mem_map, Option.mem_toList] at h
  rcases h with ((rfl | rfl | ⟨id, _, rfl⟩) | rfl) | hg
  · exact closed _ (by simp)
  · simp only [sourceLine, List.append_assoc]
    refine headed (by decide) (by decide) fun h => ?_
    simp only [List.mem_append] at h
    rcases h with h | h | h | h | h
    · exact m.channel.oneLine h
    · exact absurd h (by decide)
    · exact m.user.oneLine h
    · exact absurd h (by decide)
    · exact m.ts.oneLine h
  · exact headed (by decide) (by decide) id.oneLine
  · exact closed _ (by simp)
  · split at hg
    · obtain rfl : l = GUIDANCE := by simpa using hg
      exact closed _ (by simp)
    · simp at hg

lemma not_blank_footer : ¬ BLANK <:+: breakLines NL (allFooterLines m) :=
  not_blank_breakLines fun _ h => footer_line h

lemma footer_start : ∃ rest, NL :: breakLines NL (allFooterLines m) = FOOTER_START ++ rest := by
  obtain ⟨more, hmore⟩ : ∃ more, allFooterLines m = unitsOf "---" :: sourceLine m :: more :=
    ⟨_, rfl⟩
  refine ⟨sourceLine m ++ breakLines NL more, ?_⟩
  rw [hmore, breakLines, List.flatMap_cons, List.flatMap_cons, ← breakLines]
  simp [FOOTER_START, BLANK]

lemma lastIndexOf_footer (core : Text) :
    lastIndexOf FOOTER_START (core ++ NL :: breakLines NL (allFooterLines m)) =
      some core.length := by
  have hself : lastIndexOf FOOTER_START (NL :: breakLines NL (allFooterLines m)) = some 0 := by
    refine lastIndexOf_self (by decide) ?_ fun h => not_blank_footer (m := m) ?_
    · obtain ⟨rest, hrest⟩ := footer_start (m := m)
      exact ⟨rest, hrest.symm⟩
    · exact List.IsInfix.trans ⟨[], unitsOf "---" ++ [NL], by decide⟩ h
  exact lastIndexOf_append hself core

lemma routedAtEnd_append {a l : Text} (hl : NL ∉ l) :
    routedAtEnd (a ++ NL :: l) = (unitsOf "Routed by openrig slack-inbound").isPrefixOf l := by
  have hstart : ROUTED_START = NL :: unitsOf "Routed by openrig slack-inbound" := rfl
  rw [Bool.eq_iff_iff, List.isPrefixOf_iff_prefix, routedAtEnd, List.any_eq_true]
  constructor
  · rintro ⟨s, hs, hmatch⟩
    rw [List.mem_tails] at hs
    rw [Bool.and_eq_true, List.isPrefixOf_iff_prefix, List.all_eq_true] at hmatch
    obtain ⟨⟨rest, rfl⟩, hrest⟩ := hmatch
    have hnl : NL ∉ unitsOf "Routed by openrig slack-inbound" ++ rest := by
      rw [List.mem_append, not_or]
      refine ⟨by decide, fun h => ?_⟩
      have := hrest NL (by simpa using h)
      simp at this
    have hl' : NL :: l <:+ a ++ NL :: l := List.suffix_append ..
    rw [hstart, List.cons_append] at hs
    rcases List.suffix_or_suffix_of_suffix hs hl' with h | h
    · rcases List.suffix_cons_iff.mp h with h | h
      · exact ⟨rest, (List.cons.inj h).2⟩
      · exact absurd (h.subset List.mem_cons_self) hl
    · rcases List.suffix_cons_iff.mp h with h | h
      · exact ⟨rest, (List.cons.inj h).2.symm⟩
      · exact absurd (h.subset List.mem_cons_self) hnl
  · rintro ⟨rest, rfl⟩
    refine ⟨NL :: (unitsOf "Routed by openrig slack-inbound" ++ rest), ?_, ?_⟩
    · rw [List.mem_tails]
      exact List.suffix_append ..
    · rw [Bool.and_eq_true, List.isPrefixOf_iff_prefix, List.all_eq_true, hstart]
      refine ⟨⟨rest, rfl⟩, fun c hc => ?_⟩
      have hmem : c ∈ rest := by simpa using hc
      have hne : c ≠ NL := by
        rintro rfl
        exact hl (List.mem_append_right _ hmem)
      simpa using hne

/-- **The footer is found** exactly where no guidance line comes after it. -/
lemma cutFooter_body (core : Text) :
    cutFooter (core ++ NL :: breakLines NL (allFooterLines m)) =
      if guided m then core ++ NL :: breakLines NL (allFooterLines m) else core := by
  have hlast : ∃ before last, NL :: breakLines NL (allFooterLines m) = before ++ NL :: last ∧
      NL ∉ last ∧ (unitsOf "Routed by openrig slack-inbound").isPrefixOf last = !guided m := by
    cases hg : guided m with
    | true =>
      refine ⟨NL :: breakLines NL (footerLines m), GUIDANCE, ?_, by decide, by decide⟩
      simp [allFooterLines, hg, breakLines]
    | false =>
      obtain ⟨before, hbefore⟩ : ∃ before, footerLines m = before ++ [ROUTED_LINE] := ⟨_, rfl⟩
      refine ⟨NL :: breakLines NL before, ROUTED_LINE, ?_, by decide, by decide⟩
      simp [allFooterLines, hg, hbefore, breakLines]
  obtain ⟨before, last, heq, hnl, hrouted⟩ := hlast
  unfold cutFooter
  rw [lastIndexOf_footer]
  simp only [List.drop_left, List.take_left]
  rw [heq, routedAtEnd_append hnl, hrouted]
  cases guided m <;> simp

/-! ### The envelope -/

lemma firstLine_cons : ∃ c rest, c ≠ NL ∧ SHARED_CHANNEL_ENVELOPE_FIRST_LINE = c :: rest :=
  ⟨0x41, SHARED_CHANNEL_ENVELOPE_FIRST_LINE.tail, by decide, by decide +kernel⟩

lemma cutEnvelope_attach {tags : List Text} (htag : tags.contains (unitsOf "shared-channel") = true)
    {core e rest : Text} (he : SHARED_CHANNEL_ENVELOPE_FIRST_LINE ++ [NL] <+: e)
    (hno : ¬ ENVELOPE_START <:+: e ++ rest) :
    cutEnvelope tags (attach core (some e) ++ rest) = core := by
  have hpre : SHARED_CHANNEL_ENVELOPE_FIRST_LINE ++ [NL] <+: e ++ rest :=
    he.trans (List.prefix_append ..)
  by_cases hcore : core = []
  · subst hcore
    rw [attach_nil, cutEnvelope, if_pos htag, (lastIndexOf_eq_none (by decide)).mpr hno]
    simp only [List.isPrefixOf_iff_prefix.mpr hpre, if_true]
  · have hself : lastIndexOf ENVELOPE_START (BLANK ++ (e ++ rest)) = some 0 := by
      refine lastIndexOf_self (by decide) ?_ fun h => ?_
      · obtain ⟨more, hmore⟩ := hpre
        exact ⟨more, by rw [← hmore, ENVELOPE_START]; simp only [List.append_assoc]⟩
      · rcases List.infix_cons_iff.mp h with h | h
        · obtain ⟨c, first, hc, hfirst⟩ := firstLine_cons
          obtain ⟨more, hmore⟩ := hpre
          rw [← hmore, hfirst, ENVELOPE_START, BLANK] at h
          have h₂ := (List.cons_prefix_cons.mp h).2
          exact hc (List.cons_prefix_cons.mp h₂).1.symm
        · exact hno h
    rw [attach_of_ne hcore, cutEnvelope, if_pos htag]
    have hlast := lastIndexOf_append hself core
    simp only [List.append_assoc, Nat.add_zero] at hlast ⊢
    rw [hlast]
    exact List.take_left

lemma lt_cutEnvelope {tags : List Text} (htag : tags.contains (unitsOf "shared-channel") = true)
    (core : Text) {e rest : Text} (he : SHARED_CHANNEL_ENVELOPE_FIRST_LINE ++ [NL] <+: e)
    (hin : ENVELOPE_START <:+: e ++ rest) :
    core.length < (cutEnvelope tags (attach core (some e) ++ rest)).length ∧
      (core ≠ [] →
        core.length + 3 ≤ (cutEnvelope tags (attach core (some e) ++ rest)).length) := by
  obtain ⟨c, first, hc, hfirst⟩ := firstLine_cons
  obtain ⟨more, rfl⟩ := he
  rw [hfirst] at hin ⊢
  have hin' : ENVELOPE_START <:+: first ++ [NL] ++ more ++ rest := by
    rcases List.infix_cons_iff.mp hin with h | h
    · rw [ENVELOPE_START, BLANK] at h
      simp only [List.cons_append, List.cons_prefix_cons] at h
      exact absurd h.1.symm hc
    · exact h
  obtain ⟨i, hi⟩ := exists_lastIndexOf (by decide) hin'
  have hlt := lastIndexOf_lt hi
  have hcut : ∀ before : Text, lastIndexOf ENVELOPE_START
      (before ++ (first ++ [NL] ++ more ++ rest)) = some (before.length + i) :=
    lastIndexOf_append hi
  have hlen : ∀ before : Text, (cutEnvelope tags
      (before ++ (first ++ [NL] ++ more ++ rest))).length = before.length + i := by
    intro before
    unfold cutEnvelope
    rw [if_pos htag, hcut before, List.length_take, List.length_append]
    omega
  by_cases hcore : core = []
  · subst hcore
    have h := hlen [c]
    simp only [attach_nil, List.cons_append, List.nil_append, List.length_cons,
      List.length_nil] at h ⊢
    exact ⟨by omega, fun h => absurd rfl h⟩
  · have h := hlen (core ++ BLANK ++ [c])
    have hbefore : (core ++ BLANK ++ [c]).length = core.length + 3 := by
      simp [BLANK]
    rw [hbefore] at h
    rw [attach_of_ne hcore]
    simp only [List.append_assoc, List.cons_append, List.nil_append] at h ⊢
    exact ⟨by omega, fun _ => by omega⟩

/-! ### The attachments -/

lemma cutAttachments_attach {tags : List Text}
    (hchars : attachmentsChars tags = (attachments m).map List.length) (core : Text) :
    cutAttachments tags (attach core (attachments m)) = core := by
  cases hb : attachments m with
  | none => simp [cutAttachments, hchars, hb, attach]
  | some block =>
    rw [hb] at hchars
    obtain ⟨heading, hmem, hheading⟩ := attachments_heading hb
    have hpos : 0 < block.length := List.length_pos_iff.mpr (attachments_ne_nil hb)
    have hany : SLACK_ATTACHMENTS_HEADINGS.any (·.isPrefixOf block) = true :=
      List.any_eq_true.mpr ⟨heading, hmem, List.isPrefixOf_iff_prefix.mpr hheading⟩
    have hcut : ∀ before : Text,
        (before.length = 0 ∨ before.drop (before.length - 2) = BLANK) →
        cutAttachments tags (before ++ block) = before.take (before.length - 2) := by
      intro before hbefore
      have hstart : (before ++ block).length - block.length = before.length := by simp
      simp only [cutAttachments, hchars, Option.map_some]
      rw [if_pos ⟨hpos, by simp⟩, hstart, List.take_left, List.drop_left, if_pos ⟨hbefore, hany⟩,
        List.take_append_of_le_length (by omega)]
    by_cases hcore : core = []
    · subst hcore
      exact hcut [] (.inl rfl)
    · rw [attach_of_ne hcore, hcut (core ++ BLANK) (.inr (by simp [BLANK]))]
      simp [BLANK]

lemma length_cutAttachments (tags : List Text) (text : Text) :
    (attachmentsChars tags = none → cutAttachments tags text = text) ∧
      ∀ chars, attachmentsChars tags = some chars →
        text.length ≤ (cutAttachments tags text).length + chars + 2 := by
  unfold cutAttachments
  cases attachmentsChars tags with
  | none => simp
  | some chars =>
    dsimp only
    refine ⟨by simp, fun n hn => ?_⟩
    obtain rfl : chars = n := Option.some.inj hn
    split_ifs
    · rw [List.length_take]
      omega
    · omega
    · omega

/-! ### Tags -/

variable {sha256Hex : Text → Text}

/-- How the tags of a row begin, but for the three that are read back. -/
def otherTags : List Text :=
  ["founder-slack", "inbound", "thread", "reply-to:", "unrouted-signal", "channel-routed",
    "slack-thread-root", "participant:", "slack-sender:", "human-answer"].map unitsOf

/-- A tag that is not read back. -/
def IsOther (t : Text) : Prop := ∃ head ∈ otherTags, head <+: t

lemma isOther_closed {t : Text} (h : t ∈ otherTags) : IsOther t := ⟨t, h, List.prefix_rfl⟩

lemma isOther_append {head : Text} (h : head ∈ otherTags) (rest : Text) : IsOther (head ++ rest) :=
  ⟨head, h, List.prefix_append ..⟩

lemma IsOther.not_prefix {t : Text} (h : IsOther t) {p : Text}
    (hp : p ∈ [unitsOf "shared-channel", SLACK_ATTACHMENTS_TAG_PREFIX, unitsOf "slack-body:"]) :
    ¬ p <+: t := by
  obtain ⟨head, hmem, hpre⟩ := h
  have hclosed : ∀ head ∈ otherTags, ∀ p ∈ [unitsOf "shared-channel",
      SLACK_ATTACHMENTS_TAG_PREFIX, unitsOf "slack-body:"], ¬ p <+: head ∧ ¬ head <+: p := by
    decide
  intro hpt
  obtain ⟨h₁, h₂⟩ := hclosed head hmem p hp
  exact (List.prefix_or_prefix_of_prefix hpt hpre).elim h₁ h₂

lemma mem_routeTags {t : Text} (h : t ∈ m.route.tags) : IsOther t := by
  have base : t ∈ BASE_TAGS → IsOther t := fun h =>
    isOther_closed ((by decide : BASE_TAGS ⊆ otherTags) h)
  cases hr : m.route with
  | thread id current =>
    simp only [hr, Route.tags, List.mem_append, List.mem_cons, List.not_mem_nil, or_false] at h
    rcases h with h | rfl | rfl
    · exact base h
    · exact isOther_closed (by decide)
    · exact isOther_append (by decide) _
  | unrouted =>
    simp only [hr, Route.tags, List.mem_append, List.mem_singleton] at h
    rcases h with h | rfl
    · exact base h
    · exact isOther_closed (by decide)
  | channelRouted =>
    simp only [hr, Route.tags, List.mem_append, List.mem_singleton] at h
    rcases h with h | rfl
    · exact base h
    · exact isOther_closed (by decide)
  | static =>
    rw [hr] at h
    exact base h

lemma mem_contextTags {t : Text} (h : t ∈ ((m.sender.context m.user).map (·.tags)).getD []) :
    IsOther t ∨ (t = unitsOf "shared-channel" ∧ (envelope m).isSome) := by
  cases hc : m.sender.context m.user with
  | none => simp [hc] at h
  | some context =>
    have hsome : (envelope m).isSome := by simp [envelope, hc]
    obtain ⟨c, registered, rfl⟩ : ∃ c registered, channelContext c m.user registered = context := by
      cases hs : m.sender with
      | person address channel =>
        cases channel with
        | none => simp [hs, Sender.context] at hc
        | some c => exact ⟨c, some address, by simpa [hs, Sender.context] using hc⟩
      | outsider c => exact ⟨c, none, by simpa [hs, Sender.context] using hc⟩
    simp only [hc, Option.map_some, Option.getD_some, channelContext, List.mem_append,
      List.mem_cons, List.not_mem_nil, or_false] at h
    rcases h with (rfl | rfl) | h
    · exact .inl (isOther_append (by decide) _)
    · exact .inr ⟨rfl, hsome⟩
    · cases registered with
      | some address => simp at h
      | none =>
        obtain rfl : t = unitsOf "slack-sender:" ++ m.user.text := by simpa using h
        exact .inl (isOther_append (by decide) _)

lemma mem_landedTags {t : Text} (h : t ∈ landedTags isoDate m) :
    IsOther t ∨ (t = unitsOf "shared-channel" ∧ (envelope m).isSome) ∨
      ∃ block, attachments m = some block ∧
        t = SLACK_ATTACHMENTS_TAG_PREFIX ++ decimal block.length := by
  simp only [landedTags, List.mem_append] at h
  rcases h with ((h | h) | h) | h
  · exact .inl (mem_routeTags h)
  · split at h
    · obtain rfl : t = unitsOf "slack-thread-root" := by simpa using h
      exact .inl (isOther_closed (by decide))
    · simp at h
  · exact (mem_contextTags h).imp_right .inl
  · obtain ⟨n, hn, rfl⟩ := List.mem_map.mp h
    have hn' := (List.mem_filter.mp hn).1
    cases hb : attachments m with
    | none => simp [summaryOf, hb] at hn'
    | some block =>
      obtain rfl : n = block.length := by simpa [summaryOf, hb] using hn'
      exact .inr (.inr ⟨block, rfl, rfl⟩)

lemma landedTags_base : BASE_TAGS ⊆ landedTags isoDate m := by
  intro t ht
  have hroute : t ∈ m.route.tags := by
    cases m.route <;> simp [Route.tags, ht]
  simp [landedTags, hroute]

lemma mem_rowTags_iff {t : Text} : t ∈ rowTags isoDate m sha256Hex ↔
    t ∈ landedTags isoDate m ∨ t = slackBodyTag sha256Hex (body isoDate m) ∨
      (m.humanAnswer = true ∧ t = unitsOf "human-answer") := by
  have hfounder : (landedTags isoDate m).contains (unitsOf "founder-slack") = true :=
    List.contains_iff_mem.mpr (landedTags_base (by decide))
  unfold rowTags tagsWithBody
  rw [if_pos hfounder]
  cases m.humanAnswer <;> simp

lemma bodyTag_mem_rowTags {b : Text} : slackBodyTag sha256Hex b ∈ rowTags isoDate m sha256Hex ↔
    slackBodyTag sha256Hex b = slackBodyTag sha256Hex (body isoDate m) := by
  have hprefix : unitsOf "slack-body:" <+: slackBodyTag sha256Hex b := List.prefix_append ..
  rw [mem_rowTags_iff]
  refine ⟨?_, fun h => .inr (.inl h)⟩
  rintro (h | h | ⟨_, h⟩)
  · rcases mem_landedTags h with h | ⟨h, _⟩ | ⟨block, _, h⟩
    · exact absurd hprefix (h.not_prefix (by simp))
    · rw [h] at hprefix
      exact absurd hprefix (by decide)
    · rw [h] at hprefix
      have hcmp := List.prefix_or_prefix_of_prefix hprefix (List.prefix_append ..)
      exact absurd hcmp (by decide)
  · exact h
  · rw [h] at hprefix
    exact absurd hprefix (by decide)

lemma sharedChannel_mem_rowTags :
    unitsOf "shared-channel" ∈ rowTags isoDate m sha256Hex ↔ (envelope m).isSome := by
  rw [mem_rowTags_iff]
  constructor
  · rintro (h | h | ⟨_, h⟩)
    · rcases mem_landedTags h with h | ⟨_, h⟩ | ⟨block, _, h⟩
      · exact absurd List.prefix_rfl (h.not_prefix (by simp))
      · exact h
      · have hpre : SLACK_ATTACHMENTS_TAG_PREFIX <+: unitsOf "shared-channel" := ⟨_, h.symm⟩
        exact absurd hpre (by decide)
    · have hpre : unitsOf "slack-body:" <+: unitsOf "shared-channel" := ⟨_, h.symm⟩
      exact absurd hpre (by decide)
    · exact absurd h (by decide)
  · intro h
    left
    have htags : unitsOf "shared-channel" ∈ ((m.sender.context m.user).map (·.tags)).getD [] := by
      unfold envelope at h
      cases hs : m.sender with
      | person address channel =>
        cases channel with
        | none => simp [hs, Sender.context] at h
        | some c => simp [Sender.context, channelContext]
      | outsider c => simp [Sender.context, channelContext]
    simp [landedTags, htags]

lemma attachmentsTag_mem_rowTags {block : Text} (hb : attachments m = some block) :
    SLACK_ATTACHMENTS_TAG_PREFIX ++ decimal block.length ∈ rowTags isoDate m sha256Hex := by
  rw [mem_rowTags_iff]
  left
  have hne : block.length ≠ 0 := fun h => attachments_ne_nil hb (List.length_eq_zero_iff.mp h)
  simp [landedTags, summaryOf, hb, hne]

lemma attachmentsChars_rowTags :
    attachmentsChars (rowTags isoDate m sha256Hex) = (attachments m).map List.length := by
  have hfound : ∀ t ∈ rowTags isoDate m sha256Hex, SLACK_ATTACHMENTS_TAG_PREFIX <+: t →
      ∃ block, attachments m = some block ∧
        t = SLACK_ATTACHMENTS_TAG_PREFIX ++ decimal block.length := by
    intro t ht hpre
    rcases mem_rowTags_iff.mp ht with h | rfl | ⟨_, rfl⟩
    · rcases mem_landedTags h with h | ⟨rfl, _⟩ | h
      · exact absurd hpre (h.not_prefix (by simp))
      · exact absurd hpre (by decide)
      · exact h
    · have hcmp := List.prefix_or_prefix_of_prefix hpre (List.prefix_append ..)
      exact absurd hcmp (by decide)
    · exact absurd hpre (by decide)
  unfold attachmentsChars
  cases hfind : (rowTags isoDate m sha256Hex).find? SLACK_ATTACHMENTS_TAG_PREFIX.isPrefixOf with
  | some t =>
    obtain ⟨block, hb, rfl⟩ := hfound t (List.mem_of_find?_eq_some hfind)
      (List.isPrefixOf_iff_prefix.mp (List.find?_some hfind))
    rw [hb, Option.map_some, List.drop_left, parseDecimal_decimal, Option.map_some]
  | none =>
    cases hb : attachments m with
    | none => rfl
    | some block =>
      have hnone := List.find?_eq_none.mp hfind _ (attachmentsTag_mem_rowTags hb)
      exact absurd (List.isPrefixOf_iff_prefix.mpr (List.prefix_append ..)) hnone

/-! ### Showing the row again -/

/-- What `personFacingBody` shows of a body that carries its own digest. -/
def shown (tags : List Text) (b : Text) : Text :=
  cutAttachments tags (cutEnvelope tags (cutFooter b))

lemma personFacingBody_rowTags (b : Text) :
    personFacingBody sha256Hex (some b) (some (rowTags isoDate m sha256Hex)) =
      if slackBodyTag sha256Hex b = slackBodyTag sha256Hex (body isoDate m) then
        some (shown (rowTags isoDate m sha256Hex) b)
      else some b := by
  have hbase : ∀ t ∈ BASE_TAGS, (rowTags isoDate m sha256Hex).contains t = true := fun t ht =>
    List.contains_iff_mem.mpr (mem_rowTags_iff.mpr (.inl (landedTags_base ht)))
  unfold personFacingBody shown
  simp only [hbase _ (by decide : unitsOf "inbound" ∈ BASE_TAGS),
    hbase _ (by decide : unitsOf "founder-slack" ∈ BASE_TAGS), true_and, List.contains_iff_mem,
    bodyTag_mem_rowTags]

lemma cutEnvelope_unshared (he : envelope m = none) (text : Text) :
    cutEnvelope (rowTags isoDate m sha256Hex) text = text := by
  refine if_neg fun h => ?_
  have hsome := sharedChannel_mem_rowTags.mp (List.contains_iff_mem.mp h)
  simp [he] at hsome

lemma cutAttachments_ne {text : Text}
    (hlt : (attach (words isoDate m) (attachments m)).length < text.length)
    (hlong : attach (words isoDate m) (attachments m) ≠ [] →
      (attach (words isoDate m) (attachments m)).length + 3 ≤ text.length) :
    cutAttachments (rowTags isoDate m sha256Hex) text ≠ words isoDate m := by
  have hchars : attachmentsChars (rowTags isoDate m sha256Hex) =
      (attachments m).map List.length := attachmentsChars_rowTags
  obtain ⟨hnone, hsome⟩ := length_cutAttachments (rowTags isoDate m sha256Hex) text
  intro heq
  cases hb : attachments m with
  | none =>
    rw [hb] at hchars hlt
    rw [hnone hchars] at heq
    rw [heq] at hlt
    simp [attach] at hlt
  | some block =>
    rw [hb] at hchars hlt hlong
    have hle := hsome block.length hchars
    rw [heq] at hle
    by_cases hw : words isoDate m = []
    · rw [hw, attach_nil] at hlong
      rw [hw, List.length_nil] at hle
      have := hlong (attachments_ne_nil hb)
      omega
    · rw [attach_of_ne hw, List.length_append, List.length_append] at hlong
      have := hlong (by simp [hw])
      simp only [BLANK, List.length_cons, List.length_nil] at this
      omega

/-- **The words come back** exactly where the footer is found, or an envelope cuts it off, and the
envelope repeats nothing. -/
lemma shown_body : shown (rowTags isoDate m sha256Hex) (body isoDate m) = words isoDate m ↔
    (guided m = true → (envelope m).isSome) ∧ ¬ Echoes m := by
  have hfooter : cutFooter (body isoDate m) =
      attach (attach (words isoDate m) (attachments m)) (envelope m) ++ leftFooter m := by
    rw [body_eq, cutFooter_body, leftFooter]
    split <;> simp
  have hchars : attachmentsChars (rowTags isoDate m sha256Hex) =
      (attachments m).map List.length := attachmentsChars_rowTags
  have hwords := cutAttachments_attach hchars (words isoDate m)
  rw [shown, hfooter]
  cases he : envelope m with
  | none =>
    rw [cutEnvelope_unshared he]
    have hecho : ¬ Echoes m := by
      rintro ⟨e, hsome, _⟩
      simp [he] at hsome
    cases hg : guided m with
    | false => simpa [leftFooter, hg, hecho] using hwords
    | true =>
      simp only [Option.isSome_none, Bool.false_eq_true, forall_true_left, false_and, iff_false]
      have hlong : 3 ≤ (leftFooter m).length := by
        obtain ⟨rest, hrest⟩ := footer_start (m := m)
        rw [leftFooter, if_pos hg, hrest, List.length_append]
        have : FOOTER_START.length = 6 := by decide
        omega
      refine cutAttachments_ne ?_ fun _ => ?_ <;>
        · rw [attach, List.length_append]
          omega
  | some e =>
    have htag : (rowTags isoDate m sha256Hex).contains (unitsOf "shared-channel") = true :=
      List.contains_iff_mem.mpr (sharedChannel_mem_rowTags.mpr (by simp [he]))
    have hecho : Echoes m ↔ ENVELOPE_START <:+: e ++ leftFooter m := by simp [Echoes, he]
    rw [hecho]
    by_cases hin : ENVELOPE_START <:+: e ++ leftFooter m
    · obtain ⟨h₁, h₂⟩ := lt_cutEnvelope htag (attach (words isoDate m) (attachments m))
        (envelope_first he) hin
      exact iff_of_false (cutAttachments_ne h₁ h₂) fun h => h.2 hin
    · rw [cutEnvelope_attach htag (envelope_first he) hin]
      exact iff_of_true hwords ⟨fun _ => rfl, hin⟩

/-! ### A changed body -/

def HasFooter (b : Text) : Prop :=
  ∃ i, lastIndexOf FOOTER_START b = some i ∧ routedAtEnd (b.drop i) = true

def HasEnvelope (m : Message) (b : Text) : Prop :=
  (envelope m).isSome ∧ (ENVELOPE_START <:+: b ∨ SHARED_CHANNEL_ENVELOPE_FIRST_LINE ++ [NL] <+: b)

/-- The block's length from the end stands a section with one of its headings. -/
def HasBlock (m : Message) (b : Text) : Prop :=
  ∃ block, attachments m = some block ∧ block.length ≤ b.length ∧
    (b.length - block.length = 0 ∨
      (b.take (b.length - block.length)).drop (b.length - block.length - 2) = BLANK) ∧
    ∃ heading ∈ SLACK_ATTACHMENTS_HEADINGS, heading <+: b.drop (b.length - block.length)

lemma cutFooter_eq_iff {b : Text} : cutFooter b = b ↔ ¬ HasFooter b := by
  unfold cutFooter HasFooter
  cases hi : lastIndexOf FOOTER_START b with
  | none => simp
  | some i =>
    have hlt := lastIndexOf_lt hi
    by_cases hr : routedAtEnd (b.drop i) = true
    · have hne : b.take i ≠ b := fun h => by
        have := congrArg List.length h
        rw [List.length_take] at this
        omega
      simp [hr, hne]
    · simp [hr]

lemma cutFooter_prefix (b : Text) : cutFooter b <+: b := by
  unfold cutFooter
  cases lastIndexOf FOOTER_START b with
  | none => exact List.prefix_rfl
  | some i =>
    dsimp only
    split_ifs
    · exact List.take_prefix ..
    · exact List.prefix_rfl

lemma cutEnvelope_prefix (tags : List Text) (b : Text) : cutEnvelope tags b <+: b := by
  unfold cutEnvelope
  cases lastIndexOf ENVELOPE_START b with
  | none =>
    dsimp only
    split_ifs
    · exact List.nil_prefix
    · exact List.prefix_rfl
    · exact List.prefix_rfl
  | some i =>
    dsimp only
    split_ifs
    · exact List.take_prefix ..
    · exact List.prefix_rfl

lemma cutAttachments_isPrefix (tags : List Text) (b : Text) : cutAttachments tags b <+: b := by
  unfold cutAttachments
  cases attachmentsChars tags with
  | none => exact List.prefix_rfl
  | some chars =>
    dsimp only
    split_ifs
    · exact List.take_prefix ..
    · exact List.prefix_rfl
    · exact List.prefix_rfl

lemma cutEnvelope_eq_iff (isoDate sha256Hex : Text → Text) {b : Text} :
    cutEnvelope (rowTags isoDate m sha256Hex) b = b ↔ ¬ HasEnvelope m b := by
  have htag : (rowTags isoDate m sha256Hex).contains (unitsOf "shared-channel") = true ↔
      (envelope m).isSome := List.contains_iff_mem.trans sharedChannel_mem_rowTags
  unfold cutEnvelope HasEnvelope
  by_cases hs : (envelope m).isSome
  · rw [if_pos (htag.mpr hs)]
    cases hi : lastIndexOf ENVELOPE_START b with
    | some i =>
      have hlt := lastIndexOf_lt hi
      have hin : ENVELOPE_START <:+: b := by
        by_contra hno
        rw [(lastIndexOf_eq_none (by decide)).mpr hno] at hi
        simp at hi
      have hne : b.take i ≠ b := fun h => by
        have := congrArg List.length h
        rw [List.length_take] at this
        omega
      exact iff_of_false hne fun h => h ⟨hs, .inl hin⟩
    | none =>
      have hno := (lastIndexOf_eq_none (by decide)).mp hi
      dsimp only
      by_cases hp : SHARED_CHANNEL_ENVELOPE_FIRST_LINE ++ [NL] <+: b
      · rw [if_pos (List.isPrefixOf_iff_prefix.mpr hp)]
        refine iff_of_false ?_ fun h => h ⟨hs, .inr hp⟩
        rintro rfl
        have := List.prefix_nil.mp hp
        simp at this
      · rw [if_neg fun h => hp (List.isPrefixOf_iff_prefix.mp h)]
        exact iff_of_true rfl fun h => h.2.elim hno hp
  · rw [if_neg fun h => hs (htag.mp h)]
    exact iff_of_true rfl fun h => hs h.1

lemma cutAttachments_eq_iff (isoDate sha256Hex : Text → Text) {b : Text} :
    cutAttachments (rowTags isoDate m sha256Hex) b = b ↔ ¬ HasBlock m b := by
  unfold cutAttachments HasBlock
  rw [attachmentsChars_rowTags]
  cases hb : attachments m with
  | none => simp
  | some block =>
    have hpos : 0 < block.length := List.length_pos_iff.mpr (attachments_ne_nil hb)
    have hany : ∀ x : Text, SLACK_ATTACHMENTS_HEADINGS.any (·.isPrefixOf x) = true ↔
        ∃ heading ∈ SLACK_ATTACHMENTS_HEADINGS, heading <+: x := fun x => by
      simp only [List.any_eq_true, List.isPrefixOf_iff_prefix]
    simp only [Option.map_some, Option.some.injEq, exists_eq_left', hpos, true_and, hany]
    by_cases hlen : block.length ≤ b.length
    · rw [if_pos hlen]
      split_ifs with h
      · refine iff_of_false (fun heq => ?_) fun hn => hn ⟨hlen, h⟩
        have := congrArg List.length heq
        rw [List.length_take] at this
        omega
      · exact iff_of_true rfl fun hn => h hn.2
    · rw [if_neg hlen]
      exact iff_of_true rfl fun hn => hlen hn.1

lemma shown_eq_iff {b : Text} : shown (rowTags isoDate m sha256Hex) b = b ↔
    ¬ HasFooter b ∧ ¬ HasEnvelope m b ∧ ¬ HasBlock m b := by
  rw [← cutFooter_eq_iff, ← cutEnvelope_eq_iff isoDate sha256Hex,
    ← cutAttachments_eq_iff isoDate sha256Hex, shown]
  constructor
  · intro h
    have hfooter := cutFooter_prefix b
    have henvelope := cutEnvelope_prefix (rowTags isoDate m sha256Hex) (cutFooter b)
    have hblock := (cutAttachments_isPrefix (rowTags isoDate m sha256Hex)
      (cutEnvelope (rowTags isoDate m sha256Hex) (cutFooter b))).length_le
    rw [h] at hblock
    have hb := hfooter.eq_of_length_le (hblock.trans henvelope.length_le)
    rw [hb] at henvelope hblock h
    have he := henvelope.eq_of_length_le hblock
    rw [he] at h
    exact ⟨hb, he, h⟩
  · rintro ⟨h₁, h₂, h₃⟩
    rw [h₁, h₂, h₃]

/-- **A person's message is shown as they wrote it**, with its late-recovery notice, while the row
has the body it was made with, exactly where no guidance line follows the footer or an envelope
comes before it, and the envelope does not repeat its first line. Any body is shown whole exactly
where its digest is not the recorded one, or it ends as no body of the row. -/
theorem persons_words (isoDate sha256Hex : Text → Text) (m : Message) :
    (personFacingBody sha256Hex (some (body isoDate m)) (some (rowTags isoDate m sha256Hex)) =
        some (words isoDate m) ↔
      (guided m = true → (envelope m).isSome) ∧ ¬ Echoes m) ∧
    ∀ b, personFacingBody sha256Hex (some b) (some (rowTags isoDate m sha256Hex)) = some b ↔
      slackBodyTag sha256Hex b ≠ slackBodyTag sha256Hex (body isoDate m) ∨
        (¬ HasFooter b ∧ ¬ HasEnvelope m b ∧ ¬ HasBlock m b) := by
  refine ⟨?_, fun b => ?_⟩
  · rw [personFacingBody_rowTags, if_pos rfl, Option.some.injEq]
    exact shown_body
  · rw [personFacingBody_rowTags]
    split_ifs with h
    · rw [Option.some.injEq, shown_eq_iff]
      simp [h]
    · simp [h]

/-! ### Names on one line -/

def Sender.channel : Sender → Option SharedChannel
  | person _ channel => channel
  | outsider c => some c

def namesOf (c : SharedChannel) : List Text :=
  [c.id, c.displayName] ++ c.organization.toList.flatMap (fun o => [o.id, o.name]) ++
    c.groups.flatMap fun g => [g.id, g.name]

def Solid (lines : List Text) : Prop := ∀ l ∈ lines, l ≠ [] ∧ NL ∉ l

lemma Solid.cons {l : Text} {ls : List Text} (hne : l ≠ []) (hl : NL ∉ l) (h : Solid ls) :
    Solid (l :: ls) := List.forall_mem_cons.mpr ⟨⟨hne, hl⟩, h⟩

lemma indent_lines (text : Text) :
    ∃ l ls, indent text = l ++ breakLines NL ls ∧ NL ∉ l ∧ Solid ls := by
  induction text with
  | nil => exact ⟨[], [], rfl, by simp, by simp [Solid]⟩
  | cons c text ih =>
    obtain ⟨l, ls, heq, hl, hls⟩ := ih
    have hcons : indent (c :: text) =
        (if c = NL then NL :: unitsOf "  " else [c]) ++ indent text := List.flatMap_cons
    rw [hcons, heq]
    by_cases hc : c = NL
    · refine ⟨[], (unitsOf "  " ++ l) :: ls, by simp [hc, breakLines], by simp, ?_⟩
      have hspace : NL ∉ unitsOf "  " ++ l := by
        rw [List.mem_append, not_or]
        exact ⟨by decide, hl⟩
      exact hls.cons (by simp [unitsOf]) hspace
    · exact ⟨c :: l, ls, by simp [hc], by simp [hl, Ne.symm hc], hls⟩

lemma not_mem_joinWith {sep : Text} {l : List Text} (hsep : NL ∉ sep) (h : ∀ x ∈ l, NL ∉ x) :
    NL ∉ joinWith sep l := by
  induction l with
  | nil => simp [joinWith]
  | cons a l ih =>
    cases l with
    | nil => exact h a List.mem_cons_self
    | cons b l =>
      rw [joinWith, List.mem_append, List.mem_append, not_or, not_or]
      exact ⟨⟨h a List.mem_cons_self, hsep⟩, ih fun x hx => h x (List.mem_cons_of_mem _ hx)⟩

lemma joinWith_break (a : Text) (l : List Text) :
    joinWith [NL] (a :: l) = a ++ breakLines NL l := by
  induction l generalizing a with
  | nil => simp [joinWith, breakLines]
  | cons b l ih =>
    rw [joinWith, ih, List.append_assoc]
    rfl

lemma breakLines_lines {texts : List Text}
    (h : ∀ x ∈ texts, ∃ l ls, x = l ++ breakLines NL ls ∧ Solid (l :: ls)) :
    ∃ lines, breakLines NL texts = breakLines NL lines ∧ Solid lines := by
  induction texts with
  | nil => exact ⟨[], rfl, by simp [Solid]⟩
  | cons x texts ih =>
    obtain ⟨l, ls, rfl, hl⟩ := h x List.mem_cons_self
    obtain ⟨lines, heq, hlines⟩ := ih fun y hy => h y (List.mem_cons_of_mem _ hy)
    refine ⟨l :: ls ++ lines, ?_, fun y hy => (List.mem_append.mp hy).elim (hl y) (hlines y)⟩
    have hcons : breakLines NL ((l ++ breakLines NL ls) :: texts) =
        NL :: (l ++ breakLines NL ls) ++ breakLines NL texts := List.flatMap_cons
    rw [hcons, heq]
    simp [breakLines]

lemma policyLines_lines {budget : ℕ} {parts : List PolicyPart}
    (h : ∀ p ∈ parts, NL ∉ p.source) {x : Text} (hx : x ∈ policyLines budget parts) :
    ∃ l ls, x = l ++ breakLines NL ls ∧ Solid (l :: ls) := by
  induction parts generalizing budget with
  | nil => simp [policyLines] at hx
  | cons part parts ih =>
    unfold policyLines at hx
    split_ifs at hx
    · simp at hx
    rcases List.mem_cons.mp hx with rfl | hx
    · obtain ⟨l, ls, heq, hl, hls⟩ := indent_lines (if budget < (trim part.text).length then
        (trim part.text).take budget ++
          unitsOf "… (cut; the full text: rig gateway participants --json)" else trim part.text)
      refine ⟨unitsOf "- " ++ part.source ++ unitsOf ": " ++ l, ls, ?_, hls.cons ?_ ?_⟩
      · rw [heq]
        simp only [List.append_assoc]
      · simp [unitsOf]
      · simp only [List.mem_append, not_or]
        exact ⟨⟨⟨by decide, h part List.mem_cons_self⟩, by decide⟩, hl⟩
    · exact ih (fun p hp => h p (List.mem_cons_of_mem _ hp)) hx

/-- Names on one line leave no empty line in an envelope, whatever the policies say. -/
lemma envelopeOf_lines {c : SharedChannel} (hnames : ∀ n ∈ namesOf c, NL ∉ n) (user : Line)
    (registered : Option Line) : ∃ lines, envelopeOf c user registered =
      SHARED_CHANNEL_ENVELOPE_FIRST_LINE ++ breakLines NL lines ∧ Solid lines := by
  have hid : NL ∉ c.id := hnames _ (by simp [namesOf])
  have hdisplay : NL ∉ c.displayName := hnames _ (by simp [namesOf])
  have horg : ∀ o, c.organization = some o → NL ∉ o.id ∧ NL ∉ o.name := fun o ho =>
    ⟨hnames _ (by simp [namesOf, ho]), hnames _ (by simp [namesOf, ho])⟩
  have hgroup : ∀ g ∈ c.groups, NL ∉ g.id ∧ NL ∉ g.name := fun g hg =>
    ⟨hnames _ (by simp only [namesOf, List.mem_append, List.mem_flatMap]
                  exact .inr ⟨g, hg, by simp⟩),
      hnames _ (by simp only [namesOf, List.mem_append, List.mem_flatMap]
                   exact .inr ⟨g, hg, by simp⟩)⟩
  have line : ∀ {l : Text}, l ≠ [] → NL ∉ l →
      ∃ l' ls, l = l' ++ breakLines NL ls ∧ Solid (l' :: ls) := fun hne hl =>
    ⟨_, [], by simp [breakLines], Solid.cons hne hl (by simp [Solid])⟩
  have hplacement : ∀ x ∈ placementOf c, NL ∉ x := by
    intro x hx
    simp only [placementOf, List.mem_append, List.mem_map, Option.mem_toList] at hx
    rcases hx with ⟨o, ho, rfl⟩ | hx
    · rw [List.mem_append, not_or]
      exact ⟨by decide, (horg o ho).2⟩
    · split at hx
      · simp at hx
      · obtain rfl := List.mem_singleton.mp hx
        rw [List.mem_append, not_or]
        refine ⟨by decide, not_mem_joinWith (by decide) fun y hy => ?_⟩
        obtain ⟨g, hg, rfl⟩ := List.mem_map.mp hy
        exact (hgroup g hg).2
  have hchannel : NL ∉ channelLine c := by
    simp only [channelLine, addressOf, List.mem_append, not_or]
    refine ⟨⟨⟨⟨⟨by decide, hdisplay⟩, by decide⟩, hid, by decide⟩, by decide⟩, ?_⟩
    split
    · simp
    · rw [List.mem_append, not_or]
      exact ⟨by decide, not_mem_joinWith (by decide) hplacement⟩
  have hsent : NL ∉ sentByLine user registered := by
    cases registered with
    | some address =>
      simp only [sentByLine, List.mem_append, not_or]
      exact ⟨⟨by decide, address.oneLine⟩, by decide⟩
    | none =>
      simp only [sentByLine, List.mem_append, not_or]
      exact ⟨⟨by decide, user.oneLine⟩, by decide⟩
  have hsource : ∀ p ∈ effectivePolicy c, NL ∉ p.source := by
    have part : ∀ {source : Text} {policy : Option Text} {p : PolicyPart},
        p ∈ policyPart source policy → p.source = source := by
      intro source policy p hp
      unfold policyPart at hp
      split at hp
      · split at hp
        · simp at hp
        · rw [List.mem_singleton.mp hp]
      · simp at hp
    intro p hp
    simp only [effectivePolicy, List.mem_append, List.mem_flatMap, Option.mem_toList] at hp
    rcases hp with (⟨o, ho, hp⟩ | ⟨g, hg, hp⟩) | hp
    · rw [part hp]
      simp only [sourceOf, List.mem_append, not_or]
      exact ⟨⟨⟨⟨by decide, (horg o ho).1⟩, by decide⟩, (horg o ho).2⟩, by decide⟩
    · rw [part hp]
      simp only [sourceOf, List.mem_append, not_or]
      exact ⟨⟨⟨⟨by decide, (hgroup g hg).1⟩, by decide⟩, (hgroup g hg).2⟩, by decide⟩
    · rw [part hp]
      decide
  have hlines : ∀ x ∈ envelopeLines c user registered,
      ∃ l ls, x = l ++ breakLines NL ls ∧ Solid (l :: ls) := by
    intro x hx
    simp only [envelopeLines, List.mem_cons] at hx
    rcases hx with rfl | rfl | hx
    · exact line (by simp [channelLine, unitsOf]) hchannel
    · exact line (by cases registered <;> simp [sentByLine, unitsOf]) hsent
    · unfold policySection at hx
      split at hx
      · simp at hx
      rcases List.mem_cons.mp hx with rfl | hx
      · exact line (by simp [unitsOf]) (by decide)
      · exact policyLines_lines hsource hx
  obtain ⟨lines, heq, hsolid⟩ := breakLines_lines hlines
  exact ⟨lines, by rw [envelopeOf, joinWith_break, heq], hsolid⟩

/-- No policy text makes an envelope repeat its first line. -/
theorem not_echoes {m : Message}
    (hnames : ∀ c, m.sender.channel = some c → ∀ n ∈ namesOf c, NL ∉ n) : ¬ Echoes m := by
  rintro ⟨e, he, hin⟩
  obtain ⟨c, registered, hc, rfl⟩ : ∃ c registered, m.sender.channel = some c ∧
      envelopeOf c m.user registered = e := by
    unfold envelope at he
    cases hs : m.sender with
    | person address channel =>
      cases channel with
      | none => simp [hs, Sender.context] at he
      | some c => exact ⟨c, some address, rfl, by
          simpa [hs, Sender.context, channelContext] using he⟩
    | outsider c => exact ⟨c, none, rfl, by
        simpa [hs, Sender.context, channelContext] using he⟩
  obtain ⟨lines, heq, hlines⟩ := envelopeOf_lines (hnames c hc) m.user registered
  obtain ⟨a, first, ha, hfirst⟩ := firstLine_cons
  have hblank : BLANK <:+: ENVELOPE_START := by
    rw [ENVELOPE_START, List.append_assoc]
    exact (List.prefix_append ..).isInfix
  have henvelope : ¬ BLANK <:+: envelopeOf c m.user registered := by
    intro h
    have hfirstLine : Solid (SHARED_CHANNEL_ENVELOPE_FIRST_LINE :: lines) :=
      hlines.cons (by rw [hfirst]; simp) (by decide +kernel)
    refine not_blank_breakLines hfirstLine (h.trans ⟨[NL], [], ?_⟩)
    rw [heq]
    simp [breakLines]
  have hfooter : ¬ ENVELOPE_START <:+: leftFooter m := by
    unfold leftFooter
    split
    · intro h
      rcases List.infix_cons_iff.mp h with h | h
      · obtain ⟨rest, hrest⟩ := footer_start (m := m)
        rw [hrest, ENVELOPE_START, hfirst, FOOTER_START, BLANK] at h
        have h₂ := (List.cons_prefix_cons.mp (List.cons_prefix_cons.mp h).2).2
        have h₃ : a = 0x2D := (List.cons_prefix_cons.mp h₂).1
        have hhead : SHARED_CHANNEL_ENVELOPE_FIRST_LINE.head? = some a := by rw [hfirst]; rfl
        rw [h₃] at hhead
        exact absurd hhead (by decide +kernel)
      · exact not_blank_footer (hblank.trans h)
    · intro h
      have := List.infix_nil.mp h
      revert this
      decide
  rcases infix_append_cases hin with h | h | ⟨x, y, hx, hy, hxy, hxs, hyp⟩
  · exact henvelope (hblank.trans h)
  · exact hfooter h
  · obtain ⟨b, x, rfl⟩ := List.exists_cons_of_ne_nil hx
    simp only [ENVELOPE_START, BLANK, List.cons_append, List.nil_append, List.cons.injEq] at hxy
    obtain ⟨rfl, hxy⟩ := hxy
    cases x with
    | nil =>
      -- the paragraph would start with the break that starts the footer
      rw [List.nil_append] at hxy
      rw [← hxy, hfirst] at hyp
      unfold leftFooter at hyp
      split at hyp
      · obtain ⟨rest, hrest⟩ := footer_start (m := m)
        rw [hrest, FOOTER_START, BLANK] at hyp
        have h₂ := (List.cons_prefix_cons.mp hyp).2
        exact ha (List.cons_prefix_cons.mp h₂).1
      · have := List.prefix_nil.mp hyp
        simp at this
    | cons b x =>
      obtain ⟨rfl, -⟩ := List.cons.inj hxy
      have hx₂ : BLANK <:+: NL :: NL :: x := ⟨[], x, rfl⟩
      exact henvelope (hx₂.trans hxs.isInfix)

/-! ### A typed reply to a decision with questions -/

def line (s : String) (h : NL ∉ unitsOf s := by decide) : Line := ⟨unitsOf s, h⟩

def reply : Message where
  text := unitsOf "ship it"
  channel := line "C1"
  user := line "U1"
  ts := line "1.5"
  sender := .person (line "ada@external") none
  route := .thread (line "q7") true
  ask := some ⟨true, true⟩
  humanAnswer := true

/-- Its guidance line keeps the footer in what the person sees. -/
theorem guidance_shown :
    personFacingBody (fun b => b) (some (body (fun ts => ts) reply))
      (some (rowTags (fun ts => ts) reply fun b => b)) ≠ some (words (fun ts => ts) reply) := by
  rw [personFacingBody_rowTags, if_pos rfl, ne_eq, Option.some.injEq, shown_body]
  exact fun h => absurd (h.1 (by decide)) (by decide)

end OpenRig.PersonWords
