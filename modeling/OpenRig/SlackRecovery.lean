import OpenRig.Runs
import Mathlib.Algebra.Group.Nat.Defs
import Mathlib.Data.List.Sort
import Mathlib.Data.Set.Basic
import Mathlib.Logic.Function.Basic

/-!
Missed-message recovery: scans of a channel's history, newest page first, and of a tracked thread's
replies, oldest page first, each with a checkpoint of what it has covered.

Timestamps are microseconds. A page awaits Slack once and the router once for each message; live
landings, a stop, a restart and the clock come in at any of these awaits.
-/

namespace OpenRig.SlackRecovery

open OpenRig.Runs

/-! ### Timestamps -/

/-- Slack timestamps are decimal seconds with up to six fractional digits. -/
def slackMicros (value : String) : Option ℕ :=
  let seconds := value.toList.takeWhile Char.isDigit
  match value.toList.dropWhile Char.isDigit with
  | '.' :: fraction =>
    if 1 ≤ seconds.length ∧ seconds.length ≤ 12 ∧ 1 ≤ fraction.length ∧ fraction.length ≤ 6 ∧
        fraction.all Char.isDigit then
      some (Nat.ofDigitChars 10 seconds 0 * 1000000 +
        Nat.ofDigitChars 10 (fraction ++ List.replicate (6 - fraction.length) '0') 0)
    else none
  | _ => none

/-- `padStart` with zeros. -/
def padStart (n : ℕ) (digits : List Char) : List Char :=
  List.replicate (n - digits.length) '0' ++ digits

def slackTimestamp (micros : ℕ) : String :=
  String.ofList (Nat.toDigits 10 (micros / 1000000) ++
    '.' :: padStart 6 (Nat.toDigits 10 (micros % 1000000)))

lemma isDigit_toDigits {n : ℕ} {c : Char} (h : c ∈ Nat.toDigits 10 n) : c.isDigit = true :=
  Nat.isDigit_of_mem_toDigits (by decide) (by decide) h

lemma length_padStart {n : ℕ} {digits : List Char} (h : digits.length ≤ n) :
    (padStart n digits).length = n := by
  simp only [padStart, List.length_append, List.length_replicate]
  omega

/-- **What is written reads back**, up to twelve digits of seconds. -/
theorem slackMicros_slackTimestamp {micros : ℕ} (h : micros < 10 ^ 18) :
    slackMicros (slackTimestamp micros) = some micros := by
  have hsec : micros / 1000000 < 10 ^ 12 := by omega
  have hfrac : micros % 1000000 < 10 ^ 6 := by omega
  have hs : (Nat.toDigits 10 (micros / 1000000)).length ≤ 12 :=
    (Nat.length_toDigits_le_iff (by omega) (by omega)).mpr hsec
  have hf : (Nat.toDigits 10 (micros % 1000000)).length ≤ 6 :=
    (Nat.length_toDigits_le_iff (by omega) (by omega)).mpr hfrac
  have hlen := length_padStart hf
  have hdigits : (padStart 6 (Nat.toDigits 10 (micros % 1000000))).all Char.isDigit = true := by
    simp only [padStart, List.all_append, List.all_replicate, Bool.and_eq_true, List.all_eq_true]
    exact ⟨by simp, fun c hc => isDigit_toDigits hc⟩
  have htake : (Nat.toDigits 10 (micros / 1000000) ++
      '.' :: padStart 6 (Nat.toDigits 10 (micros % 1000000))).takeWhile Char.isDigit =
        Nat.toDigits 10 (micros / 1000000) := by
    rw [List.takeWhile_append_of_pos fun c hc => isDigit_toDigits hc]
    simp
  have hdrop : (Nat.toDigits 10 (micros / 1000000) ++
      '.' :: padStart 6 (Nat.toDigits 10 (micros % 1000000))).dropWhile Char.isDigit =
        '.' :: padStart 6 (Nat.toDigits 10 (micros % 1000000)) := by
    rw [List.dropWhile_append_of_pos fun c hc => isDigit_toDigits hc]
    simp
  simp only [slackMicros, slackTimestamp, String.toList_ofList, htake, hdrop, hlen, hdigits]
  rw [if_pos ⟨Nat.length_toDigits_pos, hs, by omega, by omega, trivial⟩]
  simp only [padStart, Nat.sub_self, List.replicate_zero, List.append_nil, Nat.ofDigitChars_append,
    Nat.ofDigitChars_replicate_zero, Nat.ofDigitChars_ten_toDigits, Nat.mul_zero]
  rw [Nat.div_add_mod']

/-! ### Messages -/

/-- A message as a page holds it. An absent or unreadable field is `none`. -/
structure Post where
  ts : ℕ
  type : Option String := some "message"
  subtype : Option String := none
  user : Option String := none
  botId : Option String := none
  text : Option String := none
  threadTs : Option ℕ := none
  hasFiles : Bool := false
  /-- A reaction's target is a message, and it names an emoji. -/
  reactionTarget : Bool := false
  deriving DecidableEq

/-- What JavaScript takes for a text that is there. -/
def truthy (text : Option String) : Bool := text.any fun t => t ≠ ""

/-- The text is absent, or white space only. -/
def blank (text : Option String) : Bool :=
  text.all fun t => t.toList.all fun c =>
    c.isWhitespace || c.val ∈ [0xb, 0xc, 0xa0, 0x1680, 0x2028, 0x2029, 0x202f, 0x205f, 0x3000,
      0xfeff] || (0x2000 ≤ c.val && c.val ≤ 0x200a)

/-- `ADMITTED_EVENT_TYPES`. -/
def admittedEventTypes : List String := ["message", "app_mention", "reaction_added"]

/-- A reply in a thread: its thread is another message's. -/
def isReply (p : Post) : Bool := p.threadTs.any fun t => t ≠ p.ts

def isBroadcast (p : Post) : Bool := p.subtype = some "thread_broadcast"

def ingestDecision (p : Post) : Bool :=
  if !p.type.any fun t => t ∈ admittedEventTypes then false
  else if truthy p.botId then false
  else if p.type = some "reaction_added" then truthy p.user && p.reactionTarget
  else if truthy p.subtype && !(p.subtype = some "file_share" && p.hasFiles) &&
      !(isBroadcast p && isReply p) then false
  else if !truthy p.user then false
  else !(blank p.text && !p.hasFiles)

/-- What a channel's page passes over: replies that are no broadcast, and what is not ingested. -/
def skippedInChannel (p : Post) : Bool := (isReply p && !isBroadcast p) || !ingestDecision p

/-- What a thread's page passes over: broadcasts, which the channel recovers, and what is not
ingested. -/
def skippedInThread (p : Post) : Bool := isBroadcast p || !ingestDecision p

/-! ### Checkpoints -/

inductive SeedBasis where
  | newestDurableLanding | featureAdoption
  deriving DecidableEq

/-- The interval of a scan under way: `[nextLatest, upper)` is done. -/
structure Pending where
  upper : ℕ
  nextLatest : ℕ
  deriving DecidableEq

structure ChannelCoverage where
  coverageStart : ℕ
  coveredThrough : ℕ
  seedBasis : SeedBasis
  pending : Option Pending := none
  nextRetryAt : Option ℕ := none
  historyLimited : Bool := false
  relayAdoptedAt : Option ℕ := none
  rateLimited : Option Bool := none
  deriving DecidableEq

structure ThreadCoverage where
  coverageStart : ℕ
  coveredThrough : ℕ
  /-- The upper bound of a scan under way. -/
  pending : Option ℕ := none
  nextRetryAt : Option ℕ := none
  rateLimited : Option Bool := none
  deriving DecidableEq

/-- A channel's checkpoint as its file holds it. -/
structure ChannelRecord where
  coverageStart : String
  coveredThrough : String
  seedBasis : SeedBasis
  pending : Option (String × String)
  nextRetryAt : Option ℕ
  historyLimited : Bool
  relayAdoptedAt : Option String
  rateLimited : Option Bool

def ChannelCoverage.write (c : ChannelCoverage) : ChannelRecord where
  coverageStart := slackTimestamp c.coverageStart
  coveredThrough := slackTimestamp c.coveredThrough
  seedBasis := c.seedBasis
  pending := c.pending.map fun p => (slackTimestamp p.upper, slackTimestamp p.nextLatest)
  nextRetryAt := c.nextRetryAt
  historyLimited := c.historyLimited
  relayAdoptedAt := c.relayAdoptedAt.map slackTimestamp
  rateLimited := c.rateLimited

/-- The pending interval of a record, which lies above what is covered. -/
def readPending (through : ℕ) : Option (String × String) → Option (Option Pending)
  | none => some none
  | some (upper, nextLatest) => do
    let upper ← slackMicros upper
    let nextLatest ← slackMicros nextLatest
    if nextLatest ≤ through ∨ nextLatest > upper then none else some (some { upper, nextLatest })

def readOptional : Option String → Option (Option ℕ)
  | none => some none
  | some value => (slackMicros value).map some

/-- `ChannelCoverageStore.read` of one record: `none` when it throws. -/
def ChannelRecord.read (c : ChannelRecord) : Option ChannelCoverage := do
  let start ← slackMicros c.coverageStart
  let through ← slackMicros c.coveredThrough
  if start > through then none
  let relayAdoptedAt ← readOptional c.relayAdoptedAt
  let pending ← readPending through c.pending
  some { coverageStart := start
         coveredThrough := through
         seedBasis := c.seedBasis
         pending
         nextRetryAt := c.nextRetryAt
         historyLimited := c.historyLimited
         relayAdoptedAt
         rateLimited := c.rateLimited }

/-- What a channel and a millisecond clock make of a first checkpoint. -/
def ChannelCoverage.first (floor : ℕ) (seedBasis : SeedBasis) : ChannelCoverage :=
  { coverageStart := floor, coveredThrough := floor, seedBasis }

/-- A thread never scanned: its root is the floor. -/
def ThreadCoverage.first (threadTs : ℕ) : ThreadCoverage :=
  { coverageStart := threadTs, coveredThrough := threadTs }

/-! ### Slack's answers -/

/-- A field of the answer: not there, of its type, or of another. -/
inductive Field (α : Type) where
  | absent | value (a : α) | other
  deriving DecidableEq

inductive Response where
  | failed (status : ℕ) (error : String) (retryAfterSeconds : Option ℕ)
  /-- `messages` is `none` when it is no array, a message `none` when it is no object or its
  timestamp does not parse. -/
  | page (messages : Option (List (Option Post))) (hasMore : Field Bool) (nextCursor : Field String)
      (isLimited : Bool)
  deriving DecidableEq

/-- The answer says whether more remains. -/
def moreOf (hasMore : Field Bool) (nextCursor : Field String) : Option Bool :=
  match hasMore, nextCursor with
  | .other, _ => none
  | _, .other => none
  | .absent, .absent => none
  | .value b, .value c => some (b || c ≠ "")
  | .value b, .absent => some b
  | .absent, .value c => some (c ≠ "")

/-- The messages of a channel's page and whether more remain, when the page is valid. -/
def historyPage (lower latest : ℕ) (messages : Option (List (Option Post))) (hasMore : Field Bool)
    (nextCursor : Field String) : Option (List Post × Bool) := do
  let messages ← messages
  let more ← moreOf hasMore nextCursor
  let posts ← messages.mapM id
  if posts.length ≤ 25 ∧ ∀ p ∈ posts, lower ≤ p.ts ∧ p.ts < latest then some (posts, more) else none

/-- The replies of a thread's page and whether more remain, when the page is valid. The root comes
back with them and is left out. -/
def repliesPage (threadTs lower upper limit : ℕ) (messages : Option (List (Option Post)))
    (hasMore : Field Bool) (nextCursor : Field String) : Option (List Post × Bool) := do
  let messages ← messages
  let more ← moreOf hasMore nextCursor
  let replies ← (messages.filter fun m => !m.any fun p => p.ts = threadTs).mapM id
  if replies.length ≤ limit ∧
      ∀ p ∈ replies, p.threadTs = some threadTs ∧ lower ≤ p.ts ∧ p.ts < upper then
    some (replies, more)
  else none

def oldestFirst (posts : List Post) : List Post := posts.mergeSort fun a b => a.ts ≤ b.ts

/-! ### The machine -/

structure Budget where
  deadline : ℕ
  calls : ℕ := 0
  entries : ℕ := 0
  deriving DecidableEq

def Budget.left (b : Budget) (now : ℕ) : Bool := b.calls < 4 && b.entries < 100 && now < b.deadline

/-- Where a page stands: Slack called at a time, or its messages being routed. -/
inductive Stage where
  | calling (at_ limit : ℕ)
  | landing (ordered todo : List Post) (more : Bool)
  deriving DecidableEq

/-- A page under way, with the checkpoint it began from. -/
inductive Page where
  | channel (channel : String) (c : ChannelCoverage) (pending : Pending) (stage : Stage)
  | thread (channel : String) (threadTs : ℕ) (c : ThreadCoverage) (upper : ℕ) (stage : Stage)

/-- A running recovery: its sources with their checkpoints, and the pass under way. -/
structure Recovery where
  channels : String → Option ChannelCoverage := fun _ => none
  threads : String × ℕ → Option ThreadCoverage := fun _ => none
  budget : Option Budget := none
  page : Option Page := none

/-- The machine: its clock in milliseconds, the two checkpoint files, the landings on record (a
channel and a timestamp name an event), and the recovery that runs, if one does. A page whose
recovery was stopped does nothing after its await, so it is not kept. -/
structure Machine where
  now : ℕ
  channelFile : String → Option ChannelCoverage := fun _ => none
  threadFile : String × ℕ → Option ThreadCoverage := fun _ => none
  seen : List (String × ℕ) := []
  deadLettered : List (String × ℕ) := []
  refused : List (String × ℕ) := []
  recovery : Option Recovery := none

/-- What the router makes of an event it has not seen. -/
inductive Landing where
  | accepted | deadLettered | refused | inflight | inactive | threw
  deriving DecidableEq

namespace Machine

/-- `route`, as it ends: the record it leaves. -/
def route (m : Machine) (event : String × ℕ) (landing : Landing) : Machine :=
  if event ∈ m.seen then m
  else match landing with
    | .accepted => { m with seen := m.seen ++ [event] }
    | .deadLettered => { m with deadLettered := m.deadLettered ++ [event] }
    | .refused => { m with refused := m.refused ++ [event] }
    | _ => m

/-- The page goes on after this landing. -/
def settles (m : Machine) (event : String × ℕ) (landing : Landing) : Bool :=
  event ∈ m.seen || landing ∈ [.accepted, .deadLettered, .refused]

/-- The page ends here and nothing is saved. -/
def leave (m : Machine) (r : Recovery) : Machine :=
  { m with recovery := some { r with page := none } }

/-- `save` of a channel's checkpoint: the file, then the source. -/
def saveChannel (m : Machine) (r : Recovery) (channel : String) (next : ChannelCoverage) :
    Machine :=
  { m with
    channelFile := Function.update m.channelFile channel (some next)
    recovery := some { r with channels := Function.update r.channels channel (some next) } }

def saveThread (m : Machine) (r : Recovery) (key : String × ℕ) (next : ThreadCoverage) : Machine :=
  { m with
    threadFile := Function.update m.threadFile key (some next)
    recovery := some { r with threads := Function.update r.threads key (some next) } }

/-- A page's last act: its save, which may throw. -/
def endChannel (m : Machine) (r : Recovery) (channel : String) (next : ChannelCoverage)
    (writes : Bool) : Machine :=
  if writes then m.saveChannel { r with page := none } channel next else m.leave r

def endThread (m : Machine) (r : Recovery) (key : String × ℕ) (next : ThreadCoverage)
    (writes : Bool) : Machine :=
  if writes then m.saveThread { r with page := none } key next else m.leave r

/-! ### Sources -/

/-- A channel source's start with its store: a channel's first checkpoint is its newest landing
on record, or the present at its adoption. -/
def initializeChannel (m : Machine) (r : Recovery) (channel : String) (adoption : Bool)
    (receipts : List ℕ) (writes : Bool) : Machine :=
  match m.channelFile channel with
  | some c =>
    { m with recovery := some { r with channels := Function.update r.channels channel c } }
  | none =>
    let candidates := (m.seen.filter fun e => e.1 = channel).map Prod.snd ++ receipts
    let at_ := m.now * 1000
    let next := if adoption then ChannelCoverage.first at_ .featureAdoption
      else match candidates.max? with
        | some floor => ChannelCoverage.first floor .newestDurableLanding
        | none => ChannelCoverage.first at_ .featureAdoption
    if writes then m.saveChannel r channel next else m

/-- `adoptRelayed` of the store, then `initialize`. -/
def adoptRelayed (m : Machine) (r : Recovery) (channel : String) (receivedAt : ℕ) (writes : Bool) :
    Machine :=
  let at_ := receivedAt * 1000
  match m.channelFile channel with
  | none =>
    let next := { ChannelCoverage.first at_ .featureAdoption with relayAdoptedAt := some at_ }
    if writes then m.saveChannel r channel next else m
  | some c =>
    if c.relayAdoptedAt.isSome then
      { m with recovery := some { r with channels := Function.update r.channels channel c } }
    else if writes then m.saveChannel r channel { c with relayAdoptedAt := some at_ }
    else m

/-- A thread's source as `trackedThreadSources` makes it. -/
def track (m : Machine) (r : Recovery) (key : String × ℕ) : Machine :=
  let c := (m.threadFile key).getD (ThreadCoverage.first key.2)
  { m with recovery := some { r with threads := Function.update r.threads key (some c) } }

/-! ### Pages -/

/-- The upper bound of a scan begun now: five seconds are left for visibility. -/
def upperNow (m : Machine) : ℕ := (m.now - 5000) * 1000

def callChannel (m : Machine) (b : Budget) (channel : String) (c : ChannelCoverage) (p : Pending) :
    Page :=
  .channel channel c p (.calling m.now (min 25 (100 - b.entries)))

/-- `ChannelRecovery.page` up to its call. `held` is the method's rate-limit hold. -/
def beginChannel (m : Machine) (r : Recovery) (b : Budget) (channel : String) (c : ChannelCoverage)
    (held writes : Bool) : Machine :=
  let called := { r with budget := some { b with calls := b.calls + 1 } }
  if held then m
  else if c.nextRetryAt.any fun t => t > m.now then m
  else match c.pending with
    | none =>
      let upper := m.upperNow
      if upper ≤ c.coveredThrough then m
      else if !b.left m.now then m
      else
        let p : Pending := { upper, nextLatest := upper }
        let next := { c with nextRetryAt := none, rateLimited := none, pending := some p }
        if writes then
          m.saveChannel { called with page := some (m.callChannel b channel next p) } channel next
        else m
    | some p =>
      if !b.left m.now then m
      else { m with recovery := some { called with page := some (m.callChannel b channel c p) } }

def callThread (m : Machine) (b : Budget) (key : String × ℕ) (c : ThreadCoverage) (upper : ℕ) :
    Page :=
  .thread key.1 key.2 c upper (.calling m.now (min 15 (100 - b.entries)))

/-- `ThreadRecovery.page` up to its call. -/
def beginThread (m : Machine) (r : Recovery) (b : Budget) (key : String × ℕ) (c : ThreadCoverage)
    (held writes : Bool) : Machine :=
  let called := { r with budget := some { b with calls := b.calls + 1 } }
  if held then m
  else if c.nextRetryAt.any fun t => t > m.now then m
  else match c.pending with
    | none =>
      let upper := m.upperNow
      if upper ≤ c.coveredThrough then m
      else if !b.left m.now then m
      else
        let next := { c with nextRetryAt := none, rateLimited := none, pending := some upper }
        if writes then
          m.saveThread { called with page := some (m.callThread b key next upper) } key next
        else m
    | some upper =>
      if !b.left m.now then m
      else { m with recovery := some { called with page := some (m.callThread b key c upper) } }

def retrySeconds (status : ℕ) (retryAfterSeconds : Option ℕ) : ℕ :=
  retryAfterSeconds.getD (if status = 0 ∨ status ≥ 500 then 5 else 300)

/-- `ChannelRecovery.page` when Slack has answered. -/
def respondChannel (m : Machine) (r : Recovery) (channel : String) (c : ChannelCoverage)
    (p : Pending) (response : Response) (writes : Bool) : Machine :=
  match response with
  | .failed status _ retryAfterSeconds =>
    let retryAt := m.now + retrySeconds status retryAfterSeconds * 1000
    m.endChannel r channel
      { c with nextRetryAt := some retryAt, rateLimited := some (status = 429) } writes
  | .page messages hasMore nextCursor isLimited =>
    match historyPage c.coveredThrough p.nextLatest messages hasMore nextCursor with
    | none => m.leave r
    | some (posts, more) =>
      let ordered := oldestFirst posts
      if more && ordered.head?.all fun q => q.ts ≤ c.coveredThrough then m.leave r
      else
        let c := { c with historyLimited := c.historyLimited || isLimited }
        { m with recovery := some { r with
            page := some (.channel channel c p (.landing ordered ordered more)) } }

/-- `ThreadRecovery.page` when Slack has answered. -/
def respondThread (m : Machine) (r : Recovery) (key : String × ℕ) (c : ThreadCoverage)
    (upper limit : ℕ) (response : Response) (writes : Bool) : Machine :=
  match response with
  | .failed status error retryAfterSeconds =>
    if error = "thread_not_found" then m.leave r
    else
      let retryAt := m.now + retrySeconds status retryAfterSeconds * 1000
      m.endThread r key
        { c with nextRetryAt := some retryAt, rateLimited := some (status = 429) } writes
  | .page messages hasMore nextCursor _ =>
    match repliesPage key.2 c.coveredThrough upper limit messages hasMore nextCursor with
    | none => m.leave r
    | some (replies, more) =>
      let ordered := oldestFirst replies
      if more && ordered.isEmpty then m.leave r
      else { m with recovery := some { r with
          page := some (.thread key.1 key.2 c upper (.landing ordered ordered more)) } }

/-- One message of a page: passed over, or routed with what came of it. `page` is the page without
the message. -/
def landNext (m : Machine) (r : Recovery) (b : Budget) (event : String × ℕ) (skipped : Bool)
    (landing : Landing) (page : Page) : Machine :=
  if m.now ≥ b.deadline || b.entries ≥ 100 then m.leave r
  else
    let r := { r with budget := some { b with entries := b.entries + 1 } }
    if skipped then { m with recovery := some { r with page := some page } }
    else if m.settles event landing then
      { m.route event landing with recovery := some { r with page := some page } }
    else (m.route event landing).leave r

/-- The end of a channel's page. -/
def finishChannel (m : Machine) (r : Recovery) (channel : String) (c : ChannelCoverage)
    (p : Pending) (ordered : List Post) (more writes : Bool) : Machine :=
  if !more then
    m.endChannel r channel { c with
      coveredThrough := p.upper
      pending := none
      nextRetryAt := none
      rateLimited := none } writes
  else
    let nextLatest := (ordered.head?.map (·.ts)).getD p.nextLatest
    m.endChannel r channel { c with
      pending := some { upper := p.upper, nextLatest }
      nextRetryAt := none
      rateLimited := none } writes

/-- The end of a thread's page. -/
def finishThread (m : Machine) (r : Recovery) (key : String × ℕ) (c : ThreadCoverage) (upper : ℕ)
    (ordered : List Post) (more writes : Bool) : Machine :=
  let through := if more then (ordered.getLast?.map (·.ts)).getD c.coveredThrough + 1 else upper
  if through ≥ upper then
    m.endThread r key { c with
      coveredThrough := upper
      pending := none
      nextRetryAt := none
      rateLimited := none } writes
  else
    m.endThread r key { c with
      coveredThrough := through
      nextRetryAt := none
      rateLimited := none } writes

end Machine

/-! ### Steps -/

inductive Label where
  | tick (ms : ℕ)
  /-- A landing outside the scans. -/
  | live (event : String × ℕ) (landing : Landing)
  | start
  | stop
  | initializeChannel (channel : String) (adoption : Bool) (receipts : List ℕ) (writes : Bool)
  | adoptRelayed (channel : String) (receivedAt : ℕ) (writes : Bool)
  | track (key : String × ℕ)
  | pass
  | channel (channel : String) (held writes : Bool)
  | thread (key : String × ℕ) (held writes : Bool)
  | respond (response : Response) (writes : Bool)
  | next (landing : Landing)
  | finish (writes : Bool)

open Machine in
/-- One step, if it can be taken. `writes` tells whether the step's save succeeds. -/
def step (m : Machine) : Label → Option Machine
  | .tick ms => some { m with now := m.now + ms }
  | .live event landing => some (m.route event landing)
  | .start => some { m with recovery := some {} }
  | .stop => some { m with recovery := none }
  | .initializeChannel channel adoption receipts writes => do
    let r ← m.recovery
    if (r.channels channel).isNone then
      some (m.initializeChannel r channel adoption receipts writes)
    else none
  | .adoptRelayed channel receivedAt writes => do
    let r ← m.recovery
    if (r.channels channel).isNone then some (m.adoptRelayed r channel receivedAt writes) else none
  | .track key => do
    let r ← m.recovery
    if r.page.isNone then some (m.track r key) else none
  | .pass => do
    let r ← m.recovery
    if r.page.isNone then
      some { m with recovery := some { r with budget := some { deadline := m.now + 15000 } } }
    else none
  | .channel channel held writes => do
    let r ← m.recovery
    let b ← r.budget
    let c ← r.channels channel
    if r.page.isNone then some (m.beginChannel r b channel c held writes) else none
  | .thread key held writes => do
    let r ← m.recovery
    let b ← r.budget
    let c ← r.threads key
    if r.page.isNone then some (m.beginThread r b key c held writes) else none
  | .respond response writes => do
    let r ← m.recovery
    match r.page with
    | some (.channel channel c p (.calling ..)) =>
      some (m.respondChannel r channel c p response writes)
    | some (.thread channel threadTs c upper (.calling _ limit)) =>
      some (m.respondThread r (channel, threadTs) c upper limit response writes)
    | _ => none
  | .next landing => do
    let r ← m.recovery
    let b ← r.budget
    match r.page with
    | some (.channel channel c p (.landing ordered (q :: rest) more)) =>
      some (m.landNext r b (channel, q.ts) (skippedInChannel q) landing
        (.channel channel c p (.landing ordered rest more)))
    | some (.thread channel threadTs c upper (.landing ordered (q :: rest) more)) =>
      some (m.landNext r b (channel, q.ts) (skippedInThread q) landing
        (.thread channel threadTs c upper (.landing ordered rest more)))
    | _ => none
  | .finish writes => do
    let r ← m.recovery
    match r.page with
    | some (.channel channel c p (.landing ordered [] more)) =>
      some (m.finishChannel r channel c p ordered more writes)
    | some (.thread channel threadTs c upper (.landing ordered [] more)) =>
      some (m.finishThread r (channel, threadTs) c upper ordered more writes)
    | _ => none

/-! ### What Slack promises -/

/-- What is posted in a workspace over the whole run: the messages of each channel's history, and
the replies of each thread without its root. -/
structure Workspace where
  history : String → Set Post
  replies : String × ℕ → Set Post
  historyPositive : ∀ channel, ∀ p ∈ history channel, 0 < p.ts
  repliesPositive : ∀ key, ∀ p ∈ replies key, 0 < p.ts

/-- What can be seen of some messages at a time: each of them within five seconds. -/
structure Visible (posted visible : Set Post) (now : ℕ) : Prop where
  sub : visible ⊆ posted
  settled : ∀ p ∈ posted, p.ts + 5000000 ≤ now * 1000 → p ∈ visible

/-- The messages of an open interval. -/
def within (visible : Set Post) (oldest latest : ℕ) : Set Post :=
  {p | p ∈ visible ∧ oldest < p.ts ∧ p.ts < latest}

/-- The newest messages of the interval, with `more` set exactly when older ones remain. -/
structure Newest (visible : Set Post) (oldest latest : ℕ) (page : List Post)
    (more : Bool) : Prop where
  sub : ∀ p ∈ page, p ∈ within visible oldest latest
  last : ∀ p ∈ within visible oldest latest, p ∉ page → ∀ q ∈ page, p.ts < q.ts
  more_iff : more = true ↔ ∃ p ∈ within visible oldest latest, p ∉ page

/-- The oldest messages of the interval, with `more` set exactly when newer ones remain. -/
structure Oldest (visible : Set Post) (oldest latest : ℕ) (page : List Post)
    (more : Bool) : Prop where
  sub : ∀ p ∈ page, p ∈ within visible oldest latest
  first : ∀ p ∈ within visible oldest latest, p ∉ page → ∀ q ∈ page, q.ts < p.ts
  more_iff : more = true ↔ ∃ p ∈ within visible oldest latest, p ∉ page

/-- A valid page is what Slack promises: for a channel the newest messages it was asked for, for a
thread the oldest replies, of those visible when it was called. -/
def Truthful (w : Workspace) (m : Machine) : Label → Prop
  | .respond (.page messages hasMore nextCursor _) _ => ∀ r, m.recovery = some r →
      match r.page with
      | some (.channel channel c p (.calling at_ _)) => ∀ posts more,
          historyPage c.coveredThrough p.nextLatest messages hasMore nextCursor =
            some (posts, more) →
          ∃ visible, Visible (w.history channel) visible at_ ∧
            Newest visible (c.coveredThrough - 1) p.nextLatest posts more
      | some (.thread channel threadTs c upper (.calling at_ limit)) => ∀ replies more,
          repliesPage threadTs c.coveredThrough upper limit messages hasMore nextCursor =
            some (replies, more) →
          ∃ visible, Visible (w.replies (channel, threadTs)) visible at_ ∧
            Oldest visible (c.coveredThrough - 1) upper replies more
      | _ => True
  | _ => True

/-! ### Landings -/

/-- The event was marked seen, dead-lettered or refused by sender policy. -/
def Handled (m : Machine) (event : String × ℕ) : Prop :=
  event ∈ m.seen ∨ event ∈ m.deadLettered ∨ event ∈ m.refused

/-- The clock runs on and no landing is forgotten. -/
structure Grows (m m' : Machine) : Prop where
  now : m.now ≤ m'.now
  handled : ∀ event, Handled m event → Handled m' event

lemma Grows.refl (m : Machine) : Grows m m := ⟨le_refl _, fun _ h => h⟩

lemma Grows.trans {m m' m'' : Machine} (h : Grows m m') (h' : Grows m' m'') : Grows m m'' :=
  ⟨h.now.trans h'.now, fun e he => h'.handled e (h.handled e he)⟩

lemma Grows.of_record {m m' : Machine} (hn : m'.now = m.now) (hs : m'.seen = m.seen)
    (hd : m'.deadLettered = m.deadLettered) (hr : m'.refused = m.refused) : Grows m m' :=
  ⟨hn.ge, fun e he => by simpa [Handled, hs, hd, hr] using he⟩

lemma route_grows (m : Machine) (event : String × ℕ) (landing : Landing) :
    Grows m (m.route event landing) := by
  unfold Machine.route
  split
  · exact Grows.refl m
  · cases landing with
    | accepted => exact ⟨le_refl _, fun e he => he.imp (List.mem_append_left _) id⟩
    | deadLettered =>
      exact ⟨le_refl _, fun e he => he.imp id (Or.imp (List.mem_append_left _) id)⟩
    | refused => exact ⟨le_refl _, fun e he => he.imp id (Or.imp id (List.mem_append_left _))⟩
    | inflight => exact Grows.refl m
    | inactive => exact Grows.refl m
    | threw => exact Grows.refl m

@[simp] lemma route_files (m : Machine) (event : String × ℕ) (landing : Landing) :
    (m.route event landing).channelFile = m.channelFile ∧
      (m.route event landing).threadFile = m.threadFile ∧
      (m.route event landing).recovery = m.recovery := by
  unfold Machine.route
  split
  · simp
  · cases landing <;> simp

lemma handled_of_settles {m : Machine} {event : String × ℕ} {landing : Landing}
    (h : m.settles event landing = true) : Handled (m.route event landing) event := by
  unfold Machine.route
  split
  · rename_i hs
    exact .inl hs
  · rename_i hs
    cases landing <;> simp_all [Machine.settles, Handled]

/-! ### Coverage -/

/-- A channel's checkpoint is no further than what was handled. -/
structure ChannelSound (w : Workspace) (m : Machine) (channel : String) (c : ChannelCoverage) :
    Prop where
  start_le : c.coverageStart ≤ c.coveredThrough
  bounds : ∀ p, c.pending = some p → c.coveredThrough < p.nextLatest ∧ p.nextLatest ≤ p.upper ∧
    p.upper + 5000000 ≤ m.now * 1000
  scanned : ∀ q ∈ w.history channel, skippedInChannel q = false → c.coverageStart ≤ q.ts →
    q.ts < c.coveredThrough → Handled m (channel, q.ts)
  pendingScanned : ∀ p, c.pending = some p → ∀ q ∈ w.history channel, skippedInChannel q = false →
    p.nextLatest ≤ q.ts → q.ts < p.upper → Handled m (channel, q.ts)

/-- A thread's checkpoint is no further than what was handled. -/
structure ThreadSound (w : Workspace) (m : Machine) (key : String × ℕ) (c : ThreadCoverage) :
    Prop where
  start_le : c.coverageStart ≤ c.coveredThrough
  bounds : ∀ upper, c.pending = some upper → c.coveredThrough < upper ∧
    upper + 5000000 ≤ m.now * 1000
  scanned : ∀ q ∈ w.replies key, skippedInThread q = false → c.coverageStart ≤ q.ts →
    q.ts < c.coveredThrough → Handled m (key.1, q.ts)

variable {w : Workspace} {m m' : Machine} {r : Recovery} {channel : String} {key : String × ℕ}

lemma ChannelSound.grow {c : ChannelCoverage} (h : ChannelSound w m channel c) (hg : Grows m m') :
    ChannelSound w m' channel c where
  start_le := h.start_le
  bounds p hp := by
    obtain ⟨h1, h2, h3⟩ := h.bounds p hp
    exact ⟨h1, h2, h3.trans (Nat.mul_le_mul_right _ hg.now)⟩
  scanned q hq hs h1 h2 := hg.handled _ (h.scanned q hq hs h1 h2)
  pendingScanned p hp q hq hs h1 h2 := hg.handled _ (h.pendingScanned p hp q hq hs h1 h2)

lemma ThreadSound.grow {c : ThreadCoverage} (h : ThreadSound w m key c) (hg : Grows m m') :
    ThreadSound w m' key c where
  start_le := h.start_le
  bounds upper hu := by
    obtain ⟨h1, h2⟩ := h.bounds upper hu
    exact ⟨h1, h2.trans (Nat.mul_le_mul_right _ hg.now)⟩
  scanned q hq hs h1 h2 := hg.handled _ (h.scanned q hq hs h1 h2)

lemma ChannelSound.congr {c c' : ChannelCoverage} (h : ChannelSound w m channel c)
    (hs : c'.coverageStart = c.coverageStart) (ht : c'.coveredThrough = c.coveredThrough)
    (hp : c'.pending = c.pending) : ChannelSound w m channel c' := by
  obtain ⟨h1, h2, h3, h4⟩ := h
  constructor <;> simp only [hs, ht, hp] <;> assumption

lemma ThreadSound.congr {c c' : ThreadCoverage} (h : ThreadSound w m key c)
    (hs : c'.coverageStart = c.coverageStart) (ht : c'.coveredThrough = c.coveredThrough)
    (hp : c'.pending = c.pending) : ThreadSound w m key c' := by
  obtain ⟨h1, h2, h3⟩ := h
  constructor <;> simp only [hs, ht, hp] <;> assumption

lemma channelSound_first (floor : ℕ) (basis : SeedBasis) (relay : Option ℕ) :
    ChannelSound w m channel { ChannelCoverage.first floor basis with
      relayAdoptedAt := relay } where
  start_le := le_refl _
  bounds p hp := by simp [ChannelCoverage.first] at hp
  scanned q _ _ h1 h2 := by
    simp only [ChannelCoverage.first] at h1 h2
    omega
  pendingScanned p hp := by simp [ChannelCoverage.first] at hp

lemma threadSound_first (key : String × ℕ) : ThreadSound w m key (ThreadCoverage.first key.2) where
  start_le := le_refl _
  bounds p hp := by simp [ThreadCoverage.first] at hp
  scanned q _ _ h1 h2 := by
    simp only [ThreadCoverage.first] at h1 h2
    omega

/-- **A sound checkpoint is one its reader accepts.** -/
theorem read_write {c : ChannelCoverage} (h : ChannelSound w m channel c)
    (hthrough : c.coveredThrough < 10 ^ 18) (hupper : ∀ p, c.pending = some p → p.upper < 10 ^ 18)
    (hrelay : ∀ at_, c.relayAdoptedAt = some at_ → at_ < 10 ^ 18) : c.write.read = some c := by
  have hstart := h.start_le
  have h₁ : slackMicros (slackTimestamp c.coverageStart) = some c.coverageStart :=
    slackMicros_slackTimestamp (by omega)
  have h₂ : slackMicros (slackTimestamp c.coveredThrough) = some c.coveredThrough :=
    slackMicros_slackTimestamp hthrough
  have h₃ : readOptional (c.relayAdoptedAt.map slackTimestamp) = some c.relayAdoptedAt := by
    cases hr : c.relayAdoptedAt with
    | none => rfl
    | some at_ => simp [readOptional, slackMicros_slackTimestamp (hrelay at_ hr)]
  have h₄ : readPending c.coveredThrough
      (c.pending.map fun p => (slackTimestamp p.upper, slackTimestamp p.nextLatest)) =
        some c.pending := by
    cases hp : c.pending with
    | none => rfl
    | some p =>
      obtain ⟨hlt, hle, -⟩ := h.bounds p hp
      have hu := hupper p hp
      have hn : slackMicros (slackTimestamp p.nextLatest) = some p.nextLatest :=
        slackMicros_slackTimestamp (by omega)
      simp [readPending, slackMicros_slackTimestamp hu, hn, not_le.mpr hlt, not_lt.mpr hle]
  simp [ChannelRecord.read, ChannelCoverage.write, h₁, h₂, h₃, h₄, not_lt.mpr hstart]

/-! ### Pages under way -/

def Ascending (posts : List Post) : Prop := posts.Pairwise fun a b => a.ts ≤ b.ts

/-- A channel's page under way. While it lands, the messages it holds are all there is from the
oldest of them on, and those no longer to do were handled. -/
def ChannelStage (w : Workspace) (m : Machine) (channel : String) (lower : ℕ) (p : Pending) :
    Stage → Prop
  | .calling at_ _ => p.upper + 5000000 ≤ at_ * 1000
  | .landing ordered todo more => Ascending ordered ∧
      (∀ q ∈ w.history channel, lower ≤ q.ts → q.ts < p.nextLatest → q ∈ ordered ∨
        more = true ∧ ∀ q' ∈ ordered, q.ts < q'.ts) ∧
      (∀ q ∈ ordered, q ∉ todo → skippedInChannel q = false → Handled m (channel, q.ts)) ∧
      (∀ q ∈ ordered, q.ts < p.nextLatest) ∧
      (more = true → ∃ q, ordered.head? = some q ∧ lower < q.ts)

/-- A thread's page under way, likewise up to the newest reply it holds. -/
def ThreadStage (w : Workspace) (m : Machine) (key : String × ℕ) (lower upper : ℕ) : Stage → Prop
  | .calling at_ _ => upper + 5000000 ≤ at_ * 1000
  | .landing ordered todo more => Ascending ordered ∧
      (∀ q ∈ w.replies key, lower ≤ q.ts → q.ts < upper → q ∈ ordered ∨
        more = true ∧ ∀ q' ∈ ordered, q'.ts < q.ts) ∧
      (∀ q ∈ ordered, q ∉ todo → skippedInThread q = false → Handled m (key.1, q.ts)) ∧
      (∀ q ∈ ordered, lower ≤ q.ts) ∧
      (more = true → ordered ≠ [])

def PageSound (w : Workspace) (m : Machine) : Page → Prop
  | .channel channel c p stage => c.pending = some p ∧ ChannelSound w m channel c ∧
      (∃ c₀, m.channelFile channel = some c₀ ∧ c₀.coveredThrough = c.coveredThrough) ∧
      ChannelStage w m channel c.coveredThrough p stage
  | .thread channel threadTs c upper stage => c.pending = some upper ∧
      ThreadSound w m (channel, threadTs) c ∧
      (∃ c₀, m.threadFile (channel, threadTs) = some c₀ ∧ c₀.coveredThrough = c.coveredThrough) ∧
      ThreadStage w m (channel, threadTs) c.coveredThrough upper stage

lemma ChannelStage.grow {lower : ℕ} {p : Pending} {stage : Stage} (hg : Grows m m')
    (h : ChannelStage w m channel lower p stage) : ChannelStage w m' channel lower p stage := by
  cases stage with
  | calling at_ limit => exact h
  | landing ordered todo more =>
    exact ⟨h.1, h.2.1, fun q hq hn hs => hg.handled _ (h.2.2.1 q hq hn hs), h.2.2.2⟩

lemma ThreadStage.grow {lower upper : ℕ} {stage : Stage} (hg : Grows m m')
    (h : ThreadStage w m key lower upper stage) : ThreadStage w m' key lower upper stage := by
  cases stage with
  | calling at_ limit => exact h
  | landing ordered todo more =>
    exact ⟨h.1, h.2.1, fun q hq hn hs => hg.handled _ (h.2.2.1 q hq hn hs), h.2.2.2⟩

/-! ### What a step does to the checkpoints -/

/-- The checkpoints after a step: those before it, or a sound one that covers no less. -/
structure Advances (w : Workspace) (m m' : Machine) : Prop where
  grows : Grows m m'
  channels : ∀ channel, m'.channelFile channel = m.channelFile channel ∨
    ∃ c', m'.channelFile channel = some c' ∧ ChannelSound w m' channel c' ∧
      ∀ c, m.channelFile channel = some c → c.coveredThrough ≤ c'.coveredThrough
  threads : ∀ key, m'.threadFile key = m.threadFile key ∨
    ∃ c', m'.threadFile key = some c' ∧ ThreadSound w m' key c' ∧
      ∀ c, m.threadFile key = some c → c.coveredThrough ≤ c'.coveredThrough

structure FilesSound (w : Workspace) (m : Machine) : Prop where
  channels : ∀ channel c, m.channelFile channel = some c → ChannelSound w m channel c
  threads : ∀ key c, m.threadFile key = some c → ThreadSound w m key c

/-- A source holds what was last saved for it. -/
structure MemorySound (m : Machine) (r : Recovery) : Prop where
  channels : ∀ channel c, r.channels channel = some c → m.channelFile channel = some c
  threads : ∀ key c, r.threads key = some c → m.threadFile key = some c ∨
    m.threadFile key = none ∧ c = ThreadCoverage.first key.2

lemma MemorySound.congr {r r' : Recovery} {m : Machine} (h : MemorySound m r)
    (hc : r'.channels = r.channels) (ht : r'.threads = r.threads) : MemorySound m r' :=
  ⟨fun channel c => by rw [hc]; exact h.channels channel c,
    fun key c => by rw [ht]; exact h.threads key c⟩

structure Sound (w : Workspace) (m : Machine) : Prop extends FilesSound w m where
  memory : ∀ r, m.recovery = some r → MemorySound m r
  page : ∀ r, m.recovery = some r → ∀ page, r.page = some page → PageSound w m page

lemma Advances.files (h : Advances w m m') (hf : FilesSound w m) : FilesSound w m' where
  channels channel c hc := by
    rcases h.channels channel with he | ⟨c', hc', hs, -⟩
    · exact (hf.channels channel c (he ▸ hc)).grow h.grows
    · obtain rfl : c' = c := Option.some.inj (hc'.symm.trans hc)
      exact hs
  threads key c hc := by
    rcases h.threads key with he | ⟨c', hc', hs, -⟩
    · exact (hf.threads key c (he ▸ hc)).grow h.grows
    · obtain rfl : c' = c := Option.some.inj (hc'.symm.trans hc)
      exact hs

lemma Advances.of_same (hg : Grows m m') (hc : m'.channelFile = m.channelFile)
    (ht : m'.threadFile = m.threadFile) : Advances w m m' :=
  ⟨hg, fun channel => .inl (by rw [hc]), fun key => .inl (by rw [ht])⟩

lemma advances_saveChannel {next : ChannelCoverage} (hn : ChannelSound w m channel next)
    (hle : ∀ c, m.channelFile channel = some c → c.coveredThrough ≤ next.coveredThrough) :
    Advances w m (m.saveChannel r channel next) := by
  have hg : Grows m (m.saveChannel r channel next) := Grows.of_record rfl rfl rfl rfl
  refine ⟨hg, fun channel' => ?_, fun key => .inl rfl⟩
  by_cases he : channel' = channel
  · subst he
    exact .inr ⟨next, by simp [Machine.saveChannel], hn.grow hg, hle⟩
  · exact .inl (by simp [Machine.saveChannel, he])

lemma advances_saveThread {next : ThreadCoverage} (hn : ThreadSound w m key next)
    (hle : ∀ c, m.threadFile key = some c → c.coveredThrough ≤ next.coveredThrough) :
    Advances w m (m.saveThread r key next) := by
  have hg : Grows m (m.saveThread r key next) := Grows.of_record rfl rfl rfl rfl
  refine ⟨hg, fun channel => .inl rfl, fun key' => ?_⟩
  by_cases he : key' = key
  · subst he
    exact .inr ⟨next, by simp [Machine.saveThread], hn.grow hg, hle⟩
  · exact .inl (by simp [Machine.saveThread, he])

lemma memory_saveChannel {next : ChannelCoverage} (h : MemorySound m r) :
    MemorySound (m.saveChannel r channel next)
      { r with channels := Function.update r.channels channel (some next) } := by
  refine ⟨fun channel' c hc => ?_, fun key c hc => h.threads key c hc⟩
  by_cases he : channel' = channel
  · subst he
    simpa [Machine.saveChannel] using hc
  · simpa [Machine.saveChannel, he] using h.channels channel' c (by simpa [he] using hc)

lemma memory_saveThread {next : ThreadCoverage} (h : MemorySound m r) :
    MemorySound (m.saveThread r key next)
      { r with threads := Function.update r.threads key (some next) } := by
  refine ⟨fun channel c hc => h.channels channel c hc, fun key' c hc => ?_⟩
  by_cases he : key' = key
  · subst he
    exact .inl (by simpa [Machine.saveThread] using hc)
  · simpa [Machine.saveThread, he] using h.threads key' c (by simpa [he] using hc)

lemma PageSound.advance {page : Page} (h : PageSound w m page) (hg : Grows m m')
    (hc : ∀ channel c, m.channelFile channel = some c →
      ∃ c', m'.channelFile channel = some c' ∧ c'.coveredThrough = c.coveredThrough)
    (ht : ∀ key c, m.threadFile key = some c →
      ∃ c', m'.threadFile key = some c' ∧ c'.coveredThrough = c.coveredThrough) :
    PageSound w m' page := by
  cases page with
  | channel channel c p stage =>
    obtain ⟨hp, hs, ⟨c₀, hf, he⟩, hst⟩ := h
    obtain ⟨c₁, hf', he'⟩ := hc channel c₀ hf
    exact ⟨hp, hs.grow hg, ⟨c₁, hf', he'.trans he⟩, ChannelStage.grow hg hst⟩
  | thread channel threadTs c upper stage =>
    obtain ⟨hp, hs, ⟨c₀, hf, he⟩, hst⟩ := h
    obtain ⟨c₁, hf', he'⟩ := ht (channel, threadTs) c₀ hf
    exact ⟨hp, hs.grow hg, ⟨c₁, hf', he'.trans he⟩, ThreadStage.grow hg hst⟩

/-! ### Pages as they arrive -/

@[simp] lemma mem_oldestFirst {posts : List Post} {p : Post} :
    p ∈ oldestFirst posts ↔ p ∈ posts := by
  simp [oldestFirst]

lemma oldestFirst_ascending (posts : List Post) : Ascending (oldestFirst posts) := by
  have h := @List.pairwise_mergeSort Post (fun a b => decide (a.ts ≤ b.ts))
    (fun a b c hab hbc => by simp only [decide_eq_true_eq] at *; omega)
    (fun a b => by simp only [Bool.or_eq_true, decide_eq_true_eq]; omega) posts
  simpa [oldestFirst, Ascending] using h

lemma historyPage_bounds {lower latest : ℕ} {messages : Option (List (Option Post))}
    {hasMore : Field Bool} {nextCursor : Field String} {posts : List Post} {more : Bool}
    (h : historyPage lower latest messages hasMore nextCursor = some (posts, more)) :
    ∀ p ∈ posts, lower ≤ p.ts ∧ p.ts < latest := by
  simp only [historyPage, bind, Option.bind_eq_some_iff, Option.ite_none_right_eq_some,
    Option.some.injEq, Prod.mk.injEq] at h
  obtain ⟨_, _, _, _, _, _, hb, rfl, rfl⟩ := h
  exact hb.2

lemma repliesPage_bounds {threadTs lower upper limit : ℕ} {messages : Option (List (Option Post))}
    {hasMore : Field Bool} {nextCursor : Field String} {posts : List Post} {more : Bool}
    (h : repliesPage threadTs lower upper limit messages hasMore nextCursor = some (posts, more)) :
    ∀ p ∈ posts, lower ≤ p.ts ∧ p.ts < upper := by
  simp only [repliesPage, bind, Option.bind_eq_some_iff, Option.ite_none_right_eq_some,
    Option.some.injEq, Prod.mk.injEq] at h
  obtain ⟨_, _, _, _, _, _, hb, rfl, rfl⟩ := h
  exact fun p hp => (hb.2 p hp).2

/-- **A channel's page holds all there is from its oldest message on.** -/
lemma channelStage_landing {p : Pending} {lower at_ : ℕ} {visible : Set Post} {posts : List Post}
    {more : Bool} (hup : p.nextLatest ≤ p.upper) (hat : p.upper + 5000000 ≤ at_ * 1000)
    (hv : Visible (w.history channel) visible at_)
    (hn : Newest visible (lower - 1) p.nextLatest posts more)
    (hb : ∀ q ∈ posts, lower ≤ q.ts ∧ q.ts < p.nextLatest)
    (hmore : ¬ (more && (oldestFirst posts).head?.all fun q => q.ts ≤ lower) = true) :
    ChannelStage w m channel lower p
      (.landing (oldestFirst posts) (oldestFirst posts) more) := by
  refine ⟨oldestFirst_ascending _, ?_, fun q hq hnq => absurd hq hnq,
    fun q hq => (hb q (by simpa using hq)).2, ?_⟩
  · intro q hq hlower hlatest
    have hpos := w.historyPositive channel q hq
    have hsettled : q.ts + 5000000 ≤ at_ * 1000 :=
      (Nat.add_le_add_right (hlatest.le.trans hup) _).trans hat
    have hin : q ∈ within visible (lower - 1) p.nextLatest :=
      ⟨hv.settled q hq hsettled, by omega, hlatest⟩
    by_cases hqp : q ∈ posts
    · exact .inl (by simpa using hqp)
    · exact .inr ⟨hn.more_iff.mpr ⟨q, hin, hqp⟩,
        fun q' hq' => hn.last q hin hqp q' (by simpa using hq')⟩
  · intro hm
    simp only [hm, Bool.true_and] at hmore
    cases hh : (oldestFirst posts).head? with
    | none => simp [hh] at hmore
    | some q => exact ⟨q, rfl, by simpa [hh] using hmore⟩

/-- **A thread's page holds all there is up to its newest reply.** -/
lemma threadStage_landing {lower upper at_ : ℕ} {visible : Set Post} {replies : List Post}
    {more : Bool} (hat : upper + 5000000 ≤ at_ * 1000)
    (hv : Visible (w.replies key) visible at_)
    (hn : Oldest visible (lower - 1) upper replies more)
    (hb : ∀ q ∈ replies, lower ≤ q.ts ∧ q.ts < upper)
    (hmore : ¬ (more && (oldestFirst replies).isEmpty) = true) :
    ThreadStage w m key lower upper
      (.landing (oldestFirst replies) (oldestFirst replies) more) := by
  refine ⟨oldestFirst_ascending _, ?_, fun q hq hnq => absurd hq hnq,
    fun q hq => (hb q (by simpa using hq)).1, ?_⟩
  · intro q hq hlower hlatest
    have hpos := w.repliesPositive key q hq
    have hsettled : q.ts + 5000000 ≤ at_ * 1000 :=
      (Nat.add_le_add_right hlatest.le _).trans hat
    have hin : q ∈ within visible (lower - 1) upper :=
      ⟨hv.settled q hq hsettled, by omega, hlatest⟩
    by_cases hqp : q ∈ replies
    · exact .inl (by simpa using hqp)
    · exact .inr ⟨hn.more_iff.mpr ⟨q, hin, hqp⟩,
        fun q' hq' => hn.first q hin hqp q' (by simpa using hq')⟩
  · intro hm hnil
    simp [hm, hnil] at hmore

/-! ### One step -/

lemma Sound.advance {t : Machine} (h : Sound w m) (ha : Advances w m t)
    (hr : ∀ r, t.recovery = some r → MemorySound t r ∧ ∀ page, r.page = some page →
      PageSound w t page) : Sound w t ∧ Advances w m t :=
  ⟨⟨ha.files h.toFilesSound, fun r hr' => (hr r hr').1, fun r hr' => (hr r hr').2⟩, ha⟩

lemma Sound.same (h : Sound w m) : Sound w m ∧ Advances w m m :=
  ⟨h, Advances.of_same (Grows.refl m) rfl rfl⟩

lemma Sound.recover (h : Sound w m) {t : Machine} (hg : Grows m t)
    (hc : t.channelFile = m.channelFile) (ht : t.threadFile = m.threadFile)
    (hr : ∀ r, t.recovery = some r → MemorySound m r ∧ ∀ page, r.page = some page →
      PageSound w t page) : Sound w t ∧ Advances w m t := by
  refine h.advance (Advances.of_same hg hc ht) fun r hr' => ?_
  obtain ⟨hm, hp⟩ := hr r hr'
  refine ⟨⟨fun channel c he => ?_, fun key c he => ?_⟩, hp⟩
  · rw [hc]
    exact hm.channels channel c he
  · rw [ht]
    exact hm.threads key c he

lemma sound_leave (h : Sound w m) {r' : Recovery} (hm : MemorySound m r') :
    Sound w (m.leave r') ∧ Advances w m (m.leave r') := by
  refine h.recover (Grows.of_record rfl rfl rfl rfl) rfl rfl fun r hr => ?_
  obtain rfl : { r' with page := none } = r := Option.some.inj hr
  exact ⟨⟨hm.channels, hm.threads⟩, by simp⟩

lemma sound_saveChannel (h : Sound w m) (hm : MemorySound m r) {next : ChannelCoverage}
    (hn : ChannelSound w m channel next)
    (hle : ∀ c, m.channelFile channel = some c → c.coveredThrough ≤ next.coveredThrough)
    (hp : ∀ page, r.page = some page → PageSound w (m.saveChannel r channel next) page) :
    Sound w (m.saveChannel r channel next) ∧ Advances w m (m.saveChannel r channel next) := by
  refine h.advance (advances_saveChannel hn hle) fun r' hr => ?_
  obtain rfl : { r with channels := Function.update r.channels channel (some next) } = r' :=
    Option.some.inj hr
  exact ⟨memory_saveChannel hm, hp⟩

lemma sound_saveThread (h : Sound w m) (hm : MemorySound m r) {next : ThreadCoverage}
    (hn : ThreadSound w m key next)
    (hle : ∀ c, m.threadFile key = some c → c.coveredThrough ≤ next.coveredThrough)
    (hp : ∀ page, r.page = some page → PageSound w (m.saveThread r key next) page) :
    Sound w (m.saveThread r key next) ∧ Advances w m (m.saveThread r key next) := by
  refine h.advance (advances_saveThread hn hle) fun r' hr => ?_
  obtain rfl : { r with threads := Function.update r.threads key (some next) } = r' :=
    Option.some.inj hr
  exact ⟨memory_saveThread hm, hp⟩

lemma sound_endChannel (h : Sound w m) (hm : MemorySound m r) {next : ChannelCoverage}
    (hn : ChannelSound w m channel next)
    (hle : ∀ c, m.channelFile channel = some c → c.coveredThrough ≤ next.coveredThrough)
    (writes : Bool) : Sound w (m.endChannel r channel next writes) ∧
      Advances w m (m.endChannel r channel next writes) := by
  unfold Machine.endChannel
  split
  · exact sound_saveChannel h (r := { r with page := none }) ⟨hm.channels, hm.threads⟩ hn hle
      (by simp)
  · exact sound_leave h hm

lemma sound_endThread (h : Sound w m) (hm : MemorySound m r) {next : ThreadCoverage}
    (hn : ThreadSound w m key next)
    (hle : ∀ c, m.threadFile key = some c → c.coveredThrough ≤ next.coveredThrough)
    (writes : Bool) : Sound w (m.endThread r key next writes) ∧
      Advances w m (m.endThread r key next writes) := by
  unfold Machine.endThread
  split
  · exact sound_saveThread h (r := { r with page := none }) ⟨hm.channels, hm.threads⟩ hn hle
      (by simp)
  · exact sound_leave h hm

lemma page_saveChannel (hp : ∀ page, r.page = some page → PageSound w m page)
    {next : ChannelCoverage}
    (hn : ∀ c, m.channelFile channel = some c → next.coveredThrough = c.coveredThrough) :
    ∀ page, r.page = some page → PageSound w (m.saveChannel r channel next) page := by
  intro page hpage
  refine (hp page hpage).advance (Grows.of_record rfl rfl rfl rfl) ?_ fun key c hc => ⟨c, hc, rfl⟩
  intro channel' c hc
  by_cases he : channel' = channel
  · subst he
    exact ⟨next, by simp [Machine.saveChannel], hn c hc⟩
  · exact ⟨c, by simpa [Machine.saveChannel, he] using hc, rfl⟩

lemma page_of_record (hp : ∀ page, r.page = some page → PageSound w m page) {t : Machine}
    (hg : Grows m t) (hc : t.channelFile = m.channelFile) (ht : t.threadFile = m.threadFile) :
    ∀ page, r.page = some page → PageSound w t page := by
  intro page hpage
  exact (hp page hpage).advance hg (fun channel c hf => ⟨c, by rw [hc]; exact hf, rfl⟩)
    fun key c hf => ⟨c, by rw [ht]; exact hf, rfl⟩

lemma sound_initializeChannel (h : Sound w m) (hr : m.recovery = some r) (adoption : Bool)
    (receipts : List ℕ) (writes : Bool) :
    Sound w (m.initializeChannel r channel adoption receipts writes) ∧
      Advances w m (m.initializeChannel r channel adoption receipts writes) := by
  have hm := h.memory r hr
  have hp := h.page r hr
  unfold Machine.initializeChannel
  split
  · rename_i c hc
    refine h.recover (Grows.of_record rfl rfl rfl rfl) rfl rfl fun r' hr' => ?_
    obtain rfl := Option.some.inj hr'
    refine ⟨⟨fun channel' c' hc' => ?_, hm.threads⟩,
      page_of_record hp (Grows.of_record rfl rfl rfl rfl) rfl rfl⟩
    by_cases he : channel' = channel
    · subst he
      obtain rfl : c = c' := by simpa using hc'
      exact hc
    · exact hm.channels channel' c' (by simpa [he] using hc')
  · rename_i hc
    simp only
    split
    · refine sound_saveChannel h hm ?_ (by simp [hc]) (page_saveChannel hp (by simp [hc]))
      split
      · exact channelSound_first _ _ none
      · split
        · exact channelSound_first _ _ none
        · exact channelSound_first _ _ none
    · exact h.same

lemma sound_adoptRelayed (h : Sound w m) (hr : m.recovery = some r) (receivedAt : ℕ)
    (writes : Bool) : Sound w (m.adoptRelayed r channel receivedAt writes) ∧
      Advances w m (m.adoptRelayed r channel receivedAt writes) := by
  have hm := h.memory r hr
  have hp := h.page r hr
  unfold Machine.adoptRelayed
  split
  · rename_i hc
    simp only
    split
    · exact sound_saveChannel h hm (channelSound_first _ _ _) (by simp [hc])
        (page_saveChannel hp (by simp [hc]))
    · exact h.same
  · rename_i c hc
    split
    · refine h.recover (Grows.of_record rfl rfl rfl rfl) rfl rfl fun r' hr' => ?_
      obtain rfl := Option.some.inj hr'
      refine ⟨⟨fun channel' c' hc' => ?_, hm.threads⟩,
        page_of_record hp (Grows.of_record rfl rfl rfl rfl) rfl rfl⟩
      by_cases he : channel' = channel
      · subst he
        obtain rfl : c = c' := by simpa using hc'
        exact hc
      · exact hm.channels channel' c' (by simpa [he] using hc')
    · split
      · exact sound_saveChannel h hm ((h.channels channel c hc).congr rfl rfl rfl)
          (by simp [hc]) (page_saveChannel hp (by simp [hc]))
      · exact h.same

lemma sound_track (h : Sound w m) (hr : m.recovery = some r) (hpage : r.page = none) :
    Sound w (m.track r key) ∧ Advances w m (m.track r key) := by
  have hm := h.memory r hr
  refine h.recover (Grows.of_record rfl rfl rfl rfl) rfl rfl fun r' hr' => ?_
  obtain rfl := Option.some.inj hr'
  refine ⟨⟨hm.channels, fun key' c hc => ?_⟩, by simp [hpage]⟩
  by_cases he : key' = key
  · subst he
    obtain rfl : (m.threadFile key').getD (ThreadCoverage.first key'.2) = c := by simpa using hc
    cases hf : m.threadFile key' with
    | none => exact .inr ⟨rfl, rfl⟩
    | some c => exact .inl rfl
  · exact hm.threads key' c (by simpa [he] using hc)

lemma upperNow_settled (h : 0 < m.upperNow) : m.upperNow + 5000000 ≤ m.now * 1000 := by
  unfold Machine.upperNow at *
  have hnow : 5000 ≤ m.now := by
    by_contra hlt
    rw [Nat.sub_eq_zero_of_le (by omega)] at h
    simp at h
  calc (m.now - 5000) * 1000 + 5000 * 1000 = (m.now - 5000 + 5000) * 1000 :=
    (Nat.add_mul _ _ _).symm
    _ = m.now * 1000 := by rw [Nat.sub_add_cancel hnow]
    _ ≤ m.now * 1000 := le_refl _

lemma sound_beginChannel (h : Sound w m) (hr : m.recovery = some r) {b : Budget}
    {c : ChannelCoverage} (hc : r.channels channel = some c) (held writes : Bool) :
    Sound w (m.beginChannel r b channel c held writes) ∧
      Advances w m (m.beginChannel r b channel c held writes) := by
  have hm := h.memory r hr
  have hfile := hm.channels channel c hc
  have hs := h.channels channel c hfile
  unfold Machine.beginChannel
  simp only
  split
  · exact h.same
  split
  · exact h.same
  split
  · rename_i hpend
    split
    · exact h.same
    split
    · exact h.same
    split
    · rename_i hup _ _
      have hsettled := upperNow_settled (m := m) (by omega)
      have hnext : ChannelSound w m channel { c with
          nextRetryAt := none
          rateLimited := none
          pending := some { upper := m.upperNow, nextLatest := m.upperNow } } := by
        refine ⟨hs.start_le, ?_, hs.scanned, ?_⟩
        · intro p hp
          obtain rfl := Option.some.inj hp
          exact ⟨not_le.mp hup, le_refl _, hsettled⟩
        · intro p hp q _ _ h1 h2
          obtain rfl := Option.some.inj hp
          exact absurd h2 (not_lt.mpr h1)
      refine sound_saveChannel h ?_ hnext ?_ ?_
      · exact hm.congr rfl rfl
      · intro c' hc'
        rw [hfile] at hc'
        rw [Option.some.inj hc']
      intro page hp
      obtain rfl := Option.some.inj hp
      refine ⟨rfl, hnext.grow (Grows.of_record rfl rfl rfl rfl), ?_, hsettled⟩
      exact ⟨_, by simp [Machine.saveChannel], rfl⟩
    · exact h.same
  · rename_i p hpend
    split
    · exact h.same
    · refine h.recover (Grows.of_record rfl rfl rfl rfl) rfl rfl fun r' hr' => ?_
      obtain rfl := Option.some.inj hr'
      refine ⟨⟨hm.channels, hm.threads⟩, ?_⟩
      intro page hp
      obtain rfl := Option.some.inj hp
      exact ⟨hpend, hs.grow (Grows.of_record rfl rfl rfl rfl), ⟨c, hfile, rfl⟩,
        (hs.bounds p hpend).2.2⟩

lemma sound_beginThread (h : Sound w m) (hr : m.recovery = some r) {b : Budget} {c : ThreadCoverage}
    (hc : r.threads key = some c) (held writes : Bool) :
    Sound w (m.beginThread r b key c held writes) ∧
      Advances w m (m.beginThread r b key c held writes) := by
  have hm := h.memory r hr
  have hs : ThreadSound w m key c := by
    rcases hm.threads key c hc with hfile | ⟨-, rfl⟩
    · exact h.threads key c hfile
    · exact threadSound_first key
  unfold Machine.beginThread
  simp only
  split
  · exact h.same
  split
  · exact h.same
  split
  · rename_i hpend
    split
    · exact h.same
    split
    · exact h.same
    split
    · rename_i hup _ _
      have hsettled := upperNow_settled (m := m) (by omega)
      have hnext : ThreadSound w m key { c with
          nextRetryAt := none
          rateLimited := none
          pending := some m.upperNow } := by
        refine ⟨hs.start_le, ?_, hs.scanned⟩
        intro upper hu
        obtain rfl := Option.some.inj hu
        exact ⟨not_le.mp hup, hsettled⟩
      refine sound_saveThread h ?_ hnext ?_ ?_
      · exact hm.congr rfl rfl
      · intro c' hc'
        rcases hm.threads key c hc with hfile | ⟨hnone, -⟩
        · rw [hfile] at hc'
          rw [Option.some.inj hc']
        · simp [hnone] at hc'
      · intro page hp
        obtain rfl := Option.some.inj hp
        refine ⟨rfl, hnext.grow (Grows.of_record rfl rfl rfl rfl), ?_, hsettled⟩
        exact ⟨_, by simp [Machine.saveThread], rfl⟩
    · exact h.same
  · rename_i upper hpend
    split
    · exact h.same
    · refine h.recover (Grows.of_record rfl rfl rfl rfl) rfl rfl fun r' hr' => ?_
      obtain rfl := Option.some.inj hr'
      refine ⟨⟨hm.channels, hm.threads⟩, ?_⟩
      intro page hp
      obtain rfl := Option.some.inj hp
      refine ⟨hpend, hs.grow (Grows.of_record rfl rfl rfl rfl), ?_, (hs.bounds upper hpend).2⟩
      -- a thread never scanned has nothing pending
      rcases hm.threads key c hc with hfile | ⟨-, rfl⟩
      · exact ⟨c, hfile, rfl⟩
      · simp [ThreadCoverage.first] at hpend

lemma sound_respondChannel (h : Sound w m) (hr : m.recovery = some r) {c : ChannelCoverage}
    {p : Pending} {at_ limit : ℕ}
    (hpage : r.page = some (.channel channel c p (.calling at_ limit)))
    {response : Response} {writes : Bool} (ht : Truthful w m (.respond response writes)) :
    Sound w (m.respondChannel r channel c p response writes) ∧
      Advances w m (m.respondChannel r channel c p response writes) := by
  have hm := h.memory r hr
  obtain ⟨hpend, hs, ⟨c₀, hfile, heq⟩, hat⟩ := h.page r hr _ hpage
  cases response with
  | failed status error retryAfterSeconds =>
    refine sound_endChannel h hm ?_ ?_ writes
    · exact hs.congr rfl rfl rfl
    · intro c' hc'
      rw [hfile] at hc'
      exact (Option.some.inj hc' ▸ heq).le
  | page messages hasMore nextCursor isLimited =>
    simp only [Machine.respondChannel]
    split
    · exact sound_leave h hm
    · rename_i posts more hvalid
      split
      · exact sound_leave h hm
      · rename_i hmore
        refine h.recover (Grows.of_record rfl rfl rfl rfl) rfl rfl fun r' hr' => ?_
        obtain rfl := Option.some.inj hr'
        refine ⟨⟨hm.channels, hm.threads⟩, ?_⟩
        intro page hp
        obtain rfl := Option.some.inj hp
        have htruth := ht r hr
        simp only [hpage] at htruth
        obtain ⟨visible, hv, hn⟩ := htruth posts more hvalid
        refine ⟨hpend, ?_, ⟨c₀, hfile, heq⟩, ?_⟩
        · refine ChannelSound.congr (c := c) ?_ rfl rfl rfl
          exact hs.grow (Grows.of_record rfl rfl rfl rfl)
        · exact ChannelStage.grow (m := m) (Grows.of_record rfl rfl rfl rfl)
            (channelStage_landing (hs.bounds p hpend).2.1 hat hv hn (historyPage_bounds hvalid)
              hmore)

lemma sound_respondThread (h : Sound w m) (hr : m.recovery = some r) {threadTs : ℕ}
    {c : ThreadCoverage} {upper at_ limit : ℕ}
    (hpage : r.page = some (.thread channel threadTs c upper (.calling at_ limit)))
    {response : Response} {writes : Bool} (ht : Truthful w m (.respond response writes)) :
    Sound w (m.respondThread r (channel, threadTs) c upper limit response writes) ∧
      Advances w m (m.respondThread r (channel, threadTs) c upper limit response writes) := by
  have hm := h.memory r hr
  obtain ⟨hpend, hs, ⟨c₀, hfile, heq⟩, hat⟩ := h.page r hr _ hpage
  cases response with
  | failed status error retryAfterSeconds =>
    simp only [Machine.respondThread]
    split
    · exact sound_leave h hm
    · refine sound_endThread h hm ?_ ?_ writes
      · exact hs.congr rfl rfl rfl
      · intro c' hc'
        rw [hfile] at hc'
        exact (Option.some.inj hc' ▸ heq).le
  | page messages hasMore nextCursor isLimited =>
    simp only [Machine.respondThread]
    split
    · exact sound_leave h hm
    · rename_i replies more hvalid
      split
      · exact sound_leave h hm
      · rename_i hmore
        refine h.recover (Grows.of_record rfl rfl rfl rfl) rfl rfl fun r' hr' => ?_
        obtain rfl := Option.some.inj hr'
        refine ⟨⟨hm.channels, hm.threads⟩, ?_⟩
        intro page hp
        obtain rfl := Option.some.inj hp
        have htruth := ht r hr
        simp only [hpage] at htruth
        obtain ⟨visible, hv, hn⟩ := htruth replies more hvalid
        refine ⟨hpend, hs.grow (Grows.of_record rfl rfl rfl rfl), ⟨c₀, hfile, heq⟩, ?_⟩
        exact ThreadStage.grow (m := m) (Grows.of_record rfl rfl rfl rfl)
          (threadStage_landing hat hv hn (repliesPage_bounds hvalid) hmore)

/-- **One message of a page**: passed over or handled when the page goes on. -/
lemma sound_landNext (h : Sound w m) (hr : m.recovery = some r) {b : Budget} {event : String × ℕ}
    {skipped : Bool} {landing : Landing} {page : Page}
    (hpage : ∀ m', Grows m m' → m'.channelFile = m.channelFile → m'.threadFile = m.threadFile →
      (skipped = false → Handled m' event) → PageSound w m' page) :
    Sound w (m.landNext r b event skipped landing page) ∧
      Advances w m (m.landNext r b event skipped landing page) := by
  have hm := h.memory r hr
  obtain ⟨hrc, hrt, -⟩ := route_files m event landing
  have hgrows := route_grows m event landing
  unfold Machine.landNext
  split
  · exact sound_leave h hm
  · simp only
    split
    · rename_i hskip
      refine h.recover (Grows.of_record rfl rfl rfl rfl) rfl rfl fun r' hr' => ?_
      obtain rfl := Option.some.inj hr'
      refine ⟨⟨hm.channels, hm.threads⟩, fun page' hp => ?_⟩
      obtain rfl := Option.some.inj hp
      exact hpage _ (Grows.of_record rfl rfl rfl rfl) rfl rfl (by simp [hskip])
    split
    · rename_i hsettles
      have hrecord : Grows (m.route event landing) { m.route event landing with
          recovery := some { r with
            budget := some { b with entries := b.entries + 1 }
            page := some page } } := Grows.of_record rfl rfl rfl rfl
      refine h.recover (hgrows.trans hrecord) hrc hrt fun r' hr' => ?_
      obtain rfl := Option.some.inj hr'
      refine ⟨⟨hm.channels, hm.threads⟩, fun page' hp => ?_⟩
      obtain rfl := Option.some.inj hp
      exact hpage _ (hgrows.trans hrecord) hrc hrt
        fun _ => hrecord.handled _ (handled_of_settles hsettles)
    · refine h.recover (hgrows.trans (Grows.of_record rfl rfl rfl rfl)) hrc hrt fun r' hr' => ?_
      obtain rfl := Option.some.inj hr'
      exact ⟨⟨hm.channels, hm.threads⟩, by simp⟩

lemma page_nextChannel {c : ChannelCoverage} {p : Pending} {ordered rest : List Post} {q : Post}
    {more : Bool} (hp : PageSound w m (.channel channel c p (.landing ordered (q :: rest) more)))
    (hg : Grows m m') (hf : m'.channelFile = m.channelFile)
    (hq : skippedInChannel q = false → Handled m' (channel, q.ts)) :
    PageSound w m' (.channel channel c p (.landing ordered rest more)) := by
  obtain ⟨hpend, hs, ⟨c₀, hfile, heq⟩, hasc, hall, hdone, hbound, hmore⟩ := hp
  refine ⟨hpend, hs.grow hg, ⟨c₀, by rw [hf]; exact hfile, heq⟩, hasc, hall, ?_, hbound, hmore⟩
  intro q' hq' hn hs'
  by_cases he : q' = q
  · subst he
    exact hq hs'
  · exact hg.handled _ (hdone q' hq' (by simp [he, hn]) hs')

lemma page_nextThread {threadTs : ℕ} {c : ThreadCoverage} {upper : ℕ} {ordered rest : List Post}
    {q : Post} {more : Bool}
    (hp : PageSound w m (.thread channel threadTs c upper (.landing ordered (q :: rest) more)))
    (hg : Grows m m') (hf : m'.threadFile = m.threadFile)
    (hq : skippedInThread q = false → Handled m' (channel, q.ts)) :
    PageSound w m' (.thread channel threadTs c upper (.landing ordered rest more)) := by
  obtain ⟨hpend, hs, ⟨c₀, hfile, heq⟩, hasc, hall, hdone, hbound, hmore⟩ := hp
  refine ⟨hpend, hs.grow hg, ⟨c₀, by rw [hf]; exact hfile, heq⟩, hasc, hall, ?_, hbound, hmore⟩
  intro q' hq' hn hs'
  by_cases he : q' = q
  · subst he
    exact hq hs'
  · exact hg.handled _ (hdone q' hq' (by simp [he, hn]) hs')

lemma sound_finishChannel (h : Sound w m) (hr : m.recovery = some r) {c : ChannelCoverage}
    {p : Pending} {ordered : List Post} {more : Bool}
    (hpage : r.page = some (.channel channel c p (.landing ordered [] more))) (writes : Bool) :
    Sound w (m.finishChannel r channel c p ordered more writes) ∧
      Advances w m (m.finishChannel r channel c p ordered more writes) := by
  have hm := h.memory r hr
  obtain ⟨hpend, hs, ⟨c₀, hfile, heq⟩, hasc, hall, hdone, hbound, hmore⟩ := h.page r hr _ hpage
  obtain ⟨hlt, hle, hsettled⟩ := hs.bounds p hpend
  have hdone' : ∀ q ∈ ordered, skippedInChannel q = false → Handled m (channel, q.ts) :=
    fun q hq => hdone q hq (by simp)
  unfold Machine.finishChannel
  cases more with
  | false =>
    simp only [Bool.not_false, if_true]
    refine sound_endChannel h hm ⟨?_, by simp, ?_, by simp⟩ ?_ writes
    · have := hs.start_le
      simp only
      omega
    · intro q hq hskip h1 h2
      simp only at h1 h2
      -- below the old bound, on the page, or scanned by an earlier page
      by_cases hold : q.ts < c.coveredThrough
      · exact hs.scanned q hq hskip h1 hold
      by_cases hnew : q.ts < p.nextLatest
      · rcases hall q hq (by omega) hnew with hmem | ⟨hf, -⟩
        · exact hdone' q hmem hskip
        · simp at hf
      · exact hs.pendingScanned p hpend q hq hskip (by omega) h2
    · intro c' hc'
      rw [hfile] at hc'
      obtain rfl := Option.some.inj hc'
      simp only
      omega
  | true =>
    obtain ⟨q₀, hhead, hprogress⟩ := hmore rfl
    have hq₀ : q₀ ∈ ordered := List.mem_of_mem_head? (by simp [hhead])
    simp only [Bool.not_true, Bool.false_eq_true, if_false, hhead, Option.map_some,
      Option.getD_some]
    refine sound_endChannel h hm ?_ ?_ writes
    · refine ⟨hs.start_le, ?_, hs.scanned, ?_⟩
      · intro p' hp'
        obtain rfl := Option.some.inj hp'
        have := hbound q₀ hq₀
        exact ⟨hprogress, by simp only; omega, hsettled⟩
      · intro p' hp' q hq hskip h1 h2
        obtain rfl := Option.some.inj hp'
        simp only at h1 h2
        by_cases hnew : q.ts < p.nextLatest
        · rcases hall q hq (by omega) hnew with hmem | ⟨-, holder⟩
          · exact hdone' q hmem hskip
          · have := holder q₀ hq₀
            omega
        · exact hs.pendingScanned p hpend q hq hskip (by omega) h2
    · intro c' hc'
      rw [hfile] at hc'
      obtain rfl := Option.some.inj hc'
      exact heq.le

lemma sound_finishThread (h : Sound w m) (hr : m.recovery = some r) {threadTs : ℕ}
    {c : ThreadCoverage} {upper : ℕ} {ordered : List Post} {more : Bool}
    (hpage : r.page = some (.thread channel threadTs c upper (.landing ordered [] more)))
    (writes : Bool) :
    Sound w (m.finishThread r (channel, threadTs) c upper ordered more writes) ∧
      Advances w m (m.finishThread r (channel, threadTs) c upper ordered more writes) := by
  have hm := h.memory r hr
  obtain ⟨hpend, hs, ⟨c₀, hfile, heq⟩, hasc, hall, hdone, hbound, hmore⟩ := h.page r hr _ hpage
  obtain ⟨hlt, hsettled⟩ := hs.bounds upper hpend
  have hdone' : ∀ q ∈ ordered, skippedInThread q = false → Handled m (channel, q.ts) :=
    fun q hq => hdone q hq (by simp)
  -- everything below `through` was handled, however the page ended
  obtain ⟨through, hthrough, hge, hcovered⟩ : ∃ through,
      (if more then (ordered.getLast?.map (·.ts)).getD c.coveredThrough + 1 else upper) = through ∧
      c.coveredThrough ≤ through ∧ ∀ q ∈ w.replies (channel, threadTs), skippedInThread q = false →
        c.coveredThrough ≤ q.ts → q.ts < through → q.ts < upper → Handled m (channel, q.ts) := by
    cases more with
    | false =>
      refine ⟨upper, rfl, by omega, fun q hq hskip h1 h2 _ => ?_⟩
      rcases hall q hq h1 h2 with hmem | ⟨hf, -⟩
      · exact hdone' q hmem hskip
      · simp at hf
    | true =>
      obtain ⟨q₀, hlast⟩ : ∃ q₀, ordered.getLast? = some q₀ :=
        ⟨_, List.getLast?_eq_some_getLast (hmore rfl)⟩
      have hq₀ : q₀ ∈ ordered := List.mem_of_getLast? hlast
      have := hbound q₀ hq₀
      refine ⟨q₀.ts + 1, by simp [hlast], by omega, fun q hq hskip h1 h2 h3 => ?_⟩
      rcases hall q hq h1 h3 with hmem | ⟨-, hnewer⟩
      · exact hdone' q hmem hskip
      · have := hnewer q₀ hq₀
        omega
  unfold Machine.finishThread
  simp only [hthrough]
  split
  · rename_i hend
    refine sound_endThread h hm ⟨?_, by simp, ?_⟩ ?_ writes
    · have := hs.start_le
      simp only
      omega
    · intro q hq hskip h1 h2
      simp only at h1 h2
      by_cases hold : q.ts < c.coveredThrough
      · exact hs.scanned q hq hskip h1 hold
      · exact hcovered q hq hskip (by omega) (by omega) h2
    · intro c' hc'
      rw [hfile] at hc'
      obtain rfl := Option.some.inj hc'
      simp only
      omega
  · rename_i hend
    refine sound_endThread h hm ⟨?_, ?_, ?_⟩ ?_ writes
    · have := hs.start_le
      simp only
      omega
    · intro upper' hu
      obtain rfl : upper = upper' := Option.some.inj (hpend.symm.trans hu)
      exact ⟨by simp only; omega, hsettled⟩
    · intro q hq hskip h1 h2
      simp only at h1 h2
      by_cases hold : q.ts < c.coveredThrough
      · exact hs.scanned q hq hskip h1 hold
      · exact hcovered q hq hskip (by omega) h2 (by omega)
    · intro c' hc'
      rw [hfile] at hc'
      obtain rfl := Option.some.inj hc'
      simp only
      omega

/-- **A step keeps every checkpoint sound**, and covers no less. -/
lemma sound_step {l : Label} {t : Machine} (h : Sound w m) (hstep : step m l = some t)
    (ht : Truthful w m l) : Sound w t ∧ Advances w m t := by
  have hrecord : ∀ {m t : Machine}, t.now = m.now → t.seen = m.seen →
      t.deadLettered = m.deadLettered → t.refused = m.refused → Grows m t := Grows.of_record
  cases l with
  | tick ms =>
    obtain rfl := Option.some.inj hstep
    have hg : Grows m { m with now := m.now + ms } := ⟨Nat.le_add_right _ _, fun _ he => he⟩
    exact h.recover hg rfl rfl fun r hr => ⟨h.memory r hr, page_of_record (h.page r hr) hg rfl rfl⟩
  | live event landing =>
    obtain rfl := Option.some.inj hstep
    obtain ⟨hc, hth, hrec⟩ := route_files m event landing
    refine h.recover (route_grows m event landing) hc hth fun r hr => ?_
    rw [hrec] at hr
    exact ⟨h.memory r hr, page_of_record (h.page r hr) (route_grows m event landing) hc hth⟩
  | start =>
    obtain rfl := Option.some.inj hstep
    refine h.recover (hrecord rfl rfl rfl rfl) rfl rfl fun r hr => ?_
    obtain rfl := Option.some.inj hr
    exact ⟨⟨by simp, by simp⟩, by simp⟩
  | stop =>
    obtain rfl := Option.some.inj hstep
    exact h.recover (hrecord rfl rfl rfl rfl) rfl rfl (by simp)
  | initializeChannel channel adoption receipts writes =>
    simp only [step, bind, Option.bind_eq_some_iff, Option.ite_none_right_eq_some,
      Option.some.injEq] at hstep
    obtain ⟨r, hr, -, rfl⟩ := hstep
    exact sound_initializeChannel h hr adoption receipts writes
  | adoptRelayed channel receivedAt writes =>
    simp only [step, bind, Option.bind_eq_some_iff, Option.ite_none_right_eq_some,
      Option.some.injEq] at hstep
    obtain ⟨r, hr, -, rfl⟩ := hstep
    exact sound_adoptRelayed h hr receivedAt writes
  | track key =>
    simp only [step, bind, Option.bind_eq_some_iff, Option.ite_none_right_eq_some,
      Option.some.injEq, Option.isNone_iff_eq_none] at hstep
    obtain ⟨r, hr, hpage, rfl⟩ := hstep
    exact sound_track h hr hpage
  | pass =>
    simp only [step, bind, Option.bind_eq_some_iff, Option.ite_none_right_eq_some,
      Option.some.injEq, Option.isNone_iff_eq_none] at hstep
    obtain ⟨r, hr, hpage, rfl⟩ := hstep
    refine h.recover (hrecord rfl rfl rfl rfl) rfl rfl fun r' hr' => ?_
    obtain rfl := Option.some.inj hr'
    exact ⟨(h.memory r hr).congr rfl rfl, by simp [hpage]⟩
  | channel channel held writes =>
    simp only [step, bind, Option.bind_eq_some_iff, Option.ite_none_right_eq_some,
      Option.some.injEq, Option.isNone_iff_eq_none] at hstep
    obtain ⟨r, hr, b, -, c, hc, -, rfl⟩ := hstep
    exact sound_beginChannel h hr hc held writes
  | thread key held writes =>
    simp only [step, bind, Option.bind_eq_some_iff, Option.ite_none_right_eq_some,
      Option.some.injEq, Option.isNone_iff_eq_none] at hstep
    obtain ⟨r, hr, b, -, c, hc, -, rfl⟩ := hstep
    exact sound_beginThread h hr hc held writes
  | respond response writes =>
    simp only [step, bind, Option.bind_eq_some_iff] at hstep
    obtain ⟨r, hr, hstep⟩ := hstep
    split at hstep
    · rename_i hpage
      obtain rfl := Option.some.inj hstep
      exact sound_respondChannel h hr hpage ht
    · rename_i hpage
      obtain rfl := Option.some.inj hstep
      exact sound_respondThread h hr hpage ht
    · simp at hstep
  | next landing =>
    simp only [step, bind, Option.bind_eq_some_iff] at hstep
    obtain ⟨r, hr, b, -, hstep⟩ := hstep
    split at hstep
    · rename_i hpage
      obtain rfl := Option.some.inj hstep
      exact sound_landNext h hr fun m' hg hc _ hq =>
        page_nextChannel (h.page r hr _ hpage) hg hc hq
    · rename_i hpage
      obtain rfl := Option.some.inj hstep
      exact sound_landNext h hr fun m' hg _ hth hq =>
        page_nextThread (h.page r hr _ hpage) hg hth hq
    · simp at hstep
  | finish writes =>
    simp only [step, bind, Option.bind_eq_some_iff] at hstep
    obtain ⟨r, hr, hstep⟩ := hstep
    split at hstep
    · rename_i hpage
      obtain rfl := Option.some.inj hstep
      exact sound_finishChannel h hr hpage writes
    · rename_i hpage
      obtain rfl := Option.some.inj hstep
      exact sound_finishThread h hr hpage writes
    · simp at hstep

/-! ### Runs -/

/-- A machine with no checkpoints, whatever has landed on it. -/
def fresh (now : ℕ) (seen deadLettered refused : List (String × ℕ)) : Machine :=
  { now, seen, deadLettered, refused }

lemma sound_fresh (now : ℕ) (seen deadLettered refused : List (String × ℕ)) :
    Sound w (fresh now seen deadLettered refused) := by
  refine ⟨⟨?_, ?_⟩, ?_, ?_⟩ <;> simp [fresh]

/-- **Coverage means really scanned**: in every run in which Slack's valid pages are what it
promises, each saved checkpoint is no further than what was seen, dead-lettered or refused, and no
step moves one back. -/
theorem coverage_was_scanned (w : Workspace) {now : ℕ}
    {seen deadLettered refused : List (String × ℕ)}
    {ls : List Label} {m : Machine}
    (h : Path (fun m l m' => step m l = some m' ∧ Truthful w m l)
      (fresh now seen deadLettered refused) ls m) :
    (∀ channel c, m.channelFile channel = some c → ChannelSound w m channel c) ∧
    (∀ key c, m.threadFile key = some c → ThreadSound w m key c) ∧
    ∀ l m', step m l = some m' → Truthful w m l →
      (∀ channel c, m.channelFile channel = some c →
        ∃ c', m'.channelFile channel = some c' ∧ c.coveredThrough ≤ c'.coveredThrough) ∧
      ∀ key c, m.threadFile key = some c →
        ∃ c', m'.threadFile key = some c' ∧ c.coveredThrough ≤ c'.coveredThrough := by
  have hs : Sound w m :=
    Path.invariant (I := fun m => Sound w m) (fun _ _ _ h hs => (sound_step hs h.1 h.2).1) h
      (sound_fresh now seen deadLettered refused)
  refine ⟨hs.channels, hs.threads, fun l m' hstep ht => ?_⟩
  have ha := (sound_step hs hstep ht).2
  constructor
  · intro channel c hc
    rcases ha.channels channel with he | ⟨c', hc', -, hle⟩
    · exact ⟨c, he ▸ hc, le_refl _⟩
    · exact ⟨c', hc', hle c hc⟩
  · intro key c hc
    rcases ha.threads key with he | ⟨c', hc', -, hle⟩
    · exact ⟨c, he ▸ hc, le_refl _⟩
    · exact ⟨c', hc', hle c hc⟩

lemma truthful_of_newest {c : ChannelCoverage} {p : Pending} {at_ limit : ℕ} {writes : Bool}
    {messages : Option (List (Option Post))} {hasMore : Field Bool} {nextCursor : Field String}
    {isLimited : Bool} {posts : List Post} {more : Bool} (hr : m.recovery = some r)
    (hp : r.page = some (.channel channel c p (.calling at_ limit)))
    (hpage : historyPage c.coveredThrough p.nextLatest messages hasMore nextCursor =
      some (posts, more))
    (h : Newest (w.history channel) (c.coveredThrough - 1) p.nextLatest posts more) :
    Truthful w m (.respond (.page messages hasMore nextCursor isLimited) writes) := by
  intro r' hr'
  obtain rfl := Option.some.inj (hr.symm.trans hr')
  rw [hp]
  intro posts' more' hpage'
  obtain ⟨rfl, rfl⟩ := Prod.mk.inj (Option.some.inj (hpage.symm.trans hpage'))
  exact ⟨w.history channel, ⟨Set.Subset.refl _, fun _ hq _ => hq⟩, h⟩

lemma step_respond_one {c : ChannelCoverage} {p : Pending} {at_ limit : ℕ} {writes : Bool}
    {messages : Option (List (Option Post))} {hasMore : Field Bool} {nextCursor : Field String}
    {isLimited : Bool} {q : Post} {more : Bool} (hr : m.recovery = some r)
    (hp : r.page = some (.channel channel c p (.calling at_ limit)))
    (hpage : historyPage c.coveredThrough p.nextLatest messages hasMore nextCursor =
      some ([q], more)) (hq : c.coveredThrough < q.ts) :
    step m (.respond (.page messages hasMore nextCursor isLimited) writes) =
      some { m with recovery := some { r with page := some (
        .channel channel { c with historyLimited := c.historyLimited || isLimited } p
          (.landing [q] [q] more)) } } := by
  have hordered : oldestFirst [q] = [q] := List.mergeSort_singleton q
  have hstays : (more && ([q].head?.all fun x => decide (x.ts ≤ c.coveredThrough))) = false := by
    simp [hq]
  simp only [step, hr, hp, Option.bind_eq_bind, Option.bind_some, Machine.respondChannel, hpage,
    hordered, hstays]
  rfl

/-- A message of a person, at a number of seconds. -/
def hello (seconds : ℕ) : Post :=
  { ts := seconds * 1000000, user := some "U1", text := some "hello" }

def twoPosts : Workspace where
  history _ := {hello 2, hello 4}
  replies _ := ∅
  historyPositive _ q h := by
    rcases h with rfl | rfl <;> simp [hello]
  repliesPositive _ _ h := absurd h (Set.notMem_empty _)

lemma newest_first : Newest (twoPosts.history "C1") 0 5000000 [hello 4] true := by
  refine ⟨fun q hq => ?_, fun q hq hnot p hp => ?_, fun _ => ?_, fun _ => rfl⟩
  · obtain rfl := List.mem_singleton.mp hq
    exact ⟨.inr rfl, by decide, by decide⟩
  · obtain rfl := List.mem_singleton.mp hp
    rcases hq.1 with rfl | rfl
    · decide
    · exact absurd List.mem_cons_self hnot
  · exact ⟨hello 2, ⟨.inl rfl, by decide, by decide⟩, by decide⟩

lemma newest_second : Newest (twoPosts.history "C1") 0 4000000 [hello 2] false := by
  have honly : ∀ q ∈ within (twoPosts.history "C1") 0 4000000, q = hello 2 := fun q hq => by
    rcases hq.1 with rfl | rfl
    · rfl
    · exact absurd hq.2.2 (by decide)
  refine ⟨fun q hq => ?_, fun q hq hnot => ?_, (nomatch ·), fun ⟨q, hq, hnot⟩ => ?_⟩
  · obtain rfl := List.mem_singleton.mp hq
    exact ⟨.inl rfl, by decide, by decide⟩
  · exact absurd (List.mem_singleton.mpr (honly q hq)) hnot
  · exact absurd (List.mem_singleton.mpr (honly q hq)) hnot

/-- A channel adopted and scanned over two pages, a message on each; Slack limits the rate once. -/
def twoPages : List Label :=
  [.start, .initializeChannel "C1" true [] true, .tick 10000, .pass, .channel "C1" false true,
    .respond (.failed 429 "ratelimited" (some 1)) true, .tick 2000, .channel "C1" false true,
    .respond (.page (some [some (hello 4)]) (.value true) (.value "next") false) true,
    .next .accepted, .finish true, .channel "C1" false true,
    .respond (.page (some [some (hello 2)]) (.value false) .absent false) true,
    .next .deadLettered, .finish true]

theorem coverage_was_scanned_twoPages :
    ∃ m c, Path (fun m l m' => step m l = some m' ∧ Truthful twoPosts m l) (fresh 0 [] [] [])
        twoPages m ∧ m.channelFile "C1" = some c ∧ c.coveredThrough = 5000000 ∧
      m.seen = [("C1", 4000000)] ∧ m.deadLettered = [("C1", 2000000)] ∧
      ChannelSound twoPosts m "C1" c := by
  have hpath : Path (fun m l m' => step m l = some m' ∧ Truthful twoPosts m l) (fresh 0 [] [] [])
      twoPages _ :=
    .cons ⟨rfl, trivial⟩ (.cons ⟨rfl, trivial⟩ (.cons ⟨rfl, trivial⟩ (.cons ⟨rfl, trivial⟩
      (.cons ⟨rfl, trivial⟩ (.cons ⟨rfl, trivial⟩ (.cons ⟨rfl, trivial⟩ (.cons ⟨rfl, trivial⟩
      (.cons ⟨step_respond_one rfl rfl rfl (by decide), truthful_of_newest rfl rfl rfl newest_first⟩
        (.cons ⟨rfl, trivial⟩
      (.cons ⟨rfl, trivial⟩ (.cons ⟨rfl, trivial⟩
      (.cons ⟨step_respond_one rfl rfl rfl (by decide),
        truthful_of_newest rfl rfl rfl newest_second⟩ (.cons ⟨rfl, trivial⟩
      (.cons ⟨rfl, trivial⟩ (.nil _)))))))))))))))
  exact ⟨_, _, hpath, rfl, rfl, rfl, rfl, (coverage_was_scanned twoPosts hpath).1 "C1" _ rfl⟩

end OpenRig.SlackRecovery
