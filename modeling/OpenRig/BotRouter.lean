import OpenRig.BotInbox
import OpenRig.Runs

/-!
The routers of the bot inbox, and the retained copies of the posts whose row is still owed.

An attempt stands at one of its awaits: the lookup of the bot, the notice of a cutoff, the creation
of the row, or its return to the caller that records it. A rewire builds a router with a limiter of
its own; the routers of before still finish what they began, over the same files.
-/

namespace OpenRig.BotRouter

open OpenRig.BotInbox OpenRig.PersonWords OpenRig.SecretRedaction

/-! ### State -/

/-- The answer of `bots.info`. -/
inductive BotLookup where
  | app (appId : Text)
  | failed (retryable : Bool)
  deriving DecidableEq

inductive Disposition where
  | accepted | ignored | refused | handlerFailed
  deriving DecidableEq

inductive Reason where
  | bot_id | channel | type | subtype | emptyText | dup | inflight | botLookupFailed | ownApp
  | unnamedBot | retainedUnreadable | botCutOff | createFailed | bot
  deriving DecidableEq

/-- What `attemptBot` returns. -/
structure Result where
  status : Disposition
  reason : Reason
  admitted : Bool := false
  deriving DecidableEq

structure DeadLetterEntry where
  ev : SlackEvent
  time : Time
  attempts : ℕ
  deriving DecidableEq

def DeadLetterEntry.bump (e : DeadLetterEntry) : DeadLetterEntry :=
  { e with attempts := e.attempts + 1 }

/-- A copy that marks its post as admitted and still owed. -/
def DeadLetterEntry.marked (e : DeadLetterEntry) : Bool :=
  (present e.ev.bot_id).isSome && e.ev.botAdmitted

/-- Where an attempt stands, with the row that is being created. -/
inductive Stage where
  | lookup
  | found (answer : BotLookup)
  | notice (bot : NamedBot) (now : Time) (row : Row)
  | create (row : Row)
  | returned (result : Result)
  | done
  deriving DecidableEq

/-- An attempt at a post, for `routeBot` or for a retry pass at its retained copy. -/
structure Handler where
  router : ℕ
  ev : SlackEvent
  retained : Option DeadLetterEntry
  stage : Stage
  deriving DecidableEq

/-- A retry pass. `owedBots` is read off the snapshot; `working` tells that an attempt is
awaited. -/
structure Pass where
  entries : List DeadLetterEntry
  todo : List DeadLetterEntry
  stillFailing : List DeadLetterEntry := []
  owedBots : List Text
  working : Bool := false

/-- A router. `inflight` holds the posts of its bot attempts, `others` what its other handlers
hold. -/
structure Router where
  botInbox : Option BotInboxConfig
  inflight : List Text := []
  others : List Text := []
  botApps : Text → Option Text := fun _ => none
  botLookups : List Text := []
  botNoticeAt : Text → Option Time := fun _ => none
  owedBots : Option (List Text) := none
  owedBotsGeneration : ℤ := -1
  botLimiter : BotLimiter := {}
  retryPass : Option Pass := none

inductive Logged where
  | charged (router : ℕ) (appId : Text) (admission : Admission)
  | cutOff (handler router : ℕ) (post : Text)
  | row (handler : ℕ) (row : Row)
  | notice (row : Row)
  deriving DecidableEq

/-- The files, the routers built so far and their attempts. -/
structure World where
  now : Time
  deadLetter : List DeadLetterEntry := []
  writeGeneration : ℕ := 0
  seen : List Text := []
  routers : ℕ → Option Router := fun _ => none
  handlers : ℕ → Option Handler := fun _ => none
  history : List Logged := []

def World.setRouter (w : World) (r : ℕ) (ro : Router) : World :=
  { w with routers := Function.update w.routers r (some ro) }

def World.setHandler (w : World) (h : ℕ) (H : Handler) : World :=
  { w with handlers := Function.update w.handlers h (some H) }

/-! ### The retained file -/

def World.append (w : World) (ev : SlackEvent) (attempts : ℕ) : World :=
  { w with
    deadLetter := w.deadLetter ++ [⟨ev, w.now, attempts⟩]
    writeGeneration := w.writeGeneration + 1 }

def World.readAll (w : World) (readable : Bool) : List DeadLetterEntry :=
  if readable then w.deadLetter else []

/-- The file keeps what was appended since the snapshot, occurrence by occurrence. -/
def World.replaceBatch (w : World) (processed remaining : List DeadLetterEntry)
    (readable : Bool) : World :=
  if readable then
    { w with
      deadLetter := remaining ++ w.deadLetter.diff processed
      writeGeneration := w.writeGeneration + 1 }
  else w

/-! ### One attempt -/

/-- An attempt after some synchronous steps: its router, where it stands, and what is logged. -/
structure Progress where
  router : Router
  stage : Stage
  logged : List Logged := []

/-- The identities a list of retained copies marks as owed. -/
def owedBotAdmissions (entries : List DeadLetterEntry) : List Text :=
  (entries.filter (·.marked)).map fun e => inboundEventId e.ev

/-- The router's owed set; none while the file can't be read. -/
def loadOwedBots (w : World) (ro : Router) (readable : Bool) : Router × Option (List Text) :=
  match ro.owedBots, decide ((w.writeGeneration : ℤ) = ro.owedBotsGeneration) with
  | some owed, true => (ro, some owed)
  | _, _ =>
    if readable then
      let owed := owedBotAdmissions w.deadLetter
      ({ ro with owedBots := some owed, owedBotsGeneration := w.writeGeneration }, some owed)
    else (ro, none)

/-- The end of an attempt, which lets go of its post. -/
def Router.finally (ro : Router) (ev : SlackEvent) (result : Result) : Progress where
  router := { ro with inflight := ro.inflight.filter (· ≠ inboundEventId ev) }
  stage := .returned result

/-- The inbox that hears an event, or why it is dropped before its bot is looked up. -/
def heard (w : World) (ro : Router) (ev : SlackEvent) : Except Reason BotInboxConfig :=
  match ro.botInbox, present ev.bot_id with
  | some inbox, some _ =>
    if ev.channel ≠ some inbox.channel then .error .channel
    else if ev.type ≠ some (unitsOf "message") ∧ ev.type ≠ some (unitsOf "app_mention") then
      .error .type
    else if (present ev.subtype).isSome ∧ ev.subtype ≠ some (unitsOf "bot_message") then
      .error .subtype
    else if trim (ev.text.getD []) = [] ∧ ev.files = [] then .error .emptyText
    else if present ev.ts = none ∨ inboundEventId ev ∈ w.seen then .error .dup
    else if inboundEventId ev ∈ ro.inflight ∨ inboundEventId ev ∈ ro.others then .error .inflight
    else .ok inbox
  | _, _ => .error .bot_id

/-- The bot of an app, unless its posts are not delivered. -/
def namedBot (inbox : BotInboxConfig) (ev : SlackEvent) (appId : Text) : Except Reason NamedBot :=
  if present ev.receivingAppId = none ∨ some appId = ev.receivingAppId then .error .ownApp
  else
    match inbox.bots.find? (·.appId = appId) with
    | some bot => .ok bot
    | none => .error .unnamedBot

structure Call where
  handler : ℕ
  router : ℕ
  ev : SlackEvent
  /-- The set of a retry pass. -/
  owed : Option (List Text)
  /-- Whether the retained file can be read now. -/
  readable : Bool

variable (env : Env) (w : World) (ro : Router) (c : Call)

/-- A cutoff that begins now is told to the seat, at most once an hour. -/
def noticeCutoff (inbox : BotInboxConfig) (bot : NamedBot) (till : Time) : Progress :=
  match ro.botNoticeAt bot.appId with
  | some last =>
    if w.now - last < HOUR_MS then ro.finally c.ev ⟨.refused, .botCutOff, false⟩
    else ⟨ro, .notice bot w.now (cutoffRow env inbox bot till), []⟩
  | none => ⟨ro, .notice bot w.now (cutoffRow env inbox bot till), []⟩

/-- The limiter's answer for a post. -/
def askLimiter (inbox : BotInboxConfig) (bot : NamedBot) : Progress :=
  let post := inboundEventId c.ev
  let counted := (ro.botLimiter.recentOf w.now bot).any (·.post = post)
  match ro.botLimiter.check w.now bot post with
  | (limiter, .taken) =>
    { router := { ro with botLimiter := limiter }
      stage := .create (botRow env inbox bot c.ev)
      logged := if counted then [] else [.charged c.router bot.appId ⟨w.now, post⟩] }
  | (limiter, .refuse till tripped) =>
    let ro := { ro with botLimiter := limiter }
    let p := if tripped then noticeCutoff env w ro c inbox bot till
      else ro.finally c.ev ⟨.refused, .botCutOff, false⟩
    { p with logged := [.cutOff c.handler c.router post] }

/-- The set an attempt consults: its pass's, or else the router's. -/
def known : Router × Option (List Text) :=
  match c.owed with
  | some owed => (ro, some owed)
  | none => loadOwedBots w ro c.readable

def admission (inbox : BotInboxConfig) (bot : NamedBot) : Progress :=
  if c.ev.botAdmitted then ⟨ro, .create (botRow env inbox bot c.ev), []⟩
  else
    match known w ro c with
    | (ro, none) => ro.finally c.ev ⟨.handlerFailed, .retainedUnreadable, false⟩
    | (ro, some known) =>
      if inboundEventId c.ev ∈ known then ⟨ro, .create (botRow env inbox bot c.ev), []⟩
      else askLimiter env w ro c inbox bot

/-- An attempt once its bot's app is known. -/
def withApp (inbox : BotInboxConfig) (appId : Text) : Progress :=
  match namedBot inbox c.ev appId with
  | .error reason => ro.finally c.ev ⟨.ignored, reason, false⟩
  | .ok bot => admission env w ro c inbox bot

/-- The start of an attempt, up to its first await. -/
def attemptBot : Progress :=
  match heard w ro c.ev with
  | .error reason => ⟨ro, .returned ⟨.ignored, reason, false⟩, []⟩
  | .ok inbox =>
    let botId := c.ev.bot_id.getD []
    let ro := { ro with inflight := inboundEventId c.ev :: ro.inflight }
    match present (ro.botApps botId) with
    | some appId => withApp env w ro c inbox appId
    | none =>
      ⟨{ ro with botLookups := if botId ∈ ro.botLookups then ro.botLookups
          else botId :: ro.botLookups }, .lookup, []⟩

/-- An attempt goes on with the answer of its lookup. -/
def resumeBot (inbox : BotInboxConfig) : BotLookup → Progress
  | .failed true => ro.finally c.ev ⟨.handlerFailed, .botLookupFailed, false⟩
  | .failed false => ro.finally c.ev ⟨.refused, .botLookupFailed, false⟩
  | .app appId =>
    withApp env w
      { ro with botApps := Function.update ro.botApps (c.ev.bot_id.getD []) (some appId) } c
      inbox appId

/-! ### The steps -/

def World.advance (w : World) (h r : ℕ) (H : Handler) (p : Progress) : World :=
  { ((w.setRouter r p.router).setHandler h { H with stage := p.stage }) with
    history := w.history ++ p.logged }

/-- The set an attempt consults: its pass's, or none for a live post. -/
def Handler.owed (H : Handler) (ro : Router) : Option (List Text) :=
  if H.retained.isSome then ro.retryPass.map (·.owedBots) else none

/-- A handler's post that is admitted, and neither landed nor recorded as failed. -/
def Handler.unrecorded (H : Handler) : Bool :=
  match H.stage with
  | .create _ => true
  | .returned result => result.admitted
  | _ => false

/-- The router's set learns an identity, if it has one. -/
def Router.addOwed (ro : Router) (post : Text) : Router :=
  { ro with owedBots := ro.owedBots.map (post :: ·) }

def Router.dropOwed (ro : Router) (post : Text) : Router :=
  { ro with owedBots := ro.owedBots.map fun (owed : List Text) => owed.filter (· ≠ post) }

/-- `routeBot` after its attempt. -/
def World.routed (w : World) (r : ℕ) (ro : Router) (ev : SlackEvent) (result : Result) : World :=
  if result.status = .handlerFailed then
    let mark := result.admitted && !ev.botAdmitted
    (w.append (if mark then { ev with botAdmitted := true } else ev) 1).setRouter r
      (if mark then ro.addOwed (inboundEventId ev) else ro)
  else w

/-- A retry pass after the attempt at an entry. -/
def World.retried (w : World) (r : ℕ) (ro : Router) (pass : Pass) (e : DeadLetterEntry)
    (result : Result) : World :=
  let pass := { pass with working := false }
  if result.status = .handlerFailed then
    if result.admitted && !e.ev.botAdmitted then
      (w.append { e.ev with botAdmitted := true } (e.attempts + 1)).setRouter r
        { ro.addOwed (inboundEventId e.ev) with
          retryPass := some { pass with owedBots := inboundEventId e.ev :: pass.owedBots } }
    else
      w.setRouter r
        { ro with retryPass := some { pass with stillFailing := pass.stillFailing ++ [e.bump] } }
  else if result.reason = .inflight then
    w.setRouter r
      { ro with retryPass := some { pass with stillFailing := pass.stillFailing ++ [e] } }
  else w.setRouter r { ro with retryPass := some pass }

/-- A lookup's answer reaches the attempts that wait for it. -/
def World.answer (w : World) (r : ℕ) (botId : Text) (answer : BotLookup) : World :=
  { w with
    handlers := fun h => (w.handlers h).map fun H =>
      if H.router = r ∧ H.stage = .lookup ∧ H.ev.bot_id.getD [] = botId then
        { H with stage := .found answer }
      else H }

/-- How a retained copy that is no bot's fares. -/
inductive Fate where
  | dropped | kept | failed
  deriving DecidableEq

/-- The labels. `readable` tells whether the retained file can be read then. -/
inductive Label where
  | tick (ms : Time)
  | wire (r : ℕ) (inbox : Option BotInboxConfig)
  | envelope (h r : ℕ) (event : SlackEvent) (apiAppId : Option Text) (readable : Bool)
  | lookedUp (r : ℕ) (botId : Text) (answer : BotLookup)
  | resume (h : ℕ) (readable : Bool)
  | noticed (h : ℕ) (created : Bool)
  | created (h : ℕ) (ok : Bool)
  | settle (h : ℕ)
  | retryStart (r : ℕ) (readable : Bool)
  | retryNext (h r : ℕ)
  | retryOther (r : ℕ) (fate : Fate)
  | retryEnd (r : ℕ) (readable : Bool)
  | appendOther (ev : SlackEvent) (attempts : ℕ)
  | markOther (id : Text)
  | holdOther (r : ℕ) (ids : List Text)

def isBots (e : DeadLetterEntry) : Bool :=
  e.ev.type ≠ some (unitsOf "reaction_added") && (present e.ev.bot_id).isSome

/-- `handleEnvelope` sets what only the envelope may say. -/
def liveEvent (event : SlackEvent) (apiAppId : Option Text) : SlackEvent :=
  { event with receivingAppId := apiAppId, botAdmitted := false }

def Router.hearsBotsIn (ro : Router) (channel : Option Text) : Bool :=
  ro.botInbox.any fun inbox => channel = some inbox.channel

def step : Label → Option World
  | .tick ms => if 0 ≤ ms then some { w with now := w.now + ms } else none
  | .wire r inbox =>
    match w.routers r with
    | none => some (w.setRouter r { botInbox := inbox })
    | some _ => none
  | .envelope h r event apiAppId readable =>
    match w.routers r, w.handlers h with
    | some ro, none =>
      let ev := liveEvent event apiAppId
      if (present ev.bot_id).isSome && ro.hearsBotsIn ev.channel then
        some (w.advance h r ⟨r, ev, none, .lookup⟩ (attemptBot env w ro ⟨h, r, ev, none, readable⟩))
      else none
    | _, _ => none
  | .lookedUp r botId answer =>
    match w.routers r with
    | some ro =>
      if botId ∈ ro.botLookups then
        some ((w.setRouter r { ro with botLookups := ro.botLookups.filter (· ≠ botId) }).answer
          r botId answer)
      else none
    | none => none
  | .resume h readable =>
    match w.handlers h with
    | some H =>
      match w.routers H.router, H.stage with
      | some ro, .found answer =>
        ro.botInbox.map fun inbox =>
          w.advance h H.router H
            (resumeBot env w ro ⟨h, H.router, H.ev, H.owed ro, readable⟩ inbox answer)
      | _, _ => none
    | none => none
  | .noticed h created =>
    match w.handlers h with
    | some H =>
      match w.routers H.router, H.stage with
      | some ro, .notice bot now row =>
        let ro := if created then
            { ro with botNoticeAt := Function.update ro.botNoticeAt bot.appId (some now) }
          else ro
        some (w.advance h H.router H
          { ro.finally H.ev ⟨.refused, .botCutOff, false⟩ with
            logged := if created then [.notice row] else [] })
      | _, _ => none
    | none => none
  | .created h ok =>
    match w.handlers h with
    | some H =>
      match w.routers H.router, H.stage with
      | some ro, .create row =>
        if ok then
          let post := inboundEventId H.ev
          some ({ w with seen := w.seen ++ [post] }.advance h H.router H
            { (ro.dropOwed post).finally H.ev ⟨.accepted, .bot, false⟩ with
              logged := [.row h row] })
        else
          some (w.advance h H.router H (ro.finally H.ev ⟨.handlerFailed, .createFailed, true⟩))
      | _, _ => none
    | none => none
  | .settle h =>
    match w.handlers h with
    | some H =>
      match w.routers H.router, H.stage with
      | some ro, .returned result =>
        let w := w.setHandler h { H with stage := .done }
        match H.retained, ro.retryPass with
        | none, _ => some (w.routed H.router ro H.ev result)
        | some e, some pass => some (w.retried H.router ro pass e result)
        | some _, none => none
      | _, _ => none
    | none => none
  | .retryStart r readable =>
    match w.routers r with
    | some ro =>
      match ro.retryPass, w.readAll readable with
      | none, e :: entries =>
        let pass : Pass := ⟨e :: entries, e :: entries, [], owedBotAdmissions (e :: entries), false⟩
        some (w.setRouter r { ro with retryPass := some pass })
      | _, _ => none
    | none => none
  | .retryNext h r =>
    match w.routers r, w.handlers h with
    | some ro, none =>
      match ro.retryPass with
      | some ⟨entries, e :: todo, stillFailing, owedBots, false⟩ =>
        if isBots e then
          let ro := { ro with retryPass := some ⟨entries, todo, stillFailing, owedBots, true⟩ }
          some (w.advance h r ⟨r, e.ev, some e, .lookup⟩
            (attemptBot env w ro ⟨h, r, e.ev, some owedBots, false⟩))
        else none
      | _ => none
    | _, _ => none
  | .retryOther r fate =>
    match w.routers r with
    | some ro =>
      match ro.retryPass with
      | some ⟨entries, e :: todo, stillFailing, owedBots, false⟩ =>
        if isBots e then none
        else
          let kept := match fate with
            | .dropped => []
            | .kept => [e]
            | .failed => [e.bump]
          let pass : Pass := ⟨entries, todo, stillFailing ++ kept, owedBots, false⟩
          some (w.setRouter r { ro with retryPass := some pass })
      | _ => none
    | none => none
  | .retryEnd r readable =>
    match w.routers r with
    | some ro =>
      match ro.retryPass with
      | some ⟨entries, [], stillFailing, _, false⟩ =>
        some ((w.replaceBatch entries stillFailing readable).setRouter r
          { ro with retryPass := none })
      | _ => none
    | none => none
  | .appendOther ev attempts =>
    if present ev.bot_id = none then some (w.append ev attempts) else none
  | .markOther id => some { w with seen := w.seen ++ [id] }
  | .holdOther r ids =>
    match w.routers r with
    | some ro => some (w.setRouter r { ro with others := ids })
    | none => none

abbrev Run : World → List Label → World → Prop :=
  Runs.Path fun s l t => step env s l = some t

end OpenRig.BotRouter
