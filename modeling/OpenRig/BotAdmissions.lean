import OpenRig.BotRouter
import Mathlib.Data.List.Nodup

/-!
What the hourly limit of a named bot keeps over any run, and when a post that is admitted and still
owed comes before the limiter again.

A live post consults the marks of the retained file as it is. A retry pass consults the marks of the
snapshot it began with.
-/

namespace OpenRig.BotAdmissions

open OpenRig.BotInbox OpenRig.BotRouter OpenRig.PersonWords OpenRig.SecretRedaction
open OpenRig.SlidingWindow OpenRig.Runs

/-! ### Owed posts -/

/-- A retained copy marks the post. -/
def Marks (w : World) (post : Text) : Prop :=
  ∃ e ∈ w.deadLetter, e.marked ∧ inboundEventId e.ev = post

/-- An attempt holds the post admitted, and has neither landed it nor recorded its failure. -/
def Unrecorded (w : World) (post : Text) : Prop :=
  ∃ h H, w.handlers h = some H ∧ H.unrecorded ∧ inboundEventId H.ev = post

/-- The post is admitted and its row is still owed. -/
def Owed (w : World) (post : Text) : Prop := post ∉ w.seen ∧ (Marks w post ∨ Unrecorded w post)

lemma mem_owedBotAdmissions {entries : List DeadLetterEntry} {post : Text} :
    post ∈ owedBotAdmissions entries ↔ ∃ e ∈ entries, e.marked ∧ inboundEventId e.ev = post := by
  simp [owedBotAdmissions, and_assoc]

/-! ### The router's owed set -/

/-- The router's set, while the file is what it was read from, has every mark still owed. -/
structure Cached (w : World) (ro : Router) : Prop where
  generation : ro.owedBotsGeneration ≤ w.writeGeneration
  marks : ∀ owed, ro.owedBots = some owed → ro.owedBotsGeneration = w.writeGeneration →
    ∀ post, Marks w post → post ∈ owed ∨ post ∈ w.seen

lemma loadOwedBots_fst (w : World) (ro : Router) (readable : Bool) :
    (loadOwedBots w ro readable).1 = ro ∨ (loadOwedBots w ro readable).1 =
      { ro with
        owedBots := some (owedBotAdmissions w.deadLetter)
        owedBotsGeneration := w.writeGeneration } := by
  unfold loadOwedBots
  split
  · exact .inl rfl
  · split
    · exact .inr rfl
    · exact .inl rfl

lemma Cached.fresh {w : World} {ro : Router}
    (howed : ro.owedBots = some (owedBotAdmissions w.deadLetter))
    (hgen : ro.owedBotsGeneration = w.writeGeneration) : Cached w ro where
  generation := hgen.le
  marks owed h _ post hpost := by
    obtain rfl : owedBotAdmissions w.deadLetter = owed := by simpa [howed] using h
    exact .inl (mem_owedBotAdmissions.mpr hpost)

lemma Cached.congr {w : World} {ro ro' : Router} (h : Cached w ro)
    (howed : ro'.owedBots = ro.owedBots)
    (hgen : ro'.owedBotsGeneration = ro.owedBotsGeneration) : Cached w ro' where
  generation := hgen ▸ h.generation
  marks := by
    rw [howed, hgen]
    exact h.marks

lemma Cached.load {w : World} {ro : Router} (h : Cached w ro) (readable : Bool) :
    Cached w (loadOwedBots w ro readable).1 := by
  rcases loadOwedBots_fst w ro readable with heq | heq
  · rw [heq]
    exact h
  · rw [heq]
    exact .fresh rfl rfl

/-- **A live post sees every mark still owed.** -/
lemma Cached.loaded {w : World} {ro : Router} {readable : Bool} {owed : List Text} (h : Cached w ro)
    (hload : (loadOwedBots w ro readable).2 = some owed) {post : Text} (hpost : Marks w post) :
    post ∈ owed ∨ post ∈ w.seen := by
  unfold loadOwedBots at hload
  split at hload
  · rename_i owed' hset hgen
    obtain rfl : owed' = owed := by simpa using hload
    exact h.marks owed' hset (of_decide_eq_true hgen).symm post hpost
  · split at hload
    · obtain rfl : owedBotAdmissions w.deadLetter = owed := by simpa using hload
      exact .inl (mem_owedBotAdmissions.mpr hpost)
    · simp at hload

/-! ### What one attempt does -/

/-- The limiter counted the post within the hour. -/
def Counted (w : World) (ro : Router) (bot : NamedBot) (post : Text) : Prop :=
  ∃ a ∈ ro.botLimiter.recentOf w.now bot, a.post = post

/-- The bot whose post an attempt brings before the limiter, once its app is known. -/
def asks (w : World) (ro : Router) (c : Call) (inbox : BotInboxConfig) (appId : Text) :
    Option NamedBot :=
  match namedBot inbox c.ev appId, (known w ro c).2 with
  | .ok bot, some known =>
    if c.ev.botAdmitted || known.contains (inboundEventId c.ev) then none else some bot
  | _, _ => none

def asksAtStart (w : World) (ro : Router) (c : Call) : Option NamedBot :=
  match heard w ro c.ev, present (ro.botApps (c.ev.bot_id.getD [])) with
  | .ok inbox, some appId => asks w ro c inbox appId
  | _, _ => none

def asksAtAnswer (w : World) (ro : Router) (c : Call) (inbox : BotInboxConfig) :
    BotLookup → Option NamedBot
  | .app appId => asks w ro c inbox appId
  | .failed _ => none

/-- An attempt that can create no row any more. -/
def Closed : Stage → Prop
  | .notice .. => True
  | .returned _ => True
  | .done => True
  | _ => False

/-- What becomes of the limiter and the log, by whether the limiter is asked. -/
inductive Answered (w : World) (ro : Router) (c : Call) : Option NamedBot → Progress → Prop
  | unasked {p : Progress} : p.logged = [] → p.router.botLimiter = ro.botLimiter →
      Answered w ro c none p
  | counted {bot : NamedBot} {p : Progress} : Counted w ro bot (inboundEventId c.ev) →
      p.logged = [] → p.router.botLimiter.admitted = Function.update ro.botLimiter.admitted
        bot.appId (ro.botLimiter.recentOf w.now bot) →
      Answered w ro c (some bot) p
  | charged {bot : NamedBot} {p : Progress} : ¬ Counted w ro bot (inboundEventId c.ev) →
      (ro.botLimiter.recentOf w.now bot).length < bot.max →
      p.logged = [.charged c.router bot.appId ⟨w.now, inboundEventId c.ev⟩] →
      p.router.botLimiter.admitted = Function.update ro.botLimiter.admitted bot.appId
        (ro.botLimiter.recentOf w.now bot ++ [⟨w.now, inboundEventId c.ev⟩]) →
      Answered w ro c (some bot) p
  | cutOff {bot : NamedBot} {p : Progress} : ¬ Counted w ro bot (inboundEventId c.ev) →
      p.logged = [.cutOff c.handler c.router (inboundEventId c.ev)] → Closed p.stage →
      p.router.botLimiter.admitted = Function.update ro.botLimiter.admitted bot.appId
        (ro.botLimiter.recentOf w.now bot) →
      Answered w ro c (some bot) p

/-- What an attempt keeps of its router. -/
structure Goes (w : World) (ro : Router) (c : Call) (asked : Option NamedBot) (p : Progress) :
    Prop where
  botInbox : p.router.botInbox = ro.botInbox
  cached : Cached w ro → Cached w p.router
  unadmitted : ∀ result, p.stage = .returned result → result.admitted = false
  answered : Answered w ro c asked p

variable {env : Env} {w : World} {ro : Router} {c : Call}

lemma Goes.of_eq {ro' : Router} {asked : Option NamedBot} {p : Progress}
    (h : Goes w ro' c asked p) (hinbox : ro'.botInbox = ro.botInbox)
    (hcached : Cached w ro → Cached w ro') (hlimiter : ro'.botLimiter = ro.botLimiter) :
    Goes w ro c asked p where
  botInbox := h.botInbox.trans hinbox
  cached hc := h.cached (hcached hc)
  unadmitted := h.unadmitted
  answered := by
    have hcounted : Counted w ro' = Counted w ro := by
      funext bot post
      simp only [Counted, hlimiter]
    cases h.answered with
    | unasked hlog hlim => exact .unasked hlog (hlim.trans hlimiter)
    | counted hc hlog hlim =>
      rw [hlimiter] at hlim
      exact .counted (hcounted ▸ hc) hlog hlim
    | charged hc hroom hlog hlim =>
      rw [hlimiter] at hroom hlim
      exact .charged (hcounted ▸ hc) hroom hlog hlim
    | cutOff hc hlog hstage hlim =>
      rw [hlimiter] at hlim
      exact .cutOff (hcounted ▸ hc) hlog hstage hlim

lemma goes_finally {result : Result} (h : result.admitted = false) :
    Goes w ro c none (ro.finally c.ev result) where
  botInbox := rfl
  cached h := h.congr rfl rfl
  unadmitted result' heq := by
    obtain rfl : result = result' := Stage.returned.inj heq
    exact h
  answered := .unasked rfl rfl

lemma goes_create (row : Row) : Goes w ro c none ⟨ro, .create row, []⟩ where
  botInbox := rfl
  cached h := h
  unadmitted := nofun
  answered := .unasked rfl rfl

lemma check_cases (l : BotLimiter) (now : Time) (bot : NamedBot) (post : Text) :
    ((∃ a ∈ l.recentOf now bot, a.post = post) ∧ (l.check now bot post).2 = .taken ∧
      (l.check now bot post).1.admitted =
        Function.update l.admitted bot.appId (l.recentOf now bot)) ∨
    (¬ (∃ a ∈ l.recentOf now bot, a.post = post) ∧ (l.recentOf now bot).length < bot.max ∧
      (l.check now bot post).2 = .taken ∧ (l.check now bot post).1.admitted =
        Function.update l.admitted bot.appId (l.recentOf now bot ++ [⟨now, post⟩])) ∨
    (¬ (∃ a ∈ l.recentOf now bot, a.post = post) ∧
      (∃ till tripped, (l.check now bot post).2 = .refuse till tripped) ∧
      (l.check now bot post).1.admitted =
        Function.update l.admitted bot.appId (l.recentOf now bot)) := by
  by_cases hany : ∃ a ∈ l.recentOf now bot, a.post = post
  · exact .inl ⟨hany, by simp [BotLimiter.check, hany]⟩
  · refine .inr ?_
    cases huntil : (l.cutoffUntil bot.appId).filter (now < ·) with
    | some till => exact .inr ⟨hany, by simp [BotLimiter.check, hany, huntil]⟩
    | none =>
      by_cases hfull : bot.max ≤ (l.recentOf now bot).length
      · exact .inr ⟨hany, by simp [BotLimiter.check, hany, huntil, hfull]⟩
      · exact .inl ⟨hany, Nat.lt_of_not_le hfull,
          by simp [BotLimiter.check, hany, huntil, hfull]⟩

lemma noticeCutoff_stage {inbox : BotInboxConfig} {bot : NamedBot} {till : Time} :
    (noticeCutoff env w ro c inbox bot till).stage = .returned ⟨.refused, .botCutOff, false⟩ ∨
      (noticeCutoff env w ro c inbox bot till).stage =
        .notice bot w.now (cutoffRow env inbox bot till) := by
  unfold noticeCutoff
  split
  · split
    · exact .inl rfl
    · exact .inr rfl
  · exact .inr rfl

lemma noticeCutoff_router (env : Env) (w : World) (ro : Router) (c : Call) (inbox : BotInboxConfig)
    (bot : NamedBot) (till : Time) :
    (noticeCutoff env w ro c inbox bot till).router = ro ∨
      (noticeCutoff env w ro c inbox bot till).router =
        { ro with inflight := ro.inflight.filter (· ≠ inboundEventId c.ev) } := by
  unfold noticeCutoff
  split
  · split
    · exact .inr rfl
    · exact .inl rfl
  · exact .inl rfl

lemma goes_askLimiter {inbox : BotInboxConfig} {bot : NamedBot} :
    Goes w ro c (some bot) (askLimiter env w ro c inbox bot) := by
  have hcases := check_cases ro.botLimiter w.now bot (inboundEventId c.ev)
  rcases hcheck : ro.botLimiter.check w.now bot (inboundEventId c.ev) with ⟨limiter, verdict⟩
  simp only [hcheck] at hcases
  rcases hcases with
    ⟨hany, rfl, hlim⟩ | ⟨hany, hroom, rfl, hlim⟩ | ⟨hany, ⟨till, tripped, rfl⟩, hlim⟩
  · have heq : askLimiter env w ro c inbox bot =
        ⟨{ ro with botLimiter := limiter }, .create (botRow env inbox bot c.ev), []⟩ := by
      simp [askLimiter, hcheck, hany]
    rw [heq]
    exact ⟨rfl, fun h => h.congr rfl rfl, nofun, .counted hany rfl hlim⟩
  · have heq : askLimiter env w ro c inbox bot =
        ⟨{ ro with botLimiter := limiter }, .create (botRow env inbox bot c.ev),
          [.charged c.router bot.appId ⟨w.now, inboundEventId c.ev⟩]⟩ := by
      simp [askLimiter, hcheck, hany]
    rw [heq]
    exact ⟨rfl, fun h => h.congr rfl rfl, nofun, .charged hany hroom rfl hlim⟩
  · have heq : askLimiter env w ro c inbox bot =
        { (if tripped then noticeCutoff env w { ro with botLimiter := limiter } c inbox bot till
            else Router.finally { ro with botLimiter := limiter } c.ev
              ⟨.refused, .botCutOff, false⟩) with
          logged := [.cutOff c.handler c.router (inboundEventId c.ev)] } := by
      simp [askLimiter, hcheck]
    rw [heq]
    have hclosed : ∀ {p : Progress}, p.stage = .returned ⟨.refused, .botCutOff, false⟩ ∨
        p.stage = .notice bot w.now (cutoffRow env inbox bot till) →
        Closed p.stage ∧ ∀ result, p.stage = .returned result → result.admitted = false := by
      rintro p (h | h)
      all_goals
        rw [h]
        refine ⟨trivial, fun result heq => ?_⟩
        cases heq
      rfl
    cases tripped with
    | false =>
      obtain ⟨hstage, hunadmitted⟩ := hclosed (p := Router.finally
        { ro with botLimiter := limiter } c.ev ⟨.refused, .botCutOff, false⟩) (.inl rfl)
      exact ⟨rfl, fun h => h.congr rfl rfl, hunadmitted, .cutOff hany rfl hstage hlim⟩
    | true =>
      simp only [if_true]
      obtain ⟨hstage, hunadmitted⟩ := hclosed noticeCutoff_stage
      rcases noticeCutoff_router env w { ro with botLimiter := limiter } c inbox bot till
        with hro | hro
      all_goals exact ⟨by rw [hro], fun h => h.congr (by rw [hro]) (by rw [hro]), hunadmitted,
        .cutOff hany rfl hstage (by rw [hro]; exact hlim)⟩

lemma Goes.of_known {asked : Option NamedBot} {p : Progress}
    (h : Goes w (known w ro c).1 c asked p) : Goes w ro c asked p := by
  unfold known at h
  split at h
  · exact h
  · rcases loadOwedBots_fst w ro c.readable with heq | heq
    · exact h.of_eq (by rw [heq]) (fun hc => hc.load _) (by rw [heq])
    · exact h.of_eq (by rw [heq]) (fun hc => hc.load _) (by rw [heq])

lemma goes_admission {inbox : BotInboxConfig} {appId : Text} {bot : NamedBot}
    (hbot : namedBot inbox c.ev appId = .ok bot) :
    Goes w ro c (asks w ro c inbox appId) (admission env w ro c inbox bot) := by
  unfold admission asks
  rw [hbot]
  by_cases hev : c.ev.botAdmitted
  · rw [if_pos hev]
    cases h : (known w ro c).2 <;> simp only [hev, Bool.true_or, if_true] <;> exact goes_create _
  · rw [if_neg hev]
    have hgoes : ∀ {k asked p}, known w ro c = k → Goes w k.1 c asked p → Goes w ro c asked p := by
      rintro _ asked p rfl
      exact Goes.of_known
    rcases hknown : known w ro c with ⟨ro', _ | owed⟩
    · exact hgoes hknown (goes_finally rfl)
    · by_cases hmem : inboundEventId c.ev ∈ owed
      · have hcond : (c.ev.botAdmitted || owed.contains (inboundEventId c.ev)) = true := by
          simp [hmem]
        simp only [hmem, hcond, if_true]
        exact hgoes hknown (goes_create _)
      · have hcond : ¬ (c.ev.botAdmitted || owed.contains (inboundEventId c.ev)) = true := by
          simp [hev, hmem]
        simp only [hmem, hcond, if_false]
        exact hgoes hknown goes_askLimiter

lemma goes_withApp (env : Env) (w : World) (ro : Router) (c : Call) (inbox : BotInboxConfig)
    (appId : Text) : Goes w ro c (asks w ro c inbox appId) (withApp env w ro c inbox appId) := by
  unfold withApp
  cases hbot : namedBot inbox c.ev appId with
  | error reason =>
    have hnone : asks w ro c inbox appId = none := by simp [asks, hbot]
    rw [hnone]
    exact goes_finally rfl
  | ok bot => exact goes_admission hbot

lemma asks_congr (ro ro' : Router) {inbox : BotInboxConfig} {appId : Text}
    (howed : ro'.owedBots = ro.owedBots) (hgen : ro'.owedBotsGeneration = ro.owedBotsGeneration) :
    asks w ro' c inbox appId = asks w ro c inbox appId := by
  have hknown : (known w ro' c).2 = (known w ro c).2 := by
    unfold known
    split
    · rfl
    · unfold loadOwedBots
      rw [howed, hgen]
      split
      · rfl
      · split <;> rfl
  unfold asks
  rw [hknown]

lemma goes_attemptBot : Goes w ro c (asksAtStart w ro c) (attemptBot env w ro c) := by
  unfold attemptBot asksAtStart
  cases heard w ro c.ev with
  | error reason =>
    refine ⟨rfl, id, fun result heq => ?_, .unasked rfl rfl⟩
    cases heq
    rfl
  | ok inbox =>
    dsimp only
    cases present (ro.botApps (c.ev.bot_id.getD [])) with
    | none => exact ⟨rfl, fun h => h.congr rfl rfl, nofun, .unasked rfl rfl⟩
    | some appId =>
      dsimp only
      rw [← asks_congr ro { ro with inflight := inboundEventId c.ev :: ro.inflight } rfl rfl]
      exact (goes_withApp env w _ c inbox appId).of_eq rfl (fun hc => hc.congr rfl rfl) rfl

lemma goes_resumeBot {inbox : BotInboxConfig} {answer : BotLookup} :
    Goes w ro c (asksAtAnswer w ro c inbox answer) (resumeBot env w ro c inbox answer) := by
  cases answer with
  | failed retryable => cases retryable <;> exact goes_finally rfl
  | app appId =>
    simp only [resumeBot, asksAtAnswer]
    rw [← asks_congr ro
      { ro with botApps := Function.update ro.botApps (c.ev.bot_id.getD []) (some appId) } rfl rfl]
    exact (goes_withApp env w _ c inbox appId).of_eq rfl (fun hc => hc.congr rfl rfl) rfl

/-! ### The steps -/

/-- The attempt of a label that comes before the limiter, with its router and its bot. -/
def asked (w : World) : Label → Option (Router × Call × NamedBot)
  | .envelope h r event apiAppId readable =>
    (w.routers r).bind fun ro =>
      let c : Call := ⟨h, r, liveEvent event apiAppId, none, readable⟩
      (asksAtStart w ro c).map fun bot => (ro, c, bot)
  | .resume h readable =>
    (w.handlers h).bind fun H => (w.routers H.router).bind fun ro =>
      let c : Call := ⟨h, H.router, H.ev, H.owed ro, readable⟩
      match H.stage, ro.botInbox with
      | .found answer, some inbox => (asksAtAnswer w ro c inbox answer).map fun bot => (ro, c, bot)
      | _, _ => none
  | .retryNext h r =>
    (w.routers r).bind fun ro => ro.retryPass.bind fun pass => pass.todo.head?.bind fun e =>
      let c : Call := ⟨h, r, e.ev, some pass.owedBots, false⟩
      (asksAtStart w ro c).map fun bot => (ro, c, bot)
  | _ => none

inductive Moves (env : Env) (w : World) : Label → World → Prop
  | tick {ms : Time} : 0 ≤ ms → Moves env w (.tick ms) { w with now := w.now + ms }
  | wire {r : ℕ} {inbox : Option BotInboxConfig} : w.routers r = none →
      Moves env w (.wire r inbox) (w.setRouter r { botInbox := inbox })
  | attempt {l : Label} {r : ℕ} {ro : Router} {H : Handler} {c : Call} {bot : Option NamedBot}
      {p : Progress} : (∀ h, l ≠ .settle h) → w.routers r = some ro → c.router = r →
      (w.handlers c.handler = none ∧ (present H.ev.bot_id).isSome ∧
          (∀ e, H.retained = some e → e.ev = H.ev) ∨
        w.handlers c.handler = some H ∧ ∃ answer, H.stage = .found answer) →
      asked w l = bot.map (fun bot => (ro, c, bot)) → Goes w ro c bot p →
      Moves env w l (w.advance c.handler r H p)
  | lookedUp {r : ℕ} {ro : Router} {botId : Text} {answer : BotLookup} : w.routers r = some ro →
      Moves env w (.lookedUp r botId answer)
        ((w.setRouter r { ro with botLookups := ro.botLookups.filter (· ≠ botId) }).answer r botId
          answer)
  | noticed {h : ℕ} {H : Handler} {ro : Router} {bot : NamedBot} {now : Time} {row : Row}
      {created : Bool} : w.handlers h = some H → w.routers H.router = some ro →
      H.stage = .notice bot now row →
      Moves env w (.noticed h created) (w.advance h H.router H
        { (if created then
              { ro with botNoticeAt := Function.update ro.botNoticeAt bot.appId (some now) }
            else ro : Router).finally H.ev ⟨.refused, .botCutOff, false⟩ with
          logged := if created then [.notice row] else [] })
  | landed {h : ℕ} {H : Handler} {ro : Router} {row : Row} : w.handlers h = some H →
      w.routers H.router = some ro → H.stage = .create row →
      Moves env w (.created h true)
        ({ w with seen := w.seen ++ [inboundEventId H.ev] }.advance h H.router H
          { (ro.dropOwed (inboundEventId H.ev)).finally H.ev ⟨.accepted, .bot, false⟩ with
            logged := [.row h row] })
  | failed {h : ℕ} {H : Handler} {ro : Router} {row : Row} : w.handlers h = some H →
      w.routers H.router = some ro → H.stage = .create row →
      Moves env w (.created h false) (w.advance h H.router H
        (ro.finally H.ev ⟨.handlerFailed, .createFailed, true⟩))
  | routed {h : ℕ} {H : Handler} {ro : Router} {result : Result} : w.handlers h = some H →
      w.routers H.router = some ro → H.stage = .returned result → H.retained = none →
      Moves env w (.settle h)
        ((w.setHandler h { H with stage := .done }).routed H.router ro H.ev result)
  | retried {h : ℕ} {H : Handler} {ro : Router} {result : Result} {e : DeadLetterEntry}
      {pass : Pass} : w.handlers h = some H → w.routers H.router = some ro →
      H.stage = .returned result → H.retained = some e → ro.retryPass = some pass →
      Moves env w (.settle h)
        ((w.setHandler h { H with stage := .done }).retried H.router ro pass e result)
  | passed {l : Label} {r : ℕ} {ro : Router} {pass : Option Pass} : (∀ h, l ≠ .settle h) →
      w.routers r = some ro → asked w l = none →
        Moves env w l (w.setRouter r { ro with retryPass := pass })
  | replaced {r : ℕ} {ro : Router} {pass : Pass} {readable : Bool} : w.routers r = some ro →
      ro.retryPass = some pass →
      Moves env w (.retryEnd r readable)
        ((w.replaceBatch pass.entries pass.stillFailing readable).setRouter r
          { ro with retryPass := none })
  | appendOther {ev : SlackEvent} {attempts : ℕ} : present ev.bot_id = none →
      Moves env w (.appendOther ev attempts) (w.append ev attempts)
  | markOther {id : Text} : Moves env w (.markOther id) { w with seen := w.seen ++ [id] }
  | holdOther {r : ℕ} {ro : Router} {ids : List Text} : w.routers r = some ro →
      Moves env w (.holdOther r ids) (w.setRouter r { ro with others := ids })

lemma asksAtStart_pass {pass : Option Pass} :
    asksAtStart w { ro with retryPass := pass } c = asksAtStart w ro c := by
  unfold asksAtStart
  have hheard : heard w { ro with retryPass := pass } c.ev = heard w ro c.ev := rfl
  rw [hheard]
  cases heard w ro c.ev with
  | error reason => rfl
  | ok inbox =>
    cases present (ro.botApps (c.ev.bot_id.getD [])) with
    | none => rfl
    | some appId => exact asks_congr ro { ro with retryPass := pass } rfl rfl

/-- **Every step is one of these.** -/
lemma moves_of_step {l : Label} {t : World} (h : step env w l = some t) : Moves env w l t := by
  cases l with
  | tick ms =>
    simp only [step, Option.ite_none_right_eq_some, Option.some.injEq] at h
    obtain ⟨hms, rfl⟩ := h
    exact .tick hms
  | wire r inbox =>
    cases hr : w.routers r with
    | some ro => simp [step, hr] at h
    | none =>
      obtain rfl : w.setRouter r { botInbox := inbox } = t := by simpa [step, hr] using h
      exact .wire hr
  | envelope h' r event apiAppId readable =>
    cases hr : w.routers r with
    | none => simp [step, hr] at h
    | some ro =>
      cases hh : w.handlers h' with
      | some H => simp [step, hr, hh] at h
      | none =>
        simp only [step, hr, hh, Option.ite_none_right_eq_some, Option.some.injEq] at h
        obtain ⟨hbot, rfl⟩ := h
        refine .attempt (by simp) hr rfl (.inl ⟨hh, ?_, by simp⟩)
          (by simp [asked, hr]) goes_attemptBot
        exact (Bool.and_eq_true_iff.mp hbot).1
  | lookedUp r botId answer =>
    cases hr : w.routers r with
    | none => simp [step, hr] at h
    | some ro =>
      simp only [step, hr, Option.ite_none_right_eq_some, Option.some.injEq] at h
      obtain ⟨-, rfl⟩ := h
      exact .lookedUp hr
  | resume h' readable =>
    cases hh : w.handlers h' with
    | none => simp [step, hh] at h
    | some H =>
      cases hr : w.routers H.router with
      | none => simp [step, hh, hr] at h
      | some ro =>
        cases hstage : H.stage with
        | found answer =>
          simp only [step, hh, hr, hstage, Option.map_eq_some_iff] at h
          obtain ⟨inbox, hinbox, rfl⟩ := h
          exact .attempt (by simp) hr rfl (.inr ⟨hh, answer, hstage⟩)
            (by simp [asked, hh, hr, hstage, hinbox])
            goes_resumeBot
        | _ => simp [step, hh, hr, hstage] at h
  | noticed h' created =>
    cases hh : w.handlers h' with
    | none => simp [step, hh] at h
    | some H =>
      cases hr : w.routers H.router with
      | none => simp [step, hh, hr] at h
      | some ro =>
        cases hstage : H.stage with
        | notice bot now row =>
          simp only [step, hh, hr, hstage, Option.some.injEq] at h
          subst h
          exact .noticed hh hr hstage
        | _ => simp [step, hh, hr, hstage] at h
  | created h' ok =>
    cases hh : w.handlers h' with
    | none => simp [step, hh] at h
    | some H =>
      cases hr : w.routers H.router with
      | none => simp [step, hh, hr] at h
      | some ro =>
        cases hstage : H.stage with
        | create row =>
          cases ok with
          | false =>
            simp only [step, hh, hr, hstage, Bool.false_eq_true, if_false, Option.some.injEq] at h
            subst h
            exact .failed hh hr hstage
          | true =>
            simp only [step, hh, hr, hstage, if_true, Option.some.injEq] at h
            subst h
            exact .landed hh hr hstage
        | _ => simp [step, hh, hr, hstage] at h
  | settle h' =>
    cases hh : w.handlers h' with
    | none => simp [step, hh] at h
    | some H =>
      cases hr : w.routers H.router with
      | none => simp [step, hh, hr] at h
      | some ro =>
        cases hstage : H.stage with
        | returned result =>
          cases hretained : H.retained with
          | none =>
            simp only [step, hh, hr, hstage, hretained, Option.some.injEq] at h
            subst h
            simpa only [hretained] using Moves.routed hh hr hstage hretained
          | some e =>
            cases hpass : ro.retryPass with
            | none => simp [step, hh, hr, hstage, hretained, hpass] at h
            | some pass =>
              simp only [step, hh, hr, hstage, hretained, hpass, Option.some.injEq] at h
              subst h
              simpa only [hretained] using Moves.retried hh hr hstage hretained hpass
        | _ => simp [step, hh, hr, hstage] at h
  | retryStart r readable =>
    cases hr : w.routers r with
    | none => simp [step, hr] at h
    | some ro =>
      cases hpass : ro.retryPass with
      | some pass => simp [step, hr, hpass] at h
      | none =>
        cases hread : w.readAll readable with
        | nil => simp [step, hr, hpass, hread] at h
        | cons e entries =>
          simp only [step, hr, hpass, hread, Option.some.injEq] at h
          subst h
          exact .passed (by simp) hr rfl
  | retryNext h' r =>
    cases hr : w.routers r with
    | none => simp [step, hr] at h
    | some ro =>
      cases hh : w.handlers h' with
      | some H => simp [step, hr, hh] at h
      | none =>
        rcases hpass : ro.retryPass with _ | ⟨entries, _ | ⟨e, todo⟩, stillFailing, owed, _ | _⟩
        case some.cons.false =>
          simp only [step, hr, hh, hpass, Option.ite_none_right_eq_some, Option.some.injEq] at h
          obtain ⟨hbots, rfl⟩ := h
          have hgoes : ∀ pass c, Goes w ro c (asksAtStart w ro c)
              (attemptBot env w { ro with retryPass := some pass } c) := fun pass c => by
            rw [← asksAtStart_pass]
            exact goes_attemptBot.of_eq rfl (fun hc => hc.congr rfl rfl) rfl
          refine .attempt (by simp) hr rfl (.inl ⟨hh, ?_, fun e' he' => ?_⟩)
            (by simp [asked, hr, hpass])
            (hgoes _ _)
          · exact (Bool.and_eq_true_iff.mp hbots).2
          · exact (Option.some.inj he') ▸ rfl
        all_goals simp [step, hr, hh, hpass] at h
  | retryOther r fate =>
    cases hr : w.routers r with
    | none => simp [step, hr] at h
    | some ro =>
      rcases hpass : ro.retryPass with _ | ⟨entries, _ | ⟨e, todo⟩, stillFailing, owed, _ | _⟩
      case some.cons.false =>
        simp only [step, hr, hpass, Option.ite_none_left_eq_some, Option.some.injEq] at h
        obtain ⟨-, rfl⟩ := h
        exact .passed (by simp) hr rfl
      all_goals simp [step, hr, hpass] at h
  | retryEnd r readable =>
    cases hr : w.routers r with
    | none => simp [step, hr] at h
    | some ro =>
      rcases hpass : ro.retryPass with _ | ⟨entries, _ | ⟨e, todo⟩, stillFailing, owed, _ | _⟩
      case some.nil.false =>
        simp only [step, hr, hpass, Option.some.injEq] at h
        subst h
        exact .replaced hr hpass
      all_goals simp [step, hr, hpass] at h
  | appendOther ev attempts =>
    simp only [step, Option.ite_none_right_eq_some, Option.some.injEq] at h
    obtain ⟨hev, rfl⟩ := h
    exact .appendOther hev
  | markOther id =>
    simp only [step, Option.some.injEq] at h
    subst h
    exact .markOther
  | holdOther r ids =>
    cases hr : w.routers r with
    | none => simp [step, hr] at h
    | some ro =>
      simp only [step, hr, Option.some.injEq] at h
      subst h
      exact .holdOther hr

/-! ### Every router's set stays current -/

def AllCached (w : World) : Prop := ∀ r ro, w.routers r = some ro → Cached w ro

lemma Cached.seen {w t : World} {ro : Router} (h : Cached w ro)
    (hfile : t.deadLetter = w.deadLetter)
    (hgen : t.writeGeneration = w.writeGeneration) (hseen : w.seen ⊆ t.seen) : Cached t ro where
  generation := hgen ▸ h.generation
  marks owed howed hro post hpost := by
    have hpost' : Marks w post := by simpa only [Marks, hfile] using hpost
    exact (h.marks owed howed (hro.trans (by rw [hgen])) post hpost').imp_right fun hm => hseen hm

lemma Cached.written {w t : World} {ro : Router} (h : Cached w ro)
    (hgen : w.writeGeneration < t.writeGeneration) : Cached t ro := by
  have hlt : ro.owedBotsGeneration < t.writeGeneration :=
    lt_of_le_of_lt h.generation (by exact_mod_cast hgen)
  exact ⟨hlt.le, fun owed _ hro => absurd hro hlt.ne⟩

lemma Cached.addOwed {w : World} {ro : Router} (h : Cached w ro) (post : Text) :
    Cached w (ro.addOwed post) where
  generation := h.generation
  marks owed howed hro p hp := by
    obtain ⟨owed', howed', rfl⟩ := Option.map_eq_some_iff.mp howed
    exact (h.marks owed' howed' hro p hp).imp_left (List.mem_cons_of_mem _)

lemma Cached.dropOwed {w : World} {ro : Router} (h : Cached w ro) (post : Text)
    (hseen : post ∈ w.seen) : Cached w (ro.dropOwed post) where
  generation := h.generation
  marks owed howed hro p hp := by
    obtain ⟨owed', howed', rfl⟩ := Option.map_eq_some_iff.mp howed
    by_cases heq : p = post
    · exact .inr (heq ▸ hseen)
    · refine (h.marks owed' howed' hro p hp).imp_left fun hm => ?_
      simpa [heq] using hm

lemma AllCached.set {w t : World} {r : ℕ} {ro : Router} (hw : AllCached w)
    (hrouters : t.routers = Function.update w.routers r (some ro))
    (hold : ∀ ro, Cached w ro → Cached t ro) (hro : Cached t ro) : AllCached t := by
  intro r' ro' hr'
  rw [hrouters, Function.update_apply] at hr'
  split at hr'
  · obtain rfl : ro = ro' := by simpa using hr'
    exact hro
  · exact hold ro' (hw r' ro' hr')

lemma AllCached.keep {w t : World} (hw : AllCached w) (hrouters : t.routers = w.routers)
    (hold : ∀ ro, Cached w ro → Cached t ro) : AllCached t := by
  intro r ro hr
  rw [hrouters] at hr
  exact hold ro (hw r ro hr)

lemma AllCached.routed {H : Handler} {h r : ℕ} {ev : SlackEvent} {result : Result}
    (hw : AllCached w) (hr : w.routers r = some ro) :
    AllCached ((w.setHandler h H).routed r ro ev result) := by
  unfold World.routed
  split
  · refine hw.set rfl (fun ro' h => h.written (Nat.lt_succ_self _)) ?_
    refine Cached.written ?_ (Nat.lt_succ_self w.writeGeneration)
    split
    · exact (hw r ro hr).addOwed _
    · exact hw r ro hr
  · exact hw.keep rfl fun ro' h => h.seen rfl rfl fun _ hm => hm

lemma AllCached.retried {H : Handler} {h r : ℕ} {pass : Pass} {e : DeadLetterEntry}
    {result : Result}
    (hw : AllCached w) (hr : w.routers r = some ro) :
    AllCached ((w.setHandler h H).retried r ro pass e result) := by
  have hsame : ∀ pass, AllCached ((w.setHandler h H).setRouter r { ro with retryPass := pass }) :=
    fun pass => hw.set rfl (fun ro' h => h.seen rfl rfl fun _ hm => hm) <|
      Cached.seen (Cached.congr (hw r ro hr) rfl rfl) rfl rfl fun _ hm => hm
  unfold World.retried
  split
  · split
    · refine hw.set rfl (fun ro' h => h.written (Nat.lt_succ_self _)) ?_
      exact Cached.written (Cached.congr ((hw r ro hr).addOwed (inboundEventId e.ev)) rfl rfl)
        (Nat.lt_succ_self _)
    · exact hsame _
  · split
    · exact hsame _
    · exact hsame _

lemma AllCached.step {l : Label} {t : World} (hw : AllCached w) (h : Moves env w l t) :
    AllCached t := by
  have hsame : ∀ {t : World} (ro : Router), t.deadLetter = w.deadLetter →
      t.writeGeneration = w.writeGeneration → w.seen ⊆ t.seen → Cached w ro → Cached t ro :=
    fun ro hfile hgen hseen hc => hc.seen hfile hgen hseen
  cases h with
  | tick hms => exact hw.keep rfl fun ro => hsame ro rfl rfl fun _ hm => hm
  | wire hr =>
    refine hw.set rfl (fun ro => hsame ro rfl rfl fun _ hm => hm) ⟨?_, ?_⟩
    · have : (0 : ℤ) ≤ w.writeGeneration := Int.natCast_nonneg _
      show (-1 : ℤ) ≤ w.writeGeneration
      omega
    · intro owed howed
      cases howed
  | attempt hl hr hc hh hasked hgoes =>
    exact hw.set rfl (fun ro => hsame ro rfl rfl fun _ hm => hm)
      (hsame _ rfl rfl (fun _ hm => hm) (hgoes.cached (hw _ _ hr)))
  | lookedUp hr =>
    exact hw.set rfl (fun ro => hsame ro rfl rfl fun _ hm => hm)
      (hsame _ rfl rfl (fun _ hm => hm) ((hw _ _ hr).congr rfl rfl))
  | @noticed h H ro bot now row created hh hr hstage =>
    refine hw.set rfl (fun ro => hsame ro rfl rfl fun _ hm => hm)
      (hsame _ rfl rfl (fun _ hm => hm) ((hw _ _ hr).congr ?_ ?_))
    all_goals cases created <;> rfl
  | @landed h H ro row hh hr hstage =>
    refine hw.set rfl (fun ro => hsame ro rfl rfl (List.subset_append_left _ _)) ?_
    have hro := hsame (t := { w with seen := w.seen ++ [inboundEventId H.ev] }) ro rfl rfl
      (List.subset_append_left _ _) (hw _ _ hr)
    exact Cached.seen (Cached.congr (hro.dropOwed (inboundEventId H.ev) (by simp)) rfl rfl) rfl rfl
      fun _ hm => hm
  | failed hh hr hstage =>
    exact hw.set rfl (fun ro => hsame ro rfl rfl fun _ hm => hm)
      (hsame _ rfl rfl (fun _ hm => hm) ((hw _ _ hr).congr rfl rfl))
  | routed hh hr hstage hretained => exact hw.routed hr
  | retried hh hr hstage hretained hpass => exact hw.retried hr
  | passed hl hr hasked =>
    exact hw.set rfl (fun ro => hsame ro rfl rfl fun _ hm => hm)
      (hsame _ rfl rfl (fun _ hm => hm) ((hw _ _ hr).congr rfl rfl))
  | @replaced r ro pass readable hr hpass =>
    have hold : ∀ ro, Cached w ro →
        Cached (w.replaceBatch pass.entries pass.stillFailing readable) ro := fun ro hc => by
      cases readable with
      | false => exact hc
      | true => exact hc.written (Nat.lt_succ_self _)
    refine hw.set (by cases readable <;> rfl) (fun ro hc => (hold ro hc).seen rfl rfl
      fun _ hm => hm) ?_
    exact Cached.seen (Cached.congr (hold ro (hw _ _ hr)) rfl rfl) rfl rfl fun _ hm => hm
  | appendOther hev => exact hw.keep rfl fun ro hc => hc.written (Nat.lt_succ_self _)
  | markOther => exact hw.keep rfl fun ro => hsame ro rfl rfl (List.subset_append_left _ _)
  | holdOther hr =>
    exact hw.set rfl (fun ro => hsame ro rfl rfl fun _ hm => hm)
      (hsame _ rfl rfl (fun _ hm => hm) ((hw _ _ hr).congr rfl rfl))

/-! ### The hourly limit -/

/-- The posts a router's limiter counted for an app, in order. -/
def charges (history : List Logged) (r : ℕ) (appId : Text) : List Admission :=
  history.filterMap fun
    | .charged r' appId' a => if r' = r ∧ appId' = appId then some a else none
    | _ => none

lemma charges_append (history logged : List Logged) (r : ℕ) (appId : Text) :
    charges (history ++ logged) r appId = charges history r appId ++ charges logged r appId :=
  List.filterMap_append

/-- The limiter remembers the last hour of what it counted, which no hour of it exceeds. -/
structure LimitedBy (w : World) (r : ℕ) (ro : Router) : Prop where
  remembers : ∀ appId, recent Admission.time HOUR_MS w.now (charges w.history r appId) =
    recent Admission.time HOUR_MS w.now (ro.botLimiter.admitted appId)
  limit : ∀ inbox bot, ro.botInbox = some inbox → bot ∈ inbox.bots →
    AtMost Admission.time HOUR_MS bot.max (charges w.history r bot.appId)

structure Limited (w : World) : Prop where
  built : ∀ r ro, w.routers r = some ro → LimitedBy w r ro
  unbuilt : ∀ r appId, w.routers r = none → charges w.history r appId = []

lemma LimitedBy.congr {w t : World} {r : ℕ} {ro ro' : Router} (h : LimitedBy w r ro)
    (hnow : w.now ≤ t.now)
    (hcharges : ∀ appId, charges t.history r appId = charges w.history r appId)
    (hlimiter : ro'.botLimiter.admitted = ro.botLimiter.admitted)
    (hinbox : ro'.botInbox = ro.botInbox) : LimitedBy t r ro' where
  remembers appId := by
    rw [hcharges, hlimiter, ← recent_recent hnow, h.remembers, recent_recent hnow]
  limit inbox bot hin hbot := by
    rw [hcharges]
    exact h.limit inbox bot (hinbox ▸ hin) hbot

lemma Limited.keep {w t : World} (hw : Limited w) (hnow : w.now ≤ t.now)
    (hcharges : ∀ r appId, charges t.history r appId = charges w.history r appId)
    (hrouters : t.routers = w.routers) : Limited t where
  built r ro hr := (hw.built r ro (hrouters ▸ hr)).congr hnow (hcharges r) rfl rfl
  unbuilt r appId hr := (hcharges r appId).trans (hw.unbuilt r appId (hrouters ▸ hr))

lemma Limited.set {w t : World} {r : ℕ} {ro : Router} (hw : Limited w) (hnow : t.now = w.now)
    (hcharges : ∀ r' appId, r' ≠ r → charges t.history r' appId = charges w.history r' appId)
    (hrouters : t.routers = Function.update w.routers r (some ro)) (hro : LimitedBy t r ro) :
    Limited t where
  built r' ro' hr' := by
    rw [hrouters, Function.update_apply] at hr'
    split at hr'
    · rename_i heq
      obtain rfl : ro = ro' := by simpa using hr'
      exact heq ▸ hro
    · rename_i hne
      exact (hw.built r' ro' hr').congr hnow.ge (fun appId => hcharges r' appId hne) rfl rfl
  unbuilt r' appId hr' := by
    rw [hrouters, Function.update_apply] at hr'
    split at hr'
    · cases hr'
    · rename_i hne
      exact (hcharges r' appId hne).trans (hw.unbuilt r' appId hr')

lemma mem_bots_of_asks {inbox : BotInboxConfig} {appId : Text} {bot : NamedBot}
    (h : asks w ro c inbox appId = some bot) : bot ∈ inbox.bots := by
  unfold asks namedBot at h
  split at h
  · rename_i bot' known hbot hknown
    have hmem : bot' ∈ inbox.bots := by
      split at hbot
      · cases hbot
      · split at hbot
        · rename_i hfind
          obtain rfl := Except.ok.inj hbot
          exact List.mem_of_find?_eq_some hfind
        · cases hbot
    split at h
    · cases h
    · obtain rfl := Option.some.inj h
      exact hmem
  · cases h

lemma botInbox_of_heard {ev : SlackEvent} {inbox : BotInboxConfig}
    (h : heard w ro ev = .ok inbox) : ro.botInbox = some inbox := by
  unfold heard at h
  split at h
  · rename_i inbox' id hin hid
    repeat' split at h
    all_goals first
      | cases h; exact hin
      | cases h
  · cases h

lemma exists_asks_of_asksAtStart {bot : NamedBot} (h : asksAtStart w ro c = some bot) :
    ∃ inbox appId, ro.botInbox = some inbox ∧ asks w ro c inbox appId = some bot := by
  unfold asksAtStart at h
  split at h
  · rename_i inbox appId hheard happ
    exact ⟨inbox, appId, botInbox_of_heard hheard, h⟩
  · cases h

lemma asks_of_asked {l : Label} {bot : NamedBot} (h : asked w l = some (ro, c, bot)) :
    (∃ r, w.routers r = some ro) ∧
      ∃ inbox appId, ro.botInbox = some inbox ∧ asks w ro c inbox appId = some bot := by
  cases l with
  | envelope h' r event apiAppId readable =>
    simp only [asked, Option.bind_eq_some_iff, Option.map_eq_some_iff, Prod.mk.injEq] at h
    obtain ⟨ro', hr, bot', hbot, rfl, rfl, rfl⟩ := h
    exact ⟨⟨r, hr⟩, exists_asks_of_asksAtStart hbot⟩
  | resume h' readable =>
    simp only [asked, Option.bind_eq_some_iff] at h
    obtain ⟨H, -, ro', hr, h⟩ := h
    split at h
    · rename_i answer inbox hstage hinbox
      simp only [Option.map_eq_some_iff, Prod.mk.injEq] at h
      obtain ⟨bot', hbot, rfl, rfl, rfl⟩ := h
      cases answer with
      | app appId => exact ⟨⟨H.router, hr⟩, inbox, appId, hinbox, hbot⟩
      | failed retryable => cases hbot
    · cases h
  | retryNext h' r =>
    simp only [asked, Option.bind_eq_some_iff, Option.map_eq_some_iff, Prod.mk.injEq] at h
    obtain ⟨ro', hr, pass, -, e, -, bot', hbot, rfl, rfl, rfl⟩ := h
    exact ⟨⟨r, hr⟩, exists_asks_of_asksAtStart hbot⟩
  | _ => cases h

lemma charges_of_logged {history logged : List Logged}
    (h : ∀ e ∈ logged, ∀ r appId a, e ≠ .charged r appId a) (r : ℕ) (appId : Text) :
    charges (history ++ logged) r appId = charges history r appId := by
  have hnil : charges logged r appId = [] := by
    refine List.filterMap_eq_nil_iff.mpr fun e he => ?_
    cases e with
    | charged r' appId' a => exact absurd rfl (h _ he r' appId' a)
    | _ => rfl
  rw [charges_append, hnil, List.append_nil]

lemma charges_charged (history : List Logged) (r : ℕ) (bot : NamedBot) (a : Admission)
    (appId : Text) : charges (history ++ [.charged r bot.appId a]) r appId =
      charges history r appId ++ if bot.appId = appId then [a] else [] := by
  rw [charges_append]
  congr 1
  by_cases h : bot.appId = appId <;> simp [charges, h]

lemma LimitedBy.answered {t : World} {r : ℕ} {bot : Option NamedBot} {p : Progress}
    (h : LimitedBy w r ro) (hnow : t.now = w.now) (hhistory : t.history = w.history ++ p.logged)
    (hinbox : p.router.botInbox = ro.botInbox) (hc : c.router = r)
    (hbot : ∀ b, bot = some b → ∃ inbox, ro.botInbox = some inbox ∧ b ∈ inbox.bots)
    (hans : Answered w ro c bot p) : LimitedBy t r p.router := by
  have hprune : ∀ bot : NamedBot, p.router.botLimiter.admitted =
        Function.update ro.botLimiter.admitted bot.appId (ro.botLimiter.recentOf w.now bot) →
      (∀ appId, charges t.history r appId = charges w.history r appId) →
        LimitedBy t r p.router := by
    intro bot hlim hcharges
    refine ⟨fun appId => ?_, fun inbox b hin hb => ?_⟩
    · rw [hcharges, hnow, hlim, h.remembers, Function.update_apply]
      split
      · rename_i heq
        rw [BotLimiter.recentOf, recent_recent le_rfl, heq]
      · rfl
    · rw [hcharges]
      exact h.limit inbox b (hinbox ▸ hin) hb
  cases hans with
  | unasked hlog hlim =>
    exact h.congr hnow.ge (fun appId => by rw [hhistory, hlog, List.append_nil])
      (by rw [hlim]) hinbox
  | counted hcount hlog hlim =>
    exact hprune _ hlim fun appId => by rw [hhistory, hlog, List.append_nil]
  | cutOff hcount hlog hstage hlim =>
    exact hprune _ hlim fun appId => by
      rw [hhistory, hlog]
      exact charges_of_logged (by simp) r appId
  | @charged bot p hcount hroom hlog hlim =>
    obtain ⟨inbox, hin, hmem⟩ := hbot bot rfl
    have hcharges : ∀ appId, charges t.history r appId = charges w.history r appId ++
        if bot.appId = appId then [⟨w.now, inboundEventId c.ev⟩] else [] := fun appId => by
      rw [hhistory, hlog, hc, charges_charged]
    have hrecent := h.remembers bot.appId
    refine ⟨fun appId => ?_, fun inbox' b hin' hb => ?_⟩
    · rw [hcharges, hnow, hlim, Function.update_apply, recent_append, h.remembers]
      by_cases heq : appId = bot.appId
      · rw [if_pos heq, if_pos heq.symm, heq, recent_append, BotLimiter.recentOf,
          recent_recent le_rfl]
      · rw [if_neg heq, if_neg (Ne.symm heq)]
        exact List.append_nil _
    · obtain rfl : inbox = inbox' := by
        rw [hinbox, hin] at hin'
        exact Option.some.inj hin'
      rw [hcharges]
      by_cases heq : bot.appId = b.appId
      · obtain rfl : bot = b := List.inj_on_of_nodup_map inbox.distinct hmem hb heq
        rw [if_pos rfl]
        refine (h.limit inbox bot hin hmem).snoc ?_
        rw [hrecent]
        exact hroom
      · rw [if_neg heq, List.append_nil]
        exact h.limit inbox b hin hb

lemma Limited.plain {w t : World} {r : ℕ} {ro ro' : Router} {logged : List Logged} (hw : Limited w)
    (hr : w.routers r = some ro) (hnow : t.now = w.now)
    (hhistory : t.history = w.history ++ logged)
    (hlogged : ∀ e ∈ logged, ∀ r appId a, e ≠ .charged r appId a)
    (hrouters : t.routers = Function.update w.routers r (some ro'))
    (hlimiter : ro'.botLimiter = ro.botLimiter) (hinbox : ro'.botInbox = ro.botInbox) :
    Limited t := by
  have hcharges : ∀ r appId, charges t.history r appId = charges w.history r appId :=
    fun r appId => by rw [hhistory, charges_of_logged hlogged]
  exact hw.set hnow (fun r' appId _ => hcharges r' appId) hrouters
    ((hw.built r ro hr).congr hnow.ge (hcharges r) (by rw [hlimiter]) hinbox)

lemma Limited.step {l : Label} {t : World} (hw : Limited w) (h : Moves env w l t) : Limited t := by
  cases h with
  | @tick ms hms => exact hw.keep (le_add_of_nonneg_right hms) (fun _ _ => rfl) rfl
  | @wire r inbox hr =>
    refine hw.set rfl (fun _ _ _ => rfl) rfl ⟨fun appId => ?_, fun inbox' bot hin hbot => ?_⟩
    · show recent _ _ _ (charges w.history r appId) = recent _ _ _ []
      rw [hw.unbuilt r appId hr]
    · show AtMost _ _ _ (charges w.history r bot.appId)
      rw [hw.unbuilt r bot.appId hr]
      exact atMost_nil
  | @attempt l r ro H c bot p hl hr hc hh hasked hgoes =>
    refine hw.set rfl (fun r' appId hne => ?_) rfl ((hw.built r ro hr).answered rfl rfl
      hgoes.botInbox hc ?_ hgoes.answered)
    swap
    · rintro b rfl
      obtain ⟨-, inbox, appId, hin, hasks⟩ := asks_of_asked (hasked : asked w l = some (ro, c, b))
      exact ⟨inbox, hin, mem_bots_of_asks hasks⟩
    show charges (w.history ++ p.logged) r' appId = _
    cases hgoes.answered with
    | unasked hlog hlim => rw [hlog, List.append_nil]
    | counted hcount hlog hlim => rw [hlog, List.append_nil]
    | cutOff hcount hlog hstage hlim =>
      rw [hlog]
      exact charges_of_logged (by simp) r' appId
    | charged hcount hroom hlog hlim =>
      rw [hlog, charges_append, hc]
      simp [charges, Ne.symm hne]
  | lookedUp hr => exact hw.plain hr rfl (List.append_nil _).symm (by simp) rfl rfl rfl
  | @noticed h H ro bot now row created hh hr hstage =>
    refine hw.plain hr rfl rfl ?_ rfl ?_ ?_
    all_goals cases created
    all_goals first
      | rfl
      | simp
  | landed hh hr hstage => exact hw.plain hr rfl rfl (by simp) rfl rfl rfl
  | failed hh hr hstage => exact hw.plain hr rfl rfl (by simp [Router.finally]) rfl rfl rfl
  | @routed h H ro result hh hr hstage hretained =>
    unfold World.routed
    split
    · refine hw.plain hr rfl (List.append_nil _).symm (by simp) rfl ?_ ?_
      all_goals split <;> rfl
    · exact hw.keep le_rfl (fun _ _ => rfl) rfl
  | @retried h H ro result e pass hh hr hstage hretained hpass =>
    unfold World.retried
    repeat' split
    all_goals exact hw.plain hr rfl (List.append_nil _).symm (by simp) rfl rfl rfl
  | passed hl hr hasked => exact hw.plain hr rfl (List.append_nil _).symm (by simp) rfl rfl rfl
  | @replaced r ro pass readable hr hpass =>
    cases readable
    all_goals exact hw.plain hr rfl (List.append_nil _).symm (by simp) rfl rfl rfl
  | appendOther hev => exact hw.keep le_rfl (fun _ _ => rfl) rfl
  | markOther => exact hw.keep le_rfl (fun _ _ => rfl) rfl
  | holdOther hr => exact hw.plain hr rfl (List.append_nil _).symm (by simp) rfl rfl rfl

/-! ### A cut-off post creates no row -/

def CutOff (w : World) (h : ℕ) : Prop := ∃ r post, .cutOff h r post ∈ w.history

def Rowed (w : World) (h : ℕ) : Prop := ∃ row, .row h row ∈ w.history

/-- An attempt that was cut off or has its row is closed, and never both. -/
structure Settled (w : World) : Prop where
  cutOff : ∀ h, CutOff w h → ∃ H, w.handlers h = some H ∧ Closed H.stage
  rowed : ∀ h, Rowed w h → ∃ H, w.handlers h = some H ∧ Closed H.stage
  one : ∀ h, CutOff w h → ¬ Rowed w h

lemma Settled.of_eq {w t : World} (hw : Settled w) (hhistory : t.history = w.history)
    (hclosed : ∀ h H, w.handlers h = some H → Closed H.stage →
      ∃ H', t.handlers h = some H' ∧ Closed H'.stage) : Settled t := by
  have hcut : ∀ h, CutOff t h → CutOff w h := fun h hh => by simpa only [CutOff, hhistory] using hh
  have hrow : ∀ h, Rowed t h → Rowed w h := fun h hh => by simpa only [Rowed, hhistory] using hh
  refine ⟨fun h hh => ?_, fun h hh => ?_, fun h hh hr => hw.one h (hcut h hh) (hrow h hr)⟩
  · obtain ⟨H, hH, hstage⟩ := hw.cutOff h (hcut h hh)
    exact hclosed h H hH hstage
  · obtain ⟨H, hH, hstage⟩ := hw.rowed h (hrow h hh)
    exact hclosed h H hH hstage

lemma Settled.close {w t : World} {h : ℕ} {H : Handler} {logged : List Logged} (hw : Settled w)
    (hhistory : t.history = w.history ++ logged)
    (hlogged : ∀ e ∈ logged, ∃ row, e = .notice row)
    (hhandlers : t.handlers = Function.update w.handlers h (some H)) (hstage : Closed H.stage) :
    Settled t := by
  have hmem : ∀ e, (∀ row, e ≠ .notice row) → e ∈ t.history → e ∈ w.history := fun e hne he => by
    rw [hhistory, List.mem_append] at he
    rcases he with he | he
    · exact he
    · obtain ⟨row, rfl⟩ := hlogged e he
      exact absurd rfl (hne row)
  have hclosed : ∀ h' H', w.handlers h' = some H' → Closed H'.stage →
      ∃ H', t.handlers h' = some H' ∧ Closed H'.stage := by
    intro h' H' hH' hstage'
    rw [hhandlers, Function.update_apply]
    split
    · exact ⟨H, rfl, hstage⟩
    · exact ⟨H', hH', hstage'⟩
  refine ⟨?_, ?_, ?_⟩
  · rintro h' ⟨r, post, he⟩
    obtain ⟨H', hH', hstage'⟩ := hw.cutOff h' ⟨r, post, hmem _ (by simp) he⟩
    exact hclosed h' H' hH' hstage'
  · rintro h' ⟨row, he⟩
    obtain ⟨H', hH', hstage'⟩ := hw.rowed h' ⟨row, hmem _ (by simp) he⟩
    exact hclosed h' H' hH' hstage'
  · rintro h' ⟨r, post, he⟩ ⟨row, he'⟩
    exact hw.one h' ⟨r, post, hmem _ (by simp) he⟩ ⟨row, hmem _ (by simp) he'⟩

lemma Settled.go {w t : World} {h : ℕ} {H : Handler} {logged : List Logged} (hw : Settled w)
    (hopen : ∀ H, w.handlers h = some H → ¬ Closed H.stage)
    (hhistory : t.history = w.history ++ logged)
    (hhandlers : t.handlers = Function.update w.handlers h (some H))
    (hcut : ∀ h' r post, .cutOff h' r post ∈ logged → h' = h ∧ Closed H.stage)
    (hrow : ∀ h' row, .row h' row ∈ logged → h' = h ∧ Closed H.stage)
    (hone : (∃ r post, .cutOff h r post ∈ logged) → ¬ ∃ row, .row h row ∈ logged) : Settled t := by
  have hcut' : ∀ h', CutOff t h' →
      CutOff w h' ∨ h' = h ∧ Closed H.stage ∧ ∃ r post, .cutOff h r post ∈ logged := by
    rintro h' ⟨r, post, he⟩
    rw [hhistory, List.mem_append] at he
    rcases he with he | he
    · exact .inl ⟨r, post, he⟩
    · obtain ⟨rfl, hc⟩ := hcut h' r post he
      exact .inr ⟨rfl, hc, r, post, he⟩
  have hrow' : ∀ h', Rowed t h' →
      Rowed w h' ∨ h' = h ∧ Closed H.stage ∧ ∃ row, .row h row ∈ logged := by
    rintro h' ⟨row, he⟩
    rw [hhistory, List.mem_append] at he
    rcases he with he | he
    · exact .inl ⟨row, he⟩
    · obtain ⟨rfl, hc⟩ := hrow h' row he
      exact .inr ⟨rfl, hc, row, he⟩
  have hold : ∀ h', (∃ H', w.handlers h' = some H' ∧ Closed H'.stage) → h' ≠ h ∧
      ∃ H', t.handlers h' = some H' ∧ Closed H'.stage := by
    rintro h' ⟨H', hH', hstage⟩
    have hne : h' ≠ h := by
      rintro rfl
      exact hopen H' hH' hstage
    exact ⟨hne, H', by rw [hhandlers, Function.update_of_ne hne, hH'], hstage⟩
  have hself : Closed H.stage → ∃ H', t.handlers h = some H' ∧ Closed H'.stage := fun hstage =>
    ⟨H, by rw [hhandlers, Function.update_self], hstage⟩
  refine ⟨fun h' hh => ?_, fun h' hh => ?_, fun h' hh hr => ?_⟩
  · rcases hcut' h' hh with hh | ⟨rfl, hstage, -⟩
    · exact (hold h' (hw.cutOff h' hh)).2
    · exact hself hstage
  · rcases hrow' h' hh with hh | ⟨rfl, hstage, -⟩
    · exact (hold h' (hw.rowed h' hh)).2
    · exact hself hstage
  · rcases hcut' h' hh with hh | ⟨rfl, -, hcutoff⟩
    · rcases hrow' h' hr with hr | ⟨rfl, -, -⟩
      · exact hw.one h' hh hr
      · exact (hold _ (hw.cutOff _ hh)).1 rfl
    · rcases hrow' _ hr with hr | ⟨-, -, hrowed⟩
      · exact (hold _ (hw.rowed _ hr)).1 rfl
      · exact hone hcutoff hrowed

lemma Settled.step {l : Label} {t : World} (hw : Settled w) (h : Moves env w l t) : Settled t := by
  have hkeep : ∀ h H, w.handlers h = some H → Closed H.stage →
      ∃ H', w.handlers h = some H' ∧ Closed H'.stage := fun h H hH hstage => ⟨H, hH, hstage⟩
  cases h with
  | tick hms => exact hw.of_eq rfl hkeep
  | wire hr => exact hw.of_eq rfl hkeep
  | @attempt l r ro H c bot p hl hr hc hh hasked hgoes =>
    have hrow : ∀ h row, .row h row ∉ p.logged := fun h row => by
      cases hgoes.answered with
      | unasked hlog hlim => simp [hlog]
      | counted hcount hlog hlim => simp [hlog]
      | charged hcount hroom hlog hlim => simp [hlog]
      | cutOff hcount hlog hstage hlim => simp [hlog]
    have hcut : ∀ h r post, .cutOff h r post ∈ p.logged → h = c.handler ∧ Closed p.stage := by
      intro h r post he
      cases hgoes.answered with
      | unasked hlog hlim => simp [hlog] at he
      | counted hcount hlog hlim => simp [hlog] at he
      | charged hcount hroom hlog hlim => simp [hlog] at he
      | cutOff hcount hlog hstage hlim =>
        rw [hlog, List.mem_singleton, Logged.cutOff.injEq] at he
        exact ⟨he.1, hstage⟩
    refine hw.go (h := c.handler) (H := { H with stage := p.stage }) ?_ rfl rfl hcut
      (fun h row he => absurd he (hrow h row)) fun _ ⟨row, he⟩ => hrow _ row he
    rintro H' hH' hclosed
    rcases hh with ⟨hnone, -⟩ | ⟨hsome, answer, hstage⟩
    · rw [hnone] at hH'
      cases hH'
    · obtain rfl : H = H' := by simpa [hsome] using hH'
      rw [hstage] at hclosed
      exact hclosed
  | @lookedUp r ro botId answer hr =>
    refine hw.of_eq rfl fun h H hH hstage => ?_
    have hne : H.stage ≠ .lookup := fun heq => by
      rw [heq] at hstage
      exact hstage
    refine ⟨H, ?_, hstage⟩
    show (w.handlers h).map _ = some H
    simp [hH, hne]
  | @noticed h H ro bot now row created hh hr hstage =>
    refine hw.close (h := h) (H := { H with stage := .returned ⟨.refused, .botCutOff, false⟩ }) rfl
      ?_ rfl trivial
    cases created <;> simp
  | @landed h H ro row hh hr hstage =>
    refine hw.go (h := h) (H := { H with stage := .returned ⟨.accepted, .bot, false⟩ }) ?_ rfl rfl
      (by simp) (by simp [Closed]) (by simp)
    rintro H' hH' hclosed
    obtain rfl : H = H' := by simpa [hh] using hH'
    rw [hstage] at hclosed
    exact hclosed
  | @failed h H ro row hh hr hstage =>
    exact hw.close (h := h)
      (H := { H with stage := .returned ⟨.handlerFailed, .createFailed, true⟩ }) rfl
      (by simp [Router.finally]) rfl trivial
  | @routed h H ro result hh hr hstage hretained =>
    unfold World.routed
    split
    all_goals
      exact hw.close (h := h) (H := { H with stage := .done })
        (List.append_nil _).symm (by simp) rfl
        trivial
  | @retried h H ro result e pass hh hr hstage hretained hpass =>
    unfold World.retried
    repeat' split
    all_goals
      exact hw.close (h := h) (H := { H with stage := .done })
        (List.append_nil _).symm (by simp) rfl
        trivial
  | passed hl hr hasked => exact hw.of_eq rfl hkeep
  | @replaced r ro pass readable hr hpass =>
    cases readable <;> exact hw.of_eq rfl hkeep
  | appendOther hev => exact hw.of_eq rfl hkeep
  | markOther => exact hw.of_eq rfl hkeep
  | holdOther hr => exact hw.of_eq rfl hkeep

/-! ### A failed row leaves its post marked -/

/-- An attempt is at a bot's post, and returns it as admitted only when its row failed. -/
structure Honest (H : Handler) : Prop where
  bots : (present H.ev.bot_id).isSome
  retained : ∀ e, H.retained = some e → e.ev = H.ev
  failed : ∀ result, H.stage = .returned result → result.admitted → result.status = .handlerFailed

def AllHonest (w : World) : Prop := ∀ h H, w.handlers h = some H → Honest H

lemma AllHonest.set {w t : World} {h : ℕ} {H : Handler} (hw : AllHonest w)
    (hhandlers : t.handlers = Function.update w.handlers h (some H)) (hH : Honest H) :
    AllHonest t := by
  intro h' H' hH'
  rw [hhandlers, Function.update_apply] at hH'
  split at hH'
  · exact Option.some.inj hH' ▸ hH
  · exact hw h' H' hH'

lemma AllHonest.keep {w t : World} (hw : AllHonest w) (hhandlers : t.handlers = w.handlers) :
    AllHonest t := fun h H hH => hw h H (hhandlers ▸ hH)

lemma Honest.restage {H : Handler} {stage : Stage} (h : Honest H)
    (hstage : ∀ result, stage = .returned result → result.admitted →
      result.status = .handlerFailed) : Honest { H with stage := stage } :=
  ⟨h.bots, h.retained, hstage⟩

lemma handlers_routed (w : World) (r : ℕ) (ro : Router) (ev : SlackEvent) (result : Result) :
    (w.routed r ro ev result).handlers = w.handlers := by
  unfold World.routed
  split <;> rfl

lemma handlers_retried (w : World) (r : ℕ) (ro : Router) (pass : Pass) (e : DeadLetterEntry)
    (result : Result) : (w.retried r ro pass e result).handlers = w.handlers := by
  unfold World.retried
  repeat' split
  all_goals rfl

lemma AllHonest.step {l : Label} {t : World} (hw : AllHonest w) (h : Moves env w l t) :
    AllHonest t := by
  cases h with
  | @attempt l r ro H c bot p hl hr hc hh hasked hgoes =>
    refine hw.set (h := c.handler) (H := { H with stage := p.stage }) rfl ?_
    have hstage : ∀ result, p.stage = .returned result → result.admitted →
        result.status = .handlerFailed := fun result heq hadm => by
      rw [hgoes.unadmitted result heq] at hadm
      cases hadm
    rcases hh with ⟨-, hbots, hretained⟩ | ⟨hsome, -⟩
    · exact ⟨hbots, hretained, hstage⟩
    · exact (hw c.handler H hsome).restage hstage
  | @lookedUp r ro botId answer hr =>
    intro h H' hH'
    obtain ⟨H, hH, rfl⟩ := Option.map_eq_some_iff.mp hH'
    split
    · exact (hw h H hH).restage nofun
    · exact hw h H hH
  | noticed hh hr hstage =>
    refine hw.set rfl ((hw _ _ hh).restage fun result heq hadm => ?_)
    cases heq
    cases hadm
  | landed hh hr hstage =>
    refine hw.set rfl ((hw _ _ hh).restage fun result heq hadm => ?_)
    cases heq
    cases hadm
  | failed hh hr hstage =>
    refine hw.set rfl ((hw _ _ hh).restage fun result heq hadm => ?_)
    cases heq
    rfl
  | routed hh hr hstage hretained =>
    exact hw.set (handlers_routed _ _ _ _ _) ((hw _ _ hh).restage nofun)
  | retried hh hr hstage hretained hpass =>
    exact hw.set (handlers_retried _ _ _ _ _ _) ((hw _ _ hh).restage nofun)
  | @replaced r ro pass readable hr hpass => cases readable <;> exact hw.keep rfl
  | _ => exact hw.keep rfl

/-- A post whose row failed is marked by a retained copy, or by one its pass is to write back. -/
def Kept (w : World) (l : Label) (t : World) : Prop :=
  ∀ h H result, l = .settle h → w.handlers h = some H → H.stage = .returned result →
    result.admitted → Marks t (inboundEventId H.ev) ∨
      ∃ ro pass e, t.routers H.router = some ro ∧ ro.retryPass = some pass ∧
        e ∈ pass.stillFailing ∧ e.marked ∧ inboundEventId e.ev = inboundEventId H.ev

lemma marks_append (w : World) (ev : SlackEvent) {attempts : ℕ}
    (hbot : (present ev.bot_id).isSome) (hadmitted : ev.botAdmitted) :
    Marks (w.append ev attempts) (inboundEventId ev) :=
  ⟨⟨ev, w.now, attempts⟩, by simp [World.append], by
    simp [DeadLetterEntry.marked, hbot, hadmitted], rfl⟩

lemma kept_of_moves {l : Label} {t : World} (hw : AllHonest w) (h : Moves env w l t) :
    Kept w l t := by
  rintro h' H' result' hl hH' hstage' hadmitted
  cases h with
  | @routed h H ro result hh hr hstage hretained =>
    obtain rfl : h = h' := Label.settle.inj hl
    obtain rfl : H = H' := by simpa [hh] using hH'
    obtain rfl : result = result' := by simpa [hstage] using hstage'
    have hok := hw h H hh
    have hstatus := hok.failed result hstage hadmitted
    refine .inl ?_
    by_cases hev : H.ev.botAdmitted
    · have heq : World.routed (w.setHandler h { H with stage := .done }) H.router ro H.ev result =
          ((w.setHandler h { H with stage := .done }).append H.ev 1).setRouter H.router ro := by
        simp [World.routed, hstatus, hev]
      rw [heq]
      exact marks_append (w.setHandler h { H with stage := .done }) H.ev hok.bots hev
    · have heq : World.routed (w.setHandler h { H with stage := .done }) H.router ro H.ev result =
          ((w.setHandler h { H with stage := .done }).append
            { H.ev with botAdmitted := true } 1).setRouter H.router
            (ro.addOwed (inboundEventId H.ev)) := by
        simp [World.routed, hstatus, hev, hadmitted]
      rw [heq]
      exact marks_append (w.setHandler h { H with stage := .done })
        { H.ev with botAdmitted := true } hok.bots rfl
  | @retried h H ro result e pass hh hr hstage hretained hpass =>
    obtain rfl : h = h' := Label.settle.inj hl
    obtain rfl : H = H' := by simpa [hh] using hH'
    obtain rfl : result = result' := by simpa [hstage] using hstage'
    have hok := hw h H hh
    have hstatus := hok.failed result hstage hadmitted
    have hev : e.ev = H.ev := hok.retained e hretained
    by_cases hmarked : e.ev.botAdmitted
    · let kept : Pass := { pass with
        working := false, stillFailing := pass.stillFailing ++ [e.bump] }
      refine .inr ⟨{ ro with retryPass := some kept }, kept, e.bump, ?_, rfl, ?_, ?_, ?_⟩
      · rw [World.retried, if_pos hstatus, if_neg (by simp [hmarked])]
        exact Function.update_self ..
      · exact List.mem_append_right _ List.mem_cons_self
      · have hmarked' : H.ev.botAdmitted := hev ▸ hmarked
        simp [DeadLetterEntry.marked, DeadLetterEntry.bump, hmarked', hev, hok.bots]
      · rw [DeadLetterEntry.bump, hev]
    · refine .inl ?_
      rw [World.retried, if_pos hstatus, if_pos (by simp [hmarked, hadmitted])]
      have hbots : (present e.ev.bot_id).isSome := hev ▸ hok.bots
      rw [← hev]
      exact marks_append (w.setHandler h { H with stage := .done })
        { e.ev with botAdmitted := true } hbots rfl
  | attempt hne hr hc hh hasked hgoes => exact absurd hl (hne h')
  | passed hne hr hasked => exact absurd hl (hne h')
  | _ => cases hl

/-! ### Owed posts before the limiter -/

/-- The post that a step counts or cuts off. -/
def limited : Logged → Option Text
  | .charged _ _ a => some a.post
  | .cutOff _ _ post => some post
  | _ => none

/-- The step neither counts nor cuts off a post whose row is still owed. -/
def Spares (w t : World) : Prop :=
  ∀ e post, t.history = w.history ++ [e] → limited e = some post → ¬ Owed w post

/-- A post that a step brings before the limiter, and that was not counted within the hour, is held
admitted by no attempt; and when a retry pass brings it, no retained copy marks it. -/
def Clear (w : World) (l : Label) : Prop :=
  ∀ ro c bot, asked w l = some (ro, c, bot) → ¬ Counted w ro bot (inboundEventId c.ev) →
    inboundEventId c.ev ∉ w.seen → ¬ Unrecorded w (inboundEventId c.ev) ∧
      (c.owed.isSome → ¬ Marks w (inboundEventId c.ev))

/-- A step counts or cuts off the post it brings before the limiter, unless it was counted. -/
lemma limited_iff {l : Label} {t : World} (h : Moves env w l t) {post : Text} :
    (∃ e, t.history = w.history ++ [e] ∧ limited e = some post) ↔
      ∃ ro c bot, asked w l = some (ro, c, bot) ∧ inboundEventId c.ev = post ∧
        ¬ Counted w ro bot post := by
  have hplain : ∀ logged : List Logged, t.history = w.history ++ logged →
      (∀ e ∈ logged, limited e = none) → asked w l = none →
      ((∃ e, t.history = w.history ++ [e] ∧ limited e = some post) ↔
        ∃ ro c bot, asked w l = some (ro, c, bot) ∧ inboundEventId c.ev = post ∧
          ¬ Counted w ro bot post) := by
    intro logged hhistory hlogged hasked
    constructor
    · rintro ⟨e, he, hpost⟩
      rw [hhistory] at he
      obtain rfl := List.append_cancel_left he
      rw [hlogged e List.mem_cons_self] at hpost
      cases hpost
    · rintro ⟨ro, c, bot, h, -⟩
      rw [hasked] at h
      cases h
  have hnil : t.history = w.history → asked w l = none →
      ((∃ e, t.history = w.history ++ [e] ∧ limited e = some post) ↔
        ∃ ro c bot, asked w l = some (ro, c, bot) ∧ inboundEventId c.ev = post ∧
          ¬ Counted w ro bot post) :=
    fun hhistory => hplain [] (hhistory.trans (List.append_nil _).symm) (by simp)
  cases h with
  | @attempt l r ro H c bot p hne hr hc hh hasked hgoes =>
    have hasked' : ∀ {b}, bot = some b → ((∃ ro c bot, asked w l = some (ro, c, bot) ∧
        inboundEventId c.ev = post ∧ ¬ Counted w ro bot post) ↔
        inboundEventId c.ev = post ∧ ¬ Counted w ro b post) := by
      rintro b rfl
      rw [hasked]
      constructor
      · rintro ⟨ro', c', bot', heq, hpost, hcount⟩
        obtain ⟨rfl, rfl, rfl⟩ : ro = ro' ∧ c = c' ∧ b = bot' := by simpa using heq
        exact ⟨hpost, hcount⟩
      · rintro ⟨hpost, hcount⟩
        exact ⟨ro, c, b, rfl, hpost, hcount⟩
    have hhistory : (w.advance c.handler r H p).history = w.history ++ p.logged := rfl
    cases hgoes.answered with
    | unasked hlog hlim => exact hplain _ hhistory (by simp [hlog]) hasked
    | counted hcount hlog hlim =>
      rw [hasked' rfl, hhistory, hlog, List.append_nil]
      constructor
      · rintro ⟨e, he, -⟩
        simpa using congrArg List.length he
      · rintro ⟨rfl, hcount'⟩
        exact absurd hcount hcount'
    | charged hcount hroom hlog hlim =>
      rw [hasked' rfl, hhistory, hlog]
      simp only [List.append_cancel_left_eq, List.cons.injEq, and_true, exists_eq_left', limited,
        Option.some.injEq]
      exact ⟨fun h => ⟨h, h ▸ hcount⟩, fun h => h.1⟩
    | cutOff hcount hlog hstage hlim =>
      rw [hasked' rfl, hhistory, hlog]
      simp only [List.append_cancel_left_eq, List.cons.injEq, and_true, exists_eq_left', limited,
        Option.some.injEq]
      exact ⟨fun h => ⟨h, h ▸ hcount⟩, fun h => h.1⟩
  | @noticed h H ro bot now row created hh hr hstage =>
    refine hplain (if created then [.notice row] else []) rfl ?_ rfl
    cases created <;> simp [limited]
  | @landed h H ro row hh hr hstage =>
    exact hplain [.row h row] rfl (by simp [limited]) rfl
  | failed hh hr hstage => exact hnil (List.append_nil _) rfl
  | routed hh hr hstage hretained =>
    refine hnil ?_ rfl
    unfold World.routed
    split <;> rfl
  | retried hh hr hstage hretained hpass =>
    refine hnil ?_ rfl
    unfold World.retried
    repeat' split
    all_goals rfl
  | passed hne hr hasked => exact hnil rfl hasked
  | @replaced r ro pass readable hr hpass => cases readable <;> exact hnil rfl rfl
  | _ => exact hnil rfl rfl

/-- **A live post sees what marks it**: what comes before the limiter unmarked for its router's set
is marked by no retained copy, while its row is owed. -/
lemma not_marks_of_live {l : Label} {bot : NamedBot} (hw : AllCached w)
    (hasked : asked w l = some (ro, c, bot)) (hlive : c.owed = none)
    (hseen : inboundEventId c.ev ∉ w.seen) : ¬ Marks w (inboundEventId c.ev) := by
  intro hmarks
  obtain ⟨⟨r, hr⟩, inbox, appId, -, hasks⟩ := asks_of_asked hasked
  unfold asks at hasks
  split at hasks
  · rename_i bot' owed hbot hknown
    split at hasks
    · cases hasks
    · rename_i hnot
      have hload : (loadOwedBots w ro c.readable).2 = some owed := by
        simpa only [known, hlive] using hknown
      rcases (hw r ro hr).loaded hload hmarks with hm | hm
      · exact hnot (by simp [hm])
      · exact hseen hm
  · cases hasks

lemma clear_iff_spares {l : Label} {t : World} (hw : AllCached w) (h : Moves env w l t) :
    Clear w l ↔ Spares w t := by
  constructor
  · rintro hclear e post hhistory hpost ⟨hseen, howed⟩
    obtain ⟨ro, c, bot, hasked, rfl, hcount⟩ := (limited_iff h).mp ⟨e, hhistory, hpost⟩
    obtain ⟨hheld, hpass⟩ := hclear ro c bot hasked hcount hseen
    rcases howed with hmarks | hheld'
    · cases howed : c.owed with
      | none => exact not_marks_of_live hw hasked howed hseen hmarks
      | some owed => exact hpass (by rw [howed]; rfl) hmarks
    · exact hheld hheld'
  · rintro hspares ro c bot hasked hcount hseen
    obtain ⟨e, hhistory, hpost⟩ := (limited_iff h).mpr ⟨ro, c, bot, hasked, rfl, hcount⟩
    have hnot := hspares e _ hhistory hpost
    exact ⟨fun hheld => hnot ⟨hseen, .inr hheld⟩, fun _ hmarks => hnot ⟨hseen, .inl hmarks⟩⟩

/-! ### Runs -/

/-- The daemon begins: its files are as they were left, and it has built no router yet. -/
structure Begins (w : World) : Prop where
  routers : ∀ r, w.routers r = none
  handlers : ∀ h, w.handlers h = none
  history : w.history = []

structure Sound (w : World) : Prop where
  cached : AllCached w
  limits : Limited w
  settled : Settled w
  honest : AllHonest w

lemma Begins.sound (h : Begins w) : Sound w where
  cached r ro hr := by
    rw [h.routers] at hr
    cases hr
  limits := by
    refine ⟨fun r ro hr => ?_, fun r appId _ => ?_⟩
    · rw [h.routers] at hr
      cases hr
    · rw [h.history]
      rfl
  settled := by
    refine ⟨?_, ?_, ?_⟩ <;> simp [CutOff, Rowed, h.history]
  honest h' H hH := by
    rw [h.handlers] at hH
    cases hH

lemma Sound.step {l : Label} {t : World} (hw : Sound w) (h : step env w l = some t) : Sound t :=
  have hm := moves_of_step h
  ⟨hw.cached.step hm, hw.limits.step hm, hw.settled.step hm, hw.honest.step hm⟩

/-- For one post, and no number or date. -/
def onePost : Env where
  sha256Hex _ := unitsOf
    "bfaa973bd6efa302578d98186cbbaa85e73a480b8b9821ef81f2802bafdc9972"
  isoDate _ := []
  number _ := []

def oneAnHour : NamedBot :=
  { appId := unitsOf "A1", name := unitsOf "Deploys", maxPerHour := some 1 }

def deploys : BotInboxConfig where
  channel := unitsOf "C1"
  destination := unitsOf "ops@rig"
  bots := [oneAnHour]
  distinct := by simp
  limited := by simp [oneAnHour, NamedBot.max]
  cooled := by simp [oneAnHour, NamedBot.minutes, DEFAULT_COOLDOWN_MINUTES]

def deployed : SlackEvent :=
  { type := some (unitsOf "message"), bot_id := some (unitsOf "B1"), text := some (unitsOf "done")
    ts := some (unitsOf "1.1"), channel := some (unitsOf "C1") }

/-- A copy of the post is retained after a failed lookup, and another one's lookup is answered. -/
def heldBack : List Label :=
  [.wire 0 (some deploys), .envelope 0 0 deployed (some (unitsOf "A0")) true,
    .lookedUp 0 (unitsOf "B1") (.failed true), .resume 0 true, .settle 0,
    .envelope 1 0 deployed (some (unitsOf "A0")) true,
    .lookedUp 0 (unitsOf "B1") (.app (unitsOf "A1"))]

/-- That one's row fails once it is admitted; the retry pass of a new router delivers the first
copy. -/
def deliveredLate : List Label :=
  [.created 1 false, .settle 1, .wire 1 (some deploys), .retryStart 1 true, .retryNext 2 1,
    .lookedUp 1 (unitsOf "B1") (.app (unitsOf "A1")), .resume 2 true, .created 2 true]

/-- A check that a step brings no post before the limiter. -/
def unasked (w : World) (l : Label) : Bool := (asked w l).isNone

lemma clear_of_unasked {w : World} {l : Label} (h : unasked w l) : Clear w l := by
  intro ro c bot hasked
  simp [unasked, hasked] at h

def asking : World := play (checked (step onePost) unasked) { now := 0 } heldBack

def admittedOnce : World := (step onePost asking (.resume 1 true)).getD { now := 0 }

def landed : World := play (checked (step onePost) unasked) admittedOnce deliveredLate

lemma some_getD {o : Option World} (h : o.isSome) : o = some (o.getD { now := 0 }) := by
  obtain ⟨w, rfl⟩ := Option.isSome_iff_exists.mp h
  rfl

lemma begins : Begins { now := 0 } := ⟨fun _ => rfl, fun _ => rfl, rfl⟩

lemma clear_asking : Clear asking (.resume 1 true) := by
  intro ro c bot hasked hcount hseen
  refine ⟨?_, fun _ => ?_⟩
  · rintro ⟨h, H, hh, hun, -⟩
    have hnone : ∀ h < 2, (asking.handlers h).all (!·.unrecorded) := by decide +kernel
    match h with
    | 0 => simpa [hh, hun] using hnone 0 (by decide)
    | 1 => simpa [hh, hun] using hnone 1 (by decide)
    | h + 2 =>
      have hnew : asking.handlers (h + 2) = none := rfl
      rw [hnew] at hh
      cases hh
  · rintro ⟨e, he, hmarked, -⟩
    have hnone : asking.deadLetter.all (!·.marked) := by decide +kernel
    simpa [hmarked] using List.all_eq_true.mp hnone e he

/-- As in `heldBack` behind another retained event, and the other copy is admitted; a rewire
follows, and the new router's retry pass reads the file before that copy's failed row is
recorded. -/
def lateMark : List Label :=
  [.wire 0 (some deploys), .appendOther {} 1,
    .envelope 0 0 deployed (some (unitsOf "A0")) true,
    .lookedUp 0 (unitsOf "B1") (.failed true), .resume 0 true, .settle 0,
    .envelope 1 0 deployed (some (unitsOf "A0")) true,
    .lookedUp 0 (unitsOf "B1") (.app (unitsOf "A1")), .resume 1 true,
    .wire 1 (some deploys), .retryStart 1 true, .created 1 false, .settle 1,
    .retryOther 1 .dropped, .retryNext 2 1, .lookedUp 1 (unitsOf "B1") (.app (unitsOf "A1"))]

def marked : World := play (step onePost) { now := 0 } lateMark

def chargedAgain : World := (step onePost marked (.resume 2 true)).getD { now := 0 }

lemma run_lateMark : Run onePost { now := 0 } lateMark marked := path_play _ (by decide +kernel)

end OpenRig.BotAdmissions
