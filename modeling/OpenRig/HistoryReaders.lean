import OpenRig.RecentActivity
import OpenRig.ReceiptNotes

/-!
The readers of the transition log.

Each reads the union of the two tables, through a `WHERE` clause, an order and a limit, so two
stores with the same union and the same rows get the same answer (`Same`). The continuation of a
park is the one read of the live table alone.
-/

namespace OpenRig.HistoryReaders

open OpenRig.JsText OpenRig.Closure OpenRig.QueueDb OpenRig.SqlLike OpenRig.FieldText
open OpenRig.HistoryTables OpenRig.ReceiptNotes OpenRig.RecentActivity

/-! ### Logs and parks -/

/-- The row's transitions, of both tables. -/
def rowHistory (t : Tables) (id : String) : List Transition :=
  t.historySource.filter (·.qitemId = id)

def listForQitem (t : Tables) (id : String) : List Transition := ordered older (rowHistory t id)

def listForActor (t : Tables) (actorSession : String) (limit : ℤ) : List Transition :=
  sqlLimit limit (ordered newer (t.historySource.filter (·.actorSession = actorSession)))

def CONTINUATION_MARKER : String := "continuation: "

/-- The plan a transition's note names. -/
def planOf (x : Transition) : Option String :=
  (x.transitionNote.filter fun note => startsWith note CONTINUATION_MARKER).map
    (sliceFrom CONTINUATION_MARKER.length)

/-- The walk over a log, newest first: it stops at the first transition out of the park. -/
def parkContinuation : List Transition → Option String
  | [] => none
  | x :: rest =>
    if x.state ≠ .blocked then none
    else match planOf x with
      | some plan => some plan
      | none => parkContinuation rest

/-- `currentParkContinuation`, over the live table. -/
def currentParkContinuation (t : Tables) (id : String) : Option String :=
  parkContinuation (ordered newer (t.live.filter (·.qitemId = id)))

/-! ### Owner notifications -/

/-- `owner_notification_level IS NOT NULL`. -/
def notifies (x : Transition) : Bool := x.ownerNotification.isSome

def latestOwnerNotificationForQitem (t : Tables) (id : String) : Option Transition :=
  (ordered newer ((rowHistory t id).filter notifies)).head?

/-- A notification of a kind other than a resolved decision. -/
def outbound (x : Transition) : Bool :=
  x.ownerNotification.any fun n => n.1 ≠ .humanDecisionResolved

/-- `ROW_NUMBER() … = 1`: no newer row in the same partition. -/
def newestOf (rows : List Transition) (x : Transition) : Bool :=
  rows.all fun y =>
    (y.qitemId ≠ x.qitemId || outbound y ≠ outbound x) || y.transitionId ≤ x.transitionId

/-- Rows by their item, in the order the items first appear. -/
def byQitem (rows : List Transition) : List (String × List Transition) :=
  ((rows.map Transition.qitemId).reverse.dedup.reverse).map fun id =>
    (id, rows.filter (·.qitemId = id))

def ownerNotificationsForQitems (t : Tables) (qitemIds : List String) :
    List (String × List Transition) :=
  let rows := t.historySource.filter fun x => qitemIds.contains x.qitemId && notifies x
  byQitem (ordered newer (rows.filter (newestOf rows)))

/-! ### Receipts -/

def prefixed (label : String) (x : Transition) : Bool :=
  x.transitionNote.any fun note => like (label.toList ++ [' ', '%']) note.toList

/-- `instr(' ' || note || ' ', ' ' || token || ' ') > 0`. -/
def hasToken (token : List Char) (x : Transition) : Bool :=
  x.transitionNote.any fun note =>
    ((' ' :: note.toList ++ [' ']).tails.any (' ' :: token ++ [' ']).isPrefixOf)

def SLACK_POSTED : String := "slack-owner-notification-posted"

def RELAY_ACCEPTED : String := "relay-owner-notification-accepted"

/-- A notification's key: its row and its transition. -/
def notificationKey (x : Transition) : List Char :=
  x.qitemId.toList ++ ':' :: (toString x.transitionId).toList

/-- A receipt for the notification stands on its row. -/
def posted (t : Tables) (x : Transition) : Bool :=
  (rowHistory t x.qitemId).any fun r =>
    (prefixed SLACK_POSTED r || prefixed RELAY_ACCEPTED r) &&
      hasToken (field "notification_key".toList (notificationKey x)) r

/-- `ORDER BY ts_created DESC`. -/
def lastCreated (a b : QueueItem) : Prop := b.tsCreated ≤ a.tsCreated

instance : DecidableRel lastCreated := fun _ _ => inferInstanceAs (Decidable (_ ≤ _))

def activeOwnerNotificationEpisodes (t : Tables) (includePosted : Bool) :
    List (Transition × Bool) :=
  (((t.items.rows.filter (·.state.isBlockerLive)).insertionSort lastCreated).filterMap fun item =>
    (latestOwnerNotificationForQitem t item.qitemId).map fun x => (x, posted t x)).filter
      fun e => includePosted || !e.2

structure SlackReceipt where
  messageTs : Option (List Char)
  threadTs : Option (List Char)
  digest : Option (List Char)
  deriving DecidableEq

/-- The value of the first field that begins with the name and an equals sign. -/
def rawValueOf (name : String) (fields : List (List Char)) : Option (List Char) :=
  (fields.find? (name.toList ++ ['=']).isPrefixOf).map (·.drop (name.length + 1))

def getOwnerNotificationReceipt (t : Tables) (id : String) (key : List Char) :
    Option SlackReceipt :=
  (ordered newer ((rowHistory t id).filter (prefixed SLACK_POSTED))).findSome? fun x => do
    let note ← x.transitionNote
    let fields := words note.toList
    if fields.contains (field "notification_key".toList key) then
      some { messageTs := rawValueOf "message_ts" fields, threadTs := rawValueOf "thread_ts" fields,
             digest := rawValueOf "digest" fields }
    else none

section
variable (sha256 : List Char → Vector UInt8 32)

/-- The relay's receipt a transition records. -/
def relayReceiptOf (x : Transition) : Option RelayOwnerNotificationReceipt :=
  x.transitionNote.bind fun note => parseRelayOwnerNotificationAccepted sha256 note.toList

def listRelayOwnerNotificationReceipts (t : Tables) (id : String) :
    List RelayOwnerNotificationReceipt :=
  (ordered newer ((rowHistory t id).filter (prefixed RELAY_ACCEPTED))).filterMap
    (relayReceiptOf sha256)

def getRelayOwnerNotificationReceipt (t : Tables) (id : String) (key : Option (List Char)) :
    Option RelayOwnerNotificationReceipt :=
  (listRelayOwnerNotificationReceipts sha256 t id).find? fun r =>
    key.all (r.notificationKey = ·)

def hasOwnerNotificationReceipt (t : Tables) (id : String) (key : List Char) : Bool :=
  (getOwnerNotificationReceipt t id key).isSome ||
    (getRelayOwnerNotificationReceipt sha256 t id (some key)).isSome

def findRelayOwnerNotificationReceiptByReplyRef (t : Tables) (replyRef : List Char) :
    Option (RelayOwnerNotificationReceipt × String) :=
  let trimmed := trim replyRef
  let fullHash := hex (sha256 trimmed)
  if trimmed = [] then none
  else (ordered newer (t.historySource.filter fun x => prefixed RELAY_ACCEPTED x &&
      (hasToken (field "reply_ref_hash".toList fullHash) x ||
        hasToken (field "reply_ref".toList trimmed) x))).findSome? fun x => do
    let parsed ← relayReceiptOf sha256 x
    match parsed.replyRef with
    | some ref =>
      if ref = trimmed ∧ parsed.replyRefHash = some fullHash then some (parsed, x.qitemId) else none
    | none => if parsed.replyRefHash = some fullHash then some (parsed, x.qitemId) else none

end

/-! ### Two stores with one history -/

/-- The same rows and, over both tables, the same transitions. -/
structure Same (t u : Tables) : Prop where
  items : t.items = u.items
  rigs : t.rigs = u.rigs
  history : t.historySource.Perm u.historySource

section
variable {t u : Tables}

lemma Same.rowHistory (h : Same t u) (id : String) :
    (rowHistory t id).Perm (rowHistory u id) := h.history.filter _

lemma nodup_rowHistory (t : Tables) (id : String) :
    ((HistoryReaders.rowHistory t id).map Transition.transitionId).Nodup := nodup_filter t.nodup _

lemma Same.query (h : Same t u) (r : Transition → Transition → Prop) [DecidableRel r] [Ordered r]
    (p : Transition → Bool) :
    ordered r (t.historySource.filter p) = ordered r (u.historySource.filter p) :=
  ordered_congr (h.history.filter p) (nodup_filter t.nodup p)

lemma Same.rowQuery (h : Same t u) (r : Transition → Transition → Prop) [DecidableRel r]
    [Ordered r] (id : String) (p : Transition → Bool) :
    ordered r ((HistoryReaders.rowHistory t id).filter p) =
      ordered r ((HistoryReaders.rowHistory u id).filter p) :=
  ordered_congr ((h.rowHistory id).filter p) (nodup_filter (nodup_rowHistory t id) p)

lemma Same.listForQitem_eq (h : Same t u) (id : String) : listForQitem t id = listForQitem u id :=
  h.query older _

lemma Same.listForActor_eq (h : Same t u) (actorSession : String) (limit : ℤ) :
    listForActor t actorSession limit = listForActor u actorSession limit :=
  congrArg (sqlLimit limit) (h.query newer _)

lemma Same.latest_eq (h : Same t u) (id : String) :
    latestOwnerNotificationForQitem t id = latestOwnerNotificationForQitem u id :=
  congrArg List.head? (h.rowQuery newer id notifies)

lemma Same.notifications_eq (h : Same t u) (qitemIds : List String) :
    ownerNotificationsForQitems t qitemIds = ownerNotificationsForQitems u qitemIds := by
  unfold ownerNotificationsForQitems
  dsimp only
  have hp := h.history.filter fun x => qitemIds.contains x.qitemId && notifies x
  have hnewest : newestOf (t.historySource.filter fun x =>
      qitemIds.contains x.qitemId && notifies x) = newestOf (u.historySource.filter fun x =>
        qitemIds.contains x.qitemId && notifies x) := funext fun x => hp.all_eq
  rw [hnewest]
  exact congrArg byQitem (ordered_congr (hp.filter _) (nodup_filter (nodup_filter t.nodup _) _))

lemma Same.posted_eq (h : Same t u) (x : Transition) : posted t x = posted u x :=
  (h.rowHistory x.qitemId).any_eq

lemma Same.episodes_eq (h : Same t u) (includePosted : Bool) :
    activeOwnerNotificationEpisodes t includePosted =
      activeOwnerNotificationEpisodes u includePosted := by
  unfold activeOwnerNotificationEpisodes
  simp only [h.items, h.latest_eq, h.posted_eq]

section
variable (sha256 : List Char → Vector UInt8 32)

lemma Same.hasReceipt_eq (h : Same t u) (id : String) (key : List Char) :
    hasOwnerNotificationReceipt sha256 t id key = hasOwnerNotificationReceipt sha256 u id key := by
  unfold hasOwnerNotificationReceipt getOwnerNotificationReceipt getRelayOwnerNotificationReceipt
    listRelayOwnerNotificationReceipts
  rw [h.rowQuery newer id (prefixed SLACK_POSTED), h.rowQuery newer id (prefixed RELAY_ACCEPTED)]

lemma Same.byReplyRef_eq (h : Same t u) (replyRef : List Char) :
    findRelayOwnerNotificationReceiptByReplyRef sha256 t replyRef =
      findRelayOwnerNotificationReceiptByReplyRef sha256 u replyRef := by
  unfold findRelayOwnerNotificationReceiptByReplyRef
  dsimp only
  rw [h.query newer]

end

lemma Same.lagState_eq (h : Same t u) (x : Transition) : lagState t x = lagState u x :=
  congrArg (fun l : List Transition => l.getLast?.map Transition.state) (h.query older _)

lemma Same.recentOf_eq (h : Same t u) (rigNames : List String)
    (row : Transition × Option QueueState) : recentOf t rigNames row = recentOf u rigNames row := by
  unfold recentOf rowOf
  rw [h.items]

lemma Same.listRecent_eq (h : Same t u) (scope : RecentQueueTransitionScope)
    (requestedLimit : Option ℤ) :
    listRecent t scope requestedLimit = listRecent u scope requestedLimit := by
  have hrigs : scopeRigs t scope = scopeRigs u scope := by
    cases scope with
    | rig rig => rfl
    | wholeInstance => exact congrArg (fun l : List RigRow =>
        (l.filter (·.archivedAt.isNone)).map RigRow.name) h.rigs
  have hwalk : ∀ rigNames, walked t rigNames = walked u rigNames := by
    intro rigNames
    unfold walked qualifying rowOf
    rw [h.items, ordered_congr (r := later) h.history t.nodup]
    simp only [h.lagState_eq]
  have hrow : walkedRow t = walkedRow u := by
    funext x
    unfold walkedRow
    rw [previousState_eq, previousState_eq, h.lagState_eq]
  unfold listRecent
  dsimp only
  rw [hrigs, newestQualifying_eq, newestQualifying_eq, hwalk, hrow,
    funext (h.recentOf_eq (scopeRigs u scope))]

end

end OpenRig.HistoryReaders
