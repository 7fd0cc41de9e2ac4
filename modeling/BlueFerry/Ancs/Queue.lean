import BlueFerry.Ancs.State

/-! # Requests and actions

The operations of the ANCS client that touch its queue, its waiting notifications and its offered
actions only: `RequestBacklog` (`ancs/sequencer.py`), and from `ancs/client.py` the retirement of
requests and actions and the emission of events.
-/

namespace BlueFerry.Ancs

open BlueFerry.Text

namespace Core

section

variable (c : Core)

/-- A new entry of the log. -/
def note (e : Entry) : Core := { c with log := e :: c.log }

/-! ## The backlog -/

/-- `enqueue`; `none` when it refuses. -/
def enqueue (r : PendingRequest) (front : Bool) : Option Core :=
  if r.key ∈ c.reserved then none
  else if maxAncsRequests ≤ c.reserved.length then none
  else
    some { c with
      reserved := r.key :: c.reserved
      queue := if front then r :: c.queue else c.queue ++ [r] }

/-- `finish`. -/
def finish (key : Key) : Core :=
  { c with reserved := c.reserved.filter (· ≠ key) }

/-- `remove_if`, without the removed requests. -/
def removeIf (p : PendingRequest → Bool) : Core :=
  { c with
    queue := c.queue.filter (fun r => !p r)
    reserved := c.reserved.filter (fun key => !c.queue.any (fun r => p r && r.key == key)) }

/-! ## Actions -/

/-- `_report_action`. -/
def reportAction (a : ActionRequest) (result : ActionResult) : Core :=
  c.note (.called (.actionResult a.call result))

/-- A queued action that meets the predicate. -/
def isAction (p : ActionRequest → Bool) (r : PendingRequest) : Bool := r.action.any p

/-- `_drop_queued_actions`, without the number. -/
def dropQueuedActions (p : ActionRequest → Bool) (result : ActionResult) : Core :=
  ((c.queue.filter (isAction p)).filterMap (·.action)).foldl (fun c a => c.reportAction a result)
    (c.removeIf (isAction p))

/-- `_forget_actionable`. -/
def forgetActionable (uid : Nat) : Core :=
  let mine := fun a : ActionRequest => a.uid == uid
  let had := c.actionable.any (fun e => e.uid == uid) || c.queue.any (isAction mine)
  let c := c.dropQueuedActions mine .unavailable
  let c := { c with actionable := c.actionable.filter (fun e => e.uid ≠ uid) }
  if had then c.note (.called (.notificationRemoved uid)) else c

/-- `_reset_actions`. -/
def resetActions : Core :=
  let had := !c.actionable.isEmpty || c.queue.any (isAction (fun _ => true))
  let c := ({ c with actionable := [] } : Core).dropQueuedActions (fun _ => true) .unavailable
  let c := c.note .actionsReset
  if had then c.note (.called .actionsReset) else c

/-- `_remember_actionable`, for an event with a label. -/
def rememberActionable (e : AncsEvent) (serial : Nat) : Core :=
  let entry : Actionable :=
    { uid := e.notificationId, token := c.nextToken
      positive := !e.positiveActionLabel.isEmpty, negative := !e.negativeActionLabel.isEmpty
      serial }
  let entries := c.actionable.filter (fun a => a.uid ≠ e.notificationId) ++ [entry]
  ({ c with
    nextToken := c.nextToken + 1
    actionable := entries.drop (entries.length - maxAncsActionable) } : Core).note
      (.offered c.nextToken e.notificationId serial)

/-- `_queued_actions`. -/
def queuedActions : Nat :=
  (c.queue.filter (isAction (fun _ => true))).length
    + (if c.active.any (isAction (fun _ => true)) then 1 else 0)

/-! ## Events -/

/-- `_emit`. -/
def emit (env : Env) (w : Waiting) (appName : Str) (c : Core) : Core :=
  let a := w.attrs
  let event : AncsEvent :=
    { notificationId := a.id, appId := a.appId, appName, title := a.title, subtitle := a.subtitle
      body := a.message, category := (c.categories.lookup a.id).getD 0
      positiveActionLabel := a.positiveActionLabel, negativeActionLabel := a.negativeActionLabel }
  if env.notificationActions then
    if event.positiveActionLabel = [] ∧ event.negativeActionLabel = [] then c.note (.emitted event)
    else
      (c.rememberActionable event w.serial).note
        (.emitted { event with actionToken := c.nextToken })
  else c.note (.emitted { event with positiveActionLabel := [], negativeActionLabel := [] })

/-- The notifications that wait for the name of an app. -/
def waitingFor (appId : Str) : List Waiting := (c.pendingAppLookups.lookup appId).getD []

/-- `pop` of the waiting notifications, and an event for each of them. -/
def flushWaiting (env : Env) (appId appName : Str) (c : Core) : Core :=
  let pending := c.waitingFor appId
  let c := { c with
    appLookupRequested := c.appLookupRequested.filter (· ≠ appId)
    pendingAppLookups := c.pendingAppLookups.filter (fun p => p.1 ≠ appId) }
  pending.foldl (fun c w => c.emit env w appName) c

/-- `_handle_app_attrs`. -/
def handleAppAttrs (env : Env) (app : AppAttributes) (c : Core) : Core :=
  let appName := app.appName.take 256
  let cache := c.appNameCache.filter (fun p => p.1 ≠ app.appId) ++ [(app.appId, appName)]
  let c := { c with appNameCache := cache.drop (cache.length - maxAncsAppCache) }
  c.flushWaiting env app.appId appName

/-! ## Retiring requests -/

section

variable (uid : Option Nat)

/-- The requests made for one notification, or for any. -/
def isAbout (r : PendingRequest) : Bool :=
  r.notification.any (fun a => uid.all (· == a.notification.id))

/-- The active request, retired under a new key so that its end does not free the old one. -/
def retireActive (c : Core) : Core :=
  match c.active with
  | none => c
  | some r =>
    if isAbout uid r && !r.discarded then
      { c with
        active := some { r with discarded := true, key := .retired r.key }
        reserved := c.reserved.filter (· ≠ r.key) }
    else c

/-- The waiting notifications that are kept. -/
def keepWaiting (pending : List (Str × List Waiting)) : List (Str × List Waiting) :=
  (pending.map (fun p => (p.1, p.2.filter (fun w => uid.any (· != w.attrs.id))))).filter
    (fun p => !p.2.isEmpty)

/-- `_discard_notification_requests`. -/
def discardNotificationRequests (c : Core) : Core :=
  let c := (c.removeIf (isAbout uid)).retireActive uid
  ({ c with pendingAppLookups := keepWaiting uid c.pendingAppLookups } : Core).note
    (.invalidated uid)

end

/-- `_end_session`. -/
def endSession : Core :=
  (((({ c with liveEventsSeen := false } : Core).note .sessionEnded).discardNotificationRequests
    none).note (.called .sessionReset))

/-- `_finish_active_request`. -/
def finishActive : Core :=
  match c.active with
  | none => { c with requestTimer := false }
  | some r => { c.finish r.key with active := none, requestTimer := false }

/-- `_reset_requests`. -/
def resetRequests : Core :=
  let c := ({ c with busyRetry := false } : Core).dropQueuedActions (fun _ => true) .disconnected
  let c := ({ c with queue := [], reserved := [] } : Core).finishActive
  { c with pendingAppLookups := [], appLookupRequested := [] }

end

end Core

end BlueFerry.Ancs
