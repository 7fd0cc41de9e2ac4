import BlueFerry.Lib.Machine
import BlueFerry.Ancs.Queue

/-! # The ANCS client

The handlers of `AncsClient` (`ancs/client.py`) as one step machine: the signals and replies of
BlueZ, Notification Source and Data Source packets, timers, the calls of the daemon.

A callback into the daemon is recorded and does not call back into the client. A `WriteValue` that
raises anything but a `DBusException` is a programming error and is left out, as are the log
messages, the clock of the health proof and the delays of the timers: a timer is a flag, and it may
fire whenever it is set.
-/

namespace BlueFerry.Ancs

open BlueFerry.Text

namespace Transport

/-! ## Timers and subscriptions -/

section

variable (t : Transport)

/-- `_transport_available`. -/
def available : Bool := t.bearerConnected == some true || t.legacyConnected

/-- `connected`. -/
def connected : Bool :=
  t.available && t.bearerReady && !t.transportBlocked && t.notifyStarted && t.authorized

/-- All three characteristics are known. -/
def hasPaths : Bool := t.nsPath.isSome && t.dsPath.isSome && t.cpPath.isSome

/-- `_schedule_authorization_retry`. -/
def scheduleAuthorizationRetry : Transport :=
  if !t.started || !t.notifyStarted || t.authorized || t.authorizationRetry then t
  else { t with authorizationRetry := true }

/-- `_schedule_subscribe_retry`. -/
def scheduleSubscribeRetry : Transport :=
  if !t.started || t.subscribeRetry || !t.hasPaths then t else { t with subscribeRetry := true }

/-- `_schedule_transport_reset`. -/
def scheduleTransportReset (env : Env) (t : Transport) : Transport :=
  if t.started && t.bearerConnected == some true && env.handlesTransportFailure
      && !t.transportReset then { t with transportReset := true }
  else t

/-- `_schedule_bearer_settle`. -/
def scheduleBearerSettle : Transport :=
  if t.bearerSettle || !t.available then t else { t with bearerSettle := true }

/-- `_schedule_manager_retry`. -/
def scheduleManagerRetry : Transport :=
  if !t.started || t.managerRetry then t else { t with managerRetry := true }

/-- `_schedule_legacy_health`. -/
def scheduleLegacyHealth : Transport :=
  if t.started && t.legacyConnected && !t.legacyHealth then { t with legacyHealth := true } else t

/-- `_stop_bluez_notifications`: the registrations that are still owned. -/
def stopBluezNotifications (env : Env) (t : Transport) : Transport :=
  { t with
    ownedNotifyPaths := t.ownedNotifyPaths.filter (fun path =>
      match env.stopNotify path with
      | none => false
      | some e => !e.notificationIsAlreadyStopped) }

/-- What `_clear_characteristic_subscription` does to the transport. -/
def clearSubscription (env : Env) (stopNotify : Bool) (t : Transport) : Transport :=
  let t := { t with
    subscriptionGeneration := t.subscriptionGeneration + 1, authorizationRetry := false
    legacyHealth := false, receivers := none, notifyRefresh := none }
  let t := if t.notifyStarted && stopNotify then t.stopBluezNotifications env else t
  { t with notifyStarted := false, authorized := false }

/-- The generations of the current attempt: the receivers act only under these. -/
def receiversCurrent : Bool :=
  t.started && t.receivers == some (t.ownerGeneration, t.subscriptionGeneration)

/-- `current` of a CCC re-enable. -/
def refreshCurrent (token : Nat) : Bool :=
  t.started && t.notifyRefresh.any (fun r => r.token == token && r.generation == t.ownerGeneration)

end

end Transport

namespace Client

/-- The transport changed. -/
def onTransport (f : Transport → Transport) (s : Client) : Client := { s with tr := f s.tr }

/-- The core changed. -/
def onCore (f : Core → Core) (s : Client) : Client := { s with core := f s.core }

def note (e : Entry) (s : Client) : Client := s.onCore (·.note e)

def status (s : Client) : Client := s.note (.called .status)

/-! ## Losing the transport -/

/-- `_clear_characteristic_subscription`. -/
def clearSubscription (env : Env) (stopNotify : Bool) (s : Client) : Client :=
  (s.onTransport (·.clearSubscription env stopNotify)).onCore
    (fun c => c.resetRequests.resetActions.endSession)

section

variable (env : Env)

/-- `_mark_transport_failed`. -/
def markTransportFailed (s : Client) : Client :=
  let wasConnected := s.tr.connected
  let s := s.onTransport (fun t => { t with
    transportBlocked := true, bearerReady := false, bearerSettle := false, subscribeRetry := false })
  let s := s.clearSubscription env false
  let s := s.onTransport (fun t =>
    if t.legacyConnected then t.scheduleSubscribeRetry else t.scheduleTransportReset env)
  if wasConnected then s.status else s

/-- `_escalate_unresponsive_transport`. -/
def escalateUnresponsiveTransport (s : Client) : Client :=
  let s := if s.tr.notifyStarted && s.tr.bearerConnected == some true && s.tr.bearerReady then
      s.onTransport (·.stopBluezNotifications env)
    else s
  s.markTransportFailed env

/-- `_observe_permission_error`. -/
def observePermissionError (e : DBusError) (s : Client) : Client :=
  if e.isPermissionError then
    let revoked := s.tr.authorized
    let s := s.onTransport (fun t => { t with permissionDenied := true, authorized := false })
    let s := if revoked then s.status else s
    s.onTransport (·.scheduleAuthorizationRetry)
  else s

/-- `_abandon_request`. -/
def abandonRequest (r : PendingRequest) (s : Client) : Client :=
  let s := s.onCore (·.finish r.key)
  if r.authorizationProbe then s.onTransport (·.scheduleAuthorizationRetry)
  else
    match r.assembler with
    | none => s
    | some assembler =>
      match assembler.appId with
      | none => s
      | some appId =>
        if r.notification.isSome || appId.isEmpty then s
        else s.onCore (·.flushWaiting env appId appId)

/-! ## Writing to the Control Point -/

/-- `current_attempt` of a write. -/
def isCurrent (w : Write) (s : Client) : Bool :=
  s.tr.started && w.generation == s.tr.ownerGeneration && s.core.active.any (·.rid == w.rid)

/-- `release_write`: whether the write was the one in flight. -/
def releaseWrite (w : Write) (s : Client) : Client × Bool :=
  if s.core.cpWriteToken = some w.token then
    (s.onCore (fun c => { c with cpWriteToken := none }), true)
  else (s, false)

/-- `_action_failed`. -/
def actionFailed (a : ActionRequest) (e : DBusError) (c : Core) : Core :=
  let result := actionErrorResult e
  let entries : List Actionable :=
    if result = ActionResult.unavailable then c.actionable.filter (fun x => x.uid ≠ a.uid)
    else c.actionable.map (fun x => if x.uid = a.uid then { x with inFlight := false } else x)
  ({ c with actionable := entries } : Core).reportAction a result

/-- `push_front` of a request that is to be written again. The key of a popped request is still
reserved; were it not, the code would raise. -/
def pushFront (r : PendingRequest) (c : Core) : Core :=
  if r.key ∈ c.reserved then { c with queue := r :: c.queue, busyRetry := true } else c

/-- `failed`, and whether it goes on with the next request. -/
def failed (w : Write) (e : DBusError) (s : Client) : Client × Bool :=
  let (s, released) := s.releaseWrite w
  if s.isCurrent w then
    match s.core.active with
    | none => (s, false)
    | some r =>
      if r.discarded then
        let s := s.onCore (·.finishActive)
        if e.connectionWasLost then (s.markTransportFailed env, false) else (s, true)
      else if e.isInProgress && r.busyRetries < maxControlPointBusyRetries then
        let r := { r with busyRetries := r.busyRetries + 1 }
        (s.onCore (fun c => pushFront r { c with active := none }), false)
      else
        match r.action with
        | some a =>
          let s := (s.onCore (fun c => actionFailed a e c.finishActive)).observePermissionError e
          if e.connectionWasLost then (s.markTransportFailed env, false) else (s, true)
        | none =>
          let s := s.observePermissionError e
          if e.connectionWasLost then (s.markTransportFailed env, false)
          else
            ((s.abandonRequest env r).onCore (fun c => { c with active := none }), true)
  else
    -- stale: the request already completed, or the owner changed
    let s := match w.action with
      | some a => s.onCore (·.reportAction a (actionErrorResult e))
      | none => s
    (s, released)

/-- Nothing may be written now. -/
def isBlocked (s : Client) : Bool :=
  s.core.active.isSome || s.core.cpWriteToken.isSome || s.core.busyRetry
    || s.tr.notifyRefresh.isSome || s.tr.cpPath.isNone

/-- The head of the queue is handed to `WriteValue`. -/
def startWrite (r : PendingRequest) (rest : List PendingRequest) (s : Client) : Client :=
  s.onCore (fun c => ({ c with
    queue := rest, active := some r, cpWriteToken := some c.nextWrite
    nextWrite := c.nextWrite + 1 } : Core).note (.wrote r.packet r.action env.notificationActions))

/-- `_pump_requests`. Where the dispatch itself fails, `failed` runs at once and may go on with the
next request; every such round takes a request from the queue for good, so the length of the
queue bounds them. -/
def pumpRounds (env : Env) : Nat → Client → Client
  | 0, s => s
  | rounds + 1, s =>
    match s.core.queue with
    | [] => s
    | r :: rest =>
      if s.isBlocked then s
      else
        let w : Write :=
          { token := s.core.nextWrite, rid := r.rid, generation := s.tr.ownerGeneration
            action := r.action }
        let s := s.startWrite env r rest
        match env.dispatch w.token with
        | none => s.onCore (fun c => { c with writes := c.writes ++ [w] })
        | some e =>
          let (s, again) := s.failed env w e
          if again then pumpRounds env rounds s else s

section

variable (s : Client)

/-- `_pump_requests`. -/
def pump : Client := pumpRounds env s.core.queue.length s

/-- `_enqueue` and the like: the queue is pumped when the request was taken. -/
def enqueue (env : Env) (r : PendingRequest) (front : Bool) (s : Client) : Client × Bool :=
  match s.core.enqueue r front with
  | none => (s, false)
  | some c => (pump env { s with core := c }, true)

/-- The number of a new request. -/
def newRid : Client × Nat :=
  (s.onCore (fun c => { c with nextRid := c.nextRid + 1 }), s.core.nextRid)

/-- The probe that asks for nothing but the name of Messages. -/
def authorizationProbe (rid : Nat) : PendingRequest :=
  { rid, key := .authorization, packet := buildGetAppAttributes messagesAppId
    assembler := some { command := CommandID.getAppAttributes, attributeIds := [displayName]
                        appId := some messagesAppId }
    authorizationProbe := true }

/-- `_queue_authorization_probe`. -/
def queueAuthorizationProbe (force : Bool) (s : Client) : Client :=
  if !s.tr.notifyStarted || (s.tr.authorized && !force) then s
  else
    let (s, rid) := s.newRid
    (s.enqueue env (authorizationProbe rid) false).1

/-- `probe_health`. -/
def probeHealth : Client :=
  if s.tr.connected && s.core.active.isNone && s.core.queue.isEmpty then
    s.queueAuthorizationProbe env true
  else s

/-- `_request_attrs`: the probe of the app. -/
def probeRequest (rid : Nat) (a : Arrival) : PendingRequest :=
  { rid, key := .notification a.notification.id
    packet := buildGetNotificationAppIdentifier a.notification.id
    assembler := some { command := CommandID.getNotificationAttributes
                        attributeIds := [NotificationAttributeID.appIdentifier]
                        notificationId := some a.notification.id }
    notification := some a, appProbe := true }

/-- `_request_full_attrs`: the request for the content, with the labels if actions are opted in. -/
def fullRequest (rid : Nat) (a : Arrival) (appId : Str) : PendingRequest :=
  let labelIds := if env.notificationActions && appId != messagesAppId
    then a.notification.actionLabelIds else []
  { rid, key := .notification a.notification.id
    packet := buildGetNotificationAttributes a.notification.id labelIds
    assembler := some { command := CommandID.getNotificationAttributes
                        attributeIds := [NotificationAttributeID.appIdentifier,
                          NotificationAttributeID.title, NotificationAttributeID.subtitle,
                          NotificationAttributeID.message] ++ labelIds
                        notificationId := some a.notification.id }
    notification := some a, expectedAppId := some appId, actionLabelIds := labelIds }

/-- The request for the name of an app. -/
def appNameRequest (rid : Nat) (appId : Str) : PendingRequest :=
  { rid, key := .app appId, packet := buildGetAppAttributes appId
    assembler := some { command := CommandID.getAppAttributes, attributeIds := [displayName]
                        appId := some appId } }

/-- The write of an action. -/
def actionRequest (rid : Nat) (a : ActionRequest) : PendingRequest :=
  { rid, key := .action a.uid, packet := buildPerformNotificationAction a.uid a.positive
    assembler := none, action := some a }

/-- `_action_written`. -/
def actionWritten (a : ActionRequest) (c : Core) : Core :=
  ({ c with actionable := c.actionable.filter (fun x => x.uid ≠ a.uid) } : Core).reportAction a .sent

/-- `written`: BlueZ answered a write. -/
def written (w : Write) (s : Client) : Client :=
  let (s, released) := s.releaseWrite w
  match w.action with
  | some a =>
    if s.isCurrent w then pump env (s.onCore (fun c => actionWritten a c.finishActive))
    else
      let s := s.onCore (·.reportAction a .sent)
      if released then pump env s else s
  | none =>
    if s.isCurrent w then s.onCore (fun c => { c with requestTimer := true })
    else if released then pump env s else s

/-! ## Subscribing -/

/-- `_start_notify`: an error that counts. -/
def startNotifyError (path : Path) : Option DBusError :=
  (env.startNotify path).filter (fun e => !(s.tr.legacyConnected && e.notifyRegistrationPending))

/-- `_should_start_notify`. -/
def shouldStartNotify (path : Path) : Bool :=
  !s.tr.ownedNotifyPaths.contains path || env.cachedNotifying path != some true

/-- `StartNotify` on one characteristic, if it is needed: the owned paths, or the error. -/
def startNotify (path : Path) : Except DBusError Client :=
  if s.shouldStartNotify env path then
    match s.startNotifyError env path with
    | some e => .error e
    | none =>
      .ok (s.onTransport (fun t => { t with ownedNotifyPaths := path :: t.ownedNotifyPaths }))
  else .ok s

/-- A subscription attempt failed. -/
def subscribeFailed (e : DBusError) (s : Client) : Client :=
  let s := s.observePermissionError e
  if e.connectionWasLost then s.markTransportFailed env
  else s.onTransport (·.scheduleSubscribeRetry)

/-- Both characteristics notify: a new UID session starts. -/
def subscribed : Client :=
  let s := s.onTransport (fun t => { t with
    subscribeRetry := false, notifyStarted := true
    receivers := some (t.ownerGeneration, t.subscriptionGeneration) })
  (s.onCore (fun c => c.resetActions.endSession)).queueAuthorizationProbe env false

/-- `_try_subscribe`. -/
def trySubscribe : Client :=
  if s.tr.notifyStarted || s.tr.transportBlocked || !s.tr.available || !s.tr.bearerReady
      || !s.tr.started then s
  else
    match s.tr.nsPath, s.tr.dsPath, s.tr.cpPath with
    | some nsPath, some dsPath, some _ =>
      match s.startNotify env nsPath with
      | .error e => s.subscribeFailed env e
      | .ok s =>
        match s.startNotify env dsPath with
        | .error e => s.subscribeFailed env e
        | .ok s => s.subscribed env
    | _, _, _ => s

/-- `_retry_subscribe`. -/
def retrySubscribe : Client :=
  let s := s.onTransport (fun t => { t with subscribeRetry := false })
  if s.tr.started then
    let s := if s.tr.legacyConnected then
        s.onTransport (fun t => { t with transportBlocked := false, bearerReady := true })
      else s
    s.trySubscribe env
  else s

/-- `_finish_bearer_settle`. -/
def finishBearerSettle : Client :=
  let s := s.onTransport (fun t => { t with bearerSettle := false })
  if !s.tr.started || !s.tr.available then s
  else (s.onTransport (fun t => { t with bearerReady := true })).trySubscribe env

/-! ## Objects and owners -/

/-- `_on_iface_added`, for a characteristic of the ANCS service. -/
def onIfaceAdded (path : Path) (kind : Characteristic) (s : Client) : Client :=
  let s := s.onTransport (fun t => match kind with
    | .notificationSource => { t with nsPath := some path }
    | .dataSource => { t with dsPath := some path }
    | .controlPoint => { t with cpPath := some path })
  if s.tr.legacyConnected && s.tr.transportBlocked then s.onTransport (·.scheduleSubscribeRetry)
  else s.trySubscribe env

/-- `_on_iface_removed`. -/
def onIfaceRemoved (path : Path) (s : Client) : Client :=
  let wasConnected := s.tr.connected
  let gone : Option (Transport → Transport) :=
    if s.tr.nsPath = some path then some (fun t => { t with nsPath := none })
    else if s.tr.dsPath = some path then some (fun t => { t with dsPath := none })
    else if s.tr.cpPath = some path then some (fun t => { t with cpPath := none })
    else none
  match gone with
  | none => s
  | some forget =>
    let s := s.onTransport (fun t =>
      { forget t with subscribeRetry := false, authorizationRetry := false })
    let s := (s.clearSubscription env false).onTransport (fun t =>
      { t with ownedNotifyPaths := t.ownedNotifyPaths.filter (· ≠ path) })
    if wasConnected then s.status else s

/-- `_bind_manager_and_rescan`, and whether it returned. -/
def bindManagerAndRescan : Client × Bool :=
  if s.tr.started && s.tr.ownerAvailable then
    match env.managed with
    | none => (s.onTransport (fun t => { t with managerWatched := false }), false)
    | some objects =>
      (objects.foldl (fun s o => s.onIfaceAdded env o.1 o.2)
        (s.onTransport (fun t => { t with managerWatched := true })), true)
  else (s, true)

/-- `start`. -/
def start : Client :=
  if s.tr.started then s
  else
    let s := s.onTransport (fun t => { t with ownerAvailable := true, started := true })
    let (s, bound) := s.bindManagerAndRescan env
    if !bound then s.onTransport (fun t => { t with started := false })
    else if s.tr.available then s.onTransport (·.scheduleBearerSettle)
    else s

/-- A rebuild of the discovery that is tried again when it fails. -/
def rebuildDiscovery : Client :=
  let (s, bound) := s.bindManagerAndRescan env
  if bound then s else s.onTransport (·.scheduleManagerRetry)

/-- `_retry_manager_bind`. -/
def retryManagerBind : Client :=
  let s := s.onTransport (fun t => { t with managerRetry := false })
  if s.tr.started then s.rebuildDiscovery env else s

/-- The old bluetoothd is gone. -/
def ownerLost : Client :=
  let wasConnected := s.tr.connected
  let s := s.onTransport (fun t => { t with
    managerRetry := false, bearerSettle := false, transportReset := false, managerWatched := false
    subscribeRetry := false })
  let s := (s.clearSubscription env false).onTransport (fun t => { t with
    bearerConnected := none, legacyConnected := false, bearerReady := false
    transportBlocked := false, ownedNotifyPaths := [], nsPath := none, dsPath := none
    cpPath := none })
  if wasConnected then s.status else s

/-- `observe_bluez_owner`. -/
def observeBluezOwner (oldOwner newOwner : Bool) (s : Client) : Client :=
  if !s.tr.started then s
  else
    let s := s.onTransport (fun t => { t with
      ownerGeneration := t.ownerGeneration + 1, ownerAvailable := newOwner, notifyRefreshes := 0 })
    let s := s.onCore (fun c => { c with cpWriteToken := none })
    let s := if oldOwner then s.ownerLost env else s
    if newOwner then s.rebuildDiscovery env else s

/-! ## The LE bearer -/

/-- The device appeared or disappeared as one without LE bearer state. -/
def legacyChanged (legacyConnected : Bool) (s : Client) : Client :=
  let wasConnected := s.tr.connected
  let s := s.onTransport (fun t => { t with
    legacyConnected, subscribeRetry := false, bearerSettle := false, transportReset := false })
  let s := (s.clearSubscription env false).onTransport (fun t => { t with
    bearerReady := false, transportBlocked := false })
  if wasConnected then s.status else s

/-- `_legacy_transport_hint`. -/
def legacyTransportHint : Client :=
  if !s.tr.started then s
  else if s.tr.connected then s.probeHealth env
  else if s.tr.subscribeRetry then
    s.onTransport (fun t => ({ t with subscribeRetry := false } : Transport).scheduleSubscribeRetry)
  else s

/-- A confirmed disconnect. -/
def bearerLost : Client :=
  let s := s.onTransport (fun t => { t with
    notifyRefreshes := 0, transportBlocked := false, bearerReady := false, bearerSettle := false
    transportReset := false })
  if s.tr.notifyStarted || s.tr.authorized || s.tr.receivers.isSome
      || !s.tr.ownedNotifyPaths.isEmpty || s.core.active.isSome || !s.core.queue.isEmpty then
    ((s.onTransport (fun t => { t with subscribeRetry := false })).clearSubscription env false).status
  else s.onTransport (fun t => { t with subscriptionGeneration := t.subscriptionGeneration + 1 })

/-- The part of `observe_bearer_state` that follows the LE bearer itself. -/
def observeLeBearer (connected : Option Bool) (s : Client) : Client :=
  match connected with
  | none => s.onTransport (fun t =>
    { t with bearerConnected := none, bearerReady := false, bearerSettle := false })
  | some false => (s.onTransport (fun t => { t with bearerConnected := some false })).bearerLost env
  | some true =>
    let previous := s.tr.bearerConnected
    let s := s.onTransport (fun t => { t with bearerConnected := some true })
    if previous = some true then s
    else if s.tr.transportBlocked then s.onTransport (·.scheduleTransportReset env)
    else if s.tr.started then s.onTransport (·.scheduleBearerSettle)
    else s

/-- `observe_bearer_state`. -/
def observeBearerState (connected : Option Bool) (legacyConnected : Bool) (s : Client) : Client :=
  if legacyConnected ≠ s.tr.legacyConnected then
    let s := s.legacyChanged env legacyConnected
    if legacyConnected then
      let s := s.onTransport (fun t => { t with bearerConnected := none })
      if s.tr.started then s.onTransport (·.scheduleBearerSettle) else s
    else if connected ≠ some true then
      s.onTransport (fun t => { t with bearerConnected := connected })
    else s.observeLeBearer env connected
  else if legacyConnected then
    (s.onTransport (fun t => { t with bearerConnected := none })).legacyTransportHint env
  else s.observeLeBearer env connected

/-- `_request_transport_reset`. -/
def requestTransportReset : Client :=
  let s := s.onTransport (fun t => { t with transportReset := false })
  if s.tr.started && s.tr.transportBlocked && s.tr.bearerConnected == some true
      && env.handlesTransportFailure then s.note (.called .transportFailure)
  else s

/-- `stop`. -/
def stop : Client :=
  let wasConnected := s.tr.connected
  let stopNotify := s.tr.bearerConnected == some true && s.tr.bearerReady
  let s := s.onTransport (fun t => { t with
    started := false, ownerAvailable := false, managerRetry := false, subscribeRetry := false
    authorizationRetry := false, bearerSettle := false, transportReset := false })
  let s := (s.clearSubscription env stopNotify).onTransport (fun t => { t with
    ownedNotifyPaths := [], managerWatched := false, nsPath := none, dsPath := none
    cpPath := none })
  if wasConnected then s.status else s

/-! ## Authorization -/

/-- `_mark_authorized`. -/
def markAuthorized : Client :=
  let s := s.onTransport (fun t =>
    ({ t with permissionDenied := false } : Transport).scheduleLegacyHealth)
  if s.tr.authorized then s
  else
    (s.onTransport (fun t => { t with
      authorized := true, wasAuthorized := true, authorizationRetry := false })).status

/-- `_retry_authorization`. -/
def retryAuthorization : Client :=
  (s.onTransport (fun t => { t with authorizationRetry := false })).queueAuthorizationProbe env false

/-- `_check_legacy_health`. -/
def checkLegacyHealth : Client :=
  let s := s.onTransport (fun t => { t with legacyHealth := false })
  if s.tr.started && s.tr.legacyConnected && s.tr.authorized then
    let s := s.probeHealth env
    if s.tr.authorized then s.onTransport (·.scheduleLegacyHealth) else s
  else s

/-! ## Re-enabling the notifications of a silent transport -/

/-- `failed` of a CCC re-enable that is still current. -/
def refreshFailed (e : DBusError) (s : Client) : Client :=
  let s := s.onTransport (fun t => { t with notifyRefresh := none })
  if e.connectionWasLost then s.markTransportFailed env else s.escalateUnresponsiveTransport env

/-- `StartNotify` of a toggle. -/
def toggleStart (token : Nat) (path : Path) (s : Client) : Client :=
  let number := s.tr.nextToggle
  let toggle : Toggle :=
    { number, refresh := token, generation := s.tr.ownerGeneration, path, starting := true }
  let s := s.onTransport (fun t => { t with nextToggle := number + 1 })
  match env.toggleDispatch number with
  | none => s.onTransport (fun t => { t with toggles := t.toggles ++ [toggle] })
  | some e => if s.tr.refreshCurrent token then s.refreshFailed env e else s

/-- `stopped`: the `StopNotify` of a toggle is done. -/
def toggleStopped (toggle : Toggle) (s : Client) : Client :=
  let s := if toggle.generation = s.tr.ownerGeneration then
      s.onTransport (fun t =>
        { t with ownedNotifyPaths := t.ownedNotifyPaths.filter (· ≠ toggle.path) })
    else s
  if s.tr.refreshCurrent toggle.refresh then s.toggleStart env toggle.refresh toggle.path else s

/-- `stop_failed`. -/
def toggleStopFailed (toggle : Toggle) (e : DBusError) (s : Client) : Client :=
  if e.notificationIsAlreadyStopped then s.toggleStopped env toggle
  else if s.tr.refreshCurrent toggle.refresh then s.refreshFailed env e
  else s

/-- `_toggle_notify`. -/
def toggleNotify (token : Nat) (path : Path) (s : Client) : Client :=
  let number := s.tr.nextToggle
  let toggle : Toggle :=
    { number, refresh := token, generation := s.tr.ownerGeneration, path, starting := false }
  let s := s.onTransport (fun t => { t with nextToggle := number + 1 })
  match env.toggleDispatch number with
  | none => s.onTransport (fun t => { t with toggles := t.toggles ++ [toggle] })
  | some e => s.toggleStopFailed env toggle e

/-- Both CCCs are re-enabled: the actions of the old session go, and the probe is repeated. -/
def refreshDone : Client :=
  let s := s.onTransport (fun t => { t with notifyRefresh := none })
  let s := s.onCore (·.resetActions)
  let (s, rid) := s.newRid
  match s.core.enqueue (authorizationProbe rid) true with
  | some c => pump env { s with core := c }
  | none =>
    if s.core.queue.any (·.authorizationProbe) then pump env s
    else s.escalateUnresponsiveTransport env

/-- `next_path`, for a re-enable that is still current. -/
def refreshNext (refresh : Refresh) (s : Client) : Client :=
  match refresh.remaining with
  | path :: rest =>
    (s.onTransport (fun t => { t with
      notifyRefresh := some { refresh with remaining := rest } })).toggleNotify env refresh.token path
  | [] => s.refreshDone env

/-- `started`: the `StartNotify` of a toggle is done. -/
def toggleStarted (toggle : Toggle) (s : Client) : Client :=
  let s := if toggle.generation = s.tr.ownerGeneration then
      s.onTransport (fun t => { t with ownedNotifyPaths := toggle.path :: t.ownedNotifyPaths })
    else s
  if s.tr.refreshCurrent toggle.refresh then
    match s.tr.notifyRefresh with
    | none => s
    | some refresh => s.refreshNext env refresh
  else s

/-- The reply to a toggle. -/
def toggleAnswered (toggle : Toggle) (error : Option DBusError) (s : Client) : Client :=
  let s := s.onTransport (fun t =>
    { t with toggles := t.toggles.filter (fun x => x.number ≠ toggle.number) })
  match toggle.starting, error with
  | false, none => s.toggleStopped env toggle
  | false, some e => s.toggleStopFailed env toggle e
  | true, none => s.toggleStarted env toggle
  | true, some e => if s.tr.refreshCurrent toggle.refresh then s.refreshFailed env e else s

/-- `_refresh_notifications`; `none` when it may not run. -/
def refreshNotifications : Option Client :=
  match s.tr.nsPath, s.tr.dsPath with
  | some nsPath, some dsPath =>
    if !s.tr.started || !s.tr.notifyStarted || s.tr.legacyConnected
        || s.tr.bearerConnected != some true || !s.tr.bearerReady || s.tr.notifyRefresh.isSome
        || maxNotifyRefreshesPerLink ≤ s.tr.notifyRefreshes then none
    else
      let refresh : Refresh :=
        { token := s.tr.nextToggle, generation := s.tr.ownerGeneration
          remaining := [nsPath, dsPath] }
      let s := s.onCore (fun c => c.finishActive.endSession)
      let s := s.onTransport (fun t => { t with
        notifyRefreshes := t.notifyRefreshes + 1, notifyRefresh := some refresh
        nextToggle := t.nextToggle + 1 })
      some (s.refreshNext env refresh)
  | _, _ => none

/-- `_request_timed_out`. -/
def requestTimedOut : Client :=
  let s := s.onCore (fun c => { c with requestTimer := false })
  match s.core.active with
  | none => pump env s
  | some r =>
    if r.authorizationProbe && s.tr.wasAuthorized then
      match s.refreshNotifications env with
      | some s => s
      | none => s.escalateUnresponsiveTransport env
    else
      pump env ((s.abandonRequest env r).onCore (fun c => { c with active := none }))

/-! ## Notification Source -/

/-- `_report_call_activity`. -/
def reportCallActivity (n : Notification) (c : Core) : Core :=
  if n.type = 0 ∧ n.category = 2 then
    if n.isPreexisting then c else c.note (.called (.callActivity true))
  else if n.type = notificationRemoved ∧ n.category = 1 then c.note (.called (.callActivity false))
  else c

/-- The packet is counted and the actions offered for its notification are retired. -/
def arrive (n : Notification) (c : Core) : Core :=
  let c := reportCallActivity n c
  let c := ({ c with serials := c.serials + 1 } : Core).note (.arrived n.id c.serials)
  c.forgetActionable n.id

/-- A packet about a notification from before the subscription. -/
def replay (c : Core) : Core :=
  let c := if c.actionable.isEmpty then c else c.resetActions
  if c.liveEventsSeen then c.endSession else c

/-- `_on_ns_changed`. -/
def onNsChanged (data : Bytes) (s : Client) : Client :=
  match Notification.parse data with
  | none => s
  | some n =>
    let arrival : Arrival := { notification := n, serial := s.core.serials }
    let s := s.onCore (arrive n)
    if n.type = notificationRemoved then
      s.onCore (fun c =>
        (c.discardNotificationRequests (some n.id)).note (.called (.removed n.id)))
    else if n.isPreexisting then s.onCore replay
    else
      let categories := s.core.categories.filter (fun p => p.1 ≠ n.id) ++ [(n.id, n.category)]
      let s := s.onCore (fun c => { c with
        liveEventsSeen := true
        categories := categories.drop (categories.length - maxAncsRequests) })
      let (s, rid) := s.newRid
      (s.enqueue env (probeRequest rid arrival) false).1

/-! ## Data Source -/

/-- `_request_app_name`, and whether the name will come. -/
def requestAppName (appId : Str) (s : Client) : Client × Bool :=
  if (s.core.appNameCache.lookup appId).isSome || s.core.appLookupRequested.contains appId then
    (s, true)
  else
    let (s, rid) := s.newRid
    let asked := s.onCore (fun c => { c with appLookupRequested := appId :: c.appLookupRequested })
    let (asked, taken) := asked.enqueue env (appNameRequest rid appId) false
    if taken then (asked, true) else (s, false)

/-- `pending.append(attrs)` under the app's identifier. -/
def addWaiting (appId : Str) (w : Waiting) (c : Core) : Core :=
  { c with
    pendingAppLookups :=
      c.pendingAppLookups.filter (fun p => p.1 ≠ appId) ++ [(appId, c.waitingFor appId ++ [w])] }

/-- `pending.remove(attrs)`, and the entry with it when nobody is left. -/
def removeWaiting (appId : Str) (w : Waiting) (c : Core) : Core :=
  let pending := (c.waitingFor appId).eraseP (fun x => x.attrs == w.attrs)
  let rest := c.pendingAppLookups.filter (fun p => p.1 ≠ appId)
  { c with pendingAppLookups := if pending = [] then rest else rest ++ [(appId, pending)] }

/-- `_handle_notification_attrs`. -/
def handleNotificationAttrs (w : Waiting) (s : Client) : Client :=
  let appId := w.attrs.appId
  if appId = messagesAppId then s.onCore (·.emit env w appId)
  else
    match s.core.appNameCache.lookup appId with
    | some appName =>
      s.onCore (fun c => (({ c with
        appNameCache := c.appNameCache.filter (fun p => p.1 ≠ appId) ++ [(appId, appName)] }
        : Core).emit env w appName))
    | none =>
      if maxAncsPendingPerApp ≤ (s.core.waitingFor appId).length then
        s.onCore (·.emit env w appId)
      else
        let s := s.onCore (addWaiting appId w)
        let (s, asked) := s.requestAppName env appId
        if asked then s else s.onCore (fun c => (removeWaiting appId w c).emit env w appId)

/-- The answer to an app probe. -/
def handleProbe (a : Arrival) (appId : Str) (s : Client) : Client :=
  let includeApp := env.includeAppNotification appId
  let s := s.note (.probed a.notification.id appId env.includeNonMessageNotifications includeApp
    env.notificationActions)
  if appId = messagesAppId then
    let (s, rid) := s.newRid
    (s.enqueue env (fullRequest env rid a appId) false).1
  else if isAppId appId && env.includeNonMessageNotifications then
    let observed := s.core.observedAppIds.filter (· ≠ appId) ++ [appId]
    let s := s.onCore (fun c => { c with
      observedAppIds := observed.drop (observed.length - maxAncsAppCache) })
    if includeApp then
      let (s, rid) := s.newRid
      (s.enqueue env (fullRequest env rid a appId) false).1
    else s
  else s

/-- A complete response to a notification request. -/
def handleNotificationResponse (r : PendingRequest) (body : Bytes) (s : Client) : Client :=
  match r.notification with
  | none => pump env s
  | some a =>
    if r.appProbe then
      match parseNotificationAppIdentifier body with
      | .error _ => pump env (s.abandonRequest env r)
      | .ok (notificationId, appId) =>
        if notificationId ≠ a.notification.id then pump env s
        else pump env (s.handleProbe env a appId)
    else
      match NotificationAttributes.parse body r.actionLabelIds with
      | .error _ => pump env (s.abandonRequest env r)
      | .ok attrs =>
        if some attrs.appId ≠ r.expectedAppId then pump env s
        else pump env (s.handleNotificationAttrs env { attrs, serial := a.serial })

/-- A complete response to the active request, which is finished already. -/
def handleResponse (r : PendingRequest) (complete : Bytes) (s : Client) : Client :=
  if r.discarded then pump env s
  else
    match DataSourceEvent.parse complete with
    | .error _ => pump env (s.abandonRequest env r)
    | .ok ev =>
      if ev.type = CommandID.getNotificationAttributes then
        s.handleNotificationResponse env r ev.body
      else if ev.type = CommandID.getAppAttributes then
        match AppAttributes.parse ev.body with
        | .error _ => pump env (s.abandonRequest env r)
        | .ok app =>
          let s := if r.authorizationProbe then s.markAuthorized else s
          pump env (s.onCore (·.handleAppAttrs env app))
      else pump env s

/-- `_on_ds_changed`. -/
def onDsChanged (data : Bytes) (s : Client) : Client :=
  match s.core.active with
  | none => s
  | some r =>
    match r.assembler with
    | none => s
    | some assembler =>
      match assembler.feed data with
      | (_, .error _) => pump env ((s.onCore (·.finishActive)).abandonRequest env r)
      | (assembler, .ok none) =>
        s.onCore (fun c => { c with active := some { r with assembler := some assembler } })
      | (_, .ok (some complete)) => (s.onCore (·.finishActive)).handleResponse env r complete

/-! ## Actions -/

/-- `notification_actions_changed`. -/
def notificationActionsChanged : Client :=
  if env.notificationActions then s else s.onCore (·.resetActions)

end

/-- `perform_notification_action`. -/
def performNotificationAction (uid : Nat) (positive : Bool) (token call : Nat)
    (s : Client) : Client :=
  let refuse := fun result => s.note (.called (.actionResult call result))
  match if env.notificationActions then s.core.actionable.find? (fun e => e.uid == uid) else none with
  | none => refuse .unavailable
  | some entry =>
    if entry.token ≠ token ∨ (if positive then entry.positive else entry.negative) = false then
      refuse .unavailable
    else if !s.tr.connected || s.tr.cpPath.isNone then refuse .disconnected
    else if entry.inFlight || maxAncsActionsInFlight ≤ s.core.queuedActions then refuse .busy
    else
      let action : ActionRequest := { uid, positive, call, token, serial := entry.serial }
      let (s, rid) := s.newRid
      match s.core.enqueue (actionRequest rid action) true with
      | none => refuse .busy
      | some c =>
        pump env { s with core := { c with
          actionable := c.actionable.map
            (fun e => if e.uid = uid then { e with inFlight := true } else e) } }

end

end Client

/-! ## The machine -/

/-- What can happen to the client. A packet, a reply or a timer that the client does not wait for
is ignored. -/
inductive Input where
  | start
  | stop
  | owner (oldOwner newOwner : Bool)
  | bearer (connected : Option Bool) (legacyConnected : Bool)
  | ifaceAdded (path : Path) (kind : Characteristic)
  | ifaceRemoved (path : Path)
  | ns (data : Bytes)
  | ds (data : Bytes)
  /-- the reply to the `WriteValue` with this token -/
  | writeReply (token : Nat)
  | writeError (token : Nat) (error : DBusError)
  | toggleReply (number : Nat) (error : Option DBusError)
  | requestTimeout
  | busyRetry
  | managerRetry
  | subscribeRetry
  | authorizationRetry
  | bearerSettle
  | transportReset
  | legacyHealth
  | actionsChanged
  | perform (uid : Nat) (positive : Bool) (token call : Nat)
  | probeHealth

namespace Client

/-- The reply to a write that is still open. -/
def answerWrite (token : Nat) (handle : Write → Client → Client) (s : Client) : Client :=
  match s.core.writes.find? (fun w => w.token == token) with
  | none => s
  | some w =>
    handle w (s.onCore (fun c => { c with writes := c.writes.filter (fun x => x.token ≠ token) }))

/-- `failed`, called by BlueZ. -/
def writeFailed (env : Env) (e : DBusError) (w : Write) (s : Client) : Client :=
  let (s, again) := s.failed env w e
  if again then pump env s else s

/-- One step. -/
def step (s : Client) (input : Env × Input) : Client :=
  let env := input.1
  match input.2 with
  | .start => s.start env
  | .stop => s.stop env
  | .owner oldOwner newOwner => s.observeBluezOwner env oldOwner newOwner
  | .bearer connected legacyConnected => s.observeBearerState env connected legacyConnected
  | .ifaceAdded path kind => if s.tr.managerWatched then s.onIfaceAdded env path kind else s
  | .ifaceRemoved path => if s.tr.managerWatched then s.onIfaceRemoved env path else s
  | .ns data => if s.tr.receiversCurrent then s.onNsChanged env data else s
  | .ds data => if s.tr.receiversCurrent then s.onDsChanged env data else s
  | .writeReply token => s.answerWrite token (fun w s => s.written env w)
  | .writeError token error => s.answerWrite token (fun w s => s.writeFailed env error w)
  | .toggleReply number error =>
    match s.tr.toggles.find? (fun t => t.number == number) with
    | none => s
    | some toggle => s.toggleAnswered env toggle error
  | .requestTimeout => if s.core.requestTimer then s.requestTimedOut env else s
  | .busyRetry =>
    if s.core.busyRetry then pump env (s.onCore (fun c => { c with busyRetry := false })) else s
  | .managerRetry => if s.tr.managerRetry then s.retryManagerBind env else s
  | .subscribeRetry => if s.tr.subscribeRetry then s.retrySubscribe env else s
  | .authorizationRetry => if s.tr.authorizationRetry then s.retryAuthorization env else s
  | .bearerSettle => if s.tr.bearerSettle then s.finishBearerSettle env else s
  | .transportReset => if s.tr.transportReset then s.requestTransportReset env else s
  | .legacyHealth => if s.tr.legacyHealth then s.checkLegacyHealth env else s
  | .actionsChanged => s.notificationActionsChanged env
  | .perform uid positive token call => s.performNotificationAction env uid positive token call
  | .probeHealth => s.probeHealth env

/-- The client that the daemon makes. -/
def initial (previouslyAuthorized : Bool) : Client := { tr := { wasAuthorized := previouslyAuthorized } }

end Client

end BlueFerry.Ancs
