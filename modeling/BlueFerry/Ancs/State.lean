import BlueFerry.Ancs.Parsers
import BlueFerry.Text.CaseMapping
import BlueFerry.Records

/-! # The state of the ANCS client

The fields of `AncsClient` (`ancs/client.py`) in two parts: `Transport` is what it knows of BlueZ,
the LE link and its own subscriptions, `Core` the serialized queue of Control Point requests, the
notifications waiting for an app name, and the offered actions.

Objects that the code compares by identity carry a number: a request its `rid`, a write its token.
Every Notification Source packet gets a `serial`, which is passed on to what is made from it, and
`Core.log` records what the client did, newest first; both are read by the theorems only.
-/

namespace BlueFerry.Ancs

open BlueFerry.Text

/-! ## Identifiers and limits -/

def maxAncsRequests : Nat := 512
def maxAncsAppCache : Nat := 256
def maxAncsPendingPerApp : Nat := 128
def maxAncsActionable : Nat := 64
def maxAncsActionsInFlight : Nat := 4
def maxControlPointBusyRetries : Nat := 3
def maxNotifyRefreshesPerLink : Nat := 1

/-- A D-Bus object path. -/
abbrev Path := Nat

/-- The characteristics of the ANCS service. -/
inductive Characteristic where
  | notificationSource
  | dataSource
  | controlPoint
  deriving DecidableEq

/-- `_APP_ID_RE`. -/
def isAppId : Str → Bool
  | [] => false
  | c :: rest =>
    (isLetter c || isDigit c) && rest.length ≤ 254
      && rest.all (fun c => isLetter c || isDigit c || c == '.' || c == '_' || c == '-')

/-- `EventID.NotificationRemoved`. -/
def notificationRemoved : Nat := 2

/-! ## D-Bus errors -/

/-- A `DBusException`: its name, its message, `str()` of it, and the ATT error code that
`att_error_code` reads from the message. -/
structure DBusError where
  name : Str
  message : Str
  text : Str
  attCode : Option Nat := none
  deriving DecidableEq

def endsWith (s suffix : Str) : Bool := suffix.isSuffixOf s

def contains (s word : Str) : Bool := s.tails.any (word.isPrefixOf ·)

namespace DBusError

section

variable (e : DBusError)

def detail : Str := if e.message = [] then e.text else e.message

/-- `_connection_was_lost`. -/
def connectionWasLost : Bool :=
  endsWith (casefold e.name) ".notconnected".toList
    || contains (casefold e.detail) "not connected".toList
    || contains (casefold e.detail) "no att transport".toList

/-- `name.endswith(".InProgress")`. -/
def isInProgress : Bool := endsWith e.name ".InProgress".toList

/-- `_notify_registration_pending`. -/
def notifyRegistrationPending : Bool :=
  endsWith (casefold e.name) ".inprogress".toList

/-- `_notification_is_already_stopped`. -/
def notificationIsAlreadyStopped : Bool :=
  endsWith (casefold e.name) ".unknownobject".toList
    || endsWith (casefold e.name) ".unknowninterface".toList
    || ["not notifying".toList, "no notify session".toList, "no notification session".toList,
        "notify session not started".toList].any (contains (casefold e.detail) ·)

/-- The condition of `_observe_permission_error`. -/
def isPermissionError : Bool :=
  endsWith e.name ".NotAuthorized".toList || endsWith e.name ".NotPermitted".toList
    || ["not authorized".toList, "permission denied".toList, "forbidden".toList].any
        (contains (casefold e.message) ·)

end

end DBusError

/-- `ACTION_SENT` and the other results of an action. -/
inductive ActionResult where
  | sent
  | unavailable
  | disconnected
  | busy
  | rejected
  | unsupported
  | failed
  deriving DecidableEq

/-- `_action_error_result`, without the code. -/
def actionErrorResult (e : DBusError) : ActionResult :=
  if e.connectionWasLost then .disconnected
  else if e.attCode = some 0xA2 then .unavailable
  else if e.attCode = some 0xA3 then .rejected
  else if e.attCode = some 0xA0 ∨ e.attCode = some 0xA1 then .unsupported
  else .failed

/-! ## Requests -/

/-- The keys under which requests are reserved. -/
inductive Key where
  /-- `authorization` -/
  | authorization
  /-- `notification:…` -/
  | notification (uid : Nat)
  /-- `app:…` -/
  | app (appId : Str)
  /-- `action:…` -/
  | action (uid : Nat)
  /-- `retired:…` -/
  | retired (key : Key)
  deriving DecidableEq

/-- A Notification Source packet and its serial number. -/
structure Arrival where
  notification : Notification
  serial : Nat
  deriving DecidableEq

/-- `_ActionRequest`: the caller of `call` waits for the result. The token and the serial are those
of the offer that was used. -/
structure ActionRequest where
  uid : Nat
  positive : Bool
  call : Nat
  token : Nat
  serial : Nat
  deriving DecidableEq

/-- `_PendingRequest`. -/
structure PendingRequest where
  rid : Nat
  key : Key
  packet : Bytes
  assembler : Option DataSourceAssembler
  notification : Option Arrival := none
  appProbe : Bool := false
  expectedAppId : Option Str := none
  authorizationProbe : Bool := false
  busyRetries : Nat := 0
  actionLabelIds : List UInt8 := []
  action : Option ActionRequest := none
  discarded : Bool := false
  deriving DecidableEq

/-- `_Actionable`: the actions offered for one notification. -/
structure Actionable where
  uid : Nat
  token : Nat
  positive : Bool
  negative : Bool
  inFlight : Bool := false
  serial : Nat
  deriving DecidableEq

/-- A `WriteValue` call that BlueZ has not answered. -/
structure Write where
  token : Nat
  rid : Nat
  generation : Nat
  action : Option ActionRequest
  deriving DecidableEq

/-- Attributes that wait for the name of their app. -/
structure Waiting where
  attrs : NotificationAttributes
  serial : Nat
  deriving DecidableEq

/-- `AncsEvent`, without the time. -/
structure AncsEvent where
  notificationId : Nat
  appId : Str
  appName : Str
  title : Str
  subtitle : Str
  body : Str
  positiveActionLabel : Str
  negativeActionLabel : Str
  actionToken : Nat := 0
  category : Nat
  deriving DecidableEq

/-! ## The record of what happened -/

/-- The callbacks into the daemon. -/
inductive Callback where
  | status
  | transportFailure
  | callActivity (missed : Bool)
  | notificationRemoved (uid : Nat)
  | actionsReset
  | removed (uid : Nat)
  | sessionReset
  | actionResult (call : Nat) (result : ActionResult)
  deriving DecidableEq

/-- An entry of the log. -/
inductive Entry where
  /-- a Notification Source packet was processed -/
  | arrived (uid serial : Nat)
  /-- the UID session ended -/
  | sessionEnded
  /-- `_reset_actions` -/
  | actionsReset
  /-- the content requests of one notification, or of all, were retired -/
  | invalidated (uid : Option Nat)
  /-- an app probe was answered: what the policy said, and whether actions were opted in -/
  | probed (uid : Nat) (appId : Str) (includeNonMessage includeApp actions : Bool)
  /-- a packet was handed to `WriteValue`, and whether actions were opted in then -/
  | wrote (packet : Bytes) (action : Option ActionRequest) (actions : Bool)
  /-- actions were offered under a token -/
  | offered (token uid serial : Nat)
  /-- an event was emitted -/
  | emitted (event : AncsEvent)
  | called (callback : Callback)
  deriving DecidableEq

/-! ## The state -/

/-- The requests, the waiting notifications and the actions. -/
structure Core where
  queue : List PendingRequest := []
  reserved : List Key := []
  active : Option PendingRequest := none
  requestTimer : Bool := false
  cpWriteToken : Option Nat := none
  busyRetry : Bool := false
  writes : List Write := []
  nextWrite : Nat := 0
  nextRid : Nat := 0
  actionable : List Actionable := []
  nextToken : Nat := 1
  liveEventsSeen : Bool := false
  appNameCache : List (Str × Str) := []
  observedAppIds : List Str := []
  pendingAppLookups : List (Str × List Waiting) := []
  appLookupRequested : List Str := []
  categories : List (Nat × Nat) := []
  serials : Nat := 0
  log : List Entry := []

/-- A CCC re-enable in progress: its token, the owner it belongs to and the paths left. -/
structure Refresh where
  token : Nat
  generation : Nat
  remaining : List Path
  deriving DecidableEq

/-- An unanswered `StopNotify` or `StartNotify` of a re-enable. -/
structure Toggle where
  number : Nat
  refresh : Nat
  generation : Nat
  path : Path
  starting : Bool
  deriving DecidableEq

/-- BlueZ, the link and the subscriptions. -/
structure Transport where
  started : Bool := false
  ownerGeneration : Nat := 0
  ownerAvailable : Bool := true
  managerWatched : Bool := false
  nsPath : Option Path := none
  dsPath : Option Path := none
  cpPath : Option Path := none
  notifyStarted : Bool := false
  /-- the generations under which the signal receivers were installed -/
  receivers : Option (Nat × Nat) := none
  authorized : Bool := false
  wasAuthorized : Bool := false
  permissionDenied : Bool := false
  bearerConnected : Option Bool := none
  subscriptionGeneration : Nat := 0
  legacyConnected : Bool := false
  bearerReady : Bool := false
  transportBlocked : Bool := false
  ownedNotifyPaths : List Path := []
  notifyRefresh : Option Refresh := none
  notifyRefreshes : Nat := 0
  toggles : List Toggle := []
  nextToggle : Nat := 0
  managerRetry : Bool := false
  subscribeRetry : Bool := false
  authorizationRetry : Bool := false
  bearerSettle : Bool := false
  transportReset : Bool := false
  legacyHealth : Bool := false

structure Client where
  tr : Transport := {}
  core : Core := {}

/-- The answers that one step gets from outside: the settings, and what D-Bus calls that return at
once do. Writes and toggles are counted, so that each of them has its own answer. -/
structure Env where
  includeNonMessageNotifications : Bool
  includeAppNotification : Str → Bool
  notificationActions : Bool
  /-- an error raised by the dispatch of a `WriteValue` -/
  dispatch : Nat → Option DBusError
  /-- the ANCS characteristics in `GetManagedObjects`; `none` when it raises -/
  managed : Option (List (Path × Characteristic))
  startNotify : Path → Option DBusError
  stopNotify : Path → Option DBusError
  cachedNotifying : Path → Option Bool
  /-- an error raised by the dispatch of a toggle -/
  toggleDispatch : Nat → Option DBusError
  /-- whether a transport failure handler was given -/
  handlesTransportFailure : Bool

end BlueFerry.Ancs
