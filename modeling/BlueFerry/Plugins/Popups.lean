import BlueFerry.Lib.Dict
import BlueFerry.Lib.Machine
import BlueFerry.Lib.Slots
import BlueFerry.Lib.Trace
import BlueFerry.Lib.Window
import BlueFerry.Text.Utf8

/-! # Popups that plugins ask for

`PluginPopups` (`plugin_notify.py`). A sender's signal begins an exchange: the bus is asked, one
plugin after the other, who owns its name, then which user runs the sender, and only then the popup
is fetched from the sender itself. A click on a popup's button begins an exchange of its own.

Every call is answered later, once, by a step of its own; a call may also raise when it is sent. The
clock stands still within a step, and it is in microseconds. Which plugins are installed is fixed;
which of them are disabled, and whether the two files can be read, changes between the steps.

`log` is kept for the statements: what the bus and the plugins answered, what was sent, shown and
opened, each entry with the time and the disabled plugins of its step.
-/

namespace BlueFerry.PluginPopups

open BlueFerry.Text

/-! ## Data -/

/-- What `PluginPopups` reads of a `PluginManifest`. -/
structure Manifest where
  id : Str
  name : Str
  busName : Str
  pluginAlias : Str := []
  deriving DecidableEq

/-- `Notification` -/
structure Notification where
  title : Str
  body : Str
  icon : Str := []
  actionLabel : Str := []
  actionId : Str := []
  deriving DecidableEq

/-- `has_action` -/
def Notification.hasAction (note : Notification) : Bool :=
  decide (note.actionLabel ≠ []) && decide (note.actionId ≠ [])

/-- `PluginPopup` -/
structure PluginPopup where
  pluginId : Str
  pluginName : Str
  busName : Str
  note : Notification
  pluginAlias : Str
  deriving DecidableEq

/-- What `parse_pending` makes of a reply. `json.loads` raises something else than `ValueError` for
a text that is nested too deeply; nothing catches that. -/
inductive Parsed where
  | pending (note : Option Notification) (more : Bool)
  | surfaceError
  | raises
  deriving DecidableEq

/-- What `parse_action_result` makes of a reply. -/
inductive ParsedAction where
  | result (ok : Bool) (openUri : Option Str)
  | surfaceError
  | raises
  deriving DecidableEq

/-- What is there from the start: the installed plugins with the capability `notify`, the daemon's
own user, and the functions that read the replies. -/
structure Env where
  installed : List Manifest
  uid : Int
  parsePending : Str → Parsed
  parseActionResult : Str → ParsedAction
  /-- `checked_open_uri` below the plugin's cache folders -/
  checkedOpenUri : (pluginId pluginAlias uri : Str) → Option Str

/-! ## Limits -/

def popupsPerMinute : Nat := 6
def lookupsPerMinute : Nat := 12
def maxPendingSenders : Nat := 16
def fetchesPerMinute : Nat := 24
def maxVerifiedSenders : Nat := 64
def maxPendingNotifications : Nat := 8
def maxReplyBytes : Nat := 512 * 1024
/-- The entries that a table of windows keeps. -/
def maxWindows : Nat := 256
def second : Int := 1000000
def manifestTtl : Int := 30 * second
def minute : Int := 60 * second

/-- The calls of each key, oldest first. -/
abbrev Windows := Dict Str (List Int)

/-- `while window and now - window[0] > 60: window.popleft()` -/
def dropOld (now : Int) (window : List Int) : List Int :=
  window.dropWhile (fun x => decide (now - x > minute))

/-- `_room` -/
def room (now : Int) (table : Windows) (key : Str) (limit : Nat) : Windows × Bool :=
  match table.get? key with
  | none => (table, true)
  | some window =>
    let window := dropOld now window
    (table.set key window, decide (window.length < limit))

/-- The newest call of a window is older than the window, or there is none. -/
def isStale (now : Int) (times : List Int) : Bool :=
  match times.getLast? with
  | none => true
  | some last => decide (now - last > minute)

/-- A table with too many entries loses the stale ones, and then the first ones. -/
def evict (now : Int) (table : Windows) : Windows :=
  if table.items.length > maxWindows then
    (table.filter (fun _ times => !isStale now times)).keepLast maxWindows
  else table

/-- `_admit` -/
def admitCall (now : Int) (table : Windows) (key : Str) (limit : Nat) : Windows × Bool :=
  match room now table key limit with
  | (table, false) => (table, false)
  | (table, true) => (evict now (table.set key ((table.get? key).getD [] ++ [now])), true)

/-! ## What happens -/

/-- An exchange: of a signal (the token of its pending entry), or of a click. -/
inductive Exchange where
  | notify (token : Nat)
  | click (n : Nat)
  deriving DecidableEq

inductive Event where
  /-- a signal has begun an exchange -/
  | begun (token : Nat) (sender : Str)
  /-- the bus has answered `GetNameOwner` -/
  | ownerTold (x : Exchange) (busName owner : Str)
  /-- the bus has answered `GetConnectionUnixUser` -/
  | userTold (x : Exchange) (connection : Str) (uid : Int)
  /-- `GetPendingNotification` was sent, as this call -/
  | fetchSent (token : Nat) (call : Nat) (destination : Str) (plugin : Manifest)
  /-- it was answered with a text -/
  | fetchAnswered (call : Nat) (text : Str)
  /-- a popup was shown that this call has fetched -/
  | shown (token : Nat) (call : Nat) (popup : PluginPopup)
  | clicked (n : Nat) (popup : PluginPopup)
  /-- `InvokeAction` was sent -/
  | actionSent (n : Nat) (destination : Str) (popup : PluginPopup)
  | uriOpened (n : Nat) (uri : Str)
  | stopped
  deriving DecidableEq

/-- An event, with the time and the disabled plugins when it happened. -/
structure Entry where
  now : Int
  disabled : List Str
  event : Event
  deriving DecidableEq

/-- A call that was sent and is not answered. -/
inductive Call where
  | owner (sender : Str) (plugin : Manifest) (rest : List Manifest) (token : Nat)
  | user (sender : Str) (plugin : Manifest) (token : Nat)
  | fetch (sender : Str) (plugin : Manifest) (left : Nat) (token : Nat)
  | clickOwner (n : Nat) (popup : PluginPopup) (generation : Nat) (activate : Bool)
  | startService (n : Nat) (popup : PluginPopup) (generation : Nat)
  | clickUser (n : Nat) (popup : PluginPopup) (generation : Nat) (owner : Str)
  | invokeAction (n : Nat) (popup : PluginPopup) (generation : Nat)
  deriving DecidableEq

/-- An argument of a reply. -/
inductive Arg where
  | text (t : Str)
  | other
  deriving DecidableEq

inductive Answer where
  | name (owner : Str)
  | uid (uid : Int)
  /-- the arguments that a plugin's reply has -/
  | args (args : List Arg)
  /-- an error, with its D-Bus name -/
  | error (name : Str)
  deriving DecidableEq

/-- What the calls of a step raise when they are sent: the first one, and a second one. -/
structure Raised where
  first : Option Str := none
  second : Option Str := none
  deriving DecidableEq

structure State where
  now : Int := 0
  disabled : List Str := []
  /-- reading the manifests, or the disabled list, raises -/
  pluginsFail : Bool := false
  disabledFail : Bool := false
  recent : Windows := Dict.empty
  lookups : Windows := Dict.empty
  fetches : Windows := Dict.empty
  pending : Dict Str Nat := Dict.empty
  fetchAgain : List Str := []
  stopped : Bool := false
  generation : Nat := 0
  manifests : List Manifest := []
  /-- `none` is `-inf` -/
  manifestsAt : Option Int := none
  verified : Dict Str Manifest := Dict.empty
  /-- `_match` is set -/
  watched : Bool := false
  calls : Slots Call := Slots.empty
  tokens : Nat := 0
  clicks : Nat := 0
  log : List Entry := []

namespace State

/-- An event of this step. -/
def note (s : State) (event : Event) : State :=
  { s with log := ⟨s.now, s.disabled, event⟩ :: s.log }

/-! ## Enabled plugins -/

section

variable (env : Env) (s : State)

/-- The manifests are read again when the last reading is too old. -/
def refresh : State :=
  if s.manifestsAt.any (fun t => decide (s.now - t < manifestTtl)) then s
  else
    { s with
      manifests := if s.pluginsFail then [] else env.installed
      manifestsAt := some s.now }

/-- What `_candidates` returns, after `refresh`. -/
def candidates (s : State) : List Manifest :=
  if s.disabledFail then [] else s.manifests.filter (fun m => decide (m.id ∉ s.disabled))

/-- `_enabled` reads the manifests, unless it is stopped. -/
def look : State := if s.stopped then s else s.refresh env

/-- What `_enabled` returns, after `look`. -/
def enabled (s : State) (pluginId busName : Str) : Bool :=
  !s.stopped && s.candidates.any (fun m => decide (m.id = pluginId ∧ m.busName = busName))

/-! ## Pending senders -/

section

variable (s : State) (sender : Str)

/-- `_finish` -/
def finish (token : Nat) : State :=
  if s.pending.get? sender = some token then
    { s with
      pending := s.pending.erase sender
      fetchAgain := s.fetchAgain.filter (fun x => decide (x ≠ sender)) }
  else s

/-- A call was sent. -/
def send (s : State) (call : Call) : State := { s with calls := s.calls.put call }

/-- `_pending_call` -/
def pendingCall (token : Nat) (call : Call) (r : Raised) : State :=
  if r.first.isSome then s.finish sender token else s.send call

/-- `_match_owner` -/
def matchOwner (candidates : List Manifest) (token : Nat) (r : Raised) : State :=
  if s.pending.get? sender ≠ some token then s
  else
    match candidates with
    | [] => { s with verified := s.verified.erase sender }.finish sender token
    | plugin :: rest => s.pendingCall sender token (.owner sender plugin rest token) r

/-- `_check_user` -/
def checkUser (plugin : Manifest) (token : Nat) (r : Raised) : State :=
  s.pendingCall sender token (.user sender plugin token) r

/-- `GetPendingNotification` is sent, if that does not raise. -/
def sendFetch (plugin : Manifest) (left token : Nat) (r : Raised) : State :=
  if r.first.isSome then s.finish sender token
  else (s.note (.fetchSent token s.calls.next sender plugin)).send (.fetch sender plugin left token)

end

section

variable (sender : Str)

/-- `_fetch` -/
def fetch (plugin : Manifest) (left token : Nat) (r : Raised) : State :=
  if s.pending.get? sender ≠ some token then s
  else if left = 0 then s.finish sender token
  else
    let s := s.look env
    if s.enabled plugin.id plugin.busName = false then s.finish sender token
    else
      match room s.now s.recent plugin.id popupsPerMinute with
      | (recent, false) => { s with recent }.finish sender token
      | (recent, true) =>
        match admitCall s.now s.fetches plugin.id fetchesPerMinute with
        | (fetches, false) => { s with recent, fetches }.finish sender token
        | (fetches, true) =>
          { s with
            recent, fetches
            fetchAgain := s.fetchAgain.filter (fun x => decide (x ≠ sender)) }.sendFetch
            sender plugin left token r

/-- A signal that may begin an exchange begins one. -/
def begin (s : State) (sender : Str) : State :=
  { s with
    pending := s.pending.set sender s.tokens
    tokens := s.tokens + 1 }.note (.begun s.tokens sender)

/-- `_on_changed` for a sender that was verified before -/
def changedKnown (known : Manifest) (r : Raised) : State :=
  let s := s.look env
  if s.enabled known.id known.busName = false then s
  else
    match room s.now s.recent known.id popupsPerMinute with
    | (recent, false) => { s with recent }
    | (recent, true) =>
      match room s.now s.fetches known.id fetchesPerMinute with
      | (fetches, false) => { s with recent, fetches }
      | (fetches, true) =>
        match admitCall s.now s.lookups sender fetchesPerMinute with
        | (lookups, false) => { s with recent, fetches, lookups }
        | (lookups, true) =>
          ({ s with recent, fetches, lookups }.begin sender).matchOwner sender [known]
            s.tokens r

/-- `_on_changed` for another sender -/
def changedUnknown (r : Raised) : State :=
  match admitCall s.now s.lookups sender lookupsPerMinute with
  | (lookups, false) => { s with lookups }
  | (lookups, true) =>
    let begun := ({ s with lookups }.begin sender).refresh env
    begun.matchOwner sender begun.candidates s.tokens r

/-- `_on_changed` -/
def onChanged (r : Raised) : State :=
  if sender = [] ∨ s.stopped = true then s
  else if (s.pending.get? sender).isSome then
    { s with fetchAgain := sender :: s.fetchAgain.filter (fun x => decide (x ≠ sender)) }
  else if s.pending.items.length ≥ maxPendingSenders then s
  else
    match s.verified.get? sender with
    | some known => s.changedKnown env sender known r
    | none => s.changedUnknown env sender r

/-! ## Replies to the exchange of a signal -/

/-- `owner` of `_match_owner` -/
def ownerReplied (s : State) (sender : Str) (plugin : Manifest) (rest : List Manifest)
    (token : Nat) (name : Str) (r : Raised) : State :=
  let s := s.note (.ownerTold (.notify token) plugin.busName name)
  if s.pending.get? sender ≠ some token then s
  else if name = sender then s.checkUser sender plugin token r
  else s.matchOwner sender rest token r

/-- `checked` of `_check_user` -/
def userReplied (plugin : Manifest) (token : Nat) (uid : Int) (r : Raised) : State :=
  let s := s.note (.userTold (.notify token) sender uid)
  if s.pending.get? sender ≠ some token then s
  else if uid ≠ env.uid then s.finish sender token
  else
    { s with verified := (s.verified.set sender plugin).keepLast maxVerifiedSenders }.fetch env
      sender plugin maxPendingNotifications token r

end

/-- `_deliver`: the popup of a reply to the call `id` -/
def deliver (plugin : Manifest) (note : Notification) (token id : Nat) : State :=
  let s := s.look env
  if s.enabled plugin.id plugin.busName = false then s
  else
    match admitCall s.now s.recent plugin.id popupsPerMinute with
    | (recent, false) => { s with recent }
    | (recent, true) =>
      { s with recent }.note
        (.shown token id ⟨plugin.id, plugin.name, plugin.busName, note, plugin.pluginAlias⟩)

/-- `replied` of `_fetch` takes one argument. -/
def fetchReplied (id : Nat) (sender : Str) (plugin : Manifest)
    (left token : Nat) (args : List Arg) (r : Raised) : State :=
  match args with
  | [.text text] =>
    let s := s.note (.fetchAnswered id text)
    if s.pending.get? sender ≠ some token then s
    else if (Text.encode text).length > maxReplyBytes then s.finish sender token
    else
      match env.parsePending text with
      | .surfaceError => s.finish sender token
      | .raises => s
      | .pending note more =>
        let s := match note with
          | some note => s.deliver env plugin note token id
          | none => s
        if more = true ∨ sender ∈ s.fetchAgain then s.fetch env sender plugin (left - 1) token r
        else s.finish sender token
  | [.other] => s.finish sender token
  | _ => s

/-! ## Clicks -/

/-- `current` of `invoke`, after `look` -/
def current (s : State) (generation : Nat) (popup : PluginPopup) : Bool :=
  decide (generation = s.generation) && s.enabled popup.pluginId popup.busName

/-- `current` reads the manifests only while the generation is the same. -/
def lookAgain (generation : Nat) : State :=
  if generation = s.generation then s.look env else s

/-- `call` of `invoke` -/
def clickCall (generation : Nat) (popup : PluginPopup) (call : Call)
    (raised : Option Str) (failure : State → Str → State) : State :=
  let s := s.lookAgain env generation
  if s.current generation popup = false then s
  else
    match raised with
    | none => s.send call
    | some name => failure s name

/-- `failed` of `invoke` -/
def clickFailed (s : State) (_name : Str) : State := s

def nameHasNoOwner : Str := "org.freedesktop.DBus.Error.NameHasNoOwner".toList

/-- `missing` of `lookup` -/
def missing (env : Env) (n : Nat) (popup : PluginPopup) (generation : Nat) (activate : Bool)
    (raised : Option Str) (s : State) (name : Str) : State :=
  if activate = true ∧ name = nameHasNoOwner then
    s.clickCall env generation popup (.startService n popup generation) raised clickFailed
  else s

section

variable (n : Nat) (popup : PluginPopup) (generation : Nat)

/-- `lookup` -/
def lookup (activate : Bool) (r : Raised) : State :=
  s.clickCall env generation popup (.clickOwner n popup generation activate) r.first
    (missing env n popup generation activate r.second)

/-- `invoke` -/
def invoke (popup : PluginPopup) (r : Raised) : State :=
  if popup.note.hasAction = false then s
  else
    let s := s.look env
    if s.enabled popup.pluginId popup.busName = false then s
    else
      ({ s with clicks := s.clicks + 1 }.note (.clicked s.clicks popup)).lookup env s.clicks popup
        s.generation true r

/-- `owner_found` -/
def ownerFound (owner : Str) (r : Raised) : State :=
  let s := (s.note (.ownerTold (.click n) popup.busName owner)).lookAgain env generation
  if s.current generation popup = false then s
  else
    s.clickCall env generation popup (.clickUser n popup generation owner) r.first clickFailed

/-- `InvokeAction` is sent, if that does not raise. -/
def sendAction (owner : Str) (raised : Option Str) : State :=
  let s := s.lookAgain env generation
  if s.current generation popup = false then s
  else
    match raised with
    | none => (s.note (.actionSent n owner popup)).send (.invokeAction n popup generation)
    | some name => s.clickFailed name

/-- `checked` of `owner_found` -/
def userChecked (owner : Str) (uid : Int) (r : Raised) : State :=
  let s := (s.note (.userTold (.click n) owner uid)).lookAgain env generation
  if s.current generation popup = false then s
  else if uid ≠ env.uid then s
  else s.sendAction env n popup generation owner r.first

/-- `replied` of `invoke` -/
def actionReplied (args : List Arg) : State :=
  match args with
  | [.text text] =>
    let s := s.lookAgain env generation
    if s.current generation popup = false then s
    else if (Text.encode text).length > maxReplyBytes then s
    else
      match env.parseActionResult text with
      | .result true (some uri) =>
        match env.checkedOpenUri popup.pluginId popup.pluginAlias uri with
        | some uri => s.note (.uriOpened n uri)
        | none => s
      | _ => s
  | _ => s

end

/-! ## Answers -/

/-- An answer to a call; a bus method that answers something else than its type does not come. -/
def answered (id : Nat) (call : Call) (answer : Answer) (r : Raised) : State :=
  match call, answer with
  | .owner sender plugin rest token, .name name => s.ownerReplied sender plugin rest token name r
  | .owner sender _ rest token, .error _ => s.matchOwner sender rest token r
  | .user sender plugin token, .uid uid => s.userReplied env sender plugin token uid r
  | .user sender _ token, .error _ => s.finish sender token
  | .fetch sender plugin left token, .args args =>
    s.fetchReplied env id sender plugin left token args r
  | .fetch sender _ _ token, .error _ => s.finish sender token
  | .clickOwner n popup generation _, .name owner => s.ownerFound env n popup generation owner r
  | .clickOwner n popup generation activate, .error name =>
    missing env n popup generation activate r.first s name
  | .startService n popup generation, .uid _ => s.lookup env n popup generation false r
  | .startService _ _ _, .error name => s.clickFailed name
  | .clickUser n popup generation owner, .uid uid =>
    s.userChecked env n popup generation owner uid r
  | .clickUser _ _ _ _, .error name => s.clickFailed name
  | .invokeAction n popup generation, .args args => s.actionReplied env n popup generation args
  | .invokeAction _ _ _, .error name => s.clickFailed name
  | _, _ => s

end

/-- The bus answers the owner of a name with a name, a user with a number, and a plugin answers what
it likes. -/
def fits : Call → Answer → Bool
  | _, .error _ => true
  | .owner .., .name _ => true
  | .user .., .uid _ => true
  | .fetch .., .args _ => true
  | .clickOwner .., .name _ => true
  | .startService .., .uid _ => true
  | .clickUser .., .uid _ => true
  | .invokeAction .., .args _ => true
  | _, _ => false

/-- `start` -/
def start (s : State) (fails : Bool) : State :=
  if s.watched then s else { s with stopped := false, watched := !fails }

/-- `stop` -/
def stop (s : State) : State :=
  { s with
    stopped := true
    generation := s.generation + 1
    pending := Dict.empty
    fetchAgain := []
    verified := Dict.empty
    watched := false }.note .stopped

end State

/-! ## Steps -/

inductive Input where
  | changed (sender : Str) (r : Raised)
  | answers (id : Nat) (answer : Answer) (r : Raised)
  | click (popup : PluginPopup) (r : Raised)
  /-- the clock goes on -/
  | tick (d : Nat)
  /-- plugins are disabled and enabled -/
  | disables (ids : List Str)
  | files (pluginsFail disabledFail : Bool)
  | start (fails : Bool)
  | stop

def step (env : Env) (s : State) : Input → State
  | .changed sender r => s.onChanged env sender r
  | .answers id answer r =>
    match s.calls.get id with
    | some call =>
      if State.fits call answer then
        { s with calls := s.calls.take id }.answered env id call answer r
      else s
    | none => s
  | .click popup r => s.invoke env popup r
  | .tick d => { s with now := s.now + d }
  | .disables ids => { s with disabled := ids }
  | .files pluginsFail disabledFail => { s with pluginsFail, disabledFail }
  | .start fails => s.start fails
  | .stop => s.stop

end BlueFerry.PluginPopups
