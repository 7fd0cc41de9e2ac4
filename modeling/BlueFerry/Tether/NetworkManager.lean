import BlueFerry.Lib.Machine
import BlueFerry.Text.CaseMapping
import BlueFerry.Tether.State

/-! # Tethering through NetworkManager

`NetworkManagerTether` (`tether_backends.py`). An attempt looks for a profile of the phone, from device
to device and from profile to profile, activates it and watches the active connection; a stop takes
down the connection that was granted, or looks for one. Each of the D-Bus calls on the way is a `Call`,
with what its callbacks hold, and its answer goes on from there.

Calls are answered in any order, and signals come at any time. What a callback was started for is its
generation; one that is not the last any more does nothing, but for an activation that is granted too
late, which is taken down.
-/

namespace BlueFerry.NmTether

open BlueFerry.Text
open BlueFerry.Tether (TIMEOUT LINK_LOST GENERIC_ERROR)

/-! ## Names -/

def NM : Str := "org.freedesktop.NetworkManager".toList

def PERMISSION_DENIED : Str := "permission-denied".toList
def NO_NETWORK_DEVICE : Str := "no-network-device".toList
def NOT_SUPPORTED : Str := "not-supported".toList
def NETWORKMANAGER_UNAVAILABLE : Str := "networkmanager-unavailable".toList
def IP_CONFIG_FAILED : Str := "ip-config-failed".toList
def ACTIVATION_FAILED : Str := "activation-failed".toList

/-- An error name of NetworkManager. -/
def nmName (name : String) : Str := NM ++ name.toList

/-- `nm_error_token` -/
def nmErrorToken (name : Str) : Str :=
  let lowered := casefold name
  if "permissiondenied".toList <:+: lowered ∨ "accessdenied".toList <:+: lowered ∨
      ".notauthorized".toList <:+ lowered then PERMISSION_DENIED
  else if name ∈ [nmName ".UnknownDevice", nmName ".ConnectionNotAvailable",
      nmName ".UnknownConnection"] then NO_NETWORK_DEVICE
  else if name ∈ [nmName ".Settings.InvalidConnection", nmName ".Settings.InvalidProperty",
      nmName ".Settings.MissingProperty", nmName ".Settings.NotSupported"] then NOT_SUPPORTED
  else if name ∈ ["org.freedesktop.DBus.Error.ServiceUnknown".toList,
      "org.freedesktop.DBus.Error.NameHasNoOwner".toList] then NETWORKMANAGER_UNAVAILABLE
  else if name ∈ ["org.freedesktop.DBus.Error.NoReply".toList,
      "org.freedesktop.DBus.Error.Timeout".toList] then TIMEOUT
  else GENERIC_ERROR

/-- `_NM_REASON_TOKENS` -/
def reasonTokens : List (Int × Str) :=
  [(5, IP_CONFIG_FAILED), (6, TIMEOUT), (7, TIMEOUT), (14, NO_NETWORK_DEVICE)]

/-- `NM_REASON_USER_DISCONNECTED` -/
def userDisconnected : Int := 2

/-- `MAX_PROFILE_CANDIDATES` -/
def maxProfileCandidates : Nat := 16

/-! ## What NetworkManager says -/

/-- The settings of a profile. -/
structure Settings where
  connectionType : Str
  bluetoothType : Str
  /-- as `_bdaddr_text` reads it -/
  bdaddr : Option Str
  uuid : Str
  timestamp : Int
  deriving DecidableEq

/-- The properties of an active connection. -/
structure Active where
  uuid : Str
  connectionType : Str
  devices : List Str
  deriving DecidableEq

/-- The answer to a call, of the type that the call has. -/
inductive Reply where
  | error (name : Str)
  | paths (values : List Str)
  | path (value : Str)
  | device (deviceType : Int) (available : List Str)
  | text (value : Str)
  | settings (value : Settings)
  | state (value : Int)
  | active (value : Active)
  | done
  deriving DecidableEq

/-- A profile that can be used: its path, its id and when it was used last. -/
structure Accepted where
  path : Str
  uuid : Str
  stamp : Int
  deriving DecidableEq

/-- A call that is not answered yet, with what its callbacks hold. -/
inductive Call where
  /-- `GetAllDevices` -/
  | allDevices (generation : Nat)
  /-- the properties of a device -/
  | device (generation : Nat) (head : Str) (rest : List Str)
  /-- its address -/
  | hwAddress (generation : Nat) (device : Str) (available rest : List Str)
  /-- `GetSettings` -/
  | settings (generation : Nat) (head : Str) (rest : List Str) (accepted : List Accepted)
  /-- `GetConnectionByUuid` -/
  | byUuid (generation : Nat)
  /-- `AddConnection` -/
  | addConnection (generation : Nat)
  /-- `ActivateConnection` -/
  | activate (generation : Nat) (profile : Str)
  /-- the state of the connection that was granted -/
  | state (generation : Nat) (path : Str)
  /-- its devices -/
  | devices (generation : Nat) (path : Str)
  /-- the interface of the first one -/
  | ipInterface (generation : Nat) (device : Str)
  /-- the active connections -/
  | activeConnections (generation : Nat)
  /-- the properties of one -/
  | active (generation : Nat) (head : Str) (rest : List Str)
  /-- the address of its first device -/
  | activeAddress (generation : Nat) (device head : Str) (rest : List Str)
  /-- `DeactivateConnection`, for a stop or for nobody -/
  | deactivate (path : Str) (waiter : Option Nat)
  deriving DecidableEq

/-- A callback of an attempt or of a stop, named by its generation. -/
inductive Callback where
  | connected (generation : Nat) (interface : Str)
  | error (generation : Nat) (token : Str)
  | lost (generation : Nat) (token : Str) (userRequested : Bool)
  | done (generation : Nat)
  | stopError (generation : Nat) (token : Str)
  deriving DecidableEq

/-- What happened. -/
inductive Entry where
  /-- `connect`, `disconnect` or `cancel` is called and has this generation -/
  | connect (generation : Nat)
  | disconnect (generation : Nat)
  | cancel (generation : Nat)
  /-- a call is made -/
  | call (call : Call)
  /-- it is answered -/
  | answer (call : Call) (reply : Reply)
  | callback (callback : Callback)
  deriving DecidableEq

/-! ## The state -/

structure Nm where
  mac : Str
  /-- BlueFerry's own profile, `connection_uuid(mac)` -/
  uuid : Str
  profileUuids : List Str
  profileUuid : Str
  generation : Nat := 0
  activePath : Option Str := none
  /-- `_state_match` is there -/
  watching : Bool := false
  /-- `established` of the attempt of this generation -/
  established : Bool := false
  pending : List Call := []
  /-- newest first -/
  log : List Entry := []

/-- `NetworkManagerTether(bus, mac)` -/
def Nm.init (mac uuid : Str) : Nm where
  mac := mac
  uuid := uuid
  profileUuids := [uuid]
  profileUuid := uuid

namespace Nm

def call (w : Nm) (c : Call) : Nm := { w with pending := w.pending ++ [c], log := .call c :: w.log }

def tell (w : Nm) (c : Callback) : Nm := { w with log := .callback c :: w.log }

/-- `_drop_state_match` -/
def dropStateMatch (w : Nm) : Nm := { w with watching := false }

/-- `_same_phone` -/
def samePhone (w : Nm) (address : Str) : Bool := casefold (strip address) == casefold w.mac

/-- A method is called: what was started before is out of date. -/
def supersede (w : Nm) (entry : Nat → Entry) : Nm :=
  { w with
    generation := w.generation + 1
    watching := false
    established := false
    log := entry (w.generation + 1) :: w.log }

/-! ## Connecting -/

section

variable (w : Nm) (generation : Nat)

/-- `fail` of an attempt -/
def fail (name : Str) : Nm :=
  if generation ≠ w.generation then w
  else w.dropStateMatch.tell (.error generation (nmErrorToken name))

/-- `activate` -/
def activate (w : Nm) (generation : Nat) (profile : Str) : Nm :=
  if generation ≠ w.generation then w else w.call (.activate generation profile)

/-- `resolved` -/
def resolved (profile : Option Str) : Nm :=
  if generation ≠ w.generation then w
  else
    match profile with
    | some profile => w.activate generation profile
    | none => { w with profileUuid := w.uuid }.call (.byUuid generation)

/-- `_pan_profile` -/
def panProfile (w : Nm) (s : Settings) : Option (Str × Int) :=
  if s.connectionType ≠ "bluetooth".toList then none
  else if s.bluetoothType ≠ "panu".toList then none
  else if s.bdaddr.any (fun address => !w.samePhone address) then none
  else if s.uuid = [] then none
  else some (s.uuid, s.timestamp)

/-- `max(accepted, key=stamp)`: the first of the newest ones -/
def newest (best : Accepted) : List Accepted → Accepted
  | [] => best
  | entry :: rest => newest (if best.stamp < entry.stamp then entry else best) rest

/-- `choose` -/
def choose : List Accepted → Nm
  | [] => w.resolved generation none
  | entry :: rest =>
    let accepted := entry :: rest
    let chosen := match accepted.find? (fun entry => decide (entry.uuid = w.uuid)) with
      | some own => own
      | none => newest entry rest
    { w with
      profileUuids := w.profileUuids ++ accepted.map Accepted.uuid
      profileUuid := chosen.uuid }.resolved generation (some chosen.path)

/-- `inspect` -/
def inspect (candidates : List Str) (accepted : List Accepted) : Nm :=
  if generation ≠ w.generation then w
  else
    match candidates with
    | [] => w.choose generation accepted
    | head :: rest => w.call (.settings generation head rest accepted)

/-- `scan_devices` -/
def scanDevices (paths : List Str) : Nm :=
  if generation ≠ w.generation then w
  else
    match paths with
    | [] => w.resolved generation none
    | head :: rest => w.call (.device generation head rest)

/-- `activated` -/
def activated (path : Str) : Nm :=
  if generation ≠ w.generation then w.call (.deactivate path none)
  else { w with activePath := some path, watching := true }.call (.state generation path)

/-- `report` of `_read_interface` -/
def report (interface : Str) : Nm :=
  if generation ≠ w.generation then w else w.tell (.connected generation interface)

/-- `_read_interface` -/
def readInterface : Nm :=
  match w.activePath with
  | none => w.report generation []
  | some path => w.call (.devices generation path)

/-- `observe` -/
def observe (state reason : Int) : Nm :=
  if generation ≠ w.generation ∨ w.watching = false then w
  else if state = 2 ∧ w.established = false then
    { w with established := true }.readInterface generation
  else if state = 3 ∨ state = 4 then
    let ended := { w.dropStateMatch with activePath := none }
    if w.established ∨ reason = userDisconnected then
      ended.tell (.lost generation ((reasonTokens.lookup reason).getD LINK_LOST)
        (decide (reason = userDisconnected)))
    else
      ended.tell (.error generation ((reasonTokens.lookup reason).getD ACTIVATION_FAILED))
  else w

end

/-! ## Stopping -/

/-- `done` of a stop; nobody waits for a late activation to be taken down. -/
def stopDone (w : Nm) : Option Nat → Nm
  | none => w
  | some generation => if generation ≠ w.generation then w else w.tell (.done generation)

/-- `failed` of a stop -/
def stopFailed (w : Nm) (waiter : Option Nat) (token : Str) : Nm :=
  match waiter with
  | none => w
  | some generation =>
    if generation ≠ w.generation then w else w.tell (.stopError generation token)

/-- What is found is taken down. -/
def found (w : Nm) (generation : Nat) (path : Str) : Nm :=
  if path = [] then w.stopDone (some generation) else w.call (.deactivate path (some generation))

/-- `check` of `_find_active` -/
def check (w : Nm) (generation : Nat) (paths : List Str) : Nm :=
  if generation ≠ w.generation then w
  else
    match paths with
    | [] => w.stopDone (some generation)
    | head :: rest => w.call (.active generation head rest)

/-! ## Answers -/

/-- The answer to a call. One of another type is none. -/
def answered (w : Nm) (c : Call) (r : Reply) : Nm :=
  match c, r with
  | .allDevices g, .paths paths => w.scanDevices g (paths.take 64)
  | .allDevices g, .error _ => w.resolved g none
  | .device g head rest, .device deviceType available =>
    if g ≠ w.generation then w
    else if deviceType ≠ 5 then w.scanDevices g rest
    else w.call (.hwAddress g head available rest)
  | .device g _ rest, .error _ => w.scanDevices g rest
  | .hwAddress g _ available rest, .text address =>
    if g ≠ w.generation then w
    else if w.samePhone address then w.inspect g (available.take maxProfileCandidates) []
    else w.scanDevices g rest
  | .hwAddress g _ _ rest, .error _ => w.scanDevices g rest
  | .settings g head rest accepted, .settings s =>
    if g ≠ w.generation then w
    else
      w.inspect g rest (match w.panProfile s with
        | some (uuid, stamp) => accepted ++ [⟨head, uuid, stamp⟩]
        | none => accepted)
  | .settings g _ rest accepted, .error _ => w.inspect g rest accepted
  | .byUuid g, .path profile => w.activate g profile
  | .byUuid g, .error name =>
    if g ≠ w.generation then w
    else if name = nmName ".Settings.InvalidConnection" then w.call (.addConnection g)
    else w.fail g name
  | .addConnection g, .path profile => w.activate g profile
  | .addConnection g, .error name => w.fail g name
  | .activate g _, .path path => w.activated g path
  | .activate g _, .error name => w.fail g name
  | .state g _, .state state => w.observe g state (-1)
  | .devices g _, .paths paths =>
    if g ≠ w.generation then w
    else
      match paths with
      | [] => w.report g []
      | device :: _ => w.call (.ipInterface g device)
  | .devices g _, .error _ => w.report g []
  | .ipInterface g _, .text interface => w.report g interface
  | .ipInterface g _, .error _ => w.report g []
  | .activeConnections g, .paths paths => w.check g (paths.take 64)
  | .activeConnections g, .error name =>
    if g ≠ w.generation then w else w.stopFailed (some g) (nmErrorToken name)
  | .active g head rest, .active value =>
    if g ≠ w.generation then w
    else if value.uuid ∈ w.profileUuids then w.found g head
    else
      match value.devices with
      | [] => w.check g rest
      | device :: _ =>
        if value.connectionType ≠ "bluetooth".toList then w.check g rest
        else w.call (.activeAddress g device head rest)
  | .active g _ rest, .error _ => w.check g rest
  | .activeAddress g _ head rest, .text address =>
    if g ≠ w.generation then w
    else if w.samePhone address then w.found g head
    else w.check g rest
  | .activeAddress g _ _ rest, .error _ => w.check g rest
  | .deactivate _ waiter, .done => w.stopDone waiter
  | .deactivate _ waiter, .error name =>
    if name ∈ [nmName ".ConnectionNotActive", "org.freedesktop.DBus.Error.UnknownObject".toList] then
      w.stopDone waiter
    else w.stopFailed waiter (nmErrorToken name)
  | _, _ => w

/-! ## Steps -/

/-- `connect` -/
def connect (w : Nm) : Nm :=
  (w.supersede .connect).call (.allDevices (w.generation + 1))

/-- `disconnect` -/
def disconnect (w : Nm) : Nm :=
  let w' := w.supersede .disconnect
  match w.activePath with
  | some path => { w' with activePath := none }.call (.deactivate path (some (w.generation + 1)))
  | none => w'.call (.activeConnections (w.generation + 1))

/-- `cancel` -/
def cancel (w : Nm) : Nm := w.supersede .cancel

end Nm

/-- What comes from outside: a method is called, the `n`-th call is answered, or the state of the
connection that the attempt of a generation watches has changed. -/
inductive Input where
  | connect
  | disconnect
  | cancel
  | answer (n : Nat) (reply : Reply)
  | stateChanged (generation : Nat) (state reason : Int)

/-- The answer is one that the call can have. -/
def Answers : Call → Reply → Bool
  | .allDevices _, .paths _ => true
  | .device _ _ _, .device _ _ => true
  | .hwAddress _ _ _ _, .text _ => true
  | .settings _ _ _ _, .settings _ => true
  | .byUuid _, .path _ => true
  | .addConnection _, .path _ => true
  | .activate _ _, .path _ => true
  | .state _ _, .state _ => true
  | .devices _ _, .paths _ => true
  | .ipInterface _ _, .text _ => true
  | .activeConnections _, .paths _ => true
  | .active _ _ _, .active _ => true
  | .activeAddress _ _ _ _, .text _ => true
  | .deactivate _ _, .done => true
  | _, .error _ => true
  | _, _ => false

/-- One step. An answer to no call, or of the wrong type, does not come. -/
def step (w : Nm) : Input → Nm
  | .connect => w.connect
  | .disconnect => w.disconnect
  | .cancel => w.cancel
  | .answer n reply =>
    match w.pending[n]? with
    | none => w
    | some c =>
      if Answers c reply then
        { w with pending := w.pending.eraseIdx n, log := .answer c reply :: w.log }.answered c reply
      else w
  | .stateChanged generation state reason => w.observe generation state reason

end BlueFerry.NmTether
