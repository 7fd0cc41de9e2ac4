import Mathlib
import BlueFerry.Lib.Dict
import BlueFerry.Lib.Machine
import BlueFerry.Lib.Slots
import BlueFerry.Lib.Trace
import BlueFerry.Text.Basic

/-! # The phone's battery

`PhoneBattery` (`phone_battery.py`): it follows BlueZ's own `Battery1` of one device, or it reads the
GATT characteristic with the battery level and follows its notifications.

A call is answered later, once, by a step of its own, and any use of the bus may raise: `raises` says
which ones, in the order in which they are made. A signal comes with the generation that its handler
was registered in, since a removed match may still deliver one. The callback of a change and the log
lines are left out.

`log` is kept for the statements: what was sent and received, and what made older values stale.
-/

namespace BlueFerry.PhoneBattery

open BlueFerry.Text

/-! ## Values -/

/-- An element of an array, or a plain value. A Boolean is not a number here. -/
inductive Scalar where
  | int (n : Int)
  | other
  deriving DecidableEq

inductive Value where
  | scalar (x : Scalar)
  | list (items : List Scalar)
  deriving DecidableEq

/-- `_percent` -/
def percent : Scalar → Option Int
  | .int n => if 0 ≤ n ∧ n ≤ 100 then some n else none
  | .other => none

/-- `parse_battery_level` -/
def parseBatteryLevel : Value → Option Int
  | .list [x] => percent x
  | _ => none

/-- `parse_battery1_percentage` -/
def parseBattery1Percentage : Value → Option Int
  | .scalar x => percent x
  | .list _ => none

def battery1Iface : Str := "org.bluez.Battery1".toList
def gattCharIface : Str := "org.bluez.GattCharacteristic1".toList
def batteryLevelUuid : Str := "00002a19-0000-1000-8000-00805f9b34fb".toList
def bluezGattBatterySource : Str := "GATT Battery Service".toList
def inProgress : Str := "org.bluez.Error.InProgress".toList

/-- The properties of a `Battery1`; a missing `Percentage` is no number. -/
inductive Battery where
  | mapping (source : Str) (percentage : Value)
  | other
  deriving DecidableEq

/-- The properties of a `GattCharacteristic1`. -/
inductive Char1 where
  | mapping (uuid : Str) (value : Value)
  | other
  deriving DecidableEq

/-- The interfaces of an object, as far as they are looked at. -/
inductive Interfaces where
  | mapping (battery : Option Battery) (char : Option Char1)
  | other
  deriving DecidableEq

/-- The reply of `GetManagedObjects`. -/
abbrev Objects := Dict Str Interfaces

/-- What a `PropertiesChanged` says of the one property that is looked at. -/
inductive Changed where
  | mapping (value : Option Value) (invalidated : Bool)
  | other
  deriving DecidableEq

/-- `_is_plugin` -/
def isPlugin (source : Str) : Bool := decide (source = bluezGattBatterySource)

/-- `str(char.get("UUID", "")).lower() == BATTERY_LEVEL_UUID`; no other character than a letter of
ASCII is lowered to one of this UUID. -/
def isBatteryLevel (uuid : Str) : Bool := decide (uuid.map Char.toLower = batteryLevelUuid)

/-- The watched device, and which uses of the bus raise, with the name of the error. -/
structure Env where
  devicePath : Str
  raises : Nat → Option Str

/-- `_under` -/
def Env.under (env : Env) (path : Str) : Bool := startsWith path (env.devicePath ++ ['/'])

/-! ## What happens -/

inductive Event where
  /-- `GetManagedObjects` is about to be sent -/
  | discovery
  | linkChanged
  | charChanged
  | sourceSwitched
  /-- the value that a characteristic is adopted with -/
  | cached (value : Int)
  /-- the read of this subscription is about to be sent -/
  | readSent (n : Nat)
  /-- its reply, or its error, has set the value -/
  | readSet (n : Nat) (value : Option Int)
  /-- a notification has set the value -/
  | notified (value : Option Int)
  /-- an object or a property signal has said something of `Battery1` -/
  | batterySignalled
  /-- an object or a property signal has said something of the characteristic at the path -/
  | charSignalled (path : Str)
  deriving DecidableEq

inductive Kind where
  | managed
  | read (path : Str) (n revision : Nat)
  | startNotify (path : Str) (n revision : Nat)
  | stopNotify (path : Str)
  deriving DecidableEq

/-- `characteristic` of `_call` -/
def Kind.characteristic : Kind → Bool
  | .read .. => true
  | .startNotify .. => true
  | _ => false

/-- A call that is not answered, with the generations it was sent in. -/
structure Call where
  kind : Kind
  generation : Nat
  charGeneration : Nat
  linkGeneration : Nat
  deriving DecidableEq

inductive Answer where
  | objects (objects : Objects)
  | value (value : Value)
  /-- no argument, or one that is nothing of the above -/
  | nothing
  | error (name : Str)

/-- `parse_battery_level` of what a read has brought -/
def Answer.level : Answer → Option Int
  | .value v => parseBatteryLevel v
  | _ => none

structure State where
  running : Bool := false
  wanted : Bool := false
  generation : Nat := 0
  charGeneration : Nat := 0
  linkGeneration : Nat := 0
  linkConnected : Option Bool := none
  valueRevision : Nat := 0
  discoveryChanges : Option (List Str) := none
  /-- the generations of the handlers that were registered for characteristics -/
  handlers : List (Nat × Nat) := []
  charPath : Option Str := none
  notifying : Bool := false
  battery1 : Option Int := none
  gatt : Option Int := none
  battery1Plugin : Bool := false
  battery1Suspect : Bool := false
  battery1SourceKnown : Bool := false
  deferring : Bool := false
  calls : Slots Call := Slots.empty
  /-- the uses of the bus so far -/
  ops : Nat := 0
  subscriptions : Nat := 0
  /-- the subscriptions whose read has succeeded -/
  succeeded : List Nat := []
  log : List Event := []

namespace State

section

variable (s : State)

def note (event : Event) : State := { s with log := event :: s.log }

/-- `_note_discovery_change` -/
def noteDiscoveryChange (path : Str) : State :=
  { s with discoveryChanges := s.discoveryChanges.map (path :: ·) }

/-- `_set_gatt` -/
def setGatt (value : Option Int) : State := { s with gatt := value }

/-- `_set_battery1` -/
def setBattery1 (value : Option Int) : State := { s with battery1 := value }

/-! ## Calls -/

/-- What a failed call does. -/
def onError (kind : Kind) (name : Str) : State :=
  match kind with
  | .managed => { s with discoveryChanges := none }
  | .read _ n revision =>
    if revision = s.valueRevision then (s.setGatt none).note (.readSet n none) else s
  | .startNotify _ n revision =>
    if name = inProgress then { s with notifying := true }
    else if n ∉ s.succeeded ∧ revision = s.valueRevision then s.setGatt none
    else s
  | .stopNotify _ => s

/-- The bus is used once more. -/
def used : State := { s with ops := s.ops + 1 }

/-- A call was sent, in the present generations. -/
def sent (kind : Kind) : State :=
  { s with calls := s.calls.put ⟨kind, s.generation, s.charGeneration, s.linkGeneration⟩ }

end

section

variable (env : Env) (s : State)

/-- `_call`: one that raises fails at once, if it is running. -/
def call (kind : Kind) : State :=
  match env.raises s.ops with
  | none => s.used.sent kind
  | some name => if s.running then s.used.onError kind name else s.used

/-- `_stop_notify` -/
def stopNotify (env : Env) (s : State) (path : Str) : State :=
  match env.raises s.ops with
  | none => s.used.sent (.stopNotify path)
  | some _ => s.used

/-- `_subscribe` -/
def subscribe (path : Str) : State :=
  let n := s.subscriptions
  let revision := s.valueRevision
  let s := ({ s with subscriptions := n + 1 }.note (.readSent n)).call env (.read path n revision)
  if s.notifying then s else s.call env (.startNotify path n revision)

/-! ## The characteristic -/

/-- The session of a forgotten characteristic ends. -/
def endSession (path : Option Str) (stop : Bool) : State :=
  match path with
  | some path => if stop && s.notifying then s.stopNotify env path else s
  | none => s

/-- `_forget_characteristic` -/
def forgetCharacteristic (stopNotify : Bool) : State :=
  let path := s.charPath
  let s := ({ s with charGeneration := s.charGeneration + 1, charPath := none }.note
    .charChanged).endSession env path stopNotify
  { s with notifying := false }.setGatt none

/-- The value that a characteristic is adopted with counts until it is read. -/
def setCached (s : State) (value : Value) : State :=
  match parseBatteryLevel value with
  | some level => (s.setGatt (some level)).note (.cached level)
  | none => s

/-- `_adopt_characteristic` -/
def adoptCharacteristic (path : Str) (value : Value) : State :=
  let s := s.forgetCharacteristic env true
  match env.raises s.ops with
  | some _ => s.used
  | none =>
    let s := { s.used with
      charPath := some path
      handlers := (s.generation, s.charGeneration) :: s.handlers }
    if s.linkConnected = some false ∨ s.deferring = true then s
    else { s.setCached value with notifying := false }.subscribe env path

/-! ## The source -/

/-- The session ends when BlueZ's own battery takes over. -/
def endOwnSession : State :=
  match s.charPath with
  | some path => if s.notifying then s.stopNotify env path else s
  | none => s

/-- `_sync_source`, when BlueZ's own battery is followed from now on -/
def giveUp : State :=
  let s := { s.note .sourceSwitched with
    deferring := true
    linkGeneration := s.linkGeneration + 1 }.endOwnSession env
  { s with notifying := false }.setGatt none

/-- `_sync_source`, when the characteristic is followed again -/
def takeBack : State :=
  let s := { s.note .sourceSwitched with deferring := false }
  match s.charPath with
  | some path =>
    if s.running = true ∧ s.linkConnected ≠ some false then
      ({ s with notifying := false }.setGatt none).subscribe env path
    else s
  | none => s

/-- `_sync_source` -/
def syncSource : State :=
  let defer := s.battery1Plugin && !s.battery1Suspect
  if defer = s.deferring then s
  else if defer then s.giveUp env
  else s.takeBack env

/-! ## Object and property signals -/

section

variable (path : Str)

/-- The signal is about something that discovery looks for. -/
def noteAdded (battery char : Bool) : State :=
  let s := if path = env.devicePath ∧ battery = true then s.note .batterySignalled else s
  let s := if env.under path = true ∧ char = true then s.note (.charSignalled path) else s
  if (path = env.devicePath ∧ battery = true) ∨ (env.under path = true ∧ char = true) then
    s.noteDiscoveryChange path
  else s

/-- A `Battery1` is there, and its object is new. -/
def batteryAdded (source : Str) (percentage : Value) : State :=
  ({ s with
    battery1Plugin := isPlugin source
    battery1SourceKnown := true
    battery1Suspect := false }.setBattery1 (parseBattery1Percentage percentage)).syncSource env

/-- `Battery1` of an added object -/
def addBattery (battery : Option Battery) : State :=
  match battery with
  | some (.mapping source percentage) =>
    if path = env.devicePath then s.batteryAdded env source percentage else s
  | _ => s

/-- The characteristic of an added object -/
def addChar (char : Option Char1) : State :=
  match char with
  | some (.mapping uuid value) =>
    if env.under path = true ∧ isBatteryLevel uuid = true ∧ s.charPath ≠ some path then
      s.adoptCharacteristic env path value
    else s
  | _ => s

/-- `_on_added`, after what it notes -/
def addObject (battery : Option Battery) (char : Option Char1) : State :=
  (s.addBattery env path battery).addChar env path char

/-- `_on_added` -/
def onAdded (interfaces : Interfaces) : State :=
  match interfaces with
  | .mapping battery char =>
    (s.noteAdded env path battery.isSome char.isSome).addObject env path battery char
  | .other => s

/-- The `Battery1` is gone. -/
def batteryRemoved : State :=
  ({ s with battery1Plugin := false, battery1Suspect := false }.setBattery1 none).syncSource env

/-- `Battery1` of a removed object -/
def removeBattery (names : List Str) : State :=
  if path = env.devicePath ∧ battery1Iface ∈ names then s.batteryRemoved env else s

/-- The characteristic of a removed object -/
def removeChar (names : List Str) : State :=
  if s.charPath = some path ∧ gattCharIface ∈ names then s.forgetCharacteristic env false else s

/-- `_on_removed` -/
def onRemoved (names : List Str) : State :=
  ((s.noteAdded env path (decide (battery1Iface ∈ names))
    (decide (gattCharIface ∈ names))).removeBattery env path names).removeChar env path names

end

/-- The new level of `Battery1`; one that moves is not the stale object. -/
def levelChanged (level : Option Int) : State :=
  ({ s with
    battery1Suspect :=
      s.battery1Suspect && !(level.isSome && decide (level ≠ s.battery1)) }.setBattery1
    level).syncSource env

/-- `_on_battery1_changed` -/
def onBattery1Changed (interface : Str) (changed : Changed) : State :=
  if interface = battery1Iface then
    match changed with
    | .mapping (some value) _ =>
      ((s.note .batterySignalled).noteDiscoveryChange env.devicePath).levelChanged env
        (parseBattery1Percentage value)
    | .mapping none true =>
      ((s.note .batterySignalled).noteDiscoveryChange env.devicePath).setBattery1 none
    | _ => s
  else s

/-- What a signal says of the characteristic is newer than the snapshot. -/
def noteChar (s : State) : State :=
  match s.charPath with
  | some path => (s.note (.charSignalled path)).noteDiscoveryChange path
  | none => s

/-- A notification counts, whatever its value. -/
def notified (s : State) (value : Option Int) : State :=
  ({ s with valueRevision := s.valueRevision + 1 }.note (.notified value)).noteChar.setGatt value

/-- `_on_char_changed` -/
def onCharChanged (s : State) (interface : Str) (changed : Changed) : State :=
  if s.linkConnected = some false ∨ s.deferring = true then s
  else if interface = gattCharIface then
    match changed with
    | .mapping (some value) _ => s.notified (parseBatteryLevel value)
    | .mapping none true => s.notified none
    | _ => s
  else s

/-! ## Discovery -/

/-- Signals are newer than the snapshot. -/
def onManagedObject (env : Env) (changed : List Str) (s : State) (path : Str)
    (interfaces : Interfaces) : State :=
  match interfaces with
  | .mapping battery char =>
    if path ∉ changed then s.addObject env path battery char
    else
      match battery with
      | some (.mapping source _) =>
        if path = env.devicePath ∧ s.battery1.isSome = true ∧ s.battery1SourceKnown = false then
          { s with battery1Plugin := isPlugin source }.syncSource env
        else s
      | _ => s
  | .other => s

/-- The device comes first of all objects. -/
def onManagedDevice (env : Env) (changed : List Str) (objects : Objects) (s : State) : State :=
  match objects.get? env.devicePath with
  | some interfaces => s.onManagedObject env changed env.devicePath interfaces
  | none => s

/-- `_on_managed` -/
def onManaged (objects : Objects) : State :=
  let changed := s.discoveryChanges.getD []
  (objects.items.filter (fun e => decide (e.1 ≠ env.devicePath))).foldl
    (fun s e => s.onManagedObject env changed e.1 e.2)
    ({ s with discoveryChanges := none }.onManagedDevice env changed objects)

/-! ## Lifecycle -/

/-- `_halt` -/
def halt : State :=
  let s := { s with
    running := false
    generation := s.generation + 1
    discoveryChanges := none }.forgetCharacteristic env true
  { s with battery1Plugin := false, battery1Suspect := false, deferring := false }.setBattery1 none

/-- What `start` sets. -/
def begun (s : State) : State :=
  { s with
    running := true
    generation := s.generation + 1
    discoveryChanges := some []
    battery1SourceKnown := false }.note .discovery

/-- `start`; its watches are one use of the bus. -/
def start : State :=
  let s := { s with wanted := true }
  if s.running then s
  else
    match env.raises s.ops with
    | some _ => s.begun.used.halt env
    | none => s.begun.used.call env .managed

/-- `stop` -/
def stop : State := { s with wanted := false }.halt env

/-- `bluez_owner_changed` -/
def bluezOwnerChanged (present : Bool) : State :=
  let s := { s with notifying := false }.halt env
  if present = true ∧ s.wanted = true then s.start env else s

/-- `_reset_link` -/
def resetLink (s : State) : State :=
  { s.note .linkChanged with linkGeneration := s.linkGeneration + 1, notifying := false }.setGatt
    none

/-- `link_up` -/
def linkUp : State :=
  let s := { s with linkConnected := some true }.resetLink
  match s.charPath with
  | some path => if s.running = true ∧ s.deferring = false then s.subscribe env path else s
  | none => s

/-- `link_down` -/
def linkDown : State :=
  let s := { s with linkConnected := some false }.resetLink
  if s.battery1Plugin then { s with battery1Suspect := true }.syncSource env else s

/-! ## Answers -/

/-- `current` of `_call` -/
def isCurrent (s : State) (call : Call) : Bool :=
  s.running && decide (call.generation = s.generation) &&
    (!call.kind.characteristic ||
      (decide (call.charGeneration = s.charGeneration) &&
        decide (call.linkGeneration = s.linkGeneration)))

/-- `read` of `_subscribe` -/
def readReplied (s : State) (n revision : Nat) (level : Option Int) : State :=
  let s := { s with succeeded := if level.isSome then n :: s.succeeded else s.succeeded }
  if revision = s.valueRevision then (s.setGatt level).note (.readSet n level) else s

/-- What the reply of a current call does. -/
def onReply (kind : Kind) (answer : Answer) : State :=
  match kind, answer with
  | .managed, .objects objects => s.onManaged env objects
  | .managed, _ => { s with discoveryChanges := none }
  | .read _ n revision, answer => s.readReplied n revision answer.level
  | .startNotify _ _ _, _ => { s with notifying := true }
  | .stopNotify _, _ => s

/-- `started_late`, for the same characteristic of the same run -/
def startedLate (call : Call) (error : Option Str) : State :=
  match call.kind with
  | .startNotify path _ _ =>
    if s.running = true ∧ call.generation = s.generation ∧
        call.charGeneration = s.charGeneration ∧ (error = none ∨ error = some inProgress) ∧
          s.deferring = true then
      s.stopNotify env path
    else s
  | _ => s

/-- `replied` and `failed` of `_call` -/
def answered (call : Call) (answer : Answer) : State :=
  match answer with
  | .error name =>
    if s.isCurrent call then s.onError call.kind name else s.startedLate env call (some name)
  | answer =>
    if s.isCurrent call then s.onReply env call.kind answer else s.startedLate env call none

end

end State

/-! ## Steps -/

inductive Input where
  | start
  | stop
  | linkUp
  | linkDown
  | bluezOwnerChanged (present : Bool)
  /-- signals, to the handlers of this generation -/
  | added (generation : Nat) (path : Str) (interfaces : Interfaces)
  | removed (generation : Nat) (path : Str) (names : List Str)
  | battery1Changed (generation : Nat) (interface : Str) (changed : Changed)
  | charChanged (handler : Nat × Nat) (interface : Str) (changed : Changed)
  | answers (id : Nat) (answer : Answer)

def step (env : Env) (s : State) : Input → State
  | .start => s.start env
  | .stop => s.stop env
  | .linkUp => s.linkUp env
  | .linkDown => s.linkDown env
  | .bluezOwnerChanged present => s.bluezOwnerChanged env present
  | .added generation path interfaces =>
    if s.running = true ∧ generation = s.generation then s.onAdded env path interfaces else s
  | .removed generation path names =>
    if s.running = true ∧ generation = s.generation then s.onRemoved env path names else s
  | .battery1Changed generation interface changed =>
    if s.running = true ∧ generation = s.generation then s.onBattery1Changed env interface changed
    else s
  | .charChanged handler interface changed =>
    if handler ∈ s.handlers ∧ s.running = true ∧ handler = (s.generation, s.charGeneration) then
      s.onCharChanged interface changed
    else s
  | .answers id answer =>
    match s.calls.get id with
    | some call => { s with calls := s.calls.take id }.answered env call answer
    | none => s

end BlueFerry.PhoneBattery
