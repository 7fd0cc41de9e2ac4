import Mathlib
import BlueFerry.Lib.Dict
import BlueFerry.Lib.Machine
import BlueFerry.Lib.Slots
import BlueFerry.Lib.Trace
import BlueFerry.Text.CaseMapping

/-! # The phone's audio route

`PhoneAudioRoute` (`phone_audio_route.py`): it follows BlueZ's device and its media transports, opens
and closes the phone's stream when it is asked to, and resumes the playback after a hand-back.

A call is answered later, once, by a step of its own, and any use of the bus may raise: `raises` says
which ones, in the order in which they are made. A timer that is scheduled fires once, unless it is
cancelled. What the daemon is asked about (whether it is busy, what is played, whether a playback is
ready to be resumed) changes between the steps. The delay of the stream, the snapshot with its
callback and the log lines are left out.

`log` is kept for the statements: which route changes were accepted and answered, what was resumed,
and what has happened meanwhile.
-/

namespace BlueFerry.PhoneAudio

open BlueFerry.Text

/-! ## Data -/

inductive Route where
  | pc
  | phone
  deriving DecidableEq

/-- `ROUTES` -/
def Route.ofStr (route : Str) : Option Route :=
  if route = "pc".toList then some .pc
  else if route = "phone".toList then some .phone
  else none

/-- `phone_audio_playing` -/
inductive Playing where
  | pc
  | phone
  | nothing
  | unknown
  deriving DecidableEq

/-- What Apple Media Service says; a reading that raises is `unknown`. -/
inductive Media where
  | playing
  | paused
  | unknown
  deriving DecidableEq

/-- What `prepare_resume` does when a hand-back is asked for. -/
inductive Prepare where
  | nothing
  | ready
  | raises
  deriving DecidableEq

/-- The properties of a `Device1`, as far as they are there. -/
structure Device where
  connected : Option Bool := none
  uuids : Option (List Str) := none
  deriving DecidableEq

/-- The properties of a `MediaTransport1`. -/
structure Transport where
  device : Str
  uuid : Str
  state : Str
  deriving DecidableEq

/-- The interfaces of an object, as far as they are looked at. -/
structure Interfaces where
  device : Option Device := none
  transport : Option Transport := none
  deriving DecidableEq

/-- The reply of `GetManagedObjects`. -/
abbrev Objects := Dict Str Interfaces

def deviceIface : Str := "org.bluez.Device1".toList
def transportIface : Str := "org.bluez.MediaTransport1".toList
def a2dpSourceUuid : Str := "0000110a-0000-1000-8000-00805f9b34fb".toList
def a2dpSinkUuid : Str := "0000110b-0000-1000-8000-00805f9b34fb".toList
def transportActive : Str := "active".toList

/-- `_ALREADY` -/
def already : List Str :=
  ["org.bluez.Error.AlreadyConnected".toList, "org.bluez.Error.NotConnected".toList]

/-- The device, whether audio on this computer is allowed, and which uses of the bus raise, with the
name of the error. -/
structure Env where
  devicePath : Str
  allowed : Bool
  raises : Nat → Option Str

/-- `_offers_source` -/
def offersSource (device : Device) : Bool :=
  decide (a2dpSourceUuid ∈ (device.uuids.getD []).map casefold)

/-- `_is_phone_sink` -/
def Env.isPhoneSink (env : Env) (transport : Transport) : Bool :=
  decide (transport.device = env.devicePath) && decide (casefold transport.uuid = a2dpSinkUuid)

/-! ## What happens -/

inductive Event where
  /-- `set_route` was accepted, as this operation -/
  | accepted (n : Nat) (route : Route)
  /-- its call was answered, or has raised -/
  | answered (n : Nat)
  | succeeded (n : Nat)
  | failed (n : Nat)
  /-- the playback was resumed after this hand-back -/
  | resumed (n : Nat)
  /-- the phone was seen disconnected -/
  | disconnected
  | deviceRemoved
  | ownerChanged
  | mediaEnded
  | stopped
  deriving DecidableEq

inductive Timer where
  | debounce
  | watchRetry
  | probeRetry (generation : Nat)
  | resume (n generation : Nat)
  | settle (generation : Nat)
  deriving DecidableEq

/-- A call that is not answered. -/
inductive Call where
  | probe (generation : Nat)
  /-- `resume` says whether a playback is to be resumed in the resume generation -/
  | route (n : Nat) (route : Route) (resume : Bool) (resumeGeneration : Nat)
  deriving DecidableEq

inductive Answer where
  | objects (objects : Objects)
  | done
  | error (name : Str)

structure State where
  matched : Bool := false
  connected : Bool := false
  hasSource : Bool := false
  /-- the transports, with their states -/
  transports : Dict Str Str := Dict.empty
  known : Bool := false
  pending : Option Route := none
  pendingFailure : Option Nat := none
  operationGeneration : Nat := 0
  resumeGeneration : Nat := 0
  generation : Nat := 0
  settleId : Option Nat := none
  resumeId : Option Nat := none
  playing : Option Playing := none
  debounceId : Option Nat := none
  watchRetryId : Option Nat := none
  probeRetryId : Option Nat := none
  ownerAvailable : Bool := true
  started : Bool := false
  stopped : Bool := false
  bluezBlocked : Bool := false
  changeBlocked : Bool := false
  media : Media := .unknown
  prepare : Prepare := .nothing
  timers : Slots Timer := Slots.empty
  calls : Slots Call := Slots.empty
  /-- the uses of the bus so far -/
  ops : Nat := 0
  log : List Event := []

namespace State

section

variable (s : State)

def note (event : Event) : State := { s with log := event :: s.log }

/-- The bus is used once more. -/
def used : State := { s with ops := s.ops + 1 }

/-- A call was sent. -/
def send (call : Call) : State := { s with calls := s.calls.put call }

/-! ## Timers -/

/-- `_schedule`; the timer's number is `s.timers.next`. -/
def schedule (timer : Timer) : State := { s with timers := s.timers.put timer }

/-- `_cancel` -/
def cancel (id : Option Nat) : State :=
  match id with
  | some id => { s with timers := s.timers.take id }
  | none => s

/-- `_cancel_debounce` -/
def cancelDebounce : State := { s.cancel s.debounceId with debounceId := none }

/-- `_cancel_resume` -/
def cancelResume : State :=
  { s.cancel s.resumeId with resumeId := none, resumeGeneration := s.resumeGeneration + 1 }

/-- `_cancel_settle` -/
def cancelSettle : State := { s.cancel s.settleId with settleId := none }

/-- `_cancel_probe_retry` -/
def cancelProbeRetry : State := { s.cancel s.probeRetryId with probeRetryId := none }

def cancelWatchRetry : State := { s.cancel s.watchRetryId with watchRetryId := none }

/-! ## Where the sound plays -/

/-- `_current_playing` -/
def currentPlaying : Playing :=
  if s.ownerAvailable = false ∨ s.stopped = true then .unknown
  else if s.transports.items.any (fun e => decide (e.2 = transportActive)) then .pc
  else
    match s.media with
    | .playing => .phone
    | .paused => .nothing
    | .unknown => .unknown

/-- `_update_playing`: all that `_changed` does but its callback. -/
def changed : State :=
  if s.playing = some s.currentPlaying then s.cancelDebounce
  else if s.playing = none ∨ s.currentPlaying = .pc then
    { s.cancelDebounce with playing := some s.currentPlaying }
  else if s.debounceId = none ∧ s.stopped = false then
    { s.schedule .debounce with debounceId := some s.timers.next }
  else s

/-- `_debounced` -/
def debounced : State :=
  let s := { s with debounceId := none }
  if s.stopped then s else { s with playing := some s.currentPlaying }.changed

/-- `media_changed` -/
def mediaChanged : State := if s.stopped then s else s.changed

/-- `media_unavailable` -/
def mediaUnavailable : State := s.cancelResume.note .mediaEnded

/-! ## Probes -/

/-- `_retry_probe_later` -/
def retryProbeLater : State :=
  if s.probeRetryId.isSome then s
  else { s.schedule (.probeRetry s.generation) with probeRetryId := some s.timers.next }

/-- `failed` of `probe`, for the latest one -/
def probeFailed : State := { s with known := false }.changed.retryProbeLater

section

variable (env : Env)

/-- A probe is sent, if that does not raise. -/
def sendProbe (s : State) : State :=
  match env.raises s.ops with
  | none => s.used.send (.probe s.generation)
  | some _ => s.used.probeFailed

/-- `probe` -/
def probe (s : State) : State :=
  if s.stopped = true ∨ env.allowed = false ∨ s.ownerAvailable = false then s
  else if s.bluezBlocked then s.retryProbeLater
  else { s.cancelProbeRetry with generation := s.generation + 1 }.sendProbe env

/-- The watches could not be made. -/
def watchFailed : State :=
  let s := { s with matched := false, known := false }.changed
  if s.watchRetryId = none then
    { s.schedule .watchRetry with watchRetryId := some s.timers.next }
  else s

/-- `start`; its watches are one use of the bus. -/
def start (s : State) : State :=
  let s := { s with started := true }
  if s.matched then s
  else
    let s := { s with stopped := false }
    if env.allowed = false then s.mediaChanged
    else
      match env.raises s.ops with
      | some _ => s.used.watchFailed
      | none => { s.used with matched := true }.probe env

/-! ## The end of everything that is under way -/

/-- What `_invalidate` forgets of the device. -/
def forget : State :=
  { s with
    generation := s.generation + 1
    operationGeneration := s.operationGeneration + 1
    known := false
    connected := false
    hasSource := false
    transports := Dict.empty
    playing := some .unknown }

def cancelAll : State :=
  s.cancelDebounce.cancelResume.cancelProbeRetry.cancelWatchRetry.cancelSettle

/-- The pending route change is over, with this result. -/
def concluded (result : Event) : State :=
  { s with pending := none, pendingFailure := none }.note result

/-- The pending route change fails. -/
def failPending : State :=
  match s.pendingFailure with
  | some n => s.concluded (.failed n)
  | none => { s with pending := none }

/-- `_invalidate`, for this reason -/
def invalidate (why : Event) : State := s.failPending.forget.cancelAll.note why

/-- `bluez_owner_changed` -/
def bluezOwnerChanged (s : State) (available : Bool) : State :=
  let s := ({ s with ownerAvailable := available }.invalidate .ownerChanged).changed
  if available = true ∧ s.started = true ∧ s.stopped = false then
    if s.matched then s.probe env else s.start env
  else s

/-- `stop` -/
def stop : State :=
  { { s with stopped := true }.invalidate .stopped with matched := false }

/-! ## Observation -/

/-- The phone is not connected: no playback is resumed. -/
def dropConnection : State := s.cancelResume.note .disconnected

/-- The transports of the tree that are the phone's. -/
def sinks (objects : Objects) : Dict Str Str :=
  objects.filterMap (fun interfaces =>
    (interfaces.transport.filter env.isPhoneSink).map Transport.state)

/-- `_apply_tree` -/
def applyTree (s : State) (objects : Objects) : State :=
  let device := ((objects.get? env.devicePath).bind Interfaces.device).getD {}
  let connected := device.connected.getD false
  let s := { s with
    known := true
    connected
    hasSource := offersSource device
    transports := if connected then sinks env objects else Dict.empty }
  if connected then s else s.dropConnection

/-- `_apply_device` -/
def applyDevice (device : Device) : State :=
  let s := { s with
    connected := device.connected.getD s.connected
    hasSource := if device.uuids.isSome then offersSource device else s.hasSource }
  if s.connected then s else { s with transports := Dict.empty }.dropConnection

/-- `_interfaces_added` -/
def interfacesAdded (s : State) (path : Str) (interfaces : Interfaces) : State :=
  if s.stopped = true ∨ s.ownerAvailable = false then s
  else
    match interfaces.device, decide (path = env.devicePath) with
    | some device, true =>
      ({ s with known := true, connected := false, hasSource := false }.applyDevice device).changed
    | _, _ =>
      match interfaces.transport with
      | some transport =>
        if env.isPhoneSink transport then
          { s with transports := s.transports.set path transport.state }.changed
        else s
      | none => s

/-- `_interfaces_removed` -/
def interfacesRemoved (s : State) (path : Str) (names : List Str) : State :=
  if s.stopped = true ∨ s.ownerAvailable = false then s
  else if path = env.devicePath ∧ deviceIface ∈ names then
    { s.invalidate .deviceRemoved with known := true }.changed
  else if transportIface ∈ names ∧ path ∈ s.transports.keys then
    { s with transports := s.transports.erase path }.changed
  else s

/-- `_transport_changed`; a `Delay` that is changed or gone counts as well. -/
def transportChanged (path interface : Str) (state : Option Str) (delay : Bool) : State :=
  if interface ≠ transportIface ∨ (state = none ∧ delay = false) ∨ path ∉ s.transports.keys then s
  else
    match state with
    | some state => { s with transports := s.transports.set path state }.changed
    | none => s.changed

/-- `_properties_changed` -/
def propertiesChanged (interface : Str) (device : Device) : State :=
  if s.stopped = true ∨ s.ownerAvailable = false ∨ interface ≠ deviceIface ∨
      (device.connected = none ∧ device.uuids = none) then s
  else ({ s with known := true }.applyDevice device).changed

/-! ## Control -/

/-- `_route` is not `unavailable`. -/
def available (s : State) : Bool :=
  env.allowed && s.known && s.connected && s.hasSource

/-- `_settle` -/
def settle (s : State) : State :=
  let s := s.cancelSettle
  { s.schedule (.settle s.operationGeneration) with settleId := some s.timers.next }

/-- `_schedule_resume` -/
def scheduleResume (n : Nat) : State :=
  { s.schedule (.resume n s.resumeGeneration) with resumeId := some s.timers.next }

/-- `done` of `set_route` is for the pending operation only. -/
def isPending (n : Nat) : Bool :=
  decide (n = s.operationGeneration) && s.pending.isSome

/-- What `done` does for the pending operation, with its result. -/
def done (result : Event) : State := (s.concluded result).changed.settle

/-- The playback is to be resumed, and nothing has happened since. -/
def resumeIfCurrent (n : Nat) (resume : Bool) (resumeGeneration : Nat) : State :=
  if resume = true ∧ resumeGeneration = s.resumeGeneration then s.scheduleResume n else s

/-- `reply` of `set_route` -/
def routeReplied (n : Nat) (resume : Bool) (resumeGeneration : Nat) : State :=
  if s.isPending n then (s.done (.succeeded n)).resumeIfCurrent n resume resumeGeneration else s

/-- `failed` of `set_route` -/
def routeFailed (n : Nat) (resume : Bool) (resumeGeneration : Nat) (name : Str) : State :=
  if name ∈ already then s.routeReplied n resume resumeGeneration
  else if s.isPending n then s.done (.failed n)
  else s

/-- The call of an accepted operation is sent, if that does not raise. -/
def sendRoute (s : State) (route : Route) (resume : Bool) : State :=
  let n := s.operationGeneration
  match env.raises s.ops with
  | none => s.used.send (.route n route resume s.resumeGeneration)
  | some name => (s.used.routeFailed n resume s.resumeGeneration name).note (.answered n)

/-- An operation is accepted. -/
def accept (route : Route) : State :=
  ({ s with
    pending := some route
    pendingFailure := some s.operationGeneration }.note
      (.accepted s.operationGeneration route)).changed

/-- What `set_route` ends before it looks for a playback. -/
def beginOperation : State :=
  { s.cancelResume.cancelSettle with operationGeneration := s.operationGeneration + 1 }

/-- `set_route`; one that raises is not accepted. -/
def setRoute (s : State) (route : Str) : State :=
  match Route.ofStr route with
  | none => s
  | some route =>
    if s.stopped = true ∨ s.bluezBlocked = true ∨ s.changeBlocked = true ∨
        s.available env = false ∨ s.pending.isSome = true then s
    else
      match route, s.prepare with
      | .phone, .raises => s.beginOperation
      | .phone, .ready => (s.beginOperation.accept .phone).sendRoute env .phone true
      | route, _ => (s.beginOperation.accept route).sendRoute env route false

end

/-! ## Timers that fire -/

/-- `still_current` of `_schedule_resume` -/
def stillCurrent (generation : Nat) : Bool :=
  decide (generation = s.resumeGeneration) && !s.stopped && s.ownerAvailable && s.connected &&
    !s.bluezBlocked && !s.changeBlocked

end

def fired (env : Env) (s : State) (timer : Timer) : State :=
  match timer with
  | .debounce => s.debounced
  | .watchRetry =>
    let s := { s with watchRetryId := none }
    if s.stopped then s else s.start env
  | .probeRetry generation =>
    if generation = s.generation then { s with probeRetryId := none }.probe env else s
  | .resume n generation =>
    if generation = s.resumeGeneration then
      let s := { s with resumeId := none }
      if s.stillCurrent generation then s.note (.resumed n) else s
    else s
  | .settle generation =>
    if generation = s.operationGeneration then { s with settleId := none }.probe env else s

/-- An answer to a call. -/
def answered (env : Env) (s : State) (call : Call) (answer : Answer) : State :=
  match call, answer with
  | .probe generation, .objects objects =>
    if generation = s.generation then (s.applyTree env objects).changed else s
  | .probe generation, .error _ => if generation = s.generation then s.probeFailed else s
  | .route n _ resume resumeGeneration, .done =>
    (s.routeReplied n resume resumeGeneration).note (.answered n)
  | .route n _ resume resumeGeneration, .error name =>
    (s.routeFailed n resume resumeGeneration name).note (.answered n)
  | _, _ => s

/-- GDBus checks the type of a reply. -/
def fits : Call → Answer → Bool
  | _, .error _ => true
  | .probe _, .objects _ => true
  | .route .., .done => true
  | _, _ => false

end State

/-! ## Steps -/

inductive Input where
  | start
  | stop
  | probe
  | setRoute (route : Str)
  | bluezOwnerChanged (available : Bool)
  | mediaChanged
  | mediaUnavailable
  | interfacesAdded (path : Str) (interfaces : Interfaces)
  | interfacesRemoved (path : Str) (names : List Str)
  | transportChanged (path interface : Str) (state : Option Str) (delay : Bool)
  | propertiesChanged (interface : Str) (device : Device)
  | answers (id : Nat) (answer : Answer)
  | fires (id : Nat)
  /-- what the daemon answers from now on -/
  | world (bluezBlocked changeBlocked : Bool) (media : Media) (prepare : Prepare)

def step (env : Env) (s : State) : Input → State
  | .start => s.start env
  | .stop => s.stop
  | .probe => s.probe env
  | .setRoute route => s.setRoute env route
  | .bluezOwnerChanged available => s.bluezOwnerChanged env available
  | .mediaChanged => s.mediaChanged
  | .mediaUnavailable => s.mediaUnavailable
  | .interfacesAdded path interfaces => s.interfacesAdded env path interfaces
  | .interfacesRemoved path names => s.interfacesRemoved env path names
  | .transportChanged path interface state delay => s.transportChanged path interface state delay
  | .propertiesChanged interface device => s.propertiesChanged interface device
  | .answers id answer =>
    match s.calls.get id with
    | some call =>
      if State.fits call answer then
        { s with calls := s.calls.take id }.answered env call answer
      else s
    | none => s
  | .fires id =>
    match s.timers.get id with
    | some timer => { s with timers := s.timers.take id }.fired env timer
    | none => s
  | .world bluezBlocked changeBlocked media prepare =>
    { s with bluezBlocked, changeBlocked, media, prepare }

end BlueFerry.PhoneAudio
