import BlueFerry.Lib.Slots
import BlueFerry.Text.Basic

/-! # The state of the tether controller

`tether.py`: the fields of `TetherController` and of its `NetworkLinkWatch`, and what lies around
them: the timers that are armed, and the calls that are not answered yet.

What a call of a backend or of BlueZ comes to at once is chosen by the step (`Reading`). A generation
makes at most one such call, so the answers are functions of the generation.
-/

namespace BlueFerry.Tether

open BlueFerry.Text

/-- The states of a tether. -/
inductive TetherState where
  | off
  | connecting
  | connected
  | disconnecting
  | failed
  deriving DecidableEq

/-- The backends. -/
inductive BackendName where
  | networkmanager
  | bluez
  deriving DecidableEq

/-! ## Error tokens -/

def TIMEOUT : Str := "timeout".toList
def LINK_LOST : Str := "link-lost".toList
def GENERIC_ERROR : Str := "failed".toList

/-- `ERROR_TOKENS`. -/
def errorTokens : List Str :=
  ["hotspot-refused".toList, "not-supported".toList, "phone-unreachable".toList,
    "in-progress".toList, TIMEOUT, "bluetooth-unavailable".toList, "permission-denied".toList,
    "no-network-device".toList, "ip-config-failed".toList, "activation-failed".toList,
    "networkmanager-unavailable".toList, LINK_LOST, GENERIC_ERROR]

/-- A token that a client knows. -/
def publicToken (token fallback : Str) : Str := if token ∈ errorTokens then token else fallback

/-- `_LINK_ABSENT_NAMES`: the errors of a read that prove that there is no link. -/
def linkAbsentNames : List Str :=
  ["org.freedesktop.DBus.Error.InvalidArgs".toList,
    "org.freedesktop.DBus.Error.UnknownMethod".toList,
    "org.freedesktop.DBus.Error.UnknownInterface".toList,
    "org.freedesktop.DBus.Error.ServiceUnknown".toList,
    "org.freedesktop.DBus.Error.NameHasNoOwner".toList,
    "org.freedesktop.DBus.Error.UnknownObject".toList]

/-! ## What is remembered -/

/-- The fields of `TetherController`, but for its timers. -/
structure TetherController where
  enabled : Bool
  autoconnect : Bool
  state : TetherState := .off
  error : Str := []
  interface : Str := []
  ifindex : Option ℤ := none
  backend : Option BackendName := none
  external : Bool := false
  generation : Nat := 0
  autoFailures : Nat := 0
  connectedAt : Option ℚ := none
  awaitingLinkDown : Bool := false
  linkDownGraceSpent : Bool := false
  autoSuppressed : Bool
  initialProbePending : Bool := true
  running : Bool := false
  watching : Bool := false

/-- The fields of `NetworkLinkWatch`, but for its timer. -/
structure NetworkLinkWatch where
  subscribed : Bool := false
  generation : Nat := 0
  retryFailures : Nat := 0

/-- `_deadline_id`, `_retry_id` and `_confirm_id`, and the watch's `_retry_id`. -/
inductive TimerKind where
  | deadline
  | retry
  | confirm
  | probe
  deriving DecidableEq

/-- The callback of a timer. -/
inductive Timer where
  | deadline (generation : Nat)
  | retry
  | confirm
  | probe (generation : Nat)
  deriving DecidableEq

def Timer.kind : Timer → TimerKind
  | .deadline _ => .deadline
  | .retry => .retry
  | .confirm => .confirm
  | .probe _ => .probe

/-- A timer, and the seconds it was armed with. -/
structure Armed where
  delay : Nat
  timer : Timer
  deriving DecidableEq

/-- A call that is not answered yet, with what its callbacks carry: the choice of a backend for an
attempt or for a stop, a stop, and a read of the link. An attempt that was handed to a backend goes
on calling back. -/
inductive Request where
  | chooseConnect (generation : Nat)
  | attempt (generation : Nat)
  | chooseStop (generation : Nat) (external : Bool)
  | stop (generation : Nat) (external : Bool)
  | getAll (generation : Nat)
  deriving DecidableEq

/-- What happened. -/
inductive Event where
  /-- the user asks for a tether, or turns automatic tethering on -/
  | connectRequested
  | switchedOn
  /-- the user ends the tether, here or elsewhere -/
  | stopRequested
  | turnedOffOutside
  /-- an attempt begins -/
  | began (automatic enabled autoconnect : Bool)
  /-- an attempt is handed to a backend -/
  | handed (enabled : Bool)
  /-- a link is taken to be another tool's -/
  | adopted (enabled : Bool)
  deriving DecidableEq

/-- `timerIds` are the timers that the program knows of, `timers` those that are armed. -/
structure World where
  tether : TetherController
  watch : NetworkLinkWatch
  timerIds : TimerKind → Option Nat
  timers : Slots Armed
  requests : Slots Request
  published : Nat
  log : List Event

/-- A controller as it is made. -/
def World.start (enabled autoconnect autoSuppressed : Bool) : World where
  tether :=
    { enabled := enabled, autoconnect := autoconnect, autoSuppressed := autoSuppressed }
  watch := {}
  timerIds := fun _ => none
  timers := .empty
  requests := .empty
  published := 0
  log := []

/-! ## What a step reads -/

/-- The network interfaces: the index of a name, whether a name exists, the name of the one
Bluetooth interface of an index; and `str.isprintable`. -/
structure Net where
  index : Str → Option ℤ
  present : Str → Bool
  findBluetooth : Option ℤ → Str
  printable : Str → Bool

/-- `_safe_interface`. -/
def Net.safeInterface (net : Net) (text : Str) : Str :=
  if 15 < text.length ∨ ¬ net.printable text ∨ '/' ∈ text then [] else text

/-- What the choice of a backend comes to at once. -/
inductive Choice where
  | later
  | now (backend : BackendName)
  | failed (token : Str)
  deriving DecidableEq

/-- The clock, the interfaces, `classic_ready` and `autoconnect_ready`; by the generation, what the
choice of a backend comes to and whether the backend's call raises; and, by the generation of the
watch, the error that its read raises. -/
structure Reading where
  now : ℚ
  net : Net
  classicReady : Bool
  autoconnectReady : Bool
  choice : Nat → Choice
  raises : Nat → Bool
  getAll : Nat → Option Str

/-! ## Small steps -/

/-- The controller's fields after the change; everything around it stays. -/
def World.set (w : World) (f : TetherController → TetherController) : World :=
  { w with tether := f w.tether }

def World.record (w : World) (event : Event) : World := { w with log := event :: w.log }

/-- `_publish`. -/
def World.publish (w : World) : World := { w with published := w.published + 1 }

/-- A call that will be answered. -/
def World.ask (w : World) (request : Request) : World :=
  { w with requests := w.requests.put request }

/-- `_cancel_source`, and the timer is forgotten. -/
def World.cancel (w : World) (kind : TimerKind) : World :=
  { w with
    timers :=
      match w.timerIds kind with
      | none => w.timers
      | some n => w.timers.take n
    timerIds := Function.update w.timerIds kind none }

def World.cancelDeadline (w : World) : World := w.cancel .deadline
def World.cancelRetry (w : World) : World := w.cancel .retry
def World.cancelConfirm (w : World) : World := w.cancel .confirm

/-- A timer, whose id is the next number of `timers`. -/
def World.schedule (w : World) (delay : Nat) (timer : Timer) : World :=
  { w with
    timers := w.timers.put ⟨delay, timer⟩
    timerIds := Function.update w.timerIds timer.kind (some w.timers.next) }

/-- The timer that has fired is forgotten. -/
def World.forget (w : World) (kind : TimerKind) : World :=
  { w with timerIds := Function.update w.timerIds kind none }

/-- `_set`. -/
def World.setState (w : World) (net : Net) (state : TetherState) (error : Option Str)
    (interface : Option Str) : World :=
  let renamed := interface.any (· ≠ w.tether.interface)
  let changed := decide (state ≠ w.tether.state) || error.any (· ≠ w.tether.error) || renamed
  { w with
    tether :=
      { w.tether with
        state := state
        connectedAt :=
          if state ∈ [.connected, .disconnecting] then w.tether.connectedAt else none
        error := error.getD w.tether.error
        interface := interface.getD w.tether.interface
        ifindex :=
          if renamed then net.index (interface.getD w.tether.interface) else w.tether.ifindex }
    published := if changed then w.published + 1 else w.published }

/-- `_suppress_auto`. -/
def World.suppressAuto (w : World) (suppressed : Bool) : World :=
  w.set fun t => { t with autoSuppressed := suppressed }

/-- A new generation, in which the callbacks of the ones before are stale. -/
def World.supersede (w : World) : World := w.set fun t => { t with generation := t.generation + 1 }

end BlueFerry.Tether
