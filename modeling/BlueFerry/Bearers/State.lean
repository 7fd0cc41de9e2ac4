import BlueFerry.Bearers.Budget
import BlueFerry.Bearers.Flaps
import BlueFerry.Lib.Slots
import BlueFerry.Text.CaseMapping

/-! # The state of the bearer supervisor

`bearer_supervisor.py`: the fields of `BearerSupervisor`, and what lies around it.

A handler calls out of the supervisor many times: it reads a bearer, asks BlueZ to connect, tells
the rest of the daemon. Every such call takes some time and takes the next of `World.answers`, which
the step chooses. `deeds` is what the supervisor has asked of BlueZ and what its budget recorded,
and `story` is what it has observed and told, both newest first.
-/

namespace BlueFerry.Bearers

open BlueFerry.Text

/-- A bearer. -/
inductive Kind where
  | bredr
  | le
  deriving DecidableEq

instance : Fintype Kind := ⟨{.bredr, .le}, fun kind => by cases kind <;> decide⟩

/-- What a call of BlueZ raised, by its D-Bus name and message, or by its type and text. -/
structure Failure where
  name : Str
  message : Str
  deriving DecidableEq

/-- `_connect_error_parts`. -/
def Failure.parts (e : Failure) : Failure := ⟨e.name.take 256, e.message.take 256⟩

/-- BlueZ still owns an attempt to connect. -/
def Failure.inProgress (e : Failure) : Bool :=
  decide (e.parts.name = "org.bluez.Error.InProgress".toList) ||
    (decide (e.parts.name = "org.bluez.Error.Failed".toList) &&
      decide (casefold (strip e.parts.message) = "operation already in progress".toList))

def Failure.alreadyConnected (e : Failure) : Bool :=
  decide (e.parts.name = "org.bluez.Error.AlreadyConnected".toList)

/-- There was nothing to disconnect. -/
def Failure.notConnected (e : Failure) : Bool :=
  decide (e.parts.name = "org.bluez.Error.NotConnected".toList) ||
    decide (e.parts.name = "org.bluez.Error.AlreadyDisconnected".toList) ||
      decide ("not connected".toList <:+: casefold e.parts.message)

/-- The phases of a profile reset. -/
inductive Phase where
  | disconnecting
  | settling
  deriving DecidableEq

/-- `state` of `reconnect_snapshot()`. -/
inductive ReconnectState where
  | connecting
  | connected
  | unreachable
  | waiting
  deriving DecidableEq

/-- The fields of `BearerSupervisor`; a field that holds something for each bearer is a function of
the bearer. -/
structure BearerSupervisor where
  leEnabled : Bool := true
  leApiAvailable : Option Bool := none
  legacyObservation : Option (Bool × Bool) := none
  timerId : Option Nat := none
  leSettleId : Option Nat := none
  running : Bool := false
  generation : Nat := 0
  connecting : Finset Kind := ∅
  connectRequestSerial : Nat := 0
  connectRequestIds : Kind → Option Nat := fun _ => none
  connectTargeted : Kind → Option Bool := fun _ => none
  connectObservationDeadlines : Kind → Option ℚ := fun _ => none
  disconnecting : Finset Kind := ∅
  leTargetingHint : Bool := false
  leDialActive : Bool := false
  lePreferenceRestorePending : Bool := false
  leDialSpent : Bool := false
  leResetPending : Bool := false
  leResetWanted : Option Bool := none
  leResetStartedAt : Option ℚ := none
  leResetDownSeen : Bool := false
  leResetFailures : Nat := 0
  nextLeResetAttempt : ℚ := 0
  lastErrors : Kind → Option Failure := fun _ => none
  states : Kind → Option Bool := fun _ => none
  statusDirty : Bool := false
  failures : Kind → Nat := fun _ => 0
  nextAttempt : Kind → ℚ := fun _ => 0
  connectedSince : Kind → Option ℚ := fun _ => none
  leDwellShouldForgiveClassic : Bool := false
  flaps : LeFlaps := {}
  bredrResting : Bool := false
  bredrLastFailed : Bool := false
  bredrRemoteClosed : Bool := false
  presenceSeenAt : Option ℚ := none
  manualDialId : Option Nat := none
  profileResetPhase : Option Phase := none
  profileResetId : Option Nat := none
  publishedReconnect : Option (ReconnectState × Bool) := none

/-- What a Disconnect is of: the LE bearer, or the whole device. -/
inductive Target where
  | le
  | device
  deriving DecidableEq

/-- A call of BlueZ that is not answered yet, with what its callbacks carry. -/
inductive Request where
  | connect (kind : Kind) (generation id : Nat)
  | disconnect (target : Target) (generation : Nat)
  deriving DecidableEq

/-- The callback of a timer. -/
inductive Timer where
  | tick
  | connectLeAfterSettle
  | manualDial
  | profileResetReconnect
  deriving DecidableEq

/-- A timer, and the seconds it was armed with. -/
structure Armed where
  delay : Nat
  timer : Timer
  deriving DecidableEq

/-- What stands when a Connect is issued: BlueZ blocked, a profile call or a profile reset running,
a Disconnect unanswered, and one of the current generation. -/
structure Meanwhile where
  blocked : Bool
  busy : Bool
  resetting : Bool
  unanswered : Bool
  ownUnanswered : Bool
  deriving DecidableEq

/-- What the supervisor has asked of BlueZ, and what its budget recorded. -/
inductive Deed where
  | connect (kind : Kind) (meanwhile : Meanwhile)
  | disconnect (target : Target) (forced : Bool)
  | budget (record : Record)
  deriving DecidableEq

/-- What the supervisor has observed, and what it has told the rest of the daemon. -/
inductive Tale where
  /-- a bearer was observed, after what was known of it before -/
  | observed (kind : Kind) (previous value : Option Bool)
  /-- `on_status`, with the states of the two bearers -/
  | status (bredr le : Option Bool)
  | leState (value : Option Bool)
  | leDial (active : Bool)
  | reconnect
  | bondReport
  deriving DecidableEq

/-- What is true around the supervisor: `bluez_blocked`, `profile_busy`, `inbound_le_primed` and
`le_bond_detection`. -/
structure Env where
  blocked : Bool := false
  busy : Bool := false
  primed : Bool := true
  detection : Bool := true
  deriving DecidableEq

/-- What a read of a bearer meets: the property of the bearer; no such property, so that the device
is asked (its `Connected`, if that can be read, and `ServicesResolved`); or an error. -/
inductive Reply where
  | property (connected : Bool)
  | noProperty (device : Option Bool) (resolved : Bool)
  | failed
  deriving DecidableEq

/-- What comes of a call out of the supervisor: how long it took, what is true around it
afterwards, and, where it matters, what was read and what was raised. -/
structure Answer where
  elapsed : ℚ≥0 := 0
  env : Env := {}
  reply : Reply := .failed
  raised : Option Failure := none
  deriving DecidableEq

structure World where
  supervisor : BearerSupervisor
  budget : LeRecoveryBudget
  env : Env
  now : ℚ
  answers : Nat → Answer
  asked : Nat
  requests : Slots Request
  timers : Slots Armed
  deeds : List Deed
  story : List Tale

/-- A supervisor as it is made. -/
def World.start (leEnabled : Bool) (now : ℚ) : World where
  supervisor := { leEnabled := leEnabled }
  budget := {}
  env := {}
  now := now
  answers := fun _ => {}
  asked := 0
  requests := .empty
  timers := .empty
  deeds := []
  story := []

/-! ## Small steps -/

section

variable (w : World)

/-- The supervisor's fields after the change; everything around it stays. -/
def World.set (f : BearerSupervisor → BearerSupervisor) : World :=
  { w with supervisor := f w.supervisor }

def World.did (deed : Deed) : World := { w with deeds := deed :: w.deeds }

def World.saw (tale : Tale) : World := { w with story := tale :: w.story }

/-- The answer to the next call out of the supervisor. -/
def World.answer : Answer := w.answers w.asked

/-- The time that the call takes. -/
def World.wait : World :=
  { w with now := w.now + w.answer.elapsed, asked := w.asked + 1 }

/-- A callback of the daemon, which may change what is true around. -/
def World.tell (tale : Tale) : World :=
  ({ w.wait with env := w.answer.env } : World).saw tale

/-- `_on_status`. -/
def World.tellStatus : World :=
  w.tell (.status (w.supervisor.states .bredr) (w.supervisor.states .le))

/-- `_on_le_dial`: only the solicitation follows it. -/
def World.tellLeDial (active : Bool) : World :=
  ({ w.wait with env := { w.env with primed := w.answer.env.primed } } : World).saw (.leDial active)

/-- The report of a stale bond after a change of it. -/
def World.setFlaps (change : LeFlaps × Bool) : World :=
  let w := w.set fun s => { s with flaps := change.1 }
  if change.2 then w.tell .bondReport else w

/-- `_connected_property` of Classic. -/
def Reply.bredr : Reply → Option Bool
  | .property connected => some connected
  | .noProperty device _ => device
  | .failed => none

/-- `_connected_property` of LE. -/
def Reply.le : Reply → Option Bool
  | .property connected => some connected
  | .noProperty (some false) _ => some false
  | .noProperty (some true) _ => none
  | .noProperty none _ => none
  | .failed => none

/-- What a read of LE leaves in the supervisor. -/
def BearerSupervisor.readLe (s : BearerSupervisor) : Reply → BearerSupervisor
  | .property _ => { s with leApiAvailable := some true }
  | .noProperty none _ => { s with leApiAvailable := some false }
  | .noProperty (some device) resolved =>
    { s with leApiAvailable := some false, legacyObservation := some (device, resolved) }
  | .failed => s

/-- `_read`, where `on_bluez_error` or `on_bluez_ok` may change what is true around. -/
def World.read (w : World) (kind : Kind) : World × Option Bool :=
  let reply := w.answer.reply
  let read := { w.wait with env := w.answer.env }
  match kind with
  | .bredr => (read, reply.bredr)
  | .le => (read.set fun s => s.readLe reply, reply.le)

/-- `_le_recovery_budget.observe_health`. -/
def World.observeHealth (w : World) (healthy : Bool) (proof : Option ℚ) : World :=
  ({ w with budget := w.budget.observeHealth healthy proof w.now } : World).did
    (.budget (.sample w.now (LeRecoveryBudget.fresh healthy proof w.now)))

/-- `_le_recovery_budget.take`. -/
def World.take (w : World) : World × Bool :=
  let (budget, granted) := w.budget.take w.now
  let w := { w with budget := budget }
  (if granted then w.did (.budget (.granted w.now)) else w, granted)

/-- A timer of the event loop; its id is the next number of `timers`. -/
def World.schedule (delay : Nat) (timer : Timer) : World :=
  { w with timers := w.timers.put ⟨delay, timer⟩ }

def World.cancel (id : Option Nat) : World :=
  match id with
  | none => w
  | some n => { w with timers := w.timers.take n }

/-- `_cancel_le_settle`. -/
def World.cancelLeSettle : World :=
  (w.cancel w.supervisor.leSettleId).set fun s => { s with leSettleId := none }

/-- A call of BlueZ that was not refused at once. -/
def World.await (request : Request) : World :=
  { w with requests := w.requests.put request }

/-- A Disconnect is not answered yet. -/
def World.Unanswered (p : Request → Bool) : Prop :=
  ∃ n < w.requests.next, (w.requests.get n).any p

end

instance (w : World) (p : Request → Bool) : Decidable (w.Unanswered p) :=
  inferInstanceAs (Decidable (∃ n < _, _))

/-- A Disconnect. -/
def Request.isDisconnect : Request → Bool
  | .disconnect _ _ => true
  | .connect _ _ _ => false

/-- A Disconnect of a generation. -/
def Request.isDisconnectOf (generation : Nat) : Request → Bool
  | .disconnect _ g => decide (g = generation)
  | .connect _ _ _ => false

def World.meanwhile (w : World) : Meanwhile where
  blocked := w.env.blocked
  busy := w.env.busy
  resetting := w.supervisor.profileResetPhase.isSome
  unanswered := decide (w.Unanswered Request.isDisconnect)
  ownUnanswered := decide (w.Unanswered (Request.isDisconnectOf w.supervisor.generation))

end BlueFerry.Bearers
