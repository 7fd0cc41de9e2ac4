import BlueFerry.Lib.Machine
import BlueFerry.Text.CaseMapping
import BlueFerry.Tether.State

/-! # Tethering through BlueZ

`BluezTether` (`tether_backends.py`). An attempt is one call of `Connect`, and one more that reads the
interface of a link that is up already; a stop is one call of `Disconnect`. An answer for a generation
that is not the last any more does nothing at all.
-/

namespace BlueFerry.BluezTether

open BlueFerry.Text
open BlueFerry.Tether (TIMEOUT GENERIC_ERROR)

/-- An error name of the bus. -/
def busName (name : String) : Str := "org.freedesktop.DBus.Error.".toList ++ name.toList

/-- An error name of BlueZ. -/
def bluezName (name : String) : Str := "org.bluez.Error.".toList ++ name.toList

/-- `bluez_error_token`, of the name and the message of an error -/
def bluezErrorToken (name message : Str) : Str :=
  if name = bluezName "Failed" then
    let detail := casefold (message.take 512)
    if "host is down".toList <:+: detail ∨ "(112)".toList <:+: detail ∨
        "page timeout".toList <:+: detail then "phone-unreachable".toList
    else if "timed out".toList <:+: detail ∨ "(110)".toList <:+: detail then TIMEOUT
    else "hotspot-refused".toList
  else if name ∈ [bluezName "NotSupported", busName "UnknownMethod", busName "UnknownInterface"] then
    "not-supported".toList
  else if name = bluezName "InProgress" then "in-progress".toList
  else if name ∈ [busName "NoReply", busName "Timeout", busName "TimedOut"] then TIMEOUT
  else if name ∈ [busName "ServiceUnknown", busName "NameHasNoOwner", busName "Disconnected",
      busName "UnknownObject", bluezName "NotReady"] then "bluetooth-unavailable".toList
  else if name = bluezName "NotAvailable" then "not-supported".toList
  else GENERIC_ERROR

/-- A call that is not answered yet. -/
inductive Call where
  /-- `Network1.Connect` -/
  | connect (generation : Nat)
  /-- the property `Interface` -/
  | interface (generation : Nat)
  /-- `Network1.Disconnect` -/
  | disconnect (generation : Nat)
  deriving DecidableEq

inductive Reply where
  | ok (value : Str)
  | error (name message : Str)
  deriving DecidableEq

/-- A callback of an attempt or of a stop, named by its generation. -/
inductive Callback where
  | connected (generation : Nat) (interface : Str)
  | error (generation : Nat) (token : Str)
  | done (generation : Nat)
  | stopError (generation : Nat) (token : Str)
  deriving DecidableEq

/-- What happened. -/
inductive Entry where
  | connect (generation : Nat)
  | disconnect (generation : Nat)
  | cancel (generation : Nat)
  | call (call : Call)
  | answer (call : Call) (reply : Reply)
  | callback (callback : Callback)
  deriving DecidableEq

structure Bluez where
  generation : Nat := 0
  pending : List Call := []
  /-- newest first -/
  log : List Entry := []

namespace Bluez

def call (w : Bluez) (c : Call) : Bluez :=
  { w with pending := w.pending ++ [c], log := .call c :: w.log }

def tell (w : Bluez) (c : Callback) : Bluez := { w with log := .callback c :: w.log }

/-- A method is called: what was started before is out of date. -/
def supersede (w : Bluez) (entry : Nat → Entry) : Bluez :=
  { w with generation := w.generation + 1, log := entry (w.generation + 1) :: w.log }

/-- `reply` of an attempt -/
def reply (w : Bluez) (generation : Nat) (interface : Str) : Bluez :=
  if generation = w.generation then w.tell (.connected generation interface) else w

/-- The answer to a call. -/
def answered (w : Bluez) : Call → Reply → Bluez
  | .connect g, .ok interface => w.reply g interface
  | .connect g, .error name message =>
    if g ≠ w.generation then w
    else if name = bluezName "AlreadyConnected" then w.call (.interface g)
    else w.tell (.error g (bluezErrorToken name message))
  | .interface g, .ok interface => w.reply g interface
  | .interface g, .error _ _ => w.reply g []
  | .disconnect g, .ok _ => if g = w.generation then w.tell (.done g) else w
  | .disconnect g, .error name message =>
    if g ≠ w.generation then w
    else if name = bluezName "NotConnected" then w.tell (.done g)
    else w.tell (.stopError g (bluezErrorToken name message))

/-- `connect` -/
def connect (w : Bluez) : Bluez := (w.supersede .connect).call (.connect (w.generation + 1))

/-- `disconnect` -/
def disconnect (w : Bluez) : Bluez := (w.supersede .disconnect).call (.disconnect (w.generation + 1))

/-- `cancel` -/
def cancel (w : Bluez) : Bluez := w.supersede .cancel

end Bluez

/-- What comes from outside: a method is called, or the `n`-th call is answered. -/
inductive Input where
  | connect
  | disconnect
  | cancel
  | answer (n : Nat) (reply : Reply)
  deriving DecidableEq

/-- One step. An answer to no call does not come. -/
def step (w : Bluez) : Input → Bluez
  | .connect => w.connect
  | .disconnect => w.disconnect
  | .cancel => w.cancel
  | .answer n reply =>
    match w.pending[n]? with
    | none => w
    | some c =>
      { w with pending := w.pending.eraseIdx n, log := .answer c reply :: w.log }.answered c reply

end BlueFerry.BluezTether
