import BlueFerry.Lib.Dict
import BlueFerry.Text.Basic

/-! # The clipboard writer

`ClipboardWriter` (`otp_clipboard.py`) runs at most one helper, which owns the clipboard while it
lives: `owner` is its ticket. A copy through `wl-copy` waits until it is known whether that program
can mark its data as sensitive; what waits for the probe is of any type `α` here.

What a call finds of the session and whether a helper starts is given with the call.
-/

namespace BlueFerry.Otp

open BlueFerry.Text

inductive X11Tool where
  | xclip
  | xsel
deriving DecidableEq

inductive Tool where
  | wlCopy
  | x11 (tool : X11Tool)
deriving DecidableEq

/-- `ClipboardTarget`, as far as it decides anything. -/
structure ClipboardTarget where
  tool : Tool
  executable : Str

/-- The helpers that `find_target` could use now: `wl-copy` for a display that is known, and one for
X11. -/
structure Session where
  wlCopy : Option Str
  x11 : Option (X11Tool × Str)

/-- `find_target`; `excluded` leaves `wl-copy` out. -/
def Session.find (session : Session) (excluded : Bool) : Option ClipboardTarget :=
  match session.wlCopy, excluded with
  | some executable, false => some ⟨.wlCopy, executable⟩
  | _, _ => session.x11.map (fun found => ⟨.x11 found.1, found.2⟩)

/-- A ticket: its return code is there when the helper has exited. -/
structure ClipboardTicket where
  id : Nat
  tool : Tool
  returncode : Option Int

inductive TicketState where
  | running
  | exited
  | failed
  | superseded
deriving DecidableEq

/-- What a call of the writer meets: the session, whether a probe can be queued, and whether a
helper starts. -/
structure Desktop where
  session : Session
  queued : Bool
  started : Bool

structure ClipboardWriter (α : Type) where
  closed : Bool
  ready : List (Str × α)
  sensitive : Dict Str Bool
  probing : List Str
  owner : Option ClipboardTicket
  tickets : Nat

namespace ClipboardWriter

variable {α : Type}

/-- `_probe_failed` -/
def probeFailed (w : ClipboardWriter α) (executable : Str) : ClipboardWriter α :=
  { w with
    probing := w.probing.filter (· ≠ executable)
    ready := w.ready.filter (fun e => e.1 ≠ executable) }

/-- `_probe` -/
def probe (w : ClipboardWriter α) (executable : Str) (queued : Bool) : ClipboardWriter α :=
  if executable ∈ w.sensitive.keys ∨ executable ∈ w.probing then w
  else if queued then { w with probing := w.probing ++ [executable] }
  else w.probeFailed executable

/-- `start_probe` of a new writer. -/
def start (desktop : Desktop) : ClipboardWriter α :=
  let w : ClipboardWriter α := ⟨false, [], .empty, [], none, 0⟩
  match desktop.session.find false with
  | some target => if target.tool = .wlCopy then w.probe target.executable desktop.queued else w
  | none => w

section

variable (w : ClipboardWriter α)

/-- `prepare`: the writer after it, and whether `ready` runs at once. -/
def prepare (job : α) (desktop : Desktop) : ClipboardWriter α × Bool :=
  if w.closed then (w, false)
  else
    match desktop.session.find false with
    | none => (w, true)
    | some target =>
      if target.tool ≠ .wlCopy ∨ target.executable ∈ w.sensitive.keys then (w, true)
      else
        ({ w with ready := w.ready ++ [(target.executable, job)] }.probe target.executable
          desktop.queued, false)

/-- `_probed`, or `_probe_failed` without a result: what may go on now, in order. -/
def probed (executable : Str) :
    Option Bool → ClipboardWriter α × List α
  | none => (w.probeFailed executable, [])
  | some sensitive =>
    let w := { w with probing := w.probing.filter (· ≠ executable) }
    if w.closed then (w, [])
    else
      ({ w with
          sensitive := w.sensitive.set executable sensitive
          ready := w.ready.filter (fun e => e.1 ≠ executable) },
        (w.ready.filter (fun e => e.1 = executable)).map Prod.snd)

/-- `release` -/
def release : ClipboardWriter α := { w with owner := none }

/-- `copy` with a helper that is found and may be used. -/
def launch (tool : Tool) (started : Bool) : ClipboardWriter α × Option ClipboardTicket :=
  let w := w.release
  if started then
    let ticket : ClipboardTicket := ⟨w.tickets, tool, none⟩
    ({ w with owner := some ticket, tickets := w.tickets + 1 }, some ticket)
  else (w, none)

/-- `copy`; `excluded` leaves `wl-copy` out. -/
def copy (excluded : Bool) (desktop : Desktop) : ClipboardWriter α × Option ClipboardTicket :=
  if w.closed then (w, none)
  else
    match desktop.session.find excluded with
    | none => (w, none)
    | some target =>
      if target.tool = .wlCopy ∧ target.executable ∉ w.sensitive.keys then
        (w.probe target.executable desktop.queued, none)
      else w.launch target.tool desktop.started

/-- `state` -/
def state (ticket : Nat) : TicketState :=
  match w.owner with
  | none => .superseded
  | some owner =>
    if owner.id ≠ ticket then .superseded
    else
      match owner.returncode with
      | none => .running
      | some code => if code = 0 then .exited else .failed

/-- The helper of a ticket has exited. -/
def exited (ticket : Nat) (code : Int) : ClipboardWriter α :=
  { w with owner := w.owner.map (fun owner =>
      if owner.id = ticket then { owner with returncode := some code } else owner) }

/-- `_expire` -/
def expire (ticket : Nat) : ClipboardWriter α :=
  if w.owner.any (fun owner => owner.id == ticket) then w.release else w

def close : ClipboardWriter α :=
  { w with closed := true, ready := [], owner := none }

end

end ClipboardWriter

end BlueFerry.Otp
