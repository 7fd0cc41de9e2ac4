import BlueFerry.Lib.Machine
import BlueFerry.Lib.Trace
import BlueFerry.Text.Basic

/-! # Opening the OBEX sessions

`SessionManager` (`obex/sessions.py`). `open_all` runs on a worker thread and opens a MAP and a PBAP
session; the main loop hears meanwhile that a session was removed, or that obexd exited. Each block
under the publish lock is one step, and so is what lies between two of them; the two threads take
their steps in any order.

The worker runs one `open_all` after the other. obexd creates a session before the worker has its
answer, so that a removal can come at any time after `created`. The `log` says what happened, newest
first.
-/

namespace BlueFerry.Sessions

open BlueFerry.Text

/-! ## The state -/

inductive Target where
  | map
  | pbap
  deriving DecidableEq

def Target.name : Target → Str
  | .map => "MAP".toList
  | .pbap => "PBAP".toList

/-- A session that obexd has created, for the `opening`-th `open_all`. -/
structure Session where
  number : Nat
  opening : Nat
  target : Target
  path : Str
  deriving DecidableEq

/-- A `SessionError` of one target. -/
structure Failure where
  target : Target
  text : Str
  deriving DecidableEq

/-- Where the worker is in `open_all`. -/
inductive Phase where
  | idle
  /-- before `getattr(self, attribute) is not None` -/
  | checking (target : Target) (failures : List Failure)
  /-- in `_create_session`; `created` once obexd has made the session -/
  | creating (target : Target) (retried : Bool) (created : Option Session)
      (failures : List Failure)
  | finishing (failures : List Failure)
  deriving DecidableEq

inductive Event where
  | created (x : Session)
  /-- `InterfacesRemoved` of the path was delivered -/
  | removed (path : Str)
  /-- obexd's exit was delivered -/
  | exited
  | published (x : Session)
  /-- the loss callback, for the sessions that were dropped -/
  | lost (sessions : List Session) (reason : Str)
  /-- `open_all` returned, or raised -/
  | finished (opening : Nat) (raised : Option Failure)
  deriving DecidableEq

structure State where
  map : Option Session := none
  pbap : Option Session := none
  monitoring : Bool := false
  /-- `_removed_while_opening` -/
  removed : Option (List Str) := none
  /-- `_obexd_exited_while_opening` -/
  exited : Bool := false
  phase : Phase := .idle
  openings : Nat := 0
  next : Nat := 0
  log : List Event := []
  deriving DecidableEq

namespace State

section

variable (s : State)

/-- `getattr(self, attribute)` -/
def held : Target → Option Session
  | .map => s.map
  | .pbap => s.pbap

/-- `setattr(self, attribute, session)` -/
def hold (x : Session) : Target → State
  | .map => { s with map := some x }
  | .pbap => { s with pbap := some x }

/-! ## The main loop -/

/-- Forget the published sessions that meet `p`, and tell the owner of the manager. -/
def lose (p : Session → Bool) (reason : List Session → Str) : State :=
  let gone := (s.map.toList ++ s.pbap.toList).filter p
  { s with
    map := s.map.filter (fun x => !p x)
    pbap := s.pbap.filter (fun x => !p x)
    log := if gone = [] then s.log else .lost gone (reason gone) :: s.log }

/-- `"/".join(lost) + " session disappeared"` -/
def disappeared (gone : List Session) : Str :=
  join '/' (gone.map (·.target.name)) ++ " session disappeared".toList

/-- `_on_interfaces_removed` -/
def onInterfacesRemoved (path : Str) : State :=
  { s with
    removed := s.removed.map (path :: ·)
    log := .removed path :: s.log }.lose (fun x => x.path = path) disappeared

/-- `_on_name_owner_changed` -/
def onNameOwnerChanged (oldOwner newOwner : Str) : State :=
  if oldOwner = [] ∨ newOwner ≠ [] then s
  else
    { s with
      exited := s.removed.isSome || s.exited
      log := .exited :: s.log }.lose (fun _ => true) (fun _ => "obexd exited".toList)

/-! ## The worker -/

section

variable (target : Target)

/-- The next target, or the end of the loop. -/
def after (failures : List Failure) : Phase :=
  match target with
  | .map => .checking .pbap failures
  | .pbap => .finishing failures

/-- `open_all`, to the first lock. -/
def openAll : State :=
  if s.map.isSome ∧ s.pbap.isSome then { s with monitoring := true }
  else
    { s with
      monitoring := true
      removed := some []
      exited := false
      phase := .checking .map []
      openings := s.openings + 1 }

/-- The check whether the target is open already. -/
def check (failures : List Failure) : State :=
  if (s.held target).isSome then { s with phase := after target failures }
  else { s with phase := .creating target false none failures }

/-- obexd creates the session. -/
def create (retried : Bool) (failures : List Failure) (path : Str) : State :=
  let x : Session := ⟨s.next, s.openings, target, path⟩
  { s with
    next := s.next + 1
    phase := .creating target retried (some x) failures
    log := .created x :: s.log }

/-- `"Forbidden" in msg or "0x43" in msg` -/
def isForbidden (msg : Str) : Bool :=
  decide ("Forbidden".toList <:+: msg) || decide ("0x43".toList <:+: msg)

/-- `CreateSession` answers with an error. One that was forbidden is tried once more; then obexd has
made no session. -/
def createFails (retried : Bool) (created : Option Session)
    (failures : List Failure) (name msg : Str) : State :=
  if created = none ∧ retried = false ∧ isForbidden msg = true then
    { s with phase := .creating target true none failures }
  else
    { s with phase := after target (failures ++ [⟨target, "CreateSession(".toList ++ target.name
        ++ ") failed: ".toList ++ name ++ ": ".toList ++ msg⟩]) }

/-- `_publish`, and what `open_all` does with its answer. -/
def publish (x : Session) (failures : List Failure) : State :=
  if s.exited = true ∨ x.path ∈ s.removed.getD [] then
    { s with phase := after target (failures ++ [⟨target,
        target.name ++ " session disappeared while opening".toList⟩]) }
  else
    { s with
      phase := after target failures
      log := .published x :: s.log }.hold x target

end

/-- The `finally` block, and the end of `open_all`. -/
def finish (failures : List Failure) : State :=
  { s with
    removed := none
    exited := false
    phase := .idle
    log := .finished s.openings failures.head? :: s.log }

end

end State

/-! ## Steps -/

inductive Input where
  | openAll
  | check
  | created (path : Str)
  | createFails (name msg : Str)
  /-- another exception of `_create_session` -/
  | createRaises (text : Str)
  | publish
  | finish
  | interfacesRemoved (path : Str)
  | nameOwnerChanged (oldOwner newOwner : Str)

/-- One step of the worker or of the main loop. A step of the worker that is not due does
nothing. -/
def step (s : State) : Input → State
  | .openAll => match s.phase with
    | .idle => s.openAll
    | _ => s
  | .check => match s.phase with
    | .checking target failures => s.check target failures
    | _ => s
  | .created path => match s.phase with
    | .creating target retried none failures => s.create target retried failures path
    | _ => s
  | .createFails name msg => match s.phase with
    | .creating target retried created failures =>
      s.createFails target retried created failures name msg
    | _ => s
  | .createRaises text => match s.phase with
    | .creating target _ _ failures =>
      { s with phase := State.after target (failures ++ [⟨target, text⟩]) }
    | _ => s
  | .publish => match s.phase with
    | .creating target _ (some x) failures => s.publish target x failures
    | _ => s
  | .finish => match s.phase with
    | .finishing failures => s.finish failures
    | _ => s
  | .interfacesRemoved path => if s.monitoring then s.onInterfacesRemoved path else s
  | .nameOwnerChanged oldOwner newOwner =>
    if s.monitoring then s.onNameOwnerChanged oldOwner newOwner else s

/-! ## What the log says of a session -/

section

variable (x : Session)

/-- The session is removed, or its obexd exits. -/
def Ends (e : Event) : Prop := e = .removed x.path ∨ e = .exited

/-- Some entry met `p`, which sees what was earlier. -/
def Happened (p : Event → List Event → Prop) (log : List Event) : Prop :=
  Trace.Since (fun _ => False) p log

/-- The session ended after it was created, and before it was published. -/
def EndedBefore (log : List Event) : Prop :=
  Happened (fun e earlier => Ends x e ∧ .created x ∈ earlier ∧ .published x ∉ earlier) log

/-- The session ended after it was published. -/
def EndedAfter (log : List Event) : Prop :=
  Happened (fun e earlier => Ends x e ∧ .published x ∈ earlier) log

/-- The callback was called for this session. -/
def tells : Event → Bool
  | .lost gone _ => gone.contains x
  | _ => false

/-- How often the loss callback was called for the session. -/
def losses (log : List Event) : Nat := log.countP (tells x)

end

/-- The session is published. -/
def Held (s : State) (x : Session) : Prop := ∃ target, s.held target = some x

end BlueFerry.Sessions
