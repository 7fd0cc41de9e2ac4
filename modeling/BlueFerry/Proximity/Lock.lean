import BlueFerry.Lib.Slots

/-! # The proximity lock

`proximity_lock.py`: the desktop is locked once the phone has been away for the grace period. The
lock reads whether the phone is present, is told of reasons not to trust that (`Inhibitor`), and
waits with two timers: the one of the grace period, and one that reads again after an inhibitor
ended (`settled`).

Every step carries the reading of the clock, in seconds, and of the presence. `World.log` is what
happened, newest first.
-/

namespace BlueFerry.Proximity

/-- `presence_from_bearers`. -/
def presenceFromBearers (bredr le : Option Bool) : Option Bool :=
  if bredr = some true ∨ le = some true then some true
  else if bredr = some false then some false
  else none

/-- The states of the lock. -/
inductive LockState where
  | disabled
  | idle
  | armed
  | grace
  | locked
  deriving DecidableEq

/-- The reasons of an inhibitor. -/
inductive Inhibitor where
  | sleep
  | adapterOff
  | discovering
  | recovery
  | forgotten
  | stopped
  | localDisconnect
  deriving DecidableEq

/-- What a dispatched lock came to. -/
inductive LockResult where
  | screensaver
  | screensaverRequested
  | login1
  | failed
  deriving DecidableEq

/-- `clamp_grace` of a number. -/
def clampGrace (value : ℤ) : ℤ := max 10 (min value 3600)

/-- `_public()`: what a status change is noticed by. -/
structure Public where
  state : LockState
  enabled : Bool
  graceSec : ℤ
  inhibitors : Finset Inhibitor
  lastResult : Option LockResult
  deriving DecidableEq

/-- The fields of `ProximityLock`. -/
structure ProximityLock where
  enabled : Bool
  graceSec : ℤ
  settleSec : ℤ
  state : LockState
  inhibitors : Finset Inhibitor
  absentSince : Option ℚ
  timerId : Option Nat
  settleId : Option Nat
  lastResult : Option LockResult
  dispatching : Bool
  generation : Nat
  published : Public

def ProximityLock.public (p : ProximityLock) : Public :=
  { p with }

/-- The callback of a timer. -/
inductive Timer where
  | settled
  | graceElapsed
  deriving DecidableEq

/-- A timer, and the seconds it was armed with. -/
structure Armed where
  delay : ℤ
  timer : Timer
  deriving DecidableEq

/-- What happened. -/
inductive Entry where
  /-- the feature was turned on -/
  | enabled
  /-- an inhibitor began or ended -/
  | inhibitor (reason : Inhibitor) (active : Bool)
  | reset
  /-- the phone was observed as present, or as absent -/
  | present
  | absent (time : ℚ)
  /-- the presence could not be read when the grace period was over -/
  | unknownAtExpiry
  /-- a lock was dispatched: when, and what the lock held then -/
  | locked (time : ℚ) (graceSec : ℤ) (enabled : Bool) (inhibitors : Finset Inhibitor)
  deriving DecidableEq

/-- The lock, its timers, the dispatched locks that are not answered yet with the generation of
their callback, how often the status was published, and the log. -/
structure World where
  lock : ProximityLock
  timers : Slots Armed
  pending : Slots Nat
  published : Nat
  log : List Entry

def World.start (enabled : Bool) (graceSec : ℤ) : World where
  lock :=
    { enabled := enabled
      graceSec := clampGrace graceSec
      settleSec := 6
      state := if enabled then .idle else .disabled
      inhibitors := ∅
      absentSince := none
      timerId := none
      settleId := none
      lastResult := none
      dispatching := false
      generation := 0
      published := ⟨if enabled then .idle else .disabled, enabled, clampGrace graceSec, ∅, none⟩ }
  timers := .empty
  pending := .empty
  published := 0
  log := []

/-- What a step reads: the clock, the presence (`none` also where reading it raised), and how
`locker.lock` answers if it does so at once. -/
structure Reading where
  now : ℚ
  presence : Option Bool
  answer : Option LockResult
  deriving DecidableEq

/-! ## Small steps -/

section

variable (w : World)

def World.set (f : ProximityLock → ProximityLock) : World := { w with lock := f w.lock }

def World.record (entry : Entry) : World := { w with log := entry :: w.log }

/-- `_emit_if_changed`. -/
def World.emitIfChanged : World :=
  if w.lock.public = w.lock.published then w
  else { w.set (fun p => { p with published := p.public }) with published := w.published + 1 }

/-- `_cancel_timer`. -/
def World.cancelTimer : World :=
  match w.lock.timerId with
  | none => w
  | some id => { w.set (fun p => { p with timerId := none }) with timers := w.timers.take id }

/-- `_cancel_settle`. -/
def World.cancelSettle : World :=
  match w.lock.settleId with
  | none => w
  | some id => { w.set (fun p => { p with settleId := none }) with timers := w.timers.take id }

/-- `_schedule_settle`. -/
def World.scheduleSettle : World :=
  let w := w.cancelSettle
  { w.set (fun p => { p with settleId := some w.timers.next }) with
    timers := w.timers.put ⟨w.lock.settleSec, .settled⟩ }

/-- `_arm_timer`. -/
def World.armTimer (now : ℚ) : World :=
  let w := w.cancelTimer
  match w.lock.absentSince with
  | none => w
  | some since =>
    { w.set (fun p => { p with timerId := some w.timers.next }) with
      timers := w.timers.put ⟨max 1 ⌈since + w.lock.graceSec - now⌉, .graceElapsed⟩ }

/-- `_forget_presence`. -/
def World.forgetPresence : World :=
  w.cancelTimer.cancelSettle.set fun p => { p with absentSince := none }

/-- `_observe`. -/
def World.observe (present : Option Bool) (now : ℚ) : World :=
  match present with
  | some true =>
    (w.cancelTimer.cancelSettle.set fun p =>
      { p with absentSince := none, state := .armed }).record .present
  | none => w
  | some false =>
    let w := w.record (.absent now)
    if w.lock.state = .armed then
      (w.set fun p => { p with absentSince := some now, state := .grace }).armTimer now
    else w

/-- `done` of `_dispatch`. -/
def World.done (generation : Nat) (result : LockResult) : World :=
  let w := w.set fun p => { p with dispatching := false }
  if generation ≠ w.lock.generation then w
  else (w.set fun p => { p with lastResult := some result }).emitIfChanged

/-- `_dispatch`. -/
def World.dispatch (r : Reading) : World :=
  let w := w.set fun p => { p with absentSince := none, state := .locked }
  if w.lock.dispatching then w
  else
    let w := w.set fun p => { p with dispatching := true }
    let w := w.record (.locked r.now w.lock.graceSec w.lock.enabled w.lock.inhibitors)
    match r.answer with
    | some result => w.done w.lock.generation result
    | none => { w with pending := w.pending.put w.lock.generation }

/-! ## The methods -/

/-- `configure`. -/
def World.configure (enabled : Bool) (graceSec : ℤ) (now : ℚ) : World :=
  let wasEnabled := w.lock.enabled
  let w := w.set fun p => { p with enabled := enabled, graceSec := clampGrace graceSec }
  let w :=
    if !enabled then w.forgetPresence.set fun p => { p with state := .disabled }
    else if !wasEnabled then
      ((w.set fun p => { p with state := .idle }).record .enabled).scheduleSettle
    else if w.lock.state = .grace then w.armTimer now
    else w
  w.emitIfChanged

/-- `bearer_changed`. -/
def World.bearerChanged (r : Reading) : World :=
  let w :=
    if r.presence = some true ∧ .localDisconnect ∈ w.lock.inhibitors then
      (w.set fun p => { p with inhibitors := p.inhibitors.erase .localDisconnect }).record
        (.inhibitor .localDisconnect false)
    else w
  let w :=
    if w.lock.enabled ∧ w.lock.inhibitors = ∅ then w.observe r.presence r.now else w
  w.emitIfChanged

/-- `inhibit`. -/
def World.inhibit (reason : Inhibitor) (active : Bool) : World :=
  let w :=
    if active ∧ reason ∉ w.lock.inhibitors then
      let w := (w.set fun p => { p with inhibitors := insert reason p.inhibitors }).record
        (.inhibitor reason true)
      let w := w.forgetPresence
      if w.lock.enabled then w.set fun p => { p with state := .idle } else w
    else if !active ∧ reason ∈ w.lock.inhibitors then
      let w := (w.set fun p => { p with inhibitors := p.inhibitors.erase reason }).record
        (.inhibitor reason false)
      if w.lock.enabled ∧ w.lock.inhibitors = ∅ then w.scheduleSettle else w
    else w
  w.emitIfChanged

/-- `local_disconnect`. -/
def World.localDisconnect (w : World) : World := w.inhibit .localDisconnect true

/-- `reset`. -/
def World.reset (w : World) : World :=
  let w := w.forgetPresence.record .reset
  let w := if w.lock.enabled then w.set fun p => { p with state := .idle } else w
  w.emitIfChanged

/-- `_settled`. -/
def World.settled (r : Reading) : World :=
  let w := w.set fun p => { p with settleId := none }
  let w :=
    if w.lock.enabled ∧ w.lock.inhibitors = ∅ ∧ w.lock.state = .idle ∧ r.presence = some true then
      w.observe (some true) r.now
    else w
  w.emitIfChanged

/-- `_grace_elapsed`. -/
def World.graceElapsed (r : Reading) : World :=
  let w := w.set fun p => { p with timerId := none }
  match w.lock.absentSince with
  | none => w
  | some since =>
    if ¬ w.lock.enabled ∨ w.lock.inhibitors ≠ ∅ ∨ w.lock.state ≠ .grace then w
    else
      let w :=
        match r.presence with
        | some true => w.observe (some true) r.now
        | none =>
          (w.set fun p => { p with absentSince := none, state := .idle }).record
            .unknownAtExpiry
        | some false =>
          if r.now < since + w.lock.graceSec then w.armTimer r.now else w.dispatch r
      w.emitIfChanged

/-- The callback of a timer. -/
def World.fire (timer : Timer) (r : Reading) : World :=
  match timer with
  | .settled => w.settled r
  | .graceElapsed => w.graceElapsed r

/-! ## Steps -/

inductive Input where
  | configure (enabled : Bool) (graceSec : ℤ)
  | bearerChanged
  | inhibit (reason : Inhibitor) (active : Bool)
  | reset
  /-- the event loop fires a timer, if it is armed -/
  | fired (n : Nat)
  /-- a callback runs though its timer was called off -/
  | late (timer : Timer)
  /-- the desktop answers a dispatched lock -/
  | answered (n : Nat) (result : LockResult)
  deriving DecidableEq

def step (i : Input × Reading) : World :=
  match i.1 with
  | .configure enabled graceSec => w.configure enabled graceSec i.2.now
  | .bearerChanged => w.bearerChanged i.2
  | .inhibit reason active => w.inhibit reason active
  | .reset => w.reset
  | .fired n =>
    match w.timers.get n with
    | none => w
    | some armed => ({ w with timers := w.timers.take n } : World).fire armed.timer i.2
  | .late timer => w.fire timer i.2
  | .answered n result =>
    match w.pending.get n with
    | none => w
    | some generation => ({ w with pending := w.pending.take n } : World).done generation result

end

end BlueFerry.Proximity
