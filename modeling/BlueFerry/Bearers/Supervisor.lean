import BlueFerry.Bearers.Connect

/-! # The bearer supervisor

`bearer_supervisor.py`: the methods of `BearerSupervisor`, and the steps of a run.
-/

namespace BlueFerry.Bearers

open BlueFerry.Text

/-! ## Resets of LE -/

section

variable (w : World)

/-- A profile reset, a profile call or an unresponsive BlueZ owns the connection. -/
def World.held : Bool :=
  w.env.blocked || w.supervisor.profileResetPhase.isSome || w.env.busy

/-- `_schedule_le_connect`. -/
def World.scheduleLeConnect : World :=
  let s := w.supervisor
  if s.leApiAvailable = some false ∨ w.held ∨ s.leSettleId.isSome ∨ s.disconnecting ≠ ∅ ∨
      w.leDialExhausted then w
  else
    (w.schedule 3 .connectLeAfterSettle).set fun s => { s with leSettleId := some w.timers.next }

/-- `_complete_le_reset`. -/
def World.completeLeReset : World :=
  let downSeen := w.supervisor.leResetPending && w.supervisor.leResetDownSeen
  let w := w.set fun s =>
    { s with
      leResetPending := false
      leResetDownSeen := false
      leResetFailures := 0
      nextLeResetAttempt := 0 }
  let w := if downSeen then w else w.updateState .le (some false) true true
  if w.supervisor.states .bredr = some true ∧ w.supervisor.leEnabled ∧
      w.supervisor.states .le ≠ some true then w.scheduleLeConnect
  else w

/-- `_disconnect_succeeded`. -/
def World.disconnectSucceeded (generation : Nat) : World :=
  if generation ≠ w.supervisor.generation then w
  else
    let w := w.set fun s => { s with disconnecting := s.disconnecting.erase .le }
    if !w.supervisor.leResetPending then w else w.completeLeReset

/-- `_disconnect_failed`. -/
def World.disconnectFailed (e : Failure) (generation : Nat) : World :=
  if generation ≠ w.supervisor.generation then w
  else
    let w := w.set fun s => { s with disconnecting := s.disconnecting.erase .le }
    if !w.supervisor.leResetPending then w
    else if e.notConnected then w.completeLeReset
    else
      w.set fun s =>
        { s with
          leResetFailures := s.leResetFailures + 1
          nextLeResetAttempt := w.now + min (5 * 2 ^ (s.leResetFailures + 1)) 300 }

/-- `_disconnect` of LE is called, and refuses at once or will answer. -/
def World.callLeDisconnect (force : Bool) : World :=
  let w := w.set fun s =>
    { s with
      disconnecting := insert .le s.disconnecting
      flaps := { s.flaps with ownDisconnectAt := some w.now } }
  let generation := w.supervisor.generation
  let issued := w.wait.did (.disconnect .le force)
  match w.answer.raised with
  | some e => issued.disconnectFailed e generation
  | none => issued.await (.disconnect .le generation)

/-- `_request_le_disconnect`. -/
def World.requestLeDisconnect (force : Bool) : World :=
  let s := w.supervisor
  if s.leApiAvailable = some false ∨ w.held then w
  else if .le ∈ s.disconnecting ∨ (.le ∈ s.connecting ∧ !force) then w
  else if force then w.callLeDisconnect true
  else if w.now < s.nextLeResetAttempt then w
  else if s.leResetFailures = 0 then w.callLeDisconnect false
  else
    let (w, granted) := w.take
    if granted then w.callLeDisconnect false else w

/-- The end of `recover_le_transport`: the reset is wanted and paid for. -/
def World.resetLe : World :=
  let w := (w.set fun s => { s with leDialSpent := false, leResetPending := true }).cancelLeSettle
  if w.supervisor.leEnabled then w.requestLeDisconnect false else w

/-- `recover_le_transport`. -/
def World.recoverLeTransport (allowDisconnected : Bool) (since : Option ℚ) : World × Bool :=
  let wanted := w.supervisor.leResetWanted
  let w := w.set fun s => { s with leResetWanted := none }
  let s := w.supervisor
  if !s.running ∨ s.leApiAvailable = some false then (w, false)
  else if s.profileResetPhase.isSome then (w, false)
  else if s.states .le = some false ∧ !allowDisconnected then (w, false)
  else if s.leResetPending then (w.resetLe, true)
  else
    let (w, granted) := w.take
    if granted then
      ((w.set fun s =>
        { s with leResetDownSeen := false, leResetStartedAt := some w.now }).resetLe, true)
    else
      let answered :=
        since.any fun since => s.leResetStartedAt.any fun started => decide (since ≤ started)
      if answered then (w.set fun s => { s with leResetWanted := wanted }, true)
      else
        (w.set fun s =>
          { s with leResetWanted := some (allowDisconnected || wanted.getD false) }, false)

/-! ## Polls -/

/-- The end of `_tick`: connect what is down, Classic first. -/
def World.connectDown (bredr le : Option Bool) : World :=
  let w := if bredr ≠ some true then w.cancelLeSettle else w
  if bredr = some false then w.requestConnect .bredr
  else if bredr = some true ∧ le = some false ∧ w.supervisor.leEnabled then
    let w := w.restoreLePreference
    if .bredr ∈ w.supervisor.connecting then w else w.scheduleLeConnect
  else if le = some true then w.cancelLeSettle
  else w

/-- The part of `_tick` after the reset that a refusal postponed. -/
def World.pursueReset (bredr le : Option Bool) : World :=
  if w.supervisor.leResetPending ∧ w.supervisor.leEnabled then
    match le with
    | some false => w.completeLeReset.connectDown bredr le
    | some true => w.requestLeDisconnect false
    | none => w
  else w.connectDown bredr le

/-- `_age_le_evidence`. -/
def World.ageLeEvidence : World :=
  w.setFlaps (w.supervisor.flaps.age w.sight.detection w.now)

/-- `_tick`, in a supervisor that runs. -/
def World.tick : World :=
  if w.env.blocked then w
  else
    let (w, bredr, le) := w.refreshStates
    let w := w.ageLeEvidence
    if w.supervisor.profileResetPhase.isSome ∨ w.env.busy then w
    else if w.supervisor.disconnecting ≠ ∅ then w
    else
      match w.supervisor.leResetWanted with
      | none => w.pursueReset bredr le
      | some allowDisconnected =>
        let w := (w.recoverLeTransport allowDisconnected none).1
        if w.supervisor.disconnecting ≠ ∅ then w else w.pursueReset bredr le

/-- A poll of a supervisor that runs; a stopped one does nothing. -/
def World.tickIfRunning : World := if w.supervisor.running then w.tick else w

/-- `_connect_le_after_settle`. -/
def World.connectLeAfterSettle : World :=
  let w := w.set fun s => { s with leSettleId := none }
  if !w.supervisor.running ∨ w.held then w
  else
    let (w, bredr, le) := w.refreshStates
    if bredr = some true ∧ le = some false ∧ w.supervisor.leEnabled ∧
        w.supervisor.leApiAvailable ≠ some false then
      w.restoreLePreference.requestConnect .le
    else if bredr = some false then w.requestConnect .bredr
    else w

/-! ## Reconnects and profile resets -/

/-- Classic is neither in backoff nor resting. -/
def World.forgiveClassic : World :=
  w.set fun s =>
    { s with
      bredrResting := false
      bredrRemoteClosed := false
      bredrLastFailed := false
      failures := Function.update s.failures .bredr 0
      nextAttempt := Function.update s.nextAttempt .bredr 0 }

/-- What `reconnect_now` answers. -/
inductive ReconnectResult where
  | connected
  | inProgress
  | started
  | unavailable
  | bluezUnresponsive
  deriving DecidableEq

/-- `reconnect_now`. -/
def World.reconnectNow : World × ReconnectResult :=
  let s := w.supervisor
  if !s.running then (w, .unavailable)
  else if w.env.blocked then (w, .bluezUnresponsive)
  else if s.profileResetPhase.isSome ∨ w.env.busy then (w, .inProgress)
  else if s.states .bredr = some true then (w, .connected)
  else if s.connecting ≠ ∅ ∨ s.manualDialId.isSome then (w, .inProgress)
  else
    let w := w.forgiveClassic.set fun s =>
      { s with lastErrors := Function.update s.lastErrors .bredr none }
    let w := (w.schedule 0 .manualDial).set fun s => { s with manualDialId := some w.timers.next }
    (w.publishReconnect, .started)

/-- `_manual_dial`. -/
def World.manualDial : World :=
  let w := w.set fun s => { s with manualDialId := none }
  if !w.supervisor.running ∨ w.env.blocked ∨ w.supervisor.states .bredr = some true then w
  else (w.requestConnect .bredr).publishReconnect

/-- `_profile_reset_disconnected`. -/
def World.profileResetDisconnected (generation : Nat) : World :=
  let s := w.supervisor
  if generation ≠ s.generation ∨ s.profileResetPhase ≠ some .disconnecting then w
  else
    (w.schedule 3 .profileResetReconnect).set fun s =>
      { s with
        leResetWanted := none
        profileResetPhase := some .settling
        profileResetId := some w.timers.next }

/-- `_profile_reset_disconnect_failed`. -/
def World.profileResetDisconnectFailed (e : Failure) (generation : Nat) : World :=
  let s := w.supervisor
  if generation ≠ s.generation ∨ s.profileResetPhase ≠ some .disconnecting then w
  else if e.notConnected then w.profileResetDisconnected generation
  else (w.set fun s => { s with profileResetPhase := none }).publishReconnect

/-- What `reset_profiles` answers. -/
inductive ResetResult where
  | started
  | inProgress
  | disconnected
  | unavailable
  | bluezUnresponsive
  deriving DecidableEq

/-- `_disconnect` of the device is called, and refuses at once or will answer. -/
def World.callDeviceDisconnect : World :=
  let generation := w.supervisor.generation
  let issued := w.wait.did (.disconnect .device false)
  match w.answer.raised with
  | some e => issued.profileResetDisconnectFailed e generation
  | none => issued.await (.disconnect .device generation)

/-- `reset_profiles`. -/
def World.resetProfiles : World × ResetResult :=
  let s := w.supervisor
  if !s.running then (w, .unavailable)
  else if w.env.blocked then (w, .bluezUnresponsive)
  else if s.profileResetPhase.isSome ∨ w.env.busy ∨ s.leResetPending ∨ s.connecting ≠ ∅ ∨
      s.disconnecting ≠ ∅ ∨ s.manualDialId.isSome then (w, .inProgress)
  else if s.states .bredr ≠ some true then (w, .disconnected)
  else
    let w := w.cancelLeSettle.set fun s =>
      { s with
        profileResetPhase := some .disconnecting
        flaps := { s.flaps with ownDisconnectAt := some w.now } }
    (w.publishReconnect.callDeviceDisconnect, .started)

/-- `_profile_reset_reconnect`. -/
def World.profileResetReconnect : World :=
  let w := w.set fun s => { s with profileResetId := none }
  if w.supervisor.profileResetPhase ≠ some .settling then w
  else
    let w := w.set fun s => { s with profileResetPhase := none }
    if !w.supervisor.running ∨ w.env.blocked then w.publishReconnect
    else
      let (w, bredr) := w.read .bredr
      let w := w.updateState .bredr bredr false true
      let (w, le) := w.read .le
      let w := w.updateState .le le false true
      if bredr = some true then w.publishReconnect
      else (w.forgiveClassic.requestConnect .bredr).publishReconnect

/-- `_abort_profile_reset`. -/
def World.abortProfileReset : World :=
  (w.cancel w.supervisor.profileResetId).set fun s =>
    { s with profileResetPhase := none, profileResetId := none }

/-! ## Signals -/

/-- `_observe_signalled_le`. -/
def World.observeSignalledLe (connected : Bool) : World :=
  if w.supervisor.states .le = some connected then w
  else w.updateState .le (some connected) true false

/-- `_on_le_disconnected_signal`. -/
def World.onLeDisconnectedSignal (name : Str) : World :=
  if !w.supervisor.running then w
  else
    (w.setFlaps (w.supervisor.flaps.countDisconnect w.sight (disconnectReason name) w.now)
    ).observeSignalledLe false

/-- What the properties of the device say: it has an RSSI, or it is bonded anew; and of its LE
bearer: it is connected or not, or it is bonded anew. -/
inductive Changed where
  | device (rssi bonded : Bool)
  | leBearer (connected : Option Bool) (bonded : Bool)
  deriving DecidableEq

/-- A new bond resets the report of a stale one. -/
def World.clearFlapsIf (bonded : Bool) : World :=
  if bonded then w.setFlaps w.supervisor.flaps.clear else w

/-- `_on_le_properties_changed`. -/
def World.onLePropertiesChanged (changed : Changed) : World :=
  if !w.supervisor.running then w
  else
    match changed with
    | .device rssi bonded => (if rssi then w.notePresence true else w).clearFlapsIf bonded
    | .leBearer connected bonded =>
      match connected with
      | none => w.clearFlapsIf bonded
      | some connected =>
        let w := w.set fun s =>
          { s with
            leApiAvailable := some true
            flaps := if connected then { s.flaps with linkUpAt := some w.now } else s.flaps }
        (w.observeSignalledLe connected).clearFlapsIf bonded

/-- `_on_bredr_disconnected_signal`. -/
def World.onBredrDisconnectedSignal (name : Str) : World :=
  let s := w.supervisor
  if !s.running then w
  else if disconnectReason name ≠ .remote ∨ s.states .le = some true then w
  else if s.leEnabled ∧ s.states .le = some false ∧ !s.classicConnectShouldBeTargeted ∧
      !w.sighted then w.enterBredrResting
  else w.set fun s => { s with bredrRemoteClosed := true }

/-! ## The life of the supervisor -/

/-- `start`. -/
def World.startUp : World :=
  if w.supervisor.running then w
  else
    let w := (w.set fun s => { s with running := true }).tick
    (w.schedule 5 .tick).set fun s => { s with timerId := some w.timers.next }

/-- `enable_le`. -/
def World.enableLe : World :=
  if w.supervisor.leEnabled then w
  else
    let w := w.set fun s => { s with leEnabled := true }
    let w :=
      if w.supervisor.states .le = some true then w
      else (w.set fun s => { s with lePreferenceRestorePending := true }).restoreLePreference
    w.tickIfRunning

/-- `hold_le`. -/
def World.holdLe : World :=
  let w := (w.set fun s => { s with leEnabled := false }).cancelLeSettle
  if .le ∈ w.supervisor.connecting then w.requestLeDisconnect true else w

/-- What `stop` and a restart of BlueZ both forget. -/
def BearerSupervisor.forgotten (s : BearerSupervisor) : BearerSupervisor :=
  { s with
    generation := s.generation + 1
    legacyObservation := none
    connecting := ∅
    connectRequestIds := fun _ => none
    connectTargeted := fun _ => none
    connectObservationDeadlines := fun _ => none
    disconnecting := ∅ }

/-- And what both forget of LE, after the end of its dial was told. -/
def BearerSupervisor.forgottenLe (s : BearerSupervisor) : BearerSupervisor :=
  { s with
    leTargetingHint := false
    lePreferenceRestorePending := false
    leDialSpent := false
    leResetPending := false
    leResetWanted := none }

/-- And of Classic. -/
def BearerSupervisor.forgottenClassic (s : BearerSupervisor) : BearerSupervisor :=
  { s with
    bredrResting := false
    bredrRemoteClosed := false
    bredrLastFailed := false
    presenceSeenAt := none }

/-- `reset_after_bluez_restart`. -/
def World.resetAfterBluezRestart : World :=
  let previous := w.supervisor.states
  let w := w.set fun s => { s.forgotten with leApiAvailable := none }
  let w := (w.setLeDialActive false).set fun s =>
    { s.forgottenLe with leResetFailures := 0, nextLeResetAttempt := 0 }
  let w := w.cancelLeSettle.set fun s =>
    { s.forgottenClassic with
      states := fun _ => none
      failures := fun _ => 0
      nextAttempt := fun _ => 0
      connectedSince := fun _ => none
      leDwellShouldForgiveClassic := false
      lastErrors := fun _ => none
      flaps := s.flaps.restarted }
  let w := w.abortProfileReset.tell (.leState none)
  let w := if previous ≠ fun _ => none then w.tellStatus else w
  w.tickIfRunning

/-- `stop`. -/
def World.stop : World :=
  let w := w.set fun s => { s.forgotten with running := false }
  let w := (w.setLeDialActive false).set BearerSupervisor.forgottenLe
  let w := w.cancelLeSettle
  let w := (w.cancel w.supervisor.manualDialId).set fun s => { s with manualDialId := none }
  let w := w.abortProfileReset.set BearerSupervisor.forgottenClassic
  (w.cancel w.supervisor.timerId).set fun s => { s with timerId := none }

/-- `observe_ancs_health`. -/
def World.observeAncsHealth (healthy : Bool) (proof : Option ℚ) : World :=
  (if healthy then w.set fun s => { s with leResetWanted := none } else w).observeHealth healthy
    proof

/-! ## Steps -/

/-- The callback of a timer. -/
def World.fire : Timer → World
  | .tick => w.tickIfRunning
  | .connectLeAfterSettle => w.connectLeAfterSettle
  | .manualDial => w.manualDial
  | .profileResetReconnect => w.profileResetReconnect

/-- The answer of BlueZ to a request, with the error if there is one. -/
def World.reply (request : Request) (error : Option Failure) : World :=
  match request, error with
  | .connect kind generation id, none => w.connectSucceeded kind generation id
  | .connect kind generation id, some e => w.connectFailed kind e generation id
  | .disconnect .le generation, none => w.disconnectSucceeded generation
  | .disconnect .le generation, some e => w.disconnectFailed e generation
  | .disconnect .device generation, none => w.profileResetDisconnected generation
  | .disconnect .device generation, some e => w.profileResetDisconnectFailed e generation

inductive Input where
  | start
  | stop
  | poke
  | enableLe
  | holdLe
  | bluezRestarted
  | ancsHealth (healthy : Bool) (proof : Option ℚ)
  | recoverLeTransport (allowDisconnected : Bool) (since : Option ℚ)
  | reconnectNow
  | resetProfiles
  | leUsable
  | leDisconnected (name : Str)
  | lePropertiesChanged (changed : Changed)
  | bredrDisconnected (name : Str)
  /-- the event loop fires a timer, if it is armed -/
  | fired (n : Nat)
  /-- a callback runs though its timer was called off -/
  | late (timer : Timer)
  /-- BlueZ answers a request, if it has not answered it yet -/
  | replied (n : Nat) (error : Option Failure)
  deriving DecidableEq

/-- What a step starts from: the clock, what is true around, and the answers to come. -/
structure Reading where
  now : ℚ
  env : Env
  answers : Nat → Answer

/-- The step, in the world that it meets. -/
def World.handle : Input → World
  | .start => w.startUp
  | .stop => w.stop
  | .poke => w.tickIfRunning
  | .enableLe => w.enableLe
  | .holdLe => w.holdLe
  | .bluezRestarted => w.resetAfterBluezRestart
  | .ancsHealth healthy proof => w.observeAncsHealth healthy proof
  | .recoverLeTransport allowDisconnected since => (w.recoverLeTransport allowDisconnected since).1
  | .reconnectNow => w.reconnectNow.1
  | .resetProfiles => w.resetProfiles.1
  | .leUsable => w.setFlaps w.supervisor.flaps.clear
  | .leDisconnected name => w.onLeDisconnectedSignal name
  | .lePropertiesChanged changed => w.onLePropertiesChanged changed
  | .bredrDisconnected name => w.onBredrDisconnectedSignal name
  | .fired n =>
    match w.timers.get n with
    | none => w
    | some armed =>
      -- the poll is the timer that goes on, as long as the supervisor runs
      if armed.timer = .tick ∧ w.supervisor.running then w.fire .tick
      else ({ w with timers := w.timers.take n } : World).fire armed.timer
  | .late timer => w.fire timer
  | .replied n error =>
    match w.requests.get n with
    | none => w
    | some request =>
      ({ w with requests := w.requests.take n } : World).reply request error

def World.hear (r : Reading) : World :=
  { w with now := r.now, env := r.env, answers := r.answers, asked := 0 }

def step (i : Input × Reading) : World := (w.hear i.2).handle i.1

end

end BlueFerry.Bearers
