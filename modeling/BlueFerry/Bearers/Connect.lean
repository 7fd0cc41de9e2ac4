import BlueFerry.Bearers.State

/-! # Observing and connecting the bearers

`bearer_supervisor.py`: what an observation of a bearer does (`updateState`), and what becomes of a
Connect.

An observation of LE can supersede a Connect of Classic, and a Connect that BlueZ refuses at once
can observe. This does not go on for ever: the Connect that supersedes is targeted, and only an
untargeted one observes. So `connectFailedWith` takes what an untargeted one does from outside.
-/

namespace BlueFerry.Bearers

/-! ## The state of the reconnect -/

/-- `_classic_connect_should_be_targeted`. -/
def BearerSupervisor.classicConnectShouldBeTargeted (s : BearerSupervisor) : Bool :=
  s.leTargetingHint || decide (s.states .le = some true)

/-- `state` and `paused` of `reconnect_snapshot`. -/
def BearerSupervisor.reconnectSnapshot (s : BearerSupervisor) : ReconnectState × Bool :=
  (if s.profileResetPhase.isSome then .connecting
   else if s.states .bredr = some true then .connected
   else if .bredr ∈ s.connecting ∨ s.manualDialId.isSome then .connecting
   else if s.bredrLastFailed then .unreachable
   else .waiting, s.bredrResting)

/-- `_publish_reconnect`. -/
def World.publishReconnect (w : World) : World :=
  let current := w.supervisor.reconnectSnapshot
  if w.supervisor.publishedReconnect = some current then w
  else (w.set fun s => { s with publishedReconnect := some current }).tell .reconnect

/-- A sighting of the phone in the last two minutes. -/
def World.sighted (w : World) : Bool :=
  w.supervisor.presenceSeenAt.any fun seen => w.now - seen < 120

/-- `_peer_present`. -/
def World.peerPresent (w : World) : Bool :=
  decide (w.supervisor.states .bredr = some true) ||
    w.supervisor.classicConnectShouldBeTargeted || w.sighted

/-- `_enter_bredr_resting`. -/
def World.enterBredrResting (w : World) : World :=
  (w.set fun s =>
    { s with
      bredrResting := true
      nextAttempt :=
        Function.update s.nextAttempt .bredr (max (s.nextAttempt .bredr) (w.now + 600)) }
  ).publishReconnect

/-- `_note_presence`. -/
def World.notePresence (w : World) (sighting : Bool) : World :=
  let w := if sighting then w.set fun s => { s with presenceSeenAt := some w.now } else w
  let w := w.set fun s => { s with bredrRemoteClosed := false }
  if !w.supervisor.bredrResting then w
  else
    (w.set fun s =>
      { s with bredrResting := false, nextAttempt := Function.update s.nextAttempt .bredr 0 }
    ).publishReconnect

/-- `_backoff_cap`. -/
def BearerSupervisor.backoffCap (s : BearerSupervisor) : Kind → ℚ
  | .bredr => if s.classicConnectShouldBeTargeted then 30 else 600
  | .le => 300

section

variable (w : World) (kind : Kind)

/-- `_record_failure`. -/
def World.recordFailure (failed : Bool) : World :=
  let w := w.set fun s =>
    { s with
      failures := Function.update s.failures kind (s.failures kind + 1)
      bredrLastFailed := if kind = .bredr then failed else s.bredrLastFailed }
  let delay := min (5 * 2 ^ w.supervisor.failures kind) (w.supervisor.backoffCap kind)
  let threshold := if w.supervisor.bredrRemoteClosed then 1 else 3
  let w :=
    if kind = .bredr ∧ threshold ≤ w.supervisor.failures kind ∧ !w.peerPresent then
      w.enterBredrResting
    else w
  let delay := if kind = .bredr ∧ w.supervisor.bredrResting then 600 else delay
  let w := w.set fun s =>
    { s with nextAttempt := Function.update s.nextAttempt kind (w.now + delay) }
  if kind = .bredr then w.publishReconnect else w

/-! ## Requests -/

/-- `_set_le_dial_active`. -/
def World.setLeDialActive (w : World) (active : Bool) : World :=
  if active = w.supervisor.leDialActive then w
  else (w.set fun s => { s with leDialActive := active }).tellLeDial active

/-- `_clear_connect_request`. -/
def World.clearConnectRequest : World :=
  w.set fun s =>
    { s with
      connecting := s.connecting.erase kind
      connectRequestIds := Function.update s.connectRequestIds kind none
      connectTargeted := Function.update s.connectTargeted kind none
      connectObservationDeadlines := Function.update s.connectObservationDeadlines kind none }

/-- `_clear_connect_request`, and for LE the end of the dial. -/
def World.endConnect : World :=
  let w := w.clearConnectRequest kind
  if kind = .le then w.setLeDialActive false else w

/-- `_connect_request_is_current`. -/
def BearerSupervisor.connectRequestIsCurrent (s : BearerSupervisor) (kind : Kind)
    (generation id : Nat) : Bool :=
  decide (generation = s.generation) && decide (s.connectRequestIds kind = some id)

/-- `_settle_in_progress_connect`. -/
def World.settleInProgressConnect (value : Option Bool) : World :=
  match w.supervisor.connectObservationDeadlines kind with
  | none => w
  | some deadline =>
    if value ≠ some true ∧ w.now < deadline then w
    else
      let w := w.endConnect kind
      if value = some true then w else w.recordFailure kind true

/-- `_restore_le_preference`. -/
def World.restoreLePreference (w : World) : World :=
  let s := w.supervisor
  if !s.lePreferenceRestorePending ∨ !s.leEnabled ∨ w.env.blocked ∨ s.profileResetPhase.isSome ∨
      w.env.busy ∨ s.classicConnectShouldBeTargeted ∨ s.connecting ≠ ∅ ∨ s.disconnecting ≠ ∅ then w
  else if w.answer.raised.isSome then w.wait
  else w.wait.set fun s => { s with lePreferenceRestorePending := false }

/-- `_le_dial_exhausted`. -/
def World.leDialExhausted (w : World) : Bool := w.supervisor.leDialSpent && w.env.primed

/-- `_connect_succeeded`. -/
def World.connectSucceeded (generation id : Nat) : World :=
  if !w.supervisor.connectRequestIsCurrent kind generation id then w
  else
    let w := w.endConnect kind
    let w := w.set fun s => { s with lastErrors := Function.update s.lastErrors kind none }
    let w := if kind = .bredr then w.restoreLePreference else w
    w.recordFailure kind false

/-- The end of `_connect_failed`. -/
def World.giveUpConnect (e : Failure) : World :=
  let w := w.endConnect kind
  if kind = .le ∧ !w.supervisor.leEnabled then w.set fun s => { s with leDialSpent := false }
  else
    (w.recordFailure kind true).set fun s =>
      { s with lastErrors := Function.update s.lastErrors kind (some e.parts) }

/-- `_connect_failed`. `reread` observes both bearers, for an untargeted Connect of Classic that
BlueZ says is connected already, and returns what Classic is. -/
def World.connectFailedWith (reread : World → World × Option Bool) (w : World) (kind : Kind)
    (e : Failure) (generation id : Nat) : World :=
  if !w.supervisor.connectRequestIsCurrent kind generation id then w
  else if e.inProgress then
    w.set fun s =>
      { s with
        connectObservationDeadlines :=
          Function.update s.connectObservationDeadlines kind
            (some ((s.connectObservationDeadlines kind).getD (w.now + 45))) }
  else if e.alreadyConnected then
    if kind = .bredr ∧ (w.supervisor.connectTargeted kind).getD false = false then
      let (w, bredr) := reread w
      if bredr = some true then w.connectSucceeded kind generation id
      else if !w.supervisor.connectRequestIsCurrent kind generation id then w
      else w.giveUpConnect kind e
    else w.connectSucceeded kind generation id
  else w.giveUpConnect kind e

/-- The policy that lets `_request_connect` go on. -/
def World.mayConnect : Bool :=
  let s := w.supervisor
  !w.env.blocked && s.profileResetPhase.isNone && !w.env.busy && decide (s.disconnecting = ∅) &&
    decide (kind ∉ s.connecting) && decide (kind = .bredr → .le ∉ s.connecting) &&
    decide (kind = .le → .bredr ∉ s.connecting) &&
    !(decide (kind = .bredr) && s.leEnabled && decide (s.states .le = none) &&
      !s.classicConnectShouldBeTargeted) &&
    !(decide (kind = .le) && w.leDialExhausted) && decide (s.nextAttempt kind ≤ w.now)

/-- The fields of a new request. -/
def World.beginConnect (targeted : Bool) : World :=
  w.set fun s =>
    { s with
      connecting := insert kind s.connecting
      connectRequestSerial := s.connectRequestSerial + 1
      connectRequestIds :=
        Function.update s.connectRequestIds kind (some (s.connectRequestSerial + 1))
      connectTargeted := Function.update s.connectTargeted kind (some targeted) }

section

variable (fail : World → Kind → Failure → Nat → Nat → World) (w : World)

/-- `_connect` is called, and refuses at once or will answer. -/
def World.callConnect (kind : Kind) (generation id : Nat) : World :=
  let issued := w.wait.did (.connect kind w.meanwhile)
  match w.answer.raised with
  | some e => fail issued kind e generation id
  | none => issued.await (.connect kind generation id)

/-- An untargeted Connect of Classic first asks for `PreferredBearer`, which may raise. -/
def World.preferClassic (generation id : Nat) : World :=
  match w.answer.raised with
  | some e => fail w.wait .bredr e generation id
  | none =>
    (w.wait.set fun s => { s with lePreferenceRestorePending := true }).callConnect fail .bredr
      generation id

/-- A Connect of LE, whose dial is told before it is called. -/
def World.dialLe (generation id : Nat) : World :=
  let w := w.set fun s => { s with leDialSpent := true }
  ((w.beginConnect .le false).setLeDialActive true).callConnect fail .le generation id

/-- `_request_connect`. -/
def World.requestConnectWith (kind : Kind) : World :=
  if !w.mayConnect kind then w
  else
    let generation := w.supervisor.generation
    let id := w.supervisor.connectRequestSerial + 1
    match kind with
    | .bredr =>
      let targeted := w.supervisor.classicConnectShouldBeTargeted
      let w := w.beginConnect .bredr targeted
      if targeted then w.callConnect fail .bredr generation id
      else w.preferClassic fail generation id
    | .le =>
      let (w, granted) := w.take
      if granted then w.dialLe fail generation id else w

end

/-! ## Observations -/

/-- `_retarget_pending_classic_connect`: LE is connected, so the new Connect is targeted. -/
def World.retargetPendingClassicConnect (w : World) : World :=
  if .bredr ∉ w.supervisor.connecting ∨ w.supervisor.connectTargeted .bredr = some true then w
  else
    ((w.clearConnectRequest .bredr).set fun s =>
      { s with nextAttempt := Function.update s.nextAttempt .bredr 0 }).requestConnectWith
        (World.connectFailedWith fun w => (w, none)) .bredr

/-- `_rearm_le_dial`. -/
def World.rearmLeDial (w : World) : World :=
  w.set fun s =>
    { s with
      leDialSpent := false
      failures := Function.update s.failures .le 0
      nextAttempt := Function.update s.nextAttempt .le 0 }

/-- `_le_bond_detection_active()`, and what else a drop of LE is judged by. -/
def World.sight (w : World) : Sight where
  detection := w.supervisor.leEnabled && w.env.detection
  bredr := w.supervisor.states .bredr
  bredrSince := w.supervisor.connectedSince .bredr

/-- Forget the failures of a bearer. -/
def BearerSupervisor.forgiveBackoff (s : BearerSupervisor) (kind : Kind) : BearerSupervisor :=
  { s with
    lastErrors := Function.update s.lastErrors kind none
    failures := Function.update s.failures kind 0
    nextAttempt := Function.update s.nextAttempt kind 0 }

/-- `_clear_backoff_if_stable`. -/
def World.clearBackoffIfStable : World :=
  match w.supervisor.connectedSince kind with
  | none => w
  | some since =>
    if w.now - since < 15 then w
    else
      let w := w.set fun s => s.forgiveBackoff kind
      if kind = .le ∧ w.supervisor.leDwellShouldForgiveClassic then
        w.set fun s => { s.forgiveBackoff .bredr with leDwellShouldForgiveClassic := false }
      else w

/-- The new state, and what LE means to the reset that is pending and to the budget. -/
def World.noteState (value : Option Bool) : World :=
  let previous := w.supervisor.states kind
  let w := w.saw (.observed kind previous value)
  let w := w.set fun s => { s with states := Function.update s.states kind value }
  match kind with
  | .bredr => w
  | .le =>
    let w := w.set fun s =>
      { s with
        leResetDownSeen := s.leResetDownSeen || (decide (value = some false) && s.leResetPending)
        leResetWanted :=
          if value = some false ∧ previous = some true then none else s.leResetWanted
        leTargetingHint := value.getD s.leTargetingHint }
    if value = some true then w else w.observeHealth false none

/-- A bearer that is new to be connected, or was connected. -/
def World.noteTransition (previous value : Option Bool) (deliberate : Bool) : World :=
  match kind with
  | .bredr =>
    let w :=
      if previous = some false ∧ value = some true ∧ w.supervisor.states .le ≠ some true then
        w.rearmLeDial
      else w
    let w := w.set fun s => { s with flaps := s.flaps.observeClassic previous value w.now }
    if value = some true ∧ previous ≠ some true then
      (w.notePresence false).set fun s => { s with bredrLastFailed := false }
    else w
  | .le =>
    let w :=
      if previous = some true ∧ value = some false then
        let w := w.rearmLeDial
        if !deliberate && !w.supervisor.flaps.disconnectSignalSeen then
          let lifetime := (w.supervisor.connectedSince .le).map fun since => w.now - since
          w.setFlaps (w.supervisor.flaps.recordDrop w.sight lifetime none w.now)
        else w
      else w
    if value = some true ∧ previous ≠ some true then
      let w := w.notePresence false
      w.set fun s => { s with flaps := s.flaps.observeLinkUp w.now }
    else w

/-- Since when the bearer is connected, and what this forgives. -/
def World.noteDwell (value : Option Bool) : World :=
  match value with
  | some true =>
    let w :=
      if w.supervisor.connectedSince kind = none then
        w.set fun s =>
          { s with
            connectedSince := Function.update s.connectedSince kind (some w.now)
            leDwellShouldForgiveClassic :=
              if kind = .le then
                decide (0 < s.failures .bredr) || decide (w.now < s.nextAttempt .bredr)
              else s.leDwellShouldForgiveClassic }
      else w
    let w := w.clearBackoffIfStable kind
    if kind = .le then
      w.setFlaps (w.supervisor.flaps.clearIfHeld (w.supervisor.connectedSince .le) w.now)
    else w
  | some false =>
    w.set fun s =>
      { s with
        connectedSince := Function.update s.connectedSince kind none
        leDwellShouldForgiveClassic := decide (kind ≠ .le) && s.leDwellShouldForgiveClassic }
  | none => w

/-- Whom a new state is told to. -/
def World.tellState (previous value : Option Bool) (notifyStatus : Bool) : World :=
  let w := if previous ≠ value ∧ kind = .le then w.tell (.leState value) else w
  let w :=
    if previous = value then w
    else if notifyStatus then w.tellStatus
    else w.set fun s => { s with statusDirty := true }
  if kind = .bredr then
    w.set fun s => { s with publishedReconnect := some s.reconnectSnapshot }
  else w

/-- `_update_state`. -/
def World.updateState (value : Option Bool) (deliberate : Bool) (notifyStatus : Bool) : World :=
  let w := w.settleInProgressConnect kind value
  let previous := w.supervisor.states kind
  let w := w.noteState kind value
  let w := w.noteTransition kind previous value deliberate
  let w := w.noteDwell kind value
  let w := w.tellState kind previous value notifyStatus
  if kind = .le ∧ value = some true then w.retargetPendingClassicConnect else w

/-- `_refresh_le_state`. -/
def World.refreshLeState (w : World) (notifyStatus : Bool) : World × Option Bool :=
  let previousLe := w.supervisor.states .le
  let previousObservation := w.supervisor.legacyObservation
  let (w, le) := w.read .le
  let w := w.updateState .le le false notifyStatus
  if previousLe = le ∧ previousObservation ≠ w.supervisor.legacyObservation then
    (w.tell (.leState le), le)
  else (w, le)

/-- `_refresh_states`. -/
def World.refreshStates (w : World) : World × Option Bool × Option Bool :=
  let previous := w.supervisor.states
  let (w, bredr) := w.read .bredr
  let w := w.updateState .bredr bredr false false
  let (w, le) := w.refreshLeState false
  let changed := decide (previous ≠ w.supervisor.states) || w.supervisor.statusDirty
  let w := w.set fun s => { s with statusDirty := false }
  (if changed then w.tellStatus else w, bredr, le)

/-- What an untargeted Connect of Classic observes when BlueZ says that it is connected already. -/
def World.rereadBearers (w : World) : World × Option Bool :=
  let (w, bredr) := w.read .bredr
  let w := w.updateState .bredr bredr false true
  if bredr = some true then (w, bredr) else ((w.refreshLeState true).1, bredr)

/-- `_connect_failed`. -/
def World.connectFailed (e : Failure) (generation id : Nat) : World :=
  w.connectFailedWith World.rereadBearers kind e generation id

/-- `_request_connect`. -/
def World.requestConnect : World :=
  w.requestConnectWith World.connectFailed kind

end

end BlueFerry.Bearers
