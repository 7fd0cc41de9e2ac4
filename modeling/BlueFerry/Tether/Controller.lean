import BlueFerry.Tether.State

/-! # The tether controller

`tether.py`: the methods of `TetherController` and of its `NetworkLinkWatch`, and the steps of a
run. The methods stand in the order in which they call each other.
-/

namespace BlueFerry.Tether

open BlueFerry.Text

/-! ## Attempts -/

/-- `_schedule_auto_retry`. -/
def World.scheduleAutoRetry (w : World) : World :=
  let t := w.tether
  if !t.enabled ∨ !t.autoconnect ∨ t.autoSuppressed ∨ !t.running then w
  else if (w.timerIds .retry).isSome then w
  else
    (w.set fun t => { t with autoFailures := t.autoFailures + 1 }).schedule
      (min 600 (30 * 2 ^ min t.autoFailures 10)) .retry

/-- `_failed`; the backend is told to cancel. -/
def World.failed (w : World) (r : Reading) (generation : Nat) (token : Str) : World :=
  if generation ≠ w.tether.generation then w
  else
    let w := w.supersede.cancelDeadline
    (w.setState r.net .failed (some (publicToken token GENERIC_ERROR)) (some [])).scheduleAutoRetry

section

variable (w : World) (r : Reading)

/-- The backend is chosen, and takes the attempt or raises. -/
def World.hand (generation : Nat) (backend : BackendName) : World :=
  let w := (w.set fun t => { t with backend := some backend }).publish
  let w := w.record (.handed w.tether.enabled)
  if r.raises generation then w.failed r generation GENERIC_ERROR else w.ask (.attempt generation)

/-- `chosen` of `connect`; a backend chosen too late is told to cancel. -/
def World.chosen (generation : Nat) (backend : BackendName) : World :=
  if generation ≠ w.tether.generation then w else w.hand r generation backend

/-- The end of `connect`: the attempt begins. -/
def World.begin (automatic : Bool) : World :=
  let w := w.supersede.set fun t => { t with external := false }
  let generation := w.tether.generation
  let w := w.setState r.net .connecting (some []) (some [])
  let w := (w.schedule 90 (.deadline generation)).record
    (.began automatic w.tether.enabled w.tether.autoconnect)
  match r.choice generation with
  | .later => w.ask (.chooseConnect generation)
  | .now backend => w.chosen r generation backend
  | .failed token => w.failed r generation token

/-- What `connect` raises. -/
inductive Refusal where
  | disabled
  | stillDisconnecting
  | notReady
  deriving DecidableEq

def Refusal.message : Refusal → Str
  | .disabled =>
    ("Bluetooth tethering is turned off; enable it in BlueFerry's " ++
      "iPhone settings or with 'blueferry tether enable'").toList
  | .stillDisconnecting => "tethering is still disconnecting; try again shortly".toList
  | .notReady =>
    ("the iPhone is not connected over Bluetooth yet; tethering " ++
      "uses the existing connection").toList

/-- An explicit `connect` ends the pause of automatic attempts. -/
def World.permitConnect (w : World) : World :=
  (((w.record .connectRequested).suppressAuto false).set fun t =>
    { t with autoFailures := 0 }).cancelRetry

/-- `connect`. -/
def World.connect (automatic : Bool) : World × Option Refusal :=
  if !w.tether.enabled then (w, some .disabled)
  else
    let w := if automatic then w else w.permitConnect
    if w.tether.state = .connecting ∨ w.tether.state = .connected then (w, none)
    else if w.tether.state = .disconnecting then (w, some .stillDisconnecting)
    else if !r.classicReady then (w, some .notReady)
    else (w.begin r automatic, none)

/-- What `maybe_autoconnect` waits for. -/
def World.mayAutoconnect (w : World) : Bool :=
  let t := w.tether
  t.enabled && t.autoconnect && !t.autoSuppressed && t.running && !t.initialProbePending &&
    decide (t.state = .off ∨ t.state = .failed) && (w.timerIds .retry).isNone

/-- `maybe_autoconnect`. -/
def World.maybeAutoconnect : World :=
  if !w.mayAutoconnect then w
  else if !r.classicReady ∨ !r.autoconnectReady then w
  else (w.connect r true).1

/-- `_connected`. -/
def World.connected (w : World) (r : Reading) (generation : Nat) (interface : Str) : World :=
  if generation ≠ w.tether.generation ∨ w.tether.state ≠ .connecting then w
  else
    (w.cancelDeadline.set fun t => { t with autoFailures := 0, connectedAt := some r.now }).setState
      r.net .connected (some []) (some (r.net.safeInterface interface))

/-- The user turned the tether off elsewhere. -/
def World.turnedOffOutside (w : World) (r : Reading) : World :=
  (((w.record .turnedOffOutside).suppressAuto true).cancelRetry).setState r.net .off (some [])
    (some [])

/-- `_lost`. -/
def World.lost (generation : Nat) (token : Str) (userRequested : Bool) : World :=
  if generation ≠ w.tether.generation then w
  else
    let w := w.supersede.cancelDeadline.cancelConfirm
    if userRequested then w.turnedOffOutside r
    else if w.tether.state ≠ .connecting ∧ w.tether.state ≠ .connected then w
    else
      (w.setState r.net .off (some (publicToken token LINK_LOST)) (some [])).scheduleAutoRetry

/-- `_deadline`; what may still complete is withdrawn from the backend. -/
def World.deadline (w : World) (r : Reading) (generation : Nat) : World :=
  let w := w.forget .deadline
  if generation = w.tether.generation ∧ w.tether.state = .connecting then
    w.failed r generation TIMEOUT
  else w

/-! ## The link -/

/-- A link that is there is another tool's. -/
def World.adopt (w : World) : World :=
  (w.record (.adopted w.tether.enabled)).set fun t => { t with external := true }

/-- `_finish_disconnect`. -/
def World.finishDisconnect : World :=
  ((w.set fun t => { t with awaitingLinkDown := false }).cancelConfirm.set fun t =>
    { t with external := false }).setState r.net .off (some []) (some [])

/-- `_link_after_disconnect`. -/
def World.linkAfterDisconnect (connected : Bool) (interface : Str) : World :=
  if !connected then w.finishDisconnect r
  else if !w.tether.linkDownGraceSpent then
    (w.set fun t => { t with linkDownGraceSpent := true }).cancelConfirm.schedule 3 .confirm
  else
    (w.set fun t => { t with awaitingLinkDown := false }).adopt.setState r.net .connected
      (some GENERIC_ERROR) (some (r.net.safeInterface interface))

/-- A tether that was connected is down. -/
def World.linkDown : World :=
  let external := w.tether.external
  let stopped := decide (w.tether.error ≠ []) && w.tether.autoSuppressed
  let w := w.set fun t => { t with external := false }
  if stopped then w.setState r.net .off (some []) (some [])
  else
    let w := w.setState r.net .off (some LINK_LOST) (some [])
    if external then w else w.scheduleAutoRetry

/-- A link is up that this controller does not know of. -/
def World.linkUp (interface : Str) : World :=
  (w.adopt.set fun t => { t with connectedAt := some r.now }).setState r.net .connected (some [])
    (some (r.net.safeInterface interface))

/-- `_observe_link`. -/
def World.observeKnownLink (connected : Bool) (interface : Str) : World :=
  let t := w.tether
  if t.awaitingLinkDown ∧ t.state = .disconnecting then w.linkAfterDisconnect r connected interface
  else if connected then
    if t.state = .off ∨ t.state = .failed then w.linkUp r interface
    else if t.state = .connected ∧ interface ≠ [] ∧ t.interface = [] then
      w.setState r.net .connected none (some (r.net.safeInterface interface))
    else w
  else if t.state = .connected then w.linkDown r
  else w

/-- `observe_link`. -/
def World.observeLink (connected : Option Bool) (interface : Str) : World :=
  if !w.tether.enabled then w
  else
    match connected with
    | none =>
      if w.tether.awaitingLinkDown then
        ((w.set fun t => { t with awaitingLinkDown := false }).cancelConfirm.adopt).setState
          r.net .connected (some GENERIC_ERROR) none
      else w
    | some connected =>
      let initialProbe := w.tether.initialProbePending
      let w := w.set fun t => { t with initialProbePending := false }
      let w := w.observeKnownLink r connected interface
      if initialProbe then w.maybeAutoconnect r else w

/-! ## The link watch -/

/-- `_schedule_retry`. -/
def World.scheduleProbe (w : World) (generation : Nat) : World :=
  let delay := min 60 (5 * 2 ^ min w.watch.retryFailures 10)
  ({ w with watch := { w.watch with retryFailures := w.watch.retryFailures + 1 } } : World).schedule
    delay (.probe generation)

/-- `reply` of `probe`. -/
def World.probeReplied (generation : Nat) (connected : Bool) (interface : Str) : World :=
  if generation ≠ w.watch.generation then w
  else
    ({ w with watch := { w.watch with retryFailures := 0 } } : World).observeLink r
      (some connected) (r.net.safeInterface interface)

/-- `failed` of `probe`. -/
def World.probeFailed (generation : Nat) (name : Str) : World :=
  if generation ≠ w.watch.generation then w
  else if name ∈ linkAbsentNames then
    ({ w with watch := { w.watch with retryFailures := 0 } } : World).observeLink r (some false) []
  else
    let w := w.observeLink r none []
    if generation = w.watch.generation then w.scheduleProbe generation else w

/-- What is read before is stale. -/
def World.supersedeProbe (w : World) : World :=
  { w.cancel .probe with watch := { w.watch with generation := w.watch.generation + 1 } }

/-- `probe`. -/
def World.probe : World :=
  let w := w.supersedeProbe
  match r.getAll w.watch.generation with
  | some name => w.probeFailed r w.watch.generation name
  | none => w.ask (.getAll w.watch.generation)

/-- `start` of the watch. -/
def World.watchStart : World :=
  ({ w with watch := { w.watch with subscribed := true } } : World).probe r

/-- `stop` of the watch. -/
def World.watchStop (w : World) : World :=
  let w := w.supersedeProbe
  { w with watch := { w.watch with retryFailures := 0, subscribed := false } }

/-- `_properties_changed`, which a live watch is told: the interface whose properties changed, and
`Connected` and `Interface` if they are among them. -/
def World.propertiesChanged (network : Bool) (connected : Option Bool) (interface : Str) : World :=
  match connected with
  | none => w
  | some connected =>
    if !w.watch.subscribed ∨ !network then w
    else
      let w := w.supersedeProbe
      ({ w with watch := { w.watch with retryFailures := 0 } } : World).observeLink r
        (some connected) (r.net.safeInterface interface)

/-! ## Stops -/

/-- `_disconnected`. -/
def World.disconnected (generation : Nat) (external : Bool) : World :=
  if generation ≠ w.tether.generation then w
  else if external ∧ w.tether.watching then
    (w.set fun t => { t with awaitingLinkDown := true, linkDownGraceSpent := false }).probe r
  else w.finishDisconnect r

/-- `_disconnect_failed`. -/
def World.disconnectFailed (generation : Nat) (token : Str) : World :=
  if generation ≠ w.tether.generation then w
  else if !w.tether.enabled then w.setState r.net .off (some []) (some [])
  else
    let token := publicToken token GENERIC_ERROR
    let w :=
      if w.tether.connectedAt.isSome then w.setState r.net .connected (some token) none
      else w.setState r.net .failed (some token) (some [])
    if w.tether.watching then w.probe r else w

/-- `run` of `disconnect`. -/
def World.runStop (generation : Nat) (external : Bool) (backend : BackendName) : World :=
  if generation ≠ w.tether.generation then w
  else
    let w := w.set fun t => { t with backend := some backend }
    if r.raises generation then w.disconnectFailed r generation GENERIC_ERROR
    else w.ask (.stop generation external)

/-- The end of `disconnect`: the stop begins. An adopted link has no backend yet. -/
def World.beginStop : World :=
  let w := w.supersede.cancelDeadline.cancelConfirm
  let generation := w.tether.generation
  let external := w.tether.external
  let own := if external then none else w.tether.backend
  let w := w.setState r.net .disconnecting none none
  match own with
  | some backend => w.runStop r generation external backend
  | none =>
    match r.choice generation with
    | .later => w.ask (.chooseStop generation external)
    | .now backend => w.runStop r generation external backend
    | .failed token => w.disconnectFailed r generation token

/-- `disconnect`. -/
def World.disconnect : World :=
  let w := ((w.record .stopRequested).suppressAuto true).cancelRetry
  if w.tether.state = .disconnecting then w
  else if w.tether.state = .off ∨ w.tether.state = .failed then
    w.setState r.net .off (some []) (some [])
  else w.beginStop r

/-! ## The life of the controller -/

/-- `_start_watch`. -/
def World.startWatch : World :=
  if w.tether.watching ∨ !w.tether.running then w
  else (w.set fun t => { t with watching := true, initialProbePending := true }).watchStart r

/-- `_stop_watch`. -/
def World.stopWatch (w : World) : World :=
  let w := w.set fun t => { t with initialProbePending := true }
  if !w.tether.watching then w
  else (w.set fun t => { t with watching := false }).watchStop

/-- `start`. -/
def World.startUp : World :=
  if w.tether.running then w
  else
    let w := w.set fun t => { t with running := true }
    if w.tether.enabled then w.startWatch r else w

/-- What `_disable` does to the link: it is stopped if it is ours, else forgotten, unless a stop is
in flight. -/
def World.releaseLink : World :=
  let t := w.tether
  if (t.state = .connecting ∨ t.state = .connected) ∧ !t.external then w.disconnect r
  else if t.state ≠ .disconnecting ∨ t.awaitingLinkDown then
    (w.supersede.cancelDeadline.set fun t => { t with external := false }).setState r.net .off
      (some []) (some [])
  else w

/-- `_disable`. -/
def World.disable : World :=
  let w := w.cancelRetry.releaseLink r
  (w.set fun t => { t with awaitingLinkDown := false }).cancelConfirm.stopWatch

/-- Automatic tethering is turned on. -/
def World.switchOn : World :=
  (((w.record .switchedOn).suppressAuto false).set fun t =>
    { t with autoFailures := 0 }).maybeAutoconnect r

/-- `configure`. -/
def World.configure (enabled autoconnect : Bool) : World :=
  let wasEnabled := w.tether.enabled
  let wasAuto := w.tether.autoconnect
  let w := w.set fun t => { t with enabled := enabled, autoconnect := autoconnect }
  let w :=
    if !enabled then w.disable r
    else if !wasEnabled then w.startWatch r
    else w
  let w :=
    if enabled ∧ autoconnect ∧ ¬ (wasEnabled ∧ wasAuto) then w.switchOn r
    else if !autoconnect then w.cancelRetry
    else w
  if (enabled, autoconnect) ≠ (wasEnabled, wasAuto) then w.publish else w

/-- `reset_after_bluez_restart`; the backend is told to cancel. -/
def World.resetAfterBluezRestart : World :=
  let wasActive := decide (w.tether.state ∈ [.connecting, .connected, .disconnecting])
  let wasExternal := w.tether.external
  let w := w.supersede.cancelDeadline.cancelConfirm.set fun t =>
    { t with awaitingLinkDown := false, backend := none, external := false }
  let w := w.setState r.net .off (some (if wasActive then LINK_LOST else [])) (some [])
  let w := if w.tether.watching then w.probe r else w
  if wasActive && !wasExternal then w.scheduleAutoRetry else w

/-! ## What is read of it -/

/-- `snapshot`. -/
structure Snapshot where
  state : TetherState
  interface : Str
  backend : Option BackendName
  external : Bool
  error : Str
  needsDhcp : Bool
  enabled : Bool
  autoconnect : Bool
  deriving DecidableEq

def TetherController.snapshot (t : TetherController) : Snapshot where
  state := t.state
  interface := if t.state = .connected then t.interface else []
  backend := if t.external then none else t.backend
  external := t.external && decide (t.state = .connected)
  error := t.error
  needsDhcp := decide (t.state = .connected) && !t.external && decide (t.backend = some .bluez)
  enabled := t.enabled
  autoconnect := t.autoconnect

/-- `_follow_rename`. -/
def World.followRename : World × Bool :=
  let renamed := r.net.findBluetooth w.tether.ifindex
  if renamed = [] ∨ !r.net.present renamed then (w, false)
  else
    ((w.set fun t => { t with interface := renamed, ifindex := r.net.index renamed }).publish, true)

/-- `link_alive`. -/
def World.linkAlive : World × Bool :=
  let t := w.tether
  if !t.enabled ∨ t.state ≠ .connected then (w, false)
  else if t.interface ≠ [] then
    if r.net.present t.interface then (w, true) else w.followRename r
  else (w, t.connectedAt.any fun since => r.now - since < 600)

/-- `probe_link`. -/
def World.probeLink : World :=
  if w.tether.state = .connected ∧ w.tether.watching then w.probe r else w

/-! ## Steps -/

/-- The callback of a timer. -/
def World.fire : Timer → World
  | .deadline generation => w.deadline r generation
  | .retry => (w.forget .retry).maybeAutoconnect r
  | .confirm =>
    let w := w.forget .confirm
    if w.tether.awaitingLinkDown then w.probe r else w
  | .probe generation =>
    let w := w.forget .probe
    if generation = w.watch.generation then w.probe r else w

/-- What a call may be answered. -/
inductive Answer where
  | chosen (backend : BackendName)
  | failed (token : Str)
  | connected (interface : Str)
  | lost (token : Str) (userRequested : Bool)
  | done
  | link (connected : Bool) (interface : Str)
  | error (name : Str)
  deriving DecidableEq

/-- The callback of a request. -/
def World.reply (request : Request) (answer : Answer) : World :=
  match request, answer with
  | .chooseConnect generation, .chosen backend => w.chosen r generation backend
  | .chooseConnect generation, .failed token => w.failed r generation token
  | .attempt generation, .connected interface => w.connected r generation interface
  | .attempt generation, .failed token => w.failed r generation token
  | .attempt generation, .lost token userRequested => w.lost r generation token userRequested
  | .chooseStop generation external, .chosen backend => w.runStop r generation external backend
  | .chooseStop generation _, .failed token => w.disconnectFailed r generation token
  | .stop generation external, .done => w.disconnected r generation external
  | .stop generation _, .failed token => w.disconnectFailed r generation token
  | .getAll generation, .link connected interface => w.probeReplied r generation connected interface
  | .getAll generation, .error name => w.probeFailed r generation name
  | _, _ => w

end

/-- The callbacks that a request has. -/
def Request.admits : Request → Answer → Bool
  | .chooseConnect _, .chosen _ => true
  | .chooseConnect _, .failed _ => true
  | .attempt _, .connected _ => true
  | .attempt _, .failed _ => true
  | .attempt _, .lost _ _ => true
  | .chooseStop _ _, .chosen _ => true
  | .chooseStop _ _, .failed _ => true
  | .stop _ _, .done => true
  | .stop _ _, .failed _ => true
  | .getAll _, .link _ _ => true
  | .getAll _, .error _ => true
  | _, _ => false

/-- An attempt that was handed to a backend may call back again. -/
def Request.repeats : Request → Bool
  | .attempt _ => true
  | _ => false

inductive Input where
  | start
  | configure (enabled autoconnect : Bool)
  | connect
  | disconnect
  | maybeAutoconnect
  | probeLink
  | linkAlive
  | bluezRestarted
  | propertiesChanged (network : Bool) (connected : Option Bool) (interface : Str)
  /-- the event loop fires a timer, if it is armed -/
  | fired (n : Nat)
  /-- a call is answered -/
  | answered (n : Nat) (answer : Answer)
  deriving DecidableEq

def step (w : World) (i : Input × Reading) : World :=
  match i.1 with
  | .start => w.startUp i.2
  | .configure enabled autoconnect => w.configure i.2 enabled autoconnect
  | .connect => (w.connect i.2 false).1
  | .disconnect => w.disconnect i.2
  | .maybeAutoconnect => w.maybeAutoconnect i.2
  | .probeLink => w.probeLink i.2
  | .linkAlive => (w.linkAlive i.2).1
  | .bluezRestarted => w.resetAfterBluezRestart i.2
  | .propertiesChanged network connected interface =>
    w.propertiesChanged i.2 network connected interface
  | .fired n =>
    match w.timers.get n with
    | none => w
    | some armed => ({ w with timers := w.timers.take n } : World).fire i.2 armed.timer
  | .answered n answer =>
    match w.requests.get n with
    | none => w
    | some request =>
      if !request.admits answer then w
      else if request.repeats then w.reply i.2 request answer
      else ({ w with requests := w.requests.take n } : World).reply i.2 request answer

end BlueFerry.Tether
