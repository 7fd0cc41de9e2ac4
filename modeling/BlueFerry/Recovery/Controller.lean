import BlueFerry.Recovery.Adapter

/-! # The recovery

`BluetoothRecovery`: it watches the controller and the health of the notifications, and after a long
outage, a soft reset and an answer of the phone over MAP it records an attempt and hands a power
cycle to the worker. A step is one handler of the main loop, one step of the worker, or a restart.

The reads of the controller are the asynchronous ones that the daemon passes in.
-/

namespace BlueFerry.Recovery

open BlueFerry.Text

def outageSeconds : ℚ := 300
def softResetSeconds : ℚ := 180
def resetSettleSeconds : ℚ := 60
def rearmSeconds : ℚ := 600
def hourlyLimitSeconds : ℚ := 3600
def healthProbeSeconds : ℚ := 60
def healthFreshSeconds : ℚ := 90

/-! ## The record -/

/-- `_known`. -/
def known (cfg : Config) (state : AdapterState) (p : Process) : Bool :=
  p.record.adapter == some state.address && p.record.phone == some cfg.phone && p.record.verified

/-- `_allowed`. -/
def allowed (cfg : Config) (env : Env) (state : AdapterState) (p : Process) : Bool :=
  known cfg state p && !p.cleanupPending && p.record.spent == some false
    && p.record.lastAttempt.any (fun last => hourlyLimitSeconds ≤ env.wall - last)

namespace World

/-- `_save`, with its result. -/
def save (result : Write) (record : AttemptRecord) (w : World) : World × Bool :=
  let w := { w with disk := { w.disk with record := result.stored w.disk.record record } }
  match result with
  | .done => ({ w with proc := { w.proc with record } }, true)
  | .lost => (w, false)
  | .unsynced => (w, false)

/-! ## The worker -/

section

variable (env : Env)

/-- `reserve_if_idle`. -/
def reserveIfIdle (p : Process) : Bool :=
  !p.closed && !p.reserved && p.job.isNone && p.probes.isEmpty && !env.workerBusy

/-- `submit` raises. -/
def refuses (reserved : Bool) (p : Process) : Bool :=
  p.closed || p.reserved != reserved || env.workerFull

/-! ## Invalidation -/

def updateWindow (f : Window → Window) (w : World) : World :=
  { w with proc := { w.proc with window := f w.proc.window } }

/-- `invalidate`. -/
def invalidate (suspended : Option Bool) (w : World) : World :=
  let p := { w.proc with
    generation := w.proc.generation + 1
    snapshotPending := false
    suspended := suspended.getD w.proc.suspended
    window := { identity := w.proc.window.identity
                lastObservation := w.proc.window.lastObservation
                proofFloor := env.clock } }
  let p :=
    if p.active then { p with cancelled := true }
    else if p.running && suspended == some false && p.resumePending then
      { p with resumePending := false }
    else p
  { w with proc := p }

/-- `_finished`. -/
def finished (w : World) : World :=
  let w := { w with proc := { w.proc with operationPending := false } }
  if w.proc.restorePending then w
  else
    let w := { w with proc := { w.proc with active := false, reserved := false } }
    let w := w.invalidate env (some w.proc.suspended)
    if w.proc.running && w.proc.suspended then
      { w with proc := { w.proc with resumePending := true } }
    else w

/-- `_snapshot_failed`. -/
def snapshotFailed (generation : Nat) (w : World) : World :=
  if generation ≠ w.proc.generation ∨ w.proc.running = false then w else w.invalidate env none

/-! ## Finishing an interrupted restoration -/

/-- `_continue_restoration` on a worker that is reserved. -/
def submitRestore (w : World) : World :=
  if w.proc.operationPending then w
  else
    let w := { w with proc := { w.proc with operationPending := true } }
    if refuses env true w.proc then w.finished env else w.setJob .restore

/-- `_continue_restoration`. -/
def continueRestoration (w : World) : World :=
  if w.proc.active then w.submitRestore env
  else if reserveIfIdle env w.proc = false then w
  else
    let w := { w with proc := { w.proc with reserved := true, active := true } }
    if env.pauseRaises then w.finished env else w.submitRestore env

/-- `start`. -/
def start (w : World) : World :=
  if w.proc.running then w
  else if env.monitorRaises then w
  else
    let w := { w with proc := { w.proc with running := true } }
    if w.proc.restorePending then w.continueRestoration env else w

/-! ## Looking at the controller -/

/-- `read_async`; `snapshotFailed` when it raises at once. -/
def readAsync (purpose : ReadPurpose) (generation : Nat) (w : World) : World :=
  if env.readRaises then w.invalidate env none
  else
    { w with proc := { w.proc with reads := w.proc.reads ++
        [{ purpose, generation
           revision := w.proc.revision
           incarnation := w.proc.incarnation }] } }

/-- `_tick`. -/
def tick (w : World) : World :=
  if w.proc.running = false then w
  else if w.proc.suspended then w
  else if env.blocked then (if w.proc.active then w else w.invalidate env none)
  else if w.proc.active ∨ w.proc.restorePending then w.continueRestoration env
  else
    let w := w.cleanupJournal env.cleans
    if w.proc.snapshotPending then w
    else
      let w := { w with proc := { w.proc with snapshotPending := true } }
      w.readAsync env .snapshot w.proc.generation

end

section

variable (cfg : Config) (env : Env)

section

variable (state : AdapterState)

/-- The healthy part of `_check`; `true` when it raises. -/
def checkHealthy (proof : Option ℚ) (w : World) : World × Bool :=
  let w := w.updateWindow (fun win =>
    { win with outageSince := none, leOutageSince := none, softResetAt := none })
  if known cfg state w.proc && w.proc.record.spent == some false then (w, false)
  else
    let old := proof.all (· < w.proc.window.proofFloor)
    if (old || proof.any (fun t => healthProbeSeconds ≤ env.clock - t)) && env.probeHealthRaises then
      (w, true)
    else if old || proof.any (fun t => healthFreshSeconds < env.clock - t) then
      (w.updateWindow (fun win => { win with healthySince := none }), false)
    else
      let since := w.proc.window.healthySince.getD env.clock
      let w := w.updateWindow (fun win => { win with healthySince := some since })
      if known cfg state w.proc = false then
        ((w.save env.saves { w.proc.record with
            adapter := some state.address
            phone := some cfg.phone
            verified := true
            spent := some false }).1, false)
      else if w.proc.record.spent ≠ some false ∧ rearmSeconds ≤ env.clock - since then
        ((w.save env.saves { w.proc.record with spent := some false }).1, false)
      else (w, false)

/-- The end of `_check`: the probe of the phone over MAP. -/
def startProbe (env : Env) (state : AdapterState) (w : World) : World :=
  if refuses env false w.proc then w.updateWindow (fun win => { win with probing := false })
  else
    let w := w.updateWindow (fun win => { win with probing := true })
    { w with proc := { w.proc with probes := w.proc.probes ++ [(w.proc.generation, state)] } }

/-- The end of `_check` for an outage: the soft reset, and the probe once all windows have passed. -/
def checkWindows (env : Env) (state : AdapterState) (leSince : ℚ) (w : World) : World × Bool :=
  if w.proc.window.probing then (w, false)
  else if w.proc.window.softResetAt = none ∧ softResetSeconds ≤ env.clock - leSince then
    match env.resetLe with
    | none => (w, true)
    | some false => (w, false)
    | some true => (w.updateWindow (fun win => { win with softResetAt := some env.clock }), false)
  else
    match w.proc.window.outageSince, w.proc.window.softResetAt with
    | some outage, some reset =>
      if env.clock - outage < outageSeconds ∨ env.clock - reset < resetSettleSeconds then
        (w, false)
      else (w.startProbe env state, false)
    | _, _ => (w, false)

/-- The part of `_check` for an outage; `true` when it raises. -/
def checkOutage (o : Observation) (w : World) : World × Bool :=
  let w := w.updateWindow (fun win => { win with healthySince := none })
  if o.busy then (w, false)
  else if !state.leResetSafe || !o.eligible || !known cfg state w.proc || w.proc.cleanupPending then
    (w.updateWindow (fun win =>
      { win with outageSince := none, leOutageSince := none, softResetAt := none }), false)
  else
    let leSince := w.proc.window.leOutageSince.getD env.clock
    let cycleAllowed := state.safe && allowed cfg env state w.proc
    let outage := fun win : Window =>
      if cycleAllowed then some (win.outageSince.getD env.clock) else none
    (w.updateWindow (fun win =>
      { win with leOutageSince := some leSince, outageSince := outage win })).checkWindows env state
        leSince

/-- `_check`; `true` when it raises. -/
def check (w : World) : World × Bool :=
  let w :=
    if w.proc.window.identity = some (state.owner, state.address) then w
    else (w.invalidate env none).updateWindow (fun win =>
      { win with identity := some (state.owner, state.address) })
  if state.powered = false then (w.invalidate env none, false)
  else
    let w := w.updateWindow (fun win =>
      if healthFreshSeconds < env.clock - win.lastObservation then
        { win with
          healthySince := none
          outageSince := none
          leOutageSince := none
          softResetAt := none
          lastObservation := env.clock }
      else { win with lastObservation := env.clock })
    match env.observed with
    | none => (w, true)
    | some o =>
      if o.healthy then w.checkHealthy cfg env state o.healthProof
      else w.checkOutage cfg env state o

/-- `_snapshot_ready`. -/
def snapshotReady (generation : Nat) (w : World) : World :=
  if generation ≠ w.proc.generation ∨ w.proc.running = false ∨ w.proc.suspended then w
  else
    let w := { w with proc := { w.proc with snapshotPending := false } }
    if w.proc.active ∨ w.proc.restorePending then w
    else
      match w.check cfg env state with
      | (w, false) => w
      | (w, true) => w.snapshotFailed env w.proc.generation

end

/-! ## The attempt -/

/-- `_probe_failed`. -/
def probeFailed (generation : Nat) (w : World) : World :=
  if generation ≠ w.proc.generation then w
  else w.updateWindow (fun win => { win with probing := false, outageSince := none })

/-- The end of `_after_probe`, once the attempt is recorded. -/
def beginCycle (env : Env) (current : AdapterState) (w : World) : World :=
  let attempt := w.attempts
  let w := { w with
    attempts := w.attempts + 1
    log := .attempted attempt env.wallLater :: w.log
    proc := { w.proc with active := true, operationPending := true, cancelled := false } }
  if env.pauseRaises || refuses env true w.proc then w.finished env
  else w.setJob (.cycle current attempt)

/-- The part of `_after_probe` with a fresh state of the controller. -/
def attemptCycle (expected current : AdapterState) (w : World) : World :=
  let w := w.updateWindow (fun win => { win with probing := false })
  match env.observed with
  | none => w.invalidate env none
  | some o =>
    if current ≠ expected ∨ current.safe = false ∨ o.healthy ∨ o.eligible = false ∨ o.busy
        ∨ allowed cfg env current w.proc = false ∨ reserveIfIdle env w.proc = false then w
    else
      let w := { w with proc := { w.proc with reserved := true } }
      match w.save env.saves { w.proc.record with
          spent := some true
          lastAttempt := some env.wallLater } with
      | (w, false) => { w with proc := { w.proc with reserved := false } }
      | (w, true) => w.beginCycle env current

/-- `_after_probe`, with the state of the controller in its second call. -/
def afterProbe (generation : Nat) (expected : AdapterState)
    (probedAt : ℚ) (current : Option AdapterState) (w : World) : World :=
  if generation ≠ w.proc.generation ∨ w.proc.running = false ∨ w.proc.suspended then w
  else if 30 < env.clock - probedAt
      ∨ w.proc.window.outageSince.all (fun since => env.clock - since < outageSeconds) then
    w.updateWindow (fun win => { win with probing := false })
  else
    match current with
    | none => w.readAsync env (.recheck expected probedAt) generation
    | some current => w.attemptCycle cfg env expected current

/-- The answer to an asynchronous read. -/
def readReplied (index : Nat) (reply : ReadReply) (w : World) : World :=
  match w.proc.reads[index]? with
  | none => w
  | some r =>
    let w := { w with proc := { w.proc with reads := w.proc.reads.eraseIdx index } }
    match readResult r.revision r.incarnation reply w.proc, r.purpose with
    | .state state, .snapshot => w.snapshotReady cfg env state r.generation
    | .state state, .recheck expected probedAt =>
      w.afterProbe cfg env r.generation expected probedAt (some state)
    | _, _ => w.snapshotFailed env r.generation

/-- The end of a probe on the worker; `none` is its error. -/
def probed (index : Nat) (result : Option ℚ) (w : World) : World :=
  match w.proc.probes[index]? with
  | none => w
  | some (generation, state) =>
    let w := { w with proc := { w.proc with probes := w.proc.probes.eraseIdx index } }
    match result with
    | none => w.probeFailed generation
    | some probedAt => w.afterProbe cfg env generation state probedAt none

section

variable (env : Env) (w : World)

/-- The callback of a job of the recovery. -/
def delivered : World :=
  if w.proc.job = some .finished then
    { w with proc := { w.proc with job := none } }.finished env
  else w

/-! ## The ends of a process -/

/-- `stop`. -/
def stop : World :=
  { w with proc := { w.proc with running := false } }.invalidate env none

/-- `forget_phone`. -/
def forgetPhone : World :=
  let w := w.invalidate env none
  (w.save env.saves { w.proc.record with verified := false, spent := some true }).1

/-- `ObexWorker.shutdown`, after `stop`: queued work is cancelled, a running job goes on. -/
def shutdown : World :=
  let w := w.stop env
  let job := match w.proc.job with
    | some (.cycle _ _) => none
    | some .restore => none
    | job => job
  { w with proc := { w.proc with closed := true, job } }

/-- A round of `finish_shutdown`: another restoration, or at last the journal. -/
def finishShutdown : World :=
  if w.proc.closed = false then w
  else if w.proc.job ≠ none ∧ w.proc.job ≠ some .finished then w
  else if w.proc.restorePending then w.beginRestore env
  else w.cleanupJournal env.cleans

end

/-- A new process: what it makes of the settings file (`__init__`, `reload_journal`). -/
def restart (w : World) : World :=
  let loaded := loadRestore cfg w.disk.restore
  { w with
    log := .restarted :: w.log
    proc :=
      { record := w.disk.record
        transaction := loaded
        held := loaded.isSome
        staleRecord := w.disk.restore != .absent && loaded.isNone
        window := { proofFloor := env.clock, lastObservation := env.clock } } }

end

end World

/-! ## Steps -/

inductive Action where
  | start
  | tick
  | readReplied (index : Nat) (reply : ReadReply)
  | probed (index : Nat) (result : Option ℚ)
  | delivered
  | invalidate (suspended : Option Bool)
  | stop
  | forgetPhone
  | propertiesChanged (powered : Option Bool)
  | topologyChanged (incarnation : Bool)
  | work (reply : World.Reply)
  | shutdown
  | finishShutdown
  | restart
  deriving DecidableEq

def World.act (cfg : Config) (env : Env) (action : Action) (w : World) : World :=
  match action with
  | .start => w.start env
  | .tick => w.tick env
  | .readReplied index reply => w.readReplied cfg env index reply
  | .probed index result => w.probed cfg env index result
  | .delivered => w.delivered env
  | .invalidate suspended => w.invalidate env suspended
  | .stop => w.stop env
  | .forgetPhone => w.forgetPhone env
  | .propertiesChanged powered => w.propertiesChanged env.cleans powered
  | .topologyChanged incarnation => w.topologyChanged incarnation
  | .work reply => w.work cfg env reply
  | .shutdown => w.shutdown env
  | .finishShutdown => w.finishShutdown env
  | .restart => w.restart cfg env

/-- One step, at the last reading of the clock. -/
def step (cfg : Config) (w : World) (input : Env × Action) : World :=
  { w with clock := input.1.wallLater }.act cfg input.1 input.2

end BlueFerry.Recovery
