import BlueFerry.Recovery.State

/-! # The adapter object

`BluezRecoveryAdapter`: the journal with its latch, the signals of BlueZ, and the two operations of
the worker, `cycle` and `restore`.

The operations are cut where the worker waits for the bus: between two of these points a handler of
the main loop may run, and after each of them the process may be gone. What lies between them,
reading the kernel's directory and writing the settings file included, is one step.
-/

namespace BlueFerry.Recovery

open BlueFerry.Text

namespace World

/-! ## The journal -/

/-- `cleanup_journal`. -/
def cleanupJournal (result : Write) (w : World) : World :=
  if w.proc.cleanupPending = false then w
  else
    let w := { w with disk := { w.disk with restore := result.stored w.disk.restore .absent } }
    match result with
    | .done => { w with proc := { w.proc with held := false, staleRecord := false } }
    | .lost => w
    | .unsynced => w

/-- Sets the latch of the transaction. -/
def latch (t : PowerRestore) (w : World) : World :=
  { w with
    proc := { w.proc with transaction := some { t with completed := true } }
    log := .completed t.attempt :: w.log }

/-- `_complete_restore`. -/
def completeRestore (result : Write) (t : PowerRestore) (w : World) : World :=
  let w := w.latch t
  if w.proc.held then w.cleanupJournal result else w

/-- `_persist_restore`. -/
def persistRestore (cfg : Config) (result : Write) (t : PowerRestore) (phase : Phase) (w : World) :
    World :=
  { w with disk := { w.disk with
      restore := result.stored w.disk.restore (.journal (journalOf cfg t phase)) } }

/-! ## Signals -/

/-- `_properties_changed` of the controller. `powered` is the new value of `Powered`, if it is among
the changes. -/
def propertiesChanged (result : Write) (powered : Option Bool) (w : World) : World :=
  let w := match w.proc.restore, powered with
    | some t, some false =>
      { w with proc := { w.proc with transaction := some { t with sawOff := true } } }
    | some t, some true => if t.sawOff then w.completeRestore result t else w
    | _, _ => w
  { w with proc := { w.proc with revision := w.proc.revision + 1 } }

/-- `_interfaces_changed`, `_owner_changed` and `_properties_changed` of a device. -/
def topologyChanged (incarnation : Bool) (w : World) : World :=
  { w with proc := { w.proc with
      revision := w.proc.revision + 1
      incarnation := w.proc.incarnation + if incarnation then 1 else 0 } }

/-! ## The operations of the worker -/

def setJob (job : Job) (w : World) : World := { w with proc := { w.proc with job := some job } }

/-- How `read` ends. -/
inductive ReadResult where
  | state (s : AdapterState)
  /-- the controller is gone, as `_restoration_state` counts it -/
  | gone
  | raised
  deriving DecidableEq

/-- `read`, from the reply of the bus and the counters it started with. -/
def readResult (revision incarnation : Nat) (reply : ReadReply) (p : Process) : ReadResult :=
  match reply with
  | .vanished => .gone
  | .failed => .raised
  | .objects owner objects =>
    match stateFromObjects owner objects revision incarnation with
    | none => .gone
    | some s => if revision ≠ p.revision then .raised else .state s

/-- The answer that the worker was waiting for. -/
inductive Reply where
  /-- the worker takes up the job -/
  | begin
  /-- `GetId`; `none` when it raises -/
  | busId (id : Option Str)
  | read (reply : ReadReply)
  /-- the reply to a `Set`, or its error -/
  | set (succeeded : Bool)
  deriving DecidableEq

/-- `restore`, up to its first wait. -/
def beginRestore (env : Env) (w : World) : World :=
  let w := w.cleanupJournal env.cleans
  match w.proc.restore with
  | none => w.setJob .finished
  | some t => if t.completed then w.setJob .finished else w.setJob .restoreBus

/-- Gives the controller up: the latch is set, and the operation ends. -/
def abandon (env : Env) (t : PowerRestore) (w : World) : World :=
  (w.completeRestore env.cleans t).setJob .finished

/-- `_restoration_state`, up to its wait. -/
def beginRestorationState (env : Env) (stat : Stat) (again : Bool) (t : PowerRestore) (w : World) :
    World :=
  match stat with
  | .missing => w.abandon env t
  | .failed => w.setJob .finished
  | .found device inode =>
    if instanceText device inode ≠ t.adapterInstance
        ∨ w.proc.incarnation ≠ t.expected.incarnation then w.abandon env t
    else w.setJob (.restoreRead w.proc.revision w.proc.incarnation again)

section

variable (cfg : Config) (env : Env)

/-- `restore` with the first state of the controller. -/
def restoreFrom (t : PowerRestore) (current : AdapterState) (w : World) : World :=
  if current.powerState.settled = false then w.setJob .finished
  else if current.powered then w.abandon env t
  else if t.completed then w.abandon env t
  else if w.proc.incarnation ≠ t.expected.incarnation then w.abandon env t
  else
    let t := { t with sawOff := true }
    let w := { w with proc := { w.proc with transaction := some t } }
    -- a failed write of the phase does not keep the radio off
    let w := w.persistRestore cfg env.journals t .on
    w.beginRestorationState env env.statAgain true t

/-- `restore` with the second state of the controller: the power-on. -/
def powerOn (env : Env) (t : PowerRestore) (current : AdapterState) (w : World) : World :=
  if t.completed ∨ current.powered ∨ current.powerState.settled = false then
    if t.completed ∨ (current.powered ∧ current.powerState.settled) then w.abandon env t
    else w.setJob .finished
  else { w.setJob .powerOn with log := .powerOn t.attempt :: w.log }

/-- `_restoration_state` and what `restore` does with it. -/
def restorationState (again : Bool) (t : PowerRestore) (result : ReadResult) (w : World) : World :=
  match result with
  | .gone => w.abandon env t
  | .raised => w.setJob .finished
  | .state current =>
    if current.owner ≠ t.expected.owner ∨ current.address ≠ t.expected.address
        ∨ current.incarnation ≠ t.expected.incarnation then w.abandon env t
    else if current.powerState = .offBlocked then w.abandon env t
    else if again then w.powerOn env t current
    else w.restoreFrom cfg env t current

/-- `cycle` with the id of the bus: the journal, and then the last look at the controller. -/
def journalCycle (expected : AdapterState) (attempt : Nat) (busId : Str) (w : World) : World :=
  match env.stat with
  | .missing => w.setJob .finished
  | .failed => w.setJob .finished
  | .found device inode =>
    let t : PowerRestore :=
      { expected, busId, adapterInstance := instanceText device inode, attempt }
    let w := w.persistRestore cfg env.journals t .off
    if env.journals ≠ .done then w.setJob .finished
    else
      let w := { w with proc := { w.proc with transaction := some t, held := true } }
      if env.statAgain.text ≠ some t.adapterInstance then w.abandon env t
      else w.setJob (.cycleRead expected w.proc.revision w.proc.incarnation)

/-- `cycle` with its last look at the controller: the power-off. -/
def powerOff (env : Env) (expected : AdapterState) (t : PowerRestore) (result : ReadResult)
    (w : World) : World :=
  match result with
  | .gone => w.abandon env t
  | .raised => w.abandon env t
  | .state current =>
    if w.proc.cancelled ∨ current ≠ expected ∨ current.safe = false
        ∨ w.proc.revision ≠ current.revision ∨ t.completed then w.abandon env t
    else
      { w.setJob .powerOff with
        log := .powerOff
          { attempt := t.attempt
            time := env.wallLater
            disk := w.disk
            restore := w.proc.restore
            cleanupPending := w.proc.cleanupPending } :: w.log }

/-- One step of the worker. An answer that the job does not wait for is none. -/
def work (reply : Reply) (w : World) : World :=
  match w.proc.job, reply with
  | some (.cycle expected attempt), .begin =>
    if w.proc.restorePending || w.proc.cleanupPending then w.setJob .finished
    else w.setJob (.cycleBus expected attempt)
  | some (.cycleBus _ _), .busId none => w.setJob .finished
  | some (.cycleBus expected attempt), .busId (some id) =>
    w.journalCycle cfg env expected attempt id
  | some (.cycleRead expected revision incarnation), .read reply =>
    match w.proc.transaction with
    | none => w
    | some t => w.powerOff env expected t (readResult revision incarnation reply w.proc)
  | some .powerOff, .set _ => w.beginRestore env
  | some .restore, .begin => w.beginRestore env
  | some .restoreBus, .busId none => w.setJob .finished
  | some .restoreBus, .busId (some id) =>
    match w.proc.transaction with
    | none => w
    | some t =>
      if id ≠ t.busId then w.abandon env t
      else w.beginRestorationState env env.stat false t
  | some (.restoreRead revision incarnation again), .read reply =>
    match w.proc.transaction with
    | none => w
    | some t =>
      w.restorationState cfg env again t (readResult revision incarnation reply w.proc)
  | some .powerOn, .set succeeded =>
    match w.proc.transaction with
    | none => w
    | some t => if succeeded then w.abandon env t else w.setJob .finished
  | _, _ => w

end

end World

end BlueFerry.Recovery
