import BlueFerry.Text.CaseMapping

/-! # The state of the adapter recovery

`bluetooth_recovery.py` turns the selected controller off and on again when notifications stay away.
Two things of it survive the process, both in the settings file: the record of the attempts, and the
journal of a power-off that has not been undone yet. `World` is the settings file, the running
process, and a log of what it asked of the controller.

Times are seconds, as rational numbers. Every write of the settings file may fail, before or after
the file was replaced (`Write`).
-/

namespace BlueFerry.Recovery

open BlueFerry.Text

/-! ## The controller, as BlueZ shows it -/

/-- The values of `PowerState` that the code tells apart. -/
inductive PowerState where
  | on
  | off
  | offBlocked
  /-- a transition, an unknown value, or no such property -/
  | other (text : Str)
  deriving DecidableEq

/-- `power_state in {"on", "off"}`. -/
def PowerState.settled : PowerState → Bool
  | on => true
  | off => true
  | offBlocked => false
  | other _ => false

/-- `AdapterState`. -/
structure AdapterState where
  owner : Str
  address : Str
  powered : Bool
  safe : Bool
  powerState : PowerState := .on
  revision : Nat := 0
  incarnation : Nat := 0
  leResetSafe : Bool := false
  deriving DecidableEq

/-- The properties of `org.bluez.Adapter1`; `none` where BlueZ leaves one out. -/
structure AdapterProperties where
  address : Str
  powered : Bool
  powerState : PowerState
  discovering : Option Bool
  discoverable : Option Bool
  deriving DecidableEq

/-- The properties of a `Device1` and of its two bearers. -/
structure DeviceProperties where
  connected : Option Bool
  paired : Option Bool
  bonded : Option Bool
  blocked : Option Bool
  leConnected : Option Bool
  bredrConnected : Option Bool
  deriving DecidableEq

/-- `GetManagedObjects`, below the path of the controller. -/
structure Objects where
  /-- `none`: the controller is not there -/
  adapter : Option AdapterProperties
  phone : Option DeviceProperties
  others : List DeviceProperties
  deriving DecidableEq

/-- Another device keeps the controller from being cycled. -/
def DeviceProperties.shares (d : DeviceProperties) : Bool :=
  d.connected.getD true || d.paired.getD false || d.bonded.getD false || d.leConnected.getD false
    || d.bredrConnected.getD false

/-- `_state_from_objects`, but for the check of the revision; `none` is the `KeyError`. -/
def stateFromObjects (owner : Str) (objects : Objects) (revision incarnation : Nat) :
    Option AdapterState :=
  objects.adapter.map (fun props =>
    let bonded := (objects.phone.bind (fun d => d.bonded.or d.paired)).getD false
    let blocked := (objects.phone.bind (·.blocked)).getD false
    let leResetSafe := props.powered && props.powerState == .on && bonded && !blocked
    { owner
      address := upper props.address
      powered := props.powered
      safe := leResetSafe && !props.discovering.getD true && !props.discoverable.getD true
        && objects.others.all (fun d => !d.shares)
      powerState := props.powerState
      revision, incarnation, leResetSafe })

/-- How an inspection of the controller ends on the bus. -/
inductive ReadReply where
  | objects (owner : Str) (o : Objects)
  /-- `NameHasNoOwner`, `ServiceUnknown` or `UnknownObject` -/
  | vanished
  /-- any other error -/
  | failed
  deriving DecidableEq

/-- `_adapter_instance`: the kernel's directory of the controller. -/
inductive Stat where
  | found (device inode : Nat)
  /-- `FileNotFoundError` -/
  | missing
  | failed
  deriving DecidableEq

/-- The text of an instance. -/
def instanceText (device inode : Nat) : Str :=
  (toString device).toList ++ ':' :: (toString inode).toList

/-- The instance, unless reading it raises. -/
def Stat.text : Stat → Option Str
  | found device inode => some (instanceText device inode)
  | missing => none
  | failed => none

/-! ## The settings file -/

/-- How a write of the settings file ends. -/
inductive Write where
  | done
  /-- an error, with the old file in place -/
  | lost
  /-- an error after the file was replaced: the directory could not be synchronized -/
  | unsynced
  deriving DecidableEq

/-- What is on disk after the write of `new` over `old`. -/
def Write.stored {α : Type} (result : Write) (old new : α) : α :=
  match result with
  | done => new
  | lost => old
  | unsynced => new

/-- The record under `BLUETOOTH_RECOVERY_KEY`. -/
structure AttemptRecord where
  adapter : Option Str := none
  phone : Option Str := none
  verified : Bool := false
  spent : Option Bool := none
  /-- `record.get("last_attempt", 0)`; `none` when this is no finite number -/
  lastAttempt : Option ℚ := some 0
  deriving DecidableEq

/-- The phases of a journal. -/
inductive Phase where
  | off
  | on
  deriving DecidableEq

/-- The journal of a power-off. `attempt` names the attempt it belongs to, and is not stored. -/
structure Journal where
  path : Str
  device : Str
  owner : Str
  address : Str
  busId : Str
  adapterInstance : Str
  phase : Phase
  attempt : Nat
  deriving DecidableEq

/-- The value under `BLUETOOTH_RESTORE_KEY`. -/
inductive Saved where
  | absent
  /-- no object of version 1 with texts in its fields and a known phase -/
  | damaged
  | journal (j : Journal)
  deriving DecidableEq

structure Disk where
  record : AttemptRecord
  restore : Saved
  deriving DecidableEq

/-! ## Transactions -/

/-- `_PowerRestore`. -/
structure PowerRestore where
  expected : AdapterState
  busId : Str
  adapterInstance : Str
  attempt : Nat
  sawOff : Bool := false
  completed : Bool := false
  deriving DecidableEq

/-- What the process is configured for, and `dbus.validate_bus_name`. -/
structure Config where
  path : Str
  device : Str
  phone : Str
  validBusName : Str → Bool

/-- The owner is a unique bus name. -/
def Config.uniqueName (cfg : Config) (owner : Str) : Bool :=
  startsWith owner ":".toList && cfg.validBusName owner

/-- `_load_restore`. -/
def loadRestore (cfg : Config) : Saved → Option PowerRestore
  | .absent => none
  | .damaged => none
  | .journal j =>
    if j.path ≠ cfg.path ∨ j.device ≠ cfg.device then none
    else if j.owner = [] ∨ j.address = [] ∨ j.busId = [] ∨ j.adapterInstance = [] then none
    else if cfg.uniqueName j.owner = false then none
    else some
      { expected := { owner := j.owner, address := j.address, powered := true, safe := true }
        busId := j.busId
        adapterInstance := j.adapterInstance
        attempt := j.attempt
        sawOff := decide (j.phase = .on) }

/-- What `_persist_restore` writes. -/
def journalOf (cfg : Config) (t : PowerRestore) (phase : Phase) : Journal where
  path := cfg.path
  device := cfg.device
  owner := t.expected.owner
  address := t.expected.address
  busId := t.busId
  adapterInstance := t.adapterInstance
  phase := phase
  attempt := t.attempt

/-! ## The process -/

/-- Where the worker stands with a job of the recovery. -/
inductive Job where
  /-- `cycle`, submitted -/
  | cycle (expected : AdapterState) (attempt : Nat)
  /-- `cycle`, waiting for the id of the bus -/
  | cycleBus (expected : AdapterState) (attempt : Nat)
  /-- `cycle`, waiting for its last look at the controller -/
  | cycleRead (expected : AdapterState) (revision incarnation : Nat)
  /-- `cycle`, waiting for the reply to the power-off -/
  | powerOff
  /-- `restore`, submitted -/
  | restore
  /-- `restore`, waiting for the id of the bus -/
  | restoreBus
  /-- `restore`, waiting for `_restoration_state`, the second time right before the power-on -/
  | restoreRead (revision incarnation : Nat) (again : Bool)
  /-- `restore`, waiting for the reply to the power-on -/
  | powerOn
  /-- returned or raised; the callback has not run yet -/
  | finished
  deriving DecidableEq

/-- What an asynchronous read of the controller is for. -/
inductive ReadPurpose where
  | snapshot
  /-- the last look of `_after_probe` -/
  | recheck (expected : AdapterState) (probedAt : ℚ)
  deriving DecidableEq

/-- A read that BlueZ has not answered yet. -/
structure PendingRead where
  purpose : ReadPurpose
  generation : Nat
  revision : Nat
  incarnation : Nat
  deriving DecidableEq

/-- What `BluetoothRecovery` has seen of the outage. -/
structure Window where
  identity : Option (Str × Str) := none
  proofFloor : ℚ := 0
  outageSince : Option ℚ := none
  healthySince : Option ℚ := none
  lastObservation : ℚ := 0
  leOutageSince : Option ℚ := none
  softResetAt : Option ℚ := none
  probing : Bool := false
  deriving DecidableEq

/-- The process: the adapter object, the controller of the recovery, and what the worker does for
them. -/
structure Process where
  revision : Nat := 0
  incarnation : Nat := 0
  /-- the transaction that this process made or loaded last -/
  transaction : Option PowerRestore := none
  /-- `_restore` still is that transaction -/
  held : Bool := false
  staleRecord : Bool := false
  record : AttemptRecord
  window : Window := {}
  running : Bool := false
  suspended : Bool := false
  generation : Nat := 0
  snapshotPending : Bool := false
  active : Bool := false
  operationPending : Bool := false
  resumePending : Bool := false
  cancelled : Bool := false
  reads : List PendingRead := []
  /-- probes on the worker, with the generation and the state they were started under -/
  probes : List (Nat × AdapterState) := []
  job : Option Job := none
  /-- the worker is reserved for the recovery -/
  reserved : Bool := false
  /-- the worker is shut down -/
  closed : Bool := false
  deriving DecidableEq

/-- `self._restore`. -/
def Process.restore (p : Process) : Option PowerRestore := if p.held then p.transaction else none

/-- `restore_pending`. -/
def Process.restorePending (p : Process) : Bool := p.restore.any (fun t => !t.completed)

/-- `cleanup_pending`. -/
def Process.cleanupPending (p : Process) : Bool := p.staleRecord || p.restore.any (·.completed)

/-! ## The world -/

/-- What stands when the power-off is sent. -/
structure Dispatch where
  attempt : Nat
  time : ℚ
  disk : Disk
  restore : Option PowerRestore
  cleanupPending : Bool
  deriving DecidableEq

/-- What happened, for the statements about it. -/
inductive Entry where
  /-- the attempt was recorded, with this time -/
  | attempted (attempt : Nat) (time : ℚ)
  /-- `Set(Powered, false)` -/
  | powerOff (d : Dispatch)
  /-- `Set(Powered, true)` -/
  | powerOn (attempt : Nat)
  /-- the latch of the attempt was set -/
  | completed (attempt : Nat)
  /-- a new process was started -/
  | restarted
  deriving DecidableEq

structure World where
  disk : Disk
  proc : Process
  /-- attempts so far -/
  attempts : Nat
  /-- the last reading of the wall clock -/
  clock : ℚ
  /-- newest first -/
  log : List Entry
  deriving DecidableEq

/-- `RecoveryObservation`. -/
structure Observation where
  healthy : Bool
  healthProof : Option ℚ
  eligible : Bool
  busy : Bool := false
  deriving DecidableEq

/-- What a step meets: clocks, callbacks and errors. -/
structure Env where
  /-- the monotonic clock -/
  clock : ℚ
  /-- the wall clock -/
  wall : ℚ
  /-- the wall clock, read again later in the step -/
  wallLater : ℚ
  /-- bluetoothd does not answer -/
  blocked : Bool := false
  /-- other operations are queued on the worker -/
  workerBusy : Bool := false
  workerFull : Bool := false
  pauseRaises : Bool := false
  monitorRaises : Bool := false
  readRaises : Bool := false
  probeHealthRaises : Bool := false
  /-- `observe`; `none` when it raises -/
  observed : Option Observation := none
  /-- `reset_le`; `none` when it raises -/
  resetLe : Option Bool := some false
  /-- writes of the record, of the journal, and of its removal -/
  saves : Write := .done
  journals : Write := .done
  cleans : Write := .done
  /-- the first and the second look at the kernel's directory -/
  stat : Stat := .missing
  statAgain : Stat := .missing
  deriving DecidableEq

end BlueFerry.Recovery
