import BlueFerry.CallHistory.Repository

/-! # The scheduler of call-history pulls

`CallHistorySync` (`call_history_sync.py`). A pull lists one phonebook after another on the OBEX
worker, and stores the merged lists with a last job there; requests that come meanwhile join it, or
wait for the next one. The worker and the GLib loop take turns: `list` and `write` are a job on the
worker, `deliver` its completion on the loop, and anything may happen in between. `_store_lock` makes
the check of the generation and the write one step.

The records that storage preparation loads (`adopt`) come another way and are not part of these runs.

What is not the object's own is given with each step as an `Env`: the sessions, the storage, the
clock, and whether the worker takes a job. `fresh` and `shows` are for the statements: what was
pulled since the history was last cleared, and what was shown since then.
-/

namespace BlueFerry.CallHistory

open BlueFerry.Text

def MAX_OBEX_PENDING_OPERATIONS : Nat := 256

def CALL_HISTORY_MAX_BACKOFF_TICKS : Nat := 8

/-- What a sync can fail with. -/
inductive SyncError where
  /-- `StorageChangedDuringCallSync` -/
  | storageChanged
  /-- `CallHistoryStorageError` -/
  | storage
  /-- `CallHistoryStopped` -/
  | stopped
  /-- `CorruptStorageError` -/
  | corrupt
  /-- any other error -/
  | other
deriving DecidableEq

/-- One of the two callbacks of a request. -/
inductive Answer where
  | success (count : Nat)
  | failure (error : SyncError)
deriving DecidableEq

/-- The job of a pull that the worker has: not run yet, or run and not delivered. -/
inductive Job where
  | list
  | listed (records : List CallRecord)
  | store
  | replaced (result : ReplaceResult)
  | failed (error : SyncError)

/-- A pull in flight, with what `_start` keeps for it. -/
structure Pull where
  full : Bool
  revision : Nat
  cacheGeneration : Nat
  clearGeneration : Nat
  now : Int
  collected : List (List CallRecord)
  job : Job

/-- The directions of `FULL_PULL` and `MISSED_PULL`. -/
def Pull.plan (pull : Pull) : List Direction :=
  if pull.full then [.incoming, .outgoing, .missed] else [.missed]

/-- What was shown, and what had been pulled by then. -/
structure Show where
  fresh : List CallRecord
  records : List CallRecord

/-- The object, the database, and the pull in flight. -/
structure State where
  records : List CallRecord := []
  cacheGeneration : Nat := 0
  clearGeneration : Nat := 0
  pending : Bool := false
  pendingFull : Bool := false
  waiters : List Nat := []
  queued : List Nat := []
  periodicId : Bool := false
  initialId : Bool := false
  stopped : Bool := false
  eraseWhenStopped : Bool := false
  synced : Bool := false
  deferred : Bool := false
  mapSeen : Bool := false
  mapWaitId : Bool := false
  mapWaitFinished : Bool := false
  requestId : Bool := false
  requestFull : Bool := false
  resync : Bool := false
  resyncFull : Bool := false
  failures : Nat := 0
  skipTicks : Nat := 0
  phone : Str := []
  store : CallStore
  pull : Option Pull := none
  /-- the number of the next request -/
  next : Nat := 0
  answers : List (Nat × Answer) := []
  /-- how many jobs were delivered -/
  delivered : Nat := 0
  fresh : List CallRecord := []
  shows : List Show := []

/-- How `clear_call_history` ends. -/
inductive Erasure where
  | erased
  /-- it raises after the rows are gone -/
  | raisedLate
  | raised
deriving DecidableEq

/-- What a step finds around the object. `accepts` and `acceptsNext` say whether the worker takes the
first and the second job that the step submits. -/
structure Env where
  pbap : Bool
  map : Bool
  canWrite : Bool
  revision : Nat
  now : Int
  accepts : Bool
  acceptsNext : Bool
  erasure : Erasure

/-! ## Starting and finishing a pull -/

/-- The first half of `_finished`: the pull is over, and its waiters are answered. -/
def settle (s : State) (answer : Answer) (transport : Bool) : State :=
  let counts : Nat × Nat :=
    match answer with
    | .success _ => (0, 0)
    | .failure error =>
      if error = .storageChanged ∨ error = .stopped ∨ transport = false then (s.failures, s.skipTicks)
      else (s.failures + 1, min (2 ^ (s.failures + 1) - 1) CALL_HISTORY_MAX_BACKOFF_TICKS)
  { s with
    waiters := []
    pending := false
    pendingFull := false
    pull := none
    failures := counts.1
    skipTicks := counts.2
    answers := s.answers ++ s.waiters.map (fun n => (n, answer)) }

/-- `_start`, up to the first job; with the error that it finishes with. -/
def begin (env : Env) (accepts : Bool) (s : State) (full : Bool) : State × Option SyncError :=
  if s.stopped then (s, some .stopped)
  else if !env.canWrite then (s, some .other)
  else if !accepts then ({ s with pending := true, pendingFull := full }, some .other)
  else
    ({ s with
        pending := true
        pendingFull := full
        pull := some ⟨full, env.revision, s.cacheGeneration, s.clearGeneration, env.now, [], .list⟩ },
      none)

/-- The reasons of `refresh`. -/
inductive Reason where
  | storage
  | deferred
  | request
  | initial
  | grace
  | periodic
deriving DecidableEq

section

variable (env : Env) (s : State)

/-- `refresh`, up to its call of `_start`: whether it is made, and with which `full`. -/
def gate (reason : Reason) (full : Bool) : State × Option Bool :=
  if s.stopped then (s, none)
  else if s.pending then
    if reason = .request then ({ s with resync := true, resyncFull := s.resyncFull || full }, none)
    else (s, none)
  else if !env.pbap || !env.canWrite then
    if reason = .request ∨ reason = .deferred then ({ s with deferred := true }, none) else (s, none)
  else if env.map then
    ({ s with mapSeen := true, deferred := false }, some (full || !s.synced))
  else if s.mapSeen then ({ s with deferred := true }, none)
  else if !s.mapWaitFinished then ({ s with deferred := true, mapWaitId := true }, none)
  else if reason = .periodic then (s, none)
  else ({ s with deferred := false }, some (full || !s.synced))

/-- The queued requests join the pull that follows. -/
def State.dequeue (s : State) : State :=
  { s with waiters := s.waiters ++ s.queued, queued := [], resync := false }

/-- No pull is asked for any more. -/
def State.resynced (s : State) : State := { s with resync := false, resyncFull := false }

/-- `_finished`. The pull that follows can end at once; nothing is queued then and no other one is
asked for, so that `_finished` only answers. -/
def finished (env : Env) (accepts : Bool) (s : State) (answer : Answer) (transport : Bool) : State :=
  let s := settle s answer transport
  if s.queued ≠ [] then
    match begin env accepts s.dequeue true with
    | (s, none) => s
    | (s, some error) => settle s (.failure error) false
  else if s.resync then
    match gate env s.resynced .request s.resyncFull with
    | (s, none) => s
    | (s, some full) =>
      match begin env accepts s full with
      | (s, none) => s
      | (s, some error) => settle s (.failure error) false
  else s

/-- `_start` -/
def start (full : Bool) : State :=
  match begin env env.accepts s full with
  | (s, none) => s
  | (s, some error) => finished env env.acceptsNext s (.failure error) false

/-- `refresh` -/
def refresh (reason : Reason) (full : Bool) : State :=
  match gate env s reason full with
  | (s, none) => s
  | (s, some full) => start env s full

/-- `sync`, with both callbacks or without. -/
def sync (callbacks : Bool) : State :=
  if callbacks then
    let n := s.next
    let s := { s with next := s.next + 1 }
    if MAX_OBEX_PENDING_OPERATIONS ≤ s.waiters.length + s.queued.length then
      { s with answers := s.answers ++ [(n, .failure .other)] }
    else if s.pending && !s.pendingFull then { s with queued := s.queued ++ [n] }
    else
      let s := { s with waiters := s.waiters ++ [n] }
      if s.pending then s else start env s true
  else if s.pending then s
  else start env s true

/-! ## The jobs of a pull -/

/-- The pull has another job. -/
def State.run (s : State) (pull : Pull) (job : Job) : State :=
  { s with pull := some { pull with job := job } }

section

variable (pull : Pull)

/-- `submit` of a pull's next job. -/
def submit (job : Job) : State :=
  if env.accepts then s.run pull job
  else finished env env.acceptsNext s (.failure .other) false

/-- `pull_next` -/
def pullNext : State :=
  if pull.cacheGeneration ≠ s.cacheGeneration then
    finished env env.acceptsNext s (.failure .storageChanged) false
  else if s.stopped then finished env env.acceptsNext s (.failure .stopped) false
  else submit env s pull .list

/-- `pulled` -/
def pulled (records : List CallRecord) : State :=
  let pull := { pull with collected := pull.collected ++ [records] }
  if pull.collected.length < pull.plan.length then pullNext env s pull
  else if s.stopped then finished env env.acceptsNext s (.failure .stopped) false
  else submit env s pull .store

/-- The storage that `replace` finds. -/
structure Disk where
  retentionDays : Int
  writable : Bool
  opens : Nat → Bool
  intact : Bool
  saved : Bool

/-- The call of `replace` that `store` makes. -/
def Pull.replacing (phone : Str) (disk : Disk) : Sync where
  records := mergeCallHistory pull.collected.flatten
  now := pull.now
  retentionDays := disk.retentionDays
  phone := if phone = [] then none else some phone
  directions := some pull.plan
  writable := disk.writable
  opens := disk.opens
  intact := disk.intact
  saved := disk.saved

/-- `store`, on the worker, with the lock held. -/
def write (p : Platform) (s : State) (pull : Pull) (disk : Disk) : State :=
  if pull.cacheGeneration ≠ s.cacheGeneration then s.run pull (.failed .storageChanged)
  else
    match replace p s.store (pull.replacing s.phone disk) with
    | none => s.run pull (.failed (if disk.writable && !disk.intact then .corrupt else .storage))
    | some (store, result) => { s with store := store }.run pull (.replaced result)

/-- `discard_cache` -/
def discardCache (s : State) : State :=
  { s with cacheGeneration := s.cacheGeneration + 1, records := [] }

/-- `clear_call_history`, and whether it returns. -/
def clearCallHistory : State × Bool :=
  match env.erasure with
  | .erased => ({ s with store := .empty }, true)
  | .raisedLate => ({ s with store := .empty }, false)
  | .raised => (s, false)

/-- What `_stored` does with a late write: erase it and raise. -/
def eraseLate (error : SyncError) : State × Answer :=
  match clearCallHistory env s with
  | (s, true) => (discardCache s, .failure error)
  | (s, false) => (s, .failure .other)

/-- `_stored`: the number of records, or the error that it raises. -/
def stored (result : ReplaceResult) : State × Answer :=
  if env.revision ≠ pull.revision then eraseLate env s .storageChanged
  else if s.stopped then
    if s.eraseWhenStopped then eraseLate env s .stopped
    else (discardCache s, .failure .stopped)
  else if pull.cacheGeneration ≠ s.cacheGeneration then (s, .failure .storageChanged)
  else
    ({ s with
        records := result.records
        synced := s.synced || pull.full
        shows := s.shows ++ [⟨s.fresh, result.records ++ result.newMissed⟩] },
      .success result.records.length)

/-- `stored` -/
def storedDone (result : ReplaceResult) : State :=
  if pull.clearGeneration ≠ s.clearGeneration then
    finished env env.acceptsNext s (.failure .storageChanged) false
  else
    match stored env s pull result with
    | (s, answer) => finished env env.acceptsNext s answer false

/-- One more job is delivered. -/
def State.counted (s : State) : State := { s with delivered := s.delivered + 1 }

/-- The completion of a pull's job, if the worker has run it. -/
def completed : State :=
  match pull.job with
  | .list => s
  | .store => s
  | .failed error =>
    finished env env.acceptsNext s.counted (.failure error) (error ≠ .corrupt ∧ error ≠ .storage)
  | .listed records => pulled env s.counted pull records
  | .replaced result => storedDone env s.counted pull result

end

/-- A turn of the loop. -/
def deliver : State :=
  match s.pull with
  | none => s
  | some pull => completed env s pull

/-! ## Clearing, and what else happens -/

/-- `clear`; where the database cannot be erased, it raises before the rest. -/
def clear : State :=
  let s :=
    { s with cacheGeneration := s.cacheGeneration + 1, clearGeneration := s.clearGeneration + 1 }
  match clearCallHistory env s with
  | (s, false) => s
  | (s, true) =>
    { s with
      synced := false
      resync := false
      resyncFull := false
      requestId := false
      requestFull := false
      queued := []
      answers := s.answers ++ s.queued.map (fun n => (n, .failure .storageChanged))
      records := []
      fresh := []
      shows := [] }

/-- `profiles_available` -/
def profilesAvailable : State :=
  if s.stopped || !env.pbap then s
  else
    let s := { s with mapSeen := s.mapSeen || env.map, periodicId := true, initialId := true }
    if s.deferred && env.map then refresh env s .deferred true else s

/-- `storage_changed` -/
def storageChanged (canRead : Bool) : State :=
  if !canRead then discardCache s
  else if !s.synced || s.deferred then refresh env s .storage true
  else s

/-- `request_sync` -/
def requestSync (s : State) (full : Bool) : State :=
  if s.stopped then s else { s with requestFull := s.requestFull || full, requestId := true }

/-- `stop` -/
def stop (s : State) : State :=
  { s with
    stopped := true
    periodicId := false
    initialId := false
    mapWaitId := false
    requestId := false }

/-- `_initial`, when its timer is armed. -/
def initial (env : Env) (s : State) : State :=
  if s.initialId then refresh env { s with initialId := false } .initial true else s

/-- `_map_wait_expired`, when its timer is armed. -/
def mapWaitExpired : State :=
  if s.mapWaitId then
    let s := { s with mapWaitId := false, mapWaitFinished := true }
    if s.deferred then refresh env s .grace true else s
  else s

/-- `_requested`, when its timer is armed. -/
def requested : State :=
  if s.requestId then
    refresh env { s with requestId := false, requestFull := false } .request s.requestFull
  else s

end

/-- `_periodic`, when its timer is armed. -/
def periodic (env : Env) (s : State) : State :=
  if s.periodicId then
    if 0 < s.skipTicks then { s with skipTicks := s.skipTicks - 1 }
    else refresh env s .periodic false
  else s

/-- The worker runs a listing job, which can raise. -/
def list (s : State) (pull : Pull) (records : Option (List CallRecord)) : State :=
  match pull.job, records with
  | .list, none => s.run pull (.failed .other)
  | .list, some records => { s with fresh := s.fresh ++ records }.run pull (.listed records)
  | _, _ => s

/-- The worker runs the store job. -/
def storing (p : Platform) (s : State) (pull : Pull) (disk : Disk) : State :=
  match pull.job with
  | .store => write p s pull disk
  | _ => s

/-- A turn of the worker. -/
def work (s : State) (turn : State → Pull → State) : State :=
  match s.pull with
  | none => s
  | some pull => turn s pull

/-- What can happen to the object. -/
inductive Input where
  | sync (callbacks : Bool)
  | list (records : Option (List CallRecord))
  | write (disk : Disk)
  | deliver
  | clear
  | forgetPhone
  | phone (phone : Str)
  | profilesAvailable
  | storageChanged (canRead : Bool)
  | requestSync (full : Bool)
  | stop
  | disable
  | initial
  | mapWaitExpired
  | requested
  | periodic

def step (p : Platform) (s : State) (input : Env × Input) : State :=
  let env := input.1
  match input.2 with
  | .sync callbacks => sync env s callbacks
  | .list records => work s (fun s pull => list s pull records)
  | .write disk => work s (fun s pull => storing p s pull disk)
  | .deliver => deliver env s
  | .clear => clear env s
  | .forgetPhone => { s with store := { s.store with seen := none } }
  | .phone phone => { s with phone := phone }
  | .profilesAvailable => profilesAvailable env s
  | .storageChanged canRead => storageChanged env s canRead
  | .requestSync full => requestSync s full
  | .stop => stop s
  | .disable => stop { s with eraseWhenStopped := true }
  | .initial => initial env s
  | .mapWaitExpired => mapWaitExpired env s
  | .requested => requested env s
  | .periodic => periodic env s

/-- The state after a run. -/
def runFrom (p : Platform) (s : State) (inputs : List (Env × Input)) : State :=
  Machine.run (step p) s inputs

end BlueFerry.CallHistory
