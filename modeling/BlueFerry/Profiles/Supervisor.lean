import BlueFerry.Lib.Slots
import BlueFerry.Text.CaseMapping

/-! # The supervisor of the MAP and PBAP sessions

`profile_supervisor.py`, with `connectivity.py` that it reports to. The supervisor hands opening and
closing the sessions to a worker, one job at a time, and asks the event loop for a timer to try
again.

A `World` is the supervisor with what it waits for: the jobs that the worker has not answered yet,
and the timers that are armed. The sessions themselves belong to the worker and to obexd, so they
change by steps of their own.
-/

namespace BlueFerry.Profiles

open BlueFerry.Text

/-! ## Connectivity -/

/-- `ConnectivityState`. -/
inductive ConnectivityState where
  | initializing
  | connecting
  | ready
  | degraded
  | reconnecting
  | authorizationRequired
  | mapConnectionRefused
  | stopping
  deriving DecidableEq

/-- Some part of the text is this. -/
def contains (text part : Str) : Prop := part <:+: text

instance (text part : Str) : Decidable (contains text part) :=
  inferInstanceAs (Decidable (_ <:+: _))

/-- `is_map_connection_refused` of an error. -/
def isMapConnectionRefused (detail : Str) : Prop :=
  contains (casefold detail) "createsession(map)".toList ∧
    contains (casefold detail) "connection refused".toList ∧
    contains (casefold detail) "111".toList

instance (detail : Str) : Decidable (isMapConnectionRefused detail) := by
  unfold isMapConnectionRefused
  infer_instance

/-- `RetryPolicy`. -/
structure RetryPolicy where
  initialSeconds : Nat := 5
  maximumSeconds : Nat := 300
  multiplier : Nat := 2
  deriving DecidableEq

def RetryPolicy.delay (policy : RetryPolicy) (failureCount : Nat) : Nat :=
  min policy.maximumSeconds (policy.initialSeconds * policy.multiplier ^ (failureCount - 1))

/-- `Connectivity`. -/
structure Connectivity where
  policy : RetryPolicy := {}
  state : ConnectivityState := .initializing
  detail : Str := "backend startup".toList
  failureCount : Nat := 0
  retryDelaySeconds : Option Nat := none
  deriving DecidableEq

/-- `connecting()`: a refusal stays visible while the next attempt is in flight. -/
def Connectivity.connecting (c : Connectivity) : Connectivity :=
  if c.failureCount > 0 ∧ c.state = .mapConnectionRefused then { c with retryDelaySeconds := none }
  else
    { c with
      state := if c.failureCount = 0 then .connecting else .reconnecting
      detail := "opening MAP/PBAP sessions".toList
      retryDelaySeconds := none }

section

variable (c : Connectivity)

/-- `ready()`. -/
def Connectivity.reached : Connectivity :=
  { c with
    state := .ready
    detail := "MAP/PBAP sessions are available".toList
    failureCount := 0
    retryDelaySeconds := none }

/-- The delay that `failed` returns. -/
def Connectivity.failedDelay (retryDelaySeconds : Option Nat) : Nat :=
  match retryDelaySeconds with
  | some delay => max 1 delay
  | none => c.policy.delay (c.failureCount + 1)

/-- `failed()`. -/
def Connectivity.failed (error : Str) (authorizationRequired mapConnectionRefused : Bool)
    (retryDelaySeconds : Option Nat) : Connectivity :=
  { c with
    failureCount := c.failureCount + 1
    retryDelaySeconds := some (c.failedDelay retryDelaySeconds)
    state :=
      if mapConnectionRefused then .mapConnectionRefused
      else if authorizationRequired then .authorizationRequired
      else .degraded
    detail := if error = [] then "Bluetooth profiles unavailable".toList else error }

/-- `lost()`. -/
def Connectivity.lost (reason : Str) : Connectivity :=
  { c with state := .reconnecting, detail := reason, retryDelaySeconds := none }

end

/-- `stopping()`. -/
def Connectivity.stopping (c : Connectivity) : Connectivity :=
  { c with state := .stopping, detail := "backend stopping".toList, retryDelaySeconds := none }

/-! ## The supervisor -/

/-- The fields of `ProfileSupervisor`. -/
structure ProfileSupervisor where
  connectivity : Connectivity := {}
  retryId : Option Nat := none
  opening : Bool := false
  closing : Bool := false
  ready : Bool := false
  consumersActive : Bool := false
  everReady : Bool := false
  stopping : Bool := false
  paused : Bool := false
  generation : Nat := 0
  firstAttemptCompleted : Bool := false
  deriving DecidableEq

/-- Which of the optional callbacks the supervisor was given. -/
structure Hooks where
  partialReady : Bool
  attemptPending : Bool
  firstAttemptComplete : Bool
  deriving DecidableEq

/-- A call of one of the callbacks. -/
inductive Callback where
  | ready
  | lost (reason : Str)
  | status
  | partialReady
  | attemptPending
  | firstAttemptComplete
  deriving DecidableEq

/-- An operation of the sessions. -/
inductive Operation where
  | openAll
  | closeAll (removeRemote : Bool)
  deriving DecidableEq

/-- A job of the worker, with the generation its callbacks carry. -/
structure Job where
  operation : Operation
  generation : Nat
  deriving DecidableEq

/-- The callback of a timer: `_retry`, or `retry_close` of `_submit_close`. -/
inductive Timer where
  | retry
  | retryClose (generation : Nat) (removeRemote : Bool)
  deriving DecidableEq

/-- A timer of the event loop, and the seconds it was armed with. -/
structure Armed where
  delay : Nat
  timer : Timer
  deriving DecidableEq

/-- `sessions.map is not None`, and the same for PBAP. -/
structure Sessions where
  map : Bool := false
  pbap : Bool := false
  deriving DecidableEq

/-- The supervisor, what it waits for, and what it has told. `wanted` is set by `start()`. -/
structure World where
  supervisor : ProfileSupervisor
  hooks : Hooks
  sessions : Sessions
  monitoring : Bool
  jobs : Slots Job
  timers : Slots Armed
  told : List Callback
  wanted : Bool

/-- A supervisor as it is made. -/
def World.start (hooks : Hooks) : World where
  supervisor := {}
  hooks := hooks
  sessions := {}
  monitoring := false
  jobs := .empty
  timers := .empty
  told := []
  wanted := false

/-- What the code around answers in a step: the error if the worker takes no job, and
`_attempt_ready()`. -/
structure Answers where
  refusal : Option Str
  attemptReady : Bool
  deriving DecidableEq

/-- `INITIAL_MAP_CONNECT_POLL_SECONDS` and `MAP_RECONNECT_POLL_SECONDS`, by `_poll_seconds`. -/
def ProfileSupervisor.pollSeconds (s : ProfileSupervisor) : Nat := if s.everReady then 15 else 5

/-! ## Small steps -/

section

variable (w : World)

/-- The supervisor's fields after the change; everything around it stays. -/
def World.set (f : ProfileSupervisor → ProfileSupervisor) : World :=
  { w with supervisor := f w.supervisor }

def World.tell (callback : Callback) : World :=
  { w with told := w.told ++ [callback] }

/-- Tell it where the callback was given. -/
def World.tellIf (given : Bool) (callback : Callback) : World :=
  if given then w.tell callback else w

/-- `worker.submit`, when it takes the job. -/
def World.submit (operation : Operation) (generation : Nat) : World :=
  { w with jobs := w.jobs.put ⟨operation, generation⟩ }

/-- `self._retry_id = self._schedule(delay, timer)`. -/
def World.schedule (delay : Nat) (timer : Timer) : World :=
  { w with
    timers := w.timers.put ⟨delay, timer⟩
    supervisor := { w.supervisor with retryId := some w.timers.next } }

/-- Cancel the retry timer, if there is one. -/
def World.cancelRetry : World :=
  match w.supervisor.retryId with
  | none => w
  | some id =>
    { w with
      timers := w.timers.take id
      supervisor := { w.supervisor with retryId := none } }

/-- `_schedule_retry`. -/
def World.scheduleRetry (delay : Nat) : World :=
  if w.supervisor.stopping ∨ w.supervisor.retryId ≠ none then w else w.schedule delay .retry

/-- `_begin_attempt_cycle`. -/
def World.beginAttemptCycle : World :=
  if ¬ w.supervisor.firstAttemptCompleted ∧ w.supervisor.opening then w
  else
    (w.set fun s => { s with firstAttemptCompleted := false }).tellIf
      w.hooks.attemptPending .attemptPending

/-- `_complete_first_attempt`. -/
def World.completeFirstAttempt (force attemptReady : Bool) : World :=
  if w.supervisor.firstAttemptCompleted then w
  else if !force && !attemptReady then w
  else
    (w.set fun s => { s with firstAttemptCompleted := true }).tellIf
      w.hooks.firstAttemptComplete .firstAttemptComplete

/-- `_mark_ready`. -/
def World.markReady : World :=
  let w := w.cancelRetry
  let w := (w.set fun s =>
    { s with connectivity := s.connectivity.reached, everReady := true }).tell .status
  if w.supervisor.ready then w
  else (w.set fun s => { s with ready := true, consumersActive := true }).tell .ready

/-- Consumers of the sessions are told of the loss, once. -/
def World.discardConsumers (reason : Str) : World :=
  if w.supervisor.consumersActive then
    (w.set fun s => { s with consumersActive := false }).tell (.lost reason)
  else w

/-! ## The methods -/

/-- The worker did not take the job of `open`. -/
def World.openRefused (error : Str) : World :=
  let poll := some w.supervisor.pollSeconds
  let delay := w.supervisor.connectivity.failedDelay poll
  let w := (w.set fun s =>
    { s with
      opening := false
      connectivity := s.connectivity.failed error false false poll }).tell .status
  w.scheduleRetry delay

section

variable (answers : Answers)

/-- `open`. -/
def World.openSessions : World :=
  let s := w.supervisor
  if s.stopping ∨ s.paused ∨ s.opening ∨ s.closing then w
  else if w.sessions.map ∧ w.sessions.pbap then w.markReady
  else
    let w := (w.set fun s =>
      { s with opening := true, connectivity := s.connectivity.connecting }).tell .status
    match answers.refusal with
    | none => w.submit .openAll w.supervisor.generation
    | some error => w.openRefused error

/-- `_submit_close`. -/
def World.submitClose (generation : Nat) (removeRemote : Bool) (answers : Answers) : World :=
  if w.supervisor.stopping ∨ generation ≠ w.supervisor.generation then w
  else
    match answers.refusal with
    | none => w.submit (.closeAll removeRemote) generation
    | some _ => w.schedule w.supervisor.pollSeconds (.retryClose generation removeRemote)

/-- `reconnect`, up to the job that closes the sessions. -/
def World.leaveSessions (reason : Str) : World :=
  let w := w.beginAttemptCycle
  let w := (w.set fun s =>
    { s with generation := s.generation + 1, connectivity := s.connectivity.lost reason }).tell
      .status
  let w := w.set fun s => { s with ready := false }
  let w := w.discardConsumers reason
  let w := w.set fun s => { s with opening := false, closing := true }
  w.cancelRetry

/-- `reconnect`. -/
def World.reconnect (reason : Str) (removeRemote : Bool) (answers : Answers) : World :=
  if w.supervisor.stopping ∨ w.supervisor.paused then w
  else if w.supervisor.closing then w
  else
    let w := w.leaveSessions reason
    w.submitClose w.supervisor.generation removeRemote answers

/-- `session_lost`. -/
def World.sessionLost (reason : Str) (answers : Answers) : World :=
  w.reconnect reason false answers

/-- `start`. -/
def World.startUp : World :=
  if w.supervisor.stopping then w
  else
    let w := { w with wanted := true }
    let w := w.beginAttemptCycle
    let w := { w with monitoring := true }
    w.openSessions answers

/-- `pause`. -/
def World.pause : World :=
  let w := w.set fun s =>
    { s with paused := true, generation := s.generation + 1, opening := false, closing := false }
  let w := w.cancelRetry
  let w := w.set fun s => { s with ready := false }
  let w := w.discardConsumers "Bluetooth adapter recovery".toList
  (w.set fun s =>
    { s with connectivity := s.connectivity.lost "Bluetooth adapter recovery".toList }).tell .status

/-- `resume`. -/
def World.resume : World :=
  (w.set fun s => { s with paused := false }).reconnect
    "Bluetooth adapter recovery completed".toList false answers

/-- `stop`. -/
def World.stop : World :=
  let w := w.set fun s =>
    { s with
      stopping := true
      generation := s.generation + 1
      ready := false
      consumersActive := false
      opening := false
      closing := false
      connectivity := s.connectivity.stopping }
  w.cancelRetry

/-- `_opened`. -/
def World.opened (generation : Nat) (answers : Answers) : World :=
  if w.supervisor.stopping ∨ generation ≠ w.supervisor.generation ∨ w.supervisor.closing then w
  else
    let w := w.set fun s => { s with opening := false }
    (w.completeFirstAttempt true answers.attemptReady).markReady

/-- The error that `open_all` raised. -/
structure OpenError where
  message : Str
  isSessionError : Bool
  deriving DecidableEq

/-- The iPhone has not allowed messages or contacts. -/
def OpenError.authorizationRequired (error : OpenError) : Bool :=
  error.isSessionError &&
    (decide (contains error.message "Forbidden".toList) ||
      decide (contains error.message "0x43".toList))

/-- `_open_failed`. -/
def World.openFailed (generation : Nat) (error : OpenError) (answers : Answers) : World :=
  if w.supervisor.stopping ∨ generation ≠ w.supervisor.generation then w
  else
    let w := w.set fun s => { s with opening := false }
    let w := w.completeFirstAttempt false answers.attemptReady
    let w :=
      if w.hooks.partialReady ∧ (w.sessions.map ∨ w.sessions.pbap) then
        (w.set fun s => { s with consumersActive := true }).tell .partialReady
      else w
    let poll := some w.supervisor.pollSeconds
    let delay := w.supervisor.connectivity.failedDelay poll
    let w := (w.set fun s =>
      { s with
        connectivity := s.connectivity.failed error.message error.authorizationRequired
          (isMapConnectionRefused error.message) poll }).tell .status
    w.scheduleRetry delay

/-- `_closed`, and `_close_failed` which only adds a line to the log. -/
def World.closed (generation : Nat) : World :=
  if w.supervisor.stopping ∨ generation ≠ w.supervisor.generation then w
  else (w.set fun s => { s with closing := false }).scheduleRetry w.supervisor.pollSeconds

/-- `_retry`. -/
def World.retry : World :=
  let w := w.set fun s => { s with retryId := none }
  if w.supervisor.stopping then w else w.openSessions answers

end

/-- `retry_close` of `_submit_close`. -/
def World.retryClose (generation : Nat) (removeRemote : Bool) (answers : Answers) : World :=
  (w.set fun s => { s with retryId := none }).submitClose generation removeRemote answers

/-! ## Steps -/

/-- What the worker's job came to. -/
inductive Outcome where
  | done
  | failed (error : OpenError)
  deriving DecidableEq

/-- The callback of a job. -/
def World.complete (job : Job) (outcome : Outcome) (answers : Answers) : World :=
  match job.operation, outcome with
  | .openAll, .done => w.opened job.generation answers
  | .openAll, .failed error => w.openFailed job.generation error answers
  | .closeAll _, _ => w.closed job.generation

/-- The callback of a timer. -/
def World.fire (timer : Timer) (answers : Answers) : World :=
  match timer with
  | .retry => w.retry answers
  | .retryClose generation removeRemote => w.retryClose generation removeRemote answers

inductive Input where
  | startUp
  | openSessions
  | reconnect (reason : Str) (removeRemote : Bool)
  | sessionLost (reason : Str)
  | pause
  | resume
  | stop
  /-- the worker or obexd made or lost a session -/
  | sessions (now : Sessions)
  /-- the worker answers a job; nothing happens if it does not have it -/
  | completed (job : Nat) (outcome : Outcome)
  /-- the event loop fires a timer, if it is armed -/
  | fired (timer : Nat)
  deriving DecidableEq

/-- One step, with what the code around answers in it. -/
def step (i : Input × Answers) : World :=
  match i.1 with
  | .startUp => w.startUp i.2
  | .openSessions => w.openSessions i.2
  | .reconnect reason removeRemote => w.reconnect reason removeRemote i.2
  | .sessionLost reason => w.sessionLost reason i.2
  | .pause => w.pause
  | .resume => w.resume i.2
  | .stop => w.stop
  | .sessions now => { w with sessions := now }
  | .completed n outcome =>
    match w.jobs.get n with
    | none => w
    | some job => ({ w with jobs := w.jobs.take n }).complete job outcome i.2
  | .fired n =>
    match w.timers.get n with
    | none => w
    | some armed => ({ w with timers := w.timers.take n }).fire armed.timer i.2

end

end BlueFerry.Profiles
