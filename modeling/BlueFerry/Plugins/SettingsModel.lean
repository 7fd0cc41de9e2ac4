import BlueFerry.Lib.Machine
import BlueFerry.Lib.Slots
import BlueFerry.Text.Basic

/-! # The plugin settings of a client

`PluginSettingsModel` (`plugin_settings_model.py`). Whatever blocks is a task of the runner: the
steps of `_work`, one at a time, and the quiet ones beside them. A task is submitted, the worker
runs it, and then its result and its end come to the UI thread, one after the other; between any two
of these, everything else can happen.

The settings form is opened by the user, and read again after an action or a sign-in. Each opening
by the user has a number of its own, and so has every step; the steps and the forms carry them for
the statements, and the code does without them. `object()` is a fresh token: the number of the step
that is about to be submitted.

The lists of plugins, of the store and of the log files, and what the form shows beside its values,
are left out; the steps that fill them are there (`Plain`).
-/

namespace BlueFerry.PluginSettings

open BlueFerry.Text

/-! ## Data -/

abbrev Values := List (Str × Str)

/-- What the model reads of `PluginManifest`. -/
structure Manifest where
  id : Str
  name : Str
  /-- `manifest.config` is not empty -/
  configurable : Bool
  configTest : Bool
  /-- the ids of the plugin's own buttons -/
  actions : List Str
  deriving DecidableEq

/-- What the model takes from `plugin_settings_view`. -/
structure View where
  /-- `parse_form`: the values, and the errors by field -/
  parseForm : Manifest → Values → Values × Values
  loginValues : Manifest → Values → Values
  /-- `plain_text(message, 200)` -/
  plainText : Str → Str
  /-- `poll_ms`, at least 1 -/
  pollMs : Nat

inductive LoginState where
  | «open»
  | pending
  | done
  | error
  | expired
  | cancelled
  deriving DecidableEq

/-- `LOGIN_FINAL_STATES` -/
def LoginState.final : LoginState → Bool
  | .done | .error | .expired | .cancelled => true
  | _ => false

/-- `LoginStep` -/
structure LoginStep where
  state : LoginState
  message : Str := []
  loginId : Str := []
  openUri : Str := []
  deriving DecidableEq

/-- `LOGIN_STATE_TEXT` -/
def loginStateText : LoginState → Str
  | .pending => "Waiting for the sign-in in your browser…".toList
  | .expired => "The sign-in expired. Start it again.".toList
  | .cancelled => "The sign-in was cancelled.".toList
  | .error => "The sign-in failed.".toList
  | .done => "Signed in.".toList
  | .open => []

/-- `text or other` -/
def orText (text other : Str) : Str := if text = [] then other else text

/-- `login_text` -/
def View.loginText (v : View) (state : LoginState) (message : Str) : Str :=
  orText (v.plainText message) (loginStateText state)

/-- `config_action_text` -/
def View.configActionText (v : View) (ok : Bool) (message name : Str) : Str :=
  orText (v.plainText message)
    (if ok then "Done.".toList else name ++ " could not do that.".toList)

inductive StatusKind where
  | test
  | login
  | action
  deriving DecidableEq

/-- The status line of the form. -/
structure Status where
  kind : StatusKind
  ok : Bool
  text : Str
  pending : Bool
  deriving DecidableEq

/-- `state.config`, while a form is shown. -/
structure Form where
  opening : Nat
  id : Str
  name : Str
  loaded : Bool
  values : Values
  errors : Values := []
  status : Option Status := none
  loadError : Str := []
  deriving DecidableEq

/-- The token of a sign-in, with the form it was started from. -/
structure Attempt where
  token : Nat
  opening : Nat
  pluginId : Str
  deriving DecidableEq

/-- `_login`: the browser sign-in that is followed. -/
structure Login where
  pluginId : Str
  loginId : Str
  left : Nat
  flow : Nat
  deriving DecidableEq

/-! ## Tasks -/

/-- The steps that have nothing to do with the form. -/
inductive Plain where
  | prepare
  | install
  | store
  | indexes
  | log
  deriving DecidableEq

/-- What a step of `_work` does. -/
inductive Job where
  | list
  | enable (pluginId : Str) (enabled : Bool)
  | remove (pluginId : Str)
  | loadConfig (m : Manifest) (opening generation : Nat) (status : Option Status)
  | saveConfig (m : Manifest) (opening : Nat) (values : Values)
  | testConfig (m : Manifest) (opening : Nat) (values : Values)
  | signIn (m : Manifest) (attempt : Attempt) (values : Values)
  | action (m : Manifest) (opening generation : Nat) (actionId : Str)
  | plain (p : Plain)
  deriving DecidableEq

/-- The word that `state.busy` shows. -/
def Job.name : Job → Str
  | .list => "list".toList
  | .enable .. => "enable".toList
  | .remove .. => "remove".toList
  | .loadConfig .. => "config".toList
  | .saveConfig .. => "config".toList
  | .testConfig .. => "test".toList
  | .signIn .. => "login".toList
  | .action .. => "action".toList
  | .plain .prepare => "prepare".toList
  | .plain .install => "install".toList
  | .plain .store => "store".toList
  | .plain .indexes => "indexes".toList
  | .plain .log => "log".toList

/-- `keep_message` -/
def Job.keepsMessage : Job → Bool
  | .list => true
  | .plain .store => true
  | _ => false

/-- A step of `_work`. `user` says that it was submitted by a user action, and not by the completion
of another task. -/
structure Step where
  number : Nat
  user : Bool
  job : Job
  deriving DecidableEq

/-- What runs beside the steps. `flow` is the sign-in's token. -/
inductive Quiet where
  | pollLogin (m : Manifest) (loginId : Str) (attempt : Option Attempt) (flow : Nat)
  | cancelLogin (m : Manifest) (loginId : Str) (flow : Nat)
  | discard
  deriving DecidableEq

/-- What the worker has from running a task. `refused` is the error of `_enabled_client` for a
disabled plugin: nothing was called then. -/
inductive Result where
  | failed (text : Str)
  | refused (text : Str)
  | listed (entries : List (Manifest × Bool))
  /-- of a step whose value is only told -/
  | told (message : Str) (ok : Bool)
  | values (values : Values)
  | saved (ok : Bool) (errors : Values)
  | tested (ok : Bool) (errors : Values) (message : Str)
  | login (step : LoginStep)
  | acted (result : Option (Bool × Str × Str))
  deriving DecidableEq

/-- Where a task is: at the worker, on its way back, or with its end still to come. -/
inductive Stage where
  | submitted
  | ran (result : Result)
  | delivered
  deriving DecidableEq

inductive Task where
  | work (step : Step) (stage : Stage)
  | quiet (job : Quiet) (stage : Stage)
  deriving DecidableEq

def Task.withStage (stage : Stage) : Task → Task
  | .work step _ => .work step stage
  | .quiet job _ => .quiet job stage

/-- A word about a sign-in. -/
inductive FlowEvent where
  /-- `ConfigLogin` answered `open` -/
  | opened (flow : Nat) (pluginId loginId : Str)
  /-- a status read has answered a final state -/
  | final (flow : Nat)
  /-- `ConfigLoginCancel` was called -/
  | cancelled (flow : Nat) (loginId : Str)
  deriving DecidableEq

/-! ## The state -/

structure State where
  busy : Str := []
  failedStep : Str := []
  message : Str := []
  messageOk : Bool := true
  loaded : Bool := false
  config : Option Form := none
  stored : Values := []
  generation : Nat := 0
  login : Option Login := none
  attempt : Option Attempt := none
  timer : Bool := false
  queue : List Step := []
  manifests : List Manifest := []
  disabled : List Str := []
  tasks : Slots Task := Slots.empty
  /-- the pages that were opened, newest first -/
  pages : List Str := []
  openings : Nat := 0
  /-- the number of steps so far -/
  steps : Nat := 0
  /-- the steps that the worker has run, newest first -/
  ran : List Step := []
  flows : List FlowEvent := []

namespace State

/-- `self._manifests.get(plugin_id)` -/
def find (s : State) (pluginId : Str) : Option Manifest :=
  s.manifests.find? (fun m => m.id = pluginId)

/-! ## Plumbing -/

section

variable (s : State)

/-- Hand a step to the runner. -/
def startStep (step : Step) : State :=
  { s with
    busy := step.job.name
    failedStep := []
    message := if step.job.keepsMessage then s.message else []
    tasks := s.tasks.put (.work step .submitted) }

/-- `_work` -/
def work (user : Bool) (job : Job) : State :=
  let step : Step := ⟨s.steps, user, job⟩
  if s.busy ≠ [] then { s with steps := s.steps + 1, queue := s.queue ++ [step] }
  else { s with steps := s.steps + 1 }.startStep step

/-- `next_step` -/
def nextStep : State :=
  match s.queue with
  | [] => s
  | step :: queue => if s.busy = [] then { s with queue }.startStep step else s

/-- `_start` of a quiet task -/
def start (job : Quiet) : State :=
  { s with tasks := s.tasks.put (.quiet job .submitted) }

/-- `_say` -/
def say (message : Str) (ok : Bool) : State :=
  { s with message, messageOk := ok }

/-- `self._open` -/
def openPage (uri : Str) : State := { s with pages := uri :: s.pages }

/-! ## The form -/

/-- `_current` -/
def current (pluginId : Str) : Option Manifest :=
  match s.config with
  | some form => if form.id = pluginId ∧ pluginId ∉ s.disabled then s.find pluginId else none
  | none => none

/-- The number of the form that is shown. -/
def opening (s : State) : Nat := (s.config.map Form.opening).getD 0

/-- `self._update(config={**self._state["config"], …})` -/
def updateForm (f : Form → Form) : State := { s with config := s.config.map f }

/-- `_set_status` -/
def setStatus (kind : StatusKind) (ok : Bool) (text : Str) (pending : Bool) : State :=
  s.updateForm (fun form => { form with status := some ⟨kind, ok, text, pending⟩ })

/-- Nothing is followed any more, and the timer is stopped. -/
def forgetLogin : State := { s with attempt := none, login := none, timer := false }

/-- `_stop_login` -/
def stopLogin : State :=
  match s.login with
  | none => s.forgetLogin
  | some login =>
    match s.find login.pluginId with
    | none => s.forgetLogin
    | some m => s.forgetLogin.start (.cancelLogin m login.loginId login.flow)

/-- `close_config`, after `_stop_login` -/
def dropForm : State :=
  { s with generation := s.generation + 1, stored := [], config := none }

/-- `close_config` -/
def closeConfig : State := s.stopLogin.dropForm

/-- `load`; `user` as for `work` -/
def load (user : Bool) : State := s.work user .list

/-- `load_config` shows an empty form. -/
def showForm (m : Manifest) : State :=
  { s with
    generation := s.generation + 1
    stored := []
    openings := s.openings + 1
    config := some
      { opening := s.openings + 1, id := m.id, name := m.name, loaded := false, values := [] } }

/-- `load_config` with `keep_status` shows the old fields as not loaded. -/
def keepForm : State :=
  { s with generation := s.generation + 1, stored := [] }.updateForm
    (fun form => { form with loaded := false, loadError := [] })

/-- `load_config` by the user -/
def loadConfig (s : State) (pluginId : Str) : State :=
  match s.find pluginId with
  | none => s
  | some m =>
    if m.configurable = false ∨ pluginId ∈ s.disabled then s
    else
      let shown := s.stopLogin.showForm m
      shown.work true (.loadConfig m shown.opening shown.generation none)

/-- `load_config` with `keep_status`, from a completion -/
def reloadConfig (pluginId : Str) : State :=
  match s.find pluginId with
  | none => s
  | some m =>
    if m.configurable = false ∨ pluginId ∈ s.disabled then s
    else
      s.keepForm.work false
        (.loadConfig m s.opening (s.generation + 1) (s.config.bind Form.status))

/-- `done` of `load_config` -/
def loadConfigDone (m : Manifest) (opening generation : Nat) (status : Option Status)
    (values : Values) : State :=
  if generation = s.generation ∧ (s.current m.id).isSome then
    { s with
      stored := values
      config := some { opening, id := m.id, name := m.name, loaded := true, values, status } }
  else s

/-- `failed` of `load_config` -/
def loadConfigFailed (m : Manifest) (generation : Nat) (text : Str) : State :=
  if generation = s.generation ∧ (s.current m.id).isSome then
    s.updateForm (fun form => { form with loadError := text })
  else s

/-- The form is shown, and its values are there. -/
def formLoaded : Bool := (s.config.map Form.loaded).getD false

/-- `save_config` -/
def saveConfig (v : View) (s : State) (pluginId : Str) (raw : Values) : State :=
  match s.current pluginId with
  | none => s
  | some m =>
    if s.formLoaded = false then s
    else
      let (values, errors) := v.parseForm m raw
      if errors ≠ [] then s.updateForm (fun form => { form with errors })
      else s.work true (.saveConfig m s.opening values)

/-- `done` of `save_config` -/
def saveConfigDone (m : Manifest) (ok : Bool) (errors : Values) : State :=
  if ok then
    let said := s.say ("Saved the settings of ".toList ++ m.name ++ ".".toList) true
    (if (s.current m.id).isSome then said.closeConfig else said).load false
  else if (s.current m.id).isSome then s.updateForm (fun form => { form with errors })
  else s

/-- `test_config` -/
def testConfig (v : View) (s : State) (pluginId : Str) (raw : Values) : State :=
  match s.current pluginId with
  | none => s
  | some m =>
    if m.configTest = false ∨ s.formLoaded = false then s
    else
      let (values, errors) := v.parseForm m raw
      if errors ≠ [] then s.updateForm (fun form => { form with errors })
      else
        (s.setStatus .test true "Testing the connection…".toList true).work true
          (.testConfig m s.opening values)

/-- `done` of `test_config` -/
def testConfigDone (m : Manifest) (ok : Bool) (errors : Values) (message : Str) : State :=
  if (s.current m.id).isSome then
    s.updateForm (fun form => { form with errors, status := some ⟨.test, ok, message, false⟩ })
  else s

/-- `failed` of `test_config` -/
def testConfigFailed (m : Manifest) (text : Str) : State :=
  if (s.current m.id).isSome then s.setStatus .test false text false else s

/-! ## Signing in -/

/-- `current` of `sign_in` -/
def attempts (attempt : Attempt) : Bool :=
  decide (s.attempt = some attempt) && (s.current attempt.pluginId).isSome

/-- `sign_in` -/
def signIn (v : View) (s : State) (pluginId : Str) (raw : Values) : State :=
  match s.current pluginId with
  | none => s
  | some m =>
    if s.formLoaded = false then s
    else
      let attempt : Attempt := ⟨s.steps, s.opening, pluginId⟩
      ({ s.stopLogin with attempt := some attempt }.setStatus .login true
        (v.loginText .pending []) true).work true (.signIn m attempt (v.loginValues m raw))

section

variable (v : View)

/-- `_login_finished` -/
def loginFinished (s : State) (pluginId : Str) (step : LoginStep) : State :=
  let ok : Bool := step.state = .done
  let ended := { s with attempt := none }.setStatus .login ok
    (v.loginText step.state step.message) false
  if ok = true ∧ (ended.current pluginId).isSome then
    (ended.reloadConfig pluginId).load false
  else ended

/-- `LOGIN_TIMEOUT_SECONDS * 1000 // self._poll_ms`, at least 1 -/
def pollsLeft : Nat := max 1 (20 * 60 * 1000 / v.pollMs)

/-- The sign-in is followed from now on. -/
def follow (s : State) (attempt : Attempt) (step : LoginStep) : State :=
  { (s.openPage step.openUri) with
    login := some ⟨attempt.pluginId, step.loginId, pollsLeft v, attempt.token⟩
    timer := true }.setStatus .login true (v.loginText .pending step.message) true

/-- `done` of `sign_in` -/
def signInDone (s : State) (m : Manifest) (attempt : Attempt) (step : LoginStep) : State :=
  if s.attempts attempt = false then
    if step.state = .open then s.start (.cancelLogin m step.loginId attempt.token) else s
  else if step.state = .open then s.follow v attempt step
  else s.loginFinished v attempt.pluginId step

/-- `failed` of `sign_in` -/
def signInFailed (attempt : Attempt) (text : Str) : State :=
  if s.attempts attempt then { s with attempt := none }.setStatus .login false text false else s

/-- `_poll_login`, when its timer fires -/
def pollLogin (v : View) (s : State) : State :=
  match s.login with
  | none => s
  | some login =>
    match s.current login.pluginId with
    | none => s.stopLogin
    | some m =>
      if login.left = 0 then
        s.stopLogin.setStatus .login false (v.loginText .expired []) false
      else
        { s with login := some { login with left := login.left - 1 } }.start
          (.pollLogin m login.loginId s.attempt login.flow)

/-- `done` of `_poll_login` -/
def pollDone (s : State) (m : Manifest) (attempt : Option Attempt) (step : LoginStep) : State :=
  if s.login = none ∨ s.attempt ≠ attempt then s
  else if step.state.final then { s with login := none }.loginFinished v m.id step
  else { s with timer := true }

/-- `failed` of `_poll_login` -/
def pollFailed (s : State) (attempt : Option Attempt) (message : Str) : State :=
  if s.login ≠ none ∧ s.attempt = attempt then
    { s with login := none, attempt := none }.setStatus .login false
      (orText message (v.loginText .error [])) false
  else s

/-- `cancel_sign_in` -/
def cancelSignIn (s : State) : State :=
  if s.attempt = none then s.stopLogin
  else s.stopLogin.setStatus .login false (v.loginText .cancelled []) false

/-! ## The plugin's own buttons -/

/-- The status line waits for an answer. -/
def statusPending : Bool :=
  ((s.config.bind Form.status).map Status.pending).getD false

/-- `run_action` -/
def runAction (pluginId actionId : Str) : State :=
  match s.current pluginId with
  | none => s
  | some m =>
    if actionId ∉ m.actions ∨ s.formLoaded = false ∨ s.statusPending = true then s
    else
      (s.setStatus .action true "Working…".toList true).work true
        (.action m s.opening s.generation actionId)

/-- `current` of `run_action` -/
def owns (m : Manifest) (generation : Nat) : Bool :=
  decide (generation = s.generation) && (s.current m.id).isSome

/-- `done` of `run_action`: whether it worked, its message, and the page that it asks for -/
def actionDone (s : State) (m : Manifest) (generation : Nat)
    (result : Option (Bool × Str × Str)) : State :=
  match result with
  | none => s
  | some (ok, message, uri) =>
    if s.owns m generation = false then s
    else
      let opened := if ok ∧ uri ≠ [] then s.openPage uri else s
      ((opened.setStatus .action ok (v.configActionText ok message m.name) false).reloadConfig
        m.id).load false

/-- `failed` of `run_action` -/
def actionFailed (m : Manifest) (generation : Nat) (text : Str) : State :=
  if s.owns m generation then s.setStatus .action false text false else s

/-! ## The list of plugins -/

/-- `done` of `load` -/
def loadDone (entries : List (Manifest × Bool)) : State :=
  { s with
    manifests := entries.map Prod.fst
    disabled := (entries.filter (fun e => !e.2)).map (·.1.id)
    loaded := true }

/-- `set_enabled` -/
def setEnabled (pluginId : Str) (enabled : Bool) : State :=
  let known := if enabled then s else { s with disabled := pluginId :: s.disabled }
  let closed :=
    if enabled = false ∧ s.config.any (fun form => form.id = pluginId) then known.closeConfig
    else known
  closed.work true (.enable pluginId enabled)

/-- `remove` -/
def remove (s : State) (pluginId : Str) : State :=
  (if s.config.any (fun form => form.id = pluginId) then s.closeConfig else s).work true
    (.remove pluginId)

/-- `done` of a step that tells what it did -/
def tellDone (message : Str) (ok : Bool) : State :=
  if message = [] then s else s.say message ok

/-! ## Completions -/

/-- `done` of a step. -/
def stepDone (s : State) (job : Job) (result : Result) : State :=
  match job, result with
  | .list, .listed entries => s.loadDone entries
  | .enable .., .told message ok => (s.tellDone message ok).load false
  | .remove .., .told message ok => (s.tellDone message ok).load false
  | .loadConfig m opening generation status, .values values =>
    s.loadConfigDone m opening generation status values
  | .saveConfig m _ _, .saved ok errors => s.saveConfigDone m ok errors
  | .testConfig m _ _, .tested ok errors message => s.testConfigDone m ok errors message
  | .signIn m attempt _, .login step => s.signInDone v m attempt step
  | .action m _ generation _, .acted result => s.actionDone v m generation result
  | .plain .install, .told message ok =>
    ((s.tellDone message ok).load false).work false (.plain .store)
  | .plain .indexes, .told message ok => (s.tellDone message ok).work false (.plain .store)
  | .plain _, .told message ok => s.tellDone message ok
  | _, _ => s

/-- `failed` of a step: into the form, or into the message of the page. -/
def stepFailed (job : Job) (text : Str) : State :=
  match job with
  | .loadConfig m _ generation _ => s.loadConfigFailed m generation text
  | .testConfig m _ _ => s.testConfigFailed m text
  | .signIn _ attempt _ => s.signInFailed attempt text
  | .action m _ generation _ => s.actionFailed m generation text
  | _ => s.say text false

/-- The result of a step has come. -/
def deliverStep (s : State) (job : Job) (result : Result) : State :=
  match result with
  | .failed text =>
    { s with busy := [], failedStep := job.name }.stepFailed job
      (orText text "The plugin operation failed".toList)
  | .refused text =>
    { s with busy := [], failedStep := job.name }.stepFailed job
      (orText text "The plugin operation failed".toList)
  | _ => { s with busy := [] }.stepDone v job result

/-- The result of a quiet task has come. -/
def deliverQuiet (s : State) (job : Quiet) (result : Result) : State :=
  match job, result with
  | .pollLogin m _ attempt _, .login step => s.pollDone v m attempt step
  | .pollLogin _ _ attempt _, .failed text => s.pollFailed v attempt text
  | .pollLogin _ _ attempt _, .refused text => s.pollFailed v attempt text
  | _, _ => s

end

/-! ## The worker -/

/-- What a job can answer. -/
def fits : Job → Result → Bool
  | _, .failed _ => true
  | .list, .listed _ => true
  | .enable .., .told .. => true
  | .remove .., .told .. => true
  | .plain _, .told .. => true
  | .loadConfig .., .values _ => true
  | .saveConfig .., .saved .. => true
  | .testConfig .., .tested .. => true
  | .signIn .., .login step => step.state = .open ∨ step.state = .done ∨ step.state = .error
  | .action .., .acted result => result.isSome
  | .loadConfig .., .refused _ => true
  | .saveConfig .., .refused _ => true
  | .testConfig .., .refused _ => true
  | .signIn .., .refused _ => true
  | .action .., .refused _ => true
  | _, _ => false

/-- What the worker has from a step: a sign-in or an action that is not wanted any more calls
nothing. -/
def runStep (job : Job) (answer : Result) : Result :=
  match job with
  | .signIn _ attempt _ =>
    if s.attempts attempt then answer else .login { state := .cancelled }
  | .action m _ generation _ => if s.owns m generation then answer else .acted none
  | _ => answer

end

def fitsQuiet : Quiet → Result → Bool
  | _, .failed _ => true
  | .pollLogin .., .login step => step.state ≠ .open
  | .cancelLogin .., .told .. => true
  | .discard, .told .. => true
  | .pollLogin .., .refused _ => true
  | .cancelLogin .., .refused _ => true
  | _, _ => false

/-- What is said of a sign-in when a step was run. -/
def flowsOfStep : Job → Result → List FlowEvent
  | .signIn m attempt _, .login step =>
    if step.state = .open then [.opened attempt.token m.id step.loginId] else []
  | _, _ => []

/-- What is said of a sign-in when a quiet task was run. -/
def flowsOfQuiet : Quiet → Result → List FlowEvent
  | .pollLogin _ _ _ flow, .login step => if step.state.final then [.final flow] else []
  | .cancelLogin .., .refused _ => []
  | .cancelLogin _ loginId flow, _ => [.cancelled flow loginId]
  | _, _ => []

end State

/-! ## Steps -/

/-- The worker runs a task (with the answer that the manager or the plugin gives), or the UI thread
does what the user, a timer or the runner asks for. -/
inductive Input where
  | load
  | setEnabled (pluginId : Str) (enabled : Bool)
  | remove (pluginId : Str)
  | loadConfig (pluginId : Str)
  | closeConfig
  | saveConfig (pluginId : Str) (raw : Values)
  | testConfig (pluginId : Str) (raw : Values)
  | signIn (pluginId : Str) (raw : Values)
  | cancelSignIn
  | runAction (pluginId actionId : Str)
  | plain (p : Plain)
  | discard
  | clearMessage
  | timerFires
  | runs (id : Nat) (answer : Result)
  | delivers (id : Nat)
  | finishes (id : Nat)

variable (v : View)

section

variable (s : State) (id : Nat)

/-- The worker has run the task. -/
def State.runTask (answer : Result) : State :=
  match s.tasks.get id with
  | some (.work step .submitted) =>
    if State.fits step.job answer = false then s
    else
      let result := s.runStep step.job answer
      { s with
        tasks := s.tasks.modify id (Task.withStage (.ran result))
        ran := step :: s.ran
        flows := State.flowsOfStep step.job result ++ s.flows }
  | some (.quiet job .submitted) =>
    if State.fitsQuiet job answer = false then s
    else
      { s with
        tasks := s.tasks.modify id (Task.withStage (.ran answer))
        flows := State.flowsOfQuiet job answer ++ s.flows }
  | _ => s

/-- The task is marked as delivered. -/
def State.marked : State :=
  { s with tasks := s.tasks.modify id (Task.withStage .delivered) }

/-- The result of a task comes to the UI thread. -/
def State.deliver : State :=
  match s.tasks.get id with
  | some (.work step (.ran result)) => (s.marked id).deliverStep v step.job result
  | some (.quiet job (.ran result)) => (s.marked id).deliverQuiet v job result
  | _ => s

/-- The task is forgotten. -/
def State.dropTask : State := { s with tasks := s.tasks.take id }

/-- The end of a task comes to the UI thread. -/
def State.finish : State :=
  match s.tasks.get id with
  | some (.work _ .delivered) => (s.dropTask id).nextStep
  | some (.quiet _ .delivered) => s.dropTask id
  | _ => s

end

def step (s : State) : Input → State
  | .load => s.load true
  | .setEnabled pluginId enabled => s.setEnabled pluginId enabled
  | .remove pluginId => s.remove pluginId
  | .loadConfig pluginId => s.loadConfig pluginId
  | .closeConfig => s.closeConfig
  | .saveConfig pluginId raw => s.saveConfig v pluginId raw
  | .testConfig pluginId raw => s.testConfig v pluginId raw
  | .signIn pluginId raw => s.signIn v pluginId raw
  | .cancelSignIn => s.cancelSignIn v
  | .runAction pluginId actionId => s.runAction pluginId actionId
  | .plain p => s.work true (.plain p)
  | .discard => s.start .discard
  | .clearMessage => { s with message := [] }
  | .timerFires => if s.timer then { s with timer := false }.pollLogin v else s
  | .runs id answer => s.runTask id answer
  | .delivers id => s.deliver v id
  | .finishes id => s.finish id

end BlueFerry.PluginSettings
