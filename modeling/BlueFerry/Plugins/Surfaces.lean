import BlueFerry.Lib.Machine
import BlueFerry.Lib.Slots
import BlueFerry.Text.Basic

/-! # The plugin surfaces of a client

`PluginSurfacesModel` (`plugin_surfaces_model.py`): the phone card and "Send to…". Every call into a
plugin is a task of the runner, which answers later, once, in any order; `tasks` holds those that
are not answered yet. `SendGate` is shared with the window's drop zone.

`OneAtATime` is what the model wants to keep: one action at a time, marked in `busy`, and the gate
held exactly for a send. A load that fails says so through the helper that also ends an action; so
it holds as long as no load fails during an action (`Calm`).
-/

namespace BlueFerry.Surfaces

open BlueFerry.Text

/-! ## The gate -/

/-- Who can send files: the model, and the drop zones of the window. -/
inductive Holder where
  | model
  | other (n : Nat)
  deriving DecidableEq

/-- `SendGate`: its holder. -/
abbrev SendGate := Option Holder

/-- `SendGate.acquire` -/
def SendGate.acquire (gate : SendGate) (holder : Holder) : SendGate × Bool :=
  match gate with
  | some h => (some h, false)
  | none => (some holder, true)

/-- `SendGate.release` -/
def SendGate.release (gate : SendGate) (holder : Holder) : SendGate :=
  if gate = some holder then none else gate

/-! ## The state -/

/-- `ShareChoice` -/
structure ShareChoice where
  pluginId : Str
  pluginName : Str
  targetId : Str
  label : Str
  icon : Str := []
  deriving DecidableEq

def ShareChoice.key (c : ShareChoice) : Str := c.pluginId ++ ":".toList ++ c.targetId

/-- `choice_label` -/
def choiceLabel (choice : ShareChoice) (choices : List ShareChoice) : Str :=
  if 1 < choices.countP (fun other => other.label = choice.label) then
    choice.label ++ " (".toList ++ choice.pluginName ++ ")".toList
  else choice.label

/-- An entry of `state.targets`. -/
structure Target where
  key : Str
  icon : Str
  label : Str
  menuText : Str
  deriving DecidableEq

/-- `Outcome` of a plugin's action or of a send. -/
structure Outcome where
  ok : Bool
  message : Str
  openUri : Str := []
  deriving DecidableEq

/-- What the runner works on. -/
inductive Task where
  | reload
  | loadTargets
  | invoke
  | send
  deriving DecidableEq

/-- The model, its tasks at the runner, the gate, and what it has opened. `Row` is an entry of
`state.cards`. -/
structure State (Row : Type) where
  gate : SendGate := none
  tasks : Slots Task := Slots.empty
  choices : List ShareChoice := []
  loading : Bool := false
  reloadAgain : Bool := false
  timer : Bool := false
  loaded : Bool := false
  cards : List Row := []
  busy : Str := []
  message : Str := []
  messageOk : Bool := true
  targets : List Target := []
  targetsLoaded : Bool := false
  targetProblems : List Str := []
  targetsLoading : Bool := false
  shareAvailable : Bool := false
  watched : List Str := []
  opened : List Str := []

variable {Row : Type}

namespace State

section

variable (s : State Row)

/-- `_say` -/
def say (message : Str) (ok : Bool) : State Row :=
  { s with message, messageOk := ok, busy := [] }

/-- `message or text` -/
def orText (message text : Str) : Str := if message = [] then text else message

/-- `self._timer.start` -/
def startTimer : State Row := { s with timer := true }

/-- The runner has answered the task. -/
def answered (id : Nat) : State Row := { s with tasks := s.tasks.take id }

/-! ## The card -/

/-- `reload` -/
def reload (s : State Row) : State Row :=
  if s.loading then { s with reloadAgain := true }
  else { s with loading := true, tasks := s.tasks.put .reload }

/-- `done` of `reload` -/
def reloadDone (cards : List Row) (share : Bool) (names : List Str) : State Row :=
  { s with
    loading := false
    watched := names.filter (· ≠ [])
    loaded := true
    cards
    shareAvailable := share
    timer := s.timer || s.reloadAgain
    reloadAgain := false }

/-- `failed` of `reload` -/
def reloadFailed (message : Str) : State Row :=
  { s with loading := false, loaded := true }.say
    (orText message "Plugins are unavailable.".toList) false

/-- `f"{plugin_id}:{item_id}:{action_id}"` -/
def actionName (pluginId itemId actionId : Str) : Str :=
  pluginId ++ ":".toList ++ itemId ++ ":".toList ++ actionId

/-- `invoke` -/
def invoke (s : State Row) (pluginId itemId actionId : Str) : State Row :=
  if s.busy ≠ [] then s
  else { s with
    busy := actionName pluginId itemId actionId
    message := []
    tasks := s.tasks.put .invoke }

/-- `done` of `invoke`. The outcome is that of `work`, which has asked again whether the plugin is
still there before it keeps an `open_uri`. -/
def invokeDone (outcome : Outcome) : State Row :=
  let said := s.say outcome.message outcome.ok
  { said with
    opened := if outcome.ok ∧ outcome.openUri ≠ [] then outcome.openUri :: said.opened
      else said.opened
    timer := true }

/-- `failed` of `_run`, when the caller gives none -/
def runFailed (message : Str) : State Row :=
  s.say (orText message "The plugin did not answer.".toList) false

/-! ## Sharing -/

/-- `load_targets` -/
def loadTargets (s : State Row) : State Row :=
  if s.targetsLoading then s
  else { s with targetsLoading := true, tasks := s.tasks.put .loadTargets }

/-- `done` of `load_targets` -/
def loadTargetsDone (controlText : Str → Str) (choices : List ShareChoice)
    (problems : List Str) : State Row :=
  { s with
    choices
    targetsLoading := false
    shareAvailable := !choices.isEmpty || s.shareAvailable
    targetsLoaded := true
    targets := choices.map (fun choice =>
      { key := choice.key
        icon := if choice.icon = [] then "document-send".toList else choice.icon
        label := choiceLabel choice choices
        menuText := controlText (choiceLabel choice choices) })
    targetProblems := problems }

/-- `failed` of `load_targets` -/
def loadTargetsFailed (message : Str) : State Row :=
  { s with targetsLoading := false, targetsLoaded := true }.say
    (orText message "The plugins did not answer.".toList) false

/-- `sending_elsewhere_notice` -/
def sendingElsewhereNotice : Str :=
  "Other files are still being sent; try again in a moment.".toList

/-- `_send_paths`, after the gate was acquired: mark the send, and hand it to the runner. -/
def startSend (name : Str) : State Row :=
  { s with
    gate := (s.gate.acquire .model).1
    busy := "send:".toList ++ name
    message := []
    tasks := s.tasks.put .send }

/-- `send` -/
def send (key : Str) : State Row :=
  if s.busy ≠ [] then s
  else if s.choices.all (·.key ≠ key) then
    s.say "That target is gone; open “Send to” again.".toList false
  else if (s.gate.acquire .model).2 = false then s.say sendingElsewhereNotice false
  else s.startSend key

/-- `send_from_card` -/
def sendFromCard (pluginId targetId : Str) (paths : List Str) : State Row :=
  if s.busy ≠ [] then s
  else if paths = [] then s
  else if (s.gate.acquire .model).2 = false then s.say sendingElsewhereNotice false
  else s.startSend (pluginId ++ ":".toList ++ targetId)

/-- `self._gate.release(self)` -/
def releaseGate : State Row := { s with gate := s.gate.release .model }

/-- `done` of `_send_paths` -/
def sendDone (outcome : Outcome) : State Row :=
  (s.releaseGate.say outcome.message outcome.ok).startTimer

/-- `failed` of `_send_paths` -/
def sendFailed (message : Str) : State Row :=
  s.releaseGate.say (orText message "The plugin did not answer.".toList) false

end

end State

/-! ## Steps -/

/-- What can happen on the UI thread. An answer names the task that it belongs to. -/
inductive Input (Row : Type) where
  | scheduleReload
  | reload
  | timerFires
  | loadTargets
  | invoke (pluginId itemId actionId : Str)
  | send (key : Str)
  | sendFromCard (pluginId targetId : Str) (paths : List Str)
  | clearMessage
  | stop
  /-- another sender takes or releases the gate -/
  | otherAcquires (n : Nat)
  | otherReleases (n : Nat)
  | reloaded (id : Nat) (cards : List Row) (share : Bool) (names : List Str)
  | gotTargets (id : Nat) (choices : List ShareChoice) (problems : List Str)
  | outcome (id : Nat) (outcome : Outcome)
  | failed (id : Nat) (message : Str)

/-- One step. An answer to a task that is not out, or of another kind, is none that the runner
gives. -/
def step (controlText : Str → Str) (s : State Row) : Input Row → State Row
  | .scheduleReload => s.startTimer
  | .reload => s.reload
  | .timerFires => if s.timer then { s with timer := false }.reload else s
  | .loadTargets => s.loadTargets
  | .invoke pluginId itemId actionId => s.invoke pluginId itemId actionId
  | .send key => s.send key
  | .sendFromCard pluginId targetId paths => s.sendFromCard pluginId targetId paths
  | .clearMessage => { s with message := [] }
  | .stop => { s with timer := false }
  | .otherAcquires n => { s with gate := (s.gate.acquire (.other n)).1 }
  | .otherReleases n => { s with gate := s.gate.release (.other n) }
  | .reloaded id cards share names =>
    match s.tasks.get id with
    | some .reload => (s.answered id).reloadDone cards share names
    | _ => s
  | .gotTargets id choices problems =>
    match s.tasks.get id with
    | some .loadTargets => (s.answered id).loadTargetsDone controlText choices problems
    | _ => s
  | .outcome id outcome =>
    match s.tasks.get id with
    | some .invoke => (s.answered id).invokeDone outcome
    | some .send => (s.answered id).sendDone outcome
    | _ => s
  | .failed id message =>
    match s.tasks.get id with
    | some .reload => (s.answered id).reloadFailed message
    | some .loadTargets => (s.answered id).loadTargetsFailed message
    | some .invoke => (s.answered id).runFailed message
    | some .send => (s.answered id).sendFailed message
    | none => s

/-! ## One action at a time -/

/-- The task is an action on the phone: a plugin's action, or a send. -/
def Acting (s : State Row) (id : Nat) : Prop := s.tasks.Holds id .invoke ∨ s.tasks.Holds id .send

/-- **One action at a time**: at most one is in flight, `busy` is set exactly while one is, and the
model holds the gate exactly while one of its sends is. -/
structure OneAtATime (s : State Row) : Prop where
  single : ∀ i j, Acting s i → Acting s j → i = j
  busy : s.busy ≠ [] ↔ ∃ i, Acting s i
  gate : s.gate = some .model ↔ ∃ i, s.tasks.Holds i .send

/-- No load fails during an action. -/
def Calm (s : State Row) (i : Input Row) : Prop :=
  match i with
  | .failed id _ =>
    s.tasks.Holds id .reload ∨ s.tasks.Holds id .loadTargets → s.busy = []
  | _ => True

theorem oneAtATime_start : OneAtATime ({} : State Row) where
  single := fun i j h => by
    rcases h with h | h <;> exact absurd h (Slots.not_holds_empty i _)
  busy := by
    constructor
    · exact fun h => absurd rfl h
    · rintro ⟨i, h | h⟩ <;> exact absurd h (Slots.not_holds_empty i _)
  gate := by
    constructor
    · nofun
    · rintro ⟨i, h⟩
      exact absurd h (Slots.not_holds_empty i _)

section Changes

variable {s s' : State Row}

/-- A change of other fields. -/
theorem OneAtATime.other (h : OneAtATime s) (htasks : s'.tasks = s.tasks) (hbusy : s'.busy = s.busy)
    (hgate : s'.gate = some .model ↔ s.gate = some .model) : OneAtATime s' := by
  have hacting : ∀ i, Acting s' i ↔ Acting s i := by
    intro i
    unfold Acting
    rw [htasks]
  constructor
  · intro i j hi hj
    exact h.single i j ((hacting i).mp hi) ((hacting j).mp hj)
  · simp only [hbusy, hacting]
    exact h.busy
  · rw [hgate, htasks]
    exact h.gate

/-- A task that is no action is handed to the runner, or answered. -/
theorem OneAtATime.load (h : OneAtATime s)
    (hsame : ∀ i k, k = .invoke ∨ k = .send → (s'.tasks.Holds i k ↔ s.tasks.Holds i k))
    (hbusy : s'.busy = s.busy) (hgate : s'.gate = s.gate) : OneAtATime s' := by
  have hacting : ∀ i, Acting s' i ↔ Acting s i := by
    intro i
    unfold Acting
    rw [hsame i .invoke (.inl rfl), hsame i .send (.inr rfl)]
  constructor
  · intro i j hi hj
    exact h.single i j ((hacting i).mp hi) ((hacting j).mp hj)
  · simp only [hbusy, hacting]
    exact h.busy
  rw [hgate, h.gate]
  constructor
  · rintro ⟨i, hi⟩
    exact ⟨i, (hsame i .send (.inr rfl)).mpr hi⟩
  · rintro ⟨i, hi⟩
    exact ⟨i, (hsame i .send (.inr rfl)).mp hi⟩

/-- Without an action in flight, none of the tasks is one. -/
theorem OneAtATime.idle (h : OneAtATime s) (hbusy : s.busy = []) (i : Nat) : ¬ Acting s i :=
  fun hi => h.busy.mpr ⟨i, hi⟩ hbusy

/-- An action is started while none is in flight. -/
theorem OneAtATime.begin (h : OneAtATime s) (hidle : s.busy = []) {k : Task}
    (hk : k = .invoke ∨ k = .send) (htasks : s'.tasks = s.tasks.put k) (hbusy : s'.busy ≠ [])
    (hgate : s'.gate = some .model ↔ k = .send) : OneAtATime s' := by
  have hnew : ∀ i, Acting s' i ↔ i = s.tasks.next := by
    intro i
    unfold Acting
    rw [htasks, Slots.holds_put, Slots.holds_put]
    constructor
    · rintro ((⟨hi, -⟩ | hi) | (⟨hi, -⟩ | hi))
      · exact hi
      · exact absurd (.inl hi) (h.idle hidle i)
      · exact hi
      · exact absurd (.inr hi) (h.idle hidle i)
    intro hi
    rcases hk with rfl | rfl
    · exact .inl (.inl ⟨hi, rfl⟩)
    · exact .inr (.inl ⟨hi, rfl⟩)
  constructor
  · intro i j hi hj
    rw [(hnew i).mp hi, (hnew j).mp hj]
  · exact iff_of_true hbusy ⟨_, (hnew _).mpr rfl⟩
  rw [hgate]
  constructor
  · intro hsend
    exact ⟨s.tasks.next, by rw [htasks, Slots.holds_put]; exact .inl ⟨rfl, hsend.symm⟩⟩
  rintro ⟨i, hi⟩
  rw [htasks, Slots.holds_put] at hi
  rcases hi with ⟨-, hsend⟩ | hi
  · exact hsend.symm
  · exact absurd (.inr hi) (h.idle hidle i)

/-- The action in flight is answered. -/
theorem OneAtATime.ended (h : OneAtATime s) {id : Nat} (hid : Acting s id)
    (htasks : s'.tasks = s.tasks.take id) (hbusy : s'.busy = []) (hgate : s'.gate ≠ some .model) :
    OneAtATime s' := by
  have hnone : ∀ i, ¬ Acting s' i := by
    intro i hi
    have hi : i ≠ id ∧ Acting s i := by
      unfold Acting at hi
      rw [htasks, Slots.holds_take, Slots.holds_take, ← and_or_left] at hi
      exact hi
    exact hi.1 (h.single i id hi.2 hid)
  constructor
  · exact fun i j hi => absurd hi (hnone i)
  · exact iff_of_false (fun h => h hbusy) (fun ⟨i, hi⟩ => hnone i hi)
  · exact iff_of_false hgate (fun ⟨i, hi⟩ => hnone i (.inr hi))

end Changes

/-! ## Every step -/

section Steps

variable {s : State Row}

theorem oneAtATime_reload (h : OneAtATime s) : OneAtATime s.reload := by
  unfold State.reload
  split_ifs
  · exact h.other rfl rfl Iff.rfl
  refine h.load (fun i k hk => ?_) rfl rfl
  rw [Slots.holds_put]
  rcases hk with rfl | rfl <;> simp

theorem oneAtATime_loadTargets (h : OneAtATime s) : OneAtATime s.loadTargets := by
  unfold State.loadTargets
  split_ifs
  · exact h
  refine h.load (fun i k hk => ?_) rfl rfl
  rw [Slots.holds_put]
  rcases hk with rfl | rfl <;> simp

theorem actionName_ne_nil (pluginId itemId actionId : Str) :
    State.actionName pluginId itemId actionId ≠ [] := by
  unfold State.actionName
  simp

theorem oneAtATime_invoke (h : OneAtATime s) (pluginId itemId actionId : Str) :
    OneAtATime (s.invoke pluginId itemId actionId) := by
  unfold State.invoke
  split_ifs with hbusy
  · exact h
  rw [not_not] at hbusy
  refine h.begin hbusy (.inl rfl) rfl (actionName_ne_nil _ _ _) ?_
  constructor
  · intro hgate
    obtain ⟨i, hi⟩ := h.gate.mp hgate
    exact absurd (.inr hi) (h.idle hbusy i)
  · nofun

/-- A message while no action is in flight. -/
theorem OneAtATime.said (h : OneAtATime s) (hbusy : s.busy = []) (message : Str) (ok : Bool) :
    OneAtATime (s.say message ok) := h.other rfl hbusy.symm Iff.rfl

theorem oneAtATime_startSend (h : OneAtATime s) (hbusy : s.busy = [])
    (hgate : ¬ (s.gate.acquire .model).2 = false) (name : Str) : OneAtATime (s.startSend name) := by
  have hfree : s.gate = none := by
    cases hs : s.gate with
    | none => rfl
    | some holder =>
      rw [hs] at hgate
      exact absurd rfl hgate
  have hname : "send:".toList ++ name ≠ [] := by simp
  refine h.begin hbusy (.inr rfl) rfl hname ?_
  refine iff_of_true ?_ rfl
  show (s.gate.acquire .model).1 = some .model
  rw [hfree]
  rfl

theorem oneAtATime_send (h : OneAtATime s) (key : Str) : OneAtATime (s.send key) := by
  unfold State.send
  split_ifs with hbusy _ hgate
  · exact h
  · exact h.said (not_not.mp hbusy) _ _
  · exact h.said (not_not.mp hbusy) _ _
  · exact oneAtATime_startSend h (not_not.mp hbusy) hgate _

theorem oneAtATime_sendFromCard (h : OneAtATime s) (pluginId targetId : Str) (paths : List Str) :
    OneAtATime (s.sendFromCard pluginId targetId paths) := by
  unfold State.sendFromCard
  split_ifs with hbusy _ hgate
  · exact h
  · exact h
  · exact h.said (not_not.mp hbusy) _ _
  · exact oneAtATime_startSend h (not_not.mp hbusy) hgate _

/-- Another sender takes a free gate only, and releases its own hold only. -/
theorem acquire_other {gate : SendGate} (n : Nat) :
    (gate.acquire (.other n)).1 = some .model ↔ gate = some .model := by
  cases gate with
  | none => exact iff_of_false (by simp [SendGate.acquire]) (by simp)
  | some holder => exact Iff.rfl

theorem release_other {gate : SendGate} (n : Nat) :
    gate.release (.other n) = some .model ↔ gate = some .model := by
  unfold SendGate.release
  split_ifs with h
  · rw [h]
    simp
  · exact Iff.rfl

/-- A load is answered. -/
theorem oneAtATime_answered (h : OneAtATime s) {id : Nat} {k : Task} (hid : s.tasks.Holds id k)
    (hk : k = .reload ∨ k = .loadTargets) : OneAtATime (s.answered id) := by
  refine h.load (fun i k' hk' => ?_) rfl rfl
  show (s.tasks.take id).Holds i k' ↔ _
  rw [Slots.holds_take, and_iff_right_iff_imp]
  rintro hi rfl
  have heq := hid.unique hi
  rcases hk with rfl | rfl <;> rcases hk' with rfl | rfl <;> nomatch heq

/-- A send that is answered gives the gate back. -/
theorem release_model (gate : SendGate) : gate.release .model ≠ some .model := by
  unfold SendGate.release
  split_ifs with h
  · simp
  · exact h

/-- During an action of a plugin, the gate is not the model's. -/
theorem OneAtATime.gate_of_invoke (h : OneAtATime s) {id : Nat} (hid : s.tasks.Holds id .invoke) :
    s.gate ≠ some .model := by
  intro hgate
  obtain ⟨i, hi⟩ := h.gate.mp hgate
  have hsame := h.single i id (.inr hi) (.inl hid)
  rw [hsame] at hi
  nomatch hid.unique hi

theorem oneAtATime_step (controlText : Str → Str) {i : Input Row} (hcalm : Calm s i)
    (h : OneAtATime s) : OneAtATime (step controlText s i) := by
  cases i with
  | reload => exact oneAtATime_reload h
  | timerFires =>
    rw [step]
    split_ifs
    · exact oneAtATime_reload (h.other rfl rfl Iff.rfl)
    · exact h
  | loadTargets => exact oneAtATime_loadTargets h
  | invoke pluginId itemId actionId => exact oneAtATime_invoke h pluginId itemId actionId
  | send key => exact oneAtATime_send h key
  | sendFromCard pluginId targetId paths => exact oneAtATime_sendFromCard h pluginId targetId paths
  | scheduleReload | clearMessage | stop => exact h.other rfl rfl Iff.rfl
  | otherAcquires n => exact h.other rfl rfl (acquire_other n)
  | otherReleases n => exact h.other rfl rfl (release_other n)
  | reloaded id cards share names =>
    rw [step]
    split
    · rename_i hid
      exact (oneAtATime_answered h hid (.inl rfl)).other rfl rfl Iff.rfl
    · exact h
  | gotTargets id choices problems =>
    rw [step]
    split
    · rename_i hid
      exact (oneAtATime_answered h hid (.inr rfl)).other rfl rfl Iff.rfl
    · exact h
  | outcome id outcome =>
    rw [step]
    split
    · rename_i hid
      exact h.ended (.inl hid) rfl rfl (h.gate_of_invoke hid)
    · rename_i hid
      exact h.ended (.inr hid) rfl rfl (release_model s.gate)
    · exact h
  | failed id message =>
    rw [step]
    split
    · rename_i hid
      have hbusy : s.busy = [] := hcalm (.inl hid)
      exact (oneAtATime_answered h hid (.inl rfl)).other rfl hbusy.symm Iff.rfl
    · rename_i hid
      have hbusy : s.busy = [] := hcalm (.inr hid)
      exact (oneAtATime_answered h hid (.inr rfl)).other rfl hbusy.symm Iff.rfl
    · rename_i hid
      exact h.ended (.inl hid) rfl rfl (h.gate_of_invoke hid)
    · rename_i hid
      exact h.ended (.inr hid) rfl rfl (release_model s.gate)
    · exact h

end Steps

section

variable (controlText : Str → Str)

/-- A load that fails during an action ends its busy mark. -/
theorem calm_of_oneAtATime {s : State Row} {i : Input Row}
    (h : OneAtATime s) (hnext : OneAtATime (step controlText s i)) : Calm s i := by
  cases i with
  | failed id message =>
    intro hload
    by_contra hbusy
    obtain ⟨j, hj⟩ := h.busy.mp hbusy
    have hne : j ≠ id := by
      rintro rfl
      rcases hload with hload | hload <;> rcases hj with hj | hj <;> nomatch hload.unique hj
    have hflight : ∀ k, (s.tasks.take id).Holds j k ↔ s.tasks.Holds j k := by
      intro k
      rw [Slots.holds_take]
      exact and_iff_right hne
    have hkeep : Acting (s.answered id) j := hj.imp (hflight .invoke).mpr (hflight .send).mpr
    rcases hload with hload | hload
    · have hstep : step controlText s (.failed id message)
          = (s.answered id).reloadFailed message := by
        rw [Slots.Holds] at hload
        rw [step, hload]
      rw [hstep] at hnext
      exact hnext.busy.mpr ⟨j, hkeep⟩ rfl
    have hstep : step controlText s (.failed id message)
        = (s.answered id).loadTargetsFailed message := by
      rw [Slots.Holds] at hload
      rw [step, hload]
    rw [hstep] at hnext
    exact hnext.busy.mpr ⟨j, hkeep⟩ rfl
  | _ => trivial

theorem oneAtATime_along {s : State Row} (h : OneAtATime s)
    (inputs : List (Input Row)) :
    Machine.Along (step controlText) (fun s i => OneAtATime (step controlText s i)) s inputs ↔
      Machine.Along (step controlText) Calm s inputs := by
  induction inputs generalizing s with
  | nil => exact Iff.rfl
  | cons i inputs ih =>
    constructor
    · rintro ⟨hnext, hrest⟩
      exact ⟨calm_of_oneAtATime controlText h hnext, (ih hnext).mp hrest⟩
    · rintro ⟨hcalm, hrest⟩
      have hnext := oneAtATime_step controlText hcalm h
      exact ⟨hnext, (ih hnext).mpr hrest⟩

/-- **One action at a time, in every state of a run, exactly when no load fails during an
action.** -/
theorem one_action_at_a_time (inputs : List (Input Row)) :
    Machine.Along (step controlText) (fun s i => OneAtATime (step controlText s i)) {} inputs ↔
      Machine.Along (step controlText) Calm {} inputs :=
  oneAtATime_along controlText oneAtATime_start inputs

end

/-- A reload that fails during an action. -/
def failedReload : List (Input Unit) :=
  [.reload, .invoke "p".toList "i".toList "a".toList, .failed 0 []]

/-- The failed reload ends the busy mark of the action, and the same action can be started again
while the first one is in flight. -/
theorem failed_reload_frees_busy :
    ¬ OneAtATime (Machine.run (step id) {} failedReload) ∧
    (Machine.run (step id) {} failedReload).busy = [] ∧
    (Machine.run (step id) {} (failedReload ++ [.invoke "p".toList "i".toList "a".toList])).tasks.get 1
      = some .invoke ∧
    (Machine.run (step id) {} (failedReload ++ [.invoke "p".toList "i".toList "a".toList])).tasks.get 2
      = some .invoke := by
  have hbusy : (Machine.run (step id) {} failedReload).busy = [] := by decide
  have hflight : (Machine.run (step id) {} failedReload).tasks.get 1 = some .invoke := by decide
  refine ⟨fun h => ?_, hbusy, by decide, by decide⟩
  exact h.busy.mpr ⟨1, .inl hflight⟩ hbusy

end BlueFerry.Surfaces
