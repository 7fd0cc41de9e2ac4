import BlueFerry.Bearers.Safety
import BlueFerry.Proximity.Locking

/-! # The pause after a disconnect of this computer

`daemon.py` joins the bearer supervisor and the proximity lock: the lock reads the presence of the
phone from the states of the two bearers (`_proximity_presence`), and it is told of every status
that the supervisor publishes (`_bearer_status_changed`) and of every disconnect that this computer
started (`_on_device_disconnected`). Such a disconnect pauses the lock.

The log of a `Daemon` is what the two of them did, newest first: what the supervisor observed and
told, what the lock recorded, and the disconnects.
-/

namespace BlueFerry.Proximity

open BlueFerry.Text
open BlueFerry.Bearers (Tale)

/-- What happened. -/
inductive Event where
  /-- BlueZ reports that this computer ended the connection -/
  | localDisconnect
  | bearers (tale : Tale)
  | lock (entry : Entry)
  deriving DecidableEq

structure Daemon where
  bearers : Bearers.World
  proximity : World
  log : List Event

def Daemon.start (leEnabled : Bool) (now : ℚ) (enabled : Bool) (graceSec : ℤ) : Daemon where
  bearers := .start leEnabled now
  proximity := .start enabled graceSec
  log := []

section

variable (d : Daemon)

def Daemon.record (event : Event) : Daemon := { d with log := event :: d.log }

/-- `_proximity_presence`. -/
def Daemon.proximityPresence : Option Bool :=
  presenceFromBearers (d.bearers.supervisor.states .bredr) (d.bearers.supervisor.states .le)

/-- The lock, before it has recorded anything. -/
def World.unrecorded (w : World) : World := { w with log := [] }

/-- A step of the lock; what it records is put into the log. -/
def Daemon.stepLock (i : Input × Reading) : Daemon :=
  let proximity := step d.proximity.unrecorded i
  { d with proximity := proximity, log := proximity.log.map .lock ++ d.log }

/-- What the supervisor observed or told, at a reading of the lock's clock. `_bearer_status_changed`
hands a status on to the lock. -/
def Daemon.follow (told : Tale × ℚ) : Daemon :=
  let d := d.record (.bearers told.1)
  match told.1 with
  | .status bredr le => d.stepLock (.bearerChanged, ⟨told.2, presenceFromBearers bredr le, none⟩)
  | _ => d

/-- What the supervisor observed and told in its last step, oldest first, each with a reading of the
lock's clock. -/
def Daemon.told (times : Nat → ℚ) : List (Tale × ℚ) :=
  d.bearers.story.reverse.mapIdx fun n tale => (tale, times n)

/-- A step of the supervisor. -/
def Daemon.stepBearers (i : Bearers.Input × Bearers.Reading) : Daemon :=
  { d with bearers := Bearers.step { d.bearers with story := [] } i }

/-- The last part of a dotted name. -/
def lastPart (name : Str) : Str := (name.reverse.takeWhile (· ≠ '.')).reverse

/-- `_on_device_disconnected`. -/
def Daemon.onDeviceDisconnected (reason : Str) (now : ℚ) : Daemon :=
  if casefold (lastPart (reason.take 128)) = "local".toList then
    (d.record .localDisconnect).stepLock
      (.inhibit .localDisconnect true, ⟨now, d.proximityPresence, none⟩)
  else d

/-- What meets the daemon. Only a disconnect of this computer begins its inhibitor, and nothing but
the lock itself ends it. -/
inductive DaemonInput where
  | bearers (input : Bearers.Input) (reading : Bearers.Reading) (times : Nat → ℚ)
  | deviceDisconnected (reason : Str)
  | configure (enabled : Bool) (graceSec : ℤ)
  | inhibit (reason : {reason : Inhibitor // reason ≠ .localDisconnect}) (active : Bool)
  | reset
  | fired (n : Nat)
  | late (timer : Timer)
  | answered (n : Nat) (result : LockResult)

/-- The step of the lock alone that an input is. -/
def DaemonInput.ofLock : DaemonInput → Option Input
  | .configure enabled graceSec => some (.configure enabled graceSec)
  | .inhibit reason active => some (.inhibit reason active)
  | .reset => some .reset
  | .fired n => some (.fired n)
  | .late timer => some (.late timer)
  | .answered n result => some (.answered n result)
  | .bearers _ _ _ => none
  | .deviceDisconnected _ => none

/-- A step of the daemon, with the clock of the lock and what `locker.lock` answers at once. -/
def daemonStep (i : DaemonInput × ℚ × Option LockResult) : Daemon :=
  match i.1 with
  | .bearers input reading times =>
    let d := d.stepBearers (input, reading)
    Machine.run Daemon.follow d (d.told times)
  | .deviceDisconnected reason => d.onDeviceDisconnected reason i.2.1
  | input =>
    match input.ofLock with
    | none => d
    | some input => d.stepLock (input, ⟨i.2.1, d.proximityPresence, i.2.2⟩)

/-! ## What the pause is about -/

/-- A bearer that was not connected is observed to be connected. -/
def IsRise : Event → Prop
  | .bearers (.observed _ previous value) => previous ≠ some true ∧ value = some true
  | _ => False

instance : DecidablePred IsRise
  | .localDisconnect => .isFalse id
  | .lock _ => .isFalse id
  | .bearers tale =>
    match tale with
    | .observed _ previous value =>
      inferInstanceAs (Decidable (previous ≠ some true ∧ value = some true))
    | .status _ _ => .isFalse id
    | .leState _ => .isFalse id
    | .leDial _ => .isFalse id
    | .reconnect => .isFalse id
    | .bondReport => .isFalse id

/-- This computer ended the connection, and no bearer has come back since. -/
def Waiting (log : List Event) : Prop :=
  Trace.Since IsRise (fun event _ => event = .localDisconnect) log

instance (log : List Event) : Decidable (Waiting log) :=
  inferInstanceAs (Decidable (Trace.Since _ _ log))

/-- A status that reads a bearer as connected is not published before one has come back. -/
def Fresh (told : Tale × ℚ) : Prop :=
  match told.1 with
  | .status bredr le => presenceFromBearers bredr le = some true → ¬ Waiting d.log
  | _ => True

end

instance (d : Daemon) : DecidablePred (Fresh d)
  | (.status bredr le, _) =>
    inferInstanceAs (Decidable (presenceFromBearers bredr le = some true → ¬ Waiting d.log))
  | (.observed _ _ _, _) => .isTrue trivial
  | (.leState _, _) => .isTrue trivial
  | (.leDial _, _) => .isTrue trivial
  | (.reconnect, _) => .isTrue trivial
  | (.bondReport, _) => .isTrue trivial

/-- Every status that the step publishes is fresh when it reaches the lock. -/
def FreshStep (d : Daemon) (i : DaemonInput × ℚ × Option LockResult) : Prop :=
  match i.1 with
  | .bearers input reading times =>
    let d := d.stepBearers (input, reading)
    Machine.Along Daemon.follow Fresh d (d.told times)
  | _ => True

instance (d : Daemon) : DecidablePred (FreshStep d)
  | (.bearers input reading times, _) =>
    inferInstanceAs (Decidable (Machine.Along Daemon.follow Fresh
      (d.stepBearers (input, reading)) ((d.stepBearers (input, reading)).told times)))
  | (.deviceDisconnected _, _) => .isTrue trivial
  | (.configure _ _, _) => .isTrue trivial
  | (.inhibit _ _, _) => .isTrue trivial
  | (.reset, _) => .isTrue trivial
  | (.fired _, _) => .isTrue trivial
  | (.late _, _) => .isTrue trivial
  | (.answered _ _, _) => .isTrue trivial

/-! ## What a step of the lock does to the pause -/

/-- The entry is not a lock, or there was no pause. -/
def Unpaused (v : View) (entry : Entry) : Prop := IsLock entry → .localDisconnect ∉ v.inhibitors

/-- The step goes on with a pause, and dispatches no lock in one. -/
structure View.Keeps (v v' : View) : Prop where
  log : ∃ new, v'.log = new ++ v.log ∧ ∀ entry ∈ new, Unpaused v entry
  pause : .localDisconnect ∈ v.inhibitors → .localDisconnect ∈ v'.inhibitors

/-- Nothing is recorded. -/
theorem View.Keeps.silent {v v' : View} (hlog : v'.log = v.log)
    (hpause : v'.inhibitors = v.inhibitors) : v.Keeps v' := by
  refine ⟨⟨[], by rw [hlog, List.nil_append], by simp⟩, ?_⟩
  intro h
  rw [hpause]
  exact h

/-- Something is recorded that is not a lock in a pause. -/
theorem View.Keeps.one {v v' : View} (entry : Entry) (hlog : v'.log = entry :: v.log)
    (hentry : Unpaused v entry)
    (hpause : .localDisconnect ∈ v.inhibitors → .localDisconnect ∈ v'.inhibitors) : v.Keeps v' := by
  refine ⟨⟨[entry], by rw [hlog, List.singleton_append], ?_⟩, hpause⟩
  intro e he
  rw [List.mem_singleton.mp he]
  exact hentry

theorem View.Keeps.observe (v : View) (present : Option Bool) (now : ℚ) :
    v.Keeps (v.observe present now) := by
  unfold View.observe
  split
  · exact .one .present rfl (fun h => h.elim) id
  · exact .silent rfl rfl
  · split <;> exact .one (.absent now) rfl (fun h => h.elim) id

theorem View.Keeps.configure (v : View) (enabled : Bool) (graceSec : ℤ) :
    v.Keeps (v.configure enabled graceSec) := by
  unfold View.configure
  split
  · exact .silent rfl rfl
  split
  · exact .one .enabled rfl (fun h => h.elim) id
  · exact .silent rfl rfl

/-- A change of an inhibitor, unless it ends the pause. -/
theorem View.Keeps.inhibit (v : View) (reason : Inhibitor) (active : Bool)
    (h : active = true ∨ reason ≠ .localDisconnect) : v.Keeps (v.inhibit reason active) := by
  unfold View.inhibit
  split
  · exact .one (.inhibitor reason true) rfl (fun h => h.elim) (Finset.mem_insert_of_mem)
  split
  · rename_i hends
    have hne : reason ≠ .localDisconnect := by
      rcases h with hactive | hne
      · simp [hactive] at hends
      · exact hne
    exact .one (.inhibitor reason false) rfl (fun h => h.elim)
      (fun hmem => Finset.mem_erase.mpr ⟨hne.symm, hmem⟩)
  · exact .silent rfl rfl

theorem View.Keeps.reset (v : View) : v.Keeps v.reset := .one .reset rfl (fun h => h.elim) id

theorem View.Keeps.settled (v : View) (present : Option Bool) (now : ℚ) :
    v.Keeps (v.settled present now) := by
  unfold View.settled
  split
  · exact .observe v (some true) now
  · exact .silent rfl rfl

theorem View.Keeps.dispatch {v : View} (h : v.inhibitors = ∅) (now : ℚ) (dispatching : Bool) :
    v.Keeps (v.dispatch now dispatching) := by
  have hnot : .localDisconnect ∉ v.inhibitors := by
    rw [h]
    exact Finset.notMem_empty _
  cases dispatching with
  | true => exact .silent rfl rfl
  | false => exact .one (.locked now v.graceSec v.enabled v.inhibitors) rfl (fun _ => hnot) id

/-- A lock is dispatched only where there is no inhibitor. -/
theorem View.Keeps.graceElapsed (v : View) (present : Option Bool) (now : ℚ)
    (dispatching : Bool) : v.Keeps (v.graceElapsed present now dispatching) := by
  unfold View.graceElapsed
  split
  · exact .silent rfl rfl
  split
  · exact .silent rfl rfl
  rename_i since _ hopen
  have hinhibitors : v.inhibitors = ∅ := by
    by_contra hne
    exact hopen (.inr (.inl hne))
  split
  · exact .observe v (some true) now
  · exact .one .unknownAtExpiry rfl (fun h => h.elim) id
  split
  · exact .silent rfl rfl
  · exact .dispatch hinhibitors now dispatching

theorem keeps_fire (w : World) (timer : Timer) (r : Reading) :
    w.view.Keeps (w.fire timer r).view := by
  cases timer with
  | settled =>
    rw [World.fire, view_settled]
    exact .settled w.view r.presence r.now
  | graceElapsed =>
    rw [World.fire, view_graceElapsed]
    exact .graceElapsed w.view r.presence r.now w.lock.dispatching

/-- **Nothing but an observation ends the pause**, and no lock is dispatched in it. -/
theorem keeps_step (w : World) (i : DaemonInput) (input : Input) (h : i.ofLock = some input)
    (r : Reading) : w.view.Keeps (step w (input, r)).view := by
  cases i with
  | bearers _ _ _ => cases h
  | deviceDisconnected _ => cases h
  | configure enabled graceSec =>
    cases h
    rw [step, view_configure]
    exact .configure w.view enabled graceSec
  | inhibit reason active =>
    cases h
    rw [step, view_inhibit]
    exact .inhibit w.view reason active (.inr reason.property)
  | reset =>
    cases h
    rw [step, view_reset]
    exact .reset w.view
  | fired n =>
    cases h
    rw [step]
    dsimp only
    split
    · exact .silent rfl rfl
    rename_i armed _
    exact keeps_fire { w with timers := w.timers.take n } armed.timer r
  | late timer =>
    cases h
    exact keeps_fire w timer r
  | answered n result =>
    cases h
    rw [step]
    dsimp only
    split
    · exact .silent rfl rfl
    rw [view_done]
    exact .silent rfl rfl

/-- A status is told: the pause goes on unless a bearer reads as connected. -/
theorem keeps_bearerChanged (w : World) (r : Reading) (h : r.presence ≠ some true) :
    w.view.Keeps (w.bearerChanged r).view := by
  rw [view_bearerChanged]
  have hpause : w.view.unpause r.presence = w.view := if_neg (fun hpause => h hpause.1)
  unfold View.bearerChanged
  rw [hpause]
  dsimp only
  split
  · exact .observe w.view r.presence r.now
  · exact .silent rfl rfl

/-- A disconnect of this computer: the pause is on, and no lock is dispatched. -/
theorem begins_pause (v : View) :
    .localDisconnect ∈ (v.inhibit .localDisconnect true).inhibitors ∧
      ∀ entry ∈ (v.inhibit .localDisconnect true).log, ¬ IsLock entry ∨ entry ∈ v.log := by
  unfold View.inhibit
  by_cases hmem : .localDisconnect ∈ v.inhibitors
  · rw [if_neg (fun hnew => hnew.2 hmem), if_neg (by simp)]
    exact ⟨hmem, fun entry hentry => .inr hentry⟩
  rw [if_pos ⟨rfl, hmem⟩]
  refine ⟨Finset.mem_insert_self _ _, ?_⟩
  intro entry hentry
  rcases List.mem_cons.mp hentry with rfl | hold
  · exact .inl id
  · exact .inr hold

/-! ## Every run -/

/-- The event is a dispatched lock. -/
def Event.Locks : Event → Prop
  | .lock entry => IsLock entry
  | .localDisconnect => False
  | .bearers _ => False

/-- A lock is dispatched only when a bearer has come back since the last disconnect of this
computer. -/
def AfterRise (event : Event) (earlier : List Event) : Prop := event.Locks → ¬ Waiting earlier

/-- The pause goes on as long as it must, and so far every lock came after a return. -/
structure Daemon.Guarded (d : Daemon) : Prop where
  paused : Waiting d.log → .localDisconnect ∈ d.proximity.lock.inhibitors
  due : Trace.Each AfterRise d.log

variable {log : List Event} {d : Daemon}

theorem waiting_record {event : Event} (h : Waiting (event :: log))
    (hevent : event ≠ .localDisconnect) : Waiting log := by
  rcases h with hhere | ⟨-, hlater⟩
  · exact absurd hhere hevent
  · exact hlater

/-- What the lock records does not begin a wait. -/
theorem waiting_lock (entries : List Entry)
    (h : Waiting (entries.map .lock ++ log)) : Waiting log := by
  induction entries with
  | nil => exact h
  | cons entry entries ih => exact ih (waiting_record h (by simp))

/-- After a return, the lock may record anything. -/
theorem due_lock (hlog : Trace.Each AfterRise log) (h : ¬ Waiting log)
    (entries : List Entry) : Trace.Each AfterRise (entries.map .lock ++ log) := by
  induction entries with
  | nil => exact hlog
  | cons entry entries ih => exact ⟨fun _ hwaiting => h (waiting_lock entries hwaiting), ih⟩

/-- A step of the lock that keeps the pause while it must go on. -/
theorem Daemon.Guarded.stepLock (h : d.Guarded) (i : Input × Reading) (hkeeps : Waiting d.log →
      d.proximity.unrecorded.view.Keeps (step d.proximity.unrecorded i).view) :
    (d.stepLock i).Guarded := by
  by_cases hwaiting : Waiting d.log
  · obtain ⟨⟨new, hnew, hentries⟩, hpause⟩ := hkeeps hwaiting
    have hpaused : .localDisconnect ∈ d.proximity.lock.inhibitors := h.paused hwaiting
    have hlog : (step d.proximity.unrecorded i).log = new := by
      rw [← List.append_nil new]
      exact hnew
    refine ⟨fun _ => hpause hpaused, ?_⟩
    refine Trace.Each.append h.due ?_
    intro event hevent before hlocks
    obtain ⟨entry, hentry, rfl⟩ := List.mem_map.mp hevent
    rw [hlog] at hentry
    exact absurd hpaused (hentries entry hentry hlocks)
  · exact ⟨fun hlater => absurd (waiting_lock _ hlater) hwaiting, due_lock h.due hwaiting _⟩

/-- Something is recorded that is neither a disconnect nor a lock. -/
theorem Daemon.Guarded.record (h : d.Guarded) {event : Event}
    (hevent : event ≠ .localDisconnect) (hlocks : ¬ event.Locks) : (d.record event).Guarded :=
  ⟨fun hwaiting => h.paused (waiting_record hwaiting hevent), fun hl => absurd hl hlocks, h.due⟩

/-- What the supervisor tells. -/
theorem Daemon.Guarded.follow (h : d.Guarded) (told : Tale × ℚ)
    (hfresh : Fresh d told) : (d.follow told).Guarded := by
  obtain ⟨tale, now⟩ := told
  have hrecord : (d.record (.bearers tale)).Guarded := h.record (by simp) id
  unfold Daemon.follow
  dsimp only
  split
  · rename_i bredr le
    refine hrecord.stepLock _ ?_
    intro hwaiting
    have hwaits : Waiting d.log := waiting_record hwaiting (by simp)
    refine keeps_bearerChanged d.proximity.unrecorded _ ?_
    intro hpresent
    exact hfresh hpresent hwaits
  · exact hrecord

/-- A disconnect of this computer begins the pause, if there is none yet. -/
theorem Daemon.Guarded.onDeviceDisconnected (h : d.Guarded) (reason : Str) (now : ℚ) :
    (d.onDeviceDisconnected reason now).Guarded := by
  unfold Daemon.onDeviceDisconnected
  split
  · have hview := view_inhibit d.proximity.unrecorded .localDisconnect true
    obtain ⟨hpaused, hlog⟩ := begins_pause d.proximity.unrecorded.view
    rw [← hview] at hpaused hlog
    refine ⟨fun _ => hpaused, ?_⟩
    have hbegin : Trace.Each AfterRise (.localDisconnect :: d.log) :=
      ⟨fun hlocks => hlocks.elim, h.due⟩
    refine hbegin.append ?_
    intro event hevent before hlocks
    obtain ⟨entry, hentry, rfl⟩ := List.mem_map.mp hevent
    rcases hlog entry hentry with hquiet | hold
    · exact absurd hlocks hquiet
    · cases hold
  · exact h

theorem Daemon.Guarded.stepBearers (h : d.Guarded)
    (i : Bearers.Input × Bearers.Reading) : (d.stepBearers i).Guarded := ⟨h.paused, h.due⟩

theorem guarded_step (d : Daemon) (i : DaemonInput × ℚ × Option LockResult) (hok : FreshStep d i)
    (h : d.Guarded) : (daemonStep d i).Guarded := by
  obtain ⟨input, now, answer⟩ := i
  have hlock (input' : Input) (hof : input.ofLock = some input') :
      (d.stepLock (input', ⟨now, d.proximityPresence, answer⟩)).Guarded :=
    h.stepLock _ (fun _ => keeps_step _ input input' hof _)
  cases input with
  | bearers input reading times =>
    exact Machine.invariant Daemon.follow (fun d told hfresh hd => hd.follow told hfresh) hok
      (h.stepBearers (input, reading))
  | deviceDisconnected reason => exact h.onDeviceDisconnected reason now
  | configure enabled graceSec | inhibit reason active | reset | fired n | late timer
    | answered n result => exact hlock _ rfl

/-- The daemon after a run. -/
def Daemon.after (leEnabled : Bool) (now : ℚ) (enabled : Bool) (graceSec : ℤ)
    (inputs : List (DaemonInput × ℚ × Option LockResult)) : Daemon :=
  Machine.run daemonStep (.start leEnabled now enabled graceSec) inputs

/-- A poll that reads the bearers as this. -/
def polled (now : ℚ) (bredr le : Bool) : DaemonInput × ℚ × Option LockResult :=
  (.bearers .poke
    ⟨now, {}, fun n => { reply := .property (if n = 0 then bredr else le) }⟩ (fun _ => now),
    now, none)

/-- Both bearers are connected when the supervisor starts. -/
def started : DaemonInput × ℚ × Option LockResult :=
  (.bearers .start (.of 0 true) (fun _ => 0), 0, none)

/-- BlueZ says that this computer ended the connection. -/
def endedHere (now : ℚ) : DaemonInput × ℚ × Option LockResult :=
  (.deviceDisconnected "org.bluez.Reason.Local".toList, now, none)

/-- The phone is disconnected here, comes back, and goes away. -/
def backAndGone : List (DaemonInput × ℚ × Option LockResult) :=
  [started, endedHere 1, polled 2 false false, polled 60 true true, polled 100 false false,
    (.fired 0, 110, none)]

/-- One bearer is down when the supervisor polls, the other at the next poll. -/
def oneByOne : List (DaemonInput × ℚ × Option LockResult) :=
  [started, endedHere 1, polled 2 false true, polled 7 false false, (.fired 0, 17, none)]

end BlueFerry.Proximity
