import BlueFerry.Lib.Machine
import BlueFerry.Lib.Trace
import BlueFerry.Proximity.Lock

/-! # When the proximity lock locks

A lock is dispatched only for an absence that is backed by the log: the phone was observed as
present, then as absent, and nothing since has called that off. `View` is what of a world the states
of the lock depend on, and `View.Sound` what each state says about the log.
-/

namespace BlueFerry.Proximity

/-! ## What the log must say -/

/-- After this, presence has to be observed afresh. -/
def barrier : Entry → Prop
  | .enabled => True
  | .inhibitor _ _ => True
  | .reset => True
  | .present => False
  | .absent _ => False
  | .unknownAtExpiry => False
  | .locked _ _ _ _ => True

/-- This ends an absence. -/
def endsAbsence (entry : Entry) : Prop :=
  barrier entry ∨ entry = .present ∨ entry = .unknownAtExpiry

/-- The phone was observed as present since the last barrier. -/
def SeenPresent (log : List Entry) : Prop :=
  Trace.Since barrier (fun entry _ => entry = .present) log

/-- The phone was observed as present since the last barrier, then as absent at this time, and
nothing has ended the absence. -/
def AwaySince (since : ℚ) (log : List Entry) : Prop :=
  Trace.Since endsAbsence (fun entry earlier => entry = .absent since ∧ SeenPresent earlier) log

/-- A lock is dispatched by an enabled lock without inhibitors, after an absence of at least its
grace period. -/
def LockDue : Entry → List Entry → Prop
  | .locked now graceSec enabled inhibitors, earlier =>
    enabled = true ∧ inhibitors = ∅ ∧ ∃ since, since + graceSec ≤ now ∧ AwaySince since earlier
  | _, _ => True

/-! ## The view -/

structure View where
  enabled : Bool
  graceSec : ℤ
  state : LockState
  inhibitors : Finset Inhibitor
  absentSince : Option ℚ
  log : List Entry

section

variable (w : World)

def World.view : View :=
  ⟨w.lock.enabled, w.lock.graceSec, w.lock.state, w.lock.inhibitors, w.lock.absentSince, w.log⟩

@[simp] theorem view_emitIfChanged : w.emitIfChanged.view = w.view := by
  unfold World.emitIfChanged
  split <;> rfl

@[simp] theorem view_cancelTimer : w.cancelTimer.view = w.view := by
  unfold World.cancelTimer
  split <;> rfl

@[simp] theorem view_cancelSettle : w.cancelSettle.view = w.view := by
  unfold World.cancelSettle
  split <;> rfl

@[simp] theorem view_scheduleSettle : w.scheduleSettle.view = w.view := by
  have h := view_cancelSettle w
  exact h

@[simp] theorem view_armTimer (now : ℚ) : (w.armTimer now).view = w.view := by
  have h := view_cancelTimer w
  unfold World.armTimer
  dsimp only
  split
  · exact h
  · exact h

theorem view_forgetPresence : w.forgetPresence.view = { w.view with absentSince := none } := by
  have h : w.cancelTimer.cancelSettle.view = w.view := by
    rw [view_cancelSettle, view_cancelTimer]
  rw [← h]
  rfl

@[simp] theorem view_done (generation : Nat) (result : LockResult) :
    (w.done generation result).view = w.view := by
  unfold World.done
  dsimp only
  split
  · rfl
  rw [view_emitIfChanged]
  rfl

end

namespace View

/-- What each state says about the log. -/
structure Sound (v : View) : Prop where
  armed : v.state = .armed → v.enabled = true ∧ v.inhibitors = ∅ ∧ SeenPresent v.log
  grace : v.state = .grace → v.enabled = true ∧ v.inhibitors = ∅ ∧
    ∀ since, v.absentSince = some since → AwaySince since v.log
  inhibited : v.enabled = true → v.inhibitors ≠ ∅ → v.state = .idle
  off : v.enabled = false → v.state = .disabled
  due : Trace.Each LockDue v.log

/-- A state that says nothing about the log. -/
theorem sound_quiet {v : View} (harmed : v.state ≠ .armed) (hgrace : v.state ≠ .grace)
    (hinhibited : v.enabled = true → v.inhibitors ≠ ∅ → v.state = .idle)
    (hoff : v.enabled = false → v.state = .disabled) (hdue : Trace.Each LockDue v.log) : v.Sound :=
  ⟨fun h => absurd h harmed, fun h => absurd h hgrace, hinhibited, hoff, hdue⟩

/-- While an inhibitor is active, the lock is idle or off. -/
theorem Sound.paused {v : View} (h : v.Sound) {reason : Inhibitor} (hr : reason ∈ v.inhibitors) :
    v.state ≠ .armed ∧ v.state ≠ .grace := by
  have hne : v.inhibitors ≠ ∅ := Finset.ne_empty_of_mem hr
  exact ⟨fun hs => hne (h.armed hs).2.1, fun hs => hne (h.grace hs).2.1⟩

/-- What an observation does. -/
def observe (v : View) (present : Option Bool) (now : ℚ) : View :=
  match present with
  | some true => { v with absentSince := none, state := .armed, log := .present :: v.log }
  | none => v
  | some false =>
    if v.state = .armed then
      { v with absentSince := some now, state := .grace, log := .absent now :: v.log }
    else { v with log := .absent now :: v.log }

theorem Sound.observe {v : View} (h : v.Sound) (henabled : v.enabled = true)
    (hinhibitors : v.inhibitors = ∅) (present : Option Bool) (now : ℚ) :
    (v.observe present now).Sound := by
  have hon : v.enabled ≠ false := by simp [henabled]
  cases present with
  | none => exact h
  | some present =>
    cases present with
    | true =>
      refine ⟨fun _ => ⟨henabled, hinhibitors, .here rfl⟩, nofun,
        fun _ hne => absurd hinhibitors hne, fun hoff => absurd hoff hon, trivial, h.due⟩
    | false =>
      unfold View.observe
      dsimp only
      split
      · rename_i harmed
        have hseen := (h.armed harmed).2.2
        refine ⟨nofun, fun _ => ⟨henabled, hinhibitors, ?_⟩,
          fun _ hne => absurd hinhibitors hne, fun hoff => absurd hoff hon, trivial, h.due⟩
        rintro since hsince
        exact .here ⟨by rw [Option.some.inj hsince], hseen⟩
      rename_i hnot
      refine ⟨fun hs => absurd hs hnot, fun hs => ⟨henabled, hinhibitors, ?_⟩,
        h.inhibited, h.off, trivial, h.due⟩
      intro since hsince
      exact .later (by simp [endsAbsence, barrier]) ((h.grace hs).2.2 since hsince)

end View

/-! ## The methods -/

theorem view_observe (w : World) (present : Option Bool) (now : ℚ) :
    (w.observe present now).view = w.view.observe present now := by
  cases present with
  | none => rfl
  | some present =>
    cases present with
    | true =>
      have h : w.cancelTimer.cancelSettle.view = w.view := by
        rw [view_cancelSettle, view_cancelTimer]
      rw [← h]
      rfl
    | false =>
      unfold World.observe View.observe
      dsimp only
      have hstate : (w.record (.absent now)).lock.state = w.view.state := rfl
      rw [hstate]
      split
      · rw [view_armTimer]
        rfl
      · rfl

theorem sound_start (enabled : Bool) (graceSec : ℤ) : (World.start enabled graceSec).view.Sound := by
  refine View.sound_quiet ?_ ?_ ?_ ?_ trivial
  · cases enabled <;> simp [World.start, World.view]
  · cases enabled <;> simp [World.start, World.view]
  · intro _ hne
    exact absurd rfl hne
  · intro hoff
    simpa [World.start, World.view] using hoff

/-! ### configure -/

def View.configure (v : View) (enabled : Bool) (graceSec : ℤ) : View :=
  if !enabled then
    { v with
      enabled := false, graceSec := clampGrace graceSec, absentSince := none, state := .disabled }
  else if !v.enabled then
    { v with
      enabled := true, graceSec := clampGrace graceSec, state := .idle, log := .enabled :: v.log }
  else { v with graceSec := clampGrace graceSec }

theorem view_configure (w : World) (enabled : Bool) (graceSec : ℤ) (now : ℚ) :
    (w.configure enabled graceSec now).view = w.view.configure enabled graceSec := by
  have hforget := view_forgetPresence
    (w.set fun p => { p with enabled := enabled, graceSec := clampGrace graceSec })
  unfold World.configure View.configure
  rw [view_emitIfChanged]
  cases enabled with
  | false =>
    show ({ (World.forgetPresence _).view with state := .disabled } : View) = _
    rw [hforget]
    rfl
  | true =>
    cases hwas : w.lock.enabled with
    | false =>
      have hwas' : w.view.enabled = false := hwas
      simp only [hwas', Bool.not_true, Bool.not_false, Bool.false_eq_true, ↓reduceIte,
        view_scheduleSettle]
      rfl
    | true =>
      have hwas' : w.view.enabled = true := hwas
      simp only [hwas', Bool.not_true, Bool.false_eq_true, ↓reduceIte]
      split
      · rw [view_armTimer]
        rfl
      · rfl

variable {v : View}

theorem View.Sound.configure (h : v.Sound) (enabled : Bool) (graceSec : ℤ) :
    (v.configure enabled graceSec).Sound := by
  unfold View.configure
  cases enabled with
  | false =>
    exact View.sound_quiet nofun nofun nofun (fun _ => rfl) h.due
  | true =>
    cases hwas : v.enabled with
    | false =>
      exact View.sound_quiet nofun nofun (fun _ _ => rfl) nofun ⟨trivial, h.due⟩
    | true =>
      simp only [Bool.not_true, Bool.false_eq_true, ↓reduceIte]
      exact ⟨fun hs => ⟨rfl, (h.armed hs).2⟩, fun hs => ⟨rfl, (h.grace hs).2⟩,
        fun _ => h.inhibited hwas, nofun, h.due⟩

/-! ### bearer_changed -/

def View.unpause (v : View) (present : Option Bool) : View :=
  if present = some true ∧ .localDisconnect ∈ v.inhibitors then
    { v with
      inhibitors := v.inhibitors.erase .localDisconnect
      log := .inhibitor .localDisconnect false :: v.log }
  else v

def View.bearerChanged (v : View) (present : Option Bool) (now : ℚ) : View :=
  let v := v.unpause present
  if v.enabled ∧ v.inhibitors = ∅ then v.observe present now else v

section

variable (w : World) (r : Reading)

theorem view_bearerChanged : (w.bearerChanged r).view = w.view.bearerChanged r.presence r.now := by
  unfold World.bearerChanged View.bearerChanged View.unpause
  rw [view_emitIfChanged]
  have hobserve (w : World) :
      (if w.lock.enabled ∧ w.lock.inhibitors = ∅ then w.observe r.presence r.now else w).view =
        if w.view.enabled ∧ w.view.inhibitors = ∅ then w.view.observe r.presence r.now
        else w.view := by
    by_cases hopen : w.lock.enabled ∧ w.lock.inhibitors = ∅
    · rw [if_pos hopen, view_observe]
      exact (if_pos hopen).symm
    rw [if_neg hopen]
    exact (if_neg hopen).symm
  rw [hobserve]
  by_cases hpause : r.presence = some true ∧ .localDisconnect ∈ w.lock.inhibitors
  · have hpause' : r.presence = some true ∧ .localDisconnect ∈ w.view.inhibitors := hpause
    simp only [if_pos hpause, if_pos hpause']
    rfl
  · have hpause' : ¬ (r.presence = some true ∧ .localDisconnect ∈ w.view.inhibitors) := hpause
    simp only [if_neg hpause, if_neg hpause']

/-- To end an inhibitor says nothing of the presence: the lock was idle. -/
theorem View.Sound.ends (h : v.Sound) {reason : Inhibitor} (hr : reason ∈ v.inhibitors) : ({ v with
      inhibitors := v.inhibitors.erase reason
      log := .inhibitor reason false :: v.log } : View).Sound := by
  obtain ⟨harmed, hgrace⟩ := h.paused hr
  have hne : v.inhibitors ≠ ∅ := Finset.ne_empty_of_mem hr
  exact View.sound_quiet harmed hgrace (fun hon _ => h.inhibited hon hne) h.off ⟨trivial, h.due⟩

theorem View.Sound.bearerChanged (h : v.Sound) (present : Option Bool) (now : ℚ) :
    (v.bearerChanged present now).Sound := by
  have hunpause : (v.unpause present).Sound := by
    unfold View.unpause
    split
    · rename_i hpause
      exact h.ends hpause.2
    · exact h
  unfold View.bearerChanged
  dsimp only
  split
  · rename_i hopen
    exact hunpause.observe hopen.1 hopen.2 present now
  · exact hunpause

/-! ### inhibit and reset -/

def View.inhibit (v : View) (reason : Inhibitor) (active : Bool) : View :=
  if active ∧ reason ∉ v.inhibitors then
    { v with
      inhibitors := insert reason v.inhibitors
      log := .inhibitor reason true :: v.log
      absentSince := none
      state := if v.enabled then .idle else v.state }
  else if !active ∧ reason ∈ v.inhibitors then
    { v with
      inhibitors := v.inhibitors.erase reason, log := .inhibitor reason false :: v.log }
  else v

theorem view_inhibit (w : World) (reason : Inhibitor) (active : Bool) :
    (w.inhibit reason active).view = w.view.inhibit reason active := by
  unfold World.inhibit View.inhibit
  dsimp only
  rw [view_emitIfChanged]
  have hinhibitors : w.view.inhibitors = w.lock.inhibitors := rfl
  rw [hinhibitors]
  split
  · have hforget := view_forgetPresence
      ((w.set fun p => { p with inhibitors := insert reason p.inhibitors }).record
        (.inhibitor reason true))
    have henabled : (World.forgetPresence ((w.set fun p =>
        { p with inhibitors := insert reason p.inhibitors }).record
          (.inhibitor reason true))).lock.enabled = w.lock.enabled :=
      congrArg View.enabled hforget
    rw [henabled]
    cases hon : w.lock.enabled with
    | false =>
      rw [if_neg (by decide), hforget]
      simp [World.view, World.set, World.record, hon]
    | true =>
      rw [if_pos rfl]
      show ({ (World.forgetPresence _).view with state := .idle } : View) = _
      rw [hforget]
      simp [World.view, World.set, World.record, hon]
  · split
    · split
      · rw [view_scheduleSettle]
        rfl
      · rfl
    · rfl

theorem View.Sound.inhibit (h : v.Sound) (reason : Inhibitor) (active : Bool) :
    (v.inhibit reason active).Sound := by
  unfold View.inhibit
  split
  · cases hon : v.enabled with
    | false =>
      have hoff := h.off hon
      exact View.sound_quiet (by simp [hoff]) (by simp [hoff]) (by simp) (by simp [hoff])
        ⟨trivial, h.due⟩
    | true =>
      exact View.sound_quiet (by simp) (by simp) (by simp) (by simp) ⟨trivial, h.due⟩
  · split
    · rename_i hends
      exact h.ends hends.2
    · exact h

def View.reset (v : View) : View :=
  { v with
    absentSince := none, log := .reset :: v.log, state := if v.enabled then .idle else v.state }

theorem view_reset (w : World) : w.reset.view = w.view.reset := by
  have hforget := view_forgetPresence w
  have henabled : w.forgetPresence.lock.enabled = w.lock.enabled := congrArg View.enabled hforget
  unfold World.reset View.reset
  rw [view_emitIfChanged]
  have hrecord : (w.forgetPresence.record .reset).lock.enabled = w.lock.enabled := henabled
  rw [hrecord]
  cases hon : w.lock.enabled with
  | false =>
    rw [if_neg (by decide)]
    show ({ w.forgetPresence.view with log := .reset :: w.forgetPresence.view.log } : View) = _
    rw [hforget]
    simp [World.view, hon]
  | true =>
    rw [if_pos rfl]
    show ({ w.forgetPresence.view with
      log := .reset :: w.forgetPresence.view.log, state := .idle } : View) = _
    rw [hforget]
    simp [World.view, hon]

theorem View.Sound.reset (h : v.Sound) : v.reset.Sound := by
  unfold View.reset
  cases hon : v.enabled with
  | false =>
    have hoff := h.off hon
    exact View.sound_quiet (by simp [hoff]) (by simp [hoff]) (by simp) (by simp [hoff])
      ⟨trivial, h.due⟩
  | true => exact View.sound_quiet (by simp) (by simp) (by simp) (by simp) ⟨trivial, h.due⟩

/-! ### The timers -/

def View.settled (v : View) (present : Option Bool) (now : ℚ) : View :=
  if v.enabled ∧ v.inhibitors = ∅ ∧ v.state = .idle ∧ present = some true then
    v.observe (some true) now
  else v

theorem view_settled : (w.settled r).view = w.view.settled r.presence r.now := by
  unfold World.settled View.settled
  rw [view_emitIfChanged]
  split
  · rename_i hopen
    rw [view_observe]
    exact (if_pos hopen).symm
  · rename_i hnot
    exact (if_neg hnot).symm

theorem View.Sound.settled (h : v.Sound) (present : Option Bool) (now : ℚ) :
    (v.settled present now).Sound := by
  unfold View.settled
  split
  · rename_i hopen
    exact h.observe hopen.1 hopen.2.1 _ now
  · exact h

/-- What a lock leaves behind: the absence is forgotten, and a lock is recorded unless one is still
in flight. -/
def View.dispatch (v : View) (now : ℚ) (dispatching : Bool) : View :=
  { v with
    absentSince := none
    state := .locked
    log := if dispatching then v.log
      else .locked now v.graceSec v.enabled v.inhibitors :: v.log }

theorem view_dispatch : (w.dispatch r).view = w.view.dispatch r.now w.lock.dispatching := by
  unfold World.dispatch View.dispatch
  cases hbusy : w.lock.dispatching with
  | true =>
    rw [if_pos (by simpa [World.set] using hbusy)]
    rfl
  | false =>
    rw [if_neg (by simpa [World.set] using hbusy)]
    cases r.answer with
    | none => rfl
    | some result =>
      rw [view_done]
      rfl

/-- What the end of the grace period does. -/
def View.graceElapsed (v : View) (present : Option Bool) (now : ℚ) (dispatching : Bool) : View :=
  match v.absentSince with
  | none => v
  | some since =>
    if ¬ v.enabled ∨ v.inhibitors ≠ ∅ ∨ v.state ≠ .grace then v
    else
      match present with
      | some true => v.observe (some true) now
      | none => { v with absentSince := none, state := .idle, log := .unknownAtExpiry :: v.log }
      | some false => if now < since + v.graceSec then v else v.dispatch now dispatching

theorem view_graceElapsed :
    (w.graceElapsed r).view =
      w.view.graceElapsed r.presence r.now w.lock.dispatching := by
  unfold World.graceElapsed View.graceElapsed
  have hsince : (w.set fun p => { p with timerId := none }).lock.absentSince =
      w.view.absentSince := rfl
  dsimp only
  rw [hsince]
  cases w.view.absentSince with
  | none => rfl
  | some since =>
    dsimp only
    split
    · rename_i hoff
      exact (if_pos hoff).symm
    rename_i hon
    rw [view_emitIfChanged]
    refine Eq.trans ?_ (if_neg hon).symm
    cases r.presence with
    | none => rfl
    | some present =>
      cases present with
      | true => rw [view_observe]; rfl
      | false =>
        dsimp only
        split
        · rename_i hearly
          rw [view_armTimer]
          exact (if_pos hearly).symm
        · rename_i hlate
          rw [view_dispatch]
          exact (if_neg hlate).symm

end

theorem View.Sound.graceElapsed (h : v.Sound) (present : Option Bool) (now : ℚ)
    (dispatching : Bool) : (v.graceElapsed present now dispatching).Sound := by
  unfold View.graceElapsed
  split
  · exact h
  rename_i since hsince
  split
  · exact h
  rename_i hon
  have henabled : v.enabled = true := by
    by_contra hne
    exact hon (.inl hne)
  have hstate : v.state = .grace := by
    by_contra hne
    exact hon (.inr (.inr hne))
  obtain ⟨-, hinhibitors, haway⟩ := h.grace hstate
  split
  · exact h.observe henabled hinhibitors _ now
  · exact View.sound_quiet nofun nofun (fun _ _ => rfl)
      (fun hoff => absurd (henabled.symm.trans hoff) (by decide)) ⟨trivial, h.due⟩
  split
  · exact h
  rename_i hlate
  refine View.sound_quiet nofun nofun
    (fun _ hne => absurd hinhibitors hne)
    (fun hoff => absurd (henabled.symm.trans hoff) (by decide)) ?_
  cases dispatching with
  | true => exact h.due
  | false =>
    exact ⟨⟨henabled, hinhibitors, since, not_lt.mp hlate, haway since hsince⟩, h.due⟩

/-! ## Every run -/

theorem sound_fire {w : World} (h : w.view.Sound) (timer : Timer) (r : Reading) :
    (w.fire timer r).view.Sound := by
  cases timer with
  | settled =>
    rw [World.fire, view_settled]
    exact h.settled r.presence r.now
  | graceElapsed =>
    rw [World.fire, view_graceElapsed]
    exact h.graceElapsed r.presence r.now w.lock.dispatching

theorem sound_step (w : World) (i : Input × Reading) (h : w.view.Sound) :
    (step w i).view.Sound := by
  rcases i with ⟨input, r⟩
  cases input with
  | configure enabled graceSec =>
    rw [step, view_configure]
    exact h.configure enabled graceSec
  | bearerChanged =>
    rw [step, view_bearerChanged]
    exact h.bearerChanged r.presence r.now
  | inhibit reason active =>
    rw [step, view_inhibit]
    exact h.inhibit reason active
  | reset =>
    rw [step, view_reset]
    exact h.reset
  | fired n =>
    rw [step]
    dsimp only
    split
    · exact h
    rename_i armed hget
    have htaken : ({ w with timers := w.timers.take n } : World).view.Sound := h
    exact sound_fire htaken armed.timer r
  | late timer => exact sound_fire h timer r
  | answered n result =>
    rw [step]
    dsimp only
    split
    · exact h
    rw [view_done]
    exact h

theorem sound_run (enabled : Bool) (graceSec : ℤ) (inputs : List (Input × Reading)) :
    (Machine.run step (.start enabled graceSec) inputs).view.Sound := by
  have halong : Machine.Along step (fun _ _ => True) (.start enabled graceSec) inputs :=
    Machine.along_of_forall step (fun _ _ => trivial) _ _
  exact Machine.invariant step (fun w i _ => sound_step w i) halong (sound_start enabled graceSec)

/-- The entry is a dispatched lock. -/
def IsLock : Entry → Prop
  | .locked _ _ _ _ => True
  | _ => False

/-- A lock that is due was preceded by an observation of the phone, after every earlier lock. -/
theorem present_between {lock lock' : Entry} {between earlier : List Entry} (hlock : IsLock lock)
    (hlock' : IsLock lock') (hdue : LockDue lock (between ++ lock' :: earlier)) :
    .present ∈ between := by
  have hbarrier : barrier lock' := by
    cases lock' with
    | locked => trivial
    | _ => exact hlock'.elim
  have hne : ∀ e : Entry, ¬ IsLock e → lock' ≠ e := by
    rintro e he rfl
    exact he hlock'
  cases lock with
  | locked now graceSec enabled inhibitors =>
    obtain ⟨-, -, since, -, haway⟩ := hdue
    have hends : endsAbsence lock' := Or.inl hbarrier
    have habsent : ¬ (lock' = .absent since ∧ SeenPresent earlier) :=
      fun h => hne (.absent since) id h.1
    obtain ⟨later, x, mid, hbetween, -, hseen⟩ := haway.after hends habsent
    have hpresent : lock' ≠ .present := hne .present id
    obtain ⟨later', y, mid', hmid, hy⟩ := hseen.after hbarrier hpresent
    rw [hbetween, hmid, hy]
    simp
  | _ => exact hlock.elim

/-- **Every lock is due, and there is at most one for an observation of the phone.** In the log of
any run, a dispatched lock was enabled and had no inhibitor; since the last time the feature was
enabled, an inhibitor changed, presence was reset or a lock was dispatched, the phone was observed
as present and then as absent, at least the grace period ago, with no other observation of presence
and no unreadable presence at the end of a grace period since. Between two locks lies an observation
of the phone. -/
theorem locks_are_due (enabled : Bool) (graceSec : ℤ) (inputs : List (Input × Reading)) :
    let log := (Machine.run step (.start enabled graceSec) inputs).log
    Trace.Each LockDue log ∧
      ∀ later lock between lock' earlier, log = later ++ lock :: between ++ lock' :: earlier →
        IsLock lock → IsLock lock' → .present ∈ between := by
  have hdue : Trace.Each LockDue (Machine.run step (.start enabled graceSec) inputs).log :=
    (sound_run enabled graceSec inputs).due
  refine ⟨hdue, ?_⟩
  intro later lock between lock' earlier hlog hlock hlock'
  rw [hlog, List.append_assoc] at hdue
  exact present_between hlock hlock' (Trace.Each.of_append hdue)

/-- The phone is seen, then gone for ten seconds. -/
example : (Machine.run step (.start true 10)
    [(.bearerChanged, ⟨0, some true, none⟩), (.bearerChanged, ⟨1, some false, none⟩),
      (.fired 0, ⟨11, some false, none⟩)]).log =
    [.locked 11 10 true ∅, .absent 1, .present] := by
  decide +kernel

end BlueFerry.Proximity
