import BlueFerry.Lib.Dict
import BlueFerry.Text.CaseMapping

/-! # Waiting for a transfer

`wait_for_transfer` polls the status of a transfer, while a watch collects the terminal signals of
its session. A run of the loop is given by what each round is answered (`Round`); the statuses that
the wait observes are kept in their order (`Wait.seen`), so that what it returns or raises can be
compared with them (`Safe`).
-/

namespace BlueFerry.Transfer

open BlueFerry.Text

def TRANSFER_IFACE : Str := "org.bluez.obex.Transfer1".toList

def DISAPPEARED_ERRORS : List Str :=
  ["org.freedesktop.DBus.Error.UnknownObject".toList, "org.bluez.obex.Error.NotFound".toList]

def complete : Str := "complete".toList
def error : Str := "error".toList

/-- `status in {"complete", "error"}` -/
def Terminal (status : Str) : Prop := status = complete ∨ status = error

instance (status : Str) : Decidable (Terminal status) := inferInstanceAs (Decidable (_ ∨ _))

/-! ## The watch -/

/-- A `PropertiesChanged` signal, with `str(changed.get("Status") or "")`. -/
structure Signal where
  interface : Str
  path : Str
  status : Str

structure TransferStatusWatch where
  leading : Str
  terminals : Dict Str Str

namespace TransferStatusWatch

/-- `TransferStatusWatch(session_path)`, once it is subscribed. -/
def subscribed (sessionPath : Str) : TransferStatusWatch := ⟨sessionPath ++ ['/'], .empty⟩

/-- `_changed`: the last 256 paths are kept, the latest last. -/
def changed (w : TransferStatusWatch) (x : Signal) : TransferStatusWatch :=
  let status := casefold x.status
  if x.interface ≠ TRANSFER_IFACE ∨ ¬ w.leading <+: x.path ∨ ¬ Terminal status then w
  else { w with terminals := ((w.terminals.erase x.path).set x.path status).keepLast 256 }

/-- The signals that arrive before `terminal` looks. -/
def deliver (w : TransferStatusWatch) (signals : List Signal) : TransferStatusWatch :=
  signals.foldl changed w

def terminal (w : TransferStatusWatch) (path : Str) : Option Str := w.terminals.get? path

end TransferStatusWatch

/-! ## The wait -/

/-- An exception: an error that D-Bus reports, or another one. -/
inductive Failure where
  | dbus (name : Str)
  | other
  deriving DecidableEq

/-- What leaves the `try` block. -/
inductive Raised where
  /-- by `check_progress` or `get_progress`, which look at files and raise no D-Bus errors -/
  | callback
  /-- while the proxy of the transfer is made -/
  | proxy (failure : Failure)
  /-- by a read; unless the transfer is gone, a D-Bus error comes as a `RuntimeError` -/
  | read (failure : Failure)
  | overLimit
  | timedOut
  deriving DecidableEq

/-- The exception says that the transfer is gone. -/
def Raised.disappeared : Raised → Bool
  | .proxy (.dbus name) | .read (.dbus name) => name ∈ DISAPPEARED_ERRORS
  | _ => false

/-- The arguments; the session is that of the watch behind `terminal_status`. -/
structure Arguments where
  transferPath : Str
  initialStatus : Str
  timeoutS : ℚ
  overallTimeoutS : Option ℚ
  allowDisappearance : Bool
  session : Option Str

/-- What the calls of one round are answered, and the signals that came before it. -/
structure Round where
  signals : List Signal
  /-- `get_progress()`, unless it raises; where there is none, it is always the same -/
  progress : Option ℤ
  /-- the clock when the progress has increased -/
  moved : ℚ
  now : ℚ
  read : Except Failure Str
  /-- there is a `check_progress`, and it raises -/
  checkRaises : Bool

structure Environment where
  /-- the signals before the wait -/
  signals : List Signal
  checkRaises : Bool
  proxy : Option Failure
  startedAt : ℚ
  progress : Option ℤ
  rounds : ℕ → Round
  /-- the signals of the half second after the transfer is gone -/
  handoff : List Signal

/-- A status is observed. -/
inductive Sighting where
  | initial (status : Str)
  | signal (status : Str)
  | read (status : Str)

def Sighting.status : Sighting → Str
  | .initial status | .signal status | .read status => status

structure Wait where
  status : Str
  watch : Option TransferStatusWatch
  deadline : ℚ
  lastProgress : ℤ
  /-- what was observed, the first one first -/
  seen : List Sighting

inductive Result where
  | complete
  | gone
  | transferFailed
  | outcomeUnknown
  | raised (raised : Raised)
  deriving DecidableEq

/-- The end of a wait: how often the transfer was cancelled, what was seen, what was caught. -/
structure Outcome where
  result : Result
  cancels : ℕ
  seen : List Sighting
  caught : Option Raised

def Arguments.overallDeadline (a : Arguments) (env : Environment) : Option ℚ :=
  a.overallTimeoutS.map fun limit => env.startedAt + max 0 limit

namespace Wait

def sees (w : Wait) (x : Sighting) : Wait := { w with status := x.status, seen := w.seen ++ [x] }

def hears (signals : List Signal) (w : Wait) : Wait :=
  { w with watch := w.watch.map (·.deliver signals) }

/-- What `terminal_status` reports, if it is terminal. -/
def observed (a : Arguments) (w : Wait) : Option Str :=
  (w.watch.bind (·.terminal a.transferPath)).filter (Terminal ·)

/-- The progress moves the deadline. -/
def measure (a : Arguments) (r : Round) (w : Wait) : Option Wait :=
  r.progress.map fun progress =>
    if w.lastProgress < progress then
      { w with lastProgress := progress, deadline := r.moved + max 0 a.timeoutS }
    else w

section

variable (a : Arguments) (env : Environment)

/-- One round of the loop. -/
def round (r : Round) (w : Wait) : Wait × Option Raised :=
  let w := w.hears r.signals
  match w.observed a, w.measure a r with
  | some status, _ => (w.sees (.signal status), none)
  | none, none => (w, some .callback)
  | none, some w =>
    if (a.overallDeadline env).any (· ≤ r.now) then (w, some .overLimit)
    else if w.deadline ≤ r.now then (w, some .timedOut)
    else
      match r.read with
      | .error failure => (w, some (.read failure))
      | .ok status =>
        (w.sees (.read (casefold status)), if r.checkRaises then some .callback else none)

/-- The loop, for at most `fuel` rounds. -/
def loop (a : Arguments) (env : Environment) : ℕ → ℕ → Wait → Option (Wait × Option Raised)
  | 0, _, _ => none
  | fuel + 1, k, w =>
    if Terminal w.status then some (w, none)
    else
      match w.round a env (env.rounds k) with
      | (w, some raised) => some (w, some raised)
      | (w, none) => loop a env fuel (k + 1) w

/-- What comes before the loop. -/
def start : Wait × Option Raised :=
  let status := casefold (if a.initialStatus = [] then "queued".toList else a.initialStatus)
  let w : Wait :=
    { status
      watch := a.session.map fun path => (TransferStatusWatch.subscribed path).deliver env.signals
      deadline := env.startedAt + max 0 a.timeoutS
      lastProgress := env.progress.getD 0
      seen := [.initial status] }
  if env.checkRaises then (w, some .callback)
  else
    match if Terminal status then none else env.proxy with
    | some failure => (w, some (.proxy failure))
    | none => (w, if env.progress = none then some .callback else none)

/-- What comes after the loop. A failed transfer is cancelled as well. -/
def finish (w : Wait) : Outcome :=
  if w.status = error then ⟨.transferFailed, 1, w.seen, none⟩ else ⟨.complete, 0, w.seen, none⟩

/-- The `except` block. -/
def recover (w : Wait) (raised : Raised) : Outcome :=
  if raised.disappeared then
    match (w.hears env.handoff).observed a with
    | some status => { (w.sees (.signal status)).finish with cancels := 0, caught := some raised }
    | none =>
      ⟨if a.allowDisappearance then .gone else .outcomeUnknown, 0, w.seen, some raised⟩
  else ⟨.raised raised, 1, w.seen, some raised⟩

def conclude : Wait × Option Raised → Outcome
  | (w, none) => w.finish
  | (w, some raised) => w.recover a env raised

end

end Wait

def waitForTransfer (a : Arguments) (env : Environment) (fuel : ℕ) : Option Outcome :=
  match Wait.start a env with
  | (w, none) => (w.loop a env fuel 0).map (Wait.conclude a env)
  | e => some (Wait.conclude a env e)

/-! ## What is observed -/

variable {a : Arguments} {env : Environment} {w w' : Wait} {r : Round} {status : Str}

/-- The signal reaches the watch at some point of the wait. -/
def Environment.Delivers (env : Environment) (x : Signal) : Prop :=
  x ∈ env.signals ∨ (∃ k, x ∈ (env.rounds k).signals) ∨ x ∈ env.handoff

/-- The path was signalled to have this status. -/
def Signalled (env : Environment) (path status : Str) : Prop :=
  ∃ x, env.Delivers x ∧ x.interface = TRANSFER_IFACE ∧ x.path = path ∧ casefold x.status = status

/-- The status was given, read or signalled for this path. -/
def Genuine (a : Arguments) (env : Environment) : Sighting → Prop
  | .initial status =>
    status = casefold (if a.initialStatus = [] then "queued".toList else a.initialStatus)
  | .read status => ∃ k answer, (env.rounds k).read = .ok answer ∧ casefold answer = status
  | .signal status => Signalled env a.transferPath status

/-- What the watch knows was signalled. -/
def TransferStatusWatch.Backed (env : Environment) (watch : TransferStatusWatch) : Prop :=
  ∀ path status, watch.terminal path = some status → Signalled env path status

variable {watch : TransferStatusWatch}

theorem TransferStatusWatch.Backed.changed (h : watch.Backed env) {x : Signal}
    (hx : env.Delivers x) : (watch.changed x).Backed env := by
  unfold TransferStatusWatch.changed
  dsimp only
  split
  · exact h
  rename_i hrelevant
  simp only [not_or, not_not] at hrelevant
  intro path status hstatus
  have hfound := Dict.get?_of_keepLast hstatus
  rw [Dict.get?_set, Dict.get?_erase] at hfound
  split at hfound
  · rename_i hpath
    exact ⟨x, hx, hrelevant.1, hpath.symm, Option.some.inj hfound⟩
  · exact h path status hfound

theorem TransferStatusWatch.Backed.deliver (h : watch.Backed env) {signals : List Signal}
    (hsignals : ∀ x ∈ signals, env.Delivers x) : (watch.deliver signals).Backed env := by
  unfold TransferStatusWatch.deliver
  induction signals generalizing watch with
  | nil => exact h
  | cons x signals ih =>
    exact ih (h.changed (hsignals x (by simp))) (fun y hy => hsignals y (by simp [hy]))

/-- What holds during the wait: the statuses are genuine, and only the last one may be terminal. -/
structure Wait.Sound (a : Arguments) (env : Environment) (w : Wait) : Prop where
  genuine : ∀ x ∈ w.seen, Genuine a env x
  backed : ∀ watch, w.watch = some watch → watch.Backed env
  last : ∃ earlier x, w.seen = earlier ++ [x] ∧ x.status = w.status ∧
    ∀ y ∈ earlier, ¬ Terminal y.status

/-- The first terminal status among those seen. -/
def firstTerminal (seen : List Sighting) : Option Str :=
  (seen.map Sighting.status).find? (Terminal ·)

/-- What a part of the wait comes to: an exception that no callback raised comes before any terminal
status. -/
structure Ends (a : Arguments) (env : Environment) (e : Wait × Option Raised) : Prop where
  sound : e.1.Sound a env
  blank : ∀ x, e.2 = some x → x ≠ .callback → ¬ Terminal e.1.status

namespace Wait.Sound

variable (h : w.Sound a env)
include h

theorem sees (hw : ¬ Terminal w.status) {x : Sighting}
    (hx : Genuine a env x) : (w.sees x).Sound a env := by
  obtain ⟨earlier, y, hseen, hy, hearlier⟩ := h.last
  refine ⟨?_, h.backed, w.seen, x, rfl, rfl, ?_⟩
  · intro z hz
    rcases List.mem_append.mp hz with hz | hz
    · exact h.genuine z hz
    rw [List.mem_singleton.mp hz]
    exact hx
  intro z hz
  rw [hseen] at hz
  rcases List.mem_append.mp hz with hz | hz
  · exact hearlier z hz
  rw [List.mem_singleton.mp hz, hy]
  exact hw

theorem hears {signals : List Signal}
    (hsignals : ∀ x ∈ signals, env.Delivers x) : (w.hears signals).Sound a env := by
  refine ⟨h.genuine, fun watch hwatch => ?_, h.last⟩
  obtain ⟨earlier, hearlier, rfl⟩ := Option.map_eq_some_iff.mp hwatch
  exact (h.backed earlier hearlier).deliver hsignals

/-- What the watch reports was signalled. -/
theorem observed (hs : w.observed a = some status) :
    Signalled env a.transferPath status ∧ Terminal status := by
  obtain ⟨hfound, hterminal⟩ := Option.filter_eq_some_iff.mp hs
  obtain ⟨watch, hwatch, hpath⟩ := Option.bind_eq_some_iff.mp hfound
  exact ⟨h.backed watch hwatch _ _ hpath, of_decide_eq_true hterminal⟩

/-- The first terminal status is the last status, if that is terminal. -/
theorem firstTerminal_seen :
    firstTerminal w.seen = if Terminal w.status then some w.status else none := by
  obtain ⟨earlier, x, hseen, hx, hearlier⟩ := h.last
  have hnone : (earlier.map Sighting.status).find? (Terminal ·) = none := by simpa using hearlier
  rw [firstTerminal, hseen, List.map_append, List.find?_append, hnone, ← hx]
  by_cases hterminal : Terminal x.status <;> simp [hterminal]

theorem ends : Ends a env (w, none) := ⟨h, nofun⟩

theorem calls : Ends a env (w, some .callback) := by
  refine ⟨h, ?_⟩
  rintro _ ⟨⟩ hne
  exact absurd rfl hne

theorem raises (hw : ¬ Terminal w.status) (x : Raised) :
    Ends a env (w, some x) := ⟨h, fun _ _ _ => hw⟩

/-- Measuring moves the deadline only. -/
theorem measure (hm : w.measure a r = some w') : w'.Sound a env ∧ w'.status = w.status := by
  obtain ⟨progress, -, rfl⟩ := Option.map_eq_some_iff.mp hm
  split <;> exact ⟨⟨h.genuine, h.backed, h.last⟩, rfl⟩

theorem round (hw : ¬ Terminal w.status) (k : ℕ) : Ends a env (w.round a env (env.rounds k)) := by
  have hheard : (w.hears (env.rounds k).signals).Sound a env :=
    h.hears (fun x hx => .inr (.inl ⟨k, hx⟩))
  unfold Wait.round
  dsimp only
  split
  · rename_i status hobserved
    exact (hheard.sees hw (x := .signal status) (hheard.observed hobserved).1).ends
  · exact hheard.calls
  rename_i w₁ _ hm
  obtain ⟨hmeasured, hstatus⟩ := hheard.measure hm
  have hw₁ : ¬ Terminal w₁.status := by
    rw [hstatus]
    exact hw
  split
  · exact hmeasured.raises hw₁ _
  split
  · exact hmeasured.raises hw₁ _
  split
  · exact hmeasured.raises hw₁ _
  rename_i answer hanswer
  have hseen := hmeasured.sees hw₁ (x := .read (casefold answer)) ⟨k, answer, hanswer, rfl⟩
  split
  · exact hseen.calls
  · exact hseen.ends

/-- The loop ends with a terminal status, or something is raised. -/
theorem loop {fuel k : ℕ} {e : Wait × Option Raised}
    (he : w.loop a env fuel k = some e) : Ends a env e ∧ (e.2 = none → Terminal e.1.status) := by
  induction fuel generalizing k w with
  | zero => cases he
  | succ fuel ih =>
    unfold Wait.loop at he
    split at he
    · rename_i hterminal
      cases he
      exact ⟨h.ends, fun _ => hterminal⟩
    rename_i hrunning
    have hround := h.round hrunning k
    split at he
    · rename_i hraised
      cases he
      rw [hraised] at hround
      exact ⟨hround, nofun⟩
    · rename_i hgoes
      rw [hgoes] at hround
      exact ih hround.sound he

end Wait.Sound

theorem ends_start : Ends a env (Wait.start a env) := by
  unfold Wait.start
  extract_lets status w
  have hsound : w.Sound a env := by
    refine ⟨?_, ?_, [], .initial status, rfl, rfl, nofun⟩
    · intro x hx
      rw [List.mem_singleton.mp hx]
      rfl
    intro watch hwatch
    obtain ⟨path, -, rfl⟩ := Option.map_eq_some_iff.mp hwatch
    have hempty : (TransferStatusWatch.subscribed path).Backed env := fun _ _ h => nomatch h
    exact hempty.deliver (fun x hx => .inl hx)
  split
  · exact hsound.calls
  split
  · rename_i hproxy
    refine hsound.raises (fun hterminal => ?_) _
    rw [if_pos hterminal] at hproxy
    cases hproxy
  · split
    · exact hsound.calls
    · exact hsound.ends

/-! ## The outcome -/

/-- An exception said that the transfer is gone. -/
def Outcome.Disappeared (out : Outcome) : Prop :=
  ∃ x, out.caught = some x ∧ x.disappeared = true

/-- What the outcome says about what was seen. -/
structure Outcome.Safe (a : Arguments) (env : Environment) (out : Outcome) : Prop where
  genuine : ∀ x ∈ out.seen, Genuine a env x
  complete : out.result = .complete → firstTerminal out.seen = some complete
  failed : out.result = .transferFailed ↔
    firstTerminal out.seen = some error ∧ out.caught ≠ some .callback
  unknown : a.allowDisappearance = false →
    (out.result = .outcomeUnknown ↔ out.Disappeared ∧ firstTerminal out.seen = none)
  never_gone : a.allowDisappearance = false → out.result ≠ .gone
  cancelled : ∀ x, out.result = .raised x → out.caught = some x ∧ out.cancels = 1

theorem complete_ne_error : complete ≠ error := by decide

theorem Wait.Sound.safe (h : w.Sound a env) (hw : Terminal w.status) (cancels : ℕ)
    {caught : Option Raised} (hcaught : caught ≠ some .callback) :
    ({ w.finish with cancels, caught } : Outcome).Safe a env := by
  have hfirst := h.firstTerminal_seen
  rw [if_pos hw] at hfirst
  unfold Wait.finish
  rcases hw with hw | hw
  · rw [hw] at hfirst
    rw [if_neg (by rw [hw]; exact complete_ne_error)]
    refine ⟨h.genuine, fun _ => hfirst, ?_, ?_, nofun, nofun⟩
    · simp [hfirst, complete_ne_error]
    · simp [hfirst]
  rw [hw] at hfirst
  rw [if_pos hw]
  refine ⟨h.genuine, nofun, ?_, ?_, nofun, nofun⟩
  · simp [hfirst, hcaught]
  · simp [hfirst]

theorem Ends.safe {x : Raised} (h : Ends a env (w, some x)) : (w.recover a env x).Safe a env := by
  have hfirst (hx : x ≠ .callback) : firstTerminal w.seen = none :=
    h.sound.firstTerminal_seen.trans (if_neg (h.blank x rfl hx))
  unfold Wait.recover
  split
  · rename_i hgone
    have hx : x ≠ .callback := by
      rintro rfl
      cases hgone
    split
    · -- a signal has raced the removal
      rename_i status hobserved
      have hheard := h.sound.hears (fun y hy => .inr (.inr hy))
      obtain ⟨hgenuine, hterminal⟩ := hheard.observed hobserved
      exact (h.sound.sees (h.blank x rfl hx) (x := .signal status) hgenuine).safe hterminal 0
        (by simpa using hx)
    refine ⟨h.sound.genuine, ?_, ?_, fun ha => ?_, fun ha => ?_, ?_⟩
    · cases a.allowDisappearance <;> nofun
    · simp only [hfirst hx]
      cases a.allowDisappearance <;> simp
    · simp [ha, hfirst hx, Outcome.Disappeared, hgone]
    · simp [ha]
    · cases a.allowDisappearance <;> nofun
  · rename_i hstays
    refine ⟨h.sound.genuine, nofun, ?_, fun _ => ?_, nofun, ?_⟩
    · refine iff_of_false nofun (fun hfailed => ?_)
      have hnone := hfirst (by simpa using hfailed.2)
      exact absurd (hnone.symm.trans hfailed.1) nofun
    · simp [Outcome.Disappeared, hstays]
    · rintro y ⟨⟩
      exact ⟨rfl, rfl⟩

theorem safe_waitForTransfer {fuel : ℕ} {out : Outcome}
    (h : waitForTransfer a env fuel = some out) : out.Safe a env := by
  have hstart : Ends a env (Wait.start a env) := ends_start
  unfold waitForTransfer at h
  split at h
  · rename_i hgoes
    rw [hgoes] at hstart
    obtain ⟨⟨w, raised⟩, hloop, rfl⟩ := Option.map_eq_some_iff.mp h
    obtain ⟨hends, hterminal⟩ := hstart.sound.loop hloop
    cases raised with
    | none =>
      have hcaught : w.finish.caught ≠ some .callback := by
        unfold Wait.finish
        split <;> nofun
      exact hends.sound.safe (hterminal rfl) _ hcaught
    | some x => exact hends.safe
  · rename_i hraised
    cases h
    generalize Wait.start a env = e at hstart hraised
    obtain ⟨w, raised⟩ := e
    cases raised with
    | none => exact absurd rfl (hraised w)
    | some x => exact hstart.safe

/-! ## The end of the loop -/

/-- The clock is past this time in all later rounds. -/
def Environment.Passes (env : Environment) (time : ℚ) : Prop :=
  ∀ᶠ k in Filter.atTop, time ≤ (env.rounds k).now

/-- From round `n` on the progress is not above what it was before. -/
def Environment.Stalls (env : Environment) (n : ℕ) : Prop :=
  ∀ k p, n ≤ k → (env.rounds k).progress = some p → (∃ q, env.progress = some q ∧ p ≤ q) ∨
    ∃ j q, j < n ∧ (env.rounds j).progress = some q ∧ p ≤ q

/-- The deadlines that progress before round `n` may have set. -/
def deadlines (a : Arguments) (env : Environment) (n : ℕ) : List ℚ :=
  (env.startedAt :: (List.range n).map fun k => (env.rounds k).moved).map (· + max 0 a.timeoutS)

/-- There is an overall limit or the progress stalls, and the clock passes the deadline. -/
def Limited (a : Arguments) (env : Environment) : Prop :=
  (∃ time, a.overallDeadline env = some time ∧ env.Passes time) ∨
    ∃ n, env.Stalls n ∧ ∀ time ∈ deadlines a env n, env.Passes time

/-- A deadline of the list holds, and the progress is at least what was read before round `k`. -/
structure Wait.Paced (a : Arguments) (env : Environment) (n k : ℕ) (w : Wait) : Prop where
  deadline : w.deadline ∈ deadlines a env n
  first : ∀ q, env.progress = some q → q ≤ w.lastProgress
  before : ∀ j q, j < k → (env.rounds j).progress = some q → q ≤ w.lastProgress

/-- A round after which the loop goes on. -/
theorem Wait.goes_on (hnone : (w.round a env r).2 = none)
    (hrunning : ¬ Terminal (w.round a env r).1.status) :
    ∃ w', (w.hears r.signals).measure a r = some w' ∧ r.now < w'.deadline ∧
      (∀ time, a.overallDeadline env = some time → r.now < time) ∧
      (w.round a env r).1.deadline = w'.deadline ∧
      (w.round a env r).1.lastProgress = w'.lastProgress := by
  unfold Wait.round at hnone hrunning ⊢
  dsimp only at hnone hrunning ⊢
  split at hnone
  · rename_i hobserved
    rw [hobserved] at hrunning
    exact absurd (of_decide_eq_true (Option.filter_eq_some_iff.mp hobserved).2) hrunning
  · cases hnone
  rename_i w₁ hobserved hm
  split at hnone
  · cases hnone
  rename_i hlimit
  split at hnone
  · cases hnone
  rename_i hdeadline
  rw [if_neg hlimit, if_neg hdeadline]
  refine ⟨w₁, hm, not_le.mp hdeadline, ?_, ?_⟩
  · intro time htime
    simpa [htime] using hlimit
  · split <;> exact ⟨rfl, rfl⟩

theorem Wait.Paced.measure {n k : ℕ} (h : w.Paced a env n k) (hstalls : env.Stalls n)
    (hm : w.measure a (env.rounds k) = some w') : w'.Paced a env n (k + 1) := by
  obtain ⟨p, hp, rfl⟩ := Option.map_eq_some_iff.mp hm
  have hread (j : ℕ) (q : ℤ) (hj : j < k + 1) (hq : (env.rounds j).progress = some q) :
      q ≤ w.lastProgress ∨ q = p := by
    rcases Nat.lt_succ_iff_lt_or_eq.mp hj with hj | rfl
    · exact .inl (h.before j q hj hq)
    · exact .inr (Option.some.inj (hq.symm.trans hp))
  split
  · rename_i hmore
    have hk : k < n := by
      by_contra hk
      rcases hstalls k p (not_lt.mp hk) hp with ⟨q, hq, hle⟩ | ⟨j, q, hj, hq, hle⟩
      · exact absurd (hle.trans (h.first q hq)) (not_le.mpr hmore)
      · exact absurd (hle.trans (h.before j q (by omega) hq)) (not_le.mpr hmore)
    refine ⟨List.mem_map_of_mem (.tail _ (List.mem_map.mpr ⟨k, List.mem_range.mpr hk, rfl⟩)),
      fun q hq => (h.first q hq).trans hmore.le, fun j q hj hq => ?_⟩
    have := hread j q hj hq
    dsimp only
    omega
  · refine ⟨h.deadline, h.first, fun j q hj hq => ?_⟩
    have := hread j q hj hq
    omega

/-- The loop ends if it does not go on from round `m` on. -/
theorem exists_loop {P : ℕ → Wait → Prop} {m : ℕ}
    (hstep : ∀ k w, P k w → (w.round a env (env.rounds k)).2 = none →
      ¬ Terminal (w.round a env (env.rounds k)).1.status →
      k < m ∧ P (k + 1) (w.round a env (env.rounds k)).1) {k : ℕ} (h : P k w) :
    ∃ fuel e, w.loop a env fuel k = some e := by
  obtain ⟨left, hleft⟩ : ∃ left, m ≤ k + left := ⟨m, Nat.le_add_left _ _⟩
  induction left generalizing k w with
  | zero | succ left ih =>
    by_cases hw : Terminal w.status
    · exact ⟨1, (w, none), if_pos hw⟩
    have hloop (fuel : ℕ) : w.loop a env (fuel + 1) k =
        match w.round a env (env.rounds k) with
        | (w, some raised) => some (w, some raised)
        | (w, none) => w.loop a env fuel (k + 1) := if_neg hw
    have hstep := hstep k w h
    generalize w.round a env (env.rounds k) = e at hloop hstep
    obtain ⟨w', raised⟩ := e
    cases raised with
    | some x => exact ⟨1, _, hloop 0⟩
    | none =>
      by_cases hw' : Terminal w'.status
      · exact ⟨2, (w', none), (hloop 1).trans (if_pos hw')⟩
      obtain ⟨hk, hP⟩ := hstep rfl hw'
      first
        | omega
        | obtain ⟨fuel, e, he⟩ := ih hP (by omega)
          exact ⟨fuel + 1, e, (hloop fuel).trans he⟩

theorem paced_start (h : Wait.start a env = (w, none)) (n : ℕ) : w.Paced a env n 0 := by
  unfold Wait.start at h
  extract_lets status w₀ at h
  have hpaced : w₀.Paced a env n 0 := by
    refine ⟨.head _, fun q hq => ?_, fun j q hj => absurd hj (Nat.not_lt_zero j)⟩
    exact le_of_eq (by simp [w₀, hq])
  have hw : w₀ = w := by
    split at h
    · exact absurd (congrArg Prod.snd h) nofun
    split at h
    · exact absurd (congrArg Prod.snd h) nofun
    · exact (Prod.mk.inj h).1
  rw [← hw]
  exact hpaced

theorem exists_waitForTransfer (h : Limited a env) :
    ∃ fuel out, waitForTransfer a env fuel = some out := by
  suffices hloop : ∀ w, Wait.start a env = (w, none) → ∃ fuel e, w.loop a env fuel 0 = some e by
    unfold waitForTransfer
    split
    · rename_i w hstart
      obtain ⟨fuel, e, he⟩ := hloop w hstart
      exact ⟨fuel, _, congrArg (Option.map _) he⟩
    · exact ⟨0, _, rfl⟩
  intro w hstart
  rcases h with ⟨time, htime, hm⟩ | ⟨n, hstalls, hpasses⟩
  · obtain ⟨m, hm⟩ := Filter.eventually_atTop.mp hm
    refine exists_loop (P := fun _ _ => True) (m := m) (fun k w _ hnone hrunning => ⟨?_, trivial⟩)
      trivial
    obtain ⟨-, -, -, hnow, -, -⟩ := w.goes_on hnone hrunning
    exact not_le.mp (fun hk => absurd (hm k hk) (not_le.mpr (hnow time htime)))
  obtain ⟨m, hm⟩ := Filter.eventually_atTop.mp
    ((Filter.eventually_all_finite (List.finite_toSet _)).mpr hpasses)
  refine exists_loop (m := m) (fun k w h hnone hrunning => ?_) (paced_start hstart n)
  obtain ⟨w', hmeasure, hnow, -, hdeadline, hprogress⟩ := w.goes_on hnone hrunning
  have hheard : (w.hears (env.rounds k).signals).Paced a env n k := ⟨h.deadline, h.first, h.before⟩
  have hpaced := hheard.measure hstalls hmeasure
  refine ⟨not_le.mp (fun hk => ?_), ?_, ?_, ?_⟩
  · exact absurd (hm k hk _ hpaced.deadline) (not_le.mpr hnow)
  · rw [hdeadline]
    exact hpaced.deadline
  · rw [hprogress]
    exact hpaced.first
  · rw [hprogress]
    exact hpaced.before

end BlueFerry.Transfer
