import BlueFerry.Lib.Machine
import BlueFerry.Profiles.Supervisor

/-! # The profile supervisor does not come to rest

Where the profiles are wanted, the supervisor is ready, or waits for a job or for a timer.

`Cycle` is what of a world this is about: the flags, the generation, the jobs and the timers. What a
method does to it is said once, by `Opens`, `Closes` and `Reconnects`; each of them ends in a cycle
that waits for something (`Live`) whenever it starts in one whose flags are backed by what is out
(`Sound`).
-/

namespace BlueFerry.Profiles

/-! ## The cycle -/

structure Cycle where
  retryId : Option Nat
  opening : Bool
  closing : Bool
  ready : Bool
  stopping : Bool
  paused : Bool
  generation : Nat
  jobs : Slots Job
  timers : Slots Armed
  wanted : Bool

def World.cycle (w : World) : Cycle where
  retryId := w.supervisor.retryId
  opening := w.supervisor.opening
  closing := w.supervisor.closing
  ready := w.supervisor.ready
  stopping := w.supervisor.stopping
  paused := w.supervisor.paused
  generation := w.supervisor.generation
  jobs := w.jobs
  timers := w.timers
  wanted := w.wanted

namespace Cycle

/-- Cancel the retry timer, if there is one. -/
def cancel (c : Cycle) : Cycle :=
  match c.retryId with
  | none => c
  | some id => { c with timers := c.timers.take id, retryId := none }

/-- Arm a timer, as the retry timer. -/
def arm (c : Cycle) (armed : Armed) : Cycle :=
  { c with timers := c.timers.put armed, retryId := some c.timers.next }

/-- Give the worker a job. -/
def submit (c : Cycle) (operation : Operation) : Cycle :=
  { c with jobs := c.jobs.put ⟨operation, c.generation⟩ }

/-- Try again later, unless that is settled already. -/
inductive Retries (c : Cycle) : Cycle → Prop
  | settled (h : c.stopping = true ∨ c.retryId ≠ none) : Retries c c
  | arms (h : ¬ (c.stopping = true ∨ c.retryId ≠ none)) (delay : Nat) :
      Retries c (c.arm ⟨delay, .retry⟩)

/-- What an attempt to open the sessions does. -/
inductive Opens (c : Cycle) : Cycle → Prop
  | blocked (h : c.stopping = true ∨ c.paused = true ∨ c.opening = true ∨ c.closing = true) :
      Opens c c
  | ready (h : ¬ (c.stopping = true ∨ c.paused = true ∨ c.opening = true ∨ c.closing = true)) :
      Opens c { c.cancel with ready := true }
  | submits (h : ¬ (c.stopping = true ∨ c.paused = true ∨ c.opening = true ∨ c.closing = true)) :
      Opens c ({ c with opening := true }.submit .openAll)
  | refused (h : ¬ (c.stopping = true ∨ c.paused = true ∨ c.opening = true ∨ c.closing = true))
      {c' : Cycle} (hretry : Retries { c with opening := false } c') : Opens c c'

/-- What handing out the closing of the sessions does. -/
inductive Closes (c : Cycle) (generation : Nat) (removeRemote : Bool) : Cycle → Prop
  | late (h : c.stopping = true ∨ generation ≠ c.generation) : Closes c generation removeRemote c
  | submits (h : ¬ (c.stopping = true ∨ generation ≠ c.generation)) :
      Closes c generation removeRemote (c.submit (.closeAll removeRemote))
  | waits (h : ¬ (c.stopping = true ∨ generation ≠ c.generation)) (delay : Nat) :
      Closes c generation removeRemote (c.arm ⟨delay, .retryClose generation removeRemote⟩)

/-- The cycle that a reconnect leaves behind, before its job. -/
def leave (c : Cycle) : Cycle :=
  { c with
    generation := c.generation + 1, ready := false, opening := false, closing := true }.cancel

/-- What a reconnect does. -/
inductive Reconnects (c : Cycle) : Cycle → Prop
  | blocked (h : c.stopping = true ∨ c.paused = true ∨ c.closing = true) : Reconnects c c
  | closes (h : ¬ (c.stopping = true ∨ c.paused = true ∨ c.closing = true)) (removeRemote : Bool)
      {c' : Cycle}
      (hcloses : Closes c.leave c.leave.generation removeRemote c') : Reconnects c c'

end Cycle

/-! ## What the methods do to the cycle -/

@[simp] theorem cycle_tellIf (w : World) (given : Bool) (callback : Callback) :
    (w.tellIf given callback).cycle = w.cycle := by
  unfold World.tellIf
  split <;> rfl

@[simp] theorem cycle_beginAttemptCycle (w : World) : w.beginAttemptCycle.cycle = w.cycle := by
  unfold World.beginAttemptCycle
  split
  · rfl
  rw [cycle_tellIf]
  rfl

@[simp] theorem cycle_completeFirstAttempt (w : World) (force attemptReady : Bool) :
    (w.completeFirstAttempt force attemptReady).cycle = w.cycle := by
  unfold World.completeFirstAttempt
  split
  · rfl
  split
  · rfl
  rw [cycle_tellIf]
  rfl

@[simp] theorem cycle_discardConsumers (w : World) (reason : BlueFerry.Text.Str) :
    (w.discardConsumers reason).cycle = w.cycle := by
  unfold World.discardConsumers
  split <;> rfl

@[simp] theorem cycle_cancelRetry (w : World) : w.cancelRetry.cycle = w.cycle.cancel := by
  have hid : w.cycle.retryId = w.supervisor.retryId := rfl
  unfold World.cancelRetry Cycle.cancel
  rw [hid]
  cases w.supervisor.retryId with
  | none => rfl
  | some id => rfl

variable {c : Cycle}

theorem retries_scheduleRetry (w : World) (delay : Nat) (hc : w.cycle = c) :
    c.Retries (w.scheduleRetry delay).cycle := by
  subst hc
  unfold World.scheduleRetry
  split
  · rename_i h
    exact .settled h
  rename_i h
  exact .arms h delay

theorem cycle_markReady (w : World) :
    w.markReady.cycle = { w.cycle.cancel with ready := true } := by
  have hcancel := cycle_cancelRetry w
  unfold World.markReady
  dsimp only
  split
  · rename_i hready
    have hready' : w.cancelRetry.cycle.ready = true := hready
    show w.cancelRetry.cycle = _
    rw [← hcancel, ← hready']
  · rw [← hcancel]
    rfl

theorem retries_openRefused (w : World) (error : BlueFerry.Text.Str)
    (hc : { w.cycle with opening := false } = c) : c.Retries (w.openRefused error).cycle :=
  retries_scheduleRetry _ _ hc

theorem opens_openSessions (w : World) (answers : Answers) :
    w.cycle.Opens (w.openSessions answers).cycle := by
  unfold World.openSessions
  dsimp only
  split
  · rename_i h
    exact .blocked h
  rename_i h
  split
  · rw [cycle_markReady]
    exact .ready h
  cases answers.refusal with
  | none => exact .submits h
  | some error => exact .refused h (retries_openRefused _ error rfl)

theorem closes_submitClose (w : World) (generation : Nat) (removeRemote : Bool)
    (answers : Answers) :
    w.cycle.Closes generation removeRemote (w.submitClose generation removeRemote answers).cycle := by
  unfold World.submitClose
  split
  · rename_i h
    exact .late h
  rename_i h
  have hgeneration : generation = w.supervisor.generation := by
    by_contra hne
    exact h (.inr hne)
  cases answers.refusal with
  | none =>
    subst hgeneration
    exact .submits h
  | some error => exact .waits h _

theorem cycle_leaveSessions (w : World) (reason : BlueFerry.Text.Str) :
    (w.leaveSessions reason).cycle = w.cycle.leave := by
  have hbegin := cycle_beginAttemptCycle w
  unfold World.leaveSessions Cycle.leave
  rw [cycle_cancelRetry, ← hbegin]
  generalize w.beginAttemptCycle = v
  congr 1
  show ({ (World.discardConsumers _ reason).cycle with opening := false, closing := true } : Cycle) = _
  rw [cycle_discardConsumers]
  rfl

theorem reconnects_reconnect (w : World) (reason : BlueFerry.Text.Str) (removeRemote : Bool)
    (answers : Answers) : w.cycle.Reconnects (w.reconnect reason removeRemote answers).cycle := by
  unfold World.reconnect
  split
  · rename_i h
    exact .blocked (by tauto)
  rename_i hhalted
  split
  · rename_i h
    exact .blocked (.inr (.inr h))
  rename_i hclosing
  have h : ¬ (w.cycle.stopping = true ∨ w.cycle.paused = true ∨ w.cycle.closing = true) := by
    rintro (h | h | h)
    · exact hhalted (.inl h)
    · exact hhalted (.inr h)
    · exact hclosing h
  have hcloses := closes_submitClose (w.leaveSessions reason)
    (w.leaveSessions reason).supervisor.generation removeRemote answers
  have hleave := cycle_leaveSessions w reason
  have hgeneration : (w.leaveSessions reason).supervisor.generation = w.cycle.leave.generation :=
    congrArg Cycle.generation hleave
  rw [hleave] at hcloses
  exact .closes h removeRemote (hgeneration ▸ hcloses)

/-! ## What is out backs the flags -/

/-- Every flag of the cycle is backed by a job or a timer, and every current job or armed timer by
a flag. -/
structure Cycle.Sound (c : Cycle) : Prop where
  past : ∀ n job, c.jobs.Holds n job → job.generation ≤ c.generation
  unique : ∀ n m a b, c.jobs.Holds n a → c.jobs.Holds m b → a.generation = c.generation →
    b.generation = c.generation → n = m
  job_open : ∀ n job, c.jobs.Holds n job → job.generation = c.generation →
    job.operation = .openAll → c.opening = true
  job_close : ∀ n job r, c.jobs.Holds n job → job.generation = c.generation →
    job.operation = .closeAll r → c.closing = true
  opening_job : c.opening = true → ∃ n job, c.jobs.Holds n job ∧ job.generation = c.generation
  closing_job : c.closing = true →
    (∃ n job, c.jobs.Holds n job ∧ job.generation = c.generation) ∨ c.retryId ≠ none
  exclusive : c.opening = true → c.closing = false
  retry_armed : ∀ id, c.retryId = some id → ∃ armed, c.timers.Holds id armed
  armed_retry : ∀ n armed, c.timers.Holds n armed → c.retryId = some n
  timer_retry : ∀ n armed, c.timers.Holds n armed → armed.timer = .retry → c.closing = false
  timer_close : ∀ n armed g r, c.timers.Holds n armed → armed.timer = .retryClose g r →
    g = c.generation ∧ c.closing = true ∧
      ∀ m job, c.jobs.Holds m job → job.generation ≠ c.generation
  halted : c.stopping = true ∨ c.paused = true →
    c.opening = false ∧ c.closing = false ∧ c.retryId = none

/-- The supervisor is ready or waits for something, where the profiles are wanted. -/
def Cycle.Live (c : Cycle) : Prop :=
  c.wanted = true → c.stopping = false → c.paused = false →
    c.ready = true ∨ c.opening = true ∨ c.closing = true ∨ c.retryId ≠ none

namespace Cycle

@[simp] theorem cancel_retryId (c : Cycle) : c.cancel.retryId = none := by
  unfold cancel
  split
  · assumption
  · rfl

@[simp] theorem cancel_opening (c : Cycle) : c.cancel.opening = c.opening := by
  unfold cancel
  split <;> rfl

@[simp] theorem cancel_closing (c : Cycle) : c.cancel.closing = c.closing := by
  unfold cancel
  split <;> rfl

@[simp] theorem cancel_stopping (c : Cycle) : c.cancel.stopping = c.stopping := by
  unfold cancel
  split <;> rfl

@[simp] theorem cancel_paused (c : Cycle) : c.cancel.paused = c.paused := by
  unfold cancel
  split <;> rfl

@[simp] theorem cancel_generation (c : Cycle) : c.cancel.generation = c.generation := by
  unfold cancel
  split <;> rfl

@[simp] theorem cancel_jobs (c : Cycle) : c.cancel.jobs = c.jobs := by
  unfold cancel
  split <;> rfl

@[simp] theorem cancel_wanted (c : Cycle) : c.cancel.wanted = c.wanted := by
  unfold cancel
  split <;> rfl

/-- Nothing is armed once the only timer is canceled. -/
theorem Sound.cancel_timers (h : c.Sound) (n : Nat) (armed : Armed) :
    ¬ c.cancel.timers.Holds n armed := by
  unfold cancel
  intro hn
  cases hid : c.retryId with
  | none =>
    rw [hid] at hn
    have := h.armed_retry n armed hn
    rw [hid] at this
    cases this
  | some id =>
    rw [hid] at hn
    obtain ⟨hne, hold⟩ := Slots.holds_take.mp hn
    have := h.armed_retry n armed hold
    rw [hid] at this
    exact hne (Option.some.inj this).symm

variable {c' : Cycle} {n : Nat}

/-- To arm the retry timer of a quiet cycle. -/
theorem Sound.retries (h : c.Sound) (hquiet : c.closing = false)
    (hhalted : ¬ (c.stopping = true ∨ c.paused = true)) (hr : Retries c c') :
    c'.Sound ∧ c'.retryId ≠ none := by
  cases hr with
  | settled hs =>
    refine ⟨h, ?_⟩
    rcases hs with hs | hs
    · exact absurd (.inl hs) hhalted
    · exact hs
  | arms hn delay =>
    have hnone : c.retryId = none := by
      by_contra hne
      exact hn (.inr hne)
    have htimers : ∀ n armed, ¬ c.timers.Holds n armed := by
      intro n armed hold
      rw [h.armed_retry n armed hold] at hnone
      cases hnone
    refine ⟨?_, by simp [arm]⟩
    constructor
    case past => exact h.past
    case unique => exact h.unique
    case job_open => exact h.job_open
    case job_close => exact h.job_close
    case opening_job => exact h.opening_job
    case closing_job => exact fun _ => .inr (by simp [arm])
    case exclusive => exact h.exclusive
    case retry_armed =>
      exact fun id hid => ⟨_, Slots.holds_put.mpr (.inl ⟨(Option.some.inj hid).symm, rfl⟩)⟩
    case armed_retry => grind [arm, Slots.holds_put]
    case timer_retry => exact fun _ _ _ _ => hquiet
    case timer_close => grind [arm, Slots.holds_put]
    case halted => exact fun hh => absurd hh hhalted

/-- The retry timer is called off. -/
theorem Sound.canceled (h : c.Sound) (hquiet : c.closing = false) : c.cancel.Sound := by
  have htimers := h.cancel_timers
  constructor
  case past => simpa using h.past
  case unique => simpa using h.unique
  case job_open => simpa using h.job_open
  case job_close => simpa using h.job_close
  case opening_job => simpa using h.opening_job
  case closing_job => simp [hquiet]
  case exclusive => simpa using h.exclusive
  case retry_armed => simp
  case armed_retry => exact fun n armed hn => absurd hn (htimers n armed)
  case timer_retry => exact fun n armed hn => absurd hn (htimers n armed)
  case timer_close => exact fun n armed g r hn => absurd hn (htimers n armed)
  case halted => simpa using fun hh => ⟨(h.halted hh).1, (h.halted hh).2.1⟩

/-- Whether it is ready does not matter to the rest. -/
theorem Sound.set_ready (h : c.Sound) (ready : Bool) : ({ c with ready := ready } : Cycle).Sound :=
  ⟨h.past, h.unique, h.job_open, h.job_close, h.opening_job, h.closing_job, h.exclusive,
    h.retry_armed, h.armed_retry, h.timer_retry, h.timer_close, h.halted⟩

/-- Where nothing is in flight, every job is an old one. -/
theorem Sound.idle (h : c.Sound) (hopening : c.opening = false) (hclosing : c.closing = false)
    (n : Nat) (job : Job) (hold : c.jobs.Holds n job) : job.generation < c.generation := by
  have hle := h.past n job hold
  have hne : job.generation ≠ c.generation := by
    intro heq
    cases hop : job.operation with
    | openAll =>
      have := h.job_open n job hold heq hop
      rw [hopening] at this
      cases this
    | closeAll r =>
      have := h.job_close n job r hold heq hop
      rw [hclosing] at this
      cases this
  omega

/-- **An attempt to open the sessions leaves the cycle waiting.** -/
theorem Sound.opens (h : c.Sound) (ho : Opens c c') : c'.Sound ∧ c'.Live := by
  cases ho with
  | blocked hb =>
    refine ⟨h, fun _ hstopping hpaused => ?_⟩
    rcases hb with hb | hb | hb | hb
    · rw [hstopping] at hb
      cases hb
    · rw [hpaused] at hb
      cases hb
    · exact .inr (.inl hb)
    · exact .inr (.inr (.inl hb))
  | ready hn =>
    have hquiet : c.closing = false := by
      cases hc : c.closing with
      | false => rfl
      | true => exact absurd (.inr (.inr (.inr hc))) hn
    exact ⟨(h.canceled hquiet).set_ready true, fun _ _ _ => .inl rfl⟩
  | submits hn =>
    have hflags : c.opening = false ∧ c.closing = false := by grind
    have hidle := h.idle hflags.1 hflags.2
    have hnew : ({ c with opening := true }.submit .openAll).jobs.Holds c.jobs.next
        ⟨.openAll, c.generation⟩ := Slots.holds_put.mpr (.inl ⟨rfl, rfl⟩)
    refine ⟨?_, fun _ _ _ => .inr (.inl rfl)⟩
    constructor
    case opening_job => exact fun _ => ⟨_, _, hnew, rfl⟩
    case closing_job => exact fun hc => absurd hc (by simp [submit, hflags.2])
    case retry_armed => exact h.retry_armed
    case armed_retry => exact h.armed_retry
    case timer_retry => exact h.timer_retry
    all_goals grind [submit, Slots.holds_put, Sound]
  | refused hn hretry =>
    have hflags : c.opening = false ∧ c.closing = false := by grind
    have hsame : ({ c with opening := false } : Cycle) = c := by rw [← hflags.1]
    rw [hsame] at hretry
    obtain ⟨hsound, hid⟩ := h.retries hflags.2 (by grind) hretry
    exact ⟨hsound, fun _ _ _ => .inr (.inr (.inr hid))⟩

/-- A cycle that has begun to close the sessions, and has not handed that out yet. -/
structure Leaving (c : Cycle) : Prop where
  past : ∀ n job, c.jobs.Holds n job → job.generation < c.generation
  opening : c.opening = false
  closing : c.closing = true
  retryId : c.retryId = none
  timers : ∀ n armed, ¬ c.timers.Holds n armed
  halted : ¬ (c.stopping = true ∨ c.paused = true)

/-- **To hand out the closing leaves the cycle waiting.** -/
theorem Leaving.closes (h : c.Leaving) {removeRemote : Bool}
    (hc : Closes c c.generation removeRemote c') : c'.Sound ∧ c'.Live := by
  have hpast := h.past
  have hopening := h.opening
  have hclosing := h.closing
  have hretryId := h.retryId
  have htimers := h.timers
  have hhalted := h.halted
  cases hc with
  | late hl => exact absurd hl (by simpa using fun hs => h.halted (.inl hs))
  | submits hn =>
    refine ⟨?_, fun _ _ _ => .inr (.inr (.inl h.closing))⟩
    have hnew : (c.submit (.closeAll removeRemote)).jobs.Holds c.jobs.next
        ⟨.closeAll removeRemote, c.generation⟩ := Slots.holds_put.mpr (.inl ⟨rfl, rfl⟩)
    constructor
    case closing_job => exact fun _ => .inl ⟨_, _, hnew, rfl⟩
    all_goals grind [submit, Slots.holds_put]
  | waits hn delay =>
    refine ⟨?_, fun _ _ _ => .inr (.inr (.inl h.closing))⟩
    constructor
    case retry_armed =>
      exact fun id hid => ⟨_, Slots.holds_put.mpr (.inl ⟨(Option.some.inj hid).symm, rfl⟩)⟩
    all_goals grind [arm, Slots.holds_put]

theorem Sound.leave (h : c.Sound)
    (hn : ¬ (c.stopping = true ∨ c.paused = true ∨ c.closing = true)) : c.leave.Leaving where
  past := by
    intro n job hold
    have hle := h.past n job (by simpa [Cycle.leave] using hold)
    simp only [Cycle.leave, cancel_generation]
    omega
  opening := by simp [Cycle.leave]
  closing := by simp [Cycle.leave]
  retryId := by simp [Cycle.leave]
  timers := by
    intro n armed hold
    have hcancel : c.leave.timers = c.cancel.timers := by
      unfold Cycle.leave cancel
      cases c.retryId <;> rfl
    exact h.cancel_timers n armed (hcancel ▸ hold)
  halted := by
    simp only [Cycle.leave, cancel_stopping, cancel_paused]
    rintro (hs | hp)
    · exact hn (.inl hs)
    · exact hn (.inr (.inl hp))

/-- **A reconnect leaves the cycle waiting.** -/
theorem Sound.reconnects (h : c.Sound) (hr : Reconnects c c') : c'.Sound ∧ c'.Live := by
  cases hr with
  | blocked hb =>
    refine ⟨h, fun _ hstopping hpaused => ?_⟩
    rcases hb with hb | hb | hb
    · rw [hstopping] at hb
      cases hb
    · rw [hpaused] at hb
      cases hb
    · exact .inr (.inr (.inl hb))
  | closes hn removeRemote hcloses => exact (h.leave hn).closes hcloses

/-- An old job may be answered. -/
theorem Sound.forgets (h : c.Sound) {job : Job} (hold : c.jobs.Holds n job)
    (hgen : job.generation ≠ c.generation) : ({ c with jobs := c.jobs.take n } : Cycle).Sound := by
  -- the job that backs a flag is a current one, so it is another job
  have hother : (∃ m job, c.jobs.Holds m job ∧ job.generation = c.generation) →
      ∃ m job, (c.jobs.take n).Holds m job ∧ job.generation = c.generation := by
    rintro ⟨m, job', hm, hcur⟩
    refine ⟨m, job', Slots.holds_take.mpr ⟨?_, hm⟩, hcur⟩
    rintro rfl
    rw [hm.unique hold] at hcur
    exact hgen hcur
  constructor
  case opening_job => exact fun ho => hother (h.opening_job ho)
  case closing_job => exact fun hc => (h.closing_job hc).imp_left hother
  case retry_armed => exact h.retry_armed
  all_goals grind [Slots.holds_take, Sound]

/-- The current job is answered, and its flag goes off. -/
theorem Sound.answered (h : c.Sound) {job : Job} (hold : c.jobs.Holds n job)
    (hgen : job.generation = c.generation) :
    ({ c with jobs := c.jobs.take n, opening := false, closing := false } : Cycle).Sound := by
  have hnone : ∀ m job, (c.jobs.take n).Holds m job → job.generation ≠ c.generation := by
    intro m job' hm hcur
    obtain ⟨hne, hm⟩ := Slots.holds_take.mp hm
    exact hne (h.unique m n job' job hm hold hcur hgen)
  have hnoclose : ∀ m armed g r, c.timers.Holds m armed → armed.timer ≠ .retryClose g r :=
    fun m armed g r hm ht => (h.timer_close m armed g r hm ht).2.2 n job hold hgen
  constructor
  case past => exact fun m job' hm => h.past m job' (Slots.holds_take.mp hm).2
  case unique => exact fun m _ a _ hm _ ha => absurd ha (hnone m a hm)
  case job_open => exact fun m job' hm hcur => absurd hcur (hnone m job' hm)
  case job_close => exact fun m job' r hm hcur => absurd hcur (hnone m job' hm)
  case opening_job => nofun
  case closing_job => nofun
  case exclusive => exact fun _ => rfl
  case retry_armed => exact h.retry_armed
  case armed_retry => exact h.armed_retry
  case timer_retry => exact fun _ _ _ _ => rfl
  case timer_close => exact fun m armed g r hm ht => absurd ht (hnoclose m armed g r hm)
  case halted => exact fun hh => ⟨rfl, rfl, (h.halted hh).2.2⟩

/-- A timer that fires is armed no more. -/
def fired (c : Cycle) (n : Nat) : Cycle := { c with timers := c.timers.take n, retryId := none }

/-- The retry timer fires. -/
theorem Sound.fired (h : c.Sound) {armed : Armed} (hold : c.timers.Holds n armed)
    (htimer : armed.timer = .retry) : (c.fired n).Sound := by
  have hquiet := h.timer_retry n armed hold htimer
  have hlast : ∀ m armed, ¬ (c.timers.take n).Holds m armed := by
    intro m armed' hm
    obtain ⟨hne, hm⟩ := Slots.holds_take.mp hm
    have hid := h.armed_retry m armed' hm
    rw [h.armed_retry n armed hold] at hid
    exact hne (Option.some.inj hid).symm
  constructor
  case past => exact h.past
  case unique => exact h.unique
  case job_open => exact h.job_open
  case job_close => exact h.job_close
  case opening_job => exact h.opening_job
  case closing_job =>
    intro hc
    rw [show (c.fired n).closing = c.closing from rfl, hquiet] at hc
    cases hc
  case exclusive => exact h.exclusive
  case retry_armed => exact fun id hid => by cases hid
  case armed_retry => exact fun m a hm => absurd hm (hlast m a)
  case timer_retry => exact fun m a hm => absurd hm (hlast m a)
  case timer_close => exact fun m a g r hm => absurd hm (hlast m a)
  case halted => exact fun hh => ⟨(h.halted hh).1, (h.halted hh).2.1, rfl⟩

/-- The timer fires that waits for room for the closing job. -/
theorem Sound.fired_close (h : c.Sound) {armed : Armed} {g : Nat} {r : Bool}
    (hold : c.timers.Holds n armed) (htimer : armed.timer = .retryClose g r) :
    g = (c.fired n).generation ∧ (c.fired n).Leaving := by
  obtain ⟨hg, hclosing, hnone⟩ := h.timer_close n armed g r hold htimer
  refine ⟨hg, ?_, ?_, hclosing, rfl, ?_, ?_⟩
  · intro m job hm
    have hle := h.past m job hm
    have hne := hnone m job hm
    show job.generation < c.generation
    omega
  · cases ho : c.opening with
    | false => exact ho
    | true =>
      rw [h.exclusive ho] at hclosing
      cases hclosing
  · intro m armed' hm
    obtain ⟨hne, hm⟩ := Slots.holds_take.mp hm
    have hid := h.armed_retry m armed' hm
    rw [h.armed_retry n armed hold] at hid
    exact hne (Option.some.inj hid).symm
  intro hh
  have hc := (h.halted hh).2.1
  rw [hclosing] at hc
  cases hc

/-- What `pause()` and `stop()` leave behind. -/
def halt (c : Cycle) (stopping paused : Bool) : Cycle :=
  { { c with
      stopping := stopping, paused := paused, generation := c.generation + 1, opening := false,
      closing := false }.cancel with ready := false }

theorem Sound.halt (h : c.Sound) (stopping paused : Bool) : (c.halt stopping paused).Sound := by
  have htimers : ∀ n armed, ¬ (c.halt stopping paused).timers.Holds n armed := by
    intro n armed hn
    have hcancel : (c.halt stopping paused).timers = c.cancel.timers := by
      unfold Cycle.halt cancel
      cases c.retryId <;> rfl
    exact h.cancel_timers n armed (hcancel ▸ hn)
  have hjobs : (c.halt stopping paused).jobs = c.jobs := by simp [Cycle.halt]
  have hgen : (c.halt stopping paused).generation = c.generation + 1 := by simp [Cycle.halt]
  have hpast : ∀ n job, (c.halt stopping paused).jobs.Holds n job →
      job.generation < (c.halt stopping paused).generation := by
    intro n job hn
    rw [hjobs] at hn
    rw [hgen]
    exact Nat.lt_succ_of_le (h.past n job hn)
  have hopening : (c.halt stopping paused).opening = false := by simp [Cycle.halt]
  have hclosing : (c.halt stopping paused).closing = false := by simp [Cycle.halt]
  have hretryId : (c.halt stopping paused).retryId = none := by simp [Cycle.halt]
  constructor
  case past => exact fun n job hn => (hpast n job hn).le
  case unique => exact fun n m a _ hn _ ha => absurd ha (hpast n a hn).ne
  case job_open => exact fun n job hn hcur => absurd hcur (hpast n job hn).ne
  case job_close => exact fun n job r hn hcur => absurd hcur (hpast n job hn).ne
  case opening_job => simp [hopening]
  case closing_job => simp [hclosing]
  case exclusive => exact fun _ => hclosing
  case retry_armed => simp [hretryId]
  case armed_retry => exact fun n armed hn => absurd hn (htimers n armed)
  case timer_retry => exact fun n armed hn => absurd hn (htimers n armed)
  case timer_close => exact fun n armed g r hn => absurd hn (htimers n armed)
  case halted => exact fun _ => ⟨hopening, hclosing, hretryId⟩

end Cycle

/-! ## The methods -/

/-- What every step keeps. -/
def World.Steady (w : World) : Prop := w.cycle.Sound ∧ w.cycle.Live

theorem steady_start (hooks : Hooks) : (World.start hooks).Steady := by
  refine ⟨?_, fun hw => by cases hw⟩
  constructor <;> simp [World.cycle, World.start]

theorem cycle_pause (w : World) : w.pause.cycle = w.cycle.halt w.cycle.stopping true := by
  show (World.discardConsumers _ _).cycle = _
  rw [cycle_discardConsumers]
  show ({ (World.cancelRetry _).cycle with ready := false } : Cycle) = _
  rw [cycle_cancelRetry]
  rfl

theorem cycle_stop (w : World) : w.stop.cycle = w.cycle.halt true w.cycle.paused := by
  unfold World.stop Cycle.halt
  rw [cycle_cancelRetry]
  unfold Cycle.cancel
  cases hid : w.supervisor.retryId with
  | none | some id => simp [World.cycle, World.set, hid]

variable {w : World} {n : Nat}

theorem World.Steady.startUp (h : w.Steady) (answers : Answers) : (w.startUp answers).Steady := by
  unfold World.startUp
  split
  · exact h
  have hbegin := cycle_beginAttemptCycle { w with wanted := true }
  have hopens := opens_openSessions
    { World.beginAttemptCycle { w with wanted := true } with monitoring := true } answers
  refine Cycle.Sound.opens ?_ hopens
  show (World.beginAttemptCycle { w with wanted := true }).cycle.Sound
  rw [hbegin]
  obtain ⟨⟨h1, h2, h3, h4, h5, h6, h7, h8, h9, h10, h11, h12⟩, -⟩ := h
  exact ⟨h1, h2, h3, h4, h5, h6, h7, h8, h9, h10, h11, h12⟩

theorem World.Steady.resume (h : w.Steady) (answers : Answers) : (w.resume answers).Steady := by
  refine Cycle.Sound.reconnects ?_ (reconnects_reconnect (w.set fun s => { s with paused := false })
    _ false answers)
  obtain ⟨⟨h1, h2, h3, h4, h5, h6, h7, h8, h9, h10, h11, h12⟩, -⟩ := h
  refine ⟨h1, h2, h3, h4, h5, h6, h7, h8, h9, h10, h11, ?_⟩
  rintro (hs | hp)
  · exact h12 (.inl hs)
  · cases hp

/-- A callback that carries another generation does nothing. -/
theorem complete_late (w : World) (job : Job) (hgen : job.generation ≠ w.supervisor.generation)
    (outcome : Outcome) (answers : Answers) : w.complete job outcome answers = w := by
  unfold World.complete
  split
  · exact if_pos (.inr (.inl hgen))
  · exact if_pos (.inr hgen)
  · exact if_pos (.inr hgen)

theorem cycle_opened (w : World) (answers : Answers) (hstopping : w.supervisor.stopping = false)
    (hclosing : w.supervisor.closing = false) :
    (w.opened w.supervisor.generation answers).cycle =
      { ({ w.cycle with opening := false } : Cycle).cancel with ready := true } := by
  unfold World.opened
  rw [if_neg (by simp [hstopping, hclosing])]
  rw [cycle_markReady, cycle_completeFirstAttempt]
  rfl

theorem retries_openFailed (w : World) (error : OpenError) (answers : Answers)
    (hstopping : w.supervisor.stopping = false) :
    Cycle.Retries { w.cycle with opening := false }
      (w.openFailed w.supervisor.generation error answers).cycle := by
  unfold World.openFailed
  rw [if_neg (by simp [hstopping])]
  refine retries_scheduleRetry _ _ ?_
  -- the consumers of a partial success change no flag of the cycle
  have hfirst := cycle_completeFirstAttempt (w.set fun s => { s with opening := false }) false
    answers.attemptReady
  split
  · exact hfirst
  · exact hfirst

theorem retries_closed (w : World) (hstopping : w.supervisor.stopping = false) :
    Cycle.Retries { w.cycle with closing := false } (w.closed w.supervisor.generation).cycle := by
  unfold World.closed
  rw [if_neg (by simp [hstopping])]
  exact retries_scheduleRetry _ _ rfl

/-- **A job is answered.** -/
theorem World.Steady.completed (h : w.Steady) {job : Job}
    (hold : w.jobs.Holds n job) (outcome : Outcome) (answers : Answers) :
    (({ w with jobs := w.jobs.take n } : World).complete job outcome answers).Steady := by
  have hsound := h.1
  by_cases hgen : job.generation = w.supervisor.generation
  · have hdone := hsound.answered hold hgen
    have hrunning : ¬ (w.supervisor.stopping = true ∨ w.supervisor.paused = true) := by
      intro hh
      obtain ⟨hopening, hclosing, -⟩ := hsound.halted hh
      exact absurd hgen (hsound.idle hopening hclosing n job hold).ne
    have hstopping : w.supervisor.stopping = false := by
      cases hs : w.supervisor.stopping with
      | false => rfl
      | true => exact absurd (.inl hs) hrunning
    have hretries {c' : Cycle} (hr : Cycle.Retries
        { w.cycle with jobs := w.jobs.take n, opening := false, closing := false } c') :
        c'.Sound ∧ c'.Live := by
      obtain ⟨hsound', hid⟩ := hdone.retries rfl hrunning hr
      exact ⟨hsound', fun _ _ _ => .inr (.inr (.inr hid))⟩
    cases hop : job.operation with
    | openAll =>
      have hopening : w.supervisor.opening = true := hsound.job_open n job hold hgen hop
      have hclosing : w.supervisor.closing = false := hsound.exclusive hopening
      have hsame : ({ w.cycle with jobs := w.jobs.take n, opening := false } : Cycle) =
          { w.cycle with jobs := w.jobs.take n, opening := false, closing := false } := by
        rw [← show w.cycle.closing = false from hclosing]
      cases outcome with
      | done =>
        have hcycle := cycle_opened { w with jobs := w.jobs.take n } answers hstopping hclosing
        simp only [World.complete, hop, hgen]
        refine ⟨?_, fun _ _ _ => .inl (congrArg Cycle.ready hcycle)⟩
        rw [hcycle]
        exact (Cycle.Sound.canceled (hsame ▸ hdone) hclosing).set_ready true
      | failed error =>
        have hr := retries_openFailed { w with jobs := w.jobs.take n } error answers hstopping
        simp only [World.complete, hop, hgen]
        exact hretries (hsame ▸ hr)
    | closeAll removeRemote =>
      have hclosing : w.supervisor.closing = true :=
        hsound.job_close n job removeRemote hold hgen hop
      have hopening : w.supervisor.opening = false := by
        cases ho : w.supervisor.opening with
        | false => rfl
        | true =>
          have hno : w.supervisor.closing = false := hsound.exclusive ho
          rw [hclosing] at hno
          cases hno
      have hsame : ({ w.cycle with jobs := w.jobs.take n, closing := false } : Cycle) =
          { w.cycle with jobs := w.jobs.take n, opening := false, closing := false } := by
        rw [← show w.cycle.opening = false from hopening]
      have hr := retries_closed { w with jobs := w.jobs.take n } hstopping
      simp only [World.complete, hop, hgen]
      exact hretries (hsame ▸ hr)
  · have hlate := complete_late { w with jobs := w.jobs.take n } job hgen outcome answers
    rw [hlate]
    exact ⟨hsound.forgets hold hgen, h.2⟩

/-- **A timer fires.** -/
theorem World.Steady.fired (h : w.Steady) {armed : Armed}
    (hold : w.timers.Holds n armed) (answers : Answers) :
    (({ w with timers := w.timers.take n } : World).fire armed.timer answers).Steady := by
  have hsound := h.1
  unfold World.fire
  cases htimer : armed.timer with
  | retry =>
    have hfired := hsound.fired hold htimer
    have hopens := opens_openSessions
      (({ w with timers := w.timers.take n } : World).set fun s => { s with retryId := none })
      answers
    unfold World.retry
    dsimp only
    split
    · rename_i hstopping
      exact ⟨hfired, fun _ hs => absurd (hs.symm.trans hstopping) (by decide)⟩
    · exact hfired.opens hopens
  | retryClose g removeRemote =>
    obtain ⟨hg, hleaving⟩ := hsound.fired_close hold htimer
    have hcloses := closes_submitClose
      (({ w with timers := w.timers.take n } : World).set fun s => { s with retryId := none })
      g removeRemote answers
    subst hg
    exact hleaving.closes hcloses

theorem step_completed {job : Job} (hold : w.jobs.Holds n job)
    (outcome : Outcome) (answers : Answers) : step w (.completed n outcome, answers) =
      ({ w with jobs := w.jobs.take n } : World).complete job outcome answers := by
  simp only [step, show w.jobs.get n = some job from hold]

theorem step_fired {armed : Armed} (hold : w.timers.Holds n armed) (answers : Answers) :
    step w (.fired n, answers) =
      ({ w with timers := w.timers.take n } : World).fire armed.timer answers := by
  simp only [step, show w.timers.get n = some armed from hold]

theorem steady_step (w : World) (i : Input × Answers) (h : w.Steady) : (step w i).Steady := by
  rcases i with ⟨input, answers⟩
  cases input with
  | startUp => exact h.startUp answers
  | openSessions => exact h.1.opens (opens_openSessions w answers)
  | reconnect reason removeRemote =>
    exact h.1.reconnects (reconnects_reconnect w reason removeRemote answers)
  | sessionLost reason => exact h.1.reconnects (reconnects_reconnect w reason false answers)
  | pause =>
    refine ⟨?_, fun _ _ hp => ?_⟩
    · show w.pause.cycle.Sound
      rw [cycle_pause]
      exact h.1.halt _ _
    have hpaused : w.pause.cycle.paused = true := by
      rw [cycle_pause]
      simp [Cycle.halt]
    rw [show (step w (.pause, answers)).cycle = w.pause.cycle from rfl, hpaused] at hp
    cases hp
  | resume => exact h.resume answers
  | stop =>
    refine ⟨?_, fun _ hs => ?_⟩
    · show w.stop.cycle.Sound
      rw [cycle_stop]
      exact h.1.halt _ _
    have hstopping : w.stop.cycle.stopping = true := by
      rw [cycle_stop]
      simp [Cycle.halt]
    rw [show (step w (.stop, answers)).cycle = w.stop.cycle from rfl, hstopping] at hs
    cases hs
  | sessions now => exact h
  | completed n outcome =>
    cases hjob : w.jobs.get n with
    | none => simpa [step, hjob] using h
    | some job =>
      rw [step_completed hjob]
      exact h.completed hjob outcome answers
  | fired n =>
    cases htimer : w.timers.get n with
    | none => simpa [step, htimer] using h
    | some armed =>
      rw [step_fired htimer]
      exact h.fired htimer answers

/-! ## Every run -/

/-- A job that the supervisor has not called off. -/
def World.Current (w : World) (n : Nat) : Prop :=
  ∃ job, w.jobs.Holds n job ∧ job.generation = w.supervisor.generation

/-- The retry timer is armed, and what it does when it fires is not out of date. -/
def World.RetryArmed (w : World) : Prop :=
  ∃ id armed, w.supervisor.retryId = some id ∧ w.timers.Holds id armed ∧
    ∀ g r, armed.timer = .retryClose g r → g = w.supervisor.generation

/-- **The supervisor never comes to rest.** Where it is wanted, neither stopping nor paused, it is
ready, or exactly one current job is out, or its retry timer is armed. There is never more than one
current job, and the answer to an older one changes nothing. -/
theorem never_rests (hooks : Hooks) (inputs : List (Input × Answers)) :
    let w := Machine.run step (.start hooks) inputs
    (w.wanted = true → w.supervisor.stopping = false → w.supervisor.paused = false →
      w.supervisor.ready = true ∨ (∃! n, w.Current n) ∨ w.RetryArmed) ∧
    (∀ n job outcome answers, w.jobs.Holds n job → job.generation < w.supervisor.generation →
      step w (.completed n outcome, answers) = { w with jobs := w.jobs.take n }) ∧
    ∀ n m, w.Current n → w.Current m → n = m := by
  intro w
  have halong : Machine.Along step (fun _ _ => True) (.start hooks) inputs :=
    Machine.along_of_forall step (fun _ _ => trivial) _ _
  have h : w.Steady :=
    Machine.invariant step (fun w i _ => steady_step w i) halong (steady_start hooks)
  have hunique : ∀ n m, w.Current n → w.Current m → n = m := by
    rintro n m ⟨a, hn, ha⟩ ⟨b, hm, hb⟩
    exact h.1.unique n m a b hn hm ha hb
  have htimer : w.supervisor.retryId ≠ none → w.RetryArmed := by
    intro hne
    obtain ⟨id, hid⟩ := Option.ne_none_iff_exists'.mp hne
    obtain ⟨armed, harmed⟩ := h.1.retry_armed id hid
    exact ⟨id, armed, hid, harmed, fun g r ht => (h.1.timer_close id armed g r harmed ht).1⟩
  refine ⟨fun hwanted hstopping hpaused => ?_, ?_, hunique⟩
  · rcases h.2 hwanted hstopping hpaused with hready | hopening | hclosing | hretry
    · exact .inl hready
    · obtain ⟨n, hn⟩ := h.1.opening_job hopening
      exact .inr (.inl ⟨n, hn, fun m hm => hunique m n hm hn⟩)
    · rcases h.1.closing_job hclosing with ⟨n, hn⟩ | hretry
      · exact .inr (.inl ⟨n, hn, fun m hm => hunique m n hm hn⟩)
      · exact .inr (.inr (htimer hretry))
    · exact .inr (.inr (htimer hretry))
  · intro n job outcome answers hold hlt
    rw [step_completed hold]
    exact complete_late { w with jobs := w.jobs.take n } job hlt.ne outcome answers

/-- **A supervisor that is stopped or paused is at rest**: it opens and closes nothing, and no timer is
armed. Any timer that is armed is its one retry timer. -/
theorem stopped_rests (hooks : Hooks) (inputs : List (Input × Answers)) :
    let w := Machine.run step (.start hooks) inputs
    (w.supervisor.stopping = true ∨ w.supervisor.paused = true →
      w.supervisor.opening = false ∧ w.supervisor.closing = false ∧
        ∀ n armed, ¬ w.timers.Holds n armed) ∧
      ∀ n armed, w.timers.Holds n armed → w.supervisor.retryId = some n := by
  intro w
  have h : w.Steady := Machine.always step steady_step inputs (steady_start hooks)
  refine ⟨fun hstopped => ?_, h.1.armed_retry⟩
  obtain ⟨hopening, hclosing, hretry⟩ := h.1.halted hstopped
  refine ⟨hopening, hclosing, fun n armed harmed => ?_⟩
  cases hretry.symm.trans (h.1.armed_retry n armed harmed)

end BlueFerry.Profiles
