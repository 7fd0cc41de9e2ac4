import BlueFerry.Lib.Machine
import BlueFerry.Lib.Trace
import BlueFerry.Text.Basic

/-! # Resets of the profile connections

`ProfileResetController` of `profile_reset.py`: it counts failed power-ups of the hands-free profile and
has the device reset, on its own seldom and on request always. `log` is what has happened, newest first.
-/

namespace BlueFerry.Profiles.Resets

open BlueFerry.Text

inductive Reason where
  | hfp | manual
  deriving DecidableEq

/-- What a reset answers, and what keeps one from being asked for. -/
inductive Answer where
  | started | inProgress | bluezUnresponsive | recovery | callActive | disconnected | unavailable
  deriving DecidableEq

/-- What a call of the controller finds; `clock` is read before a reset and `clockAfter` behind it. -/
structure World where
  peerConnected : Bool
  bluezBlocked : Bool
  recovering : Bool
  callActive : Bool
  reset : Answer
  clock : ℚ
  clockAfter : ℚ
  wallClock : ℤ
  deriving DecidableEq

inductive Entry where
  /-- a power-up that timed out with the link up -/
  | timedOut
  /-- any other failed power-up -/
  | broken
  | lost
  | powered
  | reset (auto enabled : Bool) (w : World)
  deriving DecidableEq

structure Controller where
  enabled : Bool
  hfpTimeouts : Nat
  suggested : Option Reason
  autoStreak : Nat
  lastAutoMono : Option ℚ
  nextAutoAt : ℚ
  lastReason : Option Reason
  lastAt : ℤ
  lastAuto : Bool
  log : List Entry

def Controller.initial (enabled : Bool) : Controller := ⟨enabled, 0, none, 0, none, 0, none, 0, false, []⟩

/-! ## The code -/

def ofonoTimedout : Str := "org.ofono.Error.Timedout".toList

def hfpTimeoutThreshold : Nat := 2

def autoResetIntervalSeconds : Nat := 600

def autoResetBackoffCapSeconds : Nat := 3600

/-- `_guard` -/
def guard (w : World) : Option Answer :=
  if w.bluezBlocked then some .bluezUnresponsive
  else if w.recovering then some .recovery
  else if w.callActive then some .callActive
  else if !w.peerConnected then some .disconnected
  else none

/-- The seconds to wait after the `streak`-th automatic reset. -/
def wait (streak : Nat) : Nat :=
  min (autoResetIntervalSeconds * 2 ^ (streak - 1)) autoResetBackoffCapSeconds

namespace Controller

section

variable (c : Controller)

def setEnabled (enabled : Bool) : Controller := { c with enabled }

def peerLost : Controller :=
  { c with hfpTimeouts := 0, suggested := none, log := .lost :: c.log }

section

variable (reason : Reason)

/-- `_record` -/
def record (auto : Bool) (w : World) : Controller :=
  { c with
    lastReason := some reason, lastAt := w.wallClock, lastAuto := auto, suggested := none,
    hfpTimeouts := 0, log := .reset auto c.enabled w :: c.log }

/-- `_auto_reset` -/
def autoReset (w : World) : Controller × Bool :=
  if !c.enabled then (c, false)
  else if (guard w).isSome then (c, false)
  else if w.clock < c.nextAutoAt then (c, false)
  else if w.reset ≠ .started then (c, decide (w.reset = .inProgress))
  else
    let c := { c with
      autoStreak := c.autoStreak + 1, lastAutoMono := some w.clockAfter,
      nextAutoAt := w.clockAfter + wait (c.autoStreak + 1) }
    (c.record reason true w, true)

/-- `_stuck` -/
def stuck (w : World) : Controller × Bool :=
  { c with suggested := some reason }.autoReset reason w

def hfpPoweredFailed (errorName : Str) (w : World) : Controller :=
  if errorName ≠ ofonoTimedout || !w.peerConnected then
    { c with hfpTimeouts := 0, log := .broken :: c.log }
  else
    let c := { c with hfpTimeouts := c.hfpTimeouts + 1, log := .timedOut :: c.log }
    if hfpTimeoutThreshold ≤ c.hfpTimeouts then (c.stuck .hfp w).1 else c

/-- `_healthy` -/
def healthy : Controller :=
  { c with
    autoStreak := 0
    nextAutoAt := match c.lastAutoMono with
      | some last => min c.nextAutoAt (last + autoResetIntervalSeconds)
      | none => c.nextAutoAt
    suggested := if c.suggested = some reason then none else c.suggested
    log := .powered :: c.log }

end

def hfpPowered : Controller := { c with hfpTimeouts := 0 }.healthy .hfp

def manualReset (w : World) : Controller × Answer :=
  match guard w with
  | some blocked => (c, blocked)
  | none => if w.reset = .started then (c.record .manual false w, w.reset) else (c, w.reset)

end

end Controller

inductive Input where
  | setEnabled (enabled : Bool)
  | peerLost
  | hfpPoweredFailed (errorName : Str) (w : World)
  | hfpPowered
  | manualReset (w : World)

def step (c : Controller) : Input → Controller
  | .setEnabled enabled => c.setEnabled enabled
  | .peerLost => c.peerLost
  | .hfpPoweredFailed errorName w => c.hfpPoweredFailed errorName w
  | .hfpPowered => c.hfpPowered
  | .manualReset w => (c.manualReset w).1

/-- The clock does not run backwards during a call. -/
def Steady (_ : Controller) : Input → Prop
  | .hfpPoweredFailed _ w => w.clock ≤ w.clockAfter
  | _ => True

instance : ∀ c i, Decidable (Steady c i)
  | _, .hfpPoweredFailed _ w => inferInstanceAs (Decidable (w.clock ≤ w.clockAfter))
  | _, .setEnabled _ | _, .peerLost | _, .hfpPowered | _, .manualReset _ => .isTrue trivial

/-! ## What a reset is to be preceded by -/

/-- The failures with the link up since anything else. -/
def timeouts : List Entry → Nat
  | .timedOut :: earlier => timeouts earlier + 1
  | _ => 0

/-- The automatic resets since the last power-up. -/
def streak : List Entry → Nat
  | .powered :: _ | [] => 0
  | .reset true _ _ :: earlier => streak earlier + 1
  | _ :: earlier => streak earlier

/-- The last automatic reset, if the hands-free profile has not been powered since: when it was done, and
its number since the last power-up. -/
def unhealed : List Entry → Option (ℚ × Nat)
  | .powered :: _ | [] => none
  | .reset true _ w :: earlier => some (w.clockAfter, streak earlier + 1)
  | _ :: earlier => unhealed earlier

/-- What an automatic reset finds, and what came before it. -/
def Justified : Entry → List Entry → Prop
  | .reset true enabled w, earlier =>
    enabled = true ∧ w.bluezBlocked = false ∧ w.recovering = false ∧ w.callActive = false ∧
      w.peerConnected = true ∧ 2 ≤ timeouts earlier ∧
      (∀ enabled' w', .reset true enabled' w' ∈ earlier → w'.clockAfter + 600 ≤ w.clock) ∧
      ∀ t k, unhealed earlier = some (t, k) → t + min (600 * 2 ^ (k - 1)) 3600 ≤ w.clock
  | _, _ => True

/-! ## What the controller knows of it -/

structure Inv (c : Controller) : Prop where
  timeouts : c.hfpTimeouts = timeouts c.log
  streak : c.autoStreak = streak c.log
  last : ∀ enabled w, .reset true enabled w ∈ c.log →
    w.clockAfter + 600 ≤ c.nextAutoAt ∧ ∃ last, c.lastAutoMono = some last ∧ w.clockAfter ≤ last
  unhealed : ∀ t k, unhealed c.log = some (t, k) → t + wait k ≤ c.nextAutoAt
  justified : Trace.Each Justified c.log

theorem guard_eq_none {w : World} (h : guard w = none) : w.bluezBlocked = false ∧
    w.recovering = false ∧ w.callActive = false ∧ w.peerConnected = true := by
  revert h
  unfold guard
  cases w.bluezBlocked <;> cases w.recovering <;> cases w.callActive <;> cases w.peerConnected <;> simp

/-- No automatic reset is followed by a shorter wait. -/
theorem le_wait (k : Nat) : 600 ≤ wait k := by
  have hpow := Nat.one_le_two_pow (n := k - 1)
  simp only [wait, autoResetIntervalSeconds, autoResetBackoffCapSeconds]
  omega

theorem Inv.initial (enabled : Bool) : Inv (.initial enabled) where
  timeouts := rfl
  streak := rfl
  last := fun _ _ h => nomatch h
  unhealed := fun _ _ h => nomatch h
  justified := trivial

/-- An entry that is no automatic reset leaves what is known of those. -/
theorem Inv.last_cons {c : Controller} (h : Inv c) {e : Entry} (he : ∀ enabled w, e ≠ .reset true enabled w)
    (enabled : Bool) (w : World) (hmem : .reset true enabled w ∈ e :: c.log) :
    w.clockAfter + 600 ≤ c.nextAutoAt ∧ ∃ last, c.lastAutoMono = some last ∧ w.clockAfter ≤ last :=
  h.last enabled w ((List.mem_cons.mp hmem).resolve_left (fun heq => he enabled w heq.symm))

/-- Started only where nothing keeps it back, behind two failures and after the wait. -/
theorem Inv.autoReset {c : Controller} (h : Inv c) (reason : Reason) {w : World}
    (hfailed : 2 ≤ c.hfpTimeouts) (hsteady : w.clock ≤ w.clockAfter) : Inv (c.autoReset reason w).1 := by
  unfold Controller.autoReset
  split
  · exact h
  next henabled =>
  split
  · exact h
  next hguard =>
  split
  · exact h
  next hclock =>
  split
  · exact h
  have henabled : c.enabled = true := by simpa using henabled
  obtain ⟨hblocked, hrecovering, hcall, hpeer⟩ := guard_eq_none (Option.not_isSome_iff_eq_none.mp hguard)
  have hclock : c.nextAutoAt ≤ w.clock := not_lt.mp hclock
  have hwait : (600 : ℚ) ≤ wait (c.autoStreak + 1) := by exact_mod_cast le_wait _
  constructor
  case timeouts => rfl
  case streak => exact congrArg (· + 1) h.streak
  case last =>
    intro enabled w' hmem
    refine ⟨?_, _, rfl, ?_⟩ <;> rcases List.mem_cons.mp hmem with heq | hmem
    · obtain ⟨-, -, rfl⟩ := Entry.reset.inj heq
      exact add_le_add_right hwait _
    · have hle := (h.last enabled w' hmem).1
      change _ ≤ w.clockAfter + wait (c.autoStreak + 1)
      linarith
    · obtain ⟨-, -, rfl⟩ := Entry.reset.inj heq
      exact le_rfl
    · have hle := (h.last enabled w' hmem).1
      linarith
  case unhealed =>
    intro t k heq
    obtain ⟨rfl, rfl⟩ := Prod.mk.inj (Option.some.inj heq)
    rw [← h.streak]
    exact le_rfl
  case justified =>
    refine ⟨⟨henabled, hblocked, hrecovering, hcall, hpeer, h.timeouts ▸ hfailed,
      fun enabled w' hmem => (h.last enabled w' hmem).1.trans hclock, fun t k ht => ?_⟩, h.justified⟩
    have hle := (h.unhealed t k ht).trans hclock
    rw [wait] at hle
    push_cast [autoResetIntervalSeconds, autoResetBackoffCapSeconds] at hle
    exact hle

/-- A success may shorten the wait, but not below the interval since any automatic reset. -/
theorem Inv.hfpPowered {c : Controller} (h : Inv c) : Inv c.hfpPowered where
  timeouts := rfl
  streak := rfl
  last := fun enabled w hmem => by
    obtain ⟨hnext, last, hlast, hle⟩ := h.last_cons (fun _ _ => Entry.noConfusion) enabled w hmem
    refine ⟨?_, last, hlast, hle⟩
    simp only [Controller.hfpPowered, Controller.healthy, hlast, autoResetIntervalSeconds]
    push_cast
    exact le_min hnext (by linarith)
  unhealed := fun _ _ h => nomatch h
  justified := ⟨trivial, h.justified⟩

theorem Inv.step {c : Controller} (h : Inv c) {i : Input} (hi : Steady c i) : Inv (step c i) := by
  cases i with
  | setEnabled enabled => exact ⟨h.timeouts, h.streak, h.last, h.unhealed, h.justified⟩
  | peerLost => exact ⟨rfl, h.streak, h.last_cons nofun, h.unhealed, trivial, h.justified⟩
  | hfpPowered => exact h.hfpPowered
  | manualReset w =>
    change Inv (c.manualReset w).1
    unfold Controller.manualReset
    split
    · exact h
    split
    · exact ⟨rfl, h.streak, h.last_cons nofun, h.unhealed, trivial, h.justified⟩
    · exact h
  | hfpPoweredFailed errorName w =>
    change Inv (c.hfpPoweredFailed errorName w)
    unfold Controller.hfpPoweredFailed
    split
    · exact ⟨rfl, h.streak, h.last_cons nofun, h.unhealed, trivial, h.justified⟩
    have hfailed : Inv { c with hfpTimeouts := c.hfpTimeouts + 1, log := .timedOut :: c.log } :=
      ⟨congrArg (· + 1) h.timeouts, h.streak, h.last_cons nofun, h.unhealed, trivial, h.justified⟩
    dsimp only
    split
    · next hreached =>
      have hstuck : Inv { c with
          hfpTimeouts := c.hfpTimeouts + 1, log := .timedOut :: c.log, suggested := some .hfp } :=
        ⟨hfailed.timeouts, hfailed.streak, hfailed.last, hfailed.unhealed, hfailed.justified⟩
      exact hstuck.autoReset .hfp hreached hi
    · exact hfailed

/-- **Every automatic reset of a run is justified.** -/
theorem resets_justified (enabled : Bool) (inputs : List Input)
    (hsteady : Machine.Along step Steady (.initial enabled) inputs) :
    Trace.Each Justified (Machine.run step (.initial enabled) inputs).log :=
  (Machine.invariant step (fun _ _ hi h => Inv.step h hi) hsteady (.initial enabled)).justified

/-- Two failures have the device reset. -/
theorem resets_justified_twice :
    let w : World := ⟨true, false, false, false, .started, 50, 51, 1700000000⟩
    let c := Machine.run step (.initial true)
      [.hfpPoweredFailed ofonoTimedout w, .hfpPoweredFailed ofonoTimedout w]
    c.log.head? = some (.reset true true w) ∧ Trace.Each Justified c.log :=
  ⟨by decide +kernel, resets_justified true _ (by decide +kernel)⟩

end BlueFerry.Profiles.Resets
