import BlueFerry.Lib.Trace
import BlueFerry.Tether.NetworkManager

/-! # The callbacks of a tether

What `NetworkManagerTether` calls back, over every run. A call that is not answered yet plays a role:
it carries an attempt on, looks up the interface of a tether that is up, or carries a stop on. An
attempt is carried on by one call at a time, or by the watch, or it has ended; so it ends once at most
(`Inv.attempt`). A stop is carried on by one call or has called back (`Inv.stop`). The lookup of the
interface outlives the watch, and is counted by itself (`Inv.lookups`).

`Inv a b s` is the invariant with a call of each role in hand: taken off the pending ones, and not
made up for yet.
-/

namespace BlueFerry.NmTether

open BlueFerry.Text

/-! ## Roles -/

/-- What a pending call is for. -/
inductive Role where
  | chain (generation : Nat)
  | lookup (generation : Nat)
  | stop (generation : Nat)
  | other
  deriving DecidableEq

def Call.role : Call → Role
  | .allDevices g => .chain g
  | .device g _ _ => .chain g
  | .hwAddress g _ _ _ => .chain g
  | .settings g _ _ _ => .chain g
  | .byUuid g => .chain g
  | .addConnection g => .chain g
  | .activate g _ => .chain g
  | .state _ _ => .other
  | .devices g _ => .lookup g
  | .ipInterface g _ => .lookup g
  | .activeConnections g => .stop g
  | .active g _ _ => .stop g
  | .activeAddress g _ _ _ => .stop g
  | .deactivate _ (some g) => .stop g
  | .deactivate _ none => .other

/-- What a callback says. -/
inductive Mark where
  | connected (generation : Nat)
  | error (generation : Nat)
  | lost (generation : Nat)
  | stopped (generation : Nat)
  deriving DecidableEq

def Callback.mark : Callback → Mark
  | .connected g _ => .connected g
  | .error g _ => .error g
  | .lost g _ _ => .lost g
  | .done g => .stopped g
  | .stopError g _ => .stopped g

/-- The entry is a callback with this mark. -/
def Entry.carries (m : Mark) : Entry → Bool
  | .callback c => decide (c.mark = m)
  | _ => false

namespace Nm

/-- The pending calls of a role. -/
def pend (w : Nm) (r : Role) : Nat := w.pending.countP (fun c => decide (c.role = r))

/-- The callbacks with this mark. -/
def told (w : Nm) (m : Mark) : Nat := w.log.countP (Entry.carries m)

theorem pend_call (w : Nm) (c : Call) (r : Role) :
    (w.call c).pend r = w.pend r + if c.role = r then 1 else 0 := by
  show (w.pending ++ [c]).countP _ = _
  rw [List.countP_append, List.countP_singleton]
  by_cases h : c.role = r <;> simp [pend, h]

@[simp] theorem told_call (w : Nm) (c : Call) (m : Mark) : (w.call c).told m = w.told m := by
  show (Entry.call c :: w.log).countP _ = _
  rw [List.countP_cons]
  rfl

@[simp] theorem pend_tell (w : Nm) (c : Callback) (r : Role) : (w.tell c).pend r = w.pend r := rfl

theorem told_tell (w : Nm) (c : Callback) (m : Mark) :
    (w.tell c).told m = w.told m + if c.mark = m then 1 else 0 := by
  show (Entry.callback c :: w.log).countP _ = _
  rw [List.countP_cons]
  by_cases h : c.mark = m <;> simp [told, Entry.carries, h]

end Nm

/-- Taking one call off leaves the others. -/
theorem countP_eraseIdx {α : Type} (p : α → Bool) {l : List α} {n : Nat} {a : α}
    (h : l[n]? = some a) : l.countP p = (l.eraseIdx n).countP p + if p a then 1 else 0 := by
  induction l generalizing n with
  | nil => nomatch h
  | cons b l ih =>
    cases n with
    | zero =>
      have hb : b = a := Option.some.inj h
      rw [hb, List.eraseIdx_cons_zero, List.countP_cons]
    | succ n =>
      have hrest := ih (n := n) (by simpa using h)
      rw [List.eraseIdx_cons_succ, List.countP_cons, List.countP_cons, hrest]
      omega

/-! ## The invariant -/

/-- The invariant, with `a` calls of an attempt, `b` lookups and `s` calls of a stop in hand. -/
structure Inv (a b s : Nat) (w : Nm) : Prop where
  /-- one call carries the attempt on, or the watch does, or it has ended -/
  attempt : w.pend (.chain w.generation) + a + (if w.watching then 1 else 0) +
    w.told (.error w.generation) + w.told (.lost w.generation) ≤ 1
  /-- it is not up before it is watched, nor after an error -/
  early : 0 < w.pend (.chain w.generation) + a + w.told (.error w.generation) →
    w.established = false
  /-- a tether that came up has its interface looked up once -/
  lookups : w.pend (.lookup w.generation) + b + w.told (.connected w.generation) =
    if w.established then 1 else 0
  /-- a stop is carried on by one call, or has called back once -/
  stop : w.pend (.stop w.generation) + s + w.told (.stopped w.generation) =
    if .disconnect w.generation ∈ w.log then 1 else 0
  old : ∀ g < w.generation, w.told (.connected g) ≤ 1 ∧ w.told (.error g) + w.told (.lost g) ≤ 1 ∧
    w.told (.stopped g) ≤ 1 ∧ (0 < w.told (.error g) → w.told (.connected g) = 0)
  fresh : ∀ g, w.generation < g → w.pend (.chain g) = 0 ∧ w.pend (.lookup g) = 0 ∧
    w.pend (.stop g) = 0 ∧ w.told (.connected g) = 0 ∧ w.told (.error g) = 0 ∧
    w.told (.lost g) = 0 ∧ w.told (.stopped g) = 0 ∧ .disconnect g ∉ w.log

section Primitives

variable {a b s a' b' s' : Nat} {w w' w'' : Nm}

/-- A call in hand that carries nothing on any more is let go. -/
theorem Inv.drop (h : Inv (a + 1) b s w) : Inv a b s w := by
  obtain ⟨hattempt, hearly, hlookups, hstop, hold, hfresh⟩ := h
  exact ⟨by omega, fun hpos => hearly (by omega), hlookups, hstop, hold, hfresh⟩

/-- Nothing changes but for the last generation. -/
structure Others (w w' : Nm) : Prop where
  generation : w'.generation = w.generation
  disconnect : ∀ g, .disconnect g ∈ w'.log ↔ .disconnect g ∈ w.log
  pend : ∀ g, g ≠ w.generation → w'.pend (.chain g) = w.pend (.chain g) ∧
    w'.pend (.lookup g) = w.pend (.lookup g) ∧ w'.pend (.stop g) = w.pend (.stop g)
  told : ∀ g, g ≠ w.generation → w'.told (.connected g) = w.told (.connected g) ∧
    w'.told (.error g) = w.told (.error g) ∧ w'.told (.lost g) = w.told (.lost g) ∧
    w'.told (.stopped g) = w.told (.stopped g)

/-- A step that leaves the others alone keeps the invariant if it keeps that of the last one. -/
theorem Inv.of_others (h : Inv a b s w) (ho : Others w w')
    (hattempt : w'.pend (.chain w.generation) + a' + (if w'.watching then 1 else 0) +
      w'.told (.error w.generation) + w'.told (.lost w.generation) ≤ 1)
    (hearly : 0 < w'.pend (.chain w.generation) + a' + w'.told (.error w.generation) →
      w'.established = false)
    (hlookups : w'.pend (.lookup w.generation) + b' + w'.told (.connected w.generation) =
      if w'.established then 1 else 0)
    (hstop : w'.pend (.stop w.generation) + s' + w'.told (.stopped w.generation) =
      w.pend (.stop w.generation) + s + w.told (.stopped w.generation)) : Inv a' b' s' w' := by
  constructor
  · rw [ho.generation]
    exact hattempt
  · rw [ho.generation]
    exact hearly
  · rw [ho.generation]
    exact hlookups
  · rw [ho.generation, hstop, h.stop]
    simp only [ho.disconnect]
  · intro g hg
    rw [ho.generation] at hg
    obtain ⟨h1, h2, h3, h4⟩ := ho.told g (by omega)
    rw [h1, h2, h3, h4]
    exact h.old g hg
  intro g hg
  rw [ho.generation] at hg
  obtain ⟨h1, h2, h3, h4⟩ := ho.told g (by omega)
  obtain ⟨h5, h6, h7⟩ := ho.pend g (by omega)
  rw [h1, h2, h3, h4, h5, h6, h7, ho.disconnect]
  exact h.fresh g hg

variable {c : Call}

theorem others_call (hc : c.role = .chain w.generation ∨ c.role = .lookup w.generation ∨
    c.role = .stop w.generation ∨ c.role = .other) : Others w (w.call c) := by
  refine ⟨rfl, fun g => ?_, fun g hg => ?_, fun g _ => ?_⟩
  · show _ ∈ Entry.call c :: w.log ↔ _
    simp
  · simp only [Nm.pend_call]
    rcases hc with hc | hc | hc | hc
    · simp [hc, Ne.symm hg]
    · simp [hc, Ne.symm hg]
    · simp [hc, Ne.symm hg]
    · simp [hc]
  · simp

theorem others_tell {c : Callback} (hc : c.mark = .connected w.generation ∨
    c.mark = .error w.generation ∨ c.mark = .lost w.generation ∨ c.mark = .stopped w.generation) :
    Others w (w.tell c) := by
  refine ⟨rfl, fun g => ?_, fun g _ => ?_, fun g hg => ?_⟩
  · show _ ∈ Entry.callback c :: w.log ↔ _
    simp
  · simp
  · simp only [Nm.told_tell]
    rcases hc with hc | hc | hc | hc <;> simp [hc, Ne.symm hg]

/-- A call carries on what it is made for. -/
theorem Inv.call (hc : c.role = .chain w.generation ∨ c.role = .lookup w.generation ∨
      c.role = .stop w.generation ∨ c.role = .other)
    (h : Inv (a + if c.role = .chain w.generation then 1 else 0)
      (b + if c.role = .lookup w.generation then 1 else 0)
      (s + if c.role = .stop w.generation then 1 else 0) w) : Inv a b s (w.call c) := by
  obtain ⟨hattempt, hearly, hlookups, -, -, -⟩ := id h
  apply h.of_others (others_call hc)
  · simp only [Nm.pend_call, Nm.told_call]
    show _ + (if w.watching then 1 else 0) + _ + _ ≤ 1
    omega
  · simp only [Nm.pend_call, Nm.told_call]
    exact fun _ => hearly (by omega)
  · simp only [Nm.pend_call, Nm.told_call]
    show _ = if w.established then 1 else 0
    omega
  · simp only [Nm.pend_call, Nm.told_call]
    omega

/-- The attempt goes on with another call. -/
theorem Inv.chain (h : Inv (a + 1) b s w) (hc : c.role = .chain w.generation) :
    Inv a b s (w.call c) := Inv.call (.inl hc) (by simpa [hc] using h)

/-- The attempt ends with an error, from a call. -/
theorem Inv.error (h : Inv (a + 1) b s w) (token : Str) :
    Inv a b s (w.dropStateMatch.tell (.error w.generation token)) := by
  obtain ⟨hattempt, hearly, hlookups, -, -, -⟩ := id h
  have ho : Others w (w.tell (.error w.generation token)) := others_tell (.inr (.inl rfl))
  have ho : Others w (w.dropStateMatch.tell (.error w.generation token)) := { ho with }
  apply h.of_others ho
  · show w.pend _ + a + 0 + (w.tell _).told _ + (w.tell _).told _ ≤ 1
    simp only [Nm.told_tell, Callback.mark, if_true, reduceCtorEq, if_false]
    omega
  · exact fun _ => hearly (by omega)
  · show w.pend _ + b + (w.tell _).told _ = _
    simp only [Nm.told_tell, Callback.mark, reduceCtorEq, if_false]
    exact hlookups
  · show w.pend _ + s + (w.tell _).told _ = _
    simp only [Nm.told_tell, Callback.mark, reduceCtorEq, if_false]
    rfl

/-- The attempt ends while it is watched. -/
theorem Inv.ended (h : Inv a b s w) (hwatching : w.watching = true) {c : Callback}
    (hc : c.mark = .lost w.generation ∨ w.established = false ∧ c.mark = .error w.generation) :
    Inv a b s ({ w.dropStateMatch with activePath := none }.tell c) := by
  obtain ⟨hattempt, hearly, hlookups, -, -, -⟩ := id h
  rw [hwatching, if_pos rfl] at hattempt
  have hmark : c.mark = .connected w.generation ∨ c.mark = .error w.generation ∨
      c.mark = .lost w.generation ∨ c.mark = .stopped w.generation := by
    rcases hc with hc | ⟨-, hc⟩
    · exact .inr (.inr (.inl hc))
    · exact .inr (.inl hc)
  have ho : Others w (w.tell c) := others_tell hmark
  have ho : Others w ({ w.dropStateMatch with activePath := none }.tell c) := { ho with }
  apply h.of_others ho
  · show w.pend _ + a + 0 + (w.tell c).told _ + (w.tell c).told _ ≤ 1
    rcases hc with hc | ⟨-, hc⟩
    all_goals
      simp only [Nm.told_tell, hc, if_true, reduceCtorEq, if_false]
      omega
  · intro hpos
    have hpos : 0 < w.pend (.chain w.generation) + a + (w.tell c).told (.error w.generation) := hpos
    rcases hc with hc | ⟨hestablished, -⟩
    · simp only [Nm.told_tell, hc, reduceCtorEq, if_false] at hpos
      exact hearly (by omega)
    · exact hestablished
  · show w.pend _ + b + (w.tell c).told _ = _
    rcases hc with hc | ⟨-, hc⟩
    all_goals
      simp only [Nm.told_tell, hc, reduceCtorEq, if_false]
      exact hlookups
  · show w.pend _ + s + (w.tell c).told _ = _
    rcases hc with hc | ⟨-, hc⟩
    all_goals
      simp only [Nm.told_tell, hc, reduceCtorEq, if_false]
      rfl

/-- The interface is looked up further. -/
theorem Inv.lookup (h : Inv a (b + 1) s w) (hc : c.role = .lookup w.generation) :
    Inv a b s (w.call c) := Inv.call (.inr (.inl hc)) (by simpa [hc] using h)

/-- The interface is reported. -/
theorem Inv.connected (h : Inv a (b + 1) s w) (interface : Str) :
    Inv a b s (w.tell (.connected w.generation interface)) := by
  obtain ⟨hattempt, hearly, hlookups, -, -, -⟩ := id h
  apply h.of_others (others_tell (.inl rfl))
  · simp only [Nm.pend_tell, Nm.told_tell, Callback.mark, reduceCtorEq, if_false]
    exact hattempt
  · simp only [Nm.pend_tell, Nm.told_tell, Callback.mark, reduceCtorEq, if_false]
    exact hearly
  · simp only [Nm.pend_tell, Nm.told_tell, Callback.mark, if_true]
    show _ = if w.established then 1 else 0
    omega
  · simp only [Nm.pend_tell, Nm.told_tell, Callback.mark, reduceCtorEq, if_false]
    rfl

/-- The stop goes on with another call. -/
theorem Inv.stopCall (h : Inv a b (s + 1) w) (hc : c.role = .stop w.generation) :
    Inv a b s (w.call c) := Inv.call (.inr (.inr (.inl hc))) (by simpa [hc] using h)

/-- The stop calls back. -/
theorem Inv.stopTell (h : Inv a b (s + 1) w) {c : Callback} (hc : c.mark = .stopped w.generation) :
    Inv a b s (w.tell c) := by
  obtain ⟨hattempt, hearly, hlookups, -, -, -⟩ := id h
  apply h.of_others (others_tell (.inr (.inr (.inr hc))))
  · simp only [Nm.pend_tell, Nm.told_tell, hc, reduceCtorEq, if_false]
    exact hattempt
  · simp only [Nm.pend_tell, Nm.told_tell, hc, reduceCtorEq, if_false]
    exact hearly
  · simp only [Nm.pend_tell, Nm.told_tell, hc, reduceCtorEq, if_false]
    exact hlookups
  · simp only [Nm.pend_tell, Nm.told_tell, hc, if_true]
    omega

/-- A call that carries nothing on. -/
theorem Inv.otherCall (h : Inv a b s w) (hc : c.role = .other) : Inv a b s (w.call c) :=
  Inv.call (.inr (.inr (.inr hc))) (by simpa [hc] using h)

/-- What is remembered of profiles and paths does not matter. -/
theorem Inv.remember (h : Inv a b s w) (uuids : List Str) (uuid : Str) (path : Option Str) :
    Inv a b s { w with profileUuids := uuids, profileUuid := uuid, activePath := path } :=
  { h with }

end Primitives

/-! ## What carries an attempt on -/

section Chain

variable {a b s g : Nat} {w : Nm}

/-- The invariant with a call of the attempt `g` in hand, which counts if that is the last one. -/
def InHand (g a b s : Nat) (w : Nm) : Prop := Inv (if g = w.generation then a + 1 else a) b s w

section

variable (h : InHand g a b s w)
include h

theorem InHand.stale (hg : g ≠ w.generation) : Inv a b s w := by
  unfold InHand at h
  rwa [if_neg hg] at h

theorem InHand.last (hg : g = w.generation) : Inv (a + 1) b s w := by
  unfold InHand at h
  rwa [if_pos hg] at h

/-- A call of an earlier attempt does nothing. -/
theorem InHand.guard {w' : Nm} (hlast : g = w.generation → Inv a b s w') :
    Inv a b s (if g ≠ w.generation then w else w') := by
  by_cases hg : g = w.generation
  · rw [if_neg (not_not.mpr hg)]
    exact hlast hg
  rw [if_pos hg]
  exact h.stale hg

theorem InHand.remember (uuids : List Str) (uuid : Str) :
    InHand g a b s { w with profileUuids := uuids, profileUuid := uuid } :=
  Inv.remember h uuids uuid w.activePath

theorem inv_fail (name : Str) : Inv a b s (w.fail g name) := by
  refine h.guard (fun hg => ?_)
  rw [hg]
  exact (h.last hg).error _

theorem inv_activate (profile : Str) : Inv a b s (w.activate g profile) := by
  exact h.guard (fun hg => (h.last hg).chain (congrArg Role.chain hg))

theorem inv_resolved (profile : Option Str) : Inv a b s (w.resolved g profile) := by
  refine h.guard (fun hg => ?_)
  cases profile with
  | none => exact ((h.remember w.profileUuids w.uuid).last hg).chain (congrArg Role.chain hg)
  | some profile => exact inv_activate h profile

theorem inv_choose (accepted : List Accepted) : Inv a b s (w.choose g accepted) := by
  cases accepted with
  | nil => exact inv_resolved h none
  | cons entry rest =>
    unfold Nm.choose
    exact inv_resolved (h.remember _ _) _

theorem inv_inspect (candidates : List Str) (accepted : List Accepted) :
    Inv a b s (w.inspect g candidates accepted) := by
  refine h.guard (fun hg => ?_)
  cases candidates with
  | nil => exact inv_choose h accepted
  | cons head rest => exact (h.last hg).chain (congrArg Role.chain hg)

theorem inv_scanDevices (paths : List Str) : Inv a b s (w.scanDevices g paths) := by
  refine h.guard (fun hg => ?_)
  cases paths with
  | nil => exact inv_resolved h none
  | cons head rest => exact (h.last hg).chain (congrArg Role.chain hg)

/-- A connection is granted: it is watched from then on, or taken down. -/
theorem inv_activated (path : Str) : Inv a b s (w.activated g path) := by
  unfold Nm.activated
  by_cases hg : g = w.generation
  · rw [if_neg (not_not.mpr hg)]
    obtain ⟨hattempt, hearly, hlookups, hstop, hold, hfresh⟩ := h.last hg
    apply Inv.otherCall _ rfl
    refine ⟨?_, fun hpos => hearly (by omega), hlookups, hstop, hold, hfresh⟩
    show w.pend (.chain w.generation) + a + 1 + w.told (.error w.generation) +
      w.told (.lost w.generation) ≤ 1
    omega
  · rw [if_pos hg]
    exact (h.stale hg).otherCall rfl

end

/-- The interface is reported, of an attempt that is up. -/
theorem inv_report (h : Inv a (if g = w.generation then b + 1 else b) s w) (interface : Str) :
    Inv a b s (w.report g interface) := by
  unfold Nm.report
  by_cases hg : g = w.generation
  · rw [if_pos hg] at h
    rw [if_neg (not_not.mpr hg), hg]
    exact h.connected interface
  · rw [if_neg hg] at h
    rw [if_pos hg]
    exact h

theorem inv_readInterface (h : Inv a (b + 1) s w) (hg : g = w.generation) :
    Inv a b s (w.readInterface g) := by
  unfold Nm.readInterface
  cases w.activePath with
  | none =>
    apply inv_report
    rw [if_pos hg]
    exact h
  | some path => exact h.lookup (congrArg Role.lookup hg)

/-- The tether is up, or has ended. -/
theorem inv_observe (h : Inv a b s w) (state reason : Int) : Inv a b s (w.observe g state reason) := by
  unfold Nm.observe
  by_cases hstale : g ≠ w.generation ∨ w.watching = false
  · rw [if_pos hstale]
    exact h
  rw [if_neg hstale]
  obtain ⟨hg, hwatching⟩ := not_or.mp hstale
  have hg := not_not.mp hg
  have hwatching : w.watching = true := by simpa using hwatching
  by_cases hup : state = 2 ∧ w.established = false
  · rw [if_pos hup]
    obtain ⟨hattempt, hearly, hlookups, hstop, hold, hfresh⟩ := id h
    rw [hwatching, if_pos rfl] at hattempt
    rw [hup.2, if_neg Bool.false_ne_true] at hlookups
    have hup : Inv a (b + 1) s { w with established := true } := by
      refine ⟨h.attempt, fun hpos => ?_, ?_, hstop, hold, hfresh⟩
      · have hpos : 0 < w.pend (.chain w.generation) + a + w.told (.error w.generation) := hpos
        omega
      · show w.pend (.lookup w.generation) + (b + 1) + w.told (.connected w.generation) = 1
        omega
    exact inv_readInterface hup hg
  · rw [if_neg hup]
    by_cases hdown : state = 3 ∨ state = 4
    · rw [if_pos hdown]
      by_cases hlost : w.established = true ∨ reason = userDisconnected
      · rw [if_pos hlost, hg]
        exact h.ended hwatching (.inl rfl)
      rw [if_neg hlost, hg]
      have hestablished : w.established = false := by simpa using (not_or.mp hlost).1
      exact h.ended hwatching (.inr ⟨hestablished, rfl⟩)
    · rw [if_neg hdown]
      exact h

end Chain

/-! ## What carries a stop on -/

section Stop

variable {a b s g : Nat} {w : Nm}

/-- The invariant with a call of the stop `g` in hand, which counts if that is the last one. -/
def StopInHand (g a b s : Nat) (w : Nm) : Prop := Inv a b (if g = w.generation then s + 1 else s) w

section

variable (h : StopInHand g a b s w)
include h

theorem StopInHand.stale (hg : g ≠ w.generation) : Inv a b s w := by
  unfold StopInHand at h
  rwa [if_neg hg] at h

theorem StopInHand.last (hg : g = w.generation) : Inv a b (s + 1) w := by
  unfold StopInHand at h
  rwa [if_pos hg] at h

/-- A call of an earlier stop does nothing. -/
theorem StopInHand.guard {w' : Nm} (hlast : g = w.generation → Inv a b s w') :
    Inv a b s (if g ≠ w.generation then w else w') := by
  by_cases hg : g = w.generation
  · rw [if_neg (not_not.mpr hg)]
    exact hlast hg
  rw [if_pos hg]
  exact h.stale hg

theorem inv_stopDone : Inv a b s (w.stopDone (some g)) := by
  exact h.guard (fun hg => (h.last hg).stopTell (congrArg Mark.stopped hg))

theorem inv_stopFailed (token : Str) : Inv a b s (w.stopFailed (some g) token) := by
  exact h.guard (fun hg => (h.last hg).stopTell (congrArg Mark.stopped hg))

end

/-- What is found is taken down by a call of the stop itself. -/
theorem inv_found (h : Inv a b (s + 1) w) (hg : g = w.generation) (path : Str) :
    Inv a b s (w.found g path) := by
  unfold Nm.found
  by_cases hpath : path = []
  · rw [if_pos hpath]
    apply inv_stopDone
    unfold StopInHand
    rw [if_pos hg]
    exact h
  · rw [if_neg hpath]
    exact h.stopCall (congrArg Role.stop hg)

theorem inv_check (h : StopInHand g a b s w) (paths : List Str) : Inv a b s (w.check g paths) := by
  refine h.guard (fun hg => ?_)
  cases paths with
  | nil => exact inv_stopDone h
  | cons head rest => exact (h.last hg).stopCall (congrArg Role.stop hg)

end Stop

/-! ## Answers -/

section Answered

variable {w : Nm}

/-- The invariant with the call in hand. -/
def CallInHand (c : Call) (w : Nm) : Prop :=
  Inv (if c.role = .chain w.generation then 1 else 0) (if c.role = .lookup w.generation then 1 else 0)
    (if c.role = .stop w.generation then 1 else 0) w

variable {c : Call}

theorem CallInHand.chain {g : Nat} (h : CallInHand c w) (hc : c.role = .chain g) :
    InHand g 0 0 0 w := by
  simpa [CallInHand, InHand, hc] using h

theorem CallInHand.lookup {g : Nat} (h : CallInHand c w) (hc : c.role = .lookup g) :
    Inv 0 (if g = w.generation then 0 + 1 else 0) 0 w := by
  simpa [CallInHand, hc] using h

theorem CallInHand.stop {g : Nat} (h : CallInHand c w) (hc : c.role = .stop g) :
    StopInHand g 0 0 0 w := by
  simpa [CallInHand, StopInHand, hc] using h

theorem CallInHand.other (h : CallInHand c w) (hc : c.role = .other) : Inv 0 0 0 w := by
  simpa [CallInHand, hc] using h

/-- A pending call is taken in hand. -/
theorem Inv.take (h : Inv 0 0 0 w) {n : Nat} (hn : w.pending[n]? = some c) (r : Reply) :
    CallInHand c { w with pending := w.pending.eraseIdx n, log := .answer c r :: w.log } := by
  obtain ⟨hattempt, hearly, hlookups, hstop, hold, hfresh⟩ := h
  let w' : Nm := { w with pending := w.pending.eraseIdx n, log := .answer c r :: w.log }
  have hpend (role : Role) : w.pend role = w'.pend role + if c.role = role then 1 else 0 := by
    have hcount := countP_eraseIdx (fun x => decide (x.role = role)) hn
    simp only [decide_eq_true_eq] at hcount
    exact hcount
  have htold (m : Mark) : w'.told m = w.told m := by
    show (Entry.answer c r :: w.log).countP _ = _
    rw [List.countP_cons]
    rfl
  have hlog (g : Nat) : .disconnect g ∈ w'.log ↔ .disconnect g ∈ w.log := by
    show _ ∈ Entry.answer c r :: w.log ↔ _
    simp
  have hchain := hpend (.chain w.generation)
  have hlookup := hpend (.lookup w.generation)
  have hstopped := hpend (.stop w.generation)
  refine ⟨?_, ?_, ?_, ?_, ?_, ?_⟩
  · show w'.pend (.chain w.generation) + (if c.role = .chain w.generation then 1 else 0) +
      (if w.watching then 1 else 0) + w'.told (.error w.generation) + w'.told (.lost w.generation) ≤ 1
    rw [htold, htold]
    omega
  · show 0 < w'.pend (.chain w.generation) + (if c.role = .chain w.generation then 1 else 0) +
      w'.told (.error w.generation) → _
    rw [htold]
    intro hpos
    apply hearly
    omega
  · show w'.pend (.lookup w.generation) + (if c.role = .lookup w.generation then 1 else 0) +
      w'.told (.connected w.generation) = if w.established then 1 else 0
    rw [htold]
    omega
  · show w'.pend (.stop w.generation) + (if c.role = .stop w.generation then 1 else 0) +
      w'.told (.stopped w.generation) = if .disconnect w.generation ∈ w'.log then 1 else 0
    rw [htold]
    simp only [hlog]
    omega
  · intro g hg
    show w'.told _ ≤ 1 ∧ w'.told _ + w'.told _ ≤ 1 ∧ w'.told _ ≤ 1 ∧ (0 < w'.told _ → w'.told _ = 0)
    simp only [htold]
    exact hold g hg
  intro g hg
  obtain ⟨h1, h2, h3, h4⟩ := hfresh g hg
  have hchain := hpend (.chain g)
  have hlookup := hpend (.lookup g)
  have hstopped := hpend (.stop g)
  show w'.pend _ = 0 ∧ w'.pend _ = 0 ∧ w'.pend _ = 0 ∧ w'.told _ = 0 ∧ w'.told _ = 0 ∧
    w'.told _ = 0 ∧ w'.told _ = 0 ∧ .disconnect g ∉ w'.log
  simp only [htold, hlog]
  exact ⟨by omega, by omega, by omega, h4⟩

/-- What an answer to a call leads to makes up for it. -/
theorem inv_answered {r : Reply} (hr : Answers c r = true) (h : CallInHand c w) :
    Inv 0 0 0 (w.answered c r) := by
  cases c with
  | allDevices g =>
    have h := h.chain (g := g) rfl
    cases r with
    | paths paths => exact inv_scanDevices h _
    | error name => exact inv_resolved h none
    | _ => cases hr
  | device g head rest =>
    have h := h.chain (g := g) rfl
    cases r with
    | device deviceType available =>
      refine h.guard (fun hg => ?_)
      by_cases htype : deviceType ≠ 5
      · rw [if_pos htype]
        exact inv_scanDevices h rest
      rw [if_neg htype]
      exact (h.last hg).chain (congrArg Role.chain hg)
    | error name => exact inv_scanDevices h rest
    | _ => cases hr
  | hwAddress g device available rest =>
    have h := h.chain (g := g) rfl
    cases r with
    | text address =>
      refine h.guard (fun _ => ?_)
      by_cases hsame : w.samePhone address = true
      · rw [if_pos hsame]
        exact inv_inspect h _ _
      rw [if_neg hsame]
      exact inv_scanDevices h rest
    | error name => exact inv_scanDevices h rest
    | _ => cases hr
  | settings g head rest accepted =>
    have h := h.chain (g := g) rfl
    cases r with
    | settings value =>
      exact h.guard (fun _ => inv_inspect h _ _)
    | error name => exact inv_inspect h rest accepted
    | _ => cases hr
  | byUuid g =>
    have h := h.chain (g := g) rfl
    cases r with
    | path profile => exact inv_activate h profile
    | error name =>
      show Inv 0 0 0 (if g ≠ w.generation then w
        else if name = nmName ".Settings.InvalidConnection" then w.call (.addConnection g)
        else w.fail g name)
      refine h.guard (fun hg => ?_)
      by_cases hname : name = nmName ".Settings.InvalidConnection"
      · rw [if_pos hname]
        exact (h.last hg).chain (congrArg Role.chain hg)
      rw [if_neg hname]
      exact inv_fail h name
    | _ => cases hr
  | addConnection g =>
    have h := h.chain (g := g) rfl
    cases r with
    | path profile => exact inv_activate h profile
    | error name => exact inv_fail h name
    | _ => cases hr
  | activate g profile =>
    have h := h.chain (g := g) rfl
    cases r with
    | path path => exact inv_activated h path
    | error name => exact inv_fail h name
    | _ => cases hr
  | state g path =>
    have h := h.other rfl
    cases r with
    | state value => exact inv_observe h value (-1)
    | error name => exact h
    | _ => cases hr
  | devices g path =>
    have h := h.lookup (g := g) rfl
    cases r with
    | paths paths =>
      unfold Nm.answered
      dsimp only
      by_cases hg : g = w.generation
      · rw [if_neg (not_not.mpr hg)]
        cases paths with
        | nil => exact inv_report h []
        | cons device rest =>
          rw [if_pos hg] at h
          exact h.lookup (congrArg Role.lookup hg)
      · rw [if_pos hg]
        rwa [if_neg hg] at h
    | error name => exact inv_report h []
    | _ => cases hr
  | ipInterface g device =>
    have h := h.lookup (g := g) rfl
    cases r with
    | text interface => exact inv_report h interface
    | error name => exact inv_report h []
    | _ => cases hr
  | activeConnections g =>
    have h := h.stop (g := g) rfl
    cases r with
    | paths paths => exact inv_check h _
    | error name =>
      exact h.guard (fun _ => inv_stopFailed h _)
    | _ => cases hr
  | active g head rest =>
    have h := h.stop (g := g) rfl
    cases r with
    | active value =>
      refine h.guard (fun hg => ?_)
      by_cases huuid : value.uuid ∈ w.profileUuids
      · rw [if_pos huuid]
        exact inv_found (h.last hg) hg head
      rw [if_neg huuid]
      cases value.devices with
      | nil => exact inv_check h rest
      | cons device devices =>
        dsimp only
        by_cases htype : value.connectionType ≠ "bluetooth".toList
        · rw [if_pos htype]
          exact inv_check h rest
        rw [if_neg htype]
        exact (h.last hg).stopCall (congrArg Role.stop hg)
    | error name => exact inv_check h rest
    | _ => cases hr
  | activeAddress g device head rest =>
    have h := h.stop (g := g) rfl
    cases r with
    | text address =>
      refine h.guard (fun hg => ?_)
      by_cases hsame : w.samePhone address = true
      · rw [if_pos hsame]
        exact inv_found (h.last hg) hg head
      rw [if_neg hsame]
      exact inv_check h rest
    | error name => exact inv_check h rest
    | _ => cases hr
  | deactivate path waiter =>
    cases waiter with
    | none =>
      have h := h.other rfl
      cases r with
      | done => exact h
      | error name =>
        unfold Nm.answered
        dsimp only
        split <;> exact h
      | _ => cases hr
    | some g =>
      have h := h.stop (g := g) rfl
      cases r with
      | done => exact inv_stopDone h
      | error name =>
        unfold Nm.answered
        dsimp only
        split
        · exact inv_stopDone h
        · exact inv_stopFailed h _
      | _ => cases hr

end Answered

/-! ## Steps and runs -/

section Runs

variable {w : Nm}

/-- A method is called: the attempt or the stop before is an old one, and nothing is known of the new
one but its entry. -/
theorem Inv.supersede (h : Inv 0 0 0 w) (entry : Nat → Entry) (hcarries : ∀ m g, (entry g).carries m = false)
    (hentry : ∀ n g, entry n = .disconnect g → n = g) :
    Inv 1 0 (if entry (w.generation + 1) = .disconnect (w.generation + 1) then 1 else 0)
      (w.supersede entry) := by
  obtain ⟨hattempt, hearly, hlookups, hstop, hold, hfresh⟩ := h
  have htold (m : Mark) : (w.supersede entry).told m = w.told m := by
    show (entry (w.generation + 1) :: w.log).countP _ = _
    rw [List.countP_cons, hcarries]
    rfl
  have hpend (r : Role) : (w.supersede entry).pend r = w.pend r := rfl
  have hlog (g : Nat) : .disconnect g ∈ (w.supersede entry).log ↔
      entry (w.generation + 1) = .disconnect g ∨ .disconnect g ∈ w.log := by
    show _ ∈ entry (w.generation + 1) :: w.log ↔ _
    rw [List.mem_cons]
    constructor
    all_goals
      rintro (h | h)
      · exact .inl h.symm
      · exact .inr h
  obtain ⟨h1, h2, h3, h4, h5, h6, h7, h8⟩ := hfresh (w.generation + 1) (by omega)
  have hgeneration : (w.supersede entry).generation = w.generation + 1 := rfl
  constructor
  · rw [hgeneration, hpend, htold, htold, h1, h5, h6]
    show 0 + 1 + 0 + 0 + 0 ≤ 1
    omega
  · exact fun _ => rfl
  · rw [hgeneration, hpend, htold, h2, h4]
    rfl
  · rw [hgeneration, hpend, htold, h3, h7]
    by_cases hmine : entry (w.generation + 1) = .disconnect (w.generation + 1)
    · rw [if_pos hmine, if_pos ((hlog _).mpr (.inl hmine))]
    have hnone : .disconnect (w.generation + 1) ∉ (w.supersede entry).log := by
      rw [hlog]
      exact not_or.mpr ⟨hmine, h8⟩
    rw [if_neg hmine, if_neg hnone]
  · intro g hg
    rw [hgeneration] at hg
    simp only [htold]
    by_cases hlast : g = w.generation
    · subst hlast
      -- what the invariant says of the last generation is what is left of it
      refine ⟨?_, ?_, ?_, ?_⟩
      · split at hlookups <;> omega
      · omega
      · split at hstop <;> omega
      · intro hpos
        rw [hearly (by omega), if_neg Bool.false_ne_true] at hlookups
        omega
    · exact hold g (by omega)
  · intro g hg
    rw [hgeneration] at hg
    simp only [htold, hpend, hlog]
    obtain ⟨h1, h2, h3, h4, h5, h6, h7, h8⟩ := hfresh g (by omega)
    refine ⟨h1, h2, h3, h4, h5, h6, h7, not_or.mpr ⟨fun hmine => ?_, h8⟩⟩
    have := hentry _ _ hmine
    omega

theorem inv_connect (h : Inv 0 0 0 w) : Inv 0 0 0 w.connect := by
  have hnew := h.supersede .connect (fun _ _ => rfl) nofun
  rw [if_neg nofun] at hnew
  exact hnew.chain rfl

theorem inv_disconnect (h : Inv 0 0 0 w) : Inv 0 0 0 w.disconnect := by
  have hnew := (h.supersede .disconnect (fun _ _ => rfl)
    (fun _ _ heq => Entry.disconnect.inj heq)).drop
  rw [if_pos rfl] at hnew
  unfold Nm.disconnect
  cases w.activePath with
  | none => exact hnew.stopCall rfl
  | some path => exact (hnew.remember w.profileUuids w.profileUuid none).stopCall rfl

theorem inv_cancel (h : Inv 0 0 0 w) : Inv 0 0 0 w.cancel := by
  have hnew := h.supersede .cancel (fun _ _ => rfl) nofun
  rw [if_neg nofun] at hnew
  exact hnew.drop

/-- **Every step keeps the invariant.** -/
theorem inv_step (i : Input) (h : Inv 0 0 0 w) : Inv 0 0 0 (step w i) := by
  cases i with
  | connect => exact inv_connect h
  | disconnect => exact inv_disconnect h
  | cancel => exact inv_cancel h
  | stateChanged g state reason => exact inv_observe h state reason
  | answer n r =>
    unfold step
    dsimp only
    cases hn : w.pending[n]? with
    | none => exact h
    | some c =>
      dsimp only
      by_cases hr : Answers c r = true
      · rw [if_pos hr]
        exact inv_answered hr (h.take hn r)
      rw [if_neg hr]
      exact h

theorem inv_init (mac uuid : Str) : Inv 0 0 0 (Nm.init mac uuid) := by
  constructor
  · exact Nat.zero_le 1
  · exact fun _ => rfl
  · rfl
  · rfl
  · intro g hg
    exact absurd hg (Nat.not_lt_zero g)
  · intro g _
    exact ⟨rfl, rfl, rfl, rfl, rfl, rfl, rfl, List.not_mem_nil⟩

/-- **Every run keeps the invariant.** -/
theorem inv_run (mac uuid : Str) (inputs : List Input) :
    Inv 0 0 0 (Machine.run step (Nm.init mac uuid) inputs) :=
  Machine.always step (fun _ i h => inv_step i h) inputs (inv_init mac uuid)

/-- An attempt reports a connection once at most. -/
theorem Inv.connected_once (h : Inv 0 0 0 w) (g : Nat) : w.told (.connected g) ≤ 1 := by
  rcases Nat.lt_trichotomy g w.generation with hg | hg | hg
  · exact (h.old g hg).1
  · have hlookups := h.lookups
    rw [hg]
    split at hlookups <;> omega
  · obtain ⟨-, -, -, hnone, -⟩ := h.fresh g hg
    omega

/-- An attempt ends once at most. -/
theorem Inv.ends_once (h : Inv 0 0 0 w) (g : Nat) : w.told (.error g) + w.told (.lost g) ≤ 1 := by
  rcases Nat.lt_trichotomy g w.generation with hg | hg | hg
  · exact (h.old g hg).2.1
  · have hattempt := h.attempt
    rw [hg]
    omega
  · obtain ⟨-, -, -, -, herror, hlost, -⟩ := h.fresh g hg
    omega

/-- An attempt that fails reports no connection. -/
theorem Inv.error_alone (h : Inv 0 0 0 w) (g : Nat) (herror : 0 < w.told (.error g)) :
    w.told (.connected g) = 0 := by
  rcases Nat.lt_trichotomy g w.generation with hg | hg | hg
  · exact (h.old g hg).2.2.2 herror
  · rw [hg] at herror
    have hlookups := h.lookups
    rw [h.early (by omega), if_neg Bool.false_ne_true] at hlookups
    rw [hg]
    omega
  · exact (h.fresh g hg).2.2.2.1

/-- A stop calls back once at most. -/
theorem Inv.stops_once (h : Inv 0 0 0 w) (g : Nat) : w.told (.stopped g) ≤ 1 := by
  rcases Nat.lt_trichotomy g w.generation with hg | hg | hg
  · exact (h.old g hg).2.2.1
  · have hstop := h.stop
    rw [hg]
    split at hstop <;> omega
  · obtain ⟨-, -, -, -, -, -, hstopped, -⟩ := h.fresh g hg
    omega

end Runs

end BlueFerry.NmTether
