import BlueFerry.Tether.Bluez
import BlueFerry.Tether.Callbacks

/-! # A withdrawn tether

A stop can overtake the attempt that it is to undo: it finds nothing to take down, and the link is
granted later. Such a grant owes that the link is taken down after it (`owes`, `pays`).

`NetworkManagerTether` looks at the generation when it is granted a connection, and takes down the one
that comes too late. `BluezTether` drops the late answer, so the link stays up until another stop.
-/

/-! ## NetworkManager -/

namespace BlueFerry.NmTether

open BlueFerry.Text
open Trace

/-- A connection is granted to an attempt that a later stop has withdrawn. -/
def owes (e : Entry) (earlier : List Entry) : Prop :=
  ∃ g profile path, e = .answer (.activate g profile) (.path path) ∧
    ∃ d, g < d ∧ .disconnect d ∈ earlier

/-- That connection is taken down. -/
def pays (x e : Entry) : Prop :=
  ∃ path waiter, x = .call (.deactivate path waiter) ∧
    ∃ g profile, e = .answer (.activate g profile) (.path path)

/-- Only calls are made and callbacks called. -/
def Gains (w w' : Nm) : Prop :=
  ∃ new, w'.log = new ++ w.log ∧ ∀ e ∈ new, ∀ c r, e ≠ .answer c r

section Gains

variable {g : Nat} {w w' w'' : Nm}

theorem Gains.of_eq (h : w'.log = w.log) : Gains w w' := ⟨[], h, fun _ he => nomatch he⟩

theorem gains_call (c : Call) : Gains w (w.call c) := by
  refine ⟨[.call c], rfl, fun e he c' r' => ?_⟩
  rw [List.mem_singleton.mp he]
  exact Entry.noConfusion

theorem gains_tell (c : Callback) : Gains w (w.tell c) := by
  refine ⟨[.callback c], rfl, fun e he c' r' => ?_⟩
  rw [List.mem_singleton.mp he]
  exact Entry.noConfusion

theorem gains_fail (name : Str) : Gains w (w.fail g name) := by
  unfold Nm.fail
  split
  · exact .of_eq rfl
  · exact gains_tell (w := w.dropStateMatch) _

theorem gains_activate (profile : Str) : Gains w (w.activate g profile) := by
  unfold Nm.activate
  split
  · exact .of_eq rfl
  · exact gains_call _

theorem gains_resolved (profile : Option Str) : Gains w (w.resolved g profile) := by
  unfold Nm.resolved
  split
  · exact .of_eq rfl
  cases profile with
  | none => exact gains_call (w := { w with profileUuid := w.uuid }) _
  | some profile => exact gains_activate profile

theorem gains_choose (accepted : List Accepted) : Gains w (w.choose g accepted) := by
  cases accepted with
  | nil => exact gains_resolved none
  | cons entry rest => exact gains_resolved (w := { w with profileUuids := _, profileUuid := _ }) _

theorem gains_inspect (candidates : List Str) (accepted : List Accepted) :
    Gains w (w.inspect g candidates accepted) := by
  unfold Nm.inspect
  split
  · exact .of_eq rfl
  cases candidates with
  | nil => exact gains_choose accepted
  | cons head rest => exact gains_call _

theorem gains_scanDevices (paths : List Str) : Gains w (w.scanDevices g paths) := by
  unfold Nm.scanDevices
  split
  · exact .of_eq rfl
  cases paths with
  | nil => exact gains_resolved none
  | cons head rest => exact gains_call _

theorem gains_activated (path : Str) : Gains w (w.activated g path) := by
  unfold Nm.activated
  split
  · exact gains_call _
  · exact gains_call (w := { w with activePath := some path, watching := true }) _

theorem gains_report (interface : Str) : Gains w (w.report g interface) := by
  unfold Nm.report
  split
  · exact .of_eq rfl
  · exact gains_tell _

theorem gains_observe (state reason : Int) : Gains w (w.observe g state reason) := by
  unfold Nm.observe
  split
  · exact .of_eq rfl
  split
  · unfold Nm.readInterface
    split
    · exact gains_report (w := { w with established := true }) []
    · exact gains_call (w := { w with established := true }) _
  · split
    · split <;> exact gains_tell (w := { w.dropStateMatch with activePath := none }) _
    · exact .of_eq rfl

theorem gains_stopDone (waiter : Option Nat) : Gains w (w.stopDone waiter) := by
  cases waiter with
  | none => exact .of_eq rfl
  | some g =>
    unfold Nm.stopDone
    dsimp only
    split
    · exact .of_eq rfl
    · exact gains_tell _

theorem gains_stopFailed (waiter : Option Nat) (token : Str) : Gains w (w.stopFailed waiter token) := by
  cases waiter with
  | none => exact .of_eq rfl
  | some g =>
    unfold Nm.stopFailed
    dsimp only
    split
    · exact .of_eq rfl
    · exact gains_tell _

theorem gains_found (path : Str) : Gains w (w.found g path) := by
  unfold Nm.found
  split
  · exact gains_stopDone _
  · exact gains_call _

theorem gains_check (paths : List Str) : Gains w (w.check g paths) := by
  unfold Nm.check
  split
  · exact .of_eq rfl
  cases paths with
  | nil => exact gains_stopDone _
  | cons head rest => exact gains_call _

/-- Whatever a call is answered, nothing is answered by itself. -/
theorem gains_answered (c : Call) (r : Reply) : Gains w (w.answered c r) := by
  unfold Nm.answered
  split
  · exact gains_scanDevices _
  · exact gains_resolved none
  · split
    · exact .of_eq rfl
    split
    · exact gains_scanDevices _
    · exact gains_call _
  · exact gains_scanDevices _
  · split
    · exact .of_eq rfl
    split
    · exact gains_inspect _ _
    · exact gains_scanDevices _
  · exact gains_scanDevices _
  · split
    · exact .of_eq rfl
    · exact gains_inspect _ _
  · exact gains_inspect _ _
  · exact gains_activate _
  · split
    · exact .of_eq rfl
    split
    · exact gains_call _
    · exact gains_fail _
  · exact gains_activate _
  · exact gains_fail _
  · exact gains_activated _
  · exact gains_fail _
  · exact gains_observe _ _
  · split
    · exact .of_eq rfl
    split
    · exact gains_report _
    · exact gains_call _
  · exact gains_report _
  · exact gains_report _
  · exact gains_report _
  · exact gains_check _
  · split
    · exact .of_eq rfl
    · exact gains_stopFailed _ _
  · split
    · exact .of_eq rfl
    split
    · exact gains_found _
    split
    · exact gains_check _
    split
    · exact gains_check _
    · exact gains_call _
  · exact gains_check _
  · split
    · exact .of_eq rfl
    split
    · exact gains_found _
    · exact gains_check _
  · exact gains_check _
  · exact gains_stopDone _
  · split
    · exact gains_stopDone _
    · exact gains_stopFailed _ _
  · exact .of_eq rfl

/-- A call owes nothing, and neither does a callback. -/
theorem Gains.followed (h : Gains w w') (hw : Followed owes pays w.log) : Followed owes pays w'.log := by
  obtain ⟨new, hlog, hnew⟩ := h
  rw [hlog]
  apply hw.append
  rintro e he earlier ⟨g, profile, path, heq, -⟩
  exact hnew e he _ _ heq

end Gains

theorem not_owes_of_ne {e : Entry} {log : List Entry} (he : ∀ c r, e ≠ .answer c r) : ¬ owes e log := by
  rintro ⟨g, profile, path, heq, -⟩
  exact he _ _ heq

/-- **A connection that is granted too late is taken down by the next call.** -/
theorem followed_step {w : Nm} (h : Inv 0 0 0 w) (hw : Followed owes pays w.log) (i : Input) :
    Followed owes pays (step w i).log := by
  cases i with
  | connect => exact (gains_call _).followed (hw.cons (not_owes_of_ne (fun _ _ => Entry.noConfusion)))
  | disconnect =>
    have hnew : Followed owes pays (.disconnect (w.generation + 1) :: w.log) :=
      hw.cons (not_owes_of_ne (fun _ _ => Entry.noConfusion))
    show Followed owes pays w.disconnect.log
    unfold Nm.disconnect
    split <;> exact (gains_call _).followed hnew
  | cancel => exact hw.cons (not_owes_of_ne (fun _ _ => Entry.noConfusion))
  | stateChanged g state reason => exact (gains_observe state reason).followed hw
  | answer n r =>
    unfold step
    dsimp only
    cases hn : w.pending[n]? with
    | none => exact hw
    | some c =>
      dsimp only
      by_cases hr : Answers c r = true
      · rw [if_pos hr]
        by_cases howes : owes (.answer c r) w.log
        · obtain ⟨g, profile, path, heq, d, hd, hstop⟩ := howes
          obtain ⟨rfl, rfl⟩ := Entry.answer.inj heq
          -- the stop has a generation of its own, so that of the attempt is not the last one
          have hlate : g ≠ w.generation := by
            rintro rfl
            exact (h.fresh d hd).2.2.2.2.2.2.2 hstop
          show Followed owes pays (Nm.activated _ g path).log
          unfold Nm.activated
          rw [if_pos hlate]
          exact hw.cons_cons (not_owes_of_ne (fun _ _ => Entry.noConfusion))
            ⟨path, none, rfl, g, profile, rfl⟩
        · exact (gains_answered c r).followed (hw.cons howes)
      · rw [if_neg hr]
        exact hw

theorem followed_run (mac own : Str) (inputs : List Input) :
    Followed owes pays (Machine.run step (Nm.init mac own) inputs).log :=
  (Machine.always step (P := fun w => Inv 0 0 0 w ∧ Followed owes pays w.log)
    (fun _ i h => ⟨inv_step i h.1, followed_step h.1 h.2 i⟩) inputs
    ⟨inv_init mac own, Followed.nil⟩).2

end BlueFerry.NmTether

/-! ## BlueZ -/

namespace BlueFerry.BluezTether

open BlueFerry.Text
open Trace

/-- `Connect` succeeds for an attempt that a later stop has withdrawn. -/
def owes (e : Entry) (earlier : List Entry) : Prop :=
  ∃ g interface, e = .answer (.connect g) (.ok interface) ∧ ∃ d, g < d ∧ .disconnect d ∈ earlier

/-- The link is taken down. -/
def pays (x _e : Entry) : Prop := ∃ g, x = .call (.disconnect g)

/-- The next input is such an answer. -/
def Late (w : Bluez) (i : Input) : Prop :=
  ∃ n interface g, i = .answer n (.ok interface) ∧ w.pending[n]? = some (.connect g) ∧
    ∃ d, g < d ∧ .disconnect d ∈ w.log

/-- `disconnect` is called again after each late answer. -/
def StoppedAgain : Bluez → List Input → Prop
  | _, [] => True
  | w, i :: rest => (Late w i → .disconnect ∈ rest) ∧ StoppedAgain (step w i) rest

theorem not_owes_of_ne {e : Entry} {log : List Entry} (he : ∀ c r, e ≠ .answer c r) : ¬ owes e log := by
  rintro ⟨g, interface, heq, -⟩
  exact he _ _ heq

theorem not_pays_of_ne {x e : Entry} (hx : ∀ g, x ≠ .call (.disconnect g)) : ¬ pays x e := by
  rintro ⟨g, heq⟩
  exact hx g heq

/-- An entry that neither owes nor pays. -/
theorem followed_cons_iff {e : Entry} {log : List Entry} (howes : ¬ owes e log)
    (hpays : ∀ g, e ≠ .call (.disconnect g)) :
    Followed owes pays (e :: log) ↔ Followed owes pays log :=
  ⟨fun h => h.of_cons (fun _ _ _ => not_pays_of_ne hpays), fun h => h.cons howes⟩

/-- What an answer leads to neither owes nor pays. -/
theorem followed_answered (w : Bluez) (c : Call) (r : Reply) :
    Followed owes pays (w.answered c r).log ↔ Followed owes pays w.log := by
  have htell (cb : Callback) : Followed owes pays (w.tell cb).log ↔ Followed owes pays w.log :=
    followed_cons_iff (not_owes_of_ne (fun _ _ => Entry.noConfusion)) (fun _ => Entry.noConfusion)
  have hreply (g : Nat) (interface : Str) :
      Followed owes pays (w.reply g interface).log ↔ Followed owes pays w.log := by
    unfold Bluez.reply
    split
    · exact htell _
    · rfl
  cases c with
  | connect g =>
    cases r with
    | ok interface => exact hreply g interface
    | error name message =>
      unfold Bluez.answered
      dsimp only
      split
      · rfl
      split
      · refine followed_cons_iff (not_owes_of_ne (fun _ _ => Entry.noConfusion)) (fun g heq => ?_)
        exact Call.noConfusion (Entry.call.inj heq)
      · exact htell _
  | interface g =>
    cases r with
    | ok interface => exact hreply g interface
    | error name message => exact hreply g []
  | disconnect g =>
    cases r with
    | ok interface =>
      unfold Bluez.answered
      dsimp only
      split
      · exact htell _
      · rfl
    | error name message =>
      unfold Bluez.answered
      dsimp only
      split
      · rfl
      · split <;> exact htell _

/-- **What one step does to the links that are owed.** A stop pays for all of them, and a late answer is
never paid at once. -/
theorem followed_step_iff (w : Bluez) (i : Input) :
    Followed owes pays (step w i).log ↔
      i = .disconnect ∨ (Followed owes pays w.log ∧ ¬ Late w i) := by
  cases i with
  | connect =>
    have hlate : ¬ Late w .connect := by
      rintro ⟨n, interface, g, heq, -⟩
      nomatch heq
    have hcall : Followed owes pays (step w .connect).log ↔ Followed owes pays w.log := by
      refine (followed_cons_iff (not_owes_of_ne (fun _ _ => Entry.noConfusion)) (fun g heq => ?_)).trans
        (followed_cons_iff (not_owes_of_ne (fun _ _ => Entry.noConfusion)) (fun _ => Entry.noConfusion))
      exact Call.noConfusion (Entry.call.inj heq)
    rw [hcall]
    simp [hlate]
  | disconnect =>
    refine iff_of_true ?_ (.inl rfl)
    exact Followed.of_pays (not_owes_of_ne (fun _ _ => Entry.noConfusion))
      (fun _ _ _ => ⟨w.generation + 1, rfl⟩)
  | cancel =>
    have hlate : ¬ Late w .cancel := by
      rintro ⟨n, interface, g, heq, -⟩
      nomatch heq
    have hentry : Followed owes pays (step w .cancel).log ↔ Followed owes pays w.log :=
      followed_cons_iff (not_owes_of_ne (fun _ _ => Entry.noConfusion)) (fun _ => Entry.noConfusion)
    rw [hentry]
    simp [hlate]
  | answer n r =>
    unfold step
    dsimp only
    cases hn : w.pending[n]? with
    | none =>
      have hlate : ¬ Late w (.answer n r) := by
        rintro ⟨n', interface, g, heq, hpending, -⟩
        obtain ⟨rfl, -⟩ := Input.answer.inj heq
        nomatch hn.symm.trans hpending
      simp [hlate]
    | some c =>
      rw [followed_answered]
      by_cases howes : owes (.answer c r) w.log
      · obtain ⟨g, interface, heq, d, hd, hstop⟩ := id howes
        obtain ⟨rfl, rfl⟩ := Entry.answer.inj heq
        have hlate : Late w (.answer n (.ok interface)) := ⟨n, interface, g, rfl, hn, d, hd, hstop⟩
        refine iff_of_false (Followed.not_of_last howes) ?_
        rintro (heq | ⟨-, hnot⟩)
        · nomatch heq
        · exact hnot hlate
      have hlate : ¬ Late w (.answer n r) := by
        rintro ⟨n', interface, g, heq, hpending, d, hd, hstop⟩
        obtain ⟨rfl, rfl⟩ := Input.answer.inj heq
        obtain rfl := Option.some.inj (hn.symm.trans hpending)
        exact howes ⟨g, interface, rfl, d, hd, hstop⟩
      rw [followed_cons_iff howes (fun _ => Entry.noConfusion)]
      simp [hlate]

/-- **Every late link is taken down if and only if `disconnect` is called again after it.** -/
theorem followed_run_iff (inputs : List Input) : ∀ w : Bluez,
    Followed owes pays (Machine.run step w inputs).log ↔
      (Followed owes pays w.log ∨ .disconnect ∈ inputs) ∧ StoppedAgain w inputs := by
  induction inputs with
  | nil => simp [StoppedAgain]
  | cons i rest ih =>
    intro w
    rw [Machine.run_cons, ih, followed_step_iff, StoppedAgain, List.mem_cons]
    have hstop : i = .disconnect → ¬ Late w i := by
      rintro rfl ⟨n, interface, g, heq, -⟩
      nomatch heq
    constructor
    · rintro ⟨(rfl | ⟨hw, hlate⟩) | hrest, hagain⟩
      · exact ⟨.inr (.inl rfl), fun hlate => absurd hlate (hstop rfl), hagain⟩
      · exact ⟨.inl hw, fun h => absurd h hlate, hagain⟩
      · exact ⟨.inr (.inr hrest), fun _ => hrest, hagain⟩
    rintro ⟨hw, hlate, hagain⟩
    refine ⟨?_, hagain⟩
    rcases hw with hw | rfl | hrest
    · by_cases h : Late w i
      · exact .inr (hlate h)
      · exact .inl (.inr ⟨hw, h⟩)
    · exact .inl (.inl rfl)
    · exact .inr hrest

end BlueFerry.BluezTether

/-! ## Both backends -/

namespace BlueFerry.Tether

open BlueFerry.Text
open Trace

/-- **A withdrawn tether stays withdrawn.** Through NetworkManager it always does; through BlueZ if and
only if `disconnect` is called again after each `Connect` that succeeds too late. -/
theorem withdrawn_iff_stopped_again (inputs : List BluezTether.Input) :
    (∀ mac own inputs, Followed NmTether.owes NmTether.pays
      (Machine.run NmTether.step (NmTether.Nm.init mac own) inputs).log) ∧
    (Followed BluezTether.owes BluezTether.pays
        (Machine.run BluezTether.step {} inputs).log ↔ BluezTether.StoppedAgain {} inputs) := by
  refine ⟨NmTether.followed_run, ?_⟩
  rw [BluezTether.followed_run_iff]
  constructor
  · exact fun h => h.2
  · exact fun h => ⟨.inl Followed.nil, h⟩

/-- The stop is answered that there is nothing to stop, then `Connect` succeeds. -/
def overtaken : List BluezTether.Input :=
  [.connect, .disconnect, .answer 1 (.error (BluezTether.bluezName "NotConnected") []),
    .answer 0 (.ok "bnep0".toList)]

/-- The link stays up. -/
theorem overtaken_link_stays_up :
    ¬ Followed BluezTether.owes BluezTether.pays
      (Machine.run BluezTether.step {} overtaken).log := by
  intro h
  apply Followed.not_of_last _ h
  exact ⟨1, "bnep0".toList, rfl, 2, by decide, by decide⟩

end BlueFerry.Tether
