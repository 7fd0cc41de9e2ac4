import BlueFerry.Bearers.Core

/-! # The quiet methods

What only tells, schedules or keeps book leaves the core as it was.
-/

namespace BlueFerry.Bearers

section

variable (w : World)

theorem quiet_wait : Quiet w w.wait :=
  ⟨w.now + w.answer.elapsed, le_add_of_nonneg_right w.answer.elapsed.2, rfl⟩

theorem quiet_tell (tale : Tale) : Quiet w (w.tell tale) := (quiet_wait w).trans (.of_eq rfl)

theorem quiet_tellStatus : Quiet w w.tellStatus := quiet_tell w _

theorem quiet_tellLeDial (active : Bool) : Quiet w (w.tellLeDial active) :=
  (quiet_wait w).trans (.of_eq rfl)

theorem quiet_setFlaps (change : LeFlaps × Bool) : Quiet w (w.setFlaps change) := by
  unfold World.setFlaps
  extract_lets w₁
  have h₁ : Quiet w w₁ := .of_eq rfl
  split
  · exact (quiet_tell w₁ _).after h₁
  · exact h₁

theorem core_readLe (reply : Reply) : (w.set fun s => s.readLe reply).core = w.core := by
  cases reply with
  | property connected => rfl
  | noProperty device resolved => cases device <;> rfl
  | failed => rfl

section

variable (kind : Kind)

theorem quiet_read : Quiet w (w.read kind).1 := by
  unfold World.read
  extract_lets reply read
  have hread : Quiet w read := (quiet_wait w).trans (.of_eq rfl)
  cases kind with
  | bredr => exact hread
  | le => exact hread.trans (.of_eq (core_readLe read reply))

@[simp] theorem core_cancel (id : Option Nat) : (w.cancel id).core = w.core := by
  cases id with
  | none => rfl
  | some n => rfl

@[simp] theorem core_cancelLeSettle : w.cancelLeSettle.core = w.core :=
  core_cancel w w.supervisor.leSettleId

theorem quiet_cancelLeSettle : Quiet w w.cancelLeSettle := .of_eq (core_cancelLeSettle w)

theorem quiet_publishReconnect : Quiet w w.publishReconnect := by
  unfold World.publishReconnect
  extract_lets current
  split
  · exact .refl w
  · exact (quiet_tell _ _).after (.of_eq rfl)

theorem quiet_enterBredrResting : Quiet w w.enterBredrResting := by
  exact (quiet_publishReconnect _).after (.of_eq rfl)

theorem quiet_notePresence (sighting : Bool) : Quiet w (w.notePresence sighting) := by
  unfold World.notePresence
  extract_lets w₁ w₂
  have h₁ : Quiet w w₁ := by
    unfold w₁
    split
    · exact .of_eq rfl
    · exact .refl w
  have h₂ : Quiet w w₂ := h₁.trans (.of_eq rfl)
  split
  · exact h₂
  · exact (quiet_publishReconnect _).after (h₂.trans (.of_eq rfl))

theorem quiet_recordFailure (failed : Bool) : Quiet w (w.recordFailure kind failed) := by
  unfold World.recordFailure
  extract_lets w₁ delay threshold w₂ delay' w₃
  have h₁ : Quiet w w₁ := .of_eq rfl
  have h₂ : Quiet w w₂ := by
    unfold w₂
    split
    · exact h₁.trans (quiet_enterBredrResting w₁)
    · exact h₁
  have h₃ : Quiet w w₃ := h₂.trans (.of_eq rfl)
  split
  · exact h₃.trans (quiet_publishReconnect w₃)
  · exact h₃

theorem quiet_restoreLePreference : Quiet w w.restoreLePreference := by
  unfold World.restoreLePreference
  extract_lets s
  split
  · exact .refl w
  split
  · exact quiet_wait w
  · exact (quiet_wait w).trans (.of_eq rfl)

theorem quiet_clearBackoffIfStable : Quiet w (w.clearBackoffIfStable kind) := by
  unfold World.clearBackoffIfStable
  split
  · exact .refl w
  split
  · exact .refl w
  extract_lets w₁
  have h₁ : Quiet w w₁ := .of_eq rfl
  split
  · exact h₁.trans (.of_eq rfl)
  · exact h₁

theorem quiet_noteTransition (previous value : Option Bool)
    (deliberate : Bool) : Quiet w (w.noteTransition kind previous value deliberate) := by
  unfold World.noteTransition
  cases kind with
  | bredr =>
    dsimp -zeta only
    extract_lets w₁ w₂
    have h₁ : Quiet w w₁ := by
      unfold w₁
      split
      · exact .of_eq rfl
      · exact .refl w
    have h₂ : Quiet w w₂ := h₁.trans (.of_eq rfl)
    split
    · exact (h₂.trans (quiet_notePresence w₂ false)).trans (.of_eq rfl)
    · exact h₂
  | le =>
    dsimp -zeta only
    extract_lets w₁ lifetime w₂
    have h₂ : Quiet w w₂ := by
      unfold w₂
      split
      · split
        · exact (quiet_setFlaps w₁ _).after (.of_eq rfl)
        · exact .of_eq rfl
      · exact .refl w
    split
    · exact (h₂.trans (quiet_notePresence w₂ false)).trans (.of_eq rfl)
    · exact h₂

theorem quiet_noteDwell (value : Option Bool) : Quiet w (w.noteDwell kind value) := by
  unfold World.noteDwell
  split
  · extract_lets w₁ w₂
    have h₁ : Quiet w w₁ := by
      unfold w₁
      split
      · exact .of_eq rfl
      · exact .refl w
    have h₂ : Quiet w w₂ := h₁.trans (quiet_clearBackoffIfStable w₁ kind)
    split
    · exact h₂.trans (quiet_setFlaps w₂ _)
    · exact h₂
  · exact .of_eq rfl
  · exact .refl w

theorem quiet_tellState (previous value : Option Bool)
    (notifyStatus : Bool) : Quiet w (w.tellState kind previous value notifyStatus) := by
  unfold World.tellState
  extract_lets w₁ w₂
  have h₁ : Quiet w w₁ := by
    unfold w₁
    split
    · exact quiet_tell w _
    · exact .refl w
  have h₂ : Quiet w w₂ := by
    unfold w₂
    split
    · exact h₁
    split
    · exact h₁.trans (quiet_tellStatus w₁)
    · exact h₁.trans (.of_eq rfl)
  split
  · exact h₂.trans (.of_eq rfl)
  · exact h₂

end

theorem quiet_scheduleLeConnect : Quiet w w.scheduleLeConnect := by
  unfold World.scheduleLeConnect
  extract_lets s
  split
  · exact .refl w
  · exact .of_eq rfl

theorem quiet_ageLeEvidence : Quiet w w.ageLeEvidence := quiet_setFlaps w _

theorem quiet_forgiveClassic : Quiet w w.forgiveClassic := .of_eq rfl

end

end BlueFerry.Bearers
