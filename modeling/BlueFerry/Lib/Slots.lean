import Mathlib.Tactic

/-! # What a program waits for

A program hands something out (a timer to its event loop, a request to another process) and gets a
number for it; later the thing comes back, or is called off, once. `Slots` holds what is out: `put`
gives the next number, which was never used before, and `take` is the end of it.
-/

structure Slots (κ : Type) where
  get : Nat → Option κ
  next : Nat
  fresh : ∀ n, next ≤ n → get n = none

namespace Slots

variable {κ : Type}

def empty : Slots κ := ⟨fun _ => none, 0, fun _ _ => rfl⟩

section

variable (s : Slots κ)

/-- One more thing is out, under the number `next`. -/
def put (k : κ) : Slots κ where
  get := Function.update s.get s.next (some k)
  next := s.next + 1
  fresh := by
    intro n hn
    rw [Function.update_of_ne (by omega)]
    exact s.fresh n (by omega)

/-- It is back, or called off. -/
def take (n : Nat) : Slots κ where
  get := Function.update s.get n none
  next := s.next
  fresh := by
    intro m hm
    by_cases h : m = n
    · rw [h, Function.update_self]
    rw [Function.update_of_ne h]
    exact s.fresh m hm

/-- What is out under a number changes. -/
def modify (n : Nat) (f : κ → κ) : Slots κ where
  get := Function.update s.get n ((s.get n).map f)
  next := s.next
  fresh := by
    intro m hm
    by_cases h : m = n
    · rw [h, Function.update_self, ← h, s.fresh m hm]
      rfl
    rw [Function.update_of_ne h]
    exact s.fresh m hm

/-- Everything that is out is called off. -/
def clear : Slots κ := ⟨fun _ => none, s.next, fun _ _ => rfl⟩

/-- It is out. -/
def Holds (n : Nat) (k : κ) : Prop := s.get n = some k

@[simp] theorem get_empty (n : Nat) : (empty : Slots κ).get n = none := rfl

@[simp] theorem not_holds_empty (n : Nat) (k : κ) : ¬ (empty : Slots κ).Holds n k := by
  simp [Holds]

@[simp] theorem not_holds_clear (n : Nat) (k : κ) : ¬ s.clear.Holds n k := by
  simp [Holds, clear]

end

variable {k : κ} {n : Nat} {s : Slots κ}

theorem holds_put {k' : κ} : (s.put k).Holds n k' ↔ n = s.next ∧ k' = k ∨ s.Holds n k' := by
  unfold Holds put
  by_cases h : n = s.next
  · subst h
    have hnone : s.get s.next = none := s.fresh s.next le_rfl
    simp [hnone, eq_comm]
  · simp [h]

theorem holds_take {m : Nat} : (s.take n).Holds m k ↔ m ≠ n ∧ s.Holds m k := by
  unfold Holds take
  by_cases h : m = n
  · subst h
    simp
  · simp [h]

theorem holds_modify {m : Nat} {f : κ → κ} : (s.modify n f).Holds m k ↔
      (m = n ∧ ∃ k', s.Holds n k' ∧ f k' = k) ∨ (m ≠ n ∧ s.Holds m k) := by
  unfold Holds modify
  by_cases h : m = n
  · subst h
    simp
  · simp [h]

/-- What is out has a number below the next one. -/
theorem Holds.lt (h : s.Holds n k) : n < s.next := by
  by_contra hn
  rw [Holds, s.fresh n (by omega)] at h
  cases h

theorem Holds.unique {k' : κ} (h : s.Holds n k) (h' : s.Holds n k') : k = k' := by
  unfold Holds at h h'
  exact Option.some.inj (h.symm.trans h')

/-- An entry that is neither the one modified nor what becomes of it stays as it is. -/
theorem holds_modify_of_ne {m : Nat} {f : κ → κ} {k' : κ} (hid : s.Holds n k) (hold : k' ≠ k)
    (hnew : f k ≠ k') : (s.modify n f).Holds m k' ↔ s.Holds m k' := by
  rw [holds_modify]
  constructor
  · rintro (⟨-, x, hx, heq⟩ | ⟨-, h⟩)
    · rw [hx.unique hid] at heq
      exact absurd heq hnew
    · exact h
  intro h
  refine .inr ⟨?_, h⟩
  rintro rfl
  exact hold (h.unique hid)

end Slots
