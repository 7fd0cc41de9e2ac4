import Mathlib.Tactic

/-! # Two lists in one

`Interleaved as bs cs` says that `cs` holds the elements of `as` and those of `bs`, each in their own
order. `Interleaved.exists_positions` says where they stand in it.
-/

inductive Interleaved {α : Type} : List α → List α → List α → Prop
  | nil : Interleaved [] [] []
  | left {a : α} {as bs cs : List α} (h : Interleaved as bs cs) : Interleaved (a :: as) bs (a :: cs)
  | right {b : α} {as bs cs : List α} (h : Interleaved as bs cs) : Interleaved as (b :: bs) (b :: cs)

namespace Interleaved

variable {α β : Type} {as bs cs : List α}

/-- **Where the two lists stand in the one**: `f` and `g` give the place of each element of the first
and of the second, every place is one of these, and `f` keeps the order. -/
theorem exists_positions (h : Interleaved as bs cs) : ∃ f g : Nat → Nat,
    (∀ (j : Nat) (a : α), as[j]? = some a → cs[f j]? = some a) ∧
    (∀ (k : Nat) (b : α), bs[k]? = some b → cs[g k]? = some b) ∧
    (∀ (i : Nat) (c : α), cs[i]? = some c →
      (∃ j, i = f j ∧ as[j]? = some c) ∨ ∃ k, i = g k ∧ bs[k]? = some c) ∧
    (∀ j j', j < j' → f j < f j') ∧ (∀ k k', g k = g k' → k = k') := by
  induction h with
  | nil => exact ⟨id, id, by simp, by simp, by simp, fun _ _ h => h, fun _ _ h => h⟩
  | @left a as bs cs _ ih =>
    obtain ⟨f, g, hf, hg, hcover, hmono, hinj⟩ := ih
    refine ⟨fun j => match j with | 0 => 0 | j + 1 => f j + 1, fun k => g k + 1, ?_, ?_, ?_, ?_, ?_⟩
    · intro j x hx
      cases j with
      | zero => exact hx
      | succ j => exact hf j x hx
    · exact fun k x hx => hg k x hx
    · intro i c hc
      cases i with
      | zero => exact Or.inl ⟨0, rfl, hc⟩
      | succ i =>
        rcases hcover i c hc with ⟨j, rfl, hj⟩ | ⟨k, rfl, hk⟩
        · exact Or.inl ⟨j + 1, rfl, hj⟩
        · exact Or.inr ⟨k, rfl, hk⟩
    · intro j j' hlt
      cases j' with
      | zero => omega
      | succ j' =>
        cases j with
        | zero => exact Nat.succ_pos _
        | succ j =>
          have := hmono j j' (by omega)
          exact Nat.succ_lt_succ this
    · intro k k' hk
      exact hinj k k' (Nat.succ.inj hk)
  | @right b as bs cs _ ih =>
    obtain ⟨f, g, hf, hg, hcover, hmono, hinj⟩ := ih
    refine ⟨fun j => f j + 1, fun k => match k with | 0 => 0 | k + 1 => g k + 1, ?_, ?_, ?_, ?_, ?_⟩
    · exact fun j x hx => hf j x hx
    · intro k x hx
      cases k with
      | zero => exact hx
      | succ k => exact hg k x hx
    · intro i c hc
      cases i with
      | zero => exact Or.inr ⟨0, rfl, hc⟩
      | succ i =>
        rcases hcover i c hc with ⟨j, rfl, hj⟩ | ⟨k, rfl, hk⟩
        · exact Or.inl ⟨j, rfl, hj⟩
        · exact Or.inr ⟨k + 1, rfl, hk⟩
    · exact fun j j' hlt => Nat.succ_lt_succ (hmono j j' hlt)
    intro k k' hk
    cases k with
    | zero =>
      cases k' with
      | zero => rfl
      | succ k' => exact absurd hk.symm (Nat.succ_ne_zero _)
    | succ k =>
      cases k' with
      | zero => exact absurd hk (Nat.succ_ne_zero _)
      | succ k' => rw [hinj k k' (Nat.succ.inj hk)]

end Interleaved
