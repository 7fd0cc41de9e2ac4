import Mathlib.Tactic
import Mathlib.Data.List.TakeWhile

/-! # Sliding windows

A limiter that admits at most `limit` events within any time of `length` keeps the times it
admitted, oldest first, drops what has fallen out of the window (`prune`), and admits an event when
fewer than `limit` are left.

What it keeps is an end of the list of everything it admitted, and what it has dropped is too old to
count (`Keeps`). That is enough for the bound: no half-open window `(t - length, t]` holds more than
`limit` admitted times (`Limited.add`). No order of the times is needed.
-/

namespace Window

variable {α : Type} [AddCommGroup α] [LinearOrder α]

/-- How many of the times are in the window `(t - length, t]`. -/
def count (length : α) (times : List α) (t : α) : Nat :=
  times.countP (fun x => t - length < x ∧ x ≤ t)

/-- No window of this length holds more than `limit` of the times. -/
def Limited (limit : Nat) (length : α) (times : List α) : Prop := ∀ t, count length times t ≤ limit

/-- What a limiter still counts at a time: it drops the oldest while they are too old. -/
def prune (length now : α) (times : List α) : List α :=
  times.dropWhile (fun x => x ≤ now - length)

/-- `kept` is all of the times but some that have fallen out of the window. -/
def Keeps (length now : α) (kept times : List α) : Prop :=
  ∃ old, times = old ++ kept ∧ ∀ x ∈ old, x ≤ now - length

theorem limited_nil (limit : Nat) (length : α) : Limited limit length [] := fun _ => Nat.zero_le _

theorem keeps_self (length now : α) (times : List α) : Keeps length now times times :=
  ⟨[], rfl, by simp⟩

variable {length now : α} {kept times : List α}

theorem Keeps.add (h : Keeps length now kept times) (t : α) :
    Keeps length now (kept ++ [t]) (times ++ [t]) := by
  obtain ⟨old, htimes, hold⟩ := h
  exact ⟨old, by rw [htimes, List.append_assoc], hold⟩

theorem Keeps.prune (h : Keeps length now kept times) :
    Keeps length now (prune length now kept) times := by
  obtain ⟨old, htimes, hold⟩ := h
  refine ⟨old ++ kept.takeWhile (fun x => x ≤ now - length), ?_, ?_⟩
  · rw [Window.prune, List.append_assoc, List.takeWhile_append_dropWhile, htimes]
  intro x hx
  rcases List.mem_append.mp hx with hx | hx
  · exact hold x hx
  · simpa using List.mem_takeWhile_imp hx

/-! ## Time passes -/

variable [IsOrderedAddMonoid α]

theorem Keeps.later {now' : α} (h : Keeps length now kept times) (hnow : now ≤ now') :
    Keeps length now' kept times := by
  obtain ⟨old, htimes, hold⟩ := h
  refine ⟨old, htimes, fun x hx => (hold x hx).trans ?_⟩
  exact sub_le_sub_right hnow length

/-- What is too old now is too old later, so pruning twice is pruning once. -/
theorem prune_prune {now' : α} (hnow : now ≤ now') (times : List α) :
    prune length now' (prune length now times) = prune length now' times := by
  induction times with
  | nil => rfl
  | cons x times ih =>
    by_cases hx : x ≤ now - length
    · have hx' : x ≤ now' - length := hx.trans (sub_le_sub_right hnow length)
      have h : prune length now (x :: times) = prune length now times := by
        simp [prune, hx]
      have h' : prune length now' (x :: times) = prune length now' times := by
        simp [prune, hx']
      rw [h, h', ih]
    · have h : prune length now (x :: times) = x :: times := by
        simp [prune, hx]
      rw [h]

/-! ## The bound -/

/-- A window that ends now or later counts none of the dropped times. -/
theorem Keeps.count_le {t : α} (h : Keeps length now kept times) (ht : now ≤ t) :
    count length times t ≤ kept.length := by
  obtain ⟨old, rfl, hold⟩ := h
  have hnone : old.countP (fun x => t - length < x ∧ x ≤ t) = 0 := by
    refine List.countP_eq_zero.mpr fun x hx => ?_
    have hle : x ≤ t - length := (hold x hx).trans (sub_le_sub_right ht length)
    simpa using fun hlt => absurd hlt (not_lt.mpr hle)
  rw [count, List.countP_append, hnone, Nat.zero_add]
  exact List.countP_le_length

/-- **An admitted event keeps every window within the limit.** -/
theorem Limited.add {limit : Nat} (h : Limited limit length times)
    (hkeeps : Keeps length now kept times) (hroom : kept.length < limit) :
    Limited limit length (times ++ [now]) := by
  intro t
  rw [count, List.countP_append]
  by_cases ht : now ≤ t
  · have hcount : count length times t ≤ kept.length := hkeeps.count_le ht
    have hone : [now].countP (fun x => t - length < x ∧ x ≤ t) ≤ 1 := List.countP_le_length
    rw [count] at hcount
    omega
  have hnone : [now].countP (fun x => t - length < x ∧ x ≤ t) = 0 := by
    simpa using fun _ => lt_of_not_ge ht
  rw [hnone]
  exact h t

end Window
