import Mathlib.Tactic

/-! # Step machines

A machine is a total step function over states `σ` and inputs `ι`. `run` folds it over a list of
inputs, and `Along` says that a condition on the state and the next input holds at every step of
that run.

`Sometime` says that some step of the run meets it.

The induction rules are the ones proofs about runs use: `invariant` and `always` for a property of
states, `relates` for a reflexive and transitive relation between the two ends of a run.
-/

namespace Machine

variable {σ ι : Type} (step : σ → ι → σ)

/-- The state after a list of inputs. -/
def run (s : σ) (inputs : List ι) : σ := inputs.foldl step s

/-- The condition holds for every input of the run, in the state that it meets. -/
def Along (ok : σ → ι → Prop) : σ → List ι → Prop
  | _, [] => True
  | s, i :: inputs => ok s i ∧ Along ok (step s i) inputs

/-- The condition holds for some input of the run, in the state that it meets. -/
def Sometime (event : σ → ι → Prop) : σ → List ι → Prop
  | _, [] => False
  | s, i :: inputs => event s i ∨ Sometime event (step s i) inputs

@[simp] theorem run_nil (s : σ) : run step s [] = s := rfl

@[simp] theorem run_cons (s : σ) (i : ι) (inputs : List ι) :
    run step s (i :: inputs) = run step (step s i) inputs := rfl

theorem run_append (s : σ) (xs ys : List ι) :
    run step s (xs ++ ys) = run step (run step s xs) ys := List.foldl_append

variable {ok : σ → ι → Prop}

theorem along_append (s : σ) (xs ys : List ι) :
    Along step ok s (xs ++ ys) ↔ Along step ok s xs ∧ Along step ok (run step s xs) ys := by
  induction xs generalizing s with
  | nil => simp [Along]
  | cons x xs ih =>
    rw [List.cons_append, Along, Along, ih, run_cons, and_assoc]

/-- A condition that every step meets holds along every run. -/
theorem along_of_forall (h : ∀ s i, ok s i) (s : σ) (inputs : List ι) : Along step ok s inputs := by
  induction inputs generalizing s with
  | nil => trivial
  | cons i inputs ih => exact ⟨h s i, ih (step s i)⟩

theorem Along.mono {ok' : σ → ι → Prop} (h : ∀ s i, ok s i → ok' s i) {s : σ} {inputs : List ι}
    (hok : Along step ok s inputs) : Along step ok' s inputs := by
  induction inputs generalizing s with
  | nil => trivial
  | cons i inputs ih => exact ⟨h s i hok.1, ih hok.2⟩

/-- **Invariant rule.** What every step keeps holds after every run. -/
theorem invariant {P : σ → Prop} (hstep : ∀ s i, ok s i → P s → P (step s i)) {s : σ}
    {inputs : List ι} (hok : Along step ok s inputs) (hs : P s) : P (run step s inputs) := by
  induction inputs generalizing s with
  | nil => exact hs
  | cons i inputs ih => exact ih hok.2 (hstep s i hok.1 hs)

/-- A condition that an invariant yields holds at every step of a run. -/
theorem Along.meets {ok' : σ → ι → Prop} {P : σ → Prop}
    (hstep : ∀ s i, ok s i → P s → ok' s i ∧ P (step s i)) {s : σ} {inputs : List ι}
    (hok : Along step ok s inputs) (hs : P s) : Along step ok' s inputs := by
  induction inputs generalizing s with
  | nil => trivial
  | cons i inputs ih =>
    obtain ⟨hmeets, hnext⟩ := hstep s i hok.1 hs
    exact ⟨hmeets, ih hok.2 hnext⟩

/-- The invariant rule for a machine whose steps have no condition. -/
theorem always {P : σ → Prop} (hstep : ∀ s i, P s → P (step s i)) {s : σ} (inputs : List ι)
    (hs : P s) : P (run step s inputs) :=
  invariant step (fun s i _ => hstep s i)
    (along_of_forall step (fun _ _ => trivial : ∀ (_ : σ) (_ : ι), True) s inputs) hs

/-- **Relation rule.** A preorder that relates the two sides of every step relates the two ends of
every run. -/
theorem relates {R : σ → σ → Prop} (hrefl : ∀ s, R s s) (htrans : ∀ s t u, R s t → R t u → R s u)
    (hstep : ∀ s i, ok s i → R s (step s i)) {s : σ} {inputs : List ι}
    (hok : Along step ok s inputs) : R s (run step s inputs) := by
  induction inputs generalizing s with
  | nil => exact hrefl s
  | cons i inputs ih => exact htrans _ _ _ (hstep s i hok.1) (ih hok.2)

instance Along.decidable {ok : σ → ι → Prop} [∀ s i, Decidable (ok s i)] :
    ∀ (s : σ) (inputs : List ι), Decidable (Along step ok s inputs)
  | _, [] => .isTrue trivial
  | s, i :: inputs =>
    have : Decidable (Along step ok (step s i) inputs) := Along.decidable (step s i) inputs
    inferInstanceAs (Decidable (ok s i ∧ Along step ok (step s i) inputs))

end Machine
