import Mathlib.Tactic

/-! # Traces, read backwards

A trace is the list of what happened, newest first. `Since blocks p` says that some entry meets `p`
and that nothing after it blocks; `Each p` says that every entry meets `p`. In both of them `p`
sees, with the entry, what was earlier. `Followed owes pays` looks the other way: what an entry owes is
paid by a later one.

What a trace gains is put before it, so the rules are about `cons` and about an append on the left.
-/

namespace Trace

variable {α : Type} {blocks : α → Prop} {p q : α → List α → Prop}

/-- Some entry meets `p`, and no later one blocks. -/
def Since (blocks : α → Prop) (p : α → List α → Prop) : List α → Prop
  | [] => False
  | e :: earlier => p e earlier ∨ (¬ blocks e ∧ Since blocks p earlier)

/-- Every entry meets `p`. -/
def Each (p : α → List α → Prop) : List α → Prop
  | [] => True
  | e :: earlier => p e earlier ∧ Each p earlier

variable {earlier : List α}

theorem Since.here {e : α} (h : p e earlier) : Since blocks p (e :: earlier) := Or.inl h

theorem Since.later {e : α} (he : ¬ blocks e) (h : Since blocks p earlier) :
    Since blocks p (e :: earlier) := Or.inr ⟨he, h⟩

/-- Nothing that blocks has happened since. -/
theorem Since.append (h : Since blocks p earlier) :
    ∀ {new : List α}, (∀ e ∈ new, ¬ blocks e) → Since blocks p (new ++ earlier)
  | [], _ => h
  | e :: _, hnew =>
    .later (hnew e (by simp)) (h.append (fun x hx => hnew x (List.mem_cons_of_mem _ hx)))

/-- Entries that do not meet it are not the one. -/
theorem Since.of_append :
    ∀ {new : List α}, (∀ e ∈ new, ∀ before, ¬ p e before) → Since blocks p (new ++ earlier) →
      Since blocks p earlier
  | [], _, h => h
  | e :: _, hnew, Or.inl h => absurd h (hnew e (by simp) _)
  | _ :: _, hnew, Or.inr h =>
    Since.of_append (fun x hx => hnew x (List.mem_cons_of_mem _ hx)) h.2

theorem Since.mono (hpq : ∀ e earlier, p e earlier → q e earlier) :
    ∀ {trace : List α}, Since blocks p trace → Since blocks q trace
  | _ :: _, Or.inl h => Or.inl (hpq _ _ h)
  | _ :: _, Or.inr h => Or.inr ⟨h.1, h.2.mono hpq⟩

/-- Some entry of the trace is the one. -/
theorem Since.exists_mem :
    ∀ {trace : List α}, Since blocks p trace → ∃ e ∈ trace, ∃ earlier, p e earlier
  | e :: earlier, Or.inl h => ⟨e, by simp, earlier, h⟩
  | _ :: _, Or.inr h => by
      obtain ⟨e, he, earlier, hp⟩ := h.2.exists_mem
      exact ⟨e, List.mem_cons_of_mem _ he, earlier, hp⟩

/-- What has happened since an entry that blocks came after it. -/
theorem Since.after {e : α} (he : blocks e) (hp : ¬ p e earlier) :
    ∀ {between : List α}, Since blocks p (between ++ e :: earlier) →
      ∃ later x mid, between = later ++ x :: mid ∧ p x (mid ++ e :: earlier)
  | [], Or.inl h => absurd h hp
  | [], Or.inr h => absurd he h.1
  | x :: between, Or.inl h => ⟨[], x, between, rfl, h⟩
  | x :: between, Or.inr h => by
      obtain ⟨later, y, mid, hbetween, hy⟩ := h.2.after he hp
      exact ⟨x :: later, y, mid, by rw [hbetween, List.cons_append], hy⟩

theorem Each.append (h : Each p earlier) :
    ∀ {new : List α}, (∀ e ∈ new, ∀ before, p e before) → Each p (new ++ earlier)
  | [], _ => h
  | e :: _, hnew =>
    ⟨hnew e (by simp) _, h.append (fun x hx => hnew x (List.mem_cons_of_mem _ hx))⟩

/-- Every entry, wherever it stands. -/
theorem Each.of_append {later : List α} {e : α} : Each p (later ++ e :: earlier) → p e earlier := by
  induction later with
  | nil => exact fun h => h.1
  | cons x later ih => exact fun h => ih h.2

/-- Every entry that owes something has a later one that pays it. -/
def Followed (owes : α → List α → Prop) (pays : α → α → Prop) (trace : List α) : Prop :=
  ∀ later e earlier, trace = later ++ e :: earlier → owes e earlier → ∃ x ∈ later, pays x e

section Followed

variable {owes : α → List α → Prop} {pays : α → α → Prop} {trace : List α}

theorem Followed.nil : Followed owes pays [] := by
  intro later e earlier htrace
  exact absurd htrace.symm (List.append_ne_nil_of_right_ne_nil _ (List.cons_ne_nil _ _))

/-- An entry that owes nothing. -/
theorem Followed.cons (h : Followed owes pays trace) {e : α} (he : ¬ owes e trace) :
    Followed owes pays (e :: trace) := by
  intro later x earlier htrace howes
  cases later with
  | nil =>
    obtain ⟨rfl, rfl⟩ := List.cons.inj htrace
    exact absurd howes he
  | cons y later =>
    obtain ⟨y', hy', hpays⟩ := h later x earlier (List.cons.inj htrace).2 howes
    exact ⟨y', .tail _ hy', hpays⟩

/-- An entry that is paid at once. -/
theorem Followed.cons_cons (h : Followed owes pays trace) {e x : α} (hx : ¬ owes x (e :: trace))
    (hpays : pays x e) : Followed owes pays (x :: e :: trace) := by
  intro later y earlier htrace howes
  cases later with
  | nil =>
    obtain ⟨rfl, rfl⟩ := List.cons.inj htrace
    exact absurd howes hx
  | cons z later =>
    obtain ⟨hz, hrest⟩ := List.cons.inj htrace
    cases later with
    | nil =>
      have hy : e = y := (List.cons.inj hrest).1
      exact ⟨z, .head _, hz ▸ hy ▸ hpays⟩
    | cons z' later =>
      have hrest : trace = later ++ y :: earlier := (List.cons.inj hrest).2
      obtain ⟨y', hy', hpays⟩ := h later y earlier hrest howes
      exact ⟨y', .tail _ (.tail _ hy'), hpays⟩

/-- An entry that pays for all that is owed. -/
theorem Followed.of_pays {x : α} (hx : ¬ owes x trace) (hpays : ∀ e earlier, owes e earlier → pays x e) :
    Followed owes pays (x :: trace) := by
  intro later e earlier htrace howes
  cases later with
  | nil =>
    obtain ⟨rfl, rfl⟩ := List.cons.inj htrace
    exact absurd howes hx
  | cons y later =>
    obtain ⟨rfl, -⟩ := List.cons.inj htrace
    exact ⟨x, .head _, hpays e earlier howes⟩

theorem Followed.append (h : Followed owes pays trace) :
    ∀ {new : List α}, (∀ e ∈ new, ∀ earlier, ¬ owes e earlier) → Followed owes pays (new ++ trace)
  | [], _ => h
  | e :: _, hnew =>
    (h.append (fun x hx => hnew x (List.mem_cons_of_mem _ hx))).cons (hnew e (by simp) _)

/-- An entry that pays nothing changes nothing of what was owed before. -/
theorem Followed.of_cons {e : α} (h : Followed owes pays (e :: trace))
    (he : ∀ x earlier, owes x earlier → ¬ pays e x) : Followed owes pays trace := by
  intro later x earlier htrace howes
  obtain ⟨y, hy, hpays⟩ := h (e :: later) x earlier (by rw [htrace, List.cons_append]) howes
  rcases List.mem_cons.mp hy with rfl | hy
  · exact absurd hpays (he x earlier howes)
  · exact ⟨y, hy, hpays⟩

/-- What owes has come last: nothing has paid it yet. -/
theorem Followed.not_of_last {e : α} (he : owes e trace) : ¬ Followed owes pays (e :: trace) := by
  intro h
  obtain ⟨x, hx, -⟩ := h [] e trace rfl he
  nomatch hx

end Followed

instance Since.decidable [DecidablePred blocks] [∀ e earlier, Decidable (p e earlier)] :
    ∀ trace : List α, Decidable (Since blocks p trace)
  | [] => .isFalse (fun h => h)
  | e :: earlier =>
    have := Since.decidable earlier
    inferInstanceAs (Decidable (p e earlier ∨ (¬ blocks e ∧ Since blocks p earlier)))

end Trace
