import BlueFerry.Lib.Trace
import BlueFerry.Lib.Window

/-! # The budget of LE recoveries

`le_recovery_budget.py`: a take is granted at most four times in ten minutes, at growing distances,
and three minutes of observed health wipe the record.

`Record` is what the budget has granted and what health it was shown, newest first. `grantsSince`
are the grants since the last point at which health had been held for three minutes (`Rested`), and
the budget keeps exactly an end of those (`Tracks`).
-/

namespace BlueFerry.Bearers

/-- The fields of `LeRecoveryBudget`. -/
structure LeRecoveryBudget where
  attempts : List ℚ := []
  next : ℚ := 0
  healthySince : Option ℚ := none
  lastHealthCheck : Option ℚ := none
  deriving DecidableEq

/-- How long after the n-th grant of a window the next one may come. -/
def spacing (n : Nat) : ℚ := min (30 * 2 ^ (n - 1)) 300

namespace LeRecoveryBudget

section

variable (budget : LeRecoveryBudget)

/-- The grants of the last ten minutes. -/
def recent (now : ℚ) : List ℚ :=
  budget.attempts.dropWhile (fun t => now - t ≥ 600)

/-- `take`. -/
def take (now : ℚ) : LeRecoveryBudget × Bool :=
  let attempts := budget.recent now
  if now < budget.next ∨ 4 ≤ attempts.length then ({ budget with attempts := attempts }, false)
  else
    ({ budget with
        attempts := attempts ++ [now]
        next := now + spacing (attempts ++ [now]).length
        healthySince := none }, true)

/-- A sample that counts as healthy: the proof of it is fresh. -/
def fresh (healthy : Bool) (proof : Option ℚ) (now : ℚ) : Bool :=
  match proof with
  | none => false
  | some proof => healthy && decide (0 ≤ now - proof ∧ now - proof ≤ 90)

/-- A gap of more than ninety seconds between two samples starts afresh. -/
def held (now : ℚ) : Option ℚ :=
  match budget.lastHealthCheck with
  | none => none
  | some last => if now - last > 90 then none else budget.healthySince

/-- `observe_health`. -/
def observeHealth (healthy : Bool) (proof : Option ℚ) (now : ℚ) : LeRecoveryBudget :=
  if !fresh healthy proof now then
    { budget with lastHealthCheck := some now, healthySince := none }
  else
    let since := (budget.held now).getD now
    let budget := { budget with lastHealthCheck := some now, healthySince := some since }
    if now - since ≥ 180 then { budget with attempts := [], next := 0 } else budget

end

end LeRecoveryBudget

/-! ## What the record says -/

/-- A grant, or a sample of health. -/
inductive Record where
  | granted (time : ℚ)
  | sample (time : ℚ) (good : Bool)
  deriving DecidableEq

/-- The last samples are good, without a gap of more than ninety seconds, from the first time to the
last. -/
inductive HealthyRun : ℚ → ℚ → List Record → Prop
  | first (t : ℚ) (rest : List Record) : HealthyRun t t (.sample t true :: rest)
  | next {s t t' : ℚ} {rest : List Record} (hgap : t' - t ≤ 90) (h : HealthyRun s t rest) :
      HealthyRun s t' (.sample t' true :: rest)

/-- Health has been observed continuously for three minutes. -/
def Rested (log : List Record) : Prop := ∃ s t, HealthyRun s t log ∧ t - s ≥ 180

/-- The times of the grants, oldest first. -/
def grants (log : List Record) : List ℚ :=
  (log.filterMap fun
    | .granted t => some t
    | .sample _ _ => none).reverse

open Classical in
/-- The grants since health had last been held, oldest first. -/
noncomputable def grantsSince : List Record → List ℚ
  | [] => []
  | .granted t :: rest => grantsSince rest ++ [t]
  | .sample t good :: rest => if Rested (.sample t good :: rest) then [] else grantsSince rest

/-! ## Good samples -/

variable {log : List Record}

variable {t now now' : ℚ} {x y : List Record}

theorem HealthyRun.head {s : ℚ} (h : HealthyRun s t log) :
    ∃ rest, log = .sample t true :: rest := by
  cases h with
  | first => exact ⟨_, rfl⟩
  | next => exact ⟨_, rfl⟩

theorem not_rested_granted (t : ℚ) (log : List Record) : ¬ Rested (.granted t :: log) := by
  rintro ⟨s, t', hrun, -⟩
  obtain ⟨rest, hrest⟩ := hrun.head
  cases hrest

theorem not_rested_bad (t : ℚ) (log : List Record) : ¬ Rested (.sample t false :: log) := by
  rintro ⟨s, t', hrun, -⟩
  obtain ⟨rest, hrest⟩ := hrun.head
  cases hrest

/-- A run of good samples ends before a grant, so what lies before the grant does not matter. -/
theorem HealthyRun.before_grant {s g : ℚ} {z : List Record}
    (h : HealthyRun s t (x ++ .granted g :: y)) : HealthyRun s t (x ++ .granted g :: z) := by
  induction x generalizing t with
  | nil => cases h
  | cons e x ih =>
    cases h with
    | first => exact .first _ _
    | next hgap h => exact .next hgap (ih h)

theorem HealthyRun.since_grant {s g : ℚ}
    (h : HealthyRun s t (x ++ .granted g :: y)) : HealthyRun s t x := by
  induction x generalizing t with
  | nil => cases h
  | cons e x ih =>
    cases h with
    | first => exact .first _ _
    | next hgap h => exact .next hgap (ih h)

theorem Rested.before_grant {g : ℚ} {z : List Record} (h : Rested (x ++ .granted g :: y)) :
    Rested (x ++ .granted g :: z) := by
  obtain ⟨s, t, hrun, hspan⟩ := h
  exact ⟨s, t, hrun.before_grant, hspan⟩

/-! ## Grants -/

theorem grants_append (x y : List Record) : grants (x ++ y) = grants y ++ grants x := by
  rw [grants, List.filterMap_append, List.reverse_append]
  rfl

theorem grantsSince_rested (h : Rested log) : grantsSince log = [] := by
  cases log with
  | nil => rfl
  | cons e rest =>
    cases e with
    | granted t => exact absurd h (not_rested_granted t rest)
    | sample t good => rw [grantsSince, if_pos h]

theorem grantsSince_granted (t : ℚ) (log : List Record) :
    grantsSince (.granted t :: log) = grantsSince log ++ [t] := rfl

theorem grantsSince_sample {good : Bool} (h : ¬ Rested (.sample t good :: log)) :
    grantsSince (.sample t good :: log) = grantsSince log := by
  rw [grantsSince, if_neg h]

/-- Over a stretch without a rest, every grant counts. -/
theorem grantsSince_append (h : ∀ a b, x = a ++ b → b ≠ [] → ¬ Rested (b ++ y)) :
    grantsSince (x ++ y) = grantsSince y ++ grants x := by
  induction x with
  | nil => simp [grants]
  | cons e x ih =>
    have hhead : ¬ Rested (e :: (x ++ y)) := h [] (e :: x) rfl (by simp)
    have htail : grantsSince (x ++ y) = grantsSince y ++ grants x :=
      ih (fun a b hab hb => h (e :: a) b (by rw [hab, List.cons_append]) hb)
    cases e with
    | granted t =>
      have hgrants : grants (.granted t :: x) = grants x ++ [t] := by simp [grants]
      rw [List.cons_append, grantsSince_granted, htail, hgrants, List.append_assoc]
    | sample t good =>
      have hgrants : grants (.sample t good :: x) = grants x := by simp [grants]
      rw [List.cons_append, grantsSince_sample hhead, htail, hgrants]

/-! ## The budget keeps to its record -/

theorem spacing_mono {m n : Nat} (h : m ≤ n) : spacing m ≤ spacing n := by
  have hpow : (2 : ℚ) ^ (m - 1) ≤ 2 ^ (n - 1) :=
    pow_le_pow_right₀ (by norm_num) (Nat.sub_le_sub_right h 1)
  exact min_le_min_right 300 (by linarith)

/-- The budget against its record, at a time. -/
structure Tracks (budget : LeRecoveryBudget) (log : List Record) (now : ℚ) : Prop where
  keeps : Window.Keeps 600 now budget.attempts (grantsSince log)
  limited : Window.Limited 4 600 (grantsSince log)
  /-- the next grant keeps its distance from the last one -/
  spaced : ∀ t, (grantsSince log).getLast? = some t →
    t + spacing (Window.count 600 (grantsSince log) t) ≤ budget.next
  /-- the budget knows since when health is held -/
  healthy : ∀ s, budget.healthySince = some s →
    ∃ t, budget.lastHealthCheck = some t ∧ HealthyRun s t log
  past : ∀ s, budget.healthySince = some s → s ≤ now
  known : ∀ s t, HealthyRun s t log →
    budget.lastHealthCheck = some t ∧ ∃ since, budget.healthySince = some since ∧ since ≤ s

theorem recent_eq_prune (budget : LeRecoveryBudget) (now : ℚ) :
    budget.recent now = Window.prune 600 now budget.attempts := by
  have hold : (fun t : ℚ => decide (now - t ≥ 600)) = fun t => decide (t ≤ now - 600) := by
    funext t
    rw [decide_eq_decide]
    constructor <;> intro h <;> linarith
  rw [LeRecoveryBudget.recent, Window.prune, hold]

theorem tracks_start (now : ℚ) : Tracks {} [] now where
  keeps := Window.keeps_self 600 now []
  limited := Window.limited_nil 4 600
  spaced := fun t ht => by cases ht
  healthy := fun s hs => by cases hs
  past := fun s hs => by cases hs
  known := fun s t h => by cases h

variable {budget budget' : LeRecoveryBudget}

/-- A refused take forgets only what is too old to count. -/
theorem Tracks.refused (h : Tracks budget log now) (hnow : now ≤ now')
    (htake : budget.take now' = (budget', false)) : Tracks budget' log now' := by
  unfold LeRecoveryBudget.take at htake
  dsimp only at htake
  split at htake
  · cases htake
    refine { h with keeps := ?_, past := fun s hs => (h.past s hs).trans hnow }
    rw [recent_eq_prune]
    exact (h.keeps.later hnow).prune
  · cases htake

/-- A granted take has room, and keeps its distance. -/
theorem Tracks.granted (h : Tracks budget log now) (hnow : now ≤ now')
    (htake : budget.take now' = (budget', true)) :
    Tracks budget' (.granted now' :: log) now' ∧ budget.next ≤ now' := by
  unfold LeRecoveryBudget.take at htake
  dsimp only at htake
  split at htake
  · cases htake
  rename_i hopen
  cases htake
  have hnext : budget.next ≤ now' := by
    by_contra hlt
    exact hopen (Or.inl (not_le.mp hlt))
  have hroom : (budget.recent now').length < 4 := by
    by_contra hfull
    exact hopen (Or.inr (not_lt.mp hfull))
  have hkeeps : Window.Keeps 600 now' (budget.recent now') (grantsSince log) := by
    rw [recent_eq_prune]
    exact (h.keeps.later hnow).prune
  refine ⟨⟨?_, ?_, ?_, fun s hs => (by cases hs), fun s hs => (by cases hs),
    fun s t hrun => (by cases hrun)⟩, hnext⟩
  · rw [grantsSince_granted]
    exact hkeeps.add now'
  · rw [grantsSince_granted]
    exact h.limited.add hkeeps hroom
  intro t ht
  rw [grantsSince_granted] at ht ⊢
  have hlast : t = now' := by simpa using ht.symm
  subst hlast
  have hcount : Window.count 600 (grantsSince log ++ [t]) t ≤
      (budget.recent t ++ [t]).length := (hkeeps.add t).count_le le_rfl
  have hmono := spacing_mono hcount
  show t + _ ≤ t + _
  linarith

/-- A sample of health. -/
theorem Tracks.sampled (h : Tracks budget log now) (hnow : now ≤ now')
    (healthy : Bool) (proof : Option ℚ) : Tracks (budget.observeHealth healthy proof now')
      (.sample now' (LeRecoveryBudget.fresh healthy proof now') :: log) now' := by
  unfold LeRecoveryBudget.observeHealth
  cases hgood : LeRecoveryBudget.fresh healthy proof now' with
  | false =>
    have hsince : grantsSince (.sample now' false :: log) = grantsSince log :=
      grantsSince_sample (not_rested_bad now' log)
    refine ⟨?_, ?_, ?_, fun s hs => (by cases hs), fun s hs => (by cases hs),
      fun s t hrun => (by cases hrun)⟩
    · rw [hsince]
      exact h.keeps.later hnow
    · rw [hsince]
      exact h.limited
    · rw [hsince]
      exact h.spaced
  | true =>
    have hheld : ∀ s, budget.held now' = some s →
        s ≤ now' ∧ HealthyRun s now' (.sample now' true :: log) := by
      intro s hs
      unfold LeRecoveryBudget.held at hs
      cases hlast : budget.lastHealthCheck with
      | none => simp [hlast] at hs
      | some last =>
        rw [hlast] at hs
        dsimp only at hs
        split at hs
        · cases hs
        rename_i hgap
        obtain ⟨t, ht, hrun⟩ := h.healthy s hs
        rw [hlast] at ht
        cases ht
        exact ⟨(h.past s hs).trans hnow, .next (not_lt.mp hgap) hrun⟩
    obtain ⟨since, hsince⟩ : ∃ since, (budget.held now').getD now' = since := ⟨_, rfl⟩
    have hrun : since ≤ now' ∧ HealthyRun since now' (.sample now' true :: log) := by
      cases hb : budget.held now' with
      | none =>
        rw [hb] at hsince
        subst hsince
        exact ⟨le_rfl, .first now' log⟩
      | some s =>
        rw [hb] at hsince
        subst hsince
        exact hheld s hb
    -- no run of good samples is longer than the one that the budget measures
    have hlongest : ∀ s t, HealthyRun s t (.sample now' true :: log) → t = now' ∧ since ≤ s := by
      intro s t hst
      cases hst with
      | first => exact ⟨rfl, hrun.1⟩
      | next hgap hst =>
        rename_i last
        obtain ⟨hlast, s', hs', hle⟩ := h.known s last hst
        have hb : budget.held now' = some s' := by
          unfold LeRecoveryBudget.held
          rw [hlast]
          exact (if_neg (not_lt.mpr hgap)).trans hs'
        rw [hb] at hsince
        exact ⟨rfl, hsince ▸ hle⟩
    simp only [Bool.not_true, Bool.false_eq_true, ↓reduceIte, hsince]
    have hhealthy : ∀ s, some since = some s →
        ∃ t, some now' = some t ∧ HealthyRun s t (.sample now' true :: log) := by
      intro s hs
      exact ⟨now', rfl, Option.some.inj hs ▸ hrun.2⟩
    have hpast : ∀ s, some since = some s → s ≤ now' := fun s hs => Option.some.inj hs ▸ hrun.1
    have hknown : ∀ s t, HealthyRun s t (.sample now' true :: log) →
        some now' = some t ∧ ∃ s', some since = some s' ∧ s' ≤ s := by
      intro s t hst
      obtain ⟨rfl, hle⟩ := hlongest s t hst
      exact ⟨rfl, since, rfl, hle⟩
    split
    · rename_i hspan
      have hrest : Rested (.sample now' true :: log) := ⟨since, now', hrun.2, hspan⟩
      refine ⟨?_, ?_, ?_, hhealthy, hpast, hknown⟩
      · rw [grantsSince_rested hrest]
        exact Window.keeps_self 600 now' []
      · rw [grantsSince_rested hrest]
        exact Window.limited_nil 4 600
      · rw [grantsSince_rested hrest]
        exact fun t ht => by cases ht
    rename_i hspan
    have hrest : ¬ Rested (.sample now' true :: log) := by
      rintro ⟨s, t, hst, hlong⟩
      obtain ⟨rfl, hle⟩ := hlongest s t hst
      exact hspan (by linarith)
    have hsame := grantsSince_sample hrest
    refine ⟨?_, ?_, ?_, hhealthy, hpast, hknown⟩
    · rw [hsame]
      exact h.keeps.later hnow
    · rw [hsame]
      exact h.limited
    · rw [hsame]
      exact h.spaced

/-! ## What a record bounds -/

/-- A grant in the ten minutes that end at a time. -/
def InWindow (t : ℚ) : Record → Prop
  | .granted g => t - 600 < g ∧ g ≤ t
  | .sample _ _ => False

instance (t : ℚ) : DecidablePred (InWindow t)
  | .granted _ => inferInstanceAs (Decidable (_ ∧ _))
  | .sample _ _ => inferInstanceAs (Decidable False)

theorem count_grants (t : ℚ) (log : List Record) :
    Window.count 600 (grants log) t = log.countP (fun e => InWindow t e) := by
  induction log with
  | nil => rfl
  | cons e log ih =>
    have happ : grants (e :: log) = grants log ++ grants [e] := grants_append [e] log
    rw [happ, Window.count, List.countP_append, List.countP_cons]
    rw [Window.count] at ih
    rw [ih]
    cases e with
    | granted g =>
      by_cases hg : t - 600 < g ∧ g ≤ t <;> simp [grants, InWindow, hg]
    | sample g good =>
      have hnot : decide (InWindow t (.sample g good)) = false := rfl
      rw [hnot]
      rfl

/-- The record so far bounds the grants since the last rest, and every grant kept its distance. -/
def Kept (log : List Record) : Prop :=
  Trace.Each (fun e earlier => Window.Limited 4 600 (grantsSince (e :: earlier)) ∧
    ∀ t', e = .granted t' → ∀ t, (grantsSince earlier).getLast? = some t →
      t + spacing (Window.count 600 (grantsSince earlier) t) ≤ t') log

theorem Kept.granted (hkept : Kept log) (h : Tracks budget log now) (hnow : now ≤ now')
    (htake : budget.take now' = (budget', true)) : Kept (.granted now' :: log) := by
  obtain ⟨htracks, hnext⟩ := h.granted hnow htake
  refine ⟨⟨htracks.limited, fun t' ht' t ht => ?_⟩, hkept⟩
  cases ht'
  exact (h.spaced t ht).trans hnext

theorem Kept.sampled (hkept : Kept log) (h : Tracks budget log now)
    (hnow : now ≤ now') (healthy : Bool) (proof : Option ℚ) :
    Kept (.sample now' (LeRecoveryBudget.fresh healthy proof now') :: log) :=
  ⟨⟨(h.sampled hnow healthy proof).limited, fun _ ht' => (by cases ht')⟩, hkept⟩

/-- The first of a list with a property. -/
theorem exists_first {p : Record → Prop} [DecidablePred p] {l : List Record}
    (h : 0 < l.countP (fun e => p e)) :
    ∃ a e b, l = a ++ e :: b ∧ p e ∧ a.countP (fun e => p e) = 0 := by
  induction l with
  | nil => simp at h
  | cons e l ih =>
    by_cases he : p e
    · exact ⟨[], e, l, rfl, he, rfl⟩
    have hl : 0 < l.countP (fun e => p e) := by
      rw [List.countP_cons_of_neg (by simpa using he)] at h
      exact h
    obtain ⟨a, e', b, hsplit, he', ha⟩ := ih hl
    refine ⟨e :: a, e', b, by rw [hsplit, List.cons_append], he', ?_⟩
    rw [List.countP_cons_of_neg (by simpa using he)]
    exact ha

/-- The last of a list with a property. -/
theorem exists_last {p : Record → Prop} [DecidablePred p] {l : List Record}
    (h : 0 < l.countP (fun e => p e)) :
    ∃ a e b, l = a ++ e :: b ∧ p e ∧ b.countP (fun e => p e) = 0 := by
  obtain ⟨a, e, b, hsplit, he, ha⟩ := exists_first (l := l.reverse) (by rwa [List.countP_reverse])
  refine ⟨b.reverse, e, a.reverse, ?_, he, by rwa [List.countP_reverse]⟩
  have hrev := congrArg List.reverse hsplit
  simpa using hrev

/-- **More than four grants in ten minutes hold a rest.** -/
theorem Kept.rests {newer seg older : List Record} (h : Kept (newer ++ seg ++ older))
    (hmany : 4 < Window.count 600 (grants seg) t) :
    ∃ a b, seg = a ++ b ∧ Rested b ∧ 0 < Window.count 600 (grants a) t ∧
      0 < Window.count 600 (grants b) t := by
  simp only [count_grants] at hmany ⊢
  obtain ⟨a₀, e₂, r, hseg, he₂, ha₀⟩ := exists_first (p := InWindow t) (l := seg) (by omega)
  have hr : 3 < r.countP (fun e => InWindow t e) := by
    rw [hseg, List.countP_append, List.countP_cons_of_pos (by simpa using he₂), ha₀] at hmany
    omega
  obtain ⟨r₁, e₁, b₀, hsplit, he₁, hb₀⟩ := exists_last (p := InWindow t) (l := r) (by omega)
  by_contra hno
  cases e₁ with
  | sample g good => exact he₁
  | granted t₁ =>
    cases e₂ with
    | sample g good => exact he₂
    | granted t₂ =>
      -- the grants from the first in the window to the last all count together
      have hquiet : ∀ a b, .granted t₂ :: r₁ ++ [.granted t₁] = a ++ b → b ≠ [] →
          ¬ Rested (b ++ (b₀ ++ older)) := by
        intro a b hab hb hrest
        cases a with
        | nil =>
          rw [List.nil_append] at hab
          subst hab
          exact not_rested_granted _ _ hrest
        | cons e a =>
          obtain ⟨b', hb'⟩ : ∃ b', b = b' ++ [.granted t₁] := by
            rcases List.eq_nil_or_concat b with hnil | ⟨b', x, hx⟩
            · exact absurd hnil hb
            have hlast := congrArg List.getLast? hab
            rw [hx, List.concat_eq_append, List.getLast?_append, List.getLast?_append,
              List.getLast?_append] at hlast
            have hx₁ : .granted t₁ = x := by simpa using hlast
            exact ⟨b', by rw [hx, hx₁, List.concat_eq_append]⟩
          have hhead : e = .granted t₂ := (List.cons.inj hab).1.symm
          have htail : r₁ ++ [.granted t₁] = a ++ b := (List.cons.inj hab).2
          subst hb' hhead
          have hrest' : Rested (b' ++ .granted t₁ :: b₀) := by
            rw [List.append_assoc] at hrest
            exact hrest.before_grant
          refine hno ⟨a₀ ++ .granted t₂ :: a, b' ++ .granted t₁ :: b₀, ?_, hrest', ?_, ?_⟩
          · have hr₁ : r₁ = a ++ b' := by
              rw [← List.append_assoc] at htail
              exact List.append_cancel_right htail
            rw [hseg, hsplit, hr₁]
            simp
          · rw [List.countP_append, List.countP_cons_of_pos (by simpa using he₂)]
            omega
          · rw [List.countP_append, List.countP_cons_of_pos (by simpa using he₁)]
            omega
      have hsince := grantsSince_append hquiet
      have hlimited : Window.Limited 4 600
          (grantsSince (.granted t₂ :: (r₁ ++ [.granted t₁] ++ (b₀ ++ older)))) := by
        have hkept : Kept (newer ++ a₀ ++
            .granted t₂ :: (r₁ ++ [.granted t₁] ++ (b₀ ++ older))) := by
          have hlist : newer ++ seg ++ older =
              newer ++ a₀ ++ .granted t₂ :: (r₁ ++ [.granted t₁] ++ (b₀ ++ older)) := by
            rw [hseg, hsplit]
            simp
          rwa [hlist] at h
        exact (Trace.Each.of_append hkept).1
      have hfour := hlimited t
      rw [show Record.granted t₂ :: (r₁ ++ [.granted t₁] ++ (b₀ ++ older)) =
        .granted t₂ :: r₁ ++ [.granted t₁] ++ (b₀ ++ older) by simp, hsince,
        Window.count, List.countP_append] at hfour
      have hinner : Window.count 600 (grants (.granted t₂ :: r₁ ++ [.granted t₁])) t =
          seg.countP (fun e => InWindow t e) := by
        rw [count_grants, hseg, hsplit, List.cons_append,
          List.countP_cons_of_pos (by simpa using he₂), List.countP_append,
          List.countP_singleton, List.countP_append, ha₀,
          List.countP_cons_of_pos (by simpa using he₂), List.countP_append,
          List.countP_cons_of_pos (by simpa using he₁), hb₀, if_pos (by simpa using he₁)]
        omega
      rw [Window.count] at hinner
      omega

/-- **A grant keeps its distance from the one before it.** -/
theorem Kept.spaced {newer mid older : List Record} {t' : ℚ}
    (h : Kept (newer ++ .granted t' :: mid ++ .granted t :: older)) (hmid : grants mid = [])
    (hquiet : ∀ a b, mid = a ++ b → ¬ Rested b) :
    t + spacing (Window.count 600 (grantsSince (.granted t :: older)) t) ≤ t' := by
  rw [List.append_assoc] at h
  rw [List.cons_append] at h
  have hstep := (Trace.Each.of_append h).2 t' rfl t
  have hsince : grantsSince (mid ++ .granted t :: older) = grantsSince (.granted t :: older) := by
    rw [grantsSince_append (fun a b hab _ hrest => ?_), hmid, List.append_nil]
    obtain ⟨s, t'', hrun, hspan⟩ := hrest
    exact hquiet a b hab ⟨s, t'', hrun.since_grant, hspan⟩
  rw [hsince] at hstep
  exact hstep (by simp [grantsSince_granted])

end BlueFerry.Bearers
