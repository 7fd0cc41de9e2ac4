import BlueFerry.Obex.Sessions

/-! # No dead session stays published

`Sound` is what holds at every step: a published session has not ended, and one that has ended was
told to the owner once; `_publish` refuses a session whose end was delivered during the opening;
and every session that `open_all` has asked for is published, or the first failure is one of its
target or of an earlier one.
-/

namespace BlueFerry.Sessions

open BlueFerry.Text

/-! ## The log grows -/

section Log

variable {x : Session} {e : Event} {log : List Event}

theorem happened_cons {p : Event → List Event → Prop} :
    Happened p (e :: log) ↔ p e log ∨ Happened p log := by
  constructor
  · rintro (h | ⟨-, h⟩)
    · exact .inl h
    · exact .inr h
  · rintro (h | h)
    · exact .inl h
    · exact .inr ⟨id, h⟩

theorem endedAfter_cons :
    EndedAfter x (e :: log) ↔ (Ends x e ∧ .published x ∈ log) ∨ EndedAfter x log := happened_cons

theorem endedBefore_cons : EndedBefore x (e :: log) ↔
    (Ends x e ∧ .created x ∈ log ∧ .published x ∉ log) ∨ EndedBefore x log := happened_cons

/-- An entry that is no end of a session. -/
def Harmless (e : Event) : Prop := ∀ x : Session, ¬ Ends x e

theorem endedAfter_harmless (h : Harmless e) : EndedAfter x (e :: log) ↔ EndedAfter x log := by
  rw [endedAfter_cons]
  exact or_iff_right (fun hx => h x hx.1)

theorem endedBefore_harmless (h : Harmless e) : EndedBefore x (e :: log) ↔ EndedBefore x log := by
  rw [endedBefore_cons]
  exact or_iff_right (fun hx => h x hx.1)

theorem harmless_created : Harmless (.created x) := by
  rintro y (h | h) <;> nomatch h

theorem harmless_published : Harmless (.published x) := by
  rintro y (h | h) <;> nomatch h

theorem harmless_lost (gone : List Session) (reason : Str) : Harmless (.lost gone reason) := by
  rintro y (h | h) <;> nomatch h

theorem harmless_finished (opening : Nat) (raised : Option Failure) :
    Harmless (.finished opening raised) := by
  rintro y (h | h) <;> nomatch h

theorem losses_cons : losses x (e :: log) = losses x log + if tells x e then 1 else 0 :=
  List.countP_cons

/-- What has ended was created before. -/
theorem EndedBefore.created : EndedBefore x log → .created x ∈ log := by
  intro h
  induction log with
  | nil => exact h.elim
  | cons e log ih =>
    rcases endedBefore_cons.mp h with h | h
    · exact .tail _ h.2.1
    · exact .tail _ (ih h)

theorem EndedAfter.published : EndedAfter x log → .published x ∈ log := by
  intro h
  induction log with
  | nil => exact h.elim
  | cons e log ih =>
    rcases endedAfter_cons.mp h with h | h
    · exact .tail _ h.2
    · exact .tail _ (ih h)

end Log

/-! ## The published sessions -/

/-- The published sessions are those that have not ended, and an end was told once. -/
structure Current (s : State) : Prop where
  target : ∀ t x, s.held t = some x → x.target = t
  held : ∀ t x, s.held t = some x → .published x ∈ s.log ∧ ¬ EndedAfter x s.log
  live : ∀ x, .published x ∈ s.log → ¬ EndedAfter x s.log → s.held x.target = some x
  told : ∀ x, EndedAfter x s.log → losses x s.log = 1
  untold : ∀ x, ¬ EndedAfter x s.log → losses x s.log = 0

theorem current_start : Current {} where
  target := fun t _ h => by cases t with
    | map | pbap => nomatch h
  held := fun t _ h => by cases t with
    | map | pbap => nomatch h
  live := fun _ h => absurd h List.not_mem_nil
  told := fun _ h => h.elim
  untold := fun _ _ => rfl

variable {s s' : State}

variable {e : Event} {p : Session → Bool} {x : Session} {reason : List Session → Str}
  {c : Option Session} {r : Bool} {t : Target}

/-- An entry about something else. -/
theorem Current.other (h : Current s) (hlog : s'.log = e :: s.log)
    (hharmless : Harmless e) (hpublished : ∀ x, e ≠ .published x) (htells : ∀ x, tells x e = false)
    (hheld : ∀ t, s'.held t = s.held t) : Current s' := by
  have hafter : ∀ x, EndedAfter x s'.log ↔ EndedAfter x s.log := by
    intro x
    rw [hlog]
    exact endedAfter_harmless hharmless
  have hmem : ∀ x, .published x ∈ s'.log ↔ .published x ∈ s.log := by
    intro x
    rw [hlog, List.mem_cons]
    exact or_iff_right (fun heq => hpublished x heq.symm)
  have hlosses : ∀ x, losses x s'.log = losses x s.log := by
    intro x
    rw [hlog, losses_cons, htells x]
    exact Nat.add_zero _
  constructor
  · intro t x hx
    rw [hheld] at hx
    exact h.target t x hx
  · intro t x hx
    rw [hheld] at hx
    rw [hmem, hafter]
    exact h.held t x hx
  · intro x hx hnot
    rw [hmem] at hx
    rw [hafter] at hnot
    rw [hheld]
    exact h.live x hx hnot
  · intro x hx
    rw [hafter] at hx
    rw [hlosses]
    exact h.told x hx
  intro x hx
  rw [hafter] at hx
  rw [hlosses]
  exact h.untold x hx

/-- A step that neither logs nor changes what is published. -/
theorem Current.same (h : Current s) (hlog : s'.log = s.log) (hheld : ∀ t, s'.held t = s.held t) :
    Current s' := by
  constructor
  · intro t x hx
    rw [hheld] at hx
    exact h.target t x hx
  · intro t x hx
    rw [hheld] at hx
    rw [hlog]
    exact h.held t x hx
  · intro x hx hnot
    rw [hlog] at hx hnot
    rw [hheld]
    exact h.live x hx hnot
  · rw [hlog]
    exact h.told
  · rw [hlog]
    exact h.untold

theorem held_lose (s : State) (p : Session → Bool) (reason : List Session → Str) (t : Target) :
    (s.lose p reason).held t = (s.held t).filter (fun x => !p x) := by
  cases t with
  | map => rfl
  | pbap => rfl

/-- The sessions of a lost call. -/
theorem mem_gone :
    x ∈ (s.map.toList ++ s.pbap.toList).filter p ↔ (∃ t, s.held t = some x) ∧ p x = true := by
  rw [List.mem_filter, List.mem_append, Option.mem_toList, Option.mem_toList]
  constructor
  · rintro ⟨hx | hx, hp⟩
    · exact ⟨⟨.map, hx⟩, hp⟩
    · exact ⟨⟨.pbap, hx⟩, hp⟩
  rintro ⟨⟨t, hx⟩, hp⟩
  cases t with
  | map => exact ⟨.inl hx, hp⟩
  | pbap => exact ⟨.inr hx, hp⟩

section

variable (s : State) (p : Session → Bool) (reason : List Session → Str)

theorem losses_lose (x : Session) :
    losses x (s.lose p reason).log
      = losses x s.log + if x ∈ (s.map.toList ++ s.pbap.toList).filter p then 1 else 0 := by
  unfold State.lose
  dsimp only
  by_cases hgone : (s.map.toList ++ s.pbap.toList).filter p = []
  · rw [if_pos hgone, hgone, if_neg List.not_mem_nil, Nat.add_zero]
  rw [if_neg hgone, losses_cons]
  congr 1
  exact if_congr List.contains_iff_mem rfl rfl

theorem endedAfter_lose
    (x : Session) : EndedAfter x (s.lose p reason).log ↔ EndedAfter x s.log := by
  unfold State.lose
  dsimp only
  split_ifs
  · exact Iff.rfl
  · exact endedAfter_harmless (harmless_lost _ _)

end

/-- Only calls of the callback are added. -/
theorem mem_lose
    (he : ∀ gone text, e ≠ .lost gone text) : e ∈ (s.lose p reason).log ↔ e ∈ s.log := by
  unfold State.lose
  dsimp only
  split_ifs
  · exact Iff.rfl
  rw [List.mem_cons]
  exact or_iff_right (he _ _)

theorem endedBefore_lose (s : State) (p : Session → Bool) (reason : List Session → Str)
    (x : Session) : EndedBefore x (s.lose p reason).log ↔ EndedBefore x s.log := by
  unfold State.lose
  dsimp only
  split_ifs
  · exact Iff.rfl
  · exact endedBefore_harmless (harmless_lost _ _)

/-- **The end of some sessions is delivered**: they are forgotten, and told once. -/
theorem Current.lose (h : Current s)
    (hlog : s'.log = e :: s.log) (hheld : ∀ t, s'.held t = s.held t)
    (htells : ∀ x, tells x e = false) (hpublished : ∀ x, e ≠ .published x)
    (hends : ∀ x, p x = true ↔ Ends x e) : Current (s'.lose p reason) := by
  have hafter : ∀ x, EndedAfter x (s'.lose p reason).log ↔
      (p x = true ∧ .published x ∈ s.log) ∨ EndedAfter x s.log := by
    intro x
    rw [endedAfter_lose, hlog, endedAfter_cons, hends]
  have hmem : ∀ x, .published x ∈ (s'.lose p reason).log ↔ .published x ∈ s.log := by
    intro x
    rw [mem_lose (fun _ _ => Event.noConfusion), hlog, List.mem_cons]
    exact or_iff_right (fun heq => hpublished x heq.symm)
  have hgone : ∀ x, x ∈ (s'.map.toList ++ s'.pbap.toList).filter p ↔
      (∃ t, s.held t = some x) ∧ p x = true := by
    intro x
    rw [mem_gone]
    simp only [hheld]
  have hlosses : ∀ x, losses x (s'.lose p reason).log = losses x s.log
      + if x ∈ (s'.map.toList ++ s'.pbap.toList).filter p then 1 else 0 := by
    intro x
    rw [losses_lose, hlog, losses_cons, htells x]
    rfl
  have hfilter : ∀ t x, (s'.lose p reason).held t = some x ↔ s.held t = some x ∧ p x = false := by
    intro t x
    rw [held_lose, hheld, Option.filter_eq_some_iff, Bool.not_eq_true']
  constructor
  · intro t x hx
    exact h.target t x ((hfilter t x).mp hx).1
  · intro t x hx
    obtain ⟨hx, hp⟩ := (hfilter t x).mp hx
    obtain ⟨hpub, hnot⟩ := h.held t x hx
    refine ⟨(hmem x).mpr hpub, ?_⟩
    rw [hafter]
    rintro (⟨hends', -⟩ | hended)
    · rw [hp] at hends'
      exact Bool.false_ne_true hends'
    · exact hnot hended
  · intro x hx hnot
    rw [hmem] at hx
    rw [hafter, not_or] at hnot
    refine (hfilter x.target x).mpr ⟨h.live x hx hnot.2, ?_⟩
    rw [← Bool.not_eq_true]
    exact fun hp => hnot.1 ⟨hp, hx⟩
  · intro x hx
    rw [hlosses]
    by_cases hbefore : EndedAfter x s.log
    · have hnot : x ∉ (s'.map.toList ++ s'.pbap.toList).filter p := by
        rw [hgone]
        rintro ⟨⟨t, ht⟩, -⟩
        exact (h.held t x ht).2 hbefore
      rw [if_neg hnot, h.told x hbefore]
    · rw [hafter] at hx
      obtain ⟨hp, hpub⟩ := hx.resolve_right hbefore
      rw [if_pos ((hgone x).mpr ⟨⟨x.target, h.live x hpub hbefore⟩, hp⟩), h.untold x hbefore]
  · intro x hx
    rw [hafter, not_or] at hx
    have hnot : x ∉ (s'.map.toList ++ s'.pbap.toList).filter p := by
      rw [hgone]
      rintro ⟨⟨t, ht⟩, hp⟩
      exact hx.1 ⟨hp, (h.held t x ht).1⟩
    rw [hlosses, if_neg hnot, h.untold x hx.2]

/-- A session that has not ended is published where none is. -/
theorem Current.publish (h : Current s) (hlog : s'.log = .published x :: s.log)
    (hheld : ∀ t, s'.held t = if t = x.target then some x else s.held t)
    (hfree : s.held x.target = none) (hnew : .published x ∉ s.log) : Current s' := by
  have hafter : ∀ y, EndedAfter y s'.log ↔ EndedAfter y s.log := by
    intro y
    rw [hlog]
    exact endedAfter_harmless harmless_published
  have hlosses : ∀ y, losses y s'.log = losses y s.log := by
    intro y
    rw [hlog, losses_cons]
    exact Nat.add_zero _
  constructor
  · intro t y hy
    rw [hheld] at hy
    split_ifs at hy with ht
    · rw [← Option.some.inj hy, ht]
    · exact h.target t y hy
  · intro t y hy
    rw [hheld] at hy
    rw [hafter, hlog]
    split_ifs at hy with ht
    · rw [← Option.some.inj hy]
      exact ⟨.head _, fun hended => hnew hended.published⟩
    obtain ⟨hpub, hnot⟩ := h.held t y hy
    exact ⟨.tail _ hpub, hnot⟩
  · intro y hy hnot
    rw [hafter] at hnot
    rw [hlog, List.mem_cons] at hy
    rw [hheld]
    rcases hy with hy | hy
    · rw [Event.published.inj hy, if_pos rfl]
    have hlive := h.live y hy hnot
    have hne : y.target ≠ x.target := by
      intro heq
      rw [heq, hfree] at hlive
      nomatch hlive
    rw [if_neg hne]
    exact hlive
  · intro y hy
    rw [hafter] at hy
    rw [hlosses]
    exact h.told y hy
  · intro y hy
    rw [hafter] at hy
    rw [hlosses]
    exact h.untold y hy

/-! ## The opening -/

/-- The failures that `open_all` has so far. -/
def Phase.failures : Phase → List Failure
  | .idle => []
  | .checking _ failures => failures
  | .creating _ _ _ failures => failures
  | .finishing failures => failures

/-- Where the worker is: what it has asked for and what has failed. -/
structure Opening (s : State) : Prop where
  known : ∀ x, .created x ∈ s.log → x.number < s.next ∧ x.opening ≤ s.openings
  was : ∀ x, .published x ∈ s.log → .created x ∈ s.log
  finished : ∀ k r, .finished k r ∈ s.log → k ≤ s.openings ∧ (k = s.openings → s.phase = .idle)
  free : ∀ t r c fs, s.phase = .creating t r c fs → s.held t = none
  /-- the session in the making, and its end if it was delivered -/
  making : ∀ t r x fs, s.phase = .creating t r (some x) fs → x.target = t ∧
    x.opening = s.openings ∧ .created x ∈ s.log ∧ .published x ∉ s.log ∧
    (EndedBefore x s.log → s.exited = true ∨ x.path ∈ s.removed.getD [])
  listening : s.phase ≠ .idle → s.removed ≠ none
  /-- `_publish` refuses what has ended -/
  refused : ∀ x, .published x ∈ s.log → ¬ EndedBefore x s.log
  /-- failures of MAP come first -/
  first : match s.phase with
    | .idle => True
    | .checking .map fs => fs = []
    | .checking .pbap fs => ∀ f ∈ fs, f.target = .map
    | .creating .map _ _ fs => fs = []
    | .creating .pbap _ _ fs => ∀ f ∈ fs, f.target = .map
    | .finishing fs => ∀ f ∈ fs, f.target = .map → fs.head?.any (·.target = .map)
  /-- every session asked for is published, in the making, or has failed -/
  settled : ∀ x, .created x ∈ s.log → x.opening = s.openings → s.phase ≠ .idle →
    .published x ∈ s.log ∨ (∃ t r fs, s.phase = .creating t r (some x) fs) ∨
      ∃ f ∈ s.phase.failures, f.target = x.target
  answered : ∀ x r, .created x ∈ s.log → .finished x.opening r ∈ s.log → .published x ∈ s.log ∨
    ∃ f, r = some f ∧ (f.target = x.target ∨ f.target = .map)

theorem opening_start : Opening {} where
  known := fun _ h => absurd h List.not_mem_nil
  was := fun _ h => absurd h List.not_mem_nil
  finished := fun _ _ h => absurd h List.not_mem_nil
  free := nofun
  making := nofun
  listening := fun h => absurd rfl h
  refused := fun _ h => absurd h List.not_mem_nil
  first := trivial
  settled := fun _ h => absurd h List.not_mem_nil
  answered := fun _ _ h => absurd h List.not_mem_nil

/-- The end of some sessions is delivered. -/
theorem Opening.hears (h : Opening s)
    (hlog : s'.log = e :: s.log) (he : (∃ path, e = .removed path) ∨ e = .exited)
    (hphase : s'.phase = s.phase) (hopenings : s'.openings = s.openings) (hnext : s'.next = s.next)
    (hheld : ∀ t, s'.held t = s.held t) (hremoved : s.removed ≠ none → s'.removed ≠ none)
    (hkeeps : ∀ x : Session, s.removed ≠ none →
      (Ends x e ∨ s.exited = true ∨ x.path ∈ s.removed.getD []) →
        s'.exited = true ∨ x.path ∈ s'.removed.getD []) : Opening (s'.lose p reason) := by
  have hne : ∀ e', (∀ path, e' ≠ .removed path) → e' ≠ .exited → e' ∈ s'.log → e' ∈ s.log := by
    intro e' h1 h2 hmem
    rw [hlog] at hmem
    rcases List.mem_cons.mp hmem with rfl | hmem
    · rcases he with ⟨path, he⟩ | he
      · exact absurd he (h1 path)
      · exact absurd he h2
    · exact hmem
  have hcreated : ∀ x, .created x ∈ (s'.lose p reason).log ↔ .created x ∈ s.log := by
    intro x
    rw [mem_lose (fun _ _ => Event.noConfusion)]
    exact ⟨hne _ (fun _ => Event.noConfusion) Event.noConfusion,
      fun hx => by rw [hlog]; exact .tail _ hx⟩
  have hpublished : ∀ x, .published x ∈ (s'.lose p reason).log ↔ .published x ∈ s.log := by
    intro x
    rw [mem_lose (fun _ _ => Event.noConfusion)]
    exact ⟨hne _ (fun _ => Event.noConfusion) Event.noConfusion,
      fun hx => by rw [hlog]; exact .tail _ hx⟩
  have hfinished : ∀ k r, .finished k r ∈ (s'.lose p reason).log ↔ .finished k r ∈ s.log := by
    intro k r
    rw [mem_lose (fun _ _ => Event.noConfusion)]
    exact ⟨hne _ (fun _ => Event.noConfusion) Event.noConfusion,
      fun hx => by rw [hlog]; exact .tail _ hx⟩
  have hended : ∀ x, EndedBefore x (s'.lose p reason).log ↔
      (Ends x e ∧ .created x ∈ s.log ∧ .published x ∉ s.log) ∨ EndedBefore x s.log := by
    intro x
    rw [endedBefore_lose, hlog, endedBefore_cons]
  have hph : (s'.lose p reason).phase = s.phase := hphase
  have hop : (s'.lose p reason).openings = s.openings := hopenings
  constructor
  · intro x hx
    rw [hcreated] at hx
    rw [hop]
    show x.number < s'.next ∧ _
    rw [hnext]
    exact h.known x hx
  · intro x hx
    rw [hpublished] at hx
    rw [hcreated]
    exact h.was x hx
  · intro k r hk
    rw [hfinished] at hk
    rw [hop, hph]
    exact h.finished k r hk
  · intro t r c fs hcreating
    rw [hph] at hcreating
    rw [held_lose, hheld, h.free t r c fs hcreating]
    rfl
  · intro t r x fs hcreating
    rw [hph] at hcreating
    obtain ⟨htarget, hopening, hmade, hnot, hbefore⟩ := h.making t r x fs hcreating
    rw [hop, hcreated, hpublished, hended]
    refine ⟨htarget, hopening, hmade, hnot, fun hend => ?_⟩
    apply hkeeps x (h.listening (by rw [hcreating]; exact Phase.noConfusion))
    rcases hend with ⟨hends, -, -⟩ | hend
    · exact .inl hends
    · exact .inr (hbefore hend)
  · rw [hph]
    exact fun hbusy => hremoved (h.listening hbusy)
  · intro x hx
    rw [hpublished] at hx
    rw [hended]
    rintro (⟨-, -, hnot⟩ | hend)
    · exact hnot hx
    · exact h.refused x hx hend
  · rw [hph]
    exact h.first
  · intro x hx
    rw [hcreated] at hx
    rw [hop, hph, hpublished]
    exact h.settled x hx
  · intro x r hx hk
    rw [hcreated] at hx
    rw [hfinished] at hk
    rw [hpublished]
    exact h.answered x r hx hk

variable {fs : List Failure}

/-- The worker goes on with the next target, or to the end. -/
theorem Opening.goes {fs' : List Failure}
    (h : Opening s) (hphase : s.phase = .checking t fs ∨ s.phase = .creating t r c fs)
    (hphase' : s'.phase = State.after t fs') (hlog : s'.log = s.log)
    (hopenings : s'.openings = s.openings) (hnext : s'.next = s.next)
    (hremoved : s'.removed = s.removed) (hfs : fs' = fs ∨ ∃ f, f.target = t ∧ fs' = fs ++ [f])
    (hmaking : ∀ x, s.phase = .creating t r (some x) fs → ∃ f ∈ fs', f.target = t) : Opening s' := by
  have hsub : ∀ f ∈ fs, f ∈ fs' := by
    intro f hf
    rcases hfs with rfl | ⟨g, -, rfl⟩
    · exact hf
    · exact List.mem_append_left _ hf
  have hsub' : ∀ f ∈ fs', f ∈ fs ∨ f.target = t := by
    intro f hf
    rcases hfs with rfl | ⟨g, hg, rfl⟩
    · exact .inl hf
    rcases List.mem_append.mp hf with hf | hf
    · exact .inl hf
    rw [List.mem_singleton.mp hf]
    exact .inr hg
  have hfailures : s.phase.failures = fs := by
    rcases hphase with hphase | hphase
    all_goals
      rw [hphase]
      rfl
  have hbusy : s.phase ≠ .idle := by
    rcases hphase with hphase | hphase
    all_goals
      rw [hphase]
      exact Phase.noConfusion
  have hafter : s'.phase ≠ .idle ∧ (∀ t' r' c' fs'', s'.phase ≠ .creating t' r' c' fs'') ∧
      s'.phase.failures = fs' := by
    rw [hphase']
    cases t with
    | map | pbap => exact ⟨Phase.noConfusion, fun _ _ _ _ => Phase.noConfusion, rfl⟩
  constructor
  · rw [hlog, hopenings, hnext]
    exact h.known
  · rw [hlog]
    exact h.was
  · intro k r' hk
    rw [hlog] at hk
    rw [hopenings]
    obtain ⟨hle, hidle⟩ := h.finished k r' hk
    exact ⟨hle, fun heq => absurd (hidle heq) hbusy⟩
  · exact fun _ _ _ _ hcreating => absurd hcreating (hafter.2.1 _ _ _ _)
  · exact fun _ _ _ _ hcreating => absurd hcreating (hafter.2.1 _ _ _ _)
  · rw [hremoved]
    exact fun _ => h.listening hbusy
  · rw [hlog]
    exact h.refused
  · have hfirst := h.first
    rw [hphase']
    cases t with
    | map =>
      have hnil : fs = [] := by
        rcases hphase with hphase | hphase
        all_goals
          rw [hphase] at hfirst
          exact hfirst
      intro f hf
      rcases hsub' f hf with hf | hf
      · rw [hnil] at hf
        exact absurd hf List.not_mem_nil
      · exact hf
    | pbap =>
      have hall : ∀ f ∈ fs, f.target = .map := by
        rcases hphase with hphase | hphase
        all_goals
          rw [hphase] at hfirst
          exact hfirst
      intro f hf hmap
      have hfs0 : f ∈ fs := by
        rcases hsub' f hf with hf | hf
        · exact hf
        rw [hmap] at hf
        nomatch hf
      obtain ⟨g, rest, hcons⟩ := List.exists_cons_of_ne_nil (List.ne_nil_of_mem hfs0)
      have hhead : fs'.head? = some g := by
        rcases hfs with rfl | ⟨g', -, rfl⟩
        all_goals
          rw [hcons]
          rfl
      rw [hhead]
      exact decide_eq_true (hall g (by rw [hcons]; exact .head _))
  · intro x hx hopening _
    rw [hlog] at hx ⊢
    rw [hopenings] at hopening
    rw [hafter.2.2]
    rcases h.settled x hx hopening hbusy with hpub | ⟨t', r', fs'', hcreating⟩ | ⟨f, hf, htarget⟩
    · exact .inl hpub
    · rcases hphase with hphase | hphase
      · rw [hphase] at hcreating
        nomatch hcreating
      rw [hphase] at hcreating
      injection hcreating with h1 h2 h3 h4
      rw [h3] at hphase
      obtain ⟨f, hf, htarget⟩ := hmaking x hphase
      have hxt := (h.making t r x fs hphase).1
      exact .inr (.inr ⟨f, hf, htarget.trans hxt.symm⟩)
    · rw [hfailures] at hf
      exact .inr (.inr ⟨f, hsub f hf, htarget⟩)
  · rw [hlog]
    exact h.answered

/-- `open_all` begins. -/
theorem Opening.begins (h : Opening s) (hphase' : s'.phase = .checking .map [])
    (hlog : s'.log = s.log) (hopenings : s'.openings = s.openings + 1) (hnext : s'.next = s.next)
    (hlistening : s'.removed ≠ none) : Opening s' := by
  constructor
  · intro x hx
    rw [hlog] at hx
    obtain ⟨hnumber, hopening⟩ := h.known x hx
    rw [hopenings, hnext]
    exact ⟨hnumber, by omega⟩
  · rw [hlog]
    exact h.was
  · intro k r hk
    rw [hlog] at hk
    obtain ⟨hle, -⟩ := h.finished k r hk
    rw [hopenings]
    exact ⟨by omega, fun heq => by omega⟩
  · rw [hphase']
    nofun
  · rw [hphase']
    nofun
  · exact fun _ => hlistening
  · rw [hlog]
    exact h.refused
  · rw [hphase']
  · intro x hx hopening _
    rw [hlog] at hx
    obtain ⟨-, hle⟩ := h.known x hx
    rw [hopenings] at hopening
    omega
  · rw [hlog]
    exact h.answered

/-- The worker asks obexd for a session, once more or for the first time. -/
theorem Opening.asks (h : Opening s)
    (hphase : s.phase = .checking t fs ∨ ∃ r', s.phase = .creating t r' none fs)
    (hphase' : s'.phase = .creating t r none fs) (hfree : s'.held t = none) (hlog : s'.log = s.log)
    (hopenings : s'.openings = s.openings) (hnext : s'.next = s.next)
    (hlistening : s'.removed ≠ none) : Opening s' := by
  have hbusy : s.phase ≠ .idle := by
    rcases hphase with hphase | ⟨r', hphase⟩
    all_goals
      rw [hphase]
      exact Phase.noConfusion
  have hfailures : s.phase.failures = fs := by
    rcases hphase with hphase | ⟨r', hphase⟩
    all_goals
      rw [hphase]
      rfl
  constructor
  · rw [hlog, hopenings, hnext]
    exact h.known
  · rw [hlog]
    exact h.was
  · intro k r' hk
    rw [hlog] at hk
    rw [hopenings]
    obtain ⟨hle, hidle⟩ := h.finished k r' hk
    exact ⟨hle, fun heq => absurd (hidle heq) hbusy⟩
  · intro t' r' c' fs' hcreating
    rw [hphase'] at hcreating
    injection hcreating with ht
    rw [← ht]
    exact hfree
  · intro t' r' x fs' hcreating
    rw [hphase'] at hcreating
    injection hcreating with _ _ hnone
    nomatch hnone
  · exact fun _ => hlistening
  · rw [hlog]
    exact h.refused
  · have hfirst := h.first
    rw [hphase']
    rcases hphase with hphase | ⟨r', hphase⟩
    all_goals
      rw [hphase] at hfirst
      cases t with
      | map | pbap => exact hfirst
  · intro x hx hopening _
    rw [hlog] at hx ⊢
    rw [hopenings] at hopening
    rw [hphase']
    rcases h.settled x hx hopening hbusy with hpub | ⟨t', r', fs', hcreating⟩ | hfailed
    · exact .inl hpub
    · rcases hphase with hphase | ⟨r'', hphase⟩
      · rw [hphase] at hcreating
        nomatch hcreating
      rw [hphase] at hcreating
      injection hcreating with _ _ hnone
      nomatch hnone
    · rw [hfailures] at hfailed
      exact .inr (.inr hfailed)
  · rw [hlog]
    exact h.answered

/-- obexd makes the session. -/
theorem Opening.makes (h : Opening s)
    (hphase : s.phase = .creating t r none fs) (hphase' : s'.phase = .creating t r (some x) fs)
    (hx : x.number = s.next) (hopening : x.opening = s.openings) (htarget : x.target = t)
    (hlog : s'.log = .created x :: s.log) (hopenings : s'.openings = s.openings)
    (hnext : s'.next = s.next + 1) (hheld : ∀ t, s'.held t = s.held t)
    (hremoved : s'.removed = s.removed) : Opening s' := by
  have hbusy : s.phase ≠ .idle := by
    rw [hphase]
    exact Phase.noConfusion
  have hfresh : .created x ∉ s.log := by
    intro hmem
    have hlt := (h.known x hmem).1
    omega
  have hcreated : ∀ y, .created y ∈ s'.log ↔ y = x ∨ .created y ∈ s.log := by
    intro y
    rw [hlog, List.mem_cons]
    exact or_congr_left ⟨Event.created.inj, fun heq => by rw [heq]⟩
  have hpublished : ∀ y, .published y ∈ s'.log ↔ .published y ∈ s.log := by
    intro y
    rw [hlog, List.mem_cons]
    exact or_iff_right Event.noConfusion
  have hfinished : ∀ k r, .finished k r ∈ s'.log ↔ .finished k r ∈ s.log := by
    intro k r
    rw [hlog, List.mem_cons]
    exact or_iff_right Event.noConfusion
  have hended : ∀ y, EndedBefore y s'.log ↔ EndedBefore y s.log := by
    intro y
    rw [hlog]
    exact endedBefore_harmless harmless_created
  constructor
  · intro y hy
    rw [hopenings, hnext]
    rcases (hcreated y).mp hy with rfl | hy
    · exact ⟨by omega, le_of_eq hopening⟩
    obtain ⟨hnumber, hle⟩ := h.known y hy
    exact ⟨by omega, hle⟩
  · intro y hy
    exact (hcreated y).mpr (.inr (h.was y ((hpublished y).mp hy)))
  · intro k r' hk
    rw [hopenings]
    obtain ⟨hle, hidle⟩ := h.finished k r' ((hfinished k r').mp hk)
    exact ⟨hle, fun heq => absurd (hidle heq) hbusy⟩
  · intro t' r' c' fs' hcreating
    rw [hphase'] at hcreating
    injection hcreating with ht
    rw [hheld, ← ht]
    exact h.free t r none fs hphase
  · intro t' r' y fs' hcreating
    rw [hphase'] at hcreating
    injection hcreating with ht _ hy
    rw [← Option.some.inj hy, ← ht]
    refine ⟨htarget, hopening.trans hopenings.symm, (hcreated x).mpr (.inl rfl), ?_, ?_⟩
    · exact fun hpub => hfresh (h.was x ((hpublished x).mp hpub))
    · intro hend
      exact absurd ((hended x).mp hend).created hfresh
  · rw [hremoved]
    exact fun _ => h.listening hbusy
  · intro y hy
    rw [hended]
    exact h.refused y ((hpublished y).mp hy)
  · have hfirst := h.first
    rw [hphase] at hfirst
    rw [hphase']
    cases t with
    | map | pbap => exact hfirst
  · intro y hy hop _
    rw [hpublished, hphase']
    rcases (hcreated y).mp hy with rfl | hy
    · exact .inr (.inl ⟨t, r, fs, rfl⟩)
    rw [hopenings] at hop
    rcases h.settled y hy hop hbusy with hpub | ⟨t', r', fs', hcreating⟩ | hfailed
    · exact .inl hpub
    · rw [hphase] at hcreating
      injection hcreating with _ _ hnone
      nomatch hnone
    · rw [hphase] at hfailed
      exact .inr (.inr hfailed)
  · intro y r' hy hk
    rw [hpublished]
    have hk := (hfinished _ _).mp hk
    rcases (hcreated y).mp hy with rfl | hy
    · rw [hopening] at hk
      exact absurd ((h.finished _ _ hk).2 rfl) hbusy
    · exact h.answered y r' hy hk

/-- A session that has not ended is published. -/
theorem Opening.publishes (h : Opening s) (hphase : s.phase = .creating t r (some x) fs)
    (hphase' : s'.phase = State.after t fs) (hlog : s'.log = .published x :: s.log)
    (hopenings : s'.openings = s.openings) (hnext : s'.next = s.next)
    (hremoved : s'.removed = s.removed) (hfine : ¬ EndedBefore x s.log) : Opening s' := by
  -- first the session is published, and the worker goes on after that
  have hbusy : s.phase ≠ .idle := by
    rw [hphase]
    exact Phase.noConfusion
  obtain ⟨htarget, hopening, hmade, hnew, -⟩ := h.making t r x fs hphase
  have hcreated : ∀ y, .created y ∈ s'.log ↔ .created y ∈ s.log := by
    intro y
    rw [hlog, List.mem_cons]
    exact or_iff_right Event.noConfusion
  have hpublished : ∀ y, .published y ∈ s'.log ↔ y = x ∨ .published y ∈ s.log := by
    intro y
    rw [hlog, List.mem_cons]
    exact or_congr_left ⟨Event.published.inj, fun heq => by rw [heq]⟩
  have hfinished : ∀ k r, .finished k r ∈ s'.log ↔ .finished k r ∈ s.log := by
    intro k r
    rw [hlog, List.mem_cons]
    exact or_iff_right Event.noConfusion
  have hended : ∀ y, EndedBefore y s'.log ↔ EndedBefore y s.log := by
    intro y
    rw [hlog]
    exact endedBefore_harmless harmless_published
  have hafter : s'.phase ≠ .idle ∧ (∀ t' r' c' fs'', s'.phase ≠ .creating t' r' c' fs'') ∧
      s'.phase.failures = fs := by
    rw [hphase']
    cases t with
    | map | pbap => exact ⟨Phase.noConfusion, fun _ _ _ _ => Phase.noConfusion, rfl⟩
  constructor
  · intro y hy
    rw [hopenings, hnext]
    exact h.known y ((hcreated y).mp hy)
  · intro y hy
    rw [hcreated]
    rcases (hpublished y).mp hy with rfl | hy
    · exact hmade
    · exact h.was y hy
  · intro k r' hk
    rw [hopenings]
    obtain ⟨hle, hidle⟩ := h.finished k r' ((hfinished k r').mp hk)
    exact ⟨hle, fun heq => absurd (hidle heq) hbusy⟩
  · exact fun _ _ _ _ hcreating => absurd hcreating (hafter.2.1 _ _ _ _)
  · exact fun _ _ _ _ hcreating => absurd hcreating (hafter.2.1 _ _ _ _)
  · rw [hremoved]
    exact fun _ => h.listening hbusy
  · intro y hy
    rw [hended]
    rcases (hpublished y).mp hy with rfl | hy
    · exact hfine
    · exact h.refused y hy
  · have hfirst := h.first
    rw [hphase] at hfirst
    rw [hphase']
    cases t with
    | map =>
      have hnil : fs = [] := hfirst
      intro f hf
      rw [hnil] at hf
      exact absurd hf List.not_mem_nil
    | pbap =>
      have hall : ∀ f ∈ fs, f.target = .map := hfirst
      intro f hf _
      obtain ⟨g, rest, hcons⟩ := List.exists_cons_of_ne_nil (List.ne_nil_of_mem hf)
      rw [hcons]
      exact decide_eq_true (hall g (by rw [hcons]; exact .head _))
  · intro y hy hop _
    rw [hpublished, hafter.2.2]
    rw [hopenings] at hop
    rcases h.settled y ((hcreated y).mp hy) hop hbusy with hpub | ⟨t', r', fs', hcreating⟩ | hfailed
    · exact .inl (.inr hpub)
    · rw [hphase] at hcreating
      injection hcreating with _ _ hsome
      exact .inl (.inl (Option.some.inj hsome).symm)
    · rw [hphase] at hfailed
      exact .inr (.inr hfailed)
  · intro y r' hy hk
    rw [hpublished]
    rcases h.answered y r' ((hcreated y).mp hy) ((hfinished _ _).mp hk) with hpub | hfailed
    · exact .inl (.inr hpub)
    · exact .inr hfailed

/-- `open_all` ends, and raises the first failure. -/
theorem Opening.ends (h : Opening s) (hphase : s.phase = .finishing fs) (hphase' : s'.phase = .idle)
    (hlog : s'.log = .finished s.openings fs.head? :: s.log) (hopenings : s'.openings = s.openings)
    (hnext : s'.next = s.next) : Opening s' := by
  have hbusy : s.phase ≠ .idle := by
    rw [hphase]
    exact Phase.noConfusion
  have hcreated : ∀ y, .created y ∈ s'.log ↔ .created y ∈ s.log := by
    intro y
    rw [hlog, List.mem_cons]
    exact or_iff_right Event.noConfusion
  have hpublished : ∀ y, .published y ∈ s'.log ↔ .published y ∈ s.log := by
    intro y
    rw [hlog, List.mem_cons]
    exact or_iff_right Event.noConfusion
  have hended : ∀ y, EndedBefore y s'.log ↔ EndedBefore y s.log := by
    intro y
    rw [hlog]
    exact endedBefore_harmless (harmless_finished _ _)
  constructor
  · intro y hy
    rw [hopenings, hnext]
    exact h.known y ((hcreated y).mp hy)
  · intro y hy
    rw [hcreated]
    exact h.was y ((hpublished y).mp hy)
  · intro k r hk
    rw [hlog] at hk
    rw [hopenings]
    refine ⟨?_, fun _ => hphase'⟩
    rcases List.mem_cons.mp hk with hk | hk
    · injection hk with hk _
      omega
    · exact (h.finished k r hk).1
  · rw [hphase']
    nofun
  · rw [hphase']
    nofun
  · rw [hphase']
    exact fun hidle => absurd rfl hidle
  · intro y hy
    rw [hended]
    exact h.refused y ((hpublished y).mp hy)
  · rw [hphase']
    trivial
  · rw [hphase']
    exact fun _ _ _ hidle => absurd rfl hidle
  intro y r hy hk
  have hy := (hcreated y).mp hy
  rw [hpublished]
  rw [hlog] at hk
  rcases List.mem_cons.mp hk with hk | hk
  · injection hk with hopening hr
    rcases h.settled y hy hopening hbusy with hpub | ⟨t', r', fs', hcreating⟩ | ⟨f, hf, htarget⟩
    · exact .inl hpub
    · rw [hphase] at hcreating
      nomatch hcreating
    right
    rw [hphase] at hf
    have hf : f ∈ fs := hf
    have hfirst := h.first
    rw [hphase] at hfirst
    obtain ⟨g, rest, hcons⟩ := List.exists_cons_of_ne_nil (List.ne_nil_of_mem hf)
    have hhead : fs.head? = some g := by
      rw [hcons]
      rfl
    refine ⟨g, hr.trans hhead, ?_⟩
    cases hg : g.target with
    | map => exact .inr rfl
    | pbap =>
      left
      cases hx : y.target with
      | pbap => rfl
      | map =>
        -- a failure of MAP stands before all others
        have hany := hfirst f hf (htarget.trans hx)
        rw [hhead] at hany
        have hmap : g.target = .map := of_decide_eq_true hany
        rw [hg] at hmap
        nomatch hmap
  · exact h.answered y r hy hk

/-! ## Every step -/

/-- What every step keeps. -/
structure Sound (s : State) : Prop where
  current : Current s
  opening : Opening s

theorem sound_start : Sound {} := ⟨current_start, opening_start⟩

theorem sound_openAll (h : Sound s) : Sound s.openAll := by
  unfold State.openAll
  split_ifs
  · constructor
    · exact h.current.same rfl (fun t => by cases t <;> rfl)
    · exact ⟨h.opening.known, h.opening.was, h.opening.finished, h.opening.free, h.opening.making,
        h.opening.listening, h.opening.refused, h.opening.first, h.opening.settled,
        h.opening.answered⟩
  · constructor
    · exact h.current.same rfl (fun t => by cases t <;> rfl)
    · exact h.opening.begins rfl rfl rfl rfl (Option.some_ne_none _)

theorem sound_check (h : Sound s) (hphase : s.phase = .checking t fs) : Sound (s.check t fs) := by
  have hbusy : s.phase ≠ .idle := by
    rw [hphase]
    exact Phase.noConfusion
  unfold State.check
  by_cases hopen : (s.held t).isSome = true
  · rw [if_pos hopen]
    constructor
    · exact h.current.same rfl (fun t => by cases t <;> rfl)
    refine h.opening.goes (r := false) (c := none) (.inl hphase) rfl rfl rfl rfl rfl
      (.inl rfl) (fun x hcreating => ?_)
    rw [hphase] at hcreating
    nomatch hcreating
  rw [if_neg hopen]
  rw [Option.not_isSome_iff_eq_none] at hopen
  have hheld : ∀ t', ({ s with phase := .creating t false none fs } : State).held t' = s.held t' :=
    fun t' => by cases t' <;> rfl
  constructor
  · exact h.current.same rfl hheld
  · exact h.opening.asks (.inl hphase) rfl ((hheld t).trans hopen) rfl rfl rfl
      (h.opening.listening hbusy)

theorem sound_create (h : Sound s)
    (hphase : s.phase = .creating t r none fs) (path : Str) : Sound (s.create t r fs path) := by
  have hheld : ∀ t', (s.create t r fs path).held t' = s.held t' := fun t' => by cases t' <;> rfl
  constructor
  · exact h.current.other rfl harmless_created (fun _ => Event.noConfusion) (fun _ => rfl) hheld
  · exact h.opening.makes hphase rfl rfl rfl rfl rfl rfl rfl hheld rfl

/-- The creation of a session fails. -/
theorem sound_fail (h : Sound s) (hphase : s.phase = .creating t r c fs) (text : Str) :
    Sound { s with phase := State.after t (fs ++ [⟨t, text⟩]) } := by
  constructor
  · exact h.current.same rfl (fun t => by cases t <;> rfl)
  · exact h.opening.goes (.inr hphase) rfl rfl rfl rfl rfl (.inr ⟨_, rfl, rfl⟩)
      (fun _ _ => ⟨_, List.mem_append_right _ (List.mem_singleton_self _), rfl⟩)

theorem sound_createFails (h : Sound s) (hphase : s.phase = .creating t r c fs) (name msg : Str) :
    Sound (s.createFails t r c fs name msg) := by
  unfold State.createFails
  by_cases hretry : c = none ∧ r = false ∧ State.isForbidden msg = true
  · rw [if_pos hretry]
    rw [hretry.1] at hphase
    have hbusy : s.phase ≠ .idle := by
      rw [hphase]
      exact Phase.noConfusion
    have hheld : ∀ t', ({ s with phase := .creating t true none fs } : State).held t' = s.held t' :=
      fun t' => by cases t' <;> rfl
    constructor
    · exact h.current.same rfl hheld
    · exact h.opening.asks (.inr ⟨r, hphase⟩) rfl
        ((hheld t).trans (h.opening.free t r none fs hphase)) rfl rfl rfl
        (h.opening.listening hbusy)
  · rw [if_neg hretry]
    exact sound_fail h hphase _

theorem held_hold (s : State) (x : Session) (t t' : Target) :
    (s.hold x t).held t' = if t' = t then some x else s.held t' := by
  cases t with
  | map | pbap =>
    cases t' with
    | map => rfl
    | pbap => rfl

/-- **`_publish`** refuses a session that has ended, and publishes one that has not. -/
theorem sound_publish (h : Sound s)
    (hphase : s.phase = .creating t r (some x) fs) : Sound (s.publish t x fs) := by
  obtain ⟨htarget, -, -, hnew, hbefore⟩ := h.opening.making t r x fs hphase
  unfold State.publish
  by_cases hended : s.exited = true ∨ x.path ∈ s.removed.getD []
  · rw [if_pos hended]
    exact sound_fail h hphase _
  rw [if_neg hended]
  have hfine : ¬ EndedBefore x s.log := fun hend => hended (hbefore hend)
  have hfree : s.held x.target = none := by
    rw [htarget]
    exact h.opening.free t r _ fs hphase
  have hlog : ∀ s' : State, (s'.hold x t).log = s'.log ∧ (s'.hold x t).phase = s'.phase ∧
      (s'.hold x t).openings = s'.openings ∧ (s'.hold x t).next = s'.next ∧
      (s'.hold x t).removed = s'.removed := by
    intro s'
    cases t with
    | map | pbap => exact ⟨rfl, rfl, rfl, rfl, rfl⟩
  obtain ⟨h1, h2, h3, h4, h5⟩ :=
    hlog { s with phase := State.after t fs, log := .published x :: s.log }
  constructor
  · refine h.current.publish h1 (fun t' => ?_) hfree hnew
    rw [held_hold, htarget]
    cases t' with
    | map => rfl
    | pbap => rfl
  · exact h.opening.publishes hphase h2 h1 h3 h4 h5 hfine

theorem sound_finish (h : Sound s) (hphase : s.phase = .finishing fs) : Sound (s.finish fs) := by
  constructor
  · exact h.current.other rfl (harmless_finished _ _) (fun _ => Event.noConfusion) (fun _ => rfl)
      (fun t => by cases t <;> rfl)
  · exact h.opening.ends hphase rfl rfl rfl rfl

theorem sound_onInterfacesRemoved (h : Sound s) (path : Str) :
    Sound (s.onInterfacesRemoved path) := by
  have hends : ∀ x : Session, decide (x.path = path) = true ↔ Ends x (.removed path) := by
    intro x
    rw [decide_eq_true_eq]
    constructor
    · exact fun heq => .inl (by rw [heq])
    · rintro (heq | heq)
      · exact (Event.removed.inj heq).symm
      · nomatch heq
  constructor
  · exact h.current.lose rfl (fun t => by cases t <;> rfl) (fun _ => rfl)
      (fun _ => Event.noConfusion) hends
  refine h.opening.hears rfl (.inl ⟨path, rfl⟩) rfl rfl rfl (fun t => by cases t <;> rfl) ?_ ?_
  · intro hsome
    obtain ⟨ps, hps⟩ := Option.ne_none_iff_exists'.mp hsome
    simp [hps]
  · intro x hsome hx
    obtain ⟨ps, hps⟩ := Option.ne_none_iff_exists'.mp hsome
    have hgoal : s.exited = true ∨ x.path ∈ path :: ps := by
      rw [hps] at hx
      rcases hx with hx | hx | hx
      · have hpath : x.path = path := of_decide_eq_true ((hends x).mpr hx)
        exact .inr (by rw [hpath]; exact .head _)
      · exact .inl hx
      · exact .inr (.tail _ hx)
    rw [hps]
    exact hgoal

theorem sound_onNameOwnerChanged (h : Sound s) (oldOwner newOwner : Str) :
    Sound (s.onNameOwnerChanged oldOwner newOwner) := by
  unfold State.onNameOwnerChanged
  by_cases hother : oldOwner = [] ∨ newOwner ≠ []
  · rw [if_pos hother]
    exact h
  rw [if_neg hother]
  have hends : ∀ x : Session, true = true ↔ Ends x .exited := fun _ => iff_of_true rfl (.inr rfl)
  constructor
  · exact h.current.lose rfl (fun t => by cases t <;> rfl) (fun _ => rfl)
      (fun _ => Event.noConfusion) hends
  refine h.opening.hears rfl (.inr rfl) rfl rfl rfl (fun t => by cases t <;> rfl) id ?_
  intro x hsome _
  left
  rw [Option.isSome_iff_ne_none.mpr hsome]
  rfl

theorem sound_step (h : Sound s) (i : Input) : Sound (step s i) := by
  cases i with
  | openAll =>
    rw [step]
    split
    · exact sound_openAll h
    · exact h
  | check =>
    rw [step]
    split
    · rename_i hphase
      exact sound_check h hphase
    · exact h
  | created path =>
    rw [step]
    split
    · rename_i hphase
      exact sound_create h hphase path
    · exact h
  | createFails name msg =>
    rw [step]
    split
    · rename_i hphase
      exact sound_createFails h hphase name msg
    · exact h
  | createRaises text =>
    rw [step]
    split
    · rename_i hphase
      exact sound_fail h hphase text
    · exact h
  | publish =>
    rw [step]
    split
    · rename_i hphase
      exact sound_publish h hphase
    · exact h
  | finish =>
    rw [step]
    split
    · rename_i hphase
      exact sound_finish h hphase
    · exact h
  | interfacesRemoved path =>
    rw [step]
    split_ifs
    · exact sound_onInterfacesRemoved h path
    · exact h
  | nameOwnerChanged oldOwner newOwner =>
    rw [step]
    split_ifs
    · exact sound_onNameOwnerChanged h oldOwner newOwner
    · exact h

/-- **No dead session stays published.** Take any session, in any run. If its removal, or the exit of
its obexd, was delivered after it was created, it is not published. If that was before the
publication, it never was, and the `open_all` that asked for it raises the first failure of its
targets, up to this one. If it was after the publication, the loss callback was called for it
once. -/
theorem ended_sessions_dropped (inputs : List Input) (x : Session) :
    (EndedBefore x (Machine.run step {} inputs).log ∨ EndedAfter x (Machine.run step {} inputs).log →
      ¬ Held (Machine.run step {} inputs) x) ∧
    (EndedBefore x (Machine.run step {} inputs).log →
      .published x ∉ (Machine.run step {} inputs).log ∧
      ∀ raised, .finished x.opening raised ∈ (Machine.run step {} inputs).log →
        ∃ f, raised = some f ∧ (f.target = x.target ∨ f.target = .map)) ∧
    (EndedAfter x (Machine.run step {} inputs).log →
      losses x (Machine.run step {} inputs).log = 1) := by
  have hsound : Sound (Machine.run step {} inputs) :=
    @Machine.always _ _ step Sound (fun _ i hs => sound_step hs i) {} inputs sound_start
  have hnot : EndedBefore x (Machine.run step {} inputs).log →
      .published x ∉ (Machine.run step {} inputs).log :=
    fun hend hpub => hsound.opening.refused x hpub hend
  refine ⟨?_, fun hend => ⟨hnot hend, fun raised hfinished => ?_⟩, hsound.current.told x⟩
  · rintro hend ⟨t, hheld⟩
    obtain ⟨hpub, hfine⟩ := hsound.current.held t x hheld
    rcases hend with hend | hend
    · exact hnot hend hpub
    · exact hfine hend
  · exact (hsound.opening.answered x raised hend.created hfinished).resolve_left (hnot hend)

/-- MAP cannot be opened, and the PBAP session is removed before the worker can publish it. -/
def bothFail : List Input :=
  [ .openAll, .check, .createFails "org.bluez.obex.Error.Failed".toList "timed out".toList, .check
  , .created "/session0".toList, .interfacesRemoved "/session0".toList, .publish, .finish ]

/-- The PBAP session of that run. -/
def removedSession : Session := ⟨0, 1, .pbap, "/session0".toList⟩

/-- What `open_all` raises then is the failure of MAP. -/
theorem first_failure_raised :
    EndedBefore removedSession (Machine.run step {} bothFail).log ∧
    ∃ f, .finished 1 (some f) ∈ (Machine.run step {} bothFail).log ∧
      (∀ f', .finished 1 f' ∈ (Machine.run step {} bothFail).log → f' = some f) ∧
      f.target ≠ removedSession.target := by
  have hlog : (Machine.run step {} bothFail).log =
      [ .finished 1 (some ⟨.map, "CreateSession(MAP) failed: org.bluez.obex.Error.Failed: timed out".toList⟩)
      , .removed "/session0".toList, .created removedSession ] := by decide
  rw [hlog]
  refine ⟨?_, _, .head _, ?_, by decide⟩
  · rw [endedBefore_harmless (harmless_finished _ _), endedBefore_cons]
    exact .inl ⟨.inl rfl, .head _, by decide⟩
  intro f' hf'
  rcases List.mem_cons.mp hf' with hf' | hf'
  · exact (Event.finished.inj hf').2
  · exact absurd hf' (by simp)

/-- The removed session is not published, and `open_all` raises a failure. -/
theorem ended_sessions_dropped_removed : ¬ Held (Machine.run step {} bothFail) removedSession ∧
    .published removedSession ∉ (Machine.run step {} bothFail).log := by
  have hended : EndedBefore removedSession (Machine.run step {} bothFail).log := by
    have hlog : (Machine.run step {} bothFail).log.tail =
        [.removed "/session0".toList, .created removedSession] := by decide
    have hcons : ∃ e, Harmless e ∧ (Machine.run step {} bothFail).log
        = e :: (Machine.run step {} bothFail).log.tail := ⟨_, harmless_finished _ _, rfl⟩
    obtain ⟨e, he, hcons⟩ := hcons
    rw [hcons, endedBefore_harmless he, hlog, endedBefore_cons]
    exact .inl ⟨.inl rfl, .head _, by decide⟩
  obtain ⟨hheld, hbefore, -⟩ := ended_sessions_dropped bothFail removedSession
  exact ⟨hheld (.inl hended), (hbefore hended).1⟩

end BlueFerry.Sessions
