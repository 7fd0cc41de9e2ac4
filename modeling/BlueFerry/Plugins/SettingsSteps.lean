import BlueFerry.Plugins.SettingsModel

/-! # One step at a time

The steps of `_work`: at most one is at the worker, every step that was submitted waits in the
queue, is at the worker, or has run, and it runs once. While steps wait, the end of another one is
still to come, which starts the next.

`Ready` is what a step that the user submits needs so that it overtakes none: the runner reports the
result of a step before its end, and between the two the model is not busy though steps may wait.
-/

namespace BlueFerry.PluginSettings

open BlueFerry.Text

/-! ## The queue and the runner -/

/-- Every step submitted before a step of the user has run before it. -/
def InOrder (ran : List Step) : Prop :=
  ∀ later st earlier, ran = later ++ st :: earlier → st.user = true →
    ∀ n < st.number, ∃ w ∈ earlier, w.number = n

/-- What holds of the steps at any time, and of their order while the user is patient (`Ready`). -/
structure Queued (patient : Prop) (s : State) : Prop where
  below : ∀ st ∈ s.queue, st.number < s.steps
  sorted : s.queue.Pairwise (fun st st' => st.number < st'.number)
  out : ∀ id st g, s.tasks.Holds id (.work st g) →
    st.number < s.steps ∧ ∀ w ∈ s.queue, w.number ≠ st.number
  once : ∀ i j st st' g g', s.tasks.Holds i (.work st g) → s.tasks.Holds j (.work st' g') →
    st.number = st'.number → i = j
  one : ∀ i j st st' g g', s.tasks.Holds i (.work st g) → g ≠ .delivered →
    s.tasks.Holds j (.work st' g') → g' ≠ .delivered → i = j
  busy : s.busy ≠ [] ↔ ∃ id st g, s.tasks.Holds id (.work st g) ∧ g ≠ .delivered
  ran : ∀ n, (∃ st ∈ s.ran, st.number = n) ↔ n < s.steps ∧ (∀ w ∈ s.queue, w.number ≠ n) ∧
    ∀ id st, s.tasks.Holds id (.work st .submitted) → st.number ≠ n
  nodup : (s.ran.map Step.number).Nodup
  order : patient → InOrder s.ran
  due : patient → ∀ id st, s.tasks.Holds id (.work st .submitted) → st.user = true →
    ∀ n < st.number, ∃ w ∈ s.ran, w.number = n

/-- While steps wait, the end of one is still to come. -/
def Driven (s : State) : Prop :=
  s.queue ≠ [] → ∃ id st g, s.tasks.Holds id (.work st g)

/-- A step that the user submits now overtakes none. -/
def Ready (s : State) : Prop := s.busy = [] → s.queue = []

theorem queued_start (patient : Prop) : Queued patient {} where
  below := fun _ h => absurd h List.not_mem_nil
  sorted := List.Pairwise.nil
  out := fun id _ _ h => absurd h (Slots.not_holds_empty id _)
  once := fun i _ _ _ _ _ h => absurd h (Slots.not_holds_empty i _)
  one := fun i _ _ _ _ _ h => absurd h (Slots.not_holds_empty i _)
  busy := by
    refine iff_of_false (fun h => h rfl) ?_
    rintro ⟨id, st, g, h, -⟩
    exact Slots.not_holds_empty id _ h
  ran := by
    intro n
    refine iff_of_false ?_ (fun h => absurd h.1 (Nat.not_lt_zero n))
    rintro ⟨st, h, -⟩
    exact absurd h List.not_mem_nil
  nodup := List.nodup_nil
  order := fun _ later st earlier h => absurd h (by simp)
  due := fun _ id _ h => absurd h (Slots.not_holds_empty id _)

theorem driven_start : Driven {} := fun h => absurd rfl h

/-! ## What has nothing to do with the steps -/

/-- The same steps are in the queue, at the runner, and run. -/
structure Alike (s s' : State) : Prop where
  queue : s'.queue = s.queue
  busy : s'.busy = s.busy
  steps : s'.steps = s.steps
  ran : s'.ran = s.ran
  work : ∀ id st g, s'.tasks.Holds id (.work st g) ↔ s.tasks.Holds id (.work st g)

variable {patient : Prop} {s s' : State}

theorem Alike.refl (s : State) : Alike s s := ⟨rfl, rfl, rfl, rfl, fun _ _ _ => Iff.rfl⟩

theorem Alike.trans {s'' : State} (h : Alike s s') (h' : Alike s' s'') : Alike s s'' where
  queue := h'.queue.trans h.queue
  busy := h'.busy.trans h.busy
  steps := h'.steps.trans h.steps
  ran := h'.ran.trans h.ran
  work := fun id st g => (h'.work id st g).trans (h.work id st g)

theorem Alike.queued (h : Alike s s') (hs : Queued patient s) : Queued patient s' := by
  obtain ⟨hqueue, hbusy, hsteps, hran, hwork⟩ := h
  constructor
  · rw [hqueue, hsteps]
    exact hs.below
  · rw [hqueue]
    exact hs.sorted
  · intro id st g hid
    rw [hwork] at hid
    rw [hqueue, hsteps]
    exact hs.out id st g hid
  · intro i j st st' g g' hi hj
    rw [hwork] at hi hj
    exact hs.once i j st st' g g' hi hj
  · intro i j st st' g g' hi hg hj hg'
    rw [hwork] at hi hj
    exact hs.one i j st st' g g' hi hg hj hg'
  · rw [hbusy, hs.busy]
    simp only [hwork]
  · intro n
    rw [hran, hqueue, hsteps, hs.ran n]
    simp only [hwork]
  · rw [hran]
    exact hs.nodup
  · rw [hran]
    exact hs.order
  intro hp id st hid
  rw [hwork] at hid
  rw [hran]
  exact hs.due hp id st hid

theorem Alike.driven (h : Alike s s') (hs : Driven s) : Driven s' := by
  intro hqueue
  rw [h.queue] at hqueue
  obtain ⟨id, st, g, hid⟩ := hs hqueue
  exact ⟨id, st, g, (h.work id st g).mpr hid⟩

theorem Alike.ready (h : Alike s s') (hs : Ready s) : Ready s' := by
  unfold Ready
  rw [h.busy, h.queue]
  exact hs

/-- A quiet task is handed to the runner. -/
theorem alike_start (s : State) (job : Quiet) : Alike s (s.start job) where
  queue := rfl
  busy := rfl
  steps := rfl
  ran := rfl
  work := by
    intro id st g
    show (s.tasks.put (.quiet job .submitted)).Holds id (.work st g) ↔ _
    rw [Slots.holds_put]
    exact or_iff_right (fun h => nomatch h.2)

/-! ## A step is submitted -/

variable {g : Stage} {id : Nat} {st : Step} {result : Result}

/-- No step is at the worker while the model is not busy. -/
theorem Queued.idle (h : Queued patient s) (hbusy : s.busy = [])
    (hid : s.tasks.Holds id (.work st g)) : g = .delivered := by
  by_contra hg
  exact h.busy.mpr ⟨id, st, g, hid, hg⟩ hbusy

theorem job_name_ne_nil (job : Job) : job.name ≠ [] := by
  cases job with
  | plain p =>
    cases p with
    | prepare | install | store | indexes | log => decide
  | list => decide
  | enable pluginId enabled => exact (by decide : "enable".toList ≠ [])
  | remove pluginId => exact (by decide : "remove".toList ≠ [])
  | loadConfig m opening generation status => exact (by decide : "config".toList ≠ [])
  | saveConfig m opening values => exact (by decide : "config".toList ≠ [])
  | testConfig m opening values => exact (by decide : "test".toList ≠ [])
  | signIn m attempt values => exact (by decide : "login".toList ≠ [])
  | action m opening generation actionId => exact (by decide : "action".toList ≠ [])

/-- A step that is in no queue is handed to the runner while none is at the worker. -/
theorem Queued.startStep {queue : List Step} {steps : Nat} (h : Queued patient s)
    (hbusy : s.busy = []) (hsub : queue.Sublist s.queue) (hsteps : s.steps ≤ steps)
    (hnumber : st.number < steps) (hqueue : ∀ w ∈ queue, w.number ≠ st.number)
    (hfresh : ∀ id st' g, s.tasks.Holds id (.work st' g) → st'.number ≠ st.number)
    (hran : ∀ n, (∃ w ∈ s.ran, w.number = n) ↔ n < steps ∧ (∀ w ∈ queue, w.number ≠ n) ∧
      n ≠ st.number)
    (hdue : patient → st.user = true → ∀ n < st.number, ∃ w ∈ s.ran, w.number = n) :
    Queued patient ({ s with queue, steps }.startStep st) := by
  have hholds : ∀ id st' g, ({ s with queue, steps }.startStep st).tasks.Holds id (.work st' g) ↔
      (id = s.tasks.next ∧ st' = st ∧ g = .submitted) ∨ s.tasks.Holds id (.work st' g) := by
    intro id st' g
    show (s.tasks.put (.work st .submitted)).Holds id (.work st' g) ↔ _
    rw [Slots.holds_put, Task.work.injEq]
  have hworking : ∀ id st' g, ({ s with queue, steps }.startStep st).tasks.Holds id (.work st' g) → g ≠ .delivered →
      id = s.tasks.next ∧ st' = st ∧ g = .submitted := by
    intro id st' g hid hg
    rcases (hholds id st' g).mp hid with hid | hid
    · exact hid
    · exact absurd (h.idle hbusy hid) hg
  constructor
  · intro w hw
    exact lt_of_lt_of_le (h.below w (hsub.subset hw)) hsteps
  · exact h.sorted.sublist hsub
  · intro id st' g hid
    rcases (hholds id st' g).mp hid with ⟨-, rfl, -⟩ | hid
    · exact ⟨hnumber, hqueue⟩
    obtain ⟨hlt, hne⟩ := h.out id st' g hid
    exact ⟨lt_of_lt_of_le hlt hsteps, fun w hw => hne w (hsub.subset hw)⟩
  · intro i j st1 st2 g g' hi hj hsame
    rcases (hholds i st1 g).mp hi with ⟨hi, hst, -⟩ | hi
    · rcases (hholds j st2 g').mp hj with ⟨hj, -, -⟩ | hj
      · rw [hi, hj]
      rw [hst] at hsame
      exact absurd hsame.symm (hfresh j st2 g' hj)
    rcases (hholds j st2 g').mp hj with ⟨hj, hst, -⟩ | hj
    · rw [hst] at hsame
      exact absurd hsame (hfresh i st1 g hi)
    · exact h.once i j st1 st2 g g' hi hj hsame
  · intro i j st1 st2 g g' hi hg hj hg'
    rw [(hworking i st1 g hi hg).1, (hworking j st2 g' hj hg').1]
  · refine iff_of_true (job_name_ne_nil st.job) ?_
    exact ⟨s.tasks.next, st, .submitted, (hholds _ _ _).mpr (.inl ⟨rfl, rfl, rfl⟩),
      Stage.noConfusion⟩
  · intro n
    show (∃ w ∈ s.ran, w.number = n) ↔ _
    rw [hran n]
    refine and_congr_right (fun _ => and_congr_right (fun _ => ?_))
    constructor
    · intro hne id st' hid
      rw [(hworking id st' .submitted hid Stage.noConfusion).2.1]
      exact Ne.symm hne
    · intro hall
      exact Ne.symm (hall s.tasks.next st ((hholds _ _ _).mpr (.inl ⟨rfl, rfl, rfl⟩)))
  · exact h.nodup
  · exact h.order
  · intro hp id st' hid huser
    rw [(hworking id st' .submitted hid Stage.noConfusion).2.1] at huser ⊢
    exact hdue hp huser

/-- The step counter goes on, for a step that is nowhere yet. -/
theorem Queued.not_counted (h : Queued patient s) : (∀ w ∈ s.queue, w.number ≠ s.steps) ∧
    (∀ id st g, s.tasks.Holds id (.work st g) → st.number ≠ s.steps) ∧
    ∀ w ∈ s.ran, w.number ≠ s.steps := by
  refine ⟨?_, ?_, ?_⟩
  · intro w hw
    have hlt := h.below w hw
    omega
  · intro id st g hid
    have hlt := (h.out id st g hid).1
    omega
  · intro w hw hsame
    have hlt := ((h.ran s.steps).mp ⟨w, hw, hsame⟩).1
    omega

theorem Queued.work (h : Queued patient s) {user : Bool} (job : Job)
    (hready : patient → user = true → Ready s) : Queued patient (s.work user job) := by
  obtain ⟨hqueue, htasks, hran⟩ := h.not_counted
  unfold State.work
  by_cases hbusy : s.busy ≠ []
  · rw [if_pos hbusy]
    constructor
    · intro st hst
      rcases List.mem_append.mp hst with hst | hst
      · exact Nat.lt_succ_of_lt (h.below st hst)
      rw [List.mem_singleton.mp hst]
      exact Nat.lt_succ_self _
    · refine List.pairwise_append.mpr ⟨h.sorted, List.pairwise_singleton _ _, ?_⟩
      intro st hst st' hst'
      rw [List.mem_singleton.mp hst']
      exact h.below st hst
    · intro id st g hid
      obtain ⟨hlt, hne⟩ := h.out id st g hid
      refine ⟨Nat.lt_succ_of_lt hlt, fun w hw => ?_⟩
      rcases List.mem_append.mp hw with hw | hw
      · exact hne w hw
      rw [List.mem_singleton.mp hw]
      exact Ne.symm (htasks id st g hid)
    · exact h.once
    · exact h.one
    · exact h.busy
    · intro n
      show (∃ st ∈ s.ran, st.number = n) ↔ n < s.steps + 1 ∧
        (∀ w ∈ s.queue ++ [⟨s.steps, user, job⟩], w.number ≠ n) ∧ _
      rw [h.ran n]
      constructor
      · rintro ⟨hlt, hne, hout⟩
        refine ⟨by omega, fun w hw => ?_, hout⟩
        rcases List.mem_append.mp hw with hw | hw
        · exact hne w hw
        rw [List.mem_singleton.mp hw]
        show s.steps ≠ n
        omega
      · rintro ⟨hlt, hne, hout⟩
        have hlast : s.steps ≠ n :=
          hne ⟨s.steps, user, job⟩ (List.mem_append_right _ (List.mem_singleton_self _))
        exact ⟨by omega, fun w hw => hne w (List.mem_append_left _ hw), hout⟩
    · exact h.nodup
    · exact h.order
    · exact h.due
  · rw [if_neg hbusy]
    rw [not_not] at hbusy
    have hcounted : ∀ n, (∃ w ∈ s.ran, w.number = n) ↔
        n < s.steps ∧ ∀ w ∈ s.queue, w.number ≠ n := by
      intro n
      rw [h.ran n]
      refine and_congr_right (fun _ => and_iff_left ?_)
      intro id st hid
      exact absurd (h.idle hbusy hid) Stage.noConfusion
    refine Queued.startStep h hbusy (List.Sublist.refl _) (Nat.le_succ _) (Nat.lt_succ_self _)
      hqueue htasks ?_ ?_
    · intro n
      rw [hcounted n]
      constructor
      · rintro ⟨hlt, hne⟩
        exact ⟨by omega, hne, by show n ≠ s.steps; omega⟩
      · rintro ⟨hlt, hne, hself⟩
        have hself : n ≠ s.steps := hself
        exact ⟨by omega, hne⟩
    · intro hp huser n hn
      rw [hcounted n]
      refine ⟨hn, fun w hw => ?_⟩
      rw [hready hp huser hbusy] at hw
      exact absurd hw List.not_mem_nil

/-- The first step that waits is handed to the runner. -/
theorem Queued.nextStep (h : Queued patient s) : Queued patient s.nextStep := by
  unfold State.nextStep
  split
  · exact h
  rename_i st queue hq
  split
  · rename_i hbusy
    have hsorted := h.sorted
    rw [hq] at hsorted
    obtain ⟨hfirst, -⟩ := List.pairwise_cons.mp hsorted
    have hin : st ∈ s.queue := by
      rw [hq]
      exact .head _
    refine Queued.startStep h hbusy (hq ▸ List.sublist_cons_self st queue) le_rfl
      (h.below st hin) ?_ ?_ ?_ ?_
    · intro w hw
      exact (hfirst w hw).ne'
    · intro id st' g hid
      exact Ne.symm ((h.out id st' g hid).2 st hin)
    · intro n
      rw [h.ran n, hq]
      constructor
      · rintro ⟨hlt, hne, -⟩
        exact ⟨hlt, fun w hw => hne w (.tail _ hw), Ne.symm (hne st (.head _))⟩
      rintro ⟨hlt, hne, hself⟩
      refine ⟨hlt, fun w hw => ?_, fun id st' hid => ?_⟩
      · rcases List.mem_cons.mp hw with rfl | hw
        · exact Ne.symm hself
        · exact hne w hw
      · exact absurd (h.idle hbusy hid) Stage.noConfusion
    · intro _ _ n hn
      rw [h.ran n, hq]
      refine ⟨lt_trans hn (h.below st hin), fun w hw => ?_, fun id st' hid => ?_⟩
      · rcases List.mem_cons.mp hw with rfl | hw
        · exact hn.ne'
        have hlt := hfirst w hw
        omega
      · exact absurd (h.idle hbusy hid) Stage.noConfusion
  · exact h

/-! ## The runner -/

/-- A task of the steps after a change of stage. -/
theorem holds_withStage {tasks : Slots Task} {j : Nat} {g' : Stage} :
    (tasks.modify id (Task.withStage g)).Holds j (.work st g') ↔
      (j = id ∧ g' = g ∧ ∃ g₀, tasks.Holds id (.work st g₀)) ∨
        (j ≠ id ∧ tasks.Holds j (.work st g')) := by
  rw [Slots.holds_modify]
  refine or_congr_left (and_congr_right (fun _ => ?_))
  constructor
  · rintro ⟨task, htask, heq⟩
    cases task with
    | work st₀ g₀ =>
      obtain ⟨rfl, rfl⟩ := Task.work.inj heq
      exact ⟨rfl, g₀, htask⟩
    | quiet job g₀ => exact absurd heq Task.noConfusion
  · rintro ⟨rfl, g₀, htask⟩
    exact ⟨_, htask, rfl⟩

/-- The worker runs a step. -/
theorem Queued.run {flows : List FlowEvent}
    (h : Queued patient s) (hid : s.tasks.Holds id (.work st .submitted)) : Queued patient { s with
      tasks := s.tasks.modify id (Task.withStage (.ran result)), ran := st :: s.ran, flows } := by
  have hback : ∀ j st' g, (s.tasks.modify id (Task.withStage (.ran result))).Holds j
      (.work st' g) → ∃ g', s.tasks.Holds j (.work st' g') ∧ (g ≠ .delivered → g' ≠ .delivered) ∧
        (g = .submitted → g' = .submitted ∧ j ≠ id) := by
    intro j st' g hj
    rcases holds_withStage.mp hj with ⟨rfl, rfl, g₀, hold⟩ | ⟨hne, hj⟩
    · refine ⟨.submitted, ?_, fun _ => Stage.noConfusion, Stage.noConfusion⟩
      obtain ⟨rfl, -⟩ := Task.work.inj (hold.unique hid)
      exact hid
    · exact ⟨g, hj, fun hg => hg, fun hg => ⟨hg, hne⟩⟩
  have hnew : st.number < s.steps ∧ ∀ w ∈ s.queue, w.number ≠ st.number := h.out id st _ hid
  constructor
  · exact h.below
  · exact h.sorted
  · intro j st' g hj
    obtain ⟨g', hj', -⟩ := hback j st' g hj
    exact h.out j st' g' hj'
  · intro i j st1 st2 g g' hi hj hsame
    obtain ⟨g1, hi', -⟩ := hback i st1 g hi
    obtain ⟨g2, hj', -⟩ := hback j st2 g' hj
    exact h.once i j st1 st2 g1 g2 hi' hj' hsame
  · intro i j st1 st2 g g' hi hg hj hg'
    obtain ⟨g1, hi', hg1, -⟩ := hback i st1 g hi
    obtain ⟨g2, hj', hg2, -⟩ := hback j st2 g' hj
    exact h.one i j st1 st2 g1 g2 hi' (hg1 hg) hj' (hg2 hg')
  · refine iff_of_true ?_ ?_
    · exact h.busy.mpr ⟨id, st, .submitted, hid, Stage.noConfusion⟩
    · exact ⟨id, st, .ran result, holds_withStage.mpr (Or.inl ⟨rfl, rfl, .submitted, hid⟩),
        Stage.noConfusion⟩
  · intro n
    show (∃ w ∈ st :: s.ran, w.number = n) ↔ _
    rw [List.exists_mem_cons_iff, h.ran n]
    constructor
    · rintro (rfl | ⟨hlt, hne, hout⟩)
      · refine ⟨hnew.1, hnew.2, fun j st' hj hsame => ?_⟩
        obtain ⟨g', hj', -, hsub⟩ := hback j st' .submitted hj
        exact (hsub rfl).2 (h.once j id st' st g' .submitted hj' hid hsame)
      · refine ⟨hlt, hne, fun j st' hj => ?_⟩
        obtain ⟨g', hj', -, hsub⟩ := hback j st' .submitted hj
        rw [(hsub rfl).1] at hj'
        exact hout j st' hj'
    rintro ⟨hlt, hne, hout⟩
    by_cases hsame : st.number = n
    · exact Or.inl hsame
    refine Or.inr ⟨hlt, hne, fun j st' hj => ?_⟩
    by_cases hj' : j = id
    · subst hj'
      rw [← (Task.work.inj (hid.unique hj)).1]
      exact hsame
    · exact hout j st' (holds_withStage.mpr (Or.inr ⟨hj', hj⟩))
  · show ((st :: s.ran).map Step.number).Nodup
    refine List.nodup_cons.mpr ⟨fun hin => ?_, h.nodup⟩
    obtain ⟨w, hw, hsame⟩ := List.mem_map.mp hin
    exact ((h.ran st.number).mp ⟨w, hw, hsame⟩).2.2 id st hid rfl
  · intro hp later st' earlier heq huser n hn
    cases later with
    | nil =>
      obtain ⟨rfl, rfl⟩ := List.cons.inj heq
      exact h.due hp id st hid huser n hn
    | cons w later => exact h.order hp later st' earlier (List.cons.inj heq).2 huser n hn
  · intro hp j st' hj huser n hn
    obtain ⟨g', hj', -, hsub⟩ := hback j st' .submitted hj
    rw [(hsub rfl).1] at hj'
    obtain ⟨w, hw, hsame⟩ := h.due hp j st' hj' huser n hn
    exact ⟨w, List.mem_cons_of_mem _ hw, hsame⟩

/-- The result of a step has come, and the model is not busy any more. -/
def State.answered (s : State) (id : Nat) : State := { s.marked id with busy := [] }

theorem Queued.answered (h : Queued patient s)
    (hid : s.tasks.Holds id (.work st (.ran result))) : Queued patient (s.answered id) := by
  have hback : ∀ j st' g, (s.answered id).tasks.Holds j (.work st' g) →
      ∃ g', s.tasks.Holds j (.work st' g') ∧ (g ≠ .delivered → g' = g ∧ j ≠ id) := by
    intro j st' g hj
    rcases holds_withStage.mp hj with ⟨rfl, rfl, g₀, hold⟩ | ⟨hne, hj⟩
    · exact ⟨g₀, hold, fun hg => absurd rfl hg⟩
    · exact ⟨g, hj, fun _ => ⟨rfl, hne⟩⟩
  have hfree : ∀ j st' g, (s.answered id).tasks.Holds j (.work st' g) → g = .delivered := by
    intro j st' g hj
    by_contra hg
    obtain ⟨g', hj', hsame⟩ := hback j st' g hj
    obtain ⟨rfl, hne⟩ := hsame hg
    exact hne (h.one j id st' st g' _ hj' hg hid Stage.noConfusion)
  constructor
  · exact h.below
  · exact h.sorted
  · intro j st' g hj
    obtain ⟨g', hj', -⟩ := hback j st' g hj
    exact h.out j st' g' hj'
  · intro i j st1 st2 g g' hi hj hsame
    obtain ⟨g1, hi', -⟩ := hback i st1 g hi
    obtain ⟨g2, hj', -⟩ := hback j st2 g' hj
    exact h.once i j st1 st2 g1 g2 hi' hj' hsame
  · intro i j st1 st2 g g' hi hg
    exact absurd (hfree i st1 g hi) hg
  · refine iff_of_false (fun hbusy => hbusy rfl) ?_
    rintro ⟨j, st', g, hj, hg⟩
    exact hg (hfree j st' g hj)
  · intro n
    show (∃ w ∈ s.ran, w.number = n) ↔ _
    rw [h.ran n]
    refine and_congr_right (fun _ => and_congr_right (fun _ => iff_of_true ?_ ?_))
    · intro j st' hj
      have hsame := h.one j id st' st _ _ hj Stage.noConfusion hid Stage.noConfusion
      subst hsame
      exact absurd (Task.work.inj (hj.unique hid)).2 Stage.noConfusion
    · intro j st' hj
      exact absurd (hfree j st' _ hj) Stage.noConfusion
  · exact h.nodup
  · exact h.order
  · intro _ j st' hj
    exact absurd (hfree j st' _ hj) Stage.noConfusion

/-- The end of a step has come. -/
theorem Queued.dropped {task : Task} (h : Queued patient s) (hid : s.tasks.Holds id task)
    (hdone : ∀ st g, task = .work st g → g = .delivered) : Queued patient (s.dropTask id) := by
  have hback : ∀ j st' g, (s.dropTask id).tasks.Holds j (.work st' g) ↔
      j ≠ id ∧ s.tasks.Holds j (.work st' g) := fun j st' g => Slots.holds_take
  have hstays : ∀ j st' g, s.tasks.Holds j (.work st' g) → g ≠ .delivered → j ≠ id := by
    intro j st' g hj hg hsame
    subst hsame
    exact hg (hdone st' g (hid.unique hj))
  constructor
  · exact h.below
  · exact h.sorted
  · intro j st' g hj
    exact h.out j st' g ((hback j st' g).mp hj).2
  · intro i j st1 st2 g g' hi hj hsame
    exact h.once i j st1 st2 g g' ((hback i st1 g).mp hi).2 ((hback j st2 g').mp hj).2 hsame
  · intro i j st1 st2 g g' hi hg hj hg'
    exact h.one i j st1 st2 g g' ((hback i st1 g).mp hi).2 hg ((hback j st2 g').mp hj).2 hg'
  · show s.busy ≠ [] ↔ _
    rw [h.busy]
    constructor
    · rintro ⟨j, st', g, hj, hg⟩
      exact ⟨j, st', g, (hback j st' g).mpr ⟨hstays j st' g hj hg, hj⟩, hg⟩
    · rintro ⟨j, st', g, hj, hg⟩
      exact ⟨j, st', g, ((hback j st' g).mp hj).2, hg⟩
  · intro n
    show (∃ w ∈ s.ran, w.number = n) ↔ _
    rw [h.ran n]
    refine and_congr_right (fun _ => and_congr_right (fun _ => ?_))
    constructor
    · intro hall j st' hj
      exact hall j st' ((hback j st' _).mp hj).2
    · intro hall j st' hj
      exact hall j st' ((hback j st' _).mpr ⟨hstays j st' _ hj Stage.noConfusion, hj⟩)
  · exact h.nodup
  · exact h.order
  · intro hp j st' hj
    exact h.due hp j st' ((hback j st' _).mp hj).2

/-! ## The handlers -/

theorem alike_of_tasks (h : (s'.queue, s'.busy, s'.steps, s'.ran, s'.tasks) =
    (s.queue, s.busy, s.steps, s.ran, s.tasks)) : Alike s s' := by
  simp only [Prod.mk.injEq] at h
  obtain ⟨hqueue, hbusy, hsteps, hran, htasks⟩ := h
  exact ⟨hqueue, hbusy, hsteps, hran, fun _ _ _ => by rw [htasks]⟩

section

variable (s : State)

theorem alike_updateForm (f : Form → Form) : Alike s (s.updateForm f) := alike_of_tasks rfl

theorem alike_setStatus (kind : StatusKind) (ok : Bool) (text : Str) (pending : Bool) :
    Alike s (s.setStatus kind ok text pending) := alike_updateForm s _

theorem alike_forgetLogin : Alike s s.forgetLogin := alike_of_tasks rfl

theorem alike_stopLogin : Alike s s.stopLogin := by
  unfold State.stopLogin
  split
  · exact alike_forgetLogin s
  split
  · exact alike_forgetLogin s
  · exact (alike_forgetLogin s).trans (alike_start _ _)

theorem alike_dropForm : Alike s s.dropForm := alike_of_tasks rfl

theorem alike_closeConfig : Alike s s.closeConfig := (alike_stopLogin s).trans (alike_dropForm _)

section

variable (m : Manifest)

theorem alike_showForm : Alike s (s.showForm m) := alike_of_tasks rfl

theorem alike_keepForm : Alike s s.keepForm := alike_of_tasks rfl

theorem alike_tellDone (message : Str) (ok : Bool) : Alike s (s.tellDone message ok) := by
  unfold State.tellDone
  split
  · exact Alike.refl s
  · exact alike_of_tasks rfl

theorem alike_loadConfigDone (opening generation : Nat) (status : Option Status)
    (values : Values) : Alike s (s.loadConfigDone m opening generation status values) := by
  unfold State.loadConfigDone
  split
  · exact alike_of_tasks rfl
  · exact Alike.refl s

theorem alike_loadConfigFailed (generation : Nat) (text : Str) :
    Alike s (s.loadConfigFailed m generation text) := by
  unfold State.loadConfigFailed
  split
  · exact alike_updateForm s _
  · exact Alike.refl s

theorem alike_testConfigDone (ok : Bool) (errors : Values)
    (message : Str) : Alike s (s.testConfigDone m ok errors message) := by
  unfold State.testConfigDone
  split
  · exact alike_updateForm s _
  · exact Alike.refl s

theorem alike_testConfigFailed (text : Str) : Alike s (s.testConfigFailed m text) := by
  unfold State.testConfigFailed
  split
  · exact alike_setStatus s _ _ _ _
  · exact Alike.refl s

end

end

section

variable (v : View) (s : State)

theorem alike_follow (attempt : Attempt) (step : LoginStep) :
    Alike s (s.follow v attempt step) := alike_of_tasks rfl

theorem alike_signInFailed (s : State) (attempt : Attempt) (text : Str) :
    Alike s (s.signInFailed attempt text) := by
  unfold State.signInFailed
  split
  · exact alike_of_tasks rfl
  · exact Alike.refl s

theorem alike_actionFailed (s : State) (m : Manifest) (generation : Nat) (text : Str) :
    Alike s (s.actionFailed m generation text) := by
  unfold State.actionFailed
  split
  · exact alike_setStatus s _ _ _ _
  · exact Alike.refl s

theorem alike_pollFailed (attempt : Option Attempt) (message : Str) :
    Alike s (s.pollFailed v attempt message) := by
  unfold State.pollFailed
  split
  · exact alike_of_tasks rfl
  · exact Alike.refl s

theorem alike_pollLogin : Alike s (s.pollLogin v) := by
  unfold State.pollLogin
  split
  · exact Alike.refl s
  split
  · exact alike_stopLogin s
  split
  · exact (alike_stopLogin s).trans (alike_setStatus _ _ _ _ _)
  refine Alike.trans ?_ (alike_start _ _)
  exact alike_of_tasks rfl

theorem alike_cancelSignIn : Alike s (s.cancelSignIn v) := by
  unfold State.cancelSignIn
  split
  · exact alike_stopLogin s
  · exact (alike_stopLogin s).trans (alike_setStatus _ _ _ _ _)

end

/-! ## The steps are driven on -/

/-- What every step of the model keeps. -/
structure Steady (patient : Prop) (s : State) : Prop where
  queued : Queued patient s
  driven : Driven s

theorem steady_start (patient : Prop) : Steady patient {} := ⟨queued_start patient, driven_start⟩

theorem Alike.steady (h : Alike s s') (hs : Steady patient s) : Steady patient s' :=
  ⟨h.queued hs.queued, h.driven hs.driven⟩

/-- While the model is busy, the end of a step is still to come. -/
theorem Queued.driven_of_busy (h : Queued patient s) (hbusy : s.busy ≠ []) :
    ∃ id st g, s.tasks.Holds id (.work st g) := by
  obtain ⟨id, st, g, hid, -⟩ := h.busy.mp hbusy
  exact ⟨id, st, g, hid⟩

theorem holds_startStep (s : State) (st : Step) :
    (s.startStep st).tasks.Holds s.tasks.next (.work st .submitted) :=
  Slots.holds_put.mpr (.inl ⟨rfl, rfl⟩)

theorem Steady.work (h : Steady patient s) {user : Bool} (job : Job)
    (hready : patient → user = true → Ready s) : Steady patient (s.work user job) := by
  refine ⟨h.queued.work job hready, ?_⟩
  intro _
  unfold State.work
  by_cases hbusy : s.busy ≠ []
  · rw [if_pos hbusy]
    exact h.queued.driven_of_busy hbusy
  rw [if_neg hbusy]
  exact ⟨_, _, _, holds_startStep _ _⟩

/-- A completion may submit a step at any time. -/
theorem Steady.follows (h : Steady patient s) (job : Job) : Steady patient (s.work false job) :=
  h.work job (fun _ hfalse => absurd hfalse Bool.false_ne_true)

theorem Queued.driven_nextStep (h : Queued patient s) : Driven s.nextStep := by
  unfold State.nextStep
  split
  · rename_i hq
    exact fun hne => absurd hq hne
  split
  · exact fun _ => ⟨_, _, _, holds_startStep _ _⟩
  rename_i hbusy
  exact fun _ => h.driven_of_busy hbusy

theorem Steady.reloadConfig (h : Steady patient s) (pluginId : Str) : Steady patient (s.reloadConfig pluginId) := by
  unfold State.reloadConfig
  split
  · exact h
  split
  · exact h
  · exact Steady.follows ((alike_keepForm s).steady h) _

theorem Steady.saveConfigDone (h : Steady patient s) (m : Manifest) (ok : Bool) (errors : Values) :
    Steady patient (s.saveConfigDone m ok errors) := by
  unfold State.saveConfigDone
  split
  · have hsaid : ∀ message, Steady patient (s.say message true) := fun message =>
      (alike_of_tasks rfl : Alike s (s.say message true)).steady h
    split
    · exact Steady.follows ((alike_closeConfig _).steady (hsaid _)) .list
    · exact Steady.follows (hsaid _) .list
  · split
    · exact (alike_updateForm s _).steady h
    · exact h

theorem Steady.loginFinished (v : View) (h : Steady patient s) (pluginId : Str) (step : LoginStep) :
    Steady patient (s.loginFinished v pluginId step) := by
  unfold State.loginFinished
  dsimp only
  have hended : ∀ kind ok text pending,
      Steady patient ({ s with attempt := none }.setStatus kind ok text pending) := by
    intro kind ok text pending
    refine Alike.steady ?_ h
    exact alike_of_tasks rfl
  split
  · exact Steady.follows ((hended _ _ _ _).reloadConfig pluginId) .list
  · exact hended _ _ _ _

theorem Steady.signInDone (v : View) (h : Steady patient s) (m : Manifest) (attempt : Attempt)
    (step : LoginStep) : Steady patient (s.signInDone v m attempt step) := by
  unfold State.signInDone
  split
  · split
    · exact (alike_start s _).steady h
    · exact h
  · split
    · exact (alike_follow v s attempt step).steady h
    · exact h.loginFinished v _ _

theorem Steady.pollDone (v : View) (h : Steady patient s) (m : Manifest) (attempt : Option Attempt)
    (step : LoginStep) : Steady patient (s.pollDone v m attempt step) := by
  unfold State.pollDone
  split
  · exact h
  split
  · refine Steady.loginFinished v ?_ _ _
    exact (alike_of_tasks rfl : Alike s { s with login := none }).steady h
  · exact (alike_of_tasks rfl : Alike s { s with timer := true }).steady h

theorem Steady.actionDone (v : View) (h : Steady patient s) (m : Manifest) (generation : Nat)
    (result : Option (Bool × Str × Str)) : Steady patient (s.actionDone v m generation result) := by
  unfold State.actionDone
  split
  · exact h
  rename_i ok message uri
  split
  · exact h
  have hopened : Steady patient (if ok ∧ uri ≠ [] then s.openPage uri else s) := by
    split
    · exact (alike_of_tasks rfl : Alike s (s.openPage uri)).steady h
    · exact h
  exact Steady.follows (((alike_setStatus _ _ _ _ _).steady hopened).reloadConfig m.id) .list

theorem Steady.stepDone (v : View) (h : Steady patient s) (job : Job) (result : Result) :
    Steady patient (s.stepDone v job result) := by
  unfold State.stepDone
  split
  · refine Alike.steady ?_ h
    exact alike_of_tasks rfl
  · exact Steady.follows ((alike_tellDone s _ _).steady h) .list
  · exact Steady.follows ((alike_tellDone s _ _).steady h) .list
  · exact (alike_loadConfigDone s _ _ _ _ _).steady h
  · exact h.saveConfigDone _ _ _
  · exact (alike_testConfigDone s _ _ _ _).steady h
  · exact h.signInDone v _ _ _
  · exact h.actionDone v _ _ _
  · exact Steady.follows (Steady.follows ((alike_tellDone s _ _).steady h) .list) _
  · exact Steady.follows ((alike_tellDone s _ _).steady h) _
  · exact (alike_tellDone s _ _).steady h
  · exact h

theorem alike_stepFailed (s : State) (job : Job) (text : Str) : Alike s (s.stepFailed job text) := by
  unfold State.stepFailed
  split
  · exact alike_loadConfigFailed s _ _ _
  · exact alike_testConfigFailed s _ _
  · exact alike_signInFailed s _ _
  · exact alike_actionFailed s _ _ _
  · exact alike_of_tasks rfl

/-- The completion of a step. -/
theorem Steady.deliverStep (v : View) {result' : Result}
    (h : Steady patient s) (hid : s.tasks.Holds id (.work st (.ran result))) :
    Steady patient ((s.marked id).deliverStep v st.job result') := by
  have hanswered : Steady patient (s.answered id) := by
    refine ⟨h.queued.answered hid, fun _ => ⟨id, st, .delivered, ?_⟩⟩
    exact holds_withStage.mpr (.inl ⟨rfl, rfl, _, hid⟩)
  have hfailed : ∀ name, Steady patient { s.marked id with busy := [], failedStep := name } := fun name =>
    (alike_of_tasks rfl :
      Alike (s.answered id) { s.marked id with busy := [], failedStep := name }).steady hanswered
  unfold State.deliverStep
  split
  · exact (alike_stepFailed _ _ _).steady (hfailed _)
  · exact (alike_stepFailed _ _ _).steady (hfailed _)
  · exact hanswered.stepDone v _ _

/-- What becomes of a quiet task leaves the steps as they are. -/
theorem alike_quiet {job : Quiet} {tasks : Slots Task}
    (hid : s.tasks.Holds id (.quiet job g)) (hout : ∀ j task, j ≠ id →
      (tasks.Holds j task ↔ s.tasks.Holds j task))
    (hin : ∀ st g, ¬ tasks.Holds id (.work st g)) : Alike s { s with tasks } where
  queue := rfl
  busy := rfl
  steps := rfl
  ran := rfl
  work := by
    intro j st g'
    by_cases hj : j = id
    · subst hj
      exact iff_of_false (hin st g') (fun h => absurd (h.unique hid) Task.noConfusion)
    · exact hout j _ hj

theorem alike_withStage {job : Quiet} {g' : Stage} (hid : s.tasks.Holds id (.quiet job g)) :
    Alike s { s with tasks := s.tasks.modify id (Task.withStage g') } := by
  refine alike_quiet hid ?_ ?_
  · intro j task hj
    rw [Slots.holds_modify]
    constructor
    · rintro (⟨hsame, -⟩ | ⟨-, h⟩)
      · exact absurd hsame hj
      · exact h
    · exact fun h => .inr ⟨hj, h⟩
  · intro st g₀ h
    rcases holds_withStage.mp h with ⟨-, -, g₁, hold⟩ | ⟨hne, -⟩
    · exact absurd (hold.unique hid) Task.noConfusion
    · exact hne rfl

theorem Steady.deliverQuiet (v : View) {job : Quiet}
    (h : Steady patient s) (hid : s.tasks.Holds id (.quiet job g)) :
    Steady patient ((s.marked id).deliverQuiet v job result) := by
  have hmarked : Steady patient (s.marked id) := (alike_withStage hid).steady h
  unfold State.deliverQuiet
  split
  · exact hmarked.pollDone v _ _ _
  · exact (alike_pollFailed v _ _ _).steady hmarked
  · exact (alike_pollFailed v _ _ _).steady hmarked
  · exact hmarked

theorem Steady.runTask (h : Steady patient s) (id : Nat) (answer : Result) :
    Steady patient (s.runTask id answer) := by
  unfold State.runTask
  split
  · rename_i st hid
    split
    · exact h
    refine ⟨h.queued.run hid, fun _ => ⟨id, st, .ran (s.runStep st.job answer), ?_⟩⟩
    exact holds_withStage.mpr (.inl ⟨rfl, rfl, _, hid⟩)
  · rename_i job hid
    split
    · exact h
    refine Alike.steady ?_ h
    exact (alike_withStage hid).trans (alike_of_tasks rfl)
  · exact h

theorem Steady.deliver (v : View) (h : Steady patient s) (id : Nat) : Steady patient (s.deliver v id) := by
  unfold State.deliver
  split
  · rename_i st result hid
    exact h.deliverStep v hid
  · rename_i job result hid
    exact h.deliverQuiet v hid
  · exact h

theorem Steady.finish (h : Steady patient s) (id : Nat) : Steady patient (s.finish id) := by
  unfold State.finish
  split
  · rename_i st hid
    have hdropped : Queued patient (s.dropTask id) := by
      refine h.queued.dropped hid (fun st' g heq => ?_)
      exact (Task.work.inj heq).2.symm
    exact ⟨hdropped.nextStep, hdropped.driven_nextStep⟩
  · rename_i job hid
    refine Alike.steady (alike_quiet hid ?_ ?_) h
    · intro j task hj
      rw [Slots.holds_take]
      exact and_iff_right hj
    · intro st g hj
      exact (Slots.holds_take.mp hj).1 rfl
  · exact h

/-! ## What the user does -/

/-- The user's action submits a step. -/
def Input.submits (v : View) (s : State) : Input → Bool
  | .load => true
  | .setEnabled .. => true
  | .remove _ => true
  | .plain _ => true
  | .loadConfig pluginId =>
    (s.find pluginId).any (fun m => m.configurable) && decide (pluginId ∉ s.disabled)
  | .saveConfig pluginId raw =>
    (s.current pluginId).any (fun m => s.formLoaded && decide ((v.parseForm m raw).2 = []))
  | .testConfig pluginId raw =>
    (s.current pluginId).any (fun m => m.configTest && s.formLoaded &&
      decide ((v.parseForm m raw).2 = []))
  | .signIn pluginId _ => (s.current pluginId).isSome && s.formLoaded
  | .runAction pluginId actionId =>
    (s.current pluginId).any (fun m => decide (actionId ∈ m.actions) && s.formLoaded &&
      !s.statusPending)
  | _ => false

/-- The user submits no step between the result of one and its end, while others wait. -/
def Patient (v : View) (s : State) (i : Input) : Prop := i.submits v s = true → Ready s

variable {v : View}

section

variable (h : Steady patient s)
include h

theorem Steady.loadConfig (pluginId : Str)
    (hready : patient → Patient v s (.loadConfig pluginId)) : Steady patient (s.loadConfig pluginId) := by
  unfold State.loadConfig
  cases hm : s.find pluginId with
  | none => exact h
  | some m =>
    dsimp only
    split
    · exact h
    rename_i hopen
    obtain ⟨hconfigurable, henabled⟩ := not_or.mp hopen
    have hshown := (alike_stopLogin s).trans (alike_showForm s.stopLogin m)
    refine Steady.work (hshown.steady h) _ (fun hp _ => hshown.ready (hready hp ?_))
    simp [Input.submits, hm, hconfigurable, henabled]

theorem Steady.saveConfig (pluginId : Str) (raw : Values)
    (hready : patient → Patient v s (.saveConfig pluginId raw)) : Steady patient (s.saveConfig v pluginId raw) := by
  unfold State.saveConfig
  cases hm : s.current pluginId with
  | none => exact h
  | some m =>
    dsimp only
    split
    · exact h
    rename_i hloaded
    split
    · exact (alike_updateForm s _).steady h
    rename_i herrors
    refine Steady.work h _ (fun hp _ => hready hp ?_)
    simp [Input.submits, hm, hloaded, not_not.mp herrors]

theorem Steady.testConfig (pluginId : Str) (raw : Values)
    (hready : patient → Patient v s (.testConfig pluginId raw)) : Steady patient (s.testConfig v pluginId raw) := by
  unfold State.testConfig
  cases hm : s.current pluginId with
  | none => exact h
  | some m =>
    dsimp only
    split
    · exact h
    rename_i hopen
    obtain ⟨htest, hloaded⟩ := not_or.mp hopen
    split
    · exact (alike_updateForm s _).steady h
    rename_i herrors
    have hset := alike_setStatus s .test true "Testing the connection…".toList true
    refine Steady.work (hset.steady h) _ (fun hp _ => hset.ready (hready hp ?_))
    simp [Input.submits, hm, htest, hloaded, not_not.mp herrors]

theorem Steady.signIn (pluginId : Str) (raw : Values)
    (hready : patient → Patient v s (.signIn pluginId raw)) : Steady patient (s.signIn v pluginId raw) := by
  unfold State.signIn
  cases hm : s.current pluginId with
  | none => exact h
  | some m =>
    dsimp only
    split
    · exact h
    rename_i hloaded
    have hset : ∀ attempt text, Alike s ({ s.stopLogin with
        attempt := attempt }.setStatus .login true text true) := by
      intro attempt text
      refine (alike_stopLogin s).trans ?_
      exact alike_of_tasks rfl
    refine Steady.work ((hset _ _).steady h) _ (fun hp _ => (hset _ _).ready (hready hp ?_))
    simp [Input.submits, hm, hloaded]

theorem Steady.runAction (pluginId actionId : Str)
    (hready : patient → Patient v s (.runAction pluginId actionId)) :
    Steady patient (s.runAction pluginId actionId) := by
  unfold State.runAction
  cases hm : s.current pluginId with
  | none => exact h
  | some m =>
    dsimp only
    split
    · exact h
    rename_i hopen
    obtain ⟨haction, hopen⟩ := not_or.mp hopen
    obtain ⟨hloaded, hpending⟩ := not_or.mp hopen
    have hset := alike_setStatus s .action true "Working…".toList true
    refine Steady.work (hset.steady h) _ (fun hp _ => hset.ready (hready hp ?_))
    simp [Input.submits, hm, not_not.mp haction, hloaded, hpending]

theorem Steady.setEnabled (hready : patient → Ready s) (pluginId : Str) (enabled : Bool) :
    Steady patient (s.setEnabled pluginId enabled) := by
  have hknown : Alike s (if enabled then s else { s with disabled := pluginId :: s.disabled }) := by
    split
    · exact Alike.refl s
    · exact alike_of_tasks rfl
  unfold State.setEnabled
  dsimp only
  split
  · have hclosed := hknown.trans (alike_closeConfig _)
    exact Steady.work (hclosed.steady h) _ (fun hp _ => hclosed.ready (hready hp))
  · exact Steady.work (hknown.steady h) _ (fun hp _ => hknown.ready (hready hp))

theorem Steady.remove (hready : patient → Ready s) (pluginId : Str) :
    Steady patient (s.remove pluginId) := by
  unfold State.remove
  split
  · have hclosed := alike_closeConfig s
    exact Steady.work (hclosed.steady h) _ (fun hp _ => hclosed.ready (hready hp))
  · exact Steady.work h _ (fun hp _ => hready hp)

/-- **Step lemma.** -/
theorem Steady.step (i : Input)
    (hready : patient → Patient v s i) : Steady patient (step v s i) := by
  cases i with
  | load => exact h.work .list (fun hp _ => hready hp rfl)
  | setEnabled pluginId enabled => exact h.setEnabled (fun hp => hready hp rfl) pluginId enabled
  | remove pluginId => exact h.remove (fun hp => hready hp rfl) pluginId
  | loadConfig pluginId => exact h.loadConfig pluginId hready
  | closeConfig => exact (alike_closeConfig s).steady h
  | saveConfig pluginId raw => exact h.saveConfig pluginId raw hready
  | testConfig pluginId raw => exact h.testConfig pluginId raw hready
  | signIn pluginId raw => exact h.signIn pluginId raw hready
  | cancelSignIn => exact (alike_cancelSignIn v s).steady h
  | runAction pluginId actionId => exact h.runAction pluginId actionId hready
  | plain p => exact h.work (.plain p) (fun hp _ => hready hp rfl)
  | discard => exact (alike_start s .discard).steady h
  | clearMessage =>
    refine Alike.steady ?_ h
    exact alike_of_tasks rfl
  | timerFires =>
    show Steady patient (if s.timer then { s with timer := false }.pollLogin v else s)
    split
    · refine Alike.steady (Alike.trans ?_ (alike_pollLogin v _)) h
      exact alike_of_tasks rfl
    · exact h
  | runs id answer => exact h.runTask id answer
  | delivers id => exact h.deliver v id
  | finishes id => exact h.finish id

end

end BlueFerry.PluginSettings
