import BlueFerry.Plugins.SettingsFlows

/-! # Browser sign-ins are ended

What the worker runs and what its answers do keep the flows accounted for, and so does every run. A
status read that fails is the exception: the sign-in is given up, and its flow is left open.
-/

namespace BlueFerry.PluginSettings

open BlueFerry.Text

variable {v : View} {patient : Prop} {stays : Str → Prop} {s s' : State}

/-! ## The worker -/

variable {id : Nat} {st : Step}

/-- A step that was at the worker has not opened a flow yet. -/
theorem Flows.unopened (h : Flows s) (hq : Queued patient s)
    (hid : s.tasks.Holds id (.work st .submitted)) (pluginId loginId : Str) :
    .opened st.number pluginId loginId ∉ s.flows := by
  intro hopened
  have hran := (hq.ran st.number).mp (h.ran _ _ _ hopened)
  exact hran.2.2 id st hid rfl

variable {flow : Nat}

/-- A flow that was not opened is not cancelled. -/
theorem Flows.untouched (h : Flows s)
    (hopened : ∀ pluginId loginId, .opened flow pluginId loginId ∉ s.flows) : Untouched s flow := by
  constructor
  · rintro id ⟨m, loginId, hid⟩
    exact hopened _ _ (h.cancels id m loginId flow _ hid)
  rw [cancels_eq_zero]
  intro loginId hcancelled
  obtain ⟨pluginId, hin⟩ := h.cancelled flow loginId hcancelled
  exact hopened _ _ hin

variable {n j : Nat} {answer : Result} {m : Manifest}

/-- What a step says of the sign-ins, when it was run. -/
theorem flowsOfStep_eq {job : Job} (result : Result) (hright : Right s n job) :
    State.flowsOfStep job result = [] ∧
        (∀ m a values step, job = .signIn m a values → result = .login step → step.state ≠ .open) ∨
      ∃ m a values step, job = .signIn m a values ∧ result = .login step ∧ step.state = .open ∧
        State.flowsOfStep job result = [.opened n m.id step.loginId] := by
  unfold State.flowsOfStep
  split
  · rename_i m a values step
    split
    · rename_i hopen
      refine .inr ⟨m, a, values, step, rfl, rfl, hopen, ?_⟩
      rw [hright.1]
    rename_i hopen
    refine .inl ⟨rfl, ?_⟩
    intro m' a' values' step' hjob hresult
    rwa [← Result.login.inj hresult]
  · rename_i hother
    refine .inl ⟨rfl, ?_⟩
    intro m a values step hjob hresult
    exact (hother m a values step hjob hresult).elim

variable {job : Quiet}

/-- A quiet task stays as it is when a step goes on. -/
theorem holds_withStage_quiet {tasks : Slots Task} {g : Stage} {g₀ : Stage}
    (hid : tasks.Holds id (.work st g₀)) {g' : Stage} :
    (tasks.modify id (Task.withStage g)).Holds j (.quiet job g') ↔ tasks.Holds j (.quiet job g') :=
  Slots.holds_modify_of_ne hid nofun nofun

/-- A step's task stays as it is when a quiet task goes on. -/
theorem holds_withStage_work {tasks : Slots Task} {g : Stage} {g₀ : Stage}
    (hid : tasks.Holds id (.quiet job g₀)) {g' : Stage} :
    (tasks.modify id (Task.withStage g)).Holds j (.work st g') ↔ tasks.Holds j (.work st g') :=
  Slots.holds_modify_of_ne hid nofun nofun

/-- What was said of the sign-ins when a step was run: nothing, or that its flow was opened. -/
def OpensAtMost (st : Step) (result : Result) (e : List FlowEvent) : Prop :=
  e = [] ∧ (∀ m a values step, st.job = .signIn m a values → result = .login step →
      step.state ≠ .open) ∨
    ∃ m a values step, st.job = .signIn m a values ∧ result = .login step ∧ step.state = .open ∧
      e = [.opened st.number m.id step.loginId]

variable {result : Result} {e : List FlowEvent}

theorem OpensAtMost.mem (h : OpensAtMost st result e) {event : FlowEvent} (hevent : event ∈ e) :
    ∃ m a values step, st.job = .signIn m a values ∧ result = .login step ∧ step.state = .open ∧
      event = .opened st.number m.id step.loginId := by
  rcases h with ⟨rfl, -⟩ | ⟨m, a, values, step, hjob, hresult, hopen, rfl⟩
  · exact absurd hevent List.not_mem_nil
  · exact ⟨m, a, values, step, hjob, hresult, hopen, List.mem_singleton.mp hevent⟩

theorem OpensAtMost.countP (h : OpensAtMost st result e) (flow : Nat) :
    e.countP (FlowEvent.cancels flow) = 0 := by
  rw [List.countP_eq_zero]
  intro event hevent
  obtain ⟨m, a, values, step, -, -, -, rfl⟩ := h.mem hevent
  exact Bool.false_ne_true

/-- The state after a step was run. -/
def State.ranStep (s : State) (id : Nat) (st : Step) (result : Result) (e : List FlowEvent) :
    State :=
  { s with
    tasks := s.tasks.modify id (Task.withStage (.ran result))
    ran := st :: s.ran
    flows := e ++ s.flows }

theorem cancels_ranStep (he : OpensAtMost st result e) (flow : Nat) :
    cancels (s.ranStep id st result e) flow = cancels s flow := by
  show (e ++ s.flows).countP _ = _
  rw [List.countP_append, he.countP, Nat.zero_add]
  rfl

theorem cancelling_ranStep (hid : s.tasks.Holds id (.work st .submitted)) (flow : Nat) :
    Cancelling (s.ranStep id st result e) j flow ↔ Cancelling s j flow :=
  exists_congr (fun _ => exists_congr (fun _ => holds_withStage_quiet hid))

theorem Flows.ranStep (h : Flows s) (hq : Queued patient s)
    (hid : s.tasks.Holds id (.work st .submitted)) (he : OpensAtMost st result e) :
    Flows (s.ranStep id st result e) := by
  have hunopened := h.unopened hq hid
  have hnew : Untouched s st.number := h.untouched hunopened
  have huntouched : ∀ flow, Untouched s flow → Untouched (s.ranStep id st result e) flow := by
    rintro flow ⟨hnone, hzero⟩
    refine ⟨fun j hj => hnone j ((cancelling_ranStep hid flow).mp hj), ?_⟩
    rw [cancels_ranStep he]
    exact hzero
  have hunder : Under s (s.ranStep id st result e) := by
    refine (under_withStage s id ?_ ?_).trans (under_of_tasks rfl rfl)
    · exact fun st' hst' => nomatch (Task.work.inj (hst'.unique hid)).2
    · exact fun job hjob => absurd (hjob.unique hid) Task.noConfusion
  constructor
  · intro flow pluginId loginId hopened
    rcases List.mem_append.mp hopened with hopened | hopened
    · obtain ⟨m, a, values, step, -, -, -, heq⟩ := he.mem hopened
      exact ⟨st, .head _, (FlowEvent.opened.inj heq).1.symm⟩
    obtain ⟨w, hw, hn⟩ := h.ran flow pluginId loginId hopened
    exact ⟨w, .tail _ hw, hn⟩
  · intro flow pluginId loginId pluginId' loginId' hopened hopened'
    rcases List.mem_append.mp hopened with hopened | hopened
    · obtain ⟨m, a, values, step, hjob, hresult, -, heq⟩ := he.mem hopened
      obtain ⟨rfl, rfl, rfl⟩ := FlowEvent.opened.inj heq
      rcases List.mem_append.mp hopened' with hopened' | hopened'
      · obtain ⟨m', a', values', step', hjob', hresult', -, heq'⟩ := he.mem hopened'
        rw [hjob] at hjob'
        rw [hresult] at hresult'
        obtain ⟨rfl, -, -⟩ := Job.signIn.inj hjob'
        obtain rfl := Result.login.inj hresult'
        obtain ⟨-, rfl, rfl⟩ := FlowEvent.opened.inj heq'
        exact ⟨rfl, rfl⟩
      · exact absurd hopened' (hunopened _ _)
    · rcases List.mem_append.mp hopened' with hopened' | hopened'
      · obtain ⟨m, a, values, step, -, -, -, heq⟩ := he.mem hopened'
        obtain ⟨rfl, -, -⟩ := FlowEvent.opened.inj heq
        exact absurd hopened (hunopened _ _)
      · exact h.single flow pluginId loginId pluginId' loginId' hopened hopened'
  · exact fun l hl => List.mem_append_right _ (h.login l hl)
  · intro j st' m a values step hj hjob hopen
    rcases holds_withStage.mp hj with ⟨rfl, hresult, g₀, hold⟩ | ⟨-, hj⟩
    · obtain ⟨rfl, -⟩ := Task.work.inj (hold.unique hid)
      have hresult := Stage.ran.inj hresult
      rcases he with ⟨-, hnone⟩ | ⟨m', a', values', step', hjob', hresult', -, rfl⟩
      · exact absurd hopen (hnone m a values step hjob hresult.symm)
      rw [hjob] at hjob'
      rw [← hresult] at hresult'
      obtain ⟨rfl, -, -⟩ := Job.signIn.inj hjob'
      obtain rfl := Result.login.inj hresult'
      exact List.mem_append_left _ (List.mem_singleton_self _)
    · exact List.mem_append_right _ (h.answer j st' m a values step hj hjob hopen)
  · intro j m loginId flow g hj
    exact List.mem_append_right _ (h.cancels j m loginId flow g ((holds_withStage_quiet hid).mp hj))
  · intro flow loginId hcancelled
    rcases List.mem_append.mp hcancelled with hcancelled | hcancelled
    · obtain ⟨m, a, values, step, -, -, -, heq⟩ := he.mem hcancelled
      nomatch heq
    obtain ⟨pluginId, hopened⟩ := h.cancelled flow loginId hcancelled
    exact ⟨pluginId, List.mem_append_right _ hopened⟩
  · intro flow
    have honce := h.once flow
    constructor
    · rw [cancels_ranStep he]
      exact honce.sent
    · intro i j hi hj
      exact honce.waiting i j ((cancelling_ranStep hid flow).mp hi)
        ((cancelling_ranStep hid flow).mp hj)
    · intro i hi
      rw [cancels_ranStep he]
      exact honce.apart i ((cancelling_ranStep hid flow).mp hi)
  · rintro flow ⟨j, st', m, a, values, step, hj, hrest⟩
    rcases holds_withStage.mp hj with ⟨rfl, -, g₀, hold⟩ | ⟨-, hj⟩
    · obtain ⟨rfl, -⟩ := Task.work.inj (hold.unique hid)
      rw [← hrest.2.1]
      exact huntouched _ hnew
    · exact huntouched flow (h.answering flow ⟨j, st', m, a, values, step, hj, hrest⟩)
  · exact fun flow hflow => huntouched flow (h.followed flow hflow)
  · exact fun n job hpending => h.apart n job (hunder.pending n job hpending)
  · intro j m loginId attempt flow r hj
    obtain ⟨hfits, hfinal⟩ := h.reads j m loginId attempt flow r ((holds_withStage_quiet hid).mp hj)
    exact ⟨hfits, fun step hr hend => List.mem_append_right _ (hfinal step hr hend)⟩
  · intro hlogin
    rcases h.watched hlogin with htimer | ⟨m, loginId, flow, j, g, hj, hg⟩
    · exact .inl htimer
    · exact .inr ⟨m, loginId, flow, j, g, (holds_withStage_quiet hid).mpr hj, hg⟩

variable {pluginId : Str}

theorem Live.ranStep (h : Live pluginId s) (hid : s.tasks.Holds id (.work st .submitted))
    (he : OpensAtMost st result e) : Live pluginId (s.ranStep id st result e) := by
  constructor
  · exact h.known
  intro flow loginId hopened
  rcases List.mem_append.mp hopened with hopened | hopened
  · obtain ⟨m, a, values, step, hjob, rfl, hopen, heq⟩ := he.mem hopened
    obtain ⟨rfl, -, -⟩ := FlowEvent.opened.inj heq
    refine .inr (.inr ⟨id, st, m, a, values, step, ?_, hjob, rfl, hopen⟩)
    exact holds_withStage.mpr (.inl ⟨rfl, rfl, _, hid⟩)
  rcases h.live flow loginId hopened with hended | hfollowed | hanswering
  · rcases hended with hfinal | ⟨j, hj⟩ | hsent
    · exact .inl (.inl (List.mem_append_right _ hfinal))
    · exact .inl (.inr (.inl ⟨j, (cancelling_ranStep hid flow).mpr hj⟩))
    refine .inl (.inr (.inr ?_))
    rw [cancels_ranStep he]
    exact hsent
  · exact .inr (.inl hfollowed)
  obtain ⟨j, st', m, a, values, step, hj, hrest⟩ := hanswering
  refine .inr (.inr ⟨j, st', m, a, values, step, ?_, hrest⟩)
  refine holds_withStage.mpr (.inr ⟨?_, hj⟩)
  rintro rfl
  nomatch (Task.work.inj (hj.unique hid)).2

/-- The state after a quiet task was run. -/
def State.ranQuiet (s : State) (id : Nat) (job : Quiet) (answer : Result) : State :=
  { s with
    tasks := s.tasks.modify id (Task.withStage (.ran answer))
    flows := State.flowsOfQuiet job answer ++ s.flows }

/-- What a quiet task says of the sign-ins: a final state, or its cancel. -/
theorem mem_flowsOfQuiet {event : FlowEvent}
    (h : event ∈ State.flowsOfQuiet job answer) : (∃ flow, event = .final flow) ∨
      ∃ m loginId flow, job = .cancelLogin m loginId flow ∧ event = .cancelled flow loginId ∧
        State.flowsOfQuiet job answer = [.cancelled flow loginId] := by
  unfold State.flowsOfQuiet at h ⊢
  split at h
  · split at h
    · exact .inl ⟨_, List.mem_singleton.mp h⟩
    · exact absurd h List.not_mem_nil
  · exact absurd h List.not_mem_nil
  · exact .inr ⟨_, _, _, rfl, List.mem_singleton.mp h, rfl⟩
  · exact absurd h List.not_mem_nil

variable {loginId : Str}

theorem not_opened_of_quiet : .opened flow pluginId loginId ∉ State.flowsOfQuiet job answer := by
  intro h
  rcases mem_flowsOfQuiet h with ⟨flow', heq⟩ | ⟨m, loginId', flow', -, heq, -⟩ <;> nomatch heq

theorem cancelling_ranQuiet (hid : s.tasks.Holds id (.quiet job .submitted)) (flow : Nat) :
    Cancelling (s.ranQuiet id job answer) j flow ↔ j ≠ id ∧ Cancelling s j flow := by
  constructor
  · rintro ⟨m, loginId, hj⟩
    rcases Slots.holds_modify.mp hj with ⟨-, task, htask, heq⟩ | ⟨hne, hj⟩
    · rw [htask.unique hid] at heq
      nomatch (Task.quiet.inj heq).2
    · exact ⟨hne, m, loginId, hj⟩
  · rintro ⟨hne, m, loginId, hj⟩
    exact ⟨m, loginId, Slots.holds_modify.mpr (.inr ⟨hne, hj⟩)⟩

theorem cancels_ranQuiet (flow : Nat) : cancels (s.ranQuiet id job answer) flow =
      (State.flowsOfQuiet job answer).countP (FlowEvent.cancels flow) + cancels s flow :=
  List.countP_append

/-- One more cancel of a flow is counted where one was waiting. -/
theorem countP_flowsOfQuiet (answer : Result) (hid : s.tasks.Holds id (.quiet job .submitted))
    (flow : Nat) : (State.flowsOfQuiet job answer).countP (FlowEvent.cancels flow) = 0 ∨
      (State.flowsOfQuiet job answer).countP (FlowEvent.cancels flow) = 1 ∧
        Cancelling s id flow := by
  by_cases hzero : (State.flowsOfQuiet job answer).countP (FlowEvent.cancels flow) = 0
  · exact .inl hzero
  obtain ⟨event, hevent, hcancels⟩ := List.countP_pos_iff.mp (Nat.pos_of_ne_zero hzero)
  rcases mem_flowsOfQuiet hevent with ⟨flow', rfl⟩ | ⟨m, loginId, flow', rfl, rfl, heq⟩
  · nomatch hcancels
  have hsame : flow' = flow := of_decide_eq_true hcancels
  subst hsame
  refine .inr ⟨?_, m, loginId, hid⟩
  rw [heq]
  simp [FlowEvent.cancels]

theorem Flows.ranQuiet (h : Flows s) (hid : s.tasks.Holds id (.quiet job .submitted))
    (hfits : State.fitsQuiet job answer = true) : Flows (s.ranQuiet id job answer) := by
  have hback : ∀ j job' g, (s.ranQuiet id job answer).tasks.Holds j (.quiet job' g) →
      (job' = job ∧ g = .ran answer) ∨ s.tasks.Holds j (.quiet job' g) := by
    intro j job' g hj
    rcases Slots.holds_modify.mp hj with ⟨-, task, htask, heq⟩ | ⟨-, hj⟩
    · rw [htask.unique hid] at heq
      obtain ⟨rfl, rfl⟩ := Task.quiet.inj heq
      exact .inl ⟨rfl, rfl⟩
    · exact .inr hj
  have huntouched : ∀ flow, Untouched s flow → Untouched (s.ranQuiet id job answer) flow := by
    rintro flow ⟨hnone, hzero⟩
    refine ⟨fun j hj => hnone j ((cancelling_ranQuiet hid flow).mp hj).2, ?_⟩
    rcases countP_flowsOfQuiet answer hid flow with hcount | ⟨-, hcancelling⟩
    · rw [cancels_ranQuiet, hcount, hzero]
    · exact absurd hcancelling (hnone id)
  have hunder : Under s (s.ranQuiet id job answer) := by
    refine (under_withStage s id ?_ ?_).trans (under_of_tasks rfl rfl)
    · exact fun st hst => absurd (hst.unique hid) Task.noConfusion
    · exact fun job' hjob => nomatch (Task.quiet.inj (hjob.unique hid)).2
  constructor
  · intro flow pluginId loginId hopened
    rcases List.mem_append.mp hopened with hopened | hopened
    · exact absurd hopened not_opened_of_quiet
    · exact h.ran flow pluginId loginId hopened
  · intro flow pluginId loginId pluginId' loginId' hopened hopened'
    rcases List.mem_append.mp hopened with hopened | hopened
    · exact absurd hopened not_opened_of_quiet
    rcases List.mem_append.mp hopened' with hopened' | hopened'
    · exact absurd hopened' not_opened_of_quiet
    · exact h.single flow pluginId loginId pluginId' loginId' hopened hopened'
  · exact fun l hl => List.mem_append_right _ (h.login l hl)
  · intro j st m a values step hj hjob hopen
    refine List.mem_append_right _ (h.answer j st m a values step ?_ hjob hopen)
    exact (holds_withStage_work hid).mp hj
  · intro j m loginId flow g hj
    refine List.mem_append_right _ ?_
    rcases hback j _ g hj with ⟨rfl, -⟩ | hj
    · exact h.cancels id m loginId flow _ hid
    · exact h.cancels j m loginId flow g hj
  · intro flow loginId hcancelled
    rcases List.mem_append.mp hcancelled with hcancelled | hcancelled
    · rcases mem_flowsOfQuiet hcancelled with ⟨flow', heq⟩ | ⟨m, loginId', flow', rfl, heq, -⟩
      · nomatch heq
      obtain ⟨rfl, rfl⟩ := FlowEvent.cancelled.inj heq
      exact ⟨m.id, List.mem_append_right _ (h.cancels id m loginId flow _ hid)⟩
    · obtain ⟨pluginId, hopened⟩ := h.cancelled flow loginId hcancelled
      exact ⟨pluginId, List.mem_append_right _ hopened⟩
  · intro flow
    have honce := h.once flow
    have hcount := countP_flowsOfQuiet answer hid flow
    constructor
    · rw [cancels_ranQuiet]
      rcases hcount with hcount | ⟨hcount, hcancelling⟩
      · rw [hcount, Nat.zero_add]
        exact honce.sent
      · rw [hcount, honce.apart id hcancelling]
    · intro i j hi hj
      exact honce.waiting i j ((cancelling_ranQuiet hid flow).mp hi).2
        ((cancelling_ranQuiet hid flow).mp hj).2
    intro i hi
    obtain ⟨hne, hi⟩ := (cancelling_ranQuiet hid flow).mp hi
    rw [cancels_ranQuiet]
    rcases hcount with hcount | ⟨-, hcancelling⟩
    · rw [hcount, honce.apart i hi]
    · exact absurd (honce.waiting i id hi hcancelling) hne
  · rintro flow ⟨j, st, m, a, values, step, hj, hrest⟩
    refine huntouched flow (h.answering flow ⟨j, st, m, a, values, step, ?_, hrest⟩)
    exact (holds_withStage_work hid).mp hj
  · exact fun flow hflow => huntouched flow (h.followed flow hflow)
  · exact fun n job' hpending => h.apart n job' (hunder.pending n job' hpending)
  · intro j m loginId attempt flow r hj
    rcases hback j _ _ hj with ⟨rfl, hr⟩ | hj
    · obtain rfl := Stage.ran.inj hr
      refine ⟨hfits, ?_⟩
      rintro step rfl hend
      refine List.mem_append_left _ ?_
      show FlowEvent.final flow ∈ if step.state.final then [FlowEvent.final flow] else []
      rw [if_pos hend]
      exact List.mem_singleton_self _
    · obtain ⟨hfits', hfinal⟩ := h.reads j m loginId attempt flow r hj
      exact ⟨hfits', fun step hr hend => List.mem_append_right _ (hfinal step hr hend)⟩
  · intro hlogin
    rcases h.watched hlogin with htimer | ⟨m, loginId, flow, j, g, hj, hg⟩
    · exact .inl htimer
    by_cases hsame : j = id
    · subst hsame
      refine .inr ⟨m, loginId, flow, j, .ran answer, ?_, Stage.noConfusion⟩
      refine Slots.holds_modify.mpr (.inl ⟨rfl, _, hid, ?_⟩)
      show Task.quiet job _ = _
      rw [← (Task.quiet.inj (hj.unique hid)).1]
      rfl
    · exact .inr ⟨m, loginId, flow, j, g, Slots.holds_modify.mpr (.inr ⟨hsame, hj⟩), hg⟩

/-- A cancel for the plugin is sent, as the plugin is enabled. -/
theorem Live.ranQuiet (h : Live pluginId s) (hf : Flows s)
    (hid : s.tasks.Holds id (.quiet job .submitted)) (hfits : State.fitsQuiet job answer = true)
    (henabled : ∀ m loginId flow, job = .cancelLogin m loginId flow → m.id = pluginId →
      ∀ text, answer ≠ .refused text) : Live pluginId (s.ranQuiet id job answer) := by
  constructor
  · exact h.known
  intro flow loginId hopened
  rcases List.mem_append.mp hopened with hnew | hold
  · exact absurd hnew not_opened_of_quiet
  rcases h.live flow loginId hold with hended | hfollowed | hanswering
  · refine .inl ?_
    rcases hended with hfinal | ⟨j, hj⟩ | hsent
    · exact .inl (List.mem_append_right _ hfinal)
    · by_cases hsame : j = id
      · subst hsame
        obtain ⟨m, loginId', hj⟩ := hj
        obtain ⟨rfl, -⟩ := Task.quiet.inj (hid.unique hj)
        have hplugin := (hf.single _ _ _ _ _ (hf.cancels _ _ _ _ _ hj) hold).1
        have hevent : State.flowsOfQuiet (.cancelLogin m loginId' flow) answer =
            [.cancelled flow loginId'] := by
          cases answer with
          | refused text => exact absurd rfl (henabled m loginId' flow rfl hplugin text)
          | failed text | told message ok => rfl
          | listed entries | values values | saved ok errors | tested ok errors message
            | login step | acted result => nomatch hfits
        refine .inr (.inr ?_)
        rw [cancels_ranQuiet, hevent]
        simp [FlowEvent.cancels]
      · exact .inr (.inl ⟨j, (cancelling_ranQuiet hid flow).mpr ⟨hsame, hj⟩⟩)
    · refine .inr (.inr ?_)
      rw [cancels_ranQuiet]
      omega
  · exact .inr (.inl hfollowed)
  · obtain ⟨j, st, m, a, values, step, hj, hrest⟩ := hanswering
    refine .inr (.inr ⟨j, st, m, a, values, step, ?_, hrest⟩)
    exact (holds_withStage_work hid).mpr hj

/-! ## The answer that opened a flow -/

theorem below_marked (hid : s.tasks.Holds id (.work st (.ran result))) : Below s (s.marked id) where
  flows := rfl
  ran := rfl
  steps := le_rfl
  login := fun l h => ⟨l, h, rfl, rfl, rfl⟩
  answer := by
    intro j st' step hj
    rcases holds_withStage.mp hj with ⟨-, heq, -⟩ | ⟨-, hj⟩
    · nomatch heq
    · exact hj
  cancels := fun j m loginId flow g hj => ⟨g, (holds_withStage_quiet hid).mp hj⟩
  cancelling := fun j flow =>
    exists_congr (fun _ => exists_congr (fun _ => holds_withStage_quiet hid))
  pending := fun n job hpending => .inl ((under_marked hid
    (fun _ heq => nomatch (Task.work.inj heq).2) (fun _ => Task.noConfusion)).pending n job hpending)
  reads := fun j m loginId attempt flow r hj => (holds_withStage_quiet hid).mp hj
  watched := by
    rintro - (htimer | ⟨m, loginId, flow, j, g, hj, hg⟩)
    · exact .inl htimer
    · exact .inr ⟨m, loginId, flow, j, g, (holds_withStage_quiet hid).mpr hj, hg⟩

/-- The other answers that open a flow are still to come. -/
theorem answering_marked (hid : s.tasks.Holds id (.work st (.ran result))) (h : Answering s flow)
    (hother : ∀ m a values step, st.job = .signIn m a values → result = .login step →
      step.state = .open → flow ≠ st.number) : Answering (s.marked id) flow := by
  obtain ⟨j, st', m, a, values, step, hj, hjob, hn, hopen⟩ := h
  refine ⟨j, st', m, a, values, step, holds_withStage.mpr (.inr ⟨?_, hj⟩), hjob, hn, hopen⟩
  rintro rfl
  obtain ⟨rfl, hresult⟩ := Task.work.inj (hj.unique hid)
  exact hother m a values step hjob (Stage.ran.inj hresult).symm hopen hn.symm

theorem calm_marked (hid : s.tasks.Holds id (.work st (.ran result)))
    (hno : ∀ m a values step, st.job = .signIn m a values → result = .login step →
      step.state ≠ .open) : Calm s (s.marked id) where
  toBelow := below_marked hid
  manifests := rfl
  following := fun _ h => h
  answering := fun _ h => answering_marked hid h
    (fun m a values step hjob hresult hopen => absurd hopen (hno m a values step hjob hresult))

/-- The flow is followed from now on. -/
theorem Flows.follow (h : Flows s) {a : Attempt} {step : LoginStep}
    (hopened : .opened a.token a.pluginId step.loginId ∈ s.flows) (huntouched : Untouched s a.token)
    (hpending : ∀ job, ¬ Pending s a.token job) : Flows (s.follow v a step) := by
  constructor
  · exact h.ran
  · exact h.single
  · intro l hl
    rw [← Option.some.inj hl]
    exact hopened
  · exact h.answer
  · exact h.cancels
  · exact h.cancelled
  · exact fun flow => ⟨(h.once flow).sent, (h.once flow).waiting, (h.once flow).apart⟩
  · exact h.answering
  · rintro flow ⟨l, hl, hflow⟩
    rw [← Option.some.inj hl] at hflow
    rw [← hflow]
    exact huntouched
  · rintro n job hwaits ⟨l, hl, hflow⟩
    rw [← Option.some.inj hl] at hflow
    have hn : a.token = n := hflow
    rw [hn] at hpending
    exact hpending job hwaits
  · exact h.reads
  · exact fun _ => .inl rfl

/-- When the answer that opened the flow has come, no other step has its number. -/
theorem Queued.answered_alone (hq : Queued patient s)
    (hid : s.tasks.Holds id (.work st (.ran result))) (job : Job) :
    ¬ Pending (s.marked id) st.number job := by
  rintro (⟨w, hw, hn, -⟩ | ⟨j, w, g, hj, hg, hn, -⟩)
  · exact (hq.out id st _ hid).2 w hw hn
  · rcases holds_withStage.mp hj with ⟨-, rfl, -⟩ | ⟨hne, hj⟩
    · exact hg rfl
    · exact hne (hq.once j id w st g _ hj hid hn)

/-- A flow that is cancelled or followed now is accounted for, and the others are as before. -/
theorem Live.settles (h : Live pluginId s) (hflows : s'.flows = s.flows)
    (hmanifests : s'.manifests = s.manifests)
    (hlogin : ∀ l, s'.login = some l → l.pluginId = pluginId →
      s.login = some l ∨ (s.find pluginId).isSome)
    (hcancelling : ∀ id flow, Cancelling s id flow → Cancelling s' id flow)
    (hfollowed : ∀ flow, flow ≠ n → Followed s flow → Followed s' flow)
    (hanswering : ∀ flow, flow ≠ n → Answering s flow → Answering s' flow)
    (hsettled : Ended s' n ∨ Followed s' n) : Live pluginId s' := by
  constructor
  · intro l hl hplugin
    unfold State.find
    rw [hmanifests]
    rcases hlogin l hl hplugin with hold | hfound
    · exact h.known l hold hplugin
    · exact hfound
  intro flow loginId hopened
  rw [hflows] at hopened
  by_cases hflow : flow = n
  · subst hflow
    rcases hsettled with hended | hfollows
    · exact .inl hended
    · exact .inr (.inl hfollows)
  rcases h.live flow loginId hopened with hended | hfollows | hanswers
  · refine .inl ?_
    rcases hended with hfinal | ⟨id, hid⟩ | hsent
    · refine .inl ?_
      rw [hflows]
      exact hfinal
    · exact .inr (.inl ⟨id, hcancelling id flow hid⟩)
    refine .inr (.inr ?_)
    unfold cancels at hsent ⊢
    rw [hflows]
    exact hsent
  · exact .inr (.inl (hfollowed flow hflow hfollows))
  · exact .inr (.inr (hanswering flow hflow hanswers))

/-- The state when the result of a step has come, and nothing was done with it yet. -/
theorem calm_idle (s : State) (id : Nat) : Calm (s.marked id) (s.answered id) := calm_of_eq rfl

/-- The completion of a sign-in whose answer opened a flow. -/
theorem Bound.opened (h : Bound stays s) (hq : Queued patient s) (ho : Owned s)
    {a : Attempt} {values : Values} {step : LoginStep}
    (hid : s.tasks.Holds id (.work st (.ran (.login step)))) (hjob : st.job = .signIn m a values)
    (hopen : step.state = .open) : Bound stays ((s.answered id).signInDone v m a step) := by
  have hright := (hq.free ho hid).1
  rw [hjob] at hright
  obtain ⟨htoken, hplugin, hlogin⟩ := hright
  have hbelow : Below s (s.answered id) := (below_marked hid).trans (calm_idle s id).toBelow
  have hflows : Flows (s.answered id) := h.flows.below hq hbelow
  have hanswering : Answering s st.number := ⟨id, st, m, a, values, step, hid, hjob, rfl, hopen⟩
  have hopened := h.flows.answer id st m a values step hid hjob hopen
  have huntouched := hbelow.untouched (h.flows.answering _ hanswering)
  have halone : ∀ job, ¬ Pending (s.answered id) st.number job := hq.answered_alone hid
  have hnot : ¬ Followed s st.number := h.flows.not_followed hanswering
  have hothers : ∀ flow, flow ≠ st.number → Answering s flow → Answering (s.answered id) flow :=
    fun flow hne hflow => answering_marked hid hflow (fun _ _ _ _ _ _ _ => hne)
  have hcancelling : ∀ j flow, Cancelling s j flow → Cancelling (s.answered id) j flow :=
    fun j flow hj => (hbelow.cancelling j flow).mpr hj
  unfold State.signInDone
  split
  · -- the attempt is not wanted any more
    rw [htoken]
    constructor
    · refine hflows.startCancel hopened huntouched ?_ hnot
      intro hstill
      obtain ⟨job, hpending⟩ := hstill.pending
      exact halone job hpending
    intro pluginId hstays
    refine (h.live pluginId hstays).settles rfl rfl (fun l hl _ => .inl hl) ?_
      (fun _ _ hflow => hflow) (fun flow hne hflow => (hothers flow hne hflow).start) ?_
    · exact fun j flow hj => cancelling_start.mpr (.inr (hcancelling j flow hj))
    · exact .inl (.inr (.inl ⟨_, cancelling_start.mpr (.inl ⟨rfl, rfl⟩)⟩))
  · rename_i hwanted
    rw [Bool.not_eq_false] at hwanted
    obtain ⟨ha, hcurrent⟩ := attempts_iff.mp hwanted
    rw [hplugin, ← htoken] at hopened
    rw [← htoken] at huntouched halone hnot hothers
    constructor
    · exact hflows.follow hopened huntouched halone
    intro pluginId hstays
    have hnone : s.login = none := hlogin ha
    refine (h.live pluginId hstays).settles rfl rfl ?_ hcancelling ?_ hothers (.inr ⟨_, rfl, rfl⟩)
    · intro l hl hsame
      refine .inr ?_
      rw [← Option.some.inj hl] at hsame
      obtain ⟨m', hm'⟩ := Option.isSome_iff_exists.mp hcurrent
      have hfind : s.find a.pluginId = some m' := (current_some hm').1
      rw [← hsame, hfind]
      rfl
    · rintro flow - ⟨l, hl, -⟩
      rw [hnone] at hl
      nomatch hl

/-! ## Completions -/

/-- The list of plugins still has the ones that stay. -/
theorem Bound.loadDone (h : Bound stays s) (hq : Queued patient s)
    {entries : List (Manifest × Bool)}
    (hlisted : ∀ pluginId, stays pluginId → ∃ e ∈ entries, e.1.id = pluginId) :
    Bound stays (s.loadDone entries) where
  flows := by
    have hbelow : Below s (s.loadDone entries) := { Below.refl s with }
    exact h.flows.below hq hbelow
  live := by
    intro pluginId hstays
    refine ⟨fun l hl hsame => ?_, (h.live pluginId hstays).live⟩
    obtain ⟨e, he, hid⟩ := hlisted pluginId hstays
    refine List.find?_isSome.mpr ⟨e.1, List.mem_map_of_mem he, ?_⟩
    exact decide_eq_true hid

theorem Bound.saveConfigDone (h : Bound stays s) (hq : Queued patient s) (m : Manifest) (ok : Bool)
    (errors : Values) : Bound stays (s.saveConfigDone m ok errors) := by
  unfold State.saveConfigDone
  split
  · have hsaid : ∀ message, Bound stays (s.say message true) ∧
        Queued patient (s.say message true) := by
      intro message
      refine ⟨h.calm hq (calm_say s message true), Alike.queued ?_ hq⟩
      exact alike_of_tasks rfl
    split
    · obtain ⟨hbound, hqueued⟩ := hsaid ("Saved the settings of ".toList ++ m.name ++ ".".toList)
      exact (hbound.closeConfig hqueued).calm ((alike_closeConfig _).queued hqueued)
        (calm_work _ _ _)
    · obtain ⟨hbound, hqueued⟩ := hsaid ("Saved the settings of ".toList ++ m.name ++ ".".toList)
      exact hbound.calm hqueued (calm_work _ _ _)
  · split
    · exact h.calm hq (calm_updateForm s _)
    · exact h

/-- An answer that opened no flow. -/
theorem calm_signInDone {a : Attempt} {step : LoginStep} (hopen : step.state ≠ .open)
    (hlogin : s.attempt = some a → s.login = none) : Calm s (s.signInDone v m a step) := by
  unfold State.signInDone
  rw [if_neg hopen, if_neg hopen]
  split
  · exact Calm.refl s
  rename_i hwanted
  rw [Bool.not_eq_false] at hwanted
  exact calm_loginFinished (hlogin (attempts_iff.mp hwanted).1) _ _

theorem Bound.stepDone (h : Bound stays s) (hq : Queued patient s) {job : Job}
    (hright : Right s n job)
    (hno : ∀ m a values step, job = .signIn m a values → result = .login step →
      step.state ≠ .open)
    (hlisted : ∀ entries, result = .listed entries → ∀ pluginId, stays pluginId →
      ∃ e ∈ entries, e.1.id = pluginId) : Bound stays (s.stepDone v job result) := by
  unfold State.stepDone
  split
  · exact h.loadDone hq (hlisted _ rfl)
  · exact h.calm hq ((calm_tellDone s _ _).trans (calm_work _ _ _))
  · exact h.calm hq ((calm_tellDone s _ _).trans (calm_work _ _ _))
  · exact h.calm hq (calm_loadConfigDone s _ _ _ _ _)
  · exact h.saveConfigDone hq _ _ _
  · exact h.calm hq (calm_testConfigDone s _ _ _ _)
  · exact h.calm hq (calm_signInDone (hno _ _ _ _ rfl rfl) hright.2.2)
  · exact h.calm hq (calm_actionDone s _ _ _)
  · exact h.calm hq ((calm_tellDone s _ _).trans ((calm_work _ _ _).trans (calm_work _ _ _)))
  · exact h.calm hq ((calm_tellDone s _ _).trans (calm_work _ _ _))
  · exact h.calm hq (calm_tellDone s _ _)
  · exact h

theorem calm_stepFailed {job : Job} (hright : Right s n job) (text : Str) :
    Calm s (s.stepFailed job text) := by
  unfold State.stepFailed
  split
  · exact calm_loadConfigFailed s _ _ _
  · exact calm_testConfigFailed s _ _
  · exact calm_signInFailed _ hright.2.2
  · exact calm_actionFailed s _ _ _
  · exact calm_say s _ _

theorem Bound.deliverStep (h : Bound stays s) (hq : Queued patient s) (ho : Owned s)
    (hid : s.tasks.Holds id (.work st (.ran result)))
    (hlisted : ∀ entries, result = .listed entries → ∀ pluginId, stays pluginId →
      ∃ e ∈ entries, e.1.id = pluginId) :
    Bound stays ((s.marked id).deliverStep v st.job result) := by
  have hright := (hq.free ho hid).1
  by_cases hopen : ∃ m a values step, st.job = .signIn m a values ∧ result = .login step ∧
      step.state = .open
  · obtain ⟨m, a, values, step, hjob, rfl, hopen⟩ := hopen
    have hdone := h.opened hq ho (v := v) hid hjob hopen
    rw [hjob]
    exact hdone
  have hno : ∀ m a values step, st.job = .signIn m a values → result = .login step →
      step.state ≠ .open := fun m a values step hjob hresult hstate =>
    hopen ⟨m, a, values, step, hjob, hresult, hstate⟩
  have hcalm := calm_marked hid hno
  have hfailed : ∀ name text, Bound stays
      (({ s.marked id with busy := [], failedStep := name } : State).stepFailed st.job text) := by
    intro name text
    have hidle : Calm (s.marked id) { s.marked id with busy := [], failedStep := name } :=
      calm_of_eq rfl
    have hright' : Right ({ s.marked id with busy := [], failedStep := name } : State)
        st.number st.job := hright
    exact h.calm hq ((hcalm.trans hidle).trans (calm_stepFailed hright' text))
  unfold State.deliverStep
  split
  · exact hfailed _ _
  · exact hfailed _ _
  have hanswered : Bound stays (s.answered id) := h.calm hq (hcalm.trans (calm_idle s id))
  exact hanswered.stepDone (hq.answered hid) (n := st.number) hright hno hlisted

/-! ## Status reads -/

section

variable (hid : s.tasks.Holds id (.quiet job (.ran result)))
include hid

/-- A quiet task is marked, and perhaps nothing is followed any more. -/
theorem below_quiet
    (hflows : s'.flows = s.flows) (hran : s'.ran = s.ran) (hsteps : s.steps ≤ s'.steps)
    (htasks : s'.tasks = (s.marked id).tasks) (hqueue : s'.queue = s.queue)
    (hlogin : ∀ l, s'.login = some l → s.login = some l)
    (hwatched : s'.login ≠ none → Watched s → Watched s') : Below s s' where
  flows := hflows
  ran := hran
  steps := hsteps
  login := fun l h => ⟨l, hlogin l h, rfl, rfl, rfl⟩
  answer := by
    rw [htasks]
    exact fun j st step hj => (holds_withStage_work hid).mp hj
  cancels := by
    rw [htasks]
    intro j m loginId flow g hj
    rcases Slots.holds_modify.mp hj with ⟨rfl, task, htask, heq⟩ | ⟨-, hj⟩
    · rw [htask.unique hid] at heq htask
      rw [(Task.quiet.inj heq).1] at htask
      exact ⟨_, htask⟩
    · exact ⟨g, hj⟩
  cancelling := by
    intro j flow
    unfold Cancelling
    rw [htasks]
    refine exists_congr (fun m => exists_congr (fun loginId => ?_))
    constructor
    · intro hj
      rcases Slots.holds_modify.mp hj with ⟨-, task, htask, heq⟩ | ⟨-, hj⟩
      · rw [htask.unique hid] at heq
        nomatch (Task.quiet.inj heq).2
      · exact hj
    intro hj
    refine Slots.holds_modify.mpr (.inr ⟨?_, hj⟩)
    rintro rfl
    nomatch (Task.quiet.inj (hj.unique hid)).2
  pending := by
    intro n job' hpending
    have hmarked : Pending (s.marked id) n job' := by
      unfold Pending at hpending ⊢
      rwa [htasks, hqueue] at hpending
    exact .inl ((under_marked hid (fun _ => Task.noConfusion)
      (fun _ heq => nomatch (Task.quiet.inj heq).2)).pending n job' hmarked)
  reads := by
    rw [htasks]
    intro j m loginId attempt flow r hj
    rcases Slots.holds_modify.mp hj with ⟨-, task, htask, heq⟩ | ⟨-, hj⟩
    · rw [htask.unique hid] at heq
      nomatch (Task.quiet.inj heq).2
    · exact hj
  watched := hwatched

theorem answering_quiet
    (htasks : s'.tasks = (s.marked id).tasks) (h : Answering s flow) : Answering s' flow := by
  obtain ⟨j, st, m, a, values, step, hj, hrest⟩ := h
  refine ⟨j, st, m, a, values, step, ?_, hrest⟩
  rw [htasks]
  exact (holds_withStage_work hid).mpr hj

/-- A quiet task that is marked, if it is not all that the sign-in waits for. -/
theorem calm_quiet
    (hwatched : s.login ≠ none → Watched s → Watched (s.marked id)) : Calm s (s.marked id) where
  toBelow := below_quiet hid rfl rfl le_rfl rfl rfl (fun _ hl => hl) hwatched
  manifests := rfl
  following := fun _ hflow => hflow
  answering := fun _ hflow => answering_quiet hid rfl hflow

/-- What the sign-in waits for is another status read, or the timer. -/
theorem watched_marked (hother : ∀ m loginId flow, job ≠ .pollLogin m loginId s.attempt flow)
    (h : Watched s) : Watched (s.marked id) := by
  rcases h with htimer | ⟨m, loginId, flow, j, g, hj, hg⟩
  · exact .inl htimer
  refine .inr ⟨m, loginId, flow, j, g, Slots.holds_modify.mpr (.inr ⟨?_, hj⟩), hg⟩
  rintro rfl
  exact hother m loginId flow (Task.quiet.inj (hid.unique hj)).1

end

/-- Nothing is followed any more, and what was has ended. -/
theorem Live.unfollow (h : Live pluginId s) (hbelow : Below s s') (hlogin : s'.login = none)
    (hanswering : ∀ flow, Answering s flow → Answering s' flow)
    (hended : ∀ flow loginId, .opened flow pluginId loginId ∈ s.flows → Followed s flow →
      Ended s flow) : Live pluginId s' := by
  constructor
  · intro l hl
    rw [hlogin] at hl
    nomatch hl
  intro flow loginId hopened
  rw [hbelow.flows] at hopened
  rcases h.live flow loginId hopened with hs | hfollowed | hanswers
  · exact .inl (hbelow.ended hs)
  · exact .inl (hbelow.ended (hended flow loginId hopened hfollowed))
  · exact .inr (.inr (hanswering flow hanswers))

variable {attempt : Option Attempt}

/-- The status read of the sign-in that is followed is about its flow. -/
theorem Owned.flow_of_poll (ho : Owned s) (hpolled : Polled s m loginId attempt flow)
    (hattempt : s.attempt = attempt) {l : Login} (hl : s.login = some l) :
    l.flow = flow ∧ l.pluginId = m.id := by
  obtain ⟨a, rfl, htoken, hplugin⟩ := ho.polls m loginId attempt flow hpolled
  obtain ⟨a', ha', htoken', hplugin'⟩ := ho.login l hl
  rw [hattempt] at ha'
  obtain rfl := Option.some.inj ha'
  exact ⟨htoken'.symm.trans htoken, hplugin'.symm.trans hplugin.symm⟩

/-- A status read whose sign-in is not followed any more. -/
theorem calm_stale
    (hid : s.tasks.Holds id (.quiet (.pollLogin m loginId attempt flow) (.ran result)))
    (hstale : s.login = none ∨ s.attempt ≠ attempt) : Calm s (s.marked id) := by
  refine calm_quiet hid (fun hlogin => watched_marked hid ?_)
  intro m' loginId' flow' heq
  rcases hstale with hnone | hne
  · exact hlogin hnone
  · exact hne (Quiet.pollLogin.inj heq).2.2.1.symm

theorem Bound.pollDone (h : Bound stays s) (hq : Queued patient s) (ho : Owned s) {step : LoginStep}
    (hid : s.tasks.Holds id (.quiet (.pollLogin m loginId attempt flow) (.ran (.login step)))) :
    Bound stays ((s.marked id).pollDone v m attempt step) := by
  have hpolled : Polled s m loginId attempt flow := ⟨id, _, hid, Stage.noConfusion⟩
  unfold State.pollDone
  split
  · rename_i hstale
    exact h.calm hq (calm_stale hid hstale)
  rename_i hfollowed
  obtain ⟨hlogin, hattempt⟩ := not_or.mp hfollowed
  have hattempt : s.attempt = attempt := not_not.mp hattempt
  split
  · -- the final state was recorded when the read was run
    rename_i hfinal
    have hbelow : Below s { s.marked id with login := none } :=
      below_quiet hid rfl rfl le_rfl rfl rfl nofun (fun hne => absurd rfl hne)
    have hqueued : Queued patient { s.marked id with login := none } := by
      have hmarked : Alike s (s.marked id) := alike_withStage hid
      refine Alike.queued (hmarked.trans ?_) hq
      exact alike_of_tasks rfl
    refine Bound.calm ⟨h.flows.below hq hbelow, ?_⟩ hqueued (calm_loginFinished rfl _ _)
    intro pluginId hstays
    refine (h.live pluginId hstays).unfollow hbelow rfl
      (fun _ hflow => answering_quiet hid rfl hflow) ?_
    rintro flow' loginId' - ⟨l, hl, rfl⟩
    refine .inl ?_
    rw [(ho.flow_of_poll hpolled hattempt hl).1]
    exact (h.flows.reads id m loginId attempt flow _ hid).2 step rfl hfinal
  · -- the timer is armed again
    have hbelow : Below s { s.marked id with timer := true } :=
      below_quiet hid rfl rfl le_rfl rfl rfl (fun _ hl => hl) (fun _ _ => .inl rfl)
    exact h.calm hq ⟨hbelow, rfl, fun _ hflow => hflow,
      fun _ hflow => answering_quiet hid rfl hflow⟩

theorem Bound.pollFailed (h : Bound stays s) (hq : Queued patient s) (ho : Owned s)
    (hid : s.tasks.Holds id (.quiet (.pollLogin m loginId attempt flow) (.ran result)))
    (hheard : ∀ pluginId, stays pluginId → m.id = pluginId →
      ¬ (s.login ≠ none ∧ s.attempt = attempt)) (message : Str) :
    Bound stays ((s.marked id).pollFailed v attempt message) := by
  have hpolled : Polled s m loginId attempt flow := ⟨id, _, hid, Stage.noConfusion⟩
  unfold State.pollFailed
  split
  · rename_i hfollowed
    have hbelow : Below s ({ s.marked id with login := none, attempt := none }.setStatus .login
        false (orText message (v.loginText .error [])) false) :=
      below_quiet hid rfl rfl le_rfl rfl rfl nofun (fun hne => absurd rfl hne)
    refine ⟨h.flows.below hq hbelow, fun pluginId hstays => ?_⟩
    refine (h.live pluginId hstays).unfollow hbelow rfl
      (fun _ hflow => answering_quiet hid rfl hflow) ?_
    -- the flow is not one of this plugin
    rintro flow' loginId' hopened ⟨l, hl, rfl⟩
    have hsame := (h.flows.single _ _ _ _ _ (h.flows.login l hl) hopened).1
    have hplugin := (ho.flow_of_poll hpolled hfollowed.2 hl).2
    exact absurd hfollowed (hheard pluginId hstays (hplugin.symm.trans hsame))
  · rename_i hstale
    refine h.calm hq (calm_stale hid ?_)
    rw [not_and_or, not_not] at hstale
    exact hstale

theorem Bound.deliverQuiet (h : Bound stays s) (hq : Queued patient s) (ho : Owned s)
    (hid : s.tasks.Holds id (.quiet job (.ran result)))
    (hheard : ∀ m loginId attempt flow text, job = .pollLogin m loginId attempt flow →
      result = .failed text ∨ result = .refused text → ∀ pluginId, stays pluginId →
        m.id = pluginId → ¬ (s.login ≠ none ∧ s.attempt = attempt)) :
    Bound stays ((s.marked id).deliverQuiet v job result) := by
  cases job with
  | cancelLogin m loginId flow | discard =>
    exact h.calm hq (calm_quiet hid (fun _ => watched_marked hid (fun _ _ _ => Quiet.noConfusion)))
  | pollLogin m loginId attempt flow =>
    have hfits := (h.flows.reads id m loginId attempt flow result hid).1
    cases result with
    | login step => exact h.pollDone hq ho hid
    | failed text =>
      exact h.pollFailed hq ho hid (hheard m loginId attempt flow text rfl (.inl rfl)) text
    | refused text =>
      exact h.pollFailed hq ho hid (hheard m loginId attempt flow text rfl (.inr rfl)) text
    | listed entries | told message ok | values values | saved ok errors
      | tested ok errors message | acted result => nomatch hfits

/-! ## The end of a task -/

theorem calm_dropTask {task : Task} (hid : s.tasks.Holds id task)
    (hdone : (∃ st, task = .work st .delivered) ∨ ∃ job, task = .quiet job .delivered) :
    Calm s (s.dropTask id) := by
  have hstays : ∀ j task', s.tasks.Holds j task' → (∀ st, task' ≠ .work st .delivered) →
      (∀ job, task' ≠ .quiet job .delivered) → (s.dropTask id).tasks.Holds j task' := by
    intro j task' hj hwork hquiet
    refine Slots.holds_take.mpr ⟨?_, hj⟩
    rintro rfl
    rcases hdone with ⟨st, hst⟩ | ⟨job, hjob⟩
    · exact hwork st ((hj.unique hid).trans hst)
    · exact hquiet job ((hj.unique hid).trans hjob)
  constructor
  · constructor
    · rfl
    · rfl
    · exact le_rfl
    · exact fun l hl => ⟨l, hl, rfl, rfl, rfl⟩
    · exact fun j st step hj => (Slots.holds_take.mp hj).2
    · exact fun j m loginId flow g hj => ⟨g, (Slots.holds_take.mp hj).2⟩
    · intro j flow
      constructor
      · rintro ⟨m, loginId, hj⟩
        exact ⟨m, loginId, (Slots.holds_take.mp hj).2⟩
      · rintro ⟨m, loginId, hj⟩
        exact ⟨m, loginId, hstays j _ hj (fun _ => Task.noConfusion)
          (fun _ heq => nomatch (Task.quiet.inj heq).2)⟩
    · exact fun n job hpending => .inl ((under_dropTask s id).pending n job hpending)
    · exact fun j m loginId attempt flow r hj => (Slots.holds_take.mp hj).2
    · rintro - (htimer | ⟨m, loginId, flow, j, g, hj, hg⟩)
      · exact .inl htimer
      · exact .inr ⟨m, loginId, flow, j, g, hstays j _ hj (fun _ => Task.noConfusion)
          (fun _ heq => hg (Task.quiet.inj heq).2), hg⟩
  · rfl
  · exact fun _ hflow => hflow
  · rintro flow ⟨j, st, m, a, values, step, hj, hrest⟩
    exact ⟨j, st, m, a, values, step, hstays j _ hj
      (fun _ heq => nomatch (Task.work.inj heq).2) (fun _ => Task.noConfusion), hrest⟩

theorem Bound.finish (h : Bound stays s) (hq : Queued patient s) (id : Nat) :
    Bound stays (s.finish id) := by
  unfold State.finish
  split
  · rename_i st hid
    exact h.calm hq ((calm_dropTask hid (.inl ⟨st, rfl⟩)).trans (calm_nextStep _))
  · rename_i job hid
    exact h.calm hq (calm_dropTask hid (.inr ⟨job, rfl⟩))
  · exact h

/-! ## Runs -/

/-- The plugin stays installed and enabled: every list has it, and no cancel for it is refused. -/
def Stays (pluginId : Str) (s : State) : Input → Prop
  | .delivers id =>
    match s.tasks.get id with
    | some (.work _ (.ran (.listed entries))) => ∃ e ∈ entries, e.1.id = pluginId
    | _ => True
  | .runs id answer =>
    match s.tasks.get id, answer with
    | some (.quiet (.cancelLogin m _ _) .submitted), .refused _ => m.id ≠ pluginId
    | _, _ => True
  | _ => True

/-- No status read of the plugin fails while its sign-in is followed. -/
def Heard (pluginId : Str) (s : State) : Input → Prop
  | .delivers id =>
    match s.tasks.get id with
    | some (.quiet (.pollLogin m _ attempt _) (.ran (.failed _))) =>
      m.id = pluginId → ¬ (s.login ≠ none ∧ s.attempt = attempt)
    | some (.quiet (.pollLogin m _ attempt _) (.ran (.refused _))) =>
      m.id = pluginId → ¬ (s.login ≠ none ∧ s.attempt = attempt)
    | _ => True
  | _ => True

theorem Stays.listed {entries : List (Manifest × Bool)} (h : Stays pluginId s (.delivers id))
    (hid : s.tasks.Holds id (.work st (.ran (.listed entries)))) :
    ∃ e ∈ entries, e.1.id = pluginId := by
  have hget : s.tasks.get id = some (.work st (.ran (.listed entries))) := hid
  simp only [Stays, hget] at h
  exact h

theorem Stays.not_refused {text : Str} (h : Stays pluginId s (.runs id (.refused text)))
    (hid : s.tasks.Holds id (.quiet (.cancelLogin m loginId flow) .submitted)) :
    m.id ≠ pluginId := by
  have hget : s.tasks.get id = some (.quiet (.cancelLogin m loginId flow) .submitted) := hid
  simp only [Stays, hget] at h
  exact h

theorem Heard.not_followed {text : Str} (h : Heard pluginId s (.delivers id))
    (hid : s.tasks.Holds id (.quiet (.pollLogin m loginId attempt flow) (.ran result)))
    (hresult : result = .failed text ∨ result = .refused text) :
    m.id = pluginId → ¬ (s.login ≠ none ∧ s.attempt = attempt) := by
  have hget : s.tasks.get id =
      some (.quiet (.pollLogin m loginId attempt flow) (.ran result)) := hid
  rcases hresult with rfl | rfl
  all_goals
    simp only [Heard, hget] at h
    exact h

theorem Bound.runTask (h : Bound stays s) (hq : Queued patient s) (ho : Owned s) (id : Nat)
    (answer : Result) (hstays : ∀ pluginId, stays pluginId → Stays pluginId s (.runs id answer)) :
    Bound stays (s.runTask id answer) := by
  unfold State.runTask
  split
  · rename_i st hid
    split
    · exact h
    have hright : Right s st.number st.job :=
      ho.jobs st.number st.job (.inr ⟨id, st, _, hid, Stage.noConfusion, rfl, rfl⟩)
    have he := flowsOfStep_eq (s.runStep st.job answer) hright
    exact ⟨h.flows.ranStep hq hid he, fun pluginId hp => (h.live pluginId hp).ranStep hid he⟩
  · rename_i job hid
    split
    · exact h
    rename_i hfits
    rw [Bool.not_eq_false] at hfits
    refine ⟨h.flows.ranQuiet hid hfits, fun pluginId hp => ?_⟩
    refine (h.live pluginId hp).ranQuiet h.flows hid hfits ?_
    rintro m loginId flow rfl hplugin text
    rintro rfl
    exact (hstays pluginId hp).not_refused hid hplugin
  · exact h

/-- **Step lemma.** -/
theorem Bound.step (h : Bound stays s) (hs : Steady patient s) (ho : Owned s) (i : Input)
    (hstays : ∀ pluginId, stays pluginId → Stays pluginId s i ∧ Heard pluginId s i) :
    Bound stays (step v s i) := by
  have hq := hs.queued
  cases i with
  | load => exact h.calm hq (calm_work s true .list)
  | setEnabled pluginId enabled => exact h.setEnabled hq pluginId enabled
  | remove pluginId => exact h.remove hq pluginId
  | loadConfig pluginId => exact h.loadConfig hq pluginId
  | closeConfig => exact h.closeConfig hq
  | saveConfig pluginId raw => exact h.calm hq (calm_saveConfig s pluginId raw)
  | testConfig pluginId raw => exact h.calm hq (calm_testConfig s pluginId raw)
  | signIn pluginId raw => exact h.signIn hq pluginId raw
  | cancelSignIn => exact h.cancelSignIn hq
  | runAction pluginId actionId => exact h.calm hq (calm_runAction s pluginId actionId)
  | plain p => exact h.calm hq (calm_work s true (.plain p))
  | discard =>
    refine h.calm hq (calm_put s (.quiet .discard .submitted) s.queue (fun w hw => hw) ?_ ?_ ?_ ?_)
    · exact fun _ _ _ _ heq => nomatch (Task.quiet.inj heq).1
    · exact fun _ _ => Task.noConfusion
    · exact fun _ _ heq => nomatch (Task.quiet.inj heq).2
    · exact fun _ _ => Task.noConfusion
  | clearMessage => exact h.calm hq (calm_of_eq rfl)
  | timerFires =>
    show Bound stays (if s.timer then ({ s with timer := false } : State).pollLogin v else s)
    split
    · exact h.pollLogin hq
    · exact h
  | runs id answer => exact h.runTask hq ho id answer (fun pluginId hp => (hstays pluginId hp).1)
  | delivers id =>
    show Bound stays (s.deliver v id)
    unfold State.deliver
    split
    · rename_i st result hid
      refine h.deliverStep hq ho hid ?_
      rintro entries rfl pluginId hp
      exact (hstays pluginId hp).1.listed hid
    · rename_i job result hid
      refine h.deliverQuiet hq ho hid ?_
      rintro m loginId attempt flow text rfl hresult pluginId hp hplugin
      exact (hstays pluginId hp).2.not_followed hid hresult hplugin
    · exact h
  | finishes id => exact h.finish hq id

/-- Exactly one cancel of the flow was sent or is about to be, and it is for this login id. -/
structure CancelledOnce (s : State) (flow : Nat) (loginId : Str) : Prop where
  once : ((∃! id, Cancelling s id flow) ∧ cancels s flow = 0) ∨
    ((∀ id, ¬ Cancelling s id flow) ∧ cancels s flow = 1)
  waiting : ∀ id m loginId', s.tasks.Holds id (.quiet (.cancelLogin m loginId' flow) .submitted) →
    loginId' = loginId
  sent : ∀ loginId', .cancelled flow loginId' ∈ s.flows → loginId' = loginId

/-- A flow has a final state, or it is followed or about to be and was not cancelled, or it is
cancelled once. -/
def Accounted (s : State) (flow : Nat) (loginId : Str) : Prop :=
  .final flow ∈ s.flows ∨ ((Followed s flow ∨ Answering s flow) ∧ Untouched s flow) ∨
    CancelledOnce s flow loginId

theorem Flows.cancelledOnce (h : Flows s) (hopened : .opened flow pluginId loginId ∈ s.flows)
    (hended : (∃ id, Cancelling s id flow) ∨ 0 < PluginSettings.cancels s flow) :
    CancelledOnce s flow loginId where
  once := by
    have honce := h.once flow
    rcases hended with ⟨id, hid⟩ | hsent
    · exact .inl ⟨⟨id, hid, fun j hj => honce.waiting j id hj hid⟩, honce.apart id hid⟩
    refine .inr ⟨fun id hid => ?_, ?_⟩
    · rw [honce.apart id hid] at hsent
      exact absurd hsent (Nat.lt_irrefl 0)
    · have hle := honce.sent
      omega
  waiting := fun id m loginId' hid =>
    (h.single _ _ _ _ _ (h.cancels id m loginId' flow _ hid) hopened).2
  sent := by
    intro loginId' hsent
    obtain ⟨pluginId', hopened'⟩ := h.cancelled flow loginId' hsent
    exact (h.single _ _ _ _ _ hopened' hopened).2

theorem Bound.accounted (h : Bound stays s) (hstays : stays pluginId)
    (hopened : .opened flow pluginId loginId ∈ s.flows) : Accounted s flow loginId := by
  rcases (h.live pluginId hstays).live flow loginId hopened with hended | hfollowed | hanswering
  · rcases hended with hfinal | hended
    · exact .inl hfinal
    · exact .inr (.inr (h.flows.cancelledOnce hopened hended))
  · exact .inr (.inl ⟨.inl hfollowed, h.flows.followed flow hfollowed⟩)
  · exact .inr (.inl ⟨.inr hanswering, h.flows.answering flow hanswering⟩)

/-- The state after a run. -/
theorem bound_run (stays : Str → Prop) (v : View) (inputs : List Input)
    (hok : Machine.Along (step v) (fun s i => ∀ pluginId, stays pluginId →
      Stays pluginId s i ∧ Heard pluginId s i) {} inputs) :
    Bound stays (Machine.run (step v) {} inputs) ∧ Owned (Machine.run (step v) {} inputs) := by
  have hend := Machine.invariant (step v)
    (P := fun s => Steady False s ∧ Owned s ∧ Bound stays s)
    (fun s i hi hs => ⟨hs.1.step i False.elim, hs.2.1.step hs.1 i, hs.2.2.step hs.1 hs.2.1 i hi⟩)
    hok ⟨steady_start False, owned_start, bound_start stays⟩
  exact ⟨hend.2.2, hend.2.1⟩

/-- **Every browser sign-in is ended.** In every run in which the plugin stays, and no status read
of it fails while its sign-in is followed, each flow that it opened is accounted for; and whatever
the run, while a flow is followed the timer is armed or a status read of it is unanswered. -/
theorem sign_ins_end (v : View) (pluginId : Str) (inputs : List Input) :
    (Machine.Along (step v) (fun s i => Stays pluginId s i ∧ Heard pluginId s i) {} inputs →
      ∀ flow loginId, .opened flow pluginId loginId ∈ (Machine.run (step v) {} inputs).flows →
        Accounted (Machine.run (step v) {} inputs) flow loginId) ∧
    ∀ l, (Machine.run (step v) {} inputs).login = some l →
      (Machine.run (step v) {} inputs).timer = true ∨
        ∃ m loginId, Polled (Machine.run (step v) {} inputs) m loginId
          (Machine.run (step v) {} inputs).attempt l.flow := by
  constructor
  · intro hok flow loginId hopened
    have hrun := (bound_run (fun p => p = pluginId) v inputs
      (Machine.Along.mono (step v) (fun s i hi p hp => hp ▸ hi) hok)).1
    exact hrun.accounted rfl hopened
  intro l hl
  have hany : Machine.Along (step v) (fun s i => ∀ pluginId, False →
      Stays pluginId s i ∧ Heard pluginId s i) {} inputs :=
    Machine.along_of_forall (step v) (fun _ _ _ hfalse => hfalse.elim) {} inputs
  obtain ⟨hrun, howned⟩ := bound_run (fun _ => False) v inputs hany
  have hlogin : (Machine.run (step v) {} inputs).login ≠ none := by
    rw [hl]
    exact Option.some_ne_none l
  rcases hrun.flows.watched hlogin with htimer | ⟨m, loginId, flow, hpolled⟩
  · exact .inl htimer
  rw [← (howned.flow_of_poll hpolled rfl hl).1] at hpolled
  exact .inr ⟨m, loginId, hpolled⟩

/-- The form of the plugin is shown, a sign-in has opened its flow, and a status read of it is at the
worker. -/
def followedFlow : List Input :=
  [.load, .runs 0 (.listed [(demo, true)]), .delivers 0, .finishes 0,
    .loadConfig demo.id, .runs 1 (.values []), .delivers 1, .finishes 1,
    .signIn demo.id [], .runs 2 (.login { state := .open, loginId := "login".toList }),
    .delivers 2, .finishes 2, .timerFires]

/-- The user closes the form, and the cancel is sent. -/
def cancelledFlow : List Input := followedFlow ++ [.closeConfig, .runs 4 (.told [] true)]

/-- The status read fails, and its failure has come. -/
def failedRead : List Input := followedFlow ++ [.runs 3 (.failed "timeout".toList), .delivers 3]

theorem sign_ins_end_cancelled :
    Accounted (Machine.run (step plainView) {} cancelledFlow) 2 "login".toList := by
  refine (sign_ins_end plainView demo.id cancelledFlow).1 ?_ 2 "login".toList (by decide +kernel)
  refine ⟨⟨trivial, trivial⟩, ⟨trivial, trivial⟩, ⟨⟨(demo, true), List.mem_singleton_self _, rfl⟩,
    trivial⟩, ⟨trivial, trivial⟩, ⟨trivial, trivial⟩, ⟨trivial, trivial⟩, ⟨trivial, trivial⟩,
    ⟨trivial, trivial⟩, ⟨trivial, trivial⟩, ⟨trivial, trivial⟩, ⟨trivial, trivial⟩,
    ⟨trivial, trivial⟩, ⟨trivial, trivial⟩, ⟨trivial, trivial⟩, ⟨trivial, trivial⟩, trivial⟩

/-- After the failed read, its task alone is left, and its result has come. -/
theorem failedRead_tasks {task : Task}
    (h : (Machine.run (step plainView) {} failedRead).tasks.Holds id task) :
    task = .quiet (.pollLogin demo "login".toList (some ⟨2, 1, demo.id⟩) 2) .delivered := by
  have hnext : (Machine.run (step plainView) {} failedRead).tasks.next = 4 := by decide +kernel
  have hlt : id < 4 := by
    rw [← hnext]
    exact h.lt
  have hread : (Machine.run (step plainView) {} failedRead).tasks.get 3 =
      some (.quiet (.pollLogin demo "login".toList (some ⟨2, 1, demo.id⟩) 2) .delivered) := by
    decide +kernel
  have hother : ∀ n < 3, (Machine.run (step plainView) {} failedRead).tasks.get n = none := by
    decide +kernel
  have hget : (Machine.run (step plainView) {} failedRead).tasks.get id = some task := h
  rcases Nat.lt_or_ge id 3 with hid | hid
  · rw [hother id hid] at hget
    nomatch hget
  have hthree : id = 3 := by omega
  rw [hthree, hread] at hget
  exact (Option.some.inj hget).symm

/-- **A status read that fails leaves its flow open**: the plugin stays, but the flow is not
followed any more, it has no final state, and no cancel was sent or is about to be. -/
theorem failed_read_leaves_flow :
    Machine.Along (step plainView) (Stays demo.id) {} failedRead ∧
      .opened 2 demo.id "login".toList ∈ (Machine.run (step plainView) {} failedRead).flows ∧
        ¬ Accounted (Machine.run (step plainView) {} failedRead) 2 "login".toList := by
  refine ⟨⟨trivial, trivial, ⟨(demo, true), List.mem_singleton_self _, rfl⟩, trivial, trivial,
    trivial, trivial, trivial, trivial, trivial, trivial, trivial, trivial, trivial, trivial,
    trivial⟩, by decide +kernel, ?_⟩
  have hnone : ∀ id, ¬ Cancelling (Machine.run (step plainView) {} failedRead) id 2 := by
    rintro id ⟨m, loginId, hid⟩
    nomatch (Task.quiet.inj (failedRead_tasks hid)).2
  rintro (hfinal | ⟨hfollowed | hanswering, -⟩ | hcancelled)
  · exact absurd hfinal (by decide +kernel)
  · obtain ⟨l, hl, -⟩ := hfollowed
    have hlogin : (Machine.run (step plainView) {} failedRead).login = none := by decide +kernel
    rw [hlogin] at hl
    nomatch hl
  · obtain ⟨id, st, m, a, values, step, hid, -⟩ := hanswering
    nomatch failedRead_tasks hid
  · rcases hcancelled.once with ⟨⟨id, hid, -⟩, -⟩ | ⟨-, hsent⟩
    · exact hnone id hid
    have hzero : cancels (Machine.run (step plainView) {} failedRead) 2 = 0 := by decide +kernel
    omega

end BlueFerry.PluginSettings
