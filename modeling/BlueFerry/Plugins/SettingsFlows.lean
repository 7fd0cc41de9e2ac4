import BlueFerry.Plugins.SettingsForm

/-! # The flows of browser sign-ins

A flow is what a plugin opens in answer to `ConfigLogin`; its number is that of the sign-in's step.
From then on its answer is on its way, or the flow is followed, or it has ended: a status read has
answered a final state, or a cancel was sent or is about to be. `Flows` says what holds of all flows
at any time, `Live` that the flows of one plugin are accounted for.
-/

namespace BlueFerry.PluginSettings

open BlueFerry.Text

/-! ## Where a flow is -/

/-- A cancel of the flow is at the runner, and has not been sent. -/
def Cancelling (s : State) (id flow : Nat) : Prop :=
  ∃ m loginId, s.tasks.Holds id (.quiet (.cancelLogin m loginId flow) .submitted)

/-- It is a cancel of this flow. -/
def FlowEvent.cancels (flow : Nat) : FlowEvent → Bool
  | .cancelled flow' _ => decide (flow' = flow)
  | _ => false

/-- How often the flow was cancelled. -/
def cancels (s : State) (flow : Nat) : Nat := s.flows.countP (FlowEvent.cancels flow)

/-- No cancel of the flow was sent, and none is about to be. -/
def Untouched (s : State) (flow : Nat) : Prop := (∀ id, ¬ Cancelling s id flow) ∧ cancels s flow = 0

/-- At most one cancel of the flow was sent, or is about to be. -/
structure AtMostOnce (s : State) (flow : Nat) : Prop where
  sent : cancels s flow ≤ 1
  waiting : ∀ i j, Cancelling s i flow → Cancelling s j flow → i = j
  apart : ∀ i, Cancelling s i flow → cancels s flow = 0

/-- The flow is polled. -/
def Followed (s : State) (flow : Nat) : Prop := ∃ l, s.login = some l ∧ l.flow = flow

/-- The answer that opened the flow has not come yet. -/
def Answering (s : State) (flow : Nat) : Prop :=
  ∃ id st m a values step, s.tasks.Holds id (.work st (.ran (.login step))) ∧
    st.job = .signIn m a values ∧ st.number = flow ∧ step.state = .open

/-- The timer of the status reads is armed, or one of the sign-in is unanswered. -/
def Watched (s : State) : Prop :=
  s.timer = true ∨ ∃ m loginId flow, Polled s m loginId s.attempt flow

/-- What holds of all flows. -/
structure Flows (s : State) : Prop where
  ran : ∀ flow pluginId loginId, .opened flow pluginId loginId ∈ s.flows →
    ∃ w ∈ s.ran, w.number = flow
  single : ∀ flow pluginId loginId pluginId' loginId', .opened flow pluginId loginId ∈ s.flows →
    .opened flow pluginId' loginId' ∈ s.flows → pluginId = pluginId' ∧ loginId = loginId'
  login : ∀ l, s.login = some l → .opened l.flow l.pluginId l.loginId ∈ s.flows
  answer : ∀ id st m a values step, s.tasks.Holds id (.work st (.ran (.login step))) →
    st.job = .signIn m a values → step.state = .open →
      .opened st.number m.id step.loginId ∈ s.flows
  cancels : ∀ id m loginId flow g, s.tasks.Holds id (.quiet (.cancelLogin m loginId flow) g) →
    .opened flow m.id loginId ∈ s.flows
  cancelled : ∀ flow loginId, .cancelled flow loginId ∈ s.flows →
    ∃ pluginId, .opened flow pluginId loginId ∈ s.flows
  once : ∀ flow, AtMostOnce s flow
  answering : ∀ flow, Answering s flow → Untouched s flow
  followed : ∀ flow, Followed s flow → Untouched s flow
  apart : ∀ n job, Pending s n job → ¬ Followed s n
  reads : ∀ id m loginId attempt flow r,
    s.tasks.Holds id (.quiet (.pollLogin m loginId attempt flow) (.ran r)) →
      State.fitsQuiet (.pollLogin m loginId attempt flow) r = true ∧
        ∀ step, r = .login step → step.state.final = true → .final flow ∈ s.flows
  watched : s.login ≠ none → Watched s

/-- The flow has ended, or its cancel is about to be sent. -/
def Ended (s : State) (flow : Nat) : Prop :=
  .final flow ∈ s.flows ∨ (∃ id, Cancelling s id flow) ∨ 0 < cancels s flow

/-- The flows of the plugin are accounted for. -/
structure Live (pluginId : Str) (s : State) : Prop where
  known : ∀ l, s.login = some l → l.pluginId = pluginId → (s.find pluginId).isSome
  live : ∀ flow loginId, .opened flow pluginId loginId ∈ s.flows →
    Ended s flow ∨ Followed s flow ∨ Answering s flow

/-- What holds of all flows, and of those of the plugins that stay. -/
structure Bound (stays : Str → Prop) (s : State) : Prop where
  flows : Flows s
  live : ∀ pluginId, stays pluginId → Live pluginId s

variable {v : View} {patient : Prop} {stays : Str → Prop} {s s' : State}

variable {flow : Nat}

theorem cancels_eq_zero : cancels s flow = 0 ↔ ∀ loginId, .cancelled flow loginId ∉ s.flows := by
  unfold cancels
  rw [List.countP_eq_zero]
  constructor
  · intro h loginId hin
    exact h _ hin (by simp [FlowEvent.cancels])
  intro h e he hcancels
  cases e with
  | opened flow' pluginId loginId => nomatch hcancels
  | final flow' => nomatch hcancels
  | cancelled flow' loginId =>
    have hsame : flow' = flow := of_decide_eq_true hcancels
    rw [hsame] at he
    exact h loginId he

theorem flows_start : Flows {} where
  ran := fun _ _ _ h => absurd h List.not_mem_nil
  single := fun _ _ _ _ _ h => absurd h List.not_mem_nil
  login := nofun
  answer := fun id _ _ _ _ _ h => absurd h (Slots.not_holds_empty id _)
  cancels := fun id _ _ _ _ h => absurd h (Slots.not_holds_empty id _)
  cancelled := fun _ _ h => absurd h List.not_mem_nil
  once := by
    intro flow
    have hnone : ∀ id, ¬ Cancelling {} id flow := by
      rintro id ⟨m, loginId, h⟩
      exact Slots.not_holds_empty id _ h
    exact ⟨Nat.zero_le 1, fun i _ h => absurd h (hnone i), fun i h => absurd h (hnone i)⟩
  answering := by
    rintro flow ⟨id, st, m, a, values, step, h, -⟩
    exact absurd h (Slots.not_holds_empty id _)
  followed := by
    rintro flow ⟨l, h, -⟩
    nomatch h
  apart := by
    rintro n job - ⟨l, h, -⟩
    nomatch h
  reads := fun id _ _ _ _ _ h => absurd h (Slots.not_holds_empty id _)
  watched := fun h => absurd rfl h

theorem bound_start (stays : Str → Prop) : Bound stays {} where
  flows := flows_start
  live := fun _ _ => ⟨fun _ h => absurd h (by simp), fun _ _ h => absurd h List.not_mem_nil⟩

/-! ## What leaves the flows where they are -/

/-- No flow is opened, cancelled or followed that was not before. -/
structure Below (s s' : State) : Prop where
  flows : s'.flows = s.flows
  ran : s'.ran = s.ran
  steps : s.steps ≤ s'.steps
  login : ∀ l', s'.login = some l' → ∃ l, s.login = some l ∧ l.flow = l'.flow ∧
    l.pluginId = l'.pluginId ∧ l.loginId = l'.loginId
  answer : ∀ id st step, s'.tasks.Holds id (.work st (.ran (.login step))) →
    s.tasks.Holds id (.work st (.ran (.login step)))
  cancels : ∀ id m loginId flow g, s'.tasks.Holds id (.quiet (.cancelLogin m loginId flow) g) →
    ∃ g', s.tasks.Holds id (.quiet (.cancelLogin m loginId flow) g')
  cancelling : ∀ id flow, Cancelling s' id flow ↔ Cancelling s id flow
  pending : ∀ n job, Pending s' n job → Pending s n job ∨ s.steps ≤ n
  reads : ∀ id m loginId attempt flow r,
    s'.tasks.Holds id (.quiet (.pollLogin m loginId attempt flow) (.ran r)) →
      s.tasks.Holds id (.quiet (.pollLogin m loginId attempt flow) (.ran r))
  watched : s'.login ≠ none → Watched s → Watched s'

/-- The flows are where they were. -/
structure Calm (s s' : State) : Prop extends Below s s' where
  manifests : s'.manifests = s.manifests
  following : ∀ flow, Followed s flow → Followed s' flow
  answering : ∀ flow, Answering s flow → Answering s' flow

theorem Below.refl (s : State) : Below s s where
  flows := rfl
  ran := rfl
  steps := le_rfl
  login := fun l h => ⟨l, h, rfl, rfl, rfl⟩
  answer := fun _ _ _ h => h
  cancels := fun _ _ _ _ g h => ⟨g, h⟩
  cancelling := fun _ _ => Iff.rfl
  pending := fun _ _ h => .inl h
  reads := fun _ _ _ _ _ _ h => h
  watched := fun _ h => h

theorem Calm.refl (s : State) : Calm s s where
  toBelow := Below.refl s
  manifests := rfl
  following := fun _ h => h
  answering := fun _ h => h

theorem Below.trans {s'' : State} (h : Below s s') (h' : Below s' s'') : Below s s'' where
  flows := h'.flows.trans h.flows
  ran := h'.ran.trans h.ran
  steps := le_trans h.steps h'.steps
  login := by
    intro l'' hl''
    obtain ⟨l', hl', hflow', hplugin', hloginId'⟩ := h'.login l'' hl''
    obtain ⟨l, hl, hflow, hplugin, hloginId⟩ := h.login l' hl'
    exact ⟨l, hl, hflow.trans hflow', hplugin.trans hplugin', hloginId.trans hloginId'⟩
  answer := fun id st step hid => h.answer id st step (h'.answer id st step hid)
  cancels := by
    intro id m loginId flow g hid
    obtain ⟨g', hid⟩ := h'.cancels id m loginId flow g hid
    exact h.cancels id m loginId flow g' hid
  cancelling := fun id flow => (h'.cancelling id flow).trans (h.cancelling id flow)
  pending := by
    intro n job hpending
    rcases h'.pending n job hpending with hpending | hle
    · exact h.pending n job hpending
    · exact .inr (le_trans h.steps hle)
  reads := fun id m loginId attempt flow r hid =>
    h.reads id m loginId attempt flow r (h'.reads id m loginId attempt flow r hid)
  watched := by
    intro hlogin hwatched
    refine h'.watched hlogin (h.watched (fun hnone => ?_) hwatched)
    obtain ⟨l'', hl''⟩ := Option.ne_none_iff_exists'.mp hlogin
    obtain ⟨l', hl', -⟩ := h'.login l'' hl''
    rw [hl'] at hnone
    nomatch hnone

theorem Calm.trans {s'' : State} (h : Calm s s') (h' : Calm s' s'') : Calm s s'' where
  toBelow := h.toBelow.trans h'.toBelow
  manifests := h'.manifests.trans h.manifests
  following := fun flow hflow => h'.following flow (h.following flow hflow)
  answering := fun flow hflow => h'.answering flow (h.answering flow hflow)

theorem Below.followed (h : Below s s') (hfollowed : Followed s' flow) : Followed s flow := by
  obtain ⟨l', hl', hflow⟩ := hfollowed
  obtain ⟨l, hl, hsame, -⟩ := h.login l' hl'
  exact ⟨l, hl, hsame.trans hflow⟩

theorem Below.cancels_eq (h : Below s s') (flow : Nat) :
    PluginSettings.cancels s' flow = PluginSettings.cancels s flow := by
  unfold PluginSettings.cancels
  rw [h.flows]

theorem Below.untouched (h : Below s s') (hs : Untouched s flow) : Untouched s' flow := by
  refine ⟨fun id hid => hs.1 id ((h.cancelling id flow).mp hid), ?_⟩
  rw [h.cancels_eq]
  exact hs.2

variable {loginId pluginId : Str}

/-- A flow that was opened has the number of a step that has run. -/
theorem Flows.opened_lt (h : Flows s) (hq : Queued patient s)
    (hopened : .opened flow pluginId loginId ∈ s.flows) : flow < s.steps := by
  obtain ⟨w, hw, hnumber⟩ := h.ran flow pluginId loginId hopened
  exact ((hq.ran flow).mp ⟨w, hw, hnumber⟩).1

theorem Flows.followed_lt (h : Flows s) (hq : Queued patient s) (hfollowed : Followed s flow) :
    flow < s.steps := by
  obtain ⟨l, hl, rfl⟩ := hfollowed
  exact h.opened_lt hq (h.login l hl)

theorem Flows.below (h : Flows s) (hq : Queued patient s) (hcalm : Below s s') : Flows s' := by
  have hanswering : ∀ flow, Answering s' flow → Answering s flow := by
    rintro flow ⟨id, st, m, a, values, step, hid, hrest⟩
    exact ⟨id, st, m, a, values, step, hcalm.answer id st step hid, hrest⟩
  constructor
  · rw [hcalm.flows, hcalm.ran]
    exact h.ran
  · rw [hcalm.flows]
    exact h.single
  · intro l' hl'
    obtain ⟨l, hl, hflow, hplugin, hloginId⟩ := hcalm.login l' hl'
    rw [hcalm.flows, ← hflow, ← hplugin, ← hloginId]
    exact h.login l hl
  · intro id st m a values step hid
    rw [hcalm.flows]
    exact h.answer id st m a values step (hcalm.answer id st step hid)
  · intro id m loginId flow g hid
    obtain ⟨g', hid⟩ := hcalm.cancels id m loginId flow g hid
    rw [hcalm.flows]
    exact h.cancels id m loginId flow g' hid
  · rw [hcalm.flows]
    exact h.cancelled
  · intro flow
    have honce := h.once flow
    constructor
    · rw [hcalm.cancels_eq]
      exact honce.sent
    · intro i j hi hj
      exact honce.waiting i j ((hcalm.cancelling i flow).mp hi) ((hcalm.cancelling j flow).mp hj)
    · intro i hi
      rw [hcalm.cancels_eq]
      exact honce.apart i ((hcalm.cancelling i flow).mp hi)
  · intro flow hflow
    exact hcalm.untouched (h.answering flow (hanswering flow hflow))
  · intro flow hflow
    exact hcalm.untouched (h.followed flow (hcalm.followed hflow))
  · intro n job hpending hfollowed
    have hfollowed := hcalm.followed hfollowed
    rcases hcalm.pending n job hpending with hpending | hle
    · exact h.apart n job hpending hfollowed
    have hlt := h.followed_lt hq hfollowed
    omega
  · intro id m loginId attempt flow r hid
    rw [hcalm.flows]
    exact h.reads id m loginId attempt flow r (hcalm.reads id m loginId attempt flow r hid)
  intro hlogin
  refine hcalm.watched hlogin (h.watched (fun hnone => ?_))
  obtain ⟨l', hl'⟩ := Option.ne_none_iff_exists'.mp hlogin
  obtain ⟨l, hl, -⟩ := hcalm.login l' hl'
  rw [hl] at hnone
  nomatch hnone

theorem Below.ended (h : Below s s') (hs : Ended s flow) : Ended s' flow := by
  unfold Ended at hs ⊢
  rw [h.flows, h.cancels_eq]
  simp only [h.cancelling]
  exact hs

theorem Live.calm (h : Live pluginId s) (hcalm : Calm s s') : Live pluginId s' := by
  constructor
  · intro l' hl' hplugin'
    obtain ⟨l, hl, -, hplugin, -⟩ := hcalm.login l' hl'
    unfold State.find
    rw [hcalm.manifests]
    exact h.known l hl (hplugin.trans hplugin')
  intro flow loginId hopened
  rw [hcalm.flows] at hopened
  rcases h.live flow loginId hopened with hended | hfollowed | hanswering
  · exact .inl (hcalm.toBelow.ended hended)
  · exact .inr (.inl (hcalm.following flow hfollowed))
  · exact .inr (.inr (hcalm.answering flow hanswering))

theorem Bound.calm (h : Bound stays s) (hq : Queued patient s) (hcalm : Calm s s') :
    Bound stays s' where
  flows := h.flows.below hq hcalm.toBelow
  live := fun pluginId hstays => (h.live pluginId hstays).calm hcalm

/-! ## Calm changes -/

theorem watched_of_eq (htimer : s'.timer = s.timer) (htasks : s'.tasks = s.tasks)
    (hattempt : s'.attempt = s.attempt) (h : Watched s) : Watched s' := by
  unfold Watched Polled at h ⊢
  rw [htimer, htasks, hattempt]
  exact h

/-- Nothing of the sign-ins changes. -/
theorem calm_of_parts (hsteps : s.steps ≤ s'.steps) (hattempt : s'.attempt = s.attempt ∨ s.login = none)
    (h : (s'.flows, s'.ran, s'.manifests, s'.login, s'.tasks, s'.queue, s'.timer) =
      (s.flows, s.ran, s.manifests, s.login, s.tasks, s.queue, s.timer)) : Calm s s' := by
  simp only [Prod.mk.injEq] at h
  obtain ⟨hflows, hran, hmanifests, hlogin, htasks, hqueue, htimer⟩ := h
  exact {
    flows := hflows
    ran := hran
    steps := hsteps
    manifests := hmanifests
    following := by
      unfold Followed
      rw [hlogin]
      exact fun _ h => h
    login := by
      rw [hlogin]
      exact fun l h => ⟨l, h, rfl, rfl, rfl⟩
    answer := by
      rw [htasks]
      exact fun _ _ _ h => h
    answering := by
      unfold Answering
      rw [htasks]
      exact fun _ h => h
    cancels := by
      rw [htasks]
      exact fun _ _ _ _ g h => ⟨g, h⟩
    cancelling := by
      unfold Cancelling
      rw [htasks]
      exact fun _ _ => Iff.rfl
    pending := by
      unfold Pending
      rw [htasks, hqueue]
      exact fun _ _ h => .inl h
    reads := by
      rw [htasks]
      exact fun _ _ _ _ _ _ h => h
    watched := by
      intro hfollowed hwatched
      rcases hattempt with hattempt | hnone
      · exact watched_of_eq htimer htasks hattempt hwatched
      rw [hlogin] at hfollowed
      exact absurd hnone hfollowed }

theorem calm_of_eq (h : (s'.steps, s'.attempt, s'.flows, s'.ran, s'.manifests, s'.login, s'.tasks,
      s'.queue, s'.timer) =
    (s.steps, s.attempt, s.flows, s.ran, s.manifests, s.login, s.tasks, s.queue, s.timer)) :
    Calm s s' := by
  simp only [Prod.mk.injEq] at h
  obtain ⟨hsteps, hattempt, hrest⟩ := h
  exact calm_of_parts hsteps.ge (.inl hattempt) (by simp [hrest])

section

variable (s : State)

theorem calm_updateForm (f : Form → Form) : Calm s (s.updateForm f) := calm_of_eq rfl

theorem calm_setStatus (kind : StatusKind) (ok : Bool) (text : Str) (pending : Bool) :
    Calm s (s.setStatus kind ok text pending) := calm_updateForm s _

theorem calm_say (message : Str) (ok : Bool) : Calm s (s.say message ok) := calm_of_eq rfl

theorem calm_tellDone (message : Str) (ok : Bool) : Calm s (s.tellDone message ok) := by
  unfold State.tellDone
  split
  · exact Calm.refl s
  · exact calm_say s message ok

/-- One more task, which is no cancel and has not been run. -/
theorem calm_put (task : Task) (queue : List Step) (hqueue : ∀ w ∈ queue, w ∈ s.queue)
    (hcancel : ∀ m loginId flow g, task ≠ .quiet (.cancelLogin m loginId flow) g)
    (hran : ∀ st r, task ≠ .work st (.ran r)) (hread : ∀ job r, task ≠ .quiet job (.ran r))
    (hpending : ∀ st g, task = .work st g → Pending s st.number st.job ∨ s.steps ≤ st.number) :
    Calm s { s with tasks := s.tasks.put task, queue } where
  flows := rfl
  ran := rfl
  steps := le_rfl
  manifests := rfl
  following := fun _ h => h
  login := fun l h => ⟨l, h, rfl, rfl, rfl⟩
  answer := by
    intro id st step hid
    rcases Slots.holds_put.mp hid with ⟨-, heq⟩ | hid
    · exact absurd heq.symm (hran st _)
    · exact hid
  answering := by
    rintro flow ⟨id, st, m, a, values, step, hid, hrest⟩
    exact ⟨id, st, m, a, values, step, Slots.holds_put.mpr (.inr hid), hrest⟩
  cancels := by
    intro id m loginId flow g hid
    rcases Slots.holds_put.mp hid with ⟨-, heq⟩ | hid
    · exact absurd heq.symm (hcancel m loginId flow g)
    · exact ⟨g, hid⟩
  cancelling := by
    intro id flow
    constructor
    · rintro ⟨m, loginId, hid⟩
      rcases Slots.holds_put.mp hid with ⟨-, heq⟩ | hid
      · exact absurd heq.symm (hcancel m loginId flow .submitted)
      · exact ⟨m, loginId, hid⟩
    · rintro ⟨m, loginId, hid⟩
      exact ⟨m, loginId, Slots.holds_put.mpr (.inr hid)⟩
  pending := by
    rintro n job (⟨w, hw, hn⟩ | ⟨id, st, g, hid, hg, hn, hjob⟩)
    · exact .inl (.inl ⟨w, hqueue w hw, hn⟩)
    · rcases Slots.holds_put.mp hid with ⟨-, heq⟩ | hid
      · rw [← hn, ← hjob]
        exact hpending st g heq.symm
      · exact .inl (.inr ⟨id, st, g, hid, hg, hn, hjob⟩)
  reads := by
    intro id m loginId attempt flow r hid
    rcases Slots.holds_put.mp hid with ⟨-, heq⟩ | hid
    · exact absurd heq.symm (hread _ r)
    · exact hid
  watched := by
    rintro - (htimer | ⟨m, loginId, flow, id, g, hid, hg⟩)
    · exact .inl htimer
    · exact .inr ⟨m, loginId, flow, id, g, Slots.holds_put.mpr (.inr hid), hg⟩

theorem calm_put_step (st : Step) (queue : List Step) (hqueue : ∀ w ∈ queue, w ∈ s.queue)
    (hpending : Pending s st.number st.job ∨ s.steps ≤ st.number) :
    Calm s { s with tasks := s.tasks.put (.work st .submitted), queue } := by
  refine calm_put s _ queue hqueue (fun _ _ _ _ => Task.noConfusion) ?_ (fun _ _ => Task.noConfusion) ?_
  · intro st' r heq
    nomatch (Task.work.inj heq).2
  · intro st' g heq
    rw [← (Task.work.inj heq).1]
    exact hpending

theorem calm_work (user : Bool) (job : Job) : Calm s (s.work user job) := by
  unfold State.work
  by_cases hbusy : s.busy ≠ []
  · rw [if_pos hbusy]
    have hsame : Calm s { s with steps := s.steps + 1 } :=
      calm_of_parts (Nat.le_succ _) (.inl rfl) rfl
    refine { hsame with pending := ?_ }
    rintro n job' (⟨w, hw, hn, hjob⟩ | h)
    · rcases List.mem_append.mp hw with hw | hw
      · exact .inl (.inl ⟨w, hw, hn, hjob⟩)
      rw [List.mem_singleton.mp hw] at hn
      exact .inr hn.le
    · exact .inl (.inr h)
  · rw [if_neg hbusy]
    refine Calm.trans (calm_put_step s ⟨s.steps, user, job⟩ s.queue (fun w hw => hw)
      (.inr le_rfl)) ?_
    exact calm_of_parts (Nat.le_succ _) (.inl rfl) rfl

theorem calm_nextStep : Calm s s.nextStep := by
  unfold State.nextStep
  split
  · exact Calm.refl s
  rename_i st queue hq
  split
  · refine Calm.trans (calm_put_step s st queue ?_ ?_) ?_
    · intro w hw
      rw [hq]
      exact .tail _ hw
    · refine .inl (.inl ⟨st, ?_, rfl, rfl⟩)
      rw [hq]
      exact .head _
    · exact calm_of_eq rfl
  · exact Calm.refl s

theorem calm_reloadConfig (pluginId : Str) : Calm s (s.reloadConfig pluginId) := by
  unfold State.reloadConfig
  split
  · exact Calm.refl s
  split
  · exact Calm.refl s
  refine Calm.trans ?_ (calm_work s.keepForm false _)
  exact calm_of_eq rfl

section

variable (m : Manifest)

theorem calm_loadConfigDone (opening generation : Nat) (status : Option Status)
    (values : Values) : Calm s (s.loadConfigDone m opening generation status values) := by
  unfold State.loadConfigDone
  split
  · exact calm_of_eq rfl
  · exact Calm.refl s

theorem calm_loadConfigFailed (generation : Nat) (text : Str) :
    Calm s (s.loadConfigFailed m generation text) := by
  unfold State.loadConfigFailed
  split
  · exact calm_updateForm s _
  · exact Calm.refl s

theorem calm_testConfigDone (ok : Bool) (errors : Values)
    (message : Str) : Calm s (s.testConfigDone m ok errors message) := by
  unfold State.testConfigDone
  split
  · exact calm_updateForm s _
  · exact Calm.refl s

theorem calm_testConfigFailed (text : Str) : Calm s (s.testConfigFailed m text) := by
  unfold State.testConfigFailed
  split
  · exact calm_setStatus s _ _ _ _
  · exact Calm.refl s

theorem calm_actionFailed (generation : Nat) (text : Str) :
    Calm s (s.actionFailed m generation text) := by
  unfold State.actionFailed
  split
  · exact calm_setStatus s _ _ _ _
  · exact Calm.refl s

theorem calm_actionDone (generation : Nat)
    (result : Option (Bool × Str × Str)) : Calm s (s.actionDone v m generation result) := by
  unfold State.actionDone
  split
  · exact Calm.refl s
  rename_i ok message uri
  split
  · exact Calm.refl s
  have hopened : Calm s (if ok ∧ uri ≠ [] then s.openPage uri else s) := by
    split
    · exact calm_of_eq rfl
    · exact Calm.refl s
  have hset := hopened.trans
    (calm_setStatus _ .action ok (v.configActionText ok message m.name) false)
  exact hset.trans ((calm_reloadConfig _ m.id).trans (calm_work _ false .list))

end

end

/-- The end of a sign-in that is not followed any more. -/
theorem calm_loginFinished (hlogin : s.login = none) (pluginId : Str) (step : LoginStep) :
    Calm s (s.loginFinished v pluginId step) := by
  unfold State.loginFinished
  dsimp only
  have hended : ∀ ok text, Calm s ({ s with attempt := none }.setStatus .login ok text false) :=
    fun ok text => calm_of_parts le_rfl (.inr hlogin) rfl
  split
  · exact (hended _ _).trans ((calm_reloadConfig _ _).trans (calm_work _ _ _))
  · exact hended _ _

theorem calm_signInFailed {a : Attempt} (text : Str)
    (hlogin : s.attempt = some a → s.login = none) : Calm s (s.signInFailed a text) := by
  unfold State.signInFailed
  split
  · rename_i hwanted
    obtain ⟨ha, -⟩ := attempts_iff.mp hwanted
    exact calm_of_parts le_rfl (.inr (hlogin ha)) rfl
  · exact Calm.refl s

theorem calm_saveConfig (s : State) (pluginId : Str) (raw : Values) :
    Calm s (s.saveConfig v pluginId raw) := by
  unfold State.saveConfig
  split
  · exact Calm.refl s
  split
  · exact Calm.refl s
  split
  split
  · exact calm_updateForm s _
  · exact calm_work s _ _

theorem calm_testConfig (s : State) (pluginId : Str) (raw : Values) :
    Calm s (s.testConfig v pluginId raw) := by
  unfold State.testConfig
  split
  · exact Calm.refl s
  split
  · exact Calm.refl s
  split
  split
  · exact calm_updateForm s _
  · exact (calm_setStatus s _ _ _ _).trans (calm_work _ _ _)

theorem calm_runAction (s : State) (pluginId actionId : Str) :
    Calm s (s.runAction pluginId actionId) := by
  unfold State.runAction
  split
  · exact Calm.refl s
  split
  · exact Calm.refl s
  · exact (calm_setStatus s _ _ _ _).trans (calm_work _ _ _)

/-! ## A cancel is submitted -/

theorem cancelling_start {m : Manifest} {n id : Nat} :
    Cancelling (s.start (.cancelLogin m loginId n)) id flow ↔
      (id = s.tasks.next ∧ flow = n) ∨ Cancelling s id flow := by
  constructor
  · rintro ⟨m', loginId', hid⟩
    rcases Slots.holds_put.mp hid with ⟨hnew, heq⟩ | hid
    · exact .inl ⟨hnew, (Quiet.cancelLogin.inj (Task.quiet.inj heq).1).2.2⟩
    · exact .inr ⟨m', loginId', hid⟩
  · rintro (⟨rfl, rfl⟩ | ⟨m', loginId', hid⟩)
    · exact ⟨m, loginId, Slots.holds_put.mpr (.inl ⟨rfl, rfl⟩)⟩
    · exact ⟨m', loginId', Slots.holds_put.mpr (.inr hid)⟩

/-- A flow that was not cancelled, and that nothing else ends, is cancelled. -/
theorem Flows.startCancel (h : Flows s) {m : Manifest} {n : Nat}
    (hopened : .opened n m.id loginId ∈ s.flows) (huntouched : Untouched s n)
    (hanswering : ¬ Answering s n) (hfollowed : ¬ Followed s n) :
    Flows (s.start (.cancelLogin m loginId n)) := by
  have hold : ∀ id st g, (s.start (.cancelLogin m loginId n)).tasks.Holds id (.work st g) →
      s.tasks.Holds id (.work st g) := fun id st g => ((alike_start s _).work id st g).mp
  have hother : ∀ flow, flow ≠ n → Untouched s flow →
      Untouched (s.start (.cancelLogin m loginId n)) flow := by
    intro flow hne hs
    refine ⟨fun id hid => ?_, hs.2⟩
    rcases cancelling_start.mp hid with ⟨-, hsame⟩ | hid
    · exact hne hsame
    · exact hs.1 id hid
  constructor
  · exact h.ran
  · exact h.single
  · exact h.login
  · exact fun id st m' a values step hid => h.answer id st m' a values step (hold id st _ hid)
  · intro id m' loginId' flow g hid
    rcases Slots.holds_put.mp hid with ⟨-, heq⟩ | hid
    · obtain ⟨rfl, rfl, rfl⟩ := Quiet.cancelLogin.inj (Task.quiet.inj heq).1
      exact hopened
    · exact h.cancels id m' loginId' flow g hid
  · exact h.cancelled
  · intro flow
    have honce := h.once flow
    by_cases hflow : flow = n
    · subst hflow
      have hnew : ∀ id, Cancelling (s.start (.cancelLogin m loginId flow)) id flow →
          id = s.tasks.next := by
        intro id hid
        rcases cancelling_start.mp hid with ⟨hnew, -⟩ | hid
        · exact hnew
        · exact absurd hid (huntouched.1 id)
      exact ⟨honce.sent, fun i j hi hj => (hnew i hi).trans (hnew j hj).symm,
        fun _ _ => huntouched.2⟩
    have hback : ∀ id, Cancelling (s.start (.cancelLogin m loginId n)) id flow →
        Cancelling s id flow := by
      intro id hid
      rcases cancelling_start.mp hid with ⟨-, hsame⟩ | hid
      · exact absurd hsame hflow
      · exact hid
    exact ⟨honce.sent, fun i j hi hj => honce.waiting i j (hback i hi) (hback j hj),
      fun i hi => honce.apart i (hback i hi)⟩
  · rintro flow ⟨id, st, m', a, values, step, hid, hrest⟩
    have hflow : Answering s flow := ⟨id, st, m', a, values, step, hold id st _ hid, hrest⟩
    refine hother flow ?_ (h.answering flow hflow)
    rintro rfl
    exact hanswering hflow
  · intro flow hflow
    refine hother flow ?_ (h.followed flow hflow)
    rintro rfl
    exact hfollowed hflow
  · intro n' job hpending
    refine h.apart n' job ?_
    exact (under_start s (fun _ _ _ _ => Quiet.noConfusion)).pending n' job hpending
  · intro id m' loginId' attempt flow r hid
    rcases Slots.holds_put.mp hid with ⟨-, heq⟩ | hid
    · nomatch (Task.quiet.inj heq).1
    · exact h.reads id m' loginId' attempt flow r hid
  · intro hlogin
    rcases h.watched hlogin with htimer | ⟨m', loginId', flow, id, g, hid, hg⟩
    · exact .inl htimer
    · exact .inr ⟨m', loginId', flow, id, g, Slots.holds_put.mpr (.inr hid), hg⟩

theorem Ended.start {job : Quiet} (h : Ended s flow) : Ended (s.start job) flow := by
  rcases h with hfinal | ⟨id, m, loginId, hid⟩ | hsent
  · exact .inl hfinal
  · exact .inr (.inl ⟨id, m, loginId, Slots.holds_put.mpr (.inr hid)⟩)
  · exact .inr (.inr hsent)

theorem Answering.start {job : Quiet} (h : Answering s flow) : Answering (s.start job) flow := by
  obtain ⟨id, st, m, a, values, step, hid, hrest⟩ := h
  exact ⟨id, st, m, a, values, step, Slots.holds_put.mpr (.inr hid), hrest⟩

/-! ## The sign-in is not followed any more -/

/-- What is followed and armed is forgotten. -/
theorem below_of_forgotten (hflows : s'.flows = s.flows) (hran : s'.ran = s.ran)
    (hsteps : s.steps ≤ s'.steps) (hlogin : s'.login = none) (htasks : s'.tasks = s.tasks)
    (hqueue : s'.queue = s.queue) : Below s s' where
  flows := hflows
  ran := hran
  steps := hsteps
  login := by
    rw [hlogin]
    nofun
  answer := by
    rw [htasks]
    exact fun _ _ _ h => h
  cancels := by
    rw [htasks]
    exact fun _ _ _ _ g h => ⟨g, h⟩
  cancelling := by
    unfold Cancelling
    rw [htasks]
    exact fun _ _ => Iff.rfl
  pending := by
    unfold Pending
    rw [htasks, hqueue]
    exact fun _ _ h => .inl h
  reads := by
    rw [htasks]
    exact fun _ _ _ _ _ _ h => h
  watched := fun h => absurd hlogin h

/-- The step whose answer opens a flow waits until it comes. -/
theorem Answering.pending (h : Answering s flow) : ∃ job, Pending s flow job := by
  obtain ⟨id, st, m, a, values, step, hid, hjob, hn, -⟩ := h
  exact ⟨_, .inr ⟨id, st, _, hid, Stage.noConfusion, hn, hjob⟩⟩

theorem Flows.not_answering (h : Flows s) (hfollowed : Followed s flow) : ¬ Answering s flow := by
  intro hanswering
  obtain ⟨job, hpending⟩ := hanswering.pending
  exact h.apart flow job hpending hfollowed

theorem Flows.not_followed (h : Flows s) (hanswering : Answering s flow) :
    ¬ Followed s flow := fun hfollowed => h.not_answering hfollowed hanswering

theorem below_forgetLogin (s : State) : Below s s.forgetLogin :=
  below_of_forgotten rfl rfl le_rfl rfl rfl rfl

theorem Flows.stopLogin (h : Flows s) (hq : Queued patient s) : Flows s.stopLogin := by
  have hforgotten : Flows s.forgetLogin := h.below hq (below_forgetLogin s)
  unfold State.stopLogin
  cases hl : s.login with
  | none => exact hforgotten
  | some l =>
    dsimp only
    cases hm : s.find l.pluginId with
    | none => exact hforgotten
    | some m =>
      have hfollowed : Followed s l.flow := ⟨l, hl, rfl⟩
      refine hforgotten.startCancel ?_ ?_ ?_ ?_
      · have hopened := h.login l hl
        rwa [← find_id hm] at hopened
      · exact (below_forgetLogin s).untouched (h.followed l.flow hfollowed)
      · exact fun hanswering => h.not_answering hfollowed hanswering
      · rintro ⟨l', hl', -⟩
        nomatch hl'

theorem Live.stopLogin (h : Live pluginId s) (hf : Flows s) : Live pluginId s.stopLogin := by
  constructor
  · intro l hl
    rw [stopLogin_login] at hl
    nomatch hl
  unfold State.stopLogin
  cases hl : s.login with
  | none =>
    intro flow loginId hopened
    rcases h.live flow loginId hopened with hended | ⟨l, hl', -⟩ | hanswering
    · exact .inl hended
    · rw [hl] at hl'
      nomatch hl'
    · exact .inr (.inr hanswering)
  | some l =>
    have hknown := h.known l hl
    dsimp only
    cases hm : s.find l.pluginId with
    | none =>
      intro flow loginId hopened
      rcases h.live flow loginId hopened with hended | ⟨l', hl', hflow⟩ | hanswering
      · exact .inl hended
      · -- the plugin is listed, so the cancel is submitted
        rw [hl] at hl'
        obtain rfl := Option.some.inj hl'
        have hopened' := hf.login l hl
        rw [hflow] at hopened'
        have hplugin := (hf.single _ _ _ _ _ hopened' hopened).1
        have hfound := hknown hplugin
        rw [← hplugin, hm] at hfound
        nomatch hfound
      · exact .inr (.inr hanswering)
    | some m =>
      intro flow loginId hopened
      rcases h.live flow loginId hopened with hended | ⟨l', hl', hflow⟩ | hanswering
      · exact .inl (Ended.start (s := s.forgetLogin) hended)
      · rw [hl] at hl'
        obtain rfl := Option.some.inj hl'
        refine .inl (.inr (.inl ⟨s.tasks.next, ?_⟩))
        exact cancelling_start.mpr (.inl ⟨rfl, hflow.symm⟩)
      · exact .inr (.inr (Answering.start (s := s.forgetLogin) hanswering))

theorem Bound.stopLogin (h : Bound stays s) (hq : Queued patient s) : Bound stays s.stopLogin where
  flows := h.flows.stopLogin hq
  live := fun pluginId hstays => (h.live pluginId hstays).stopLogin h.flows

/-! ## Handlers that stop a sign-in -/

theorem queued_stopLogin (hq : Queued patient s) : Queued patient s.stopLogin :=
  (alike_stopLogin s).queued hq

theorem Bound.closeConfig (h : Bound stays s) (hq : Queued patient s) :
    Bound stays s.closeConfig := by
  refine (h.stopLogin hq).calm (queued_stopLogin hq) ?_
  exact calm_of_eq rfl

theorem Bound.loadConfig (h : Bound stays s) (hq : Queued patient s) (pluginId : Str) :
    Bound stays (s.loadConfig pluginId) := by
  unfold State.loadConfig
  cases hm : s.find pluginId with
  | none => exact h
  | some m =>
    dsimp only
    split
    · exact h
    refine (h.stopLogin hq).calm (queued_stopLogin hq) ?_
    have hshown : Calm s.stopLogin (s.stopLogin.showForm m) := calm_of_eq rfl
    exact hshown.trans (calm_work _ true _)

theorem Bound.signIn (h : Bound stays s) (hq : Queued patient s) (pluginId : Str) (raw : Values) :
    Bound stays (s.signIn v pluginId raw) := by
  unfold State.signIn
  split
  · exact h
  split
  · exact h
  refine (h.stopLogin hq).calm (queued_stopLogin hq) ?_
  refine Calm.trans ?_ (calm_work _ true _)
  exact calm_of_parts le_rfl (.inr (stopLogin_login s)) rfl

theorem Bound.cancelSignIn (h : Bound stays s) (hq : Queued patient s) :
    Bound stays (s.cancelSignIn v) := by
  unfold State.cancelSignIn
  split
  · exact h.stopLogin hq
  · exact (h.stopLogin hq).calm (queued_stopLogin hq) (calm_setStatus _ _ _ _ _)

theorem Bound.setEnabled (h : Bound stays s) (hq : Queued patient s) (pluginId : Str)
    (enabled : Bool) : Bound stays (s.setEnabled pluginId enabled) := by
  have hcalm : Calm s (if enabled then s else { s with disabled := pluginId :: s.disabled }) := by
    split
    · exact Calm.refl s
    · exact calm_of_eq rfl
  have halike : Alike s (if enabled then s else { s with disabled := pluginId :: s.disabled }) := by
    split
    · exact Alike.refl s
    · exact alike_of_tasks rfl
  have hknown := h.calm hq hcalm
  have hqueued := halike.queued hq
  unfold State.setEnabled
  dsimp only
  split
  · exact (hknown.closeConfig hqueued).calm ((alike_closeConfig _).queued hqueued) (calm_work _ _ _)
  · exact hknown.calm hqueued (calm_work _ _ _)

theorem Bound.remove (h : Bound stays s) (hq : Queued patient s) (pluginId : Str) :
    Bound stays (s.remove pluginId) := by
  unfold State.remove
  split
  · exact (h.closeConfig hq).calm ((alike_closeConfig s).queued hq) (calm_work _ _ _)
  · exact h.calm hq (calm_work _ _ _)

/-- Stopping a sign-in disarms the timer, armed or not. -/
theorem stopLogin_timer (s : State) : ({ s with timer := false } : State).stopLogin = s.stopLogin := by
  unfold State.stopLogin
  cases s.login with
  | none => rfl
  | some l => rfl

theorem pollLogin_none (h : s.login = none) : s.pollLogin v = s := by
  unfold State.pollLogin
  rw [h]

theorem pollLogin_some {l : Login} (h : s.login = some l) :
    s.pollLogin v = match s.current l.pluginId with
      | none => s.stopLogin
      | some m =>
        if l.left = 0 then s.stopLogin.setStatus .login false (v.loginText .expired []) false
        else { s with login := some { l with left := l.left - 1 } }.start
          (.pollLogin m l.loginId s.attempt l.flow) := by
  unfold State.pollLogin
  rewrite [h]
  rfl

theorem Bound.pollLogin (h : Bound stays s) (hq : Queued patient s) :
    Bound stays (({ s with timer := false } : State).pollLogin v) := by
  have hstopped := h.stopLogin hq
  rcases Option.eq_none_or_eq_some s.login with hl | ⟨l, hl⟩
  · have hfired : ({ s with timer := false } : State).login = none := hl
    rw [pollLogin_none hfired]
    exact h.calm hq { Calm.refl s with watched := fun hsome => absurd hl hsome }
  have hfired : ({ s with timer := false } : State).login = some l := hl
  rw [pollLogin_some hfired]
  split
  · rw [stopLogin_timer]
    exact hstopped
  rename_i m hm
  split
  · rw [stopLogin_timer]
    exact hstopped.calm (queued_stopLogin hq) (calm_setStatus _ _ _ _ _)
  have hput := calm_put s (.quiet (.pollLogin m l.loginId s.attempt l.flow) .submitted)
    s.queue (fun w hw => hw) (fun _ _ _ _ heq => nomatch (Task.quiet.inj heq).1)
    (fun _ _ => Task.noConfusion) (fun _ _ heq => nomatch (Task.quiet.inj heq).2)
    (fun _ _ => Task.noConfusion)
  refine h.calm hq { hput with
    login := ?_
    watched := ?_
    following := ?_ }
  · intro l' hl'
    rw [← Option.some.inj hl']
    exact ⟨l, hl, rfl, rfl, rfl⟩
  · intro _ _
    refine .inr ⟨m, l.loginId, l.flow, s.tasks.next, .submitted, ?_, Stage.noConfusion⟩
    exact Slots.holds_put.mpr (.inl ⟨rfl, rfl⟩)
  rintro flow ⟨l', hl', hflow⟩
  rw [hl] at hl'
  rw [← Option.some.inj hl'] at hflow
  exact ⟨_, rfl, hflow⟩

end BlueFerry.PluginSettings
