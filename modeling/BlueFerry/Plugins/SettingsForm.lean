import BlueFerry.Plugins.SettingsSteps

/-! # The form that a completion may touch

A completion touches the form only while the form that asked for it is shown: reading the settings
and the plugin's own buttons keep the number of the form's generation, a sign-in its token. `Owned`
says what these numbers stand for; saving and testing keep the plugin's id alone, which a form that
was opened again shares with the one before it.
-/

namespace BlueFerry.PluginSettings

open BlueFerry.Text

/-! ## What waits -/

/-- The form of this opening is shown. -/
def State.Open (s : State) (opening : Nat) : Prop :=
  ∃ form, s.config = some form ∧ form.opening = opening

/-- A step with this number waits, or its result has not come yet. -/
def Pending (s : State) (n : Nat) (job : Job) : Prop :=
  (∃ st ∈ s.queue, st.number = n ∧ st.job = job) ∨
    ∃ id st g, s.tasks.Holds id (.work st g) ∧ g ≠ .delivered ∧ st.number = n ∧ st.job = job

/-- A status read is out. -/
def Polled (s : State) (m : Manifest) (loginId : Str) (attempt : Option Attempt) (flow : Nat) :
    Prop :=
  ∃ id g, s.tasks.Holds id (.quiet (.pollLogin m loginId attempt flow) g) ∧ g ≠ .delivered

/-- Everything that waits in `s'` waited in `s`. -/
structure Under (s s' : State) : Prop where
  pending : ∀ n job, Pending s' n job → Pending s n job
  polled : ∀ m loginId attempt flow, Polled s' m loginId attempt flow →
    Polled s m loginId attempt flow

variable {v : View} {patient : Prop} {s s' : State}

theorem Under.refl (s : State) : Under s s := ⟨fun _ _ h => h, fun _ _ _ _ h => h⟩

theorem Under.trans {s'' : State} (h : Under s s') (h' : Under s' s'') : Under s s'' where
  pending := fun n job hp => h.pending n job (h'.pending n job hp)
  polled := fun m loginId attempt flow hp =>
    h.polled m loginId attempt flow (h'.polled m loginId attempt flow hp)

theorem under_of_tasks (hqueue : s'.queue = s.queue) (htasks : s'.tasks = s.tasks) :
    Under s s' := by
  constructor
  · intro n job h
    unfold Pending at h ⊢
    rwa [hqueue, htasks] at h
  · intro m loginId attempt flow h
    unfold Polled at h ⊢
    rwa [htasks] at h

/-- A quiet task that is no status read. -/
theorem under_start (s : State) {quiet : Quiet}
    (hquiet : ∀ m loginId attempt flow, quiet ≠ .pollLogin m loginId attempt flow) :
    Under s (s.start quiet) := by
  constructor
  · rintro n job (h | ⟨id, st, g, hid, hst⟩)
    · exact .inl h
    · exact .inr ⟨id, st, g, ((alike_start s quiet).work id st g).mp hid, hst⟩
  rintro m loginId attempt flow ⟨id, g, hid, hg⟩
  rcases Slots.holds_put.mp hid with ⟨-, heq⟩ | hid
  · exact absurd (Task.quiet.inj heq).1.symm (hquiet m loginId attempt flow)
  · exact ⟨id, g, hid, hg⟩

/-- A task goes on from a stage that is not its last. -/
theorem under_withStage (s : State) (id : Nat) {g₀ : Stage}
    (hstage : ∀ st, ¬ s.tasks.Holds id (.work st .delivered))
    (hquiet : ∀ job, ¬ s.tasks.Holds id (.quiet job .delivered)) :
    Under s { s with tasks := s.tasks.modify id (Task.withStage g₀) } := by
  constructor
  · rintro n job (h | ⟨j, st, g, hj, hg, hst⟩)
    · exact .inl h
    · rcases holds_withStage.mp hj with ⟨rfl, rfl, g₁, hold⟩ | ⟨-, hj⟩
      · refine .inr ⟨j, st, g₁, hold, ?_, hst⟩
        rintro rfl
        exact hstage st hold
      · exact .inr ⟨j, st, g, hj, hg, hst⟩
  rintro m loginId attempt flow ⟨j, g, hj, hg⟩
  rcases Slots.holds_modify.mp hj with ⟨rfl, task, hold, heq⟩ | ⟨-, hj⟩
  · cases task with
    | work st g₁ => exact absurd heq Task.noConfusion
    | quiet job g₁ =>
      obtain ⟨rfl, rfl⟩ := Task.quiet.inj heq
      refine ⟨j, g₁, hold, ?_⟩
      rintro rfl
      exact hquiet _ hold
  · exact ⟨j, g, hj, hg⟩

variable {job : Job} {n : Nat} {st : Step} {a : Attempt}

theorem Pending.of_startStep
    (h : Pending (s.startStep st) n job) : Pending s n job ∨ n = st.number ∧ job = st.job := by
  rcases h with h | ⟨id, st', g, hid, hg, hn, hjob⟩
  · exact .inl (.inl h)
  rcases Slots.holds_put.mp hid with ⟨-, heq⟩ | hid
  · obtain ⟨rfl, -⟩ := Task.work.inj heq
    exact .inr ⟨hn.symm, hjob.symm⟩
  · exact .inl (.inr ⟨id, st', g, hid, hg, hn, hjob⟩)

variable {m : Manifest}

variable {flow : Nat} {loginId : Str} {user : Bool}

theorem Polled.of_startStep {attempt : Option Attempt}
    (h : Polled (s.startStep st) m loginId attempt flow) : Polled s m loginId attempt flow := by
  obtain ⟨id, g, hid, hg⟩ := h
  rcases Slots.holds_put.mp hid with ⟨-, heq⟩ | hid
  · exact absurd heq Task.noConfusion
  · exact ⟨id, g, hid, hg⟩

theorem Pending.of_work {job' : Job}
    (h : Pending (s.work user job) n job') : Pending s n job' ∨ n = s.steps ∧ job' = job := by
  unfold State.work at h
  by_cases hbusy : s.busy ≠ []
  · rw [if_pos hbusy] at h
    rcases h with ⟨st, hst, hn, hjob⟩ | h
    · rcases List.mem_append.mp hst with hst | hst
      · exact .inl (.inl ⟨st, hst, hn, hjob⟩)
      rw [List.mem_singleton.mp hst] at hn hjob
      exact .inr ⟨hn.symm, hjob.symm⟩
    · exact .inl (.inr h)
  · rw [if_neg hbusy] at h
    rcases Pending.of_startStep h with h | h
    · exact .inl h
    · exact .inr h

theorem Polled.of_work {attempt : Option Attempt} (h : Polled (s.work user job) m loginId attempt flow) :
    Polled s m loginId attempt flow := by
  unfold State.work at h
  by_cases hbusy : s.busy ≠ []
  · rw [if_pos hbusy] at h
    exact h
  rw [if_neg hbusy] at h
  exact Polled.of_startStep h

theorem under_nextStep (s : State) : Under s s.nextStep := by
  unfold State.nextStep
  split
  · exact Under.refl s
  rename_i st queue hq
  split
  · constructor
    · intro n job h
      rcases Pending.of_startStep h with (⟨w, hw, hn⟩ | h) | ⟨hn, hjob⟩
      · refine .inl ⟨w, ?_, hn⟩
        rw [hq]
        exact .tail _ hw
      · exact .inr h
      · refine .inl ⟨st, ?_, hn.symm, hjob.symm⟩
        rw [hq]
        exact .head _
    · exact fun m loginId attempt flow h => Polled.of_startStep h
  · exact Under.refl s

theorem under_dropTask (s : State) (id : Nat) : Under s (s.dropTask id) := by
  constructor
  · rintro n job (h | ⟨j, st, g, hj, hst⟩)
    · exact .inl h
    · exact .inr ⟨j, st, g, (Slots.holds_take.mp hj).2, hst⟩
  · rintro m loginId attempt flow ⟨j, g, hj, hg⟩
    exact ⟨j, g, (Slots.holds_take.mp hj).2, hg⟩

/-! ## Whose completion it is -/

/-- What holds of a step while it waits. -/
def Right (s : State) (n : Nat) : Job → Prop
  | .loadConfig _ opening generation _ =>
    generation ≤ s.generation ∧ (generation = s.generation → s.Open opening)
  | .action _ opening generation _ =>
    generation ≤ s.generation ∧ (generation = s.generation → s.Open opening)
  | .signIn m attempt _ =>
    attempt.token = n ∧ m.id = attempt.pluginId ∧ (s.attempt = some attempt → s.login = none)
  | _ => True

/-- What the numbers that a completion carries stand for. -/
structure Owned (s : State) : Prop where
  jobs : ∀ n job, Pending s n job → Right s n job
  attempt : ∀ a, s.attempt = some a →
    ∃ form, s.config = some form ∧ form.opening = a.opening ∧ form.id = a.pluginId
  login : ∀ l, s.login = some l → ∃ a, s.attempt = some a ∧ a.token = l.flow ∧ a.pluginId = l.pluginId
  polls : ∀ m loginId attempt flow, Polled s m loginId attempt flow →
    ∃ a, attempt = some a ∧ a.token = flow ∧ m.id = a.pluginId

theorem owned_start : Owned {} where
  jobs := by
    rintro n job (⟨st, hst, -⟩ | ⟨id, st, g, hid, -⟩)
    · exact absurd hst List.not_mem_nil
    · exact absurd hid (Slots.not_holds_empty id _)
  attempt := nofun
  login := nofun
  polls := by
    rintro m loginId attempt flow ⟨id, g, hid, -⟩
    exact absurd hid (Slots.not_holds_empty id _)

/-- The form, if one is shown, is the same one. -/
def SameForm (s s' : State) : Prop :=
  ∀ form, s.config = some form →
    ∃ form', s'.config = some form' ∧ form'.opening = form.opening ∧ form'.id = form.id

variable {opening : Nat}

theorem SameForm.open (h : SameForm s s') (hopen : s.Open opening) : s'.Open opening := by
  obtain ⟨form, hform, rfl⟩ := hopen
  obtain ⟨form', hform', hsame, -⟩ := h form hform
  exact ⟨form', hform', hsame⟩

theorem sameForm_of_config (h : s'.config = s.config) : SameForm s s' := by
  intro form hform
  exact ⟨form, by rw [h, hform], rfl, rfl⟩

theorem sameForm_updateForm (s : State) {f : Form → Form}
    (hf : ∀ form, (f form).opening = form.opening ∧ (f form).id = form.id) :
    SameForm s (s.updateForm f) := by
  intro form hform
  refine ⟨f form, ?_, (hf form).1, (hf form).2⟩
  show s.config.map f = some (f form)
  rw [hform]
  rfl

theorem sameForm_setStatus (s : State) (kind : StatusKind) (ok : Bool) (text : Str)
    (pending : Bool) : SameForm s (s.setStatus kind ok text pending) :=
  sameForm_updateForm s (fun _ => ⟨rfl, rfl⟩)

/-- What holds of a waiting step goes on to hold: the generation stays with the form or goes on, and
the sign-in is answered for. -/
theorem Right.carry (h : Right s n job) (hgeneration : s.generation ≤ s'.generation)
    (hform : s'.generation = s.generation → SameForm s s')
    (hlogin : ∀ m attempt values, job = .signIn m attempt values →
      (s.attempt = some attempt → s.login = none) → s'.attempt = some attempt → s'.login = none) :
    Right s' n job := by
  have hlate : ∀ opening generation, (generation ≤ s.generation ∧
      (generation = s.generation → s.Open opening)) → generation ≤ s'.generation ∧
        (generation = s'.generation → s'.Open opening) := by
    rintro opening generation ⟨hle, hopen⟩
    refine ⟨le_trans hle hgeneration, fun hsame => ?_⟩
    have hstays : s'.generation = s.generation := by omega
    exact (hform hstays).open (hopen (by omega))
  cases job with
  | loadConfig m opening generation status => exact hlate opening generation h
  | action m opening generation actionId => exact hlate opening generation h
  | signIn m attempt values => exact ⟨h.1, h.2.1, hlogin m attempt values rfl h.2.2⟩
  | list | enable pluginId enabled | remove pluginId | saveConfig m opening values
    | testConfig m opening values | plain p => trivial

/-- The form stays, and so does the sign-in. -/
theorem Owned.keeps (h : Owned s) (hunder : Under s s') (hgeneration : s.generation ≤ s'.generation)
    (hform : SameForm s s') (hattempt : s'.attempt = s.attempt)
    (hlogin : ∀ l', s'.login = some l' →
      ∃ l, s.login = some l ∧ l.flow = l'.flow ∧ l.pluginId = l'.pluginId) : Owned s' := by
  constructor
  · intro n job hpending
    refine (h.jobs n job (hunder.pending n job hpending)).carry hgeneration (fun _ => hform) ?_
    intro m attempt values _ hnone hsame
    rw [hattempt] at hsame
    cases hl : s'.login with
    | none => rfl
    | some l' =>
      obtain ⟨l, hl, -⟩ := hlogin l' hl
      rw [hnone hsame] at hl
      nomatch hl
  · intro a ha
    rw [hattempt] at ha
    obtain ⟨form, hshown, hopening, hid⟩ := h.attempt a ha
    obtain ⟨form', hshown', hopening', hid'⟩ := hform form hshown
    exact ⟨form', hshown', hopening'.trans hopening, hid'.trans hid⟩
  · intro l' hl'
    obtain ⟨l, hl, hflow, hplugin⟩ := hlogin l' hl'
    obtain ⟨a, ha, htoken, hid⟩ := h.login l hl
    exact ⟨a, hattempt.trans ha, htoken.trans hflow, hid.trans hplugin⟩
  · exact fun m loginId attempt flow hp =>
      h.polls m loginId attempt flow (hunder.polled m loginId attempt flow hp)

/-- The sign-in is forgotten; the form stays, or the generation goes on. -/
theorem Owned.forgets (h : Owned s) (hunder : Under s s')
    (hgeneration : s.generation ≤ s'.generation)
    (hform : s'.generation = s.generation → SameForm s s') (hattempt : s'.attempt = none)
    (hlogin : s'.login = none) : Owned s' := by
  constructor
  · exact fun n job hpending => (h.jobs n job (hunder.pending n job hpending)).carry hgeneration hform
      (fun _ _ _ _ _ _ => hlogin)
  · intro a ha
    rw [hattempt] at ha
    nomatch ha
  · intro l hl
    rw [hlogin] at hl
    nomatch hl
  · exact fun m loginId attempt flow hp =>
      h.polls m loginId attempt flow (hunder.polled m loginId attempt flow hp)

/-! ## A step is submitted -/

theorem work_keeps (s : State) (user : Bool) (job : Job) : (s.work user job).config = s.config ∧
    (s.work user job).pages = s.pages ∧ (s.work user job).generation = s.generation ∧
    (s.work user job).attempt = s.attempt ∧ (s.work user job).login = s.login := by
  unfold State.work
  split <;> exact ⟨rfl, rfl, rfl, rfl, rfl⟩

theorem Owned.work (h : Owned s) (user : Bool) (hjob : Right s s.steps job) :
    Owned (s.work user job) := by
  obtain ⟨hconfig, -, hgeneration, hattempt, hlogin⟩ := work_keeps s user job
  have hright : ∀ n job', Right s n job' → Right (s.work user job) n job' := by
    intro n job' h
    refine h.carry hgeneration.ge (fun _ => sameForm_of_config hconfig) ?_
    intro m attempt values _ hnone hsame
    rw [hlogin]
    exact hnone (hattempt ▸ hsame)
  constructor
  · intro n job' hpending
    rcases Pending.of_work hpending with hpending | ⟨rfl, rfl⟩
    · exact hright n job' (h.jobs n job' hpending)
    · exact hright _ _ hjob
  · rw [hattempt, hconfig]
    exact h.attempt
  · rw [hattempt, hlogin]
    exact h.login
  · exact fun m loginId attempt flow hp => h.polls m loginId attempt flow (Polled.of_work hp)

/-! ## The plugin of the form -/

variable {pluginId : Str}

theorem find_id {s : State} (h : s.find pluginId = some m) : m.id = pluginId := by
  have hfound := List.find?_some h
  simpa using hfound

/-- What it means that the form is this plugin's. -/
theorem current_some {s : State} (h : s.current pluginId = some m) :
    s.find pluginId = some m ∧ pluginId ∉ s.disabled ∧
      ∃ form, s.config = some form ∧ form.id = pluginId := by
  unfold State.current at h
  cases hform : s.config with
  | none =>
    rw [hform] at h
    nomatch h
  | some form =>
    rw [hform] at h
    dsimp only at h
    split at h
    · rename_i hcurrent
      exact ⟨h, hcurrent.2, form, rfl, hcurrent.1⟩
    · nomatch h

theorem current_isSome {s : State} (h : (s.current pluginId).isSome) :
    pluginId ∉ s.disabled ∧ ∃ form, s.config = some form ∧ form.id = pluginId := by
  obtain ⟨m, hm⟩ := Option.isSome_iff_exists.mp h
  exact (current_some hm).2

/-- The form that is shown has the opening's number. -/
theorem open_of_config {s : State} {form : Form} (h : s.config = some form) : s.Open s.opening := by
  refine ⟨form, h, ?_⟩
  unfold State.opening
  rw [h]
  rfl

/-! ## Handlers -/

theorem stopLogin_forgets (s : State) : s.stopLogin.attempt = none ∧ s.stopLogin.login = none ∧
    s.stopLogin.config = s.config ∧ s.stopLogin.generation = s.generation := by
  unfold State.stopLogin
  split
  · exact ⟨rfl, rfl, rfl, rfl⟩
  · split <;> exact ⟨rfl, rfl, rfl, rfl⟩

theorem stopLogin_login (s : State) : s.stopLogin.login = none := (stopLogin_forgets s).2.1

theorem stopLogin_generation (s : State) : s.stopLogin.generation = s.generation :=
  (stopLogin_forgets s).2.2.2

theorem stopLogin_steps (s : State) : s.stopLogin.steps = s.steps := (alike_stopLogin s).steps

theorem under_stopLogin (s : State) : Under s s.stopLogin := by
  have hforget : Under s s.forgetLogin := under_of_tasks rfl rfl
  unfold State.stopLogin
  split
  · exact hforget
  split
  · exact hforget
  · exact hforget.trans (under_start _ (fun _ _ _ _ => Quiet.noConfusion))

theorem Owned.stopLogin (h : Owned s) : Owned s.stopLogin :=
  h.forgets (under_stopLogin s) (stopLogin_generation s).ge
    (fun _ => sameForm_of_config (stopLogin_forgets s).2.2.1) (stopLogin_forgets s).1 (stopLogin_login s)

/-- A change of what the form shows beside its plugin. -/
theorem Owned.updateForm (h : Owned s) {f : Form → Form}
    (hf : ∀ form, (f form).opening = form.opening ∧ (f form).id = form.id) :
    Owned (s.updateForm f) :=
  h.keeps (under_of_tasks rfl rfl) le_rfl (sameForm_updateForm s hf) rfl
    (fun l hl => ⟨l, hl, rfl, rfl⟩)

theorem Owned.setStatus (h : Owned s) (kind : StatusKind) (ok : Bool) (text : Str)
    (pending : Bool) : Owned (s.setStatus kind ok text pending) :=
  h.updateForm (fun _ => ⟨rfl, rfl⟩)

/-- A change of anything else. -/
theorem Owned.aside (h : Owned s) (hunder : Under s s') (hconfig : s'.config = s.config)
    (hgeneration : s'.generation = s.generation) (hattempt : s'.attempt = s.attempt)
    (hlogin : s'.login = s.login) : Owned s' :=
  h.keeps hunder hgeneration.ge (sameForm_of_config hconfig) hattempt
    (fun l hl => ⟨l, by rw [← hlogin, hl], rfl, rfl⟩)

theorem Owned.closeConfig (h : Owned s) : Owned s.closeConfig := by
  have hlater : s.closeConfig.generation = s.generation + 1 := by
    show s.stopLogin.generation + 1 = _
    rw [stopLogin_generation]
  refine h.forgets ((under_stopLogin s).trans (under_of_tasks rfl rfl)) (by omega) ?_
    (stopLogin_forgets s).1 (stopLogin_login s)
  intro hsame
  omega

theorem Owned.loadConfig (h : Owned s) (pluginId : Str) : Owned (s.loadConfig pluginId) := by
  unfold State.loadConfig
  cases hm : s.find pluginId with
  | none => exact h
  | some m =>
    dsimp only
    split
    · exact h
    have hlater : (s.stopLogin.showForm m).generation = s.generation + 1 := by
      show s.stopLogin.generation + 1 = _
      rw [stopLogin_generation]
    have hshown : Owned (s.stopLogin.showForm m) := by
      refine h.forgets ((under_stopLogin s).trans (under_of_tasks rfl rfl)) (by omega) ?_
        (stopLogin_forgets s).1 (stopLogin_login s)
      intro hsame
      omega
    refine hshown.work true ⟨le_rfl, fun _ => ?_⟩
    exact open_of_config rfl

theorem Owned.reloadConfig (h : Owned s) (pluginId : Str) {form : Form}
    (hform : s.config = some form) : Owned (s.reloadConfig pluginId) := by
  unfold State.reloadConfig
  split
  · exact h
  split
  · exact h
  have hsame : SameForm s s.keepForm := sameForm_updateForm s (fun _ => ⟨rfl, rfl⟩)
  have hkept : Owned s.keepForm :=
    h.keeps (under_of_tasks rfl rfl) (Nat.le_succ _) hsame rfl (fun l hl => ⟨l, hl, rfl, rfl⟩)
  exact hkept.work false ⟨le_rfl, fun _ => hsame.open (open_of_config hform)⟩

variable {generation : Nat}

section

variable (h : Owned s)
include h

theorem Owned.loadConfigDone {status : Option Status} (values : Values)
    (hright : generation = s.generation → s.Open opening) :
    Owned (s.loadConfigDone m opening generation status values) := by
  unfold State.loadConfigDone
  split
  · rename_i howns
    obtain ⟨hsame, hcurrent⟩ := howns
    obtain ⟨-, form, hform, hid⟩ := current_isSome hcurrent
    refine h.keeps (under_of_tasks rfl rfl) le_rfl ?_ rfl (fun l hl => ⟨l, hl, rfl, rfl⟩)
    intro form₀ hform₀
    obtain ⟨form₁, hform₁, hopening⟩ := hright hsame
    refine ⟨_, rfl, ?_, ?_⟩
    · rw [hform₀] at hform₁
      rw [Option.some.inj hform₁]
      exact hopening.symm
    · rw [hform₀] at hform
      rw [Option.some.inj hform]
      exact hid.symm
  · exact h

theorem Owned.loadConfigFailed (m : Manifest) (generation : Nat) (text : Str) :
    Owned (s.loadConfigFailed m generation text) := by
  unfold State.loadConfigFailed
  split
  · exact h.updateForm (fun _ => ⟨rfl, rfl⟩)
  · exact h

theorem Owned.load (user : Bool) : Owned (s.load user) := h.work user trivial

theorem Owned.say (message : Str) (ok : Bool) : Owned (s.say message ok) :=
  h.aside (under_of_tasks rfl rfl) rfl rfl rfl rfl

theorem Owned.saveConfig (pluginId : Str) (raw : Values) : Owned (s.saveConfig v pluginId raw) := by
  unfold State.saveConfig
  split
  · exact h
  split
  · exact h
  split
  split
  · exact h.updateForm (fun _ => ⟨rfl, rfl⟩)
  · exact h.work true trivial

theorem Owned.saveConfigDone (m : Manifest) (ok : Bool) (errors : Values) :
    Owned (s.saveConfigDone m ok errors) := by
  unfold State.saveConfigDone
  split
  · split
    · exact ((h.say _ _).closeConfig).load false
    · exact (h.say _ _).load false
  · split
    · exact h.updateForm (fun _ => ⟨rfl, rfl⟩)
    · exact h

theorem Owned.testConfig (pluginId : Str) (raw : Values) : Owned (s.testConfig v pluginId raw) := by
  unfold State.testConfig
  split
  · exact h
  split
  · exact h
  split
  split
  · exact h.updateForm (fun _ => ⟨rfl, rfl⟩)
  · exact (h.setStatus _ _ _ _).work true trivial

theorem Owned.testConfigDone (m : Manifest) (ok : Bool) (errors : Values)
    (message : Str) : Owned (s.testConfigDone m ok errors message) := by
  unfold State.testConfigDone
  split
  · exact h.updateForm (fun _ => ⟨rfl, rfl⟩)
  · exact h

theorem Owned.testConfigFailed (m : Manifest) (text : Str) : Owned (s.testConfigFailed m text) := by
  unfold State.testConfigFailed
  split
  · exact h.setStatus _ _ _ _
  · exact h

end

/-! ## The sign-in -/

/-- A new attempt, while no sign-in is followed. -/
theorem Owned.attempts (h : Owned s) (hlogin : s.login = none) (form : Form)
    (hform : s.config = some form) (hopening : form.opening = a.opening)
    (hid : form.id = a.pluginId) : Owned { s with attempt := some a } := by
  constructor
  · exact fun n job hpending => (h.jobs n job hpending).carry le_rfl
      (fun _ => sameForm_of_config rfl) (fun _ _ _ _ _ _ => hlogin)
  · intro a' ha'
    rw [← Option.some.inj ha']
    exact ⟨form, hform, hopening, hid⟩
  · intro l hl
    rw [hlogin] at hl
    nomatch hl
  · exact h.polls

theorem Owned.signIn (h : Owned s) (pluginId : Str) (raw : Values) :
    Owned (s.signIn v pluginId raw) := by
  unfold State.signIn
  cases hm : s.current pluginId with
  | none => exact h
  | some m =>
    dsimp only
    split
    · exact h
    obtain ⟨hfind, -, form, hform, hid⟩ := current_some hm
    have hattempt : Owned { s.stopLogin with
        attempt := some ⟨s.steps, s.opening, pluginId⟩ } := by
      refine h.stopLogin.attempts (stopLogin_login s) form ?_ ?_ hid
      · rw [(stopLogin_forgets s).2.2.1, hform]
      · unfold State.opening
        rw [hform]
        rfl
    refine (hattempt.setStatus _ _ _ _).work true ⟨(stopLogin_steps s).symm, find_id hfind, ?_⟩
    exact fun _ => stopLogin_login s

/-- The answer `open` of the sign-in that is wanted: it is followed from now on, and no other step
waits for the same attempt. -/
theorem Owned.follow (h : Owned s) (step : LoginStep) (ha : s.attempt = some a)
    (hfree : ∀ n m values, ¬ Pending s n (.signIn m a values)) : Owned (s.follow v a step) := by
  have hfollowed : Owned { (s.openPage step.openUri) with
      login := some ⟨a.pluginId, step.loginId, State.pollsLeft v, a.token⟩
      timer := true } := by
    constructor
    · intro n job hpending
      refine (h.jobs n job hpending).carry le_rfl (fun _ => sameForm_of_config rfl) ?_
      rintro m attempt values rfl - hsame
      have hsame : s.attempt = some attempt := hsame
      rw [ha] at hsame
      obtain rfl := Option.some.inj hsame
      exact absurd hpending (hfree n m values)
    · exact h.attempt
    · intro l hl
      rw [← Option.some.inj hl]
      exact ⟨a, ha, rfl, rfl⟩
    · exact h.polls
  exact hfollowed.setStatus _ _ _ _

theorem Owned.loginFinished (h : Owned s) (hlogin : s.login = none) (pluginId : Str)
    (step : LoginStep) : Owned (s.loginFinished v pluginId step) := by
  unfold State.loginFinished
  dsimp only
  have hended : ∀ ok text, Owned ({ s with attempt := none }.setStatus .login ok text false) := by
    intro ok text
    refine h.forgets (under_of_tasks rfl rfl) le_rfl (fun _ => ?_) rfl hlogin
    exact sameForm_updateForm s (fun _ => ⟨rfl, rfl⟩)
  split
  · rename_i hdone
    obtain ⟨-, form, hform, -⟩ := current_isSome hdone.2
    exact ((hended _ _).reloadConfig pluginId hform).load false
  · exact hended _ _

theorem attempts_iff :
    s.attempts a = true ↔ s.attempt = some a ∧ (s.current a.pluginId).isSome := by
  unfold State.attempts
  rw [Bool.and_eq_true, decide_eq_true_eq]

theorem Owned.signInDone (h : Owned s) (step : LoginStep)
    (hlogin : s.attempt = some a → s.login = none)
    (hfree : ∀ n m values, ¬ Pending s n (.signIn m a values)) :
    Owned (s.signInDone v m a step) := by
  unfold State.signInDone
  split
  · split
    · exact h.aside (under_start s (fun _ _ _ _ => Quiet.noConfusion)) rfl rfl rfl rfl
    · exact h
  rename_i hwanted
  rw [Bool.not_eq_false] at hwanted
  obtain ⟨ha, -⟩ := attempts_iff.mp hwanted
  split
  · exact h.follow step ha hfree
  · exact h.loginFinished (hlogin ha) _ _

theorem Owned.signInFailed (h : Owned s) (text : Str)
    (hlogin : s.attempt = some a → s.login = none) : Owned (s.signInFailed a text) := by
  unfold State.signInFailed
  split
  · rename_i hwanted
    obtain ⟨ha, -⟩ := attempts_iff.mp hwanted
    refine h.forgets (under_of_tasks rfl rfl) le_rfl (fun _ => ?_) rfl (hlogin ha)
    exact sameForm_updateForm s (fun _ => ⟨rfl, rfl⟩)
  · exact h

theorem Owned.pollLogin (h : Owned s) : Owned (s.pollLogin v) := by
  unfold State.pollLogin
  cases hl : s.login with
  | none => exact h
  | some login =>
    dsimp only
    cases hm : s.current login.pluginId with
    | none => exact h.stopLogin
    | some m =>
      dsimp only
      split
      · exact h.stopLogin.setStatus _ _ _ _
      obtain ⟨a, ha, htoken, hplugin⟩ := h.login login hl
      have hless : Owned { s with login := some { login with left := login.left - 1 } } := by
        refine h.keeps (under_of_tasks rfl rfl) le_rfl (sameForm_of_config rfl) rfl ?_
        intro l' hl'
        rw [← Option.some.inj hl']
        exact ⟨login, hl, rfl, rfl⟩
      constructor
      · intro n job hpending
        refine hless.jobs n job ?_
        rcases hpending with hpending | ⟨id, st, g, hid, hst⟩
        · exact .inl hpending
        · exact .inr ⟨id, st, g, ((alike_start _ _).work id st g).mp hid, hst⟩
      · exact hless.attempt
      · exact hless.login
      rintro m' loginId attempt flow ⟨id, g, hid, hg⟩
      rcases Slots.holds_put.mp hid with ⟨-, heq⟩ | hid
      · obtain ⟨rfl, rfl, rfl, rfl⟩ := Quiet.pollLogin.inj (Task.quiet.inj heq).1
        exact ⟨a, ha, htoken, (find_id (current_some hm).1).trans hplugin.symm⟩
      · exact hless.polls m' loginId attempt flow ⟨id, g, hid, hg⟩

theorem Owned.pollDone (h : Owned s) (m : Manifest) (attempt : Option Attempt)
    (step : LoginStep) : Owned (s.pollDone v m attempt step) := by
  unfold State.pollDone
  split
  · exact h
  split
  · refine Owned.loginFinished ?_ rfl _ _
    exact h.keeps (under_of_tasks rfl rfl) le_rfl (sameForm_of_config rfl) rfl nofun
  · exact h.aside (under_of_tasks rfl rfl) rfl rfl rfl rfl

theorem Owned.pollFailed (h : Owned s) (attempt : Option Attempt) (message : Str) :
    Owned (s.pollFailed v attempt message) := by
  unfold State.pollFailed
  split
  · refine h.forgets (under_of_tasks rfl rfl) le_rfl (fun _ => ?_) rfl rfl
    exact sameForm_updateForm s (fun _ => ⟨rfl, rfl⟩)
  · exact h

theorem Owned.cancelSignIn (h : Owned s) : Owned (s.cancelSignIn v) := by
  unfold State.cancelSignIn
  split
  · exact h.stopLogin
  · exact h.stopLogin.setStatus _ _ _ _

/-! ## The other handlers -/

theorem Owned.runAction (h : Owned s) (pluginId actionId : Str) :
    Owned (s.runAction pluginId actionId) := by
  unfold State.runAction
  cases hm : s.current pluginId with
  | none => exact h
  | some m =>
    dsimp only
    split
    · exact h
    obtain ⟨-, -, form, hform, -⟩ := current_some hm
    refine (h.setStatus _ _ _ _).work true ⟨le_rfl, fun _ => ?_⟩
    exact (sameForm_setStatus s _ _ _ _).open (open_of_config hform)

theorem owns_iff :
    s.owns m generation = true ↔ generation = s.generation ∧ (s.current m.id).isSome := by
  unfold State.owns
  rw [Bool.and_eq_true, decide_eq_true_eq]

theorem Owned.actionDone (h : Owned s) (m : Manifest) (generation : Nat)
    (result : Option (Bool × Str × Str)) : Owned (s.actionDone v m generation result) := by
  unfold State.actionDone
  split
  · exact h
  rename_i ok message uri
  split
  · exact h
  rename_i howns
  rw [Bool.not_eq_false] at howns
  obtain ⟨-, form, hform, -⟩ := current_isSome (owns_iff.mp howns).2
  have hopened : Owned (if ok ∧ uri ≠ [] then s.openPage uri else s) ∧
      (if ok ∧ uri ≠ [] then s.openPage uri else s).config = some form := by
    split
    · exact ⟨h.aside (under_of_tasks rfl rfl) rfl rfl rfl rfl, hform⟩
    · exact ⟨h, hform⟩
  obtain ⟨form', hform', -⟩ := sameForm_setStatus _ .action ok
    (v.configActionText ok message m.name) false form hopened.2
  exact ((hopened.1.setStatus _ _ _ _).reloadConfig m.id hform').load false

theorem Owned.actionFailed (h : Owned s) (m : Manifest) (generation : Nat) (text : Str) :
    Owned (s.actionFailed m generation text) := by
  unfold State.actionFailed
  split
  · exact h.setStatus _ _ _ _
  · exact h

theorem Owned.tellDone (h : Owned s) (message : Str) (ok : Bool) :
    Owned (s.tellDone message ok) := by
  unfold State.tellDone
  split
  · exact h
  · exact h.say message ok

theorem Owned.loadDone (h : Owned s) (entries : List (Manifest × Bool)) :
    Owned (s.loadDone entries) :=
  h.aside (under_of_tasks rfl rfl) rfl rfl rfl rfl

theorem Owned.setEnabled (h : Owned s) (pluginId : Str) (enabled : Bool) :
    Owned (s.setEnabled pluginId enabled) := by
  have hknown : Owned (if enabled then s else { s with disabled := pluginId :: s.disabled }) := by
    split
    · exact h
    · exact h.aside (under_of_tasks rfl rfl) rfl rfl rfl rfl
  unfold State.setEnabled
  dsimp only
  split
  · exact hknown.closeConfig.work true trivial
  · exact hknown.work true trivial

theorem Owned.remove (h : Owned s) (pluginId : Str) : Owned (s.remove pluginId) := by
  unfold State.remove
  split
  · exact h.closeConfig.work true trivial
  · exact h.work true trivial

/-! ## Completions -/

/-- What holds of a step whose result has come: it is still as it was while it waited. -/
def Free (s : State) : Job → Prop
  | .signIn _ attempt _ => ∀ n m values, ¬ Pending s n (.signIn m attempt values)
  | _ => True

theorem Owned.stepDone (h : Owned s) (hright : Right s n job)
    (hfree : Free s job) (result : Result) : Owned (s.stepDone v job result) := by
  unfold State.stepDone
  split
  · exact h.loadDone _
  · exact (h.tellDone _ _).load false
  · exact (h.tellDone _ _).load false
  · exact h.loadConfigDone _ hright.2
  · exact h.saveConfigDone _ _ _
  · exact h.testConfigDone _ _ _ _
  · exact h.signInDone _ hright.2.2 hfree
  · exact h.actionDone _ _ _
  · exact ((h.tellDone _ _).load false).work false trivial
  · exact (h.tellDone _ _).work false trivial
  · exact h.tellDone _ _
  · exact h

theorem Owned.stepFailed (h : Owned s) (hright : Right s n job)
    (text : Str) : Owned (s.stepFailed job text) := by
  unfold State.stepFailed
  split
  · exact h.loadConfigFailed _ _ _
  · exact h.testConfigFailed _ _
  · exact h.signInFailed _ hright.2.2
  · exact h.actionFailed _ _ _
  · exact h.say _ _

theorem under_marked {id : Nat} {task : Task} (hid : s.tasks.Holds id task)
    (hwork : ∀ st, task ≠ .work st .delivered) (hquiet : ∀ job, task ≠ .quiet job .delivered) :
    Under s (s.marked id) :=
  under_withStage s id (fun st h => hwork st (hid.unique h)) (fun job h => hquiet job (hid.unique h))

variable {result : Result}

theorem Queued.free (hq : Queued patient s) (h : Owned s) {id : Nat}
    (hid : s.tasks.Holds id (.work st (.ran result))) :
    Right s st.number st.job ∧ Free (s.marked id) st.job := by
  have hright : Right s st.number st.job :=
    h.jobs st.number st.job (.inr ⟨id, st, _, hid, Stage.noConfusion, rfl, rfl⟩)
  refine ⟨hright, ?_⟩
  unfold Free
  split
  · rename_i m attempt values hjob
    rw [hjob] at hright
    intro n m' values' hpending
    have hunder := under_marked hid (fun _ => fun heq => nomatch (Task.work.inj heq).2)
      (fun _ => Task.noConfusion)
    have hsame := (h.jobs n _ (hunder.pending n _ hpending)).1
    rw [hright.1] at hsame
    rcases hpending with ⟨w, hw, hn, -⟩ | ⟨j, w, g, hj, hg, hn, -⟩
    · exact (hq.out id st _ hid).2 w hw (hn.trans hsame.symm)
    rcases holds_withStage.mp hj with ⟨-, rfl, -⟩ | ⟨hne, hj⟩
    · exact hg rfl
    · exact hne (hq.once j id w st g _ hj hid (hn.trans hsame.symm))
  · trivial

theorem Owned.deliverStep (hq : Queued patient s) (h : Owned s) {id : Nat}
    (hid : s.tasks.Holds id (.work st (.ran result))) :
    Owned ((s.marked id).deliverStep v st.job result) := by
  obtain ⟨hright, hfree⟩ := hq.free h hid
  have hunder := under_marked hid (fun _ => fun heq => nomatch (Task.work.inj heq).2)
    (fun _ => Task.noConfusion)
  have hanswered : ∀ name, Owned { s.marked id with busy := [], failedStep := name } := fun name =>
    h.aside (hunder.trans (under_of_tasks rfl rfl)) rfl rfl rfl rfl
  unfold State.deliverStep
  split
  · exact (hanswered _).stepFailed (n := st.number) hright _
  · exact (hanswered _).stepFailed (n := st.number) hright _
  have hdone : Owned { s.marked id with busy := [] } :=
    h.aside (hunder.trans (under_of_tasks rfl rfl)) rfl rfl rfl rfl
  exact hdone.stepDone (n := st.number) hright hfree _

theorem Owned.deliverQuiet (h : Owned s) {id : Nat} {job : Quiet}
    (hid : s.tasks.Holds id (.quiet job (.ran result))) :
    Owned ((s.marked id).deliverQuiet v job result) := by
  have hmarked : Owned (s.marked id) :=
    h.aside (under_marked hid (fun _ => Task.noConfusion)
      (fun _ => fun heq => nomatch (Task.quiet.inj heq).2)) rfl rfl rfl rfl
  unfold State.deliverQuiet
  split
  · exact hmarked.pollDone _ _ _
  · exact hmarked.pollFailed _ _
  · exact hmarked.pollFailed _ _
  · exact hmarked

theorem Owned.runTask (h : Owned s) (id : Nat) (answer : Result) : Owned (s.runTask id answer) := by
  have hrun : ∀ task result ran flows, s.tasks.Holds id task →
      (∀ st, task ≠ .work st .delivered) → (∀ job, task ≠ .quiet job .delivered) →
      Owned { s with
        tasks := s.tasks.modify id (Task.withStage (.ran result)), ran := ran, flows := flows } := by
    intro task result ran flows hid hwork hquiet
    refine h.aside ?_ rfl rfl rfl rfl
    exact (under_withStage s id (fun st hst => hwork st (hid.unique hst))
      (fun job hjob => hquiet job (hid.unique hjob))).trans (under_of_tasks rfl rfl)
  unfold State.runTask
  split
  · rename_i st hid
    split
    · exact h
    exact hrun _ _ _ _ hid (fun _ => fun heq => nomatch (Task.work.inj heq).2)
      (fun _ => Task.noConfusion)
  · rename_i job hid
    split
    · exact h
    exact hrun _ _ _ _ hid (fun _ => Task.noConfusion)
      (fun _ => fun heq => nomatch (Task.quiet.inj heq).2)
  · exact h

theorem Owned.finish (h : Owned s) (id : Nat) : Owned (s.finish id) := by
  have hdropped : Owned (s.dropTask id) := h.aside (under_dropTask s id) rfl rfl rfl rfl
  have hnext : ∀ t : State, t.nextStep.config = t.config ∧ t.nextStep.generation = t.generation ∧
      t.nextStep.attempt = t.attempt ∧ t.nextStep.login = t.login := by
    intro t
    unfold State.nextStep
    split
    · exact ⟨rfl, rfl, rfl, rfl⟩
    · split <;> exact ⟨rfl, rfl, rfl, rfl⟩
  unfold State.finish
  split
  · obtain ⟨hconfig, hgeneration, hattempt, hlogin⟩ := hnext (s.dropTask id)
    exact hdropped.aside (under_nextStep _) hconfig hgeneration hattempt hlogin
  · exact hdropped
  · exact h

/-- **Step lemma.** -/
theorem Owned.step (hs : Steady patient s) (h : Owned s) (i : Input) : Owned (step v s i) := by
  cases i with
  | load => exact h.load true
  | setEnabled pluginId enabled => exact h.setEnabled pluginId enabled
  | remove pluginId => exact h.remove pluginId
  | loadConfig pluginId => exact h.loadConfig pluginId
  | closeConfig => exact h.closeConfig
  | saveConfig pluginId raw => exact h.saveConfig pluginId raw
  | testConfig pluginId raw => exact h.testConfig pluginId raw
  | signIn pluginId raw => exact h.signIn pluginId raw
  | cancelSignIn => exact h.cancelSignIn
  | runAction pluginId actionId => exact h.runAction pluginId actionId
  | plain p => exact h.work true trivial
  | discard => exact h.aside (under_start s (fun _ _ _ _ => Quiet.noConfusion)) rfl rfl rfl rfl
  | clearMessage => exact h.aside (under_of_tasks rfl rfl) rfl rfl rfl rfl
  | timerFires =>
    show Owned (if s.timer then { s with timer := false }.pollLogin v else s)
    split
    · have hfired : Owned { s with timer := false } :=
        h.aside (under_of_tasks rfl rfl) rfl rfl rfl rfl
      exact hfired.pollLogin
    · exact h
  | runs id answer => exact h.runTask id answer
  | delivers id =>
    show Owned (s.deliver v id)
    unfold State.deliver
    split
    · rename_i st result hid
      exact h.deliverStep hs.queued hid
    · rename_i job result hid
      exact h.deliverQuiet hid
    · exact h
  | finishes id => exact h.finish id

/-! ## What a completion touches -/

/-- The form of this opening and plugin is shown, and the plugin is not known to be disabled. -/
def State.Shows (s : State) (opening : Nat) (pluginId : Str) : Prop :=
  (∃ form, s.config = some form ∧ form.opening = opening ∧ form.id = pluginId) ∧
    pluginId ∉ s.disabled

/-- The form stays, and no page is opened. -/
def SameView (s s' : State) : Prop := s'.config = s.config ∧ s'.pages = s.pages

theorem shows_of_current (hopen : s.Open opening) (hcurrent : (s.current pluginId).isSome) :
    s.Shows opening pluginId := by
  obtain ⟨henabled, form, hform, hid⟩ := current_isSome hcurrent
  obtain ⟨form', hform', hopening⟩ := hopen
  rw [hform'] at hform
  rw [← Option.some.inj hform] at hid
  exact ⟨⟨form', hform', hopening, hid⟩, henabled⟩

/-- The form of the plugin is shown, and it has this number. -/
theorem shows_of_opening (hcurrent : (s.current pluginId).isSome) (hopening : s.opening = opening) :
    s.Shows opening pluginId := by
  obtain ⟨-, form, hform, -⟩ := current_isSome hcurrent
  refine shows_of_current ?_ hcurrent
  rw [← hopening]
  exact open_of_config hform

theorem sameView_work (s : State) (user : Bool) (job : Job) : SameView s (s.work user job) :=
  ⟨(work_keeps s user job).1, (work_keeps s user job).2.1⟩

/-- A sign-in that is wanted belongs to the form that is shown. -/
theorem Owned.shows (h : Owned s) (ha : s.attempt = some a)
    (henabled : a.pluginId ∉ s.disabled) : s.Shows a.opening a.pluginId := by
  obtain ⟨form, hform, hopening, hid⟩ := h.attempt a ha
  exact ⟨⟨form, hform, hopening, hid⟩, henabled⟩

theorem Owned.shows_of_attempts (h : Owned s) (hwanted : s.attempts a = true) :
    s.Shows a.opening a.pluginId := by
  obtain ⟨ha, hcurrent⟩ := attempts_iff.mp hwanted
  exact h.shows ha (current_isSome hcurrent).1

/-- The form that a step was asked from, and its plugin. -/
def Job.request : Job → Option (Nat × Str)
  | .loadConfig m opening _ _ => some (opening, m.id)
  | .saveConfig m opening _ => some (opening, m.id)
  | .testConfig m opening _ => some (opening, m.id)
  | .signIn m attempt _ => some (attempt.opening, m.id)
  | .action m opening _ _ => some (opening, m.id)
  | _ => none

/-- The form that a task was asked from: a status read belongs to its sign-in. -/
def Task.request : Task → Option (Nat × Str)
  | .work step _ => step.job.request
  | .quiet (.pollLogin m _ (some attempt) _) _ => some (attempt.opening, m.id)
  | .quiet _ _ => none

/-- If the form of the plugin is shown, then it is the one with this number. -/
def NotReopened (s : State) (m : Manifest) (opening : Nat) : Prop :=
  (s.current m.id).isSome → s.opening = opening

/-- A status read that ends its sign-in: it answers a final state, or fails. -/
def Result.endsPoll : Result → Bool
  | .login step => step.state.final
  | .failed _ => true
  | .refused _ => true
  | _ => false

/-- Saving and testing find the form that they were asked from, if they find one of their plugin at
all, and a sign-in ends while its plugin is not disabled. -/
def FreshTask (s : State) : Task → Prop
  | .work ⟨_, _, .saveConfig m opening _⟩ (.ran (.saved ..)) => NotReopened s m opening
  | .work ⟨_, _, .testConfig m opening _⟩ (.ran _) => NotReopened s m opening
  | .quiet (.pollLogin m _ attempt _) (.ran result) =>
    s.login ≠ none ∧ s.attempt = attempt → result.endsPoll = true → m.id ∉ s.disabled
  | _ => True

/-- No result of a form that was opened again, and no end of a sign-in of a disabled plugin. -/
def Fresh (s : State) : Input → Prop
  | .delivers id =>
    match s.tasks.get id with
    | some task => FreshTask s task
    | none => True
  | _ => True

theorem SameView.refl (s : State) : SameView s s := ⟨rfl, rfl⟩

theorem SameView.trans {s'' : State} (h : SameView s s') (h' : SameView s' s'') : SameView s s'' :=
  ⟨h'.1.trans h.1, h'.2.trans h.2⟩

/-- A completion that looks at the form first: it touches the form that is shown, or nothing. -/
theorem view_ite {p : Prop} [Decidable p] {t : State} (h : p → s.Shows opening pluginId) :
    s.Shows opening pluginId ∨ SameView s (if p then t else s) := by
  split
  · exact .inl (h ‹p›)
  · exact .inr (SameView.refl s)

theorem loadConfigDone_view {status : Option Status} (values : Values)
    (hright : generation = s.generation → s.Open opening) :
    s.Shows opening m.id ∨ SameView s (s.loadConfigDone m opening generation status values) :=
  view_ite fun howns => shows_of_current (hright howns.1) howns.2

theorem loadConfigFailed_view (text : Str) (hright : generation = s.generation → s.Open opening) :
    s.Shows opening m.id ∨ SameView s (s.loadConfigFailed m generation text) :=
  view_ite fun howns => shows_of_current (hright howns.1) howns.2

theorem saveConfigDone_view (ok : Bool) (errors : Values) (hfresh : NotReopened s m opening) :
    s.Shows opening m.id ∨ SameView s (s.saveConfigDone m ok errors) := by
  by_cases hcurrent : (s.current m.id).isSome
  · exact .inl (shows_of_opening hcurrent (hfresh hcurrent))
  refine .inr ?_
  unfold State.saveConfigDone
  dsimp only
  rw [if_neg hcurrent, if_neg hcurrent]
  split
  · exact SameView.trans ⟨rfl, rfl⟩ (sameView_work _ _ _)
  · exact SameView.refl s

theorem testConfigDone_view (ok : Bool) (errors : Values) (message : Str)
    (hfresh : NotReopened s m opening) :
    s.Shows opening m.id ∨ SameView s (s.testConfigDone m ok errors message) :=
  view_ite fun hcurrent => shows_of_opening hcurrent (hfresh hcurrent)

theorem testConfigFailed_view (text : Str) (hfresh : NotReopened s m opening) :
    s.Shows opening m.id ∨ SameView s (s.testConfigFailed m text) :=
  view_ite fun hcurrent => shows_of_opening hcurrent (hfresh hcurrent)

theorem Owned.signInDone_view (h : Owned s) (m : Manifest) (a : Attempt) (step : LoginStep) :
    s.Shows a.opening a.pluginId ∨ SameView s (s.signInDone v m a step) := by
  unfold State.signInDone
  split
  · split
    · exact .inr ⟨rfl, rfl⟩
    · exact .inr (SameView.refl s)
  · rename_i hwanted
    rw [Bool.not_eq_false] at hwanted
    exact .inl (h.shows_of_attempts hwanted)

theorem Owned.signInFailed_view (h : Owned s) (a : Attempt) (text : Str) :
    s.Shows a.opening a.pluginId ∨ SameView s (s.signInFailed a text) :=
  view_ite h.shows_of_attempts

theorem actionDone_view (result : Option (Bool × Str × Str))
    (hright : generation = s.generation → s.Open opening) :
    s.Shows opening m.id ∨ SameView s (s.actionDone v m generation result) := by
  unfold State.actionDone
  split
  · exact .inr (SameView.refl s)
  split
  · exact .inr (SameView.refl s)
  rename_i howns
  rw [Bool.not_eq_false] at howns
  obtain ⟨hsame, hcurrent⟩ := owns_iff.mp howns
  exact .inl (shows_of_current (hright hsame) hcurrent)

theorem actionFailed_view (text : Str) (hright : generation = s.generation → s.Open opening) :
    s.Shows opening m.id ∨ SameView s (s.actionFailed m generation text) := by
  refine view_ite fun howns => ?_
  obtain ⟨hsame, hcurrent⟩ := owns_iff.mp howns
  exact shows_of_current (hright hsame) hcurrent

/-- The result of a step. The hypotheses on saving and testing are what `Fresh` says of them. -/
theorem Owned.stepDone_view (h : Owned s) (hright : Right s n job)
    (hsave : ∀ m o values ok errors, job = .saveConfig m o values → result = .saved ok errors →
      NotReopened s m o) (htest : ∀ m o values, job = .testConfig m o values → NotReopened s m o)
    (hrequest : job.request = some (opening, pluginId)) :
    s.Shows opening pluginId ∨ SameView s (s.stepDone v job result) := by
  unfold State.stepDone
  split
  · nomatch hrequest
  · nomatch hrequest
  · nomatch hrequest
  · obtain ⟨rfl, rfl⟩ := Prod.mk.inj (Option.some.inj hrequest)
    exact loadConfigDone_view _ hright.2
  · obtain ⟨rfl, rfl⟩ := Prod.mk.inj (Option.some.inj hrequest)
    exact saveConfigDone_view _ _ (hsave _ _ _ _ _ rfl rfl)
  · obtain ⟨rfl, rfl⟩ := Prod.mk.inj (Option.some.inj hrequest)
    exact testConfigDone_view _ _ _ (htest _ _ _ rfl)
  · obtain ⟨rfl, rfl⟩ := Prod.mk.inj (Option.some.inj hrequest)
    rw [hright.2.1]
    exact h.signInDone_view _ _ _
  · obtain ⟨rfl, rfl⟩ := Prod.mk.inj (Option.some.inj hrequest)
    exact actionDone_view _ hright.2
  · nomatch hrequest
  · nomatch hrequest
  · nomatch hrequest
  · exact .inr (SameView.refl s)

theorem Owned.stepFailed_view (h : Owned s) (text : Str) (hright : Right s n job)
    (htest : ∀ m o values, job = .testConfig m o values → NotReopened s m o)
    (hrequest : job.request = some (opening, pluginId)) :
    s.Shows opening pluginId ∨ SameView s (s.stepFailed job text) := by
  unfold State.stepFailed
  split
  · obtain ⟨rfl, rfl⟩ := Prod.mk.inj (Option.some.inj hrequest)
    exact loadConfigFailed_view _ hright.2
  · obtain ⟨rfl, rfl⟩ := Prod.mk.inj (Option.some.inj hrequest)
    exact testConfigFailed_view _ (htest _ _ _ rfl)
  · obtain ⟨rfl, rfl⟩ := Prod.mk.inj (Option.some.inj hrequest)
    rw [hright.2.1]
    exact h.signInFailed_view _ _
  · obtain ⟨rfl, rfl⟩ := Prod.mk.inj (Option.some.inj hrequest)
    exact actionFailed_view _ hright.2
  · exact .inr ⟨rfl, rfl⟩

/-- The result of a status read, for the sign-in `a`. -/
theorem Owned.poll_view (h : Owned s) (hid : m.id = a.pluginId)
    (hfresh : s.login ≠ none ∧ s.attempt = some a → result.endsPoll = true → m.id ∉ s.disabled) :
    s.Shows a.opening m.id ∨
      SameView s (s.deliverQuiet v (.pollLogin m loginId (some a) flow) result) := by
  by_cases hfollowed : s.login ≠ none ∧ s.attempt = some a
  · by_cases hends : result.endsPoll = true
    · have henabled := hfresh hfollowed hends
      rw [hid] at henabled ⊢
      exact .inl (h.shows hfollowed.2 henabled)
    -- the read is pending: the timer alone is armed again
    refine .inr ?_
    cases result with
    | login step =>
      have hpending : ¬ step.state.final = true := hends
      show SameView s (s.pollDone v m (some a) step)
      unfold State.pollDone
      rw [if_neg (by tauto), if_neg hpending]
      exact ⟨rfl, rfl⟩
    | failed text | refused text => exact absurd rfl hends
    | listed entries | told message ok | values values | saved ok errors
      | tested ok errors message | acted result => exact SameView.refl s
  · -- the sign-in is not followed any more
    refine .inr ?_
    have hfailed : ∀ text, SameView s (s.pollFailed v (some a) text) := by
      intro text
      unfold State.pollFailed
      rw [if_neg hfollowed]
      exact SameView.refl s
    cases result with
    | login step =>
      show SameView s (s.pollDone v m (some a) step)
      unfold State.pollDone
      rw [if_pos (by tauto)]
      exact SameView.refl s
    | failed text | refused text => exact hfailed text
    | listed entries | told message ok | values values | saved ok errors
      | tested ok errors message | acted result => exact SameView.refl s

/-- The completion of a task touches the form, or opens a page, only while the form that asked for
the task is shown and its plugin is not known to be disabled. -/
def Rightful (v : View) (s : State) : Input → Prop
  | .delivers id => ∀ task, s.tasks.Holds id task → ∀ opening pluginId,
      task.request = some (opening, pluginId) →
        s.Shows opening pluginId ∨ SameView s (step v s (.delivers id))
  | _ => True

/-- The result of a step, as it is delivered. -/
theorem Owned.deliverStep_view (h : Owned s) {id : Nat}
    (hid : s.tasks.Holds id (.work st (.ran result)))
    (hfresh : FreshTask s (.work st (.ran result)))
    (hrequest : st.job.request = some (opening, pluginId)) :
    s.Shows opening pluginId ∨ SameView s ((s.marked id).deliverStep v st.job result) := by
  obtain ⟨n, user, job⟩ := st
  have hright : Right s n job :=
    h.jobs n job (.inr ⟨id, ⟨n, user, job⟩, _, hid, Stage.noConfusion, rfl, rfl⟩)
  have hsave : ∀ m o values ok errors, job = .saveConfig m o values → result = .saved ok errors →
      NotReopened s m o := by
    rintro m o values ok errors rfl rfl
    exact hfresh
  have htest : ∀ m o values, job = .testConfig m o values → NotReopened s m o := by
    rintro m o values rfl
    exact hfresh
  have hunder := under_marked hid (fun _ => fun heq => nomatch (Task.work.inj heq).2)
    (fun _ => Task.noConfusion)
  have hfailed : ∀ text, s.Shows opening pluginId ∨
      SameView s ({ s.marked id with busy := [], failedStep := job.name }.stepFailed job text) := by
    intro text
    have hmarked : Owned { s.marked id with busy := [], failedStep := job.name } :=
      h.aside (hunder.trans (under_of_tasks rfl rfl)) rfl rfl rfl rfl
    exact hmarked.stepFailed_view (n := n) text hright htest hrequest
  have hmarked : Owned { s.marked id with busy := [] } :=
    h.aside (hunder.trans (under_of_tasks rfl rfl)) rfl rfl rfl rfl
  unfold State.deliverStep
  split
  · exact hfailed _
  · exact hfailed _
  · exact hmarked.stepDone_view (n := n) hright hsave htest hrequest

/-- The result of a status read, as it is delivered. -/
theorem Owned.deliverQuiet_view (h : Owned s) {id : Nat} {job : Quiet}
    (hid : s.tasks.Holds id (.quiet job (.ran result)))
    (hfresh : FreshTask s (.quiet job (.ran result)))
    (hrequest : (Task.quiet job (.ran result)).request = some (opening, pluginId)) :
    s.Shows opening pluginId ∨ SameView s ((s.marked id).deliverQuiet v job result) := by
  cases job with
  | cancelLogin m loginId flow | discard => nomatch hrequest
  | pollLogin m loginId attempt flow =>
    have hpolled : Polled s m loginId attempt flow := ⟨id, _, hid, Stage.noConfusion⟩
    obtain ⟨a, rfl, -, hplugin⟩ := h.polls m loginId attempt flow hpolled
    obtain ⟨rfl, rfl⟩ := Prod.mk.inj (Option.some.inj hrequest)
    have hmarked : Owned (s.marked id) :=
      h.aside (under_marked hid (fun _ => Task.noConfusion)
        (fun _ => fun heq => nomatch (Task.quiet.inj heq).2)) rfl rfl rfl rfl
    exact hmarked.poll_view hplugin hfresh

/-- **A completion that is not stale is rightful.** -/
theorem rightful_of_fresh (h : Owned s) (i : Input) (hfresh : Fresh s i) : Rightful v s i := by
  cases i with
  | delivers id =>
    intro task hid opening pluginId hrequest
    have hget : s.tasks.get id = some task := hid
    have htask : FreshTask s task := by
      have hfresh : match s.tasks.get id with
          | some task => FreshTask s task
          | none => True := hfresh
      rw [hget] at hfresh
      exact hfresh
    show _ ∨ SameView s (s.deliver v id)
    unfold State.deliver
    rw [hget]
    cases task with
    | work st g =>
      cases g with
      | submitted | delivered => exact .inr (SameView.refl s)
      | ran result => exact h.deliverStep_view hid htask hrequest
    | quiet job g =>
      cases g with
      | submitted | delivered => exact .inr (SameView.refl s)
      | ran result => exact h.deliverQuiet_view hid htask hrequest
  | _ => trivial

/-! ## Runs -/

/-- What holds of the steps that were submitted in a run. -/
structure Orderly (s : State) : Prop where
  /-- at most one is at the worker, or has its result still to come -/
  one : ∀ i j st st' g g', s.tasks.Holds i (.work st g) → g ≠ .delivered →
    s.tasks.Holds j (.work st' g') → g' ≠ .delivered → i = j
  /-- none has run twice -/
  nodup : (s.ran.map Step.number).Nodup
  /-- a step of the user overtakes none that was submitted before it -/
  order : InOrder s.ran
  /-- none is lost -/
  kept : ∀ n < s.steps, (∃ st ∈ s.queue, st.number = n) ∨
    (∃ id st, s.tasks.Holds id (.work st .submitted) ∧ st.number = n) ∨
      ∃ st ∈ s.ran, st.number = n
  /-- when nothing is left to come, every step has run -/
  ended : (∀ id st g, ¬ s.tasks.Holds id (.work st g)) → ∀ n < s.steps, ∃ st ∈ s.ran, st.number = n

theorem Steady.orderly (h : Steady True s) : Orderly s where
  one := h.queued.one
  nodup := h.queued.nodup
  order := h.queued.order trivial
  kept := by
    intro n hn
    by_cases hwaits : ∃ st ∈ s.queue, st.number = n
    · exact .inl hwaits
    by_cases hout : ∃ id st, s.tasks.Holds id (.work st .submitted) ∧ st.number = n
    · exact .inr (.inl hout)
    refine .inr (.inr ((h.queued.ran n).mpr ⟨hn, ?_, ?_⟩))
    · exact fun st hst hsame => hwaits ⟨st, hst, hsame⟩
    · exact fun id st hid hsame => hout ⟨id, st, hid, hsame⟩
  ended := by
    intro hnone n hn
    have hqueue : s.queue = [] := by
      by_contra hqueue
      obtain ⟨id, st, g, hid⟩ := h.driven hqueue
      exact hnone id st g hid
    refine (h.queued.ran n).mpr ⟨hn, ?_, fun id st hid => absurd hid (hnone id st _)⟩
    intro st hst
    rw [hqueue] at hst
    exact absurd hst List.not_mem_nil

/-- What the two halves ask of a step. -/
def Careful (v : View) (s : State) (i : Input) : Prop := Fresh s i ∧ Patient v s i

/-- **The form and the steps.** In every run in which no result of saving or testing comes to a form
that was opened again, no sign-in ends for a disabled plugin, and the user submits nothing between
the result of a step and its end while others wait, every completion touches its own form only, and
the steps run once, one at a time, in the order in which the user submitted them. -/
theorem forms_and_steps (v : View) (inputs : List Input)
    (hok : Machine.Along (step v) (Careful v) {} inputs) :
    Machine.Along (step v) (Rightful v) {} inputs ∧ Orderly (Machine.run (step v) {} inputs) := by
  have hstep : ∀ s i, Careful v s i → Steady True s ∧ Owned s →
      Rightful v s i ∧ Steady True (step v s i) ∧ Owned (step v s i) := by
    rintro s i ⟨hfresh, hpatient⟩ ⟨hsteady, howned⟩
    exact ⟨rightful_of_fresh howned i hfresh, hsteady.step i (fun _ => hpatient),
      howned.step hsteady i⟩
  have hstart : Steady True {} ∧ Owned {} := ⟨steady_start True, owned_start⟩
  refine ⟨Machine.Along.meets (step v) hstep hok hstart, ?_⟩
  have hend := Machine.invariant (step v) (P := fun s => Steady True s ∧ Owned s)
    (fun s i hi hs => (hstep s i hi hs).2) hok hstart
  exact hend.1.orderly

/-- A view that accepts every form. -/
def plainView : View := ⟨fun _ raw => (raw, []), fun _ raw => raw, id, 2000⟩

/-- A plugin with settings. -/
def demo : Manifest := ⟨"demo".toList, "Demo".toList, true, true, []⟩

/-- The list is loaded, the plugin's form is opened, and saving it has been run by the worker. -/
def savedForm : List Input :=
  [.load, .runs 0 (.listed [(demo, true)]), .delivers 0, .finishes 0,
    .loadConfig demo.id, .runs 1 (.values []), .delivers 1, .finishes 1,
    .saveConfig demo.id [], .runs 2 (.saved true [])]

/-- The user did not wait, and opened the plugin's form again. -/
def reopenedForm : List Input := savedForm ++ [.closeConfig, .loadConfig demo.id]

theorem forms_and_steps_saved :
    Machine.Along (step plainView) (Rightful plainView) {} (savedForm ++ [.delivers 2]) ∧
      Orderly (Machine.run (step plainView) {} (savedForm ++ [.delivers 2])) := by
  refine forms_and_steps plainView (savedForm ++ [.delivers 2]) ?_
  refine ⟨⟨trivial, fun _ _ => rfl⟩, ⟨trivial, nofun⟩, ⟨trivial, nofun⟩,
    ⟨trivial, nofun⟩, ⟨trivial, fun _ _ => rfl⟩, ⟨trivial, nofun⟩,
    ⟨trivial, nofun⟩, ⟨trivial, nofun⟩, ⟨trivial, fun _ _ => rfl⟩,
    ⟨trivial, nofun⟩, ⟨?_, fun h => nomatch h⟩, trivial⟩
  exact fun _ => rfl

/-- **The form that was opened again is closed** by the completion of saving the one before it. -/
theorem reopened_form_is_closed :
    ¬ Machine.Along (step plainView) (Rightful plainView) {} (reopenedForm ++ [.delivers 2]) := by
  intro h
  obtain ⟨-, hlast, -⟩ := (Machine.along_append (step plainView) {} reopenedForm [.delivers 2]).mp h
  have htask : (Machine.run (step plainView) {} reopenedForm).tasks.get 2 =
      some (.work ⟨2, true, .saveConfig demo 1 []⟩ (.ran (.saved true []))) := by decide +kernel
  have hshown : (Machine.run (step plainView) {} reopenedForm).config.map Form.opening = some 2 := by
    decide +kernel
  have hclosed : (step plainView (Machine.run (step plainView) {} reopenedForm)
      (.delivers 2)).config = none := by decide +kernel
  rcases hlast _ htask 1 demo.id rfl with ⟨⟨form, hform, hopening, -⟩, -⟩ | ⟨hsame, -⟩
  · rw [hform] at hshown
    have hother : form.opening = 2 := Option.some.inj hshown
    omega
  · rw [← hsame, hclosed] at hshown
    nomatch hshown

end BlueFerry.PluginSettings
