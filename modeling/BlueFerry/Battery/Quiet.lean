import BlueFerry.Battery.Watcher

/-! # Steps that discovery does not see

Most of what the handlers are made of goes on in the present run, sends no `GetManagedObjects` and
notes no signal (`Quiet`).
-/

namespace BlueFerry.PhoneBattery

open BlueFerry.Text

/-- What discovery is about: its call, and what signals say meanwhile. -/
def isSignal (e : Event) : Prop :=
  e = .discovery ∨ e = .batterySignalled ∨ ∃ path, e = .charSignalled path

variable {env : Env} {s s' t : State}

structure Quiet (s s' : State) : Prop where
  generation : s'.generation = s.generation
  running : s'.running = s.running
  changes : s'.discoveryChanges = s.discoveryChanges
  calls : ∀ id call, s'.calls.Holds id call → call.kind = .managed → s.calls.Holds id call
  log : ∃ new, s'.log = new ++ s.log ∧ ∀ e ∈ new, ¬ isSignal e

theorem Quiet.refl (s : State) : Quiet s s := ⟨rfl, rfl, rfl, fun _ _ h _ => h, [], rfl, by simp⟩

theorem Quiet.trans (h : Quiet s s') (h' : Quiet s' t) : Quiet s t := by
  obtain ⟨hgeneration, hrunning, hchanges, hcalls, new, hlog, hnew⟩ := h
  obtain ⟨hgeneration', hrunning', hchanges', hcalls', new', hlog', hnew'⟩ := h'
  refine ⟨hgeneration'.trans hgeneration, hrunning'.trans hrunning, hchanges'.trans hchanges,
    fun id call hholds hkind => hcalls id call (hcalls' id call hholds hkind) hkind,
    new' ++ new, ?_, ?_⟩
  · rw [hlog', hlog, List.append_assoc]
  intro e he
  rcases List.mem_append.mp he with he | he
  · exact hnew' e he
  · exact hnew e he

theorem Quiet.of_eq
    (h : (s'.generation, s'.running, s'.discoveryChanges, s'.calls, s'.log) =
      (s.generation, s.running, s.discoveryChanges, s.calls, s.log)) : Quiet s s' := by
  simp only [Prod.mk.injEq] at h
  obtain ⟨hgeneration, hrunning, hchanges, hcalls, hlog⟩ := h
  exact ⟨hgeneration, hrunning, hchanges, fun id call h _ => by rw [← hcalls]; exact h, [], hlog, by simp⟩

theorem quiet_note (s : State) {e : Event} (he : ¬ isSignal e) : Quiet s (s.note e) :=
  ⟨rfl, rfl, rfl, fun _ _ h _ => h, [e], rfl, by simpa using he⟩

theorem quiet_sent (s : State) {kind : Kind} (hkind : kind ≠ .managed) :
    Quiet s (s.used.sent kind) := by
  refine ⟨rfl, rfl, rfl, ?_, [], rfl, by simp⟩
  intro id call hholds hmanaged
  rcases Slots.holds_put.mp hholds with ⟨-, rfl⟩ | hholds
  · exact absurd hmanaged hkind
  · exact hholds

theorem not_isSignal_of_ne {e : Event} (hdiscovery : e ≠ .discovery)
    (hbattery : e ≠ .batterySignalled) (hchar : ∀ path, e ≠ .charSignalled path) :
    ¬ isSignal e := by
  rintro (heq | heq | ⟨path, heq⟩)
  · exact hdiscovery heq
  · exact hbattery heq
  · exact hchar path heq

theorem quiet_onError (s : State) {kind : Kind} (hkind : kind ≠ .managed) (name : Str) :
    Quiet s (s.onError kind name) := by
  unfold State.onError
  cases kind with
  | managed => exact absurd rfl hkind
  | read path n revision =>
    dsimp only
    split
    · have hdrop : Quiet s (s.setGatt none) := .of_eq rfl
      refine hdrop.trans (quiet_note _ (not_isSignal_of_ne ?_ ?_ ?_)) <;> nofun
    · exact .refl s
  | startNotify path n revision =>
    dsimp only
    split
    · exact .of_eq rfl
    split
    · exact .of_eq rfl
    · exact .refl s
  | stopNotify path => exact .refl s

section

variable (env : Env) (s : State)

theorem quiet_call (kind : Kind) (hkind : kind ≠ .managed) : Quiet s (s.call env kind) := by
  unfold State.call
  have hused : Quiet s s.used := .of_eq rfl
  split
  · exact quiet_sent s hkind
  split
  · exact hused.trans (quiet_onError s.used hkind _)
  · exact hused

section

variable (path : Str)

theorem quiet_stopNotify : Quiet s (s.stopNotify env path) := by
  unfold State.stopNotify
  split
  · exact quiet_sent s nofun
  · exact .of_eq rfl

theorem quiet_subscribe : Quiet s (s.subscribe env path) := by
  unfold State.subscribe
  have hset : Quiet s { s with subscriptions := s.subscriptions + 1 } := .of_eq rfl
  have hsent : ¬ isSignal (.readSent s.subscriptions) := not_isSignal_of_ne nofun nofun nofun
  have hread := (hset.trans (quiet_note _ hsent)).trans
    (quiet_call env _ (.read path s.subscriptions s.valueRevision) nofun)
  dsimp only
  split
  · exact hread
  · exact hread.trans (quiet_call env _ _ nofun)

theorem quiet_endSession (path : Option Str) (stop : Bool) :
    Quiet s (s.endSession env path stop) := by
  unfold State.endSession
  split
  · split
    · exact quiet_stopNotify env s _
    · exact .refl s
  · exact .refl s

theorem quiet_forget (stop : Bool) : Quiet s (s.forgetCharacteristic env stop) := by
  have hset : Quiet s { s with charGeneration := s.charGeneration + 1, charPath := none } :=
    .of_eq rfl
  have hchar : ¬ isSignal .charChanged := not_isSignal_of_ne nofun nofun nofun
  have hended := (hset.trans (quiet_note _ hchar)).trans (quiet_endSession env _ s.charPath stop)
  exact hended.trans (.of_eq rfl)

theorem quiet_setCached (s : State) (value : Value) : Quiet s (s.setCached value) := by
  unfold State.setCached
  split
  · rename_i level _
    have hset : Quiet s (s.setGatt (some level)) := .of_eq rfl
    refine hset.trans (quiet_note _ (not_isSignal_of_ne ?_ ?_ ?_)) <;> nofun
  · exact .refl s

theorem quiet_adopt (value : Value) : Quiet s (s.adoptCharacteristic env path value) := by
  unfold State.adoptCharacteristic
  have hforget := quiet_forget env s true
  generalize s.forgetCharacteristic env true = t at hforget
  dsimp only
  split
  · exact hforget.trans (.of_eq rfl)
  have hadopted : Quiet s { t.used with
      charPath := some path, handlers := (t.generation, t.charGeneration) :: t.handlers } :=
    hforget.trans (.of_eq rfl)
  split
  · exact hadopted
  refine Quiet.trans ?_ (quiet_subscribe env _ path)
  exact (hadopted.trans (quiet_setCached _ value)).trans (.of_eq rfl)

theorem quiet_sourceSwitched (s : State) : Quiet s (s.note .sourceSwitched) :=
  quiet_note s (not_isSignal_of_ne nofun nofun
    nofun)

theorem quiet_endOwnSession : Quiet s (s.endOwnSession env) := by
  unfold State.endOwnSession
  split
  · split
    · exact quiet_stopNotify env s _
    · exact .refl s
  · exact .refl s

theorem quiet_giveUp : Quiet s (s.giveUp env) := by
  have hset : Quiet s { s.note .sourceSwitched with
      deferring := true, linkGeneration := s.linkGeneration + 1 } :=
    (quiet_sourceSwitched s).trans (.of_eq rfl)
  exact (hset.trans (quiet_endOwnSession env _)).trans (.of_eq rfl)

theorem quiet_takeBack : Quiet s (s.takeBack env) := by
  unfold State.takeBack
  have hset : Quiet s { s.note .sourceSwitched with deferring := false } :=
    (quiet_sourceSwitched s).trans (.of_eq rfl)
  dsimp only
  split
  · split
    · refine Quiet.trans ?_ (quiet_subscribe env _ _)
      exact hset.trans (.of_eq rfl)
    · exact hset
  · exact hset

theorem quiet_syncSource : Quiet s (s.syncSource env) := by
  unfold State.syncSource
  dsimp only
  split
  · exact .refl s
  split
  · exact quiet_giveUp env s
  · exact quiet_takeBack env s

theorem quiet_addBattery (battery : Option Battery) : Quiet s (s.addBattery env path battery) := by
  unfold State.addBattery
  split
  · split
    · refine Quiet.trans ?_ (quiet_syncSource env _)
      exact .of_eq rfl
    · exact .refl s
  · exact .refl s

theorem quiet_addChar (char : Option Char1) : Quiet s (s.addChar env path char) := by
  unfold State.addChar
  split
  · split
    · exact quiet_adopt env s path _
    · exact .refl s
  · exact .refl s

theorem quiet_addObject (battery : Option Battery)
    (char : Option Char1) : Quiet s (s.addObject env path battery char) :=
  (quiet_addBattery env s path battery).trans (quiet_addChar env _ path char)

end

end

theorem quiet_onManagedObject (env : Env) (changed : List Str) (s : State) (path : Str)
    (interfaces : Interfaces) : Quiet s (s.onManagedObject env changed path interfaces) := by
  unfold State.onManagedObject
  split
  · split
    · exact quiet_addObject env s path _ _
    split
    · split
      · refine Quiet.trans ?_ (quiet_syncSource env _)
        exact .of_eq rfl
      · exact .refl s
    · exact .refl s
  · exact .refl s

theorem quiet_onManaged (env : Env) (s : State) (objects : Objects) :
    Quiet { s with discoveryChanges := none } (s.onManaged env objects) := by
  unfold State.onManaged
  have hdevice : Quiet { s with discoveryChanges := none }
      ({ s with discoveryChanges := none }.onManagedDevice env (s.discoveryChanges.getD [])
        objects) := by
    unfold State.onManagedDevice
    split
    · exact quiet_onManagedObject env _ _ _ _
    · exact .refl _
  dsimp only
  generalize { s with discoveryChanges := none }.onManagedDevice env (s.discoveryChanges.getD [])
    objects = t at hdevice
  generalize objects.items.filter (fun e => decide (e.1 ≠ env.devicePath)) = items
  induction items generalizing t with
  | nil => exact hdevice
  | cons e items ih => exact ih _ (hdevice.trans (quiet_onManagedObject env _ t e.1 e.2))

end BlueFerry.PhoneBattery
