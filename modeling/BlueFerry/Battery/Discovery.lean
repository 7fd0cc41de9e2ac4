import BlueFerry.Battery.Fresh

/-! # Discovery keeps what was signalled

While `GetManagedObjects` is not answered the paths that signals speak of are collected
(`Discovering`), and its snapshot does not touch them (`Kept`). What it may still change is the
source: a `Battery1` of BlueZ's own that it lists is followed from then on, and another
characteristic with the battery level that no signal spoke of is adopted instead.
-/

namespace BlueFerry.PhoneBattery

open BlueFerry.Text

/-! ## What was signalled -/

def isDiscovery (e : Event) : Prop := e = .discovery

/-- It was signalled since the present `GetManagedObjects` was sent. -/
def Signalled (log : List Event) (event : Event) : Prop :=
  Trace.Since isDiscovery (fun e _ => e = event) log

instance : DecidablePred isDiscovery := fun e => inferInstanceAs (Decidable (e = .discovery))

instance (log : List Event) (event : Event) : Decidable (Signalled log event) :=
  inferInstanceAs (Decidable (Trace.Since isDiscovery (fun e _ => e = event) log))

variable {env : Env} {s s' t : State}

/-! ## What is collected while discovery is pending -/

/-- While `GetManagedObjects` is not answered the paths of the signals since are collected, and only
one such call is of the present run. -/
structure Discovering (env : Env) (s : State) : Prop where
  calls : ∀ id call, s.calls.Holds id call → call.kind = .managed →
    call.generation ≤ s.generation ∧
      (call.generation = s.generation → s.running = true → s.discoveryChanges.isSome = true)
  unique : ∀ id id' call call', s.calls.Holds id call → s.calls.Holds id' call' →
    call.kind = .managed → call'.kind = .managed → call.generation = s.generation →
      call'.generation = s.generation → id = id'
  battery : ∀ changes, s.discoveryChanges = some changes → Signalled s.log .batterySignalled →
    env.devicePath ∈ changes
  chars : ∀ changes path, s.discoveryChanges = some changes →
    Signalled s.log (.charSignalled path) → path ∈ changes

theorem not_signalled_of_not_isSignal {new log : List Event} {event : Event}
    (hnew : ∀ e ∈ new, ¬ isSignal e) (hevent : isSignal event)
    (h : Signalled (new ++ log) event) : Signalled log event := by
  refine Trace.Since.of_append ?_ h
  rintro e he before rfl
  exact hnew e he hevent

theorem Discovering.quiet (h : Discovering env s) (hquiet : Quiet s s') : Discovering env s' := by
  obtain ⟨hgeneration, hrunning, hchanges, hcalls, new, hlog, hnew⟩ := hquiet
  constructor
  · intro id call hholds hkind
    rw [hgeneration, hrunning, hchanges]
    exact h.calls id call (hcalls id call hholds hkind) hkind
  · intro id id' call call' hholds hholds' hkind hkind'
    rw [hgeneration]
    exact h.unique id id' call call' (hcalls id call hholds hkind)
      (hcalls id' call' hholds' hkind') hkind hkind'
  · intro changes heq hsignalled
    rw [hchanges] at heq
    rw [hlog] at hsignalled
    exact h.battery changes heq (not_signalled_of_not_isSignal hnew (.inr (.inl rfl)) hsignalled)
  intro changes path heq hsignalled
  rw [hchanges] at heq
  rw [hlog] at hsignalled
  exact h.chars changes path heq
    (not_signalled_of_not_isSignal hnew (.inr (.inr ⟨path, rfl⟩)) hsignalled)

variable {path : Str} {changed : List Str}

/-- A signal's path is collected. -/
theorem Discovering.noted (h : Discovering env s) {e : Event}
    (he : e = .batterySignalled ∧ path = env.devicePath ∨ e = .charSignalled path) :
    Discovering env ((s.note e).noteDiscoveryChange path) := by
  have hchanges : ∀ changes, s.discoveryChanges.map (path :: ·) = some changes →
      ∃ before, s.discoveryChanges = some before ∧ changes = path :: before := by
    intro changes heq
    obtain ⟨before, hbefore, hcons⟩ := Option.map_eq_some_iff.mp heq
    exact ⟨before, hbefore, hcons.symm⟩
  refine ⟨fun id call hholds hkind => ?_, h.unique, fun changes heq hsignalled => ?_,
    fun changes p heq hsignalled => ?_⟩
  · refine ⟨(h.calls id call hholds hkind).1, fun hgeneration hrunning => ?_⟩
    have hsome := (h.calls id call hholds hkind).2 hgeneration hrunning
    show (s.discoveryChanges.map (path :: ·)).isSome = true
    rw [Option.isSome_map]
    exact hsome
  · obtain ⟨before, hbefore, rfl⟩ := hchanges changes heq
    rcases hsignalled with hhere | ⟨-, hearlier⟩
    · rcases he with ⟨-, hpath⟩ | hchar
      · rw [← hpath]
        exact .head _
      rw [hchar] at hhere
      nomatch hhere
    · exact .tail _ (h.battery before hbefore hearlier)
  obtain ⟨before, hbefore, rfl⟩ := hchanges changes heq
  rcases hsignalled with hhere | ⟨-, hearlier⟩
  · rcases he with ⟨hbattery, -⟩ | hchar
    · rw [hbattery] at hhere
      nomatch hhere
    rw [hchar] at hhere
    rw [Event.charSignalled.inj hhere]
    exact .head _
  · exact .tail _ (h.chars before p hbefore hearlier)

/-- Discovery is over: no call of it is of the present run. -/
theorem Discovering.over (h : Discovering env s)
    (hnone : ∀ id call, s.calls.Holds id call → call.kind = .managed →
      call.generation ≠ s.generation) : Discovering env { s with discoveryChanges := none } where
  calls id call hholds hkind :=
    ⟨(h.calls id call hholds hkind).1, fun heq => absurd heq (hnone id call hholds hkind)⟩
  unique := h.unique
  battery _ heq := nomatch heq
  chars _ _ heq := nomatch heq

theorem Discovering.take (h : Discovering env s) (id : Nat) :
    Discovering env { s with calls := s.calls.take id } where
  calls id' call hholds hkind := h.calls id' call (Slots.holds_take.mp hholds).2 hkind
  unique id' id'' call call' hholds hholds' :=
    h.unique id' id'' call call' (Slots.holds_take.mp hholds).2 (Slots.holds_take.mp hholds').2
  battery := h.battery
  chars := h.chars

/-! ## Signals -/

/-- What the three forms of a relevant signal note; a path is not below itself. -/
theorem under_devicePath (env : Env) : env.under env.devicePath = false := by
  rw [Bool.eq_false_iff]
  intro hprefix
  have hle := (List.isPrefixOf_iff_prefix.mp hprefix).length_le
  rw [List.length_append, List.length_singleton] at hle
  omega

section

variable (h : Discovering env s)
include h

theorem Discovering.noteAdded (path : Str) (battery char : Bool) :
    Discovering env (s.noteAdded env path battery char) := by
  unfold State.noteAdded
  dsimp only
  by_cases hbattery : path = env.devicePath ∧ battery = true
  · rw [if_pos hbattery, if_pos (.inl hbattery)]
    have hunder : ¬ (env.under path = true ∧ char = true) := by
      rintro ⟨hunder, -⟩
      rw [hbattery.1, under_devicePath] at hunder
      nomatch hunder
    rw [if_neg hunder]
    exact h.noted (.inl ⟨rfl, hbattery.1⟩)
  rw [if_neg hbattery]
  by_cases hchar : env.under path = true ∧ char = true
  · rw [if_pos hchar, if_pos (.inr hchar)]
    exact h.noted (.inr rfl)
  rw [if_neg hchar, if_neg (not_or.mpr ⟨hbattery, hchar⟩)]
  exact h

theorem Discovering.onAdded (path : Str) (interfaces : Interfaces) :
    Discovering env (s.onAdded env path interfaces) := by
  unfold State.onAdded
  split
  · exact (h.noteAdded path _ _).quiet (quiet_addObject env _ path _ _)
  · exact h

theorem Discovering.onRemoved (path : Str) (names : List Str) :
    Discovering env (s.onRemoved env path names) := by
  unfold State.onRemoved
  have hnoted := h.noteAdded path (decide (battery1Iface ∈ names)) (decide (gattCharIface ∈ names))
  generalize s.noteAdded env path (decide (battery1Iface ∈ names))
    (decide (gattCharIface ∈ names)) = t at hnoted
  have hbattery : Quiet t (t.removeBattery env path names) := by
    unfold State.removeBattery
    split
    · refine Quiet.trans ?_ (quiet_syncSource env _)
      exact .of_eq rfl
    · exact .refl t
  refine hnoted.quiet (hbattery.trans ?_)
  unfold State.removeChar
  split
  · exact quiet_forget env _ false
  · exact .refl _

theorem Discovering.onBattery1Changed (interface : Str)
    (changed : Changed) : Discovering env (s.onBattery1Changed env interface changed) := by
  unfold State.onBattery1Changed
  have hnoted : Discovering env ((s.note .batterySignalled).noteDiscoveryChange env.devicePath) :=
    h.noted (.inl ⟨rfl, rfl⟩)
  split
  · split
    · refine hnoted.quiet (Quiet.trans ?_ (quiet_syncSource env _))
      exact .of_eq rfl
    · exact hnoted.quiet (.of_eq rfl)
    · exact h
  · exact h

theorem Discovering.notified (value : Option Int) : Discovering env (s.notified value) := by
  have hset : Quiet s { s with valueRevision := s.valueRevision + 1 } := .of_eq rfl
  have hnote : ¬ isSignal (.notified value) := not_isSignal_of_ne nofun nofun nofun
  have hrevised := h.quiet (hset.trans (quiet_note _ hnote))
  have hchar : Discovering env
      ({ s with valueRevision := s.valueRevision + 1 }.note (.notified value)).noteChar := by
    unfold State.noteChar
    split
    · exact hrevised.noted (.inr rfl)
    · exact hrevised
  exact hchar.quiet (.of_eq rfl)

theorem Discovering.onCharChanged (interface : Str) (changed : Changed) :
    Discovering env (s.onCharChanged interface changed) := by
  unfold State.onCharChanged
  split
  · exact h
  split
  · split
    · exact h.notified _
    · exact h.notified none
    · exact h
  · exact h

end

/-! ## Lifecycle -/

theorem Discovering.halt (h : Discovering env s) : Discovering env (s.halt env) := by
  have hset : Discovering env { s with
      running := false, generation := s.generation + 1, discoveryChanges := none } := by
    refine ⟨fun id call hholds hkind => ?_, ?_, ?_, ?_⟩
    · have hle := (h.calls id call hholds hkind).1
      refine ⟨?_, nofun⟩
      show call.generation ≤ s.generation + 1
      omega
    · intro id id' call call' hholds _ hkind _ hgeneration
      have hle := (h.calls id call hholds hkind).1
      have heq : call.generation = s.generation + 1 := hgeneration
      omega
    · nofun
    · nofun
  have hforget := hset.quiet (quiet_forget env _ true)
  exact hforget.quiet (.of_eq rfl)

/-- A run begins with nothing collected, and no call of before is of it. -/
theorem Discovering.begun (h : Discovering env s) : Discovering env s.begun := by
  have hlt : ∀ id call, s.calls.Holds id call → call.kind = .managed →
      call.generation ≠ s.generation + 1 := by
    intro id call hholds hkind
    have hle := (h.calls id call hholds hkind).1
    omega
  refine ⟨fun id call hholds hkind => ?_, ?_, ?_, ?_⟩
  · have hle := (h.calls id call hholds hkind).1
    refine ⟨?_, fun _ _ => rfl⟩
    show call.generation ≤ s.generation + 1
    omega
  · intro id id' call call' hholds _ hkind _ hgeneration
    exact absurd hgeneration (hlt id call hholds hkind)
  · rintro changes - (hhere | ⟨hblock, -⟩)
    · nomatch hhere
    · exact absurd rfl hblock
  · rintro changes path - (hhere | ⟨hblock, -⟩)
    · nomatch hhere
    · exact absurd rfl hblock

theorem Discovering.start (h : Discovering env s) : Discovering env (s.start env) := by
  unfold State.start
  dsimp only
  split
  · exact h.quiet (.of_eq rfl)
  have hset : Discovering env { s with wanted := true } := h.quiet (.of_eq rfl)
  have hbegun : Discovering env { s with wanted := true }.begun.used :=
    hset.begun.quiet (.of_eq rfl)
  have hold : ∀ id call, s.calls.Holds id call → call.kind = .managed →
      call.generation ≠ s.generation + 1 := by
    intro id call hholds hkind
    have hle := (h.calls id call hholds hkind).1
    omega
  split
  · exact hbegun.halt
  unfold State.call
  split
  · refine ⟨fun id call hholds hkind => ?_, ?_, hbegun.battery, hbegun.chars⟩
    · rcases Slots.holds_put.mp hholds with ⟨-, rfl⟩ | hholds
      · exact ⟨le_refl _, fun _ _ => rfl⟩
      · exact hbegun.calls id call hholds hkind
    intro id id' call call' hholds hholds' hkind hkind' hgeneration hgeneration'
    rcases Slots.holds_put.mp hholds with ⟨rfl, -⟩ | hholds
    · rcases Slots.holds_put.mp hholds' with ⟨rfl, -⟩ | hholds'
      · rfl
      · exact absurd hgeneration' (hold id' call' hholds' hkind')
    · exact absurd hgeneration (hold id call hholds hkind)
  have hused : Discovering env { s with wanted := true }.begun.used.used :=
    hbegun.quiet (.of_eq rfl)
  split
  · exact hused.over hold
  · exact hused

theorem Discovering.bluezOwnerChanged (h : Discovering env s) (present : Bool) :
    Discovering env (s.bluezOwnerChanged env present) := by
  unfold State.bluezOwnerChanged
  have hset : Discovering env { s with notifying := false } := h.quiet (.of_eq rfl)
  dsimp only
  split
  · exact hset.halt.start
  · exact hset.halt

theorem quiet_resetLink (s : State) (connected : Option Bool) :
    Quiet s ({ s with linkConnected := connected }.resetLink) := by
  have hset : Quiet s { s with linkConnected := connected } := .of_eq rfl
  have hnote : ¬ isSignal .linkChanged := not_isSignal_of_ne nofun nofun nofun
  exact (hset.trans (quiet_note _ hnote)).trans (.of_eq rfl)

theorem quiet_linkUp (env : Env) (s : State) : Quiet s (s.linkUp env) := by
  unfold State.linkUp
  have hreset := quiet_resetLink s (some true)
  dsimp only
  split
  · split
    · exact hreset.trans (quiet_subscribe env _ _)
    · exact hreset
  · exact hreset

theorem quiet_linkDown (env : Env) (s : State) : Quiet s (s.linkDown env) := by
  unfold State.linkDown
  have hreset := quiet_resetLink s (some false)
  dsimp only
  split
  · refine Quiet.trans (hreset.trans ?_) (quiet_syncSource env _)
    exact .of_eq rfl
  · exact hreset

/-! ## Answers -/

theorem quiet_startedLate (env : Env) (s : State) (call : Call) (error : Option Str) :
    Quiet s (s.startedLate env call error) := by
  unfold State.startedLate
  split
  · split
    · exact quiet_stopNotify env s _
    · exact .refl s
  · exact .refl s

theorem quiet_readReplied (s : State) (n revision : Nat) (level : Option Int) :
    Quiet s (s.readReplied n revision level) := by
  unfold State.readReplied
  have hset : Quiet s { s with
      succeeded := if level.isSome then n :: s.succeeded else s.succeeded } :=
    .of_eq rfl
  have hnote : ¬ isSignal (.readSet n level) := not_isSignal_of_ne nofun nofun nofun
  dsimp only
  split
  · refine Quiet.trans (hset.trans ?_) (quiet_note _ hnote)
    exact .of_eq rfl
  · exact hset

theorem generation_of_current {call : Call} (h : s.isCurrent call = true) :
    s.running = true ∧ call.generation = s.generation := by
  unfold State.isCurrent at h
  rw [Bool.and_eq_true, Bool.and_eq_true] at h
  exact ⟨h.1.1, of_decide_eq_true h.1.2⟩

/-- An answer that ends the present discovery ends it for good. -/
theorem Discovering.answered (h : Discovering env s) {call : Call}
    (hnone : call.kind = .managed → call.generation = s.generation →
      ∀ id call', s.calls.Holds id call' → call'.kind = .managed →
        call'.generation ≠ s.generation)
    (answer : Answer) : Discovering env (s.answered env call answer) := by
  unfold State.answered
  split
  · rename_i name
    split
    · rename_i hcurrent
      have hgeneration := (generation_of_current hcurrent).2
      by_cases hkind : call.kind = .managed
      · rw [hkind]
        exact h.over (hnone hkind hgeneration)
      · exact h.quiet (quiet_onError s hkind name)
    · exact h.quiet (quiet_startedLate env s call _)
  split
  · rename_i hcurrent
    have hgeneration := (generation_of_current hcurrent).2
    cases hkind : call.kind with
    | managed =>
      have hover := h.over (hnone hkind hgeneration)
      cases answer with
      | objects objects => exact hover.quiet (quiet_onManaged env s objects)
      | value v | nothing | error name => exact hover
    | read path n revision => exact h.quiet (quiet_readReplied s n revision answer.level)
    | startNotify path n revision => exact h.quiet (.of_eq rfl)
    | stopNotify path => exact h
  · exact h.quiet (quiet_startedLate env s call none)

/-- **Step lemma.** What signals say while discovery is pending is collected. -/
theorem Discovering.step (h : Discovering env s) (i : Input) : Discovering env (step env s i) := by
  cases i with
  | start => exact h.start
  | stop =>
    apply Discovering.halt
    exact h.quiet (.of_eq rfl)
  | linkUp => exact h.quiet (quiet_linkUp env s)
  | linkDown => exact h.quiet (quiet_linkDown env s)
  | bluezOwnerChanged present => exact h.bluezOwnerChanged present
  | added generation path interfaces =>
    unfold PhoneBattery.step
    dsimp only
    split
    · exact h.onAdded path interfaces
    · exact h
  | removed generation path names =>
    unfold PhoneBattery.step
    dsimp only
    split
    · exact h.onRemoved path names
    · exact h
  | battery1Changed generation interface changed =>
    unfold PhoneBattery.step
    dsimp only
    split
    · exact h.onBattery1Changed interface changed
    · exact h
  | charChanged handler interface changed =>
    unfold PhoneBattery.step
    dsimp only
    split
    · exact h.onCharChanged interface changed
    · exact h
  | answers id answer =>
    cases hget : s.calls.get id with
    | none =>
      rw [step_answers_none hget]
      exact h
    | some call =>
      rw [step_answers hget]
      refine (h.take id).answered ?_ answer
      intro hkind hgeneration id' call' hholds hkind' hgeneration'
      obtain ⟨hne, hholds⟩ := Slots.holds_take.mp hholds
      exact hne (h.unique id' id call' call hholds hget hkind' hkind hgeneration' hgeneration)

theorem discovering_init (env : Env) : Discovering env {} where
  calls _ _ hholds := nomatch hholds
  unique _ _ _ _ hholds := nomatch hholds
  battery _ heq := nomatch heq
  chars _ _ heq := nomatch heq

/-! ## What the snapshot leaves alone -/

/-- Every other characteristic with the battery level that the snapshot lists was signalled. -/
def OthersSignalled (env : Env) (log : List Event) (objects : Objects) (path : Str) : Prop :=
  ∀ q battery uuid value, objects.get? q = some (.mapping battery (some (.mapping uuid value))) →
    env.under q = true → isBatteryLevel uuid = true → q ≠ path →
      Signalled log (.charSignalled q)

/-- What was signalled while the call was pending, after its snapshot. -/
structure Kept (env : Env) (s : State) (objects : Objects) (s' : State) : Prop where
  /-- the level of `Battery1`, or its removal -/
  battery1 : Signalled s.log .batterySignalled → s'.battery1 = s.battery1
  /-- a characteristic that is not there is not adopted -/
  removed : ∀ path, Signalled s.log (.charSignalled path) → s.charPath ≠ some path →
    s'.charPath ≠ some path
  /-- the level of the characteristic, unless the source is switched or another one is listed -/
  level : ∀ path, Signalled s.log (.charSignalled path) → s.charPath = some path →
    OthersSignalled env s.log objects path → (s'.deferring = true → s.deferring = true) →
      s'.charPath = some path ∧ s'.gatt = s.gatt

theorem onError_frame (s : State) (kind : Kind) (name : Str) :
    (s.onError kind name).battery1 = s.battery1 ∧ (s.onError kind name).charPath = s.charPath := by
  unfold State.onError
  cases kind with
  | read path n revision =>
    dsimp only
    split <;> exact ⟨rfl, rfl⟩
  | startNotify path n revision =>
    dsimp only
    split
    · exact ⟨rfl, rfl⟩
    · split <;> exact ⟨rfl, rfl⟩
  | managed | stopNotify path => exact ⟨rfl, rfl⟩

section

variable (env : Env)

theorem call_frame (s : State) (kind : Kind) :
    (s.call env kind).battery1 = s.battery1 ∧ (s.call env kind).charPath = s.charPath := by
  unfold State.call
  split
  · exact ⟨rfl, rfl⟩
  split
  · exact onError_frame s.used kind _
  · exact ⟨rfl, rfl⟩

theorem subscribe_frame (s : State) (path : Str) :
    (s.subscribe env path).battery1 = s.battery1 ∧
      (s.subscribe env path).charPath = s.charPath := by
  unfold State.subscribe
  have hread := call_frame env ({ s with subscriptions := s.subscriptions + 1 }.note
    (.readSent s.subscriptions)) (.read path s.subscriptions s.valueRevision)
  dsimp only
  split
  · exact hread
  have hnotify := call_frame env (({ s with subscriptions := s.subscriptions + 1 }.note
    (.readSent s.subscriptions)).call env (.read path s.subscriptions s.valueRevision))
    (.startNotify path s.subscriptions s.valueRevision)
  exact ⟨hnotify.1.trans hread.1, hnotify.2.trans hread.2⟩

theorem syncSource_frame (s : State) :
    (s.syncSource env).battery1 = s.battery1 ∧ (s.syncSource env).charPath = s.charPath := by
  unfold State.syncSource
  dsimp only
  split
  · exact ⟨rfl, rfl⟩
  split
  · unfold State.giveUp
    obtain ⟨ops, calls, heq⟩ := endOwnSession_eq env { s.note .sourceSwitched with
      deferring := true, linkGeneration := s.linkGeneration + 1 }
    rw [heq]
    exact ⟨rfl, rfl⟩
  unfold State.takeBack
  dsimp only
  split
  · split
    · exact subscribe_frame env _ _
    · exact ⟨rfl, rfl⟩
  · exact ⟨rfl, rfl⟩

/-- The level is as before, or the source has been switched to BlueZ's own. -/
theorem syncSource_gatt (h : SetOk s) :
    (s.syncSource env).gatt = s.gatt ∨
      ((s.syncSource env).deferring = true ∧ s.deferring = false) := by
  unfold State.syncSource
  by_cases hsame : (s.battery1Plugin && !s.battery1Suspect) = s.deferring
  · rw [if_pos hsame]
    exact .inl rfl
  rw [if_neg hsame]
  by_cases hdefer : (s.battery1Plugin && !s.battery1Suspect) = true
  · rw [if_pos hdefer]
    refine .inr ⟨?_, ?_⟩
    · unfold State.giveUp
      obtain ⟨ops, calls, heq⟩ := endOwnSession_eq env { s.note .sourceSwitched with
        deferring := true, linkGeneration := s.linkGeneration + 1 }
      rw [heq]
      rfl
    · rw [hdefer] at hsame
      exact Bool.eq_false_of_not_eq_true (fun heq => hsame heq.symm)
  rw [if_neg hdefer]
  have hown : s.deferring = true := by
    rw [Bool.eq_false_of_not_eq_true hdefer] at hsame
    exact Bool.eq_true_of_not_eq_false (fun heq => hsame heq.symm)
  have hgatt := gatt_of_deferring h hown
  refine .inl ?_
  rw [hgatt]
  unfold State.takeBack
  dsimp only
  split
  · split
    · rcases (calm_subscribe env ({ { s.note .sourceSwitched with deferring := false } with
        notifying := false }.setGatt none) _).gatt with heq | heq
      · exact heq
      · exact heq
    · exact hgatt
  · exact hgatt

theorem adopt_frame (s : State) (path : Str) (value : Value) :
    (s.adoptCharacteristic env path value).battery1 = s.battery1 ∧
      ((s.adoptCharacteristic env path value).charPath = none ∨
        (s.adoptCharacteristic env path value).charPath = some path) := by
  unfold State.adoptCharacteristic
  obtain ⟨ops, calls, heq⟩ := forget_eq env s true
  have hbattery : (s.forgetCharacteristic env true).battery1 = s.battery1 := by rw [heq]
  have hpath : (s.forgetCharacteristic env true).charPath = none := by rw [heq]
  generalize s.forgetCharacteristic env true = t at hbattery hpath
  have hcached : ∀ (u : State), (u.setCached value).battery1 = u.battery1 ∧
      (u.setCached value).charPath = u.charPath := by
    intro u
    unfold State.setCached
    split <;> exact ⟨rfl, rfl⟩
  dsimp only
  split
  · exact ⟨hbattery, .inl hpath⟩
  split
  · exact ⟨hbattery, .inr rfl⟩
  obtain ⟨hb, hp⟩ := subscribe_frame env ({ ({ t.used with
    charPath := some path
    handlers := (t.generation, t.charGeneration) :: t.handlers }.setCached value) with
      notifying := false }) path
  rw [hb, hp]
  exact ⟨(hcached _).1.trans hbattery, .inr (hcached _).2⟩

theorem addChar_frame (s : State) (path : Str) (char : Option Char1) :
    (s.addChar env path char).battery1 = s.battery1 ∧
      ((s.addChar env path char).charPath = s.charPath ∨
        (s.addChar env path char).charPath = none ∨
          (s.addChar env path char).charPath = some path) := by
  unfold State.addChar
  split
  · split
    · exact ⟨(adopt_frame env s path _).1, .inr (adopt_frame env s path _).2⟩
    · exact ⟨rfl, .inl rfl⟩
  · exact ⟨rfl, .inl rfl⟩

end

theorem addBattery_of_ne (h : path ≠ env.devicePath) (battery : Option Battery) :
    s.addBattery env path battery = s := by
  unfold State.addBattery
  split
  · rw [if_neg h]
  · rfl

theorem addBattery_charPath (env : Env) (s : State) (path : Str) (battery : Option Battery) :
    (s.addBattery env path battery).charPath = s.charPath := by
  unfold State.addBattery
  split
  · split
    · exact (syncSource_frame env _).2
    · rfl
  · rfl

/-- A level of `Battery1` that was signalled is not touched by an object. -/
theorem onManagedObject_battery1 (env : Env)
    (hchanged : env.devicePath ∈ changed) (s : State) (path : Str) (interfaces : Interfaces) :
    (s.onManagedObject env changed path interfaces).battery1 = s.battery1 := by
  unfold State.onManagedObject
  split
  · split
    · rename_i hpath
      have hne : path ≠ env.devicePath := by
        rintro rfl
        exact hpath hchanged
      unfold State.addObject
      rw [addBattery_of_ne hne]
      exact (addChar_frame env s path _).1
    split
    · split
      · exact (syncSource_frame env _).1
      · rfl
    · rfl
  · rfl

/-- A characteristic that was signalled is not adopted by an object. -/
theorem onManagedObject_charPath (env : Env) {p : Str} (hchanged : p ∈ changed)
    (h : s.charPath ≠ some p) (path : Str) (interfaces : Interfaces) :
    (s.onManagedObject env changed path interfaces).charPath ≠ some p := by
  unfold State.onManagedObject
  split
  · rename_i battery char
    split
    · rename_i hpath
      unfold State.addObject
      rcases (addChar_frame env (s.addBattery env path battery) path char).2 with heq | heq | heq
      · rw [heq, addBattery_charPath]
        exact h
      · rw [heq]
        nofun
      rw [heq]
      intro hsome
      rw [Option.some.inj hsome] at hpath
      exact hpath hchanged
    · split
      · split
        · rw [(syncSource_frame env _).2]
          exact h
        · exact h
      · exact h
  · exact h

/-- The objects after the device, one by one. -/
theorem foldl_objects {P : State → Prop} {items : List (Str × Interfaces)}
    (hstep : ∀ t e, e ∈ items → P t → P (t.onManagedObject env changed e.1 e.2)) (hs : P s) :
    P (items.foldl (fun s e => s.onManagedObject env changed e.1 e.2) s) := by
  induction items generalizing s with
  | nil => exact hs
  | cons e items ih =>
    refine ih (fun t x hx => hstep t x (.tail _ hx)) ?_
    exact hstep s e (.head _) hs

/-- The device's own object leaves the characteristic, and its level unless it switches the
source. -/
theorem onManagedDevice_level (env : Env) {objects : Objects}
    (h : SetOk s) (hpath : s.charPath = some path) (hothers : ∀ q battery uuid value,
      objects.get? q = some (.mapping battery (some (.mapping uuid value))) →
        env.under q = true → isBatteryLevel uuid = true → q ≠ path → q ∈ changed) :
    (s.onManagedDevice env changed objects).charPath = some path ∧
      ((s.onManagedDevice env changed objects).gatt = s.gatt ∨
        ((s.onManagedDevice env changed objects).deferring = true ∧ s.deferring = false)) := by
  unfold State.onManagedDevice
  split
  · rename_i interfaces hget
    unfold State.onManagedObject
    split
    · rename_i battery char
      split
      · rename_i hdevice
        unfold State.addObject
        have hsame : ∀ t : State, t.charPath = some path →
            t.addChar env env.devicePath char = t := by
          intro t ht
          unfold State.addChar
          split
          · rename_i uuid value
            rw [if_neg]
            rintro ⟨hunder, huuid, hne⟩
            rw [ht] at hne
            exact hdevice (hothers _ _ _ _ hget hunder huuid (fun heq => hne (by rw [heq])))
          · rfl
        have hbattery : (s.addBattery env env.devicePath battery).charPath = some path := by
          rw [addBattery_charPath]
          exact hpath
        rw [hsame _ hbattery]
        refine ⟨hbattery, ?_⟩
        unfold State.addBattery
        split
        · rw [if_pos rfl]
          exact syncSource_gatt env (h.calm (.of_eq rfl))
        · exact .inl rfl
      · split
        · split
          · refine ⟨(syncSource_frame env _).2.trans hpath, ?_⟩
            exact syncSource_gatt env (h.calm (.of_eq rfl))
          · exact ⟨hpath, .inl rfl⟩
        · exact ⟨hpath, .inl rfl⟩
    · exact ⟨hpath, .inl rfl⟩
  · exact ⟨hpath, .inl rfl⟩

/-- An object that was signalled, or that is none of the looked-for ones, changes nothing. -/
theorem onManagedObject_same {p : Str} {interfaces : Interfaces}
    (hpath : s.charPath = some path) (hdevice : p ≠ env.devicePath)
    (hothers : ∀ battery uuid value, interfaces = .mapping battery (some (.mapping uuid value)) →
      env.under p = true → isBatteryLevel uuid = true → p ≠ path → p ∈ changed) :
    s.onManagedObject env changed p interfaces = s := by
  unfold State.onManagedObject
  split
  · rename_i battery char
    split
    · rename_i hp
      unfold State.addObject
      rw [addBattery_of_ne hdevice]
      unfold State.addChar
      split
      · rw [if_neg]
        rintro ⟨hunder, huuid, hne⟩
        rw [hpath] at hne
        exact hp (hothers _ _ _ rfl hunder huuid (fun heq => hne (by rw [heq])))
      · rfl
    split
    · rw [if_neg]
      rintro ⟨heq, -⟩
      exact hdevice heq
    · rfl
  · rfl

/-- **The snapshot keeps what was signalled.** -/
theorem kept_onManaged (h : SetOk s) (hdiscovering : Discovering env s)
    (hpending : s.discoveryChanges.isSome = true) (objects : Objects) :
    Kept env s objects (s.onManaged env objects) := by
  obtain ⟨changes, hchanges⟩ := Option.isSome_iff_exists.mp hpending
  have hgetD : s.discoveryChanges.getD [] = changes := by rw [hchanges]; rfl
  have hset : SetOk { s with discoveryChanges := none } := h.calm (.of_eq rfl)
  refine ⟨fun hsignalled => ?_, fun path hsignalled hne => ?_,
    fun path hsignalled hpath hothers hsource => ?_⟩
  · have hdevice := hdiscovering.battery changes hchanges hsignalled
    unfold State.onManaged
    rw [hgetD]
    refine foldl_objects (P := fun t => t.battery1 = s.battery1) ?_ ?_
    · intro t e _ ht
      rw [onManagedObject_battery1 env hdevice]
      exact ht
    unfold State.onManagedDevice
    split
    · exact onManagedObject_battery1 env hdevice _ _ _
    · rfl
  · have hmem := hdiscovering.chars changes path hchanges hsignalled
    unfold State.onManaged
    rw [hgetD]
    refine foldl_objects (P := fun t => t.charPath ≠ some path) ?_ ?_
    · exact fun t e _ ht => onManagedObject_charPath env hmem ht e.1 e.2
    unfold State.onManagedDevice
    split
    · have hnone : { s with discoveryChanges := none }.charPath ≠ some path := hne
      exact onManagedObject_charPath env hmem hnone _ _
    · exact hne
  · have hmem := hdiscovering.chars changes path hchanges hsignalled
    have hothers' : ∀ q battery uuid value,
        objects.get? q = some (.mapping battery (some (.mapping uuid value))) →
          env.under q = true → isBatteryLevel uuid = true → q ≠ path → q ∈ changes :=
      fun q battery uuid value hget hunder huuid hq => hdiscovering.chars changes q hchanges
        (hothers q battery uuid value hget hunder huuid hq)
    obtain ⟨hcharPath, hlevel⟩ := onManagedDevice_level env hset hpath hothers'
    -- the objects after the device change nothing
    have hrest : s.onManaged env objects =
        { s with discoveryChanges := none }.onManagedDevice env changes objects := by
      unfold State.onManaged
      rw [hgetD]
      refine foldl_objects (P := fun t => t =
        { s with discoveryChanges := none }.onManagedDevice env changes objects) ?_ rfl
      rintro t e he rfl
      obtain ⟨hitem, hdevice⟩ := List.mem_filter.mp he
      refine onManagedObject_same hcharPath (of_decide_eq_true hdevice) ?_
      intro battery uuid value heq hunder huuid hq
      refine hothers' e.1 battery uuid value ?_ hunder huuid hq
      rw [← heq]
      exact Dict.mem_items_iff.mp hitem
    rw [hrest] at hsource ⊢
    refine ⟨hcharPath, ?_⟩
    rcases hlevel with heq | ⟨htrue, hfalse⟩
    · exact heq
    have hown := hsource htrue
    rw [show s.deferring = false from hfalse] at hown
    nomatch hown

/-! ## Every run -/

/-- **The battery's level is fresh, over whole runs.** A level of the characteristic is there only
while it is followed, received since whatever made older ones stale; a read sets it only if no
notification came since it was sent; and the snapshot of the pending discovery keeps what was
signalled. -/
theorem battery_is_fresh (env : Env) (inputs : List Input) :
    let s := Machine.run (step env) {} inputs
    (∀ level, s.gatt = some level →
      (s.running = true ∧ s.charPath.isSome = true ∧ s.linkConnected ≠ some false ∧
        s.deferring = false) ∧ Received s.log level) ∧
    Trace.Each Valid s.log ∧
    ∀ id call objects, s.calls.get id = some call → call.kind = .managed →
      s.isCurrent call = true → Kept env s objects (step env s (.answers id (.objects objects))) := by
  have hfresh : Fresh (Machine.run (step env) {} inputs) :=
    Machine.always (step env) (fun s i hs => hs.step env i) inputs fresh_init
  have hdiscovering : Discovering env (Machine.run (step env) {} inputs) :=
    Machine.always (step env) (fun s i hs => hs.step i) inputs (discovering_init env)
  refine ⟨fun level hlevel => ?_, hfresh.sound.valid, ?_⟩
  · obtain ⟨hlive, hreceived⟩ := hfresh.set level hlevel
    exact ⟨⟨hlive.running, hlive.adopted, hlive.link, hlive.own⟩, hreceived⟩
  intro id call objects hget hkind hcurrent
  generalize Machine.run (step env) {} inputs = s at *
  obtain ⟨hrunning, hgeneration⟩ := generation_of_current hcurrent
  have hpending := (hdiscovering.calls id call hget hkind).2 hgeneration hrunning
  have hkept := kept_onManaged (s := { s with calls := s.calls.take id })
    (hfresh.take id).set (hdiscovering.take id) hpending objects
  have hcurrent' : { s with calls := s.calls.take id }.isCurrent call = true := hcurrent
  have hstep : step env s (.answers id (.objects objects)) =
      { s with calls := s.calls.take id }.onManaged env objects := by
    rw [step_answers hget]
    unfold State.answered
    dsimp only
    rw [if_pos hcurrent', hkind]
    rfl
  rw [hstep]
  exact { hkept with battery1 := hkept.battery1 }

/-! ## A run -/

def onePhone : Env := ⟨"/org/bluez/hci0/dev_1".toList, fun _ => none⟩

def oneChar : Str := "/org/bluez/hci0/dev_1/service1/char1".toList

/-- A characteristic appears and notifies 50 while discovery is pending. -/
def notifiedEarly : List Input :=
  [.start, .added 1 oneChar (.mapping none (some (.mapping batteryLevelUuid (.list [])))),
    .charChanged (1, 1) gattCharIface (.mapping (some (.list [.int 50])) false)]

/-- The snapshot lists a `Battery1` of BlueZ's own, with 49. -/
def ownBattery : Objects :=
  Dict.empty.set onePhone.devicePath
    (.mapping (some (.mapping bluezGattBatterySource (.scalar (.int 49)))) none)

/-- **The snapshot undoes a notified level**: the source is switched to BlueZ's own battery. -/
theorem switched_source_drops_level :
    let s := Machine.run (step onePhone) {} notifiedEarly
    let s' := step onePhone s (.answers 0 (.objects ownBattery))
    s.gatt = some 50 ∧ Signalled s.log (.notified (some 50)) ∧ s'.gatt = none ∧
      s'.battery1 = some 49 := by
  refine ⟨by decide +kernel, by decide +kernel, by decide +kernel, by decide +kernel⟩

end BlueFerry.PhoneBattery
