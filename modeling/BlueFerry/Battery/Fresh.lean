import BlueFerry.Battery.Quiet

/-! # The level is fresh

A level of the characteristic is kept only while it is followed (`Live`), and it was received after
whatever made older levels stale (`SetOk`). `Sound` is what the late replies rest on: a read that was
sent before a change has an older generation, and one that was sent before a notification has an
older revision.

Most of what the handlers are made of drops a level or keeps it (`Calm`).
-/

namespace BlueFerry.PhoneBattery

open BlueFerry.Text

/-! ## What the log says -/

/-- The link, the characteristic or the source has changed. -/
def isChange (e : Event) : Prop := e = .linkChanged ∨ e = .charChanged ∨ e = .sourceSwitched

/-- A notification has set the level. -/
def isNotified (e : Event) : Prop := ∃ value, e = .notified value

/-- The level was received: cached, read or notified. -/
def Gives (value : Int) (e : Event) : Prop :=
  e = .cached value ∨ (∃ n, e = .readSet n (some value)) ∨ e = .notified (some value)

/-- A read sets the level only if no notification came since it was sent. -/
def Valid (e : Event) (earlier : List Event) : Prop :=
  match e with
  | .readSet n _ => Trace.Since isNotified (fun e _ => e = .readSent n) earlier
  | _ => True

/-- The level was received, and nothing has made it stale since. -/
def Received (log : List Event) (value : Int) : Prop :=
  Trace.Since isChange (fun e _ => Gives value e) log

/-- The characteristic is followed. -/
structure Live (s : State) : Prop where
  running : s.running = true
  adopted : s.charPath.isSome = true
  link : s.linkConnected ≠ some false
  own : s.deferring = false

/-- What is kept was received while the characteristic was followed. -/
def SetOk (s : State) : Prop := ∀ value, s.gatt = some value → Live s ∧ Received s.log value

variable {env : Env} {s s' t : State}

/-! ## Steps that drop the level or keep it -/

/-- The level is kept or dropped, nothing stops following it, and nothing makes it stale. -/
structure Calm (s s' : State) : Prop where
  gatt : s'.gatt = s.gatt ∨ s'.gatt = none
  live : Live s → Live s'
  log : ∃ new, s'.log = new ++ s.log ∧ ∀ e ∈ new, ¬ isChange e

theorem Calm.refl (s : State) : Calm s s := ⟨Or.inl rfl, id, [], rfl, by simp⟩

theorem Calm.trans (h : Calm s s') (h' : Calm s' t) : Calm s t := by
  obtain ⟨hgatt, hlive, new, hlog, hnew⟩ := h
  obtain ⟨hgatt', hlive', new', hlog', hnew'⟩ := h'
  refine ⟨?_, fun hs => hlive' (hlive hs), new' ++ new, ?_, ?_⟩
  · rcases hgatt' with heq | heq
    · rw [heq]
      exact hgatt
    · exact .inr heq
  · rw [hlog', hlog, List.append_assoc]
  intro e he
  rcases List.mem_append.mp he with he | he
  · exact hnew' e he
  · exact hnew e he

theorem Calm.of_parts (hgatt : s'.gatt = s.gatt ∨ s'.gatt = none)
    (h : (s'.running, s'.charPath, s'.linkConnected, s'.deferring, s'.log) =
      (s.running, s.charPath, s.linkConnected, s.deferring, s.log)) : Calm s s' := by
  simp only [Prod.mk.injEq] at h
  obtain ⟨hrunning, hchar, hlink, hdeferring, hlog⟩ := h
  exact ⟨hgatt, fun hs => ⟨hrunning.trans hs.running, by rw [hchar]; exact hs.adopted,
    by rw [hlink]; exact hs.link, hdeferring.trans hs.own⟩, [], hlog, by simp⟩

theorem Calm.of_eq (h : (s'.gatt, s'.running, s'.charPath, s'.linkConnected, s'.deferring, s'.log) =
    (s.gatt, s.running, s.charPath, s.linkConnected, s.deferring, s.log)) : Calm s s' :=
  .of_parts (.inl (congrArg Prod.fst h)) (congrArg Prod.snd h)

variable {e : Event}

theorem calm_note (s : State) (he : ¬ isChange e) : Calm s (s.note e) where
  gatt := Or.inl rfl
  live hs := { hs with }
  log := ⟨[e], rfl, by simpa using he⟩

theorem SetOk.calm (h : SetOk s) (hcalm : Calm s s') : SetOk s' := by
  intro value hvalue
  obtain ⟨hgatt, hlive, new, hlog, hnew⟩ := hcalm
  rcases hgatt with heq | heq
  · rw [heq] at hvalue
    obtain ⟨hs, hreceived⟩ := h value hvalue
    refine ⟨hlive hs, ?_⟩
    rw [hlog]
    exact Trace.Since.append hreceived hnew
  · rw [heq] at hvalue
    nomatch hvalue

theorem SetOk.of_none (h : s.gatt = none) : SetOk s := by
  intro value hvalue
  rw [h] at hvalue
  nomatch hvalue

theorem not_isChange_readSet (n : Nat) (value : Option Int) : ¬ isChange (.readSet n value) := by
  rintro (h | h | h) <;> nomatch h

theorem not_isChange_readSent (n : Nat) : ¬ isChange (.readSent n) := by
  rintro (h | h | h) <;> nomatch h

theorem not_isNotified_of_ne (h : ∀ value, e ≠ .notified value) : ¬ isNotified e := by
  rintro ⟨value, rfl⟩
  exact h value rfl

theorem calm_onError (s : State) (kind : Kind) (name : Str) : Calm s (s.onError kind name) := by
  unfold State.onError
  cases kind with
  | managed => exact .of_eq rfl
  | read path n revision =>
    dsimp only
    split
    · have hdrop : Calm s (s.setGatt none) := .of_parts (.inr rfl) rfl
      exact hdrop.trans (calm_note _ (not_isChange_readSet n none))
    · exact .refl s
  | startNotify path n revision =>
    dsimp only
    split
    · exact .of_eq rfl
    split
    · exact .of_parts (.inr rfl) rfl
    · exact .refl s
  | stopNotify path => exact .refl s

section

variable (env : Env)

theorem calm_call (s : State) (kind : Kind) : Calm s (s.call env kind) := by
  unfold State.call
  have hused : Calm s s.used := .of_eq rfl
  split
  · exact .of_eq rfl
  split
  · exact hused.trans (calm_onError s.used kind _)
  · exact hused

theorem calm_stopNotify (s : State) (path : Str) : Calm s (s.stopNotify env path) := by
  unfold State.stopNotify
  split <;> exact .of_eq rfl

theorem calm_subscribe (s : State) (path : Str) : Calm s (s.subscribe env path) := by
  unfold State.subscribe
  have hset : Calm s { s with subscriptions := s.subscriptions + 1 } := .of_eq rfl
  have hnote := hset.trans (calm_note _ (not_isChange_readSent s.subscriptions))
  have hread := hnote.trans (calm_call env _ (.read path s.subscriptions s.valueRevision))
  dsimp only
  split
  · exact hread
  · exact hread.trans (calm_call env _ _)

/-! ## What late replies rest on -/

/-- A read of the present generations was sent while the characteristic was followed; one of the
present revision was sent after the last notification. -/
def Backed (s : State) (call : Call) : Prop :=
  match call.kind with
  | .read _ n revision =>
    call.charGeneration ≤ s.charGeneration ∧ call.linkGeneration ≤ s.linkGeneration ∧
      revision ≤ s.valueRevision ∧
        (call.charGeneration = s.charGeneration → call.linkGeneration = s.linkGeneration →
          s.charPath.isSome = true ∧ s.linkConnected ≠ some false ∧ s.deferring = false) ∧
          (revision = s.valueRevision →
            Trace.Since isNotified (fun e _ => e = .readSent n) s.log)
  | _ => True

structure Sound (s : State) : Prop where
  handlers : ∀ h ∈ s.handlers, h.2 ≤ s.charGeneration ∧
    (h.2 = s.charGeneration → s.charPath.isSome = true)
  calls : ∀ id call, s.calls.Holds id call → Backed s call
  valid : Trace.Each Valid s.log

/-- The invariant. -/
structure Fresh (s : State) : Prop where
  sound : Sound s
  set : SetOk s

/-- What `Sound` reads of a state. -/
def core (s : State) :=
  (s.handlers, s.charGeneration, s.charPath, s.calls, s.log, s.linkGeneration, s.valueRevision,
    s.linkConnected, s.deferring)

theorem Sound.congr (h : Sound s) (hcore : core s' = core s) : Sound s' := by
  simp only [core, Prod.mk.injEq] at hcore
  obtain ⟨hhandlers, hchar, hpath, hcalls, hlog, hlink, hrevision, hconnected, hdeferring⟩ := hcore
  constructor
  · rw [hhandlers, hchar, hpath]
    exact h.handlers
  · intro id call hholds
    rw [hcalls] at hholds
    have hbacked := h.calls id call hholds
    unfold Backed at hbacked ⊢
    rw [hchar, hlink, hrevision, hpath, hconnected, hdeferring, hlog]
    exact hbacked
  · rw [hlog]
    exact h.valid

theorem Sound.setGatt (h : Sound s) (value : Option Int) : Sound (s.setGatt value) := h.congr rfl

theorem Backed.note {call : Call} (h : Backed s call) (he : ¬ isNotified e) :
    Backed (s.note e) call := by
  unfold Backed at h ⊢
  split at h
  · exact ⟨h.1, h.2.1, h.2.2.1, h.2.2.2.1, fun heq => (h.2.2.2.2 heq).later he⟩
  · trivial

theorem Sound.note (h : Sound s) (he : ¬ isNotified e) (hvalid : Valid e s.log) :
    Sound (s.note e) :=
  ⟨h.handlers, fun id call hholds => (h.calls id call hholds).note he, hvalid, h.valid⟩

theorem Sound.sent (h : Sound s) {kind : Kind}
    (hkind : Backed s ⟨kind, s.generation, s.charGeneration, s.linkGeneration⟩) :
    Sound (s.sent kind) where
  handlers := h.handlers
  calls := by
    intro id call hholds
    rcases Slots.holds_put.mp hholds with ⟨-, rfl⟩ | hholds
    · exact hkind
    · exact h.calls id call hholds
  valid := h.valid

theorem Sound.take (h : Sound s) (id : Nat) : Sound { s with calls := s.calls.take id } :=
  { h with calls := fun id' call hholds => h.calls id' call (Slots.holds_take.mp hholds).2 }

/-- An error of a call that is current sets no level. -/
theorem Sound.onError (h : Sound s) (kind : Kind) (name : Str)
    (hread : ∀ path n revision, kind = .read path n revision → revision = s.valueRevision →
      Trace.Since isNotified (fun e _ => e = .readSent n) s.log) :
    Sound (s.onError kind name) := by
  unfold State.onError
  cases kind with
  | managed => exact h.congr rfl
  | read path n revision =>
    dsimp only
    split
    · rename_i heq
      refine (h.setGatt none).note (not_isNotified_of_ne nofun) ?_
      exact hread path n revision rfl heq
    · exact h
  | startNotify path n revision =>
    dsimp only
    split
    · exact h.congr rfl
    split
    · exact h.congr rfl
    · exact h
  | stopNotify path => exact h

theorem Sound.call (h : Sound s) (env : Env) (kind : Kind)
    (hkind : Backed s ⟨kind, s.generation, s.charGeneration, s.linkGeneration⟩) :
    Sound (s.call env kind) := by
  unfold State.call
  have hused : Sound s.used := h.congr rfl
  split
  · exact hused.sent hkind
  split
  · refine hused.onError kind _ ?_
    rintro path n revision rfl heq
    exact hkind.2.2.2.2 heq
  · exact hused

theorem Sound.stopNotify (h : Sound s) (env : Env) (path : Str) : Sound (s.stopNotify env path) := by
  unfold State.stopNotify
  have hused : Sound s.used := h.congr rfl
  split
  · exact hused.sent trivial
  · exact hused

/-- A characteristic is subscribed to while it is followed. -/
theorem Sound.subscribe (h : Sound s) (env : Env) (path : Str) (hadopted : s.charPath.isSome = true)
    (hlink : s.linkConnected ≠ some false) (hown : s.deferring = false) :
    Sound (s.subscribe env path) := by
  unfold State.subscribe
  have hset : Sound { s with subscriptions := s.subscriptions + 1 } := h.congr rfl
  have hnote : Sound ({ s with subscriptions := s.subscriptions + 1 }.note
      (.readSent s.subscriptions)) :=
    hset.note (not_isNotified_of_ne nofun) trivial
  have hread := hnote.call env (.read path s.subscriptions s.valueRevision)
    ⟨le_refl _, le_refl _, le_refl _, fun _ _ => ⟨hadopted, hlink, hown⟩,
      fun _ => Trace.Since.here rfl⟩
  dsimp only
  split
  · exact hread
  · exact hread.call env _ trivial

/-! ## What the parts of a handler change -/

theorem stopNotify_eq (s : State) (path : Str) :
    ∃ ops calls, s.stopNotify env path = { s with ops := ops, calls := calls } := by
  unfold State.stopNotify
  split
  · exact ⟨_, _, rfl⟩
  · exact ⟨_, s.calls, rfl⟩

theorem endSession_eq (s : State) (path : Option Str) (stop : Bool) :
    ∃ ops calls, s.endSession env path stop = { s with ops := ops, calls := calls } := by
  unfold State.endSession
  cases path with
  | none => exact ⟨s.ops, s.calls, rfl⟩
  | some path =>
    dsimp only
    split
    · exact stopNotify_eq env s path
    · exact ⟨s.ops, s.calls, rfl⟩

theorem endOwnSession_eq (s : State) :
    ∃ ops calls, s.endOwnSession env = { s with ops := ops, calls := calls } := by
  unfold State.endOwnSession
  split
  · split
    · exact stopNotify_eq env s _
    · exact ⟨s.ops, s.calls, rfl⟩
  · exact ⟨s.ops, s.calls, rfl⟩

theorem forget_eq (s : State) (stop : Bool) :
    ∃ ops calls, s.forgetCharacteristic env stop =
      { s with
        charGeneration := s.charGeneration + 1
        charPath := none
        log := .charChanged :: s.log
        notifying := false
        gatt := none
        ops := ops
        calls := calls } := by
  unfold State.forgetCharacteristic
  dsimp only
  obtain ⟨ops, calls, heq⟩ := endSession_eq env ({ s with
    charGeneration := s.charGeneration + 1, charPath := none }.note .charChanged) s.charPath stop
  rw [heq]
  exact ⟨ops, calls, rfl⟩

/-! ## The characteristic -/

/-- A characteristic is left: no call and no handler of before is of the present generation. -/
theorem Sound.left (h : Sound s) :
    Sound ({ s with charGeneration := s.charGeneration + 1, charPath := none }.note .charChanged) where
  handlers := by
    intro handler hmem
    have hle := (h.handlers handler hmem).1
    refine ⟨?_, fun heq => ?_⟩
    · show handler.2 ≤ s.charGeneration + 1
      omega
    · have heq' : handler.2 = s.charGeneration + 1 := heq
      omega
  calls := by
    intro id call hholds
    have hbacked := h.calls id call hholds
    have hset : Backed { s with charGeneration := s.charGeneration + 1, charPath := none } call := by
      unfold Backed at hbacked ⊢
      split at hbacked
      · obtain ⟨hchar, hlink, hrevision, -, hsince⟩ := hbacked
        refine ⟨?_, hlink, hrevision, fun heq => ?_, hsince⟩
        · show call.charGeneration ≤ s.charGeneration + 1
          omega
        · have heq' : call.charGeneration = s.charGeneration + 1 := heq
          omega
      · trivial
    exact hset.note (not_isNotified_of_ne nofun)
  valid := ⟨trivial, h.valid⟩

theorem Sound.endSession (h : Sound s) (env : Env) (path : Option Str) (stop : Bool) :
    Sound (s.endSession env path stop) := by
  unfold State.endSession
  cases path with
  | none => exact h
  | some path =>
    dsimp only
    split
    · exact h.stopNotify env path
    · exact h

theorem Sound.forget (h : Sound s) (env : Env) (stop : Bool) :
    Sound (s.forgetCharacteristic env stop) :=
  (h.left.endSession env s.charPath stop).congr rfl

theorem Fresh.of_none (h : Sound s) (hgatt : s.gatt = none) : Fresh s := ⟨h, .of_none hgatt⟩

theorem Sound.fresh_forget (h : Sound s) (env : Env) (stop : Bool) :
    Fresh (s.forgetCharacteristic env stop) := .of_none (h.forget env stop) rfl

theorem Fresh.calm (h : Fresh s) (hsound : Sound s') (hcalm : Calm s s') : Fresh s' :=
  ⟨hsound, h.set.calm hcalm⟩

theorem Fresh.subscribe (h : Fresh s) (env : Env) (path : Str) (hlive : Live s) :
    Fresh (s.subscribe env path) :=
  h.calm (h.sound.subscribe env path hlive.adopted hlive.link hlive.own) (calm_subscribe env s path)

theorem Fresh.setCached (h : Fresh s) (hlive : Live s) (value : Value) :
    Fresh (s.setCached value) := by
  unfold State.setCached
  split
  · rename_i level _
    refine ⟨(h.sound.setGatt (some level)).note (not_isNotified_of_ne nofun) trivial, ?_⟩
    intro value hvalue
    rw [Option.some.inj hvalue.symm]
    exact ⟨⟨hlive.running, hlive.adopted, hlive.link, hlive.own⟩, Trace.Since.here (.inl rfl)⟩
  · exact h

theorem setCached_live (s : State) (value : Value) (h : Live s) : Live (s.setCached value) := by
  unfold State.setCached
  split
  · exact { h with }
  · exact h

/-- **An adopted characteristic is followed from its first value on.** -/
theorem Sound.adopt (h : Sound s) (env : Env) (path : Str) (value : Value)
    (hrunning : s.running = true) : Fresh (s.adoptCharacteristic env path value) := by
  unfold State.adoptCharacteristic
  have hforget := h.forget env true
  obtain ⟨ops, calls, heq⟩ := forget_eq env s true
  have hrun : (s.forgetCharacteristic env true).running = true := by rw [heq]; exact hrunning
  have hgatt : (s.forgetCharacteristic env true).gatt = none := by rw [heq]
  have hpath : (s.forgetCharacteristic env true).charPath = none := by rw [heq]
  generalize s.forgetCharacteristic env true = t at hforget hrun hgatt hpath
  dsimp only
  split
  · exact .of_none (hforget.congr rfl) hgatt
  have hadopted : Sound { t.used with
      charPath := some path, handlers := (t.generation, t.charGeneration) :: t.handlers } := by
    refine ⟨?_, fun id call hholds => ?_, hforget.valid⟩
    · intro handler hmem
      rcases List.mem_cons.mp hmem with rfl | hmem
      · exact ⟨le_refl _, fun _ => rfl⟩
      · exact ⟨(hforget.handlers handler hmem).1, fun _ => rfl⟩
    have hbacked := hforget.calls id call hholds
    unfold Backed at hbacked ⊢
    split at hbacked
    · obtain ⟨hchar, hlink, hrevision, hcurrent, hsince⟩ := hbacked
      refine ⟨hchar, hlink, hrevision, fun hc hl => ?_, hsince⟩
      have hnone := (hcurrent hc hl).1
      rw [hpath] at hnone
      nomatch hnone
    · trivial
  have hfresh : Fresh { t.used with
      charPath := some path, handlers := (t.generation, t.charGeneration) :: t.handlers } :=
    .of_none hadopted hgatt
  split
  · exact hfresh
  rename_i hon
  have hlive : Live { t.used with
      charPath := some path, handlers := (t.generation, t.charGeneration) :: t.handlers } :=
    ⟨hrun, rfl, fun hlink => hon (.inl hlink), Bool.eq_false_of_not_eq_true
      (fun hown => hon (.inr hown))⟩
  have hlive' := setCached_live _ value hlive
  refine Fresh.subscribe ?_ env path { hlive' with }
  have hcached := hfresh.setCached hlive value
  refine hcached.calm (hcached.sound.congr rfl) ?_
  exact .of_eq rfl

/-! ## The link and the source -/

theorem Backed.relink {call : Call} (h : Backed s call) {linkGeneration : Nat}
    {connected : Option Bool} {deferring : Bool} (hlt : s.linkGeneration < linkGeneration) :
    Backed { s with
      linkGeneration := linkGeneration, linkConnected := connected, deferring := deferring }
      call := by
  unfold Backed at h ⊢
  split at h
  · obtain ⟨hchar, hlink, hrevision, -, hsince⟩ := h
    refine ⟨hchar, ?_, hrevision, fun _ heq => ?_, hsince⟩
    · show call.linkGeneration ≤ linkGeneration
      omega
    · have heq' : call.linkGeneration = linkGeneration := heq
      omega
  · trivial

/-- A link or a source that changes makes every read before it late. -/
theorem Sound.relink (h : Sound s) {linkGeneration : Nat} {connected : Option Bool}
    {deferring : Bool} (hlt : s.linkGeneration < linkGeneration) :
    Sound { s with
      linkGeneration := linkGeneration, linkConnected := connected, deferring := deferring } :=
  { h with calls := fun id call hholds => (h.calls id call hholds).relink hlt }

/-- A source that is taken back leaves the calls as they are. -/
theorem Sound.own (h : Sound s) : Sound { s with deferring := false } := by
  refine { h with calls := fun id call hholds => ?_ }
  have hbacked := h.calls id call hholds
  unfold Backed at hbacked ⊢
  split at hbacked
  · obtain ⟨hchar, hlink, hrevision, hcurrent, hsince⟩ := hbacked
    exact ⟨hchar, hlink, hrevision, fun hc hl => ⟨(hcurrent hc hl).1, (hcurrent hc hl).2.1, rfl⟩,
      hsince⟩
  · trivial

theorem Sound.endOwnSession (h : Sound s) (env : Env) : Sound (s.endOwnSession env) := by
  unfold State.endOwnSession
  cases s.charPath with
  | none => exact h
  | some path =>
    dsimp only
    split
    · exact h.stopNotify env path
    · exact h

/-- While BlueZ's own battery is followed there is no level. -/
theorem gatt_of_deferring (h : SetOk s) (hown : s.deferring = true) : s.gatt = none := by
  by_contra hsome
  obtain ⟨level, hlevel⟩ := Option.ne_none_iff_exists'.mp hsome
  have hlive := (h level hlevel).1.own
  rw [hown] at hlive
  nomatch hlive

theorem Sound.giveUp (h : Sound s) (env : Env) : Fresh (s.giveUp env) := by
  have hnote : Sound (s.note .sourceSwitched) := h.note (not_isNotified_of_ne nofun) trivial
  have hlinked : Sound { s.note .sourceSwitched with
      linkGeneration := s.linkGeneration + 1, linkConnected := s.linkConnected
      deferring := true } := hnote.relink (Nat.lt_succ_self _)
  exact .of_none ((hlinked.endOwnSession env).congr rfl) rfl

theorem Sound.takeBack (h : Sound s) (hgatt : s.gatt = none) (env : Env) :
    Fresh (s.takeBack env) := by
  have hnote : Sound (s.note .sourceSwitched) := h.note (not_isNotified_of_ne nofun) trivial
  have hback : Sound { s.note .sourceSwitched with deferring := false } := hnote.own
  unfold State.takeBack
  dsimp only
  split
  · rename_i path hpath
    split
    · rename_i hon
      have hdrop : Fresh ({ s.note .sourceSwitched with
          deferring := false, notifying := false }.setGatt none) := .of_none (hback.congr rfl) rfl
      refine hdrop.subscribe env path ?_
      exact ⟨hon.1, Option.isSome_iff_exists.mpr ⟨path, hpath⟩, hon.2, rfl⟩
    · exact .of_none hback hgatt
  · exact .of_none hback hgatt

/-- **A source is switched with no level of before.** -/
theorem Fresh.syncSource (h : Fresh s) (env : Env) : Fresh (s.syncSource env) := by
  unfold State.syncSource
  by_cases hsame : (s.battery1Plugin && !s.battery1Suspect) = s.deferring
  · rw [if_pos hsame]
    exact h
  rw [if_neg hsame]
  by_cases hdefer : (s.battery1Plugin && !s.battery1Suspect) = true
  · rw [if_pos hdefer]
    exact h.sound.giveUp env
  rw [if_neg hdefer]
  refine h.sound.takeBack (gatt_of_deferring h.set ?_) env
  rw [Bool.eq_false_of_not_eq_true hdefer] at hsame
  exact Bool.eq_true_of_not_eq_false (fun heq => hsame heq.symm)

/-! ## Signals -/

theorem Fresh.quiet (h : Fresh s) (heq : (core s', s'.gatt, s'.running) = (core s, s.gatt, s.running)) : Fresh s' := by
  simp only [Prod.mk.injEq] at heq
  obtain ⟨hcore, hgatt, hrunning⟩ := heq
  refine h.calm (h.sound.congr hcore) ?_
  simp only [core, Prod.mk.injEq] at hcore
  obtain ⟨-, -, hpath, -, hlog, -, -, hconnected, hdeferring⟩ := hcore
  exact .of_eq (by rw [hgatt, hrunning, hpath, hconnected, hdeferring, hlog])

theorem Fresh.note (h : Fresh s) (hchange : ¬ isChange e) (hnotified : ¬ isNotified e)
    (hvalid : Valid e s.log) : Fresh (s.note e) :=
  h.calm (h.sound.note hnotified hvalid) (calm_note s hchange)

/-- A signal of an object or a property. -/
theorem Fresh.signalled (h : Fresh s)
    (he : e = .batterySignalled ∨ ∃ path, e = .charSignalled path) : Fresh (s.note e) := by
  rcases he with rfl | ⟨path, rfl⟩
  all_goals
    refine h.note ?_ (not_isNotified_of_ne nofun) trivial
    rintro (heq | heq | heq) <;> nomatch heq

theorem Fresh.noteAdded (h : Fresh s) (env : Env) (path : Str) (battery char : Bool) :
    Fresh (s.noteAdded env path battery char) := by
  unfold State.noteAdded
  have hbattery : Fresh (if path = env.devicePath ∧ battery = true then s.note .batterySignalled
      else s) := by
    split
    · exact h.signalled (.inl rfl)
    · exact h
  dsimp only
  generalize (if path = env.devicePath ∧ battery = true then s.note .batterySignalled else s) = t
    at hbattery
  have hchar : Fresh (if env.under path = true ∧ char = true then t.note (.charSignalled path)
      else t) := by
    split
    · exact hbattery.signalled (.inr ⟨path, rfl⟩)
    · exact hbattery
  generalize (if env.under path = true ∧ char = true then t.note (.charSignalled path) else t) = t'
    at hchar
  split
  · exact hchar.quiet rfl
  · exact hchar

theorem Fresh.addBattery (h : Fresh s) (env : Env) (path : Str) (battery : Option Battery) :
    Fresh (s.addBattery env path battery) := by
  unfold State.addBattery
  split
  · split
    · apply Fresh.syncSource
      exact h.quiet rfl
    · exact h
  · exact h

theorem Fresh.addChar (h : Fresh s) (env : Env) (path : Str) (char : Option Char1)
    (hrunning : s.running = true) : Fresh (s.addChar env path char) := by
  unfold State.addChar
  split
  · split
    · exact h.sound.adopt env path _ hrunning
    · exact h
  · exact h

theorem Fresh.addObject (h : Fresh s) (env : Env) (path : Str) (battery : Option Battery)
    (char : Option Char1) (hrunning : s.running = true) :
    Fresh (s.addObject env path battery char) :=
  (h.addBattery env path battery).addChar env path char
    ((quiet_addBattery env s path battery).running.trans hrunning)

theorem noteAdded_running (s : State) (path : Str) (battery char : Bool) :
    (s.noteAdded env path battery char).running = s.running := by
  unfold State.noteAdded
  split <;> split <;> split <;> rfl

end

theorem Fresh.onAdded (h : Fresh s) (env : Env) (path : Str) (interfaces : Interfaces)
    (hrunning : s.running = true) : Fresh (s.onAdded env path interfaces) := by
  unfold State.onAdded
  split
  · exact (h.noteAdded env path _ _).addObject env path _ _
      ((noteAdded_running env s path _ _).trans hrunning)
  · exact h

theorem Fresh.onRemoved (h : Fresh s) (env : Env) (path : Str) (names : List Str) :
    Fresh (s.onRemoved env path names) := by
  unfold State.onRemoved
  have hnoted := h.noteAdded env path (decide (battery1Iface ∈ names))
    (decide (gattCharIface ∈ names))
  generalize s.noteAdded env path (decide (battery1Iface ∈ names))
    (decide (gattCharIface ∈ names)) = t at hnoted
  have hbattery : Fresh (t.removeBattery env path names) := by
    unfold State.removeBattery
    split
    · apply Fresh.syncSource
      exact hnoted.quiet rfl
    · exact hnoted
  unfold State.removeChar
  split
  · exact hbattery.sound.fresh_forget env false
  · exact hbattery

theorem Fresh.onBattery1Changed (h : Fresh s) (env : Env) (interface : Str) (changed : Changed) :
    Fresh (s.onBattery1Changed env interface changed) := by
  unfold State.onBattery1Changed
  have hsignalled : Fresh ((s.note .batterySignalled).noteDiscoveryChange env.devicePath) :=
    (h.signalled (.inl rfl)).quiet rfl
  split
  · split
    · apply Fresh.syncSource
      exact hsignalled.quiet rfl
    · exact hsignalled.quiet rfl
    · exact h
  · exact h

/-- A revision is newer than every read before it. -/
theorem Sound.revised (h : Sound s) (value : Option Int) :
    Sound ({ s with valueRevision := s.valueRevision + 1 }.note (.notified value)) := by
  refine ⟨h.handlers, fun id call hholds => ?_, trivial, h.valid⟩
  have hbacked := h.calls id call hholds
  unfold Backed at hbacked ⊢
  split at hbacked
  · rename_i revision _
    obtain ⟨hchar, hlink, hrevision, hcurrent, -⟩ := hbacked
    refine ⟨hchar, hlink, ?_, hcurrent, fun heq => ?_⟩
    · show revision ≤ s.valueRevision + 1
      omega
    · have heq' : revision = s.valueRevision + 1 := heq
      omega
  · trivial

theorem noteChar_eq (s : State) :
    s.noteChar = s ∨ ∃ path changes, s.noteChar =
      { s with log := .charSignalled path :: s.log, discoveryChanges := changes } := by
  unfold State.noteChar
  split
  · exact .inr ⟨_, _, rfl⟩
  · exact .inl rfl

/-- **A notification sets the level, and no read that was sent before it will.** -/
theorem Sound.notified (h : Sound s) (hlive : Live s) (value : Option Int) :
    Fresh (s.notified value) := by
  unfold State.notified
  have hrevised := h.revised value
  rcases noteChar_eq ({ s with valueRevision := s.valueRevision + 1 }.note (.notified value)) with
    heq | ⟨path, changes, heq⟩
  · rw [heq]
    refine ⟨hrevised.setGatt value, fun level hlevel => ?_⟩
    refine ⟨⟨hlive.running, hlive.adopted, hlive.link, hlive.own⟩, Trace.Since.here ?_⟩
    exact .inr (.inr (by rw [← show value = some level from hlevel]))
  rw [heq]
  have hnote : Sound (({ s with valueRevision := s.valueRevision + 1 }.note
      (.notified value)).note (.charSignalled path)) :=
    hrevised.note (not_isNotified_of_ne nofun) trivial
  refine ⟨hnote.congr rfl, fun level hlevel => ?_⟩
  refine ⟨⟨hlive.running, hlive.adopted, hlive.link, hlive.own⟩, Trace.Since.later ?_ ?_⟩
  · rintro (hchange | hchange | hchange) <;> nomatch hchange
  · refine Trace.Since.here (.inr (.inr ?_))
    rw [← show value = some level from hlevel]

theorem Fresh.onCharChanged (h : Fresh s) (interface : Str) (changed : Changed)
    (hrunning : s.running = true) (hadopted : s.charPath.isSome = true) :
    Fresh (s.onCharChanged interface changed) := by
  unfold State.onCharChanged
  by_cases hoff : s.linkConnected = some false ∨ s.deferring = true
  · rw [if_pos hoff]
    exact h
  rw [if_neg hoff]
  have hlive : Live s := ⟨hrunning, hadopted, fun hlink => hoff (.inl hlink),
    Bool.eq_false_of_not_eq_true (fun hown => hoff (.inr hown))⟩
  split
  · split
    · exact h.sound.notified hlive _
    · exact h.sound.notified hlive none
    · exact h
  · exact h

/-! ## Discovery -/

theorem Fresh.onManagedObject (h : Fresh s) (env : Env) (changed : List Str) (path : Str)
    (interfaces : Interfaces) (hrunning : s.running = true) :
    Fresh (s.onManagedObject env changed path interfaces) := by
  unfold State.onManagedObject
  split
  · split
    · exact h.addObject env path _ _ hrunning
    split
    · split
      · apply Fresh.syncSource
        exact h.quiet rfl
      · exact h
    · exact h
  · exact h

theorem Fresh.onManaged (h : Fresh s) (env : Env) (objects : Objects)
    (hrunning : s.running = true) : Fresh (s.onManaged env objects) := by
  unfold State.onManaged
  have hstart : Fresh { s with discoveryChanges := none } := h.quiet rfl
  have hdevice : Fresh ({ s with discoveryChanges := none }.onManagedDevice env
        (s.discoveryChanges.getD []) objects) ∧
      ({ s with discoveryChanges := none }.onManagedDevice env (s.discoveryChanges.getD [])
        objects).running = true := by
    unfold State.onManagedDevice
    split
    · exact ⟨hstart.onManagedObject env _ _ _ hrunning,
        (quiet_onManagedObject env _ _ _ _).running.trans hrunning⟩
    · exact ⟨hstart, hrunning⟩
  dsimp only
  generalize { s with discoveryChanges := none }.onManagedDevice env (s.discoveryChanges.getD [])
    objects = t at hdevice
  generalize objects.items.filter (fun e => decide (e.1 ≠ env.devicePath)) = items
  induction items generalizing t with
  | nil => exact hdevice.1
  | cons e items ih =>
    apply ih
    exact ⟨hdevice.1.onManagedObject env _ e.1 e.2 hdevice.2,
      (quiet_onManagedObject env _ t e.1 e.2).running.trans hdevice.2⟩

/-! ## Lifecycle -/

theorem Fresh.halt (h : Sound s) (env : Env) : Fresh (s.halt env) := by
  have hset : Sound { s with
      running := false, generation := s.generation + 1, discoveryChanges := none } := h.congr rfl
  have hforget := hset.forget env true
  exact .of_none (hforget.own.congr rfl) rfl

theorem Fresh.start (h : Fresh s) (env : Env) : Fresh (s.start env) := by
  unfold State.start
  dsimp only
  split
  · exact h.quiet rfl
  rename_i hrunning
  -- a state that is not running has no level
  have hgatt : s.gatt = none := by
    by_contra hsome
    obtain ⟨level, hlevel⟩ := Option.ne_none_iff_exists'.mp hsome
    exact hrunning (h.set level hlevel).1.running
  have hnote : Sound (s.note .discovery) := h.sound.note (not_isNotified_of_ne nofun) trivial
  have hbegun : Sound { s with wanted := true }.begun.used := hnote.congr rfl
  split
  · exact Fresh.halt hbegun env
  have hfresh : Fresh { s with wanted := true }.begun.used := .of_none hbegun hgatt
  exact hfresh.calm (hbegun.call env .managed trivial) (calm_call env _ _)

theorem Fresh.bluezOwnerChanged (h : Fresh s) (env : Env) (present : Bool) :
    Fresh (s.bluezOwnerChanged env present) := by
  unfold State.bluezOwnerChanged
  have hset : Sound { s with notifying := false } := h.sound.congr rfl
  have hhalt := Fresh.halt hset env
  dsimp only
  split
  · exact hhalt.start env
  · exact hhalt

theorem Sound.resetLink (h : Sound s) (connected : Option Bool) :
    Fresh ({ s with linkConnected := connected }.resetLink) := by
  have hlinked : Sound { s with
      linkGeneration := s.linkGeneration + 1, linkConnected := connected
      deferring := s.deferring } := h.relink (Nat.lt_succ_self _)
  have hquiet : ¬ isNotified .linkChanged := not_isNotified_of_ne nofun
  have hnote := hlinked.note hquiet trivial
  exact .of_none (hnote.congr rfl) rfl

theorem Fresh.linkUp (h : Fresh s) (env : Env) : Fresh (s.linkUp env) := by
  unfold State.linkUp
  have hreset := h.sound.resetLink (some true)
  dsimp only
  split
  · rename_i path hpath
    split
    · rename_i hon
      refine hreset.subscribe env path ⟨hon.1, ?_, ?_, hon.2⟩
      · exact Option.isSome_iff_exists.mpr ⟨path, hpath⟩
      · nofun
    · exact hreset
  · exact hreset

theorem Fresh.linkDown (h : Fresh s) (env : Env) : Fresh (s.linkDown env) := by
  unfold State.linkDown
  have hreset := h.sound.resetLink (some false)
  dsimp only
  split
  · apply Fresh.syncSource
    exact hreset.quiet rfl
  · exact hreset

/-! ## Answers -/

/-- A call of the present generations was sent while the characteristic was followed. -/
theorem live_of_current {call : Call} {path : Str} {n revision : Nat} (hbacked : Backed s call)
    (hkind : call.kind = .read path n revision) (hcurrent : s.isCurrent call = true) : Live s := by
  unfold State.isCurrent at hcurrent
  rw [hkind] at hcurrent
  simp only [Kind.characteristic, Bool.not_true, Bool.false_or, Bool.and_eq_true,
    decide_eq_true_eq] at hcurrent
  unfold Backed at hbacked
  rw [hkind] at hbacked
  obtain ⟨hadopted, hlink, hown⟩ := hbacked.2.2.2.1 hcurrent.2.1 hcurrent.2.2
  exact ⟨hcurrent.1.1, hadopted, hlink, hown⟩

theorem since_of_backed {call : Call} {path : Str} {n revision : Nat} (hbacked : Backed s call)
    (hkind : call.kind = .read path n revision) (hrevision : revision = s.valueRevision) :
    Trace.Since isNotified (fun e _ => e = .readSent n) s.log := by
  unfold Backed at hbacked
  rw [hkind] at hbacked
  exact hbacked.2.2.2.2 hrevision

/-- **A read's reply sets the level only if no notification came since it was sent.** -/
theorem Fresh.onReply (h : Fresh s) (env : Env) {call : Call} (hbacked : Backed s call)
    (hcurrent : s.isCurrent call = true) (answer : Answer) :
    Fresh (s.onReply env call.kind answer) := by
  have hrunning : s.running = true := by
    unfold State.isCurrent at hcurrent
    rw [Bool.and_eq_true, Bool.and_eq_true] at hcurrent
    exact hcurrent.1.1
  cases hkind : call.kind with
  | managed =>
    cases answer with
    | objects objects => exact h.onManaged env objects hrunning
    | value value | nothing | error name => exact h.quiet rfl
  | read path n revision =>
    have hlive := live_of_current hbacked hkind hcurrent
    show Fresh (s.readReplied n revision answer.level)
    generalize answer.level = level
    unfold State.readReplied
    have hset : Fresh { s with
        succeeded := if level.isSome then n :: s.succeeded else s.succeeded } :=
      h.quiet rfl
    dsimp only
    split
    · rename_i heq
      have hquiet : ¬ isNotified (.readSet n level) := not_isNotified_of_ne nofun
      refine ⟨(hset.sound.setGatt level).note hquiet (since_of_backed hbacked hkind heq), ?_⟩
      intro value hvalue
      refine ⟨⟨hlive.running, hlive.adopted, hlive.link, hlive.own⟩, Trace.Since.here ?_⟩
      refine .inr (.inl ⟨n, ?_⟩)
      rw [← show level = some value from hvalue]
    · exact hset
  | startNotify path n revision => exact h.quiet rfl
  | stopNotify path => exact h

theorem Fresh.onError (h : Fresh s) {call : Call} (hbacked : Backed s call) (name : Str) :
    Fresh (s.onError call.kind name) := by
  refine h.calm (h.sound.onError call.kind name ?_) (calm_onError s call.kind name)
  intro path n revision hkind hrevision
  exact since_of_backed hbacked hkind hrevision

theorem Fresh.startedLate (h : Fresh s) (env : Env) (call : Call) (error : Option Str) :
    Fresh (s.startedLate env call error) := by
  unfold State.startedLate
  split
  · split
    · exact h.calm (h.sound.stopNotify env _) (calm_stopNotify env s _)
    · exact h
  · exact h

theorem Fresh.answered (h : Fresh s) (env : Env) {call : Call} (hbacked : Backed s call)
    (answer : Answer) : Fresh (s.answered env call answer) := by
  unfold State.answered
  split
  · split
    · exact h.onError hbacked _
    · exact h.startedLate env call _
  split
  · rename_i hcurrent
    exact h.onReply env hbacked hcurrent _
  · exact h.startedLate env call none

/-! ## Every step -/

theorem sound_init : Sound {} where
  handlers _ hmem := nomatch hmem
  calls _ _ hholds := nomatch hholds
  valid := trivial

theorem fresh_init : Fresh {} := .of_none sound_init rfl

theorem Fresh.take (h : Fresh s) (id : Nat) : Fresh { s with calls := s.calls.take id } :=
  h.calm (h.sound.take id) (.of_eq rfl)

theorem step_answers_none {id : Nat} {answer : Answer} (h : s.calls.get id = none) :
    step env s (.answers id answer) = s := by
  simp only [step, h]

theorem step_answers {id : Nat} {call : Call} {answer : Answer} (h : s.calls.get id = some call) :
    step env s (.answers id answer) =
      { s with calls := s.calls.take id }.answered env call answer := by
  simp only [step, h]

/-- **Step lemma.** Every step keeps the level fresh. -/
theorem Fresh.step (h : Fresh s) (env : Env) (i : Input) : Fresh (step env s i) := by
  cases i with
  | start => exact h.start env
  | stop =>
    apply Fresh.halt
    exact h.sound.congr rfl
  | linkUp => exact h.linkUp env
  | linkDown => exact h.linkDown env
  | bluezOwnerChanged present => exact h.bluezOwnerChanged env present
  | added generation path interfaces =>
    unfold PhoneBattery.step
    dsimp only
    split
    · rename_i hon
      exact h.onAdded env path interfaces hon.1
    · exact h
  | removed generation path names =>
    unfold PhoneBattery.step
    dsimp only
    split
    · exact h.onRemoved env path names
    · exact h
  | battery1Changed generation interface changed =>
    unfold PhoneBattery.step
    dsimp only
    split
    · exact h.onBattery1Changed env interface changed
    · exact h
  | charChanged handler interface changed =>
    unfold PhoneBattery.step
    dsimp only
    split
    · rename_i hon
      obtain ⟨hmem, hrunning, heq⟩ := hon
      refine h.onCharChanged interface changed hrunning ?_
      exact (h.sound.handlers handler hmem).2 (by rw [heq])
    · exact h
  | answers id answer =>
    cases hget : s.calls.get id with
    | none =>
      rw [step_answers_none hget]
      exact h
    | some call =>
      rw [step_answers hget]
      refine (h.take id).answered env ?_ answer
      exact h.sound.calls id call hget

end BlueFerry.PhoneBattery
