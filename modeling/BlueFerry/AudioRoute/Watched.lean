import BlueFerry.AudioRoute.Settled

/-! # The route is known, or it is asked for

While the controller is started, allowed and BlueZ is there, the state is known, or a probe is not
answered, or a timer is armed that asks again (`Watched`). `Armed` says that the two retry timers are
armed exactly when their numbers are kept, the probe's in the given generation, and that no other
number is theirs, so that cancelling another timer does not stop them.
-/

namespace BlueFerry.PhoneAudio

open BlueFerry.Text

/-! ## Timers and their numbers -/

/-- Which of the five a timer is. -/
inductive TimerKind where
  | debounce
  | watchRetry
  | probeRetry
  | resume
  | settle
  deriving DecidableEq

def Timer.kind : Timer → TimerKind
  | .debounce => .debounce
  | .watchRetry => .watchRetry
  | .probeRetry _ => .probeRetry
  | .resume _ _ => .resume
  | .settle _ => .settle

/-- A kept number is of a timer of its kind, as long as that is armed. -/
def Points (timers : Slots Timer) (id : Option Nat) (kind : TimerKind) : Prop :=
  ∀ i, id = some i → i < timers.next ∧ ∀ timer, timers.Holds i timer → timer.kind = kind

structure Armed (generation : Nat) (s : State) : Prop where
  probe : ∀ id, s.probeRetryId = some id → s.timers.Holds id (.probeRetry generation)
  probeOnly : ∀ id generation, s.timers.Holds id (.probeRetry generation) →
    s.probeRetryId = some id
  watch : ∀ id, s.watchRetryId = some id → s.timers.Holds id .watchRetry
  watchOnly : ∀ id, s.timers.Holds id .watchRetry → s.watchRetryId = some id
  debounce : Points s.timers s.debounceId .debounce
  resume : Points s.timers s.resumeId .resume
  settle : Points s.timers s.settleId .settle

/-- A probe of the present generation is not answered. -/
def Probing (s : State) : Prop := ∃ id, s.calls.Holds id (.probe s.generation)

/-- The state is known, or it is asked for, now or later. -/
def Asked (s : State) : Prop :=
  s.known = true ∨ Probing s ∨ s.probeRetryId.isSome = true ∨
    s.matched = false ∧ s.watchRetryId.isSome = true

/-- The claim of a started controller. -/
structure Watched (env : Env) (s : State) : Prop where
  armed : Armed s.generation s
  matched : s.matched = true → s.started = true ∧ s.stopped = false
  asked : s.started = true → s.stopped = false → env.allowed = true → s.ownerAvailable = true →
    Asked s

variable {env : Env} {s s' t : State} {generation : Nat}

variable {kind : TimerKind} {timers : Slots Timer} {id : Option Nat}

theorem Points.none : Points timers none kind := nofun

theorem Points.take (h : Points timers id kind) (i : Nat) : Points (timers.take i) id kind :=
  fun j hj => ⟨(h j hj).1, fun timer hholds => (h j hj).2 timer (Slots.holds_take.mp hholds).2⟩

theorem Points.put
    (h : Points timers id kind) (timer : Timer) : Points (timers.put timer) id kind := by
  intro j hj
  obtain ⟨hlt, hkind⟩ := h j hj
  refine ⟨Nat.lt_succ_of_lt hlt, fun timer' hholds => ?_⟩
  rcases Slots.holds_put.mp hholds with ⟨heq, -⟩ | hholds
  · omega
  · exact hkind timer' hholds

/-- The number of a timer that has just been scheduled. -/
theorem Points.fresh (timers : Slots Timer) (timer : Timer) :
    Points (timers.put timer) (some timers.next) timer.kind := by
  intro j hj
  cases hj
  refine ⟨Nat.lt_succ_self _, fun timer' hholds => ?_⟩
  rcases Slots.holds_put.mp hholds with ⟨-, rfl⟩ | hholds
  · rfl
  · exact absurd hholds.lt (lt_irrefl _)

/-! ## What the handlers are made of -/

/-- What both invariants read, but for the timers and their numbers. -/
structure Alike (s s' : State) : Prop where
  matched : s'.matched = s.matched
  started : s'.started = s.started
  stopped : s'.stopped = s.stopped
  owner : s'.ownerAvailable = s.ownerAvailable
  known : s'.known = s.known
  generation : s'.generation = s.generation
  probing : Probing s → Probing s'
  probeRetryId : s'.probeRetryId = s.probeRetryId
  watchRetryId : s'.watchRetryId = s.watchRetryId

theorem Alike.refl (s : State) : Alike s s := ⟨rfl, rfl, rfl, rfl, rfl, rfl, fun h => h, rfl, rfl⟩

theorem Alike.trans (h : Alike s s') (h' : Alike s' t) : Alike s t :=
  ⟨h'.matched.trans h.matched, h'.started.trans h.started, h'.stopped.trans h.stopped,
    h'.owner.trans h.owner, h'.known.trans h.known, h'.generation.trans h.generation,
    fun hprobing => h'.probing (h.probing hprobing),
    h'.probeRetryId.trans h.probeRetryId, h'.watchRetryId.trans h.watchRetryId⟩

theorem Asked.alike (h : Asked s) (halike : Alike s s') : Asked s' := by
  unfold Asked
  rw [halike.known, halike.probeRetryId, halike.watchRetryId, halike.matched]
  rcases h with hknown | hprobing | hretry
  · exact .inl hknown
  · exact .inr (.inl (halike.probing hprobing))
  · exact .inr (.inr hretry)

theorem Watched.alike (h : Watched env s) (halike : Alike s s')
    (harmed : Armed s.generation s') : Watched env s' := by
  refine ⟨halike.generation ▸ harmed, ?_, ?_⟩
  · rw [halike.matched, halike.started, halike.stopped]
    exact h.matched
  · rw [halike.started, halike.stopped, halike.owner]
    exact fun hstarted hstopped hallowed howner =>
      (h.asked hstarted hstopped hallowed howner).alike halike

/-- Cancelling a timer of another kind stops none of the retries. -/
theorem Armed.cancel (h : Armed generation s)
    (hpoints : Points s.timers id kind) (hprobe : kind ≠ .probeRetry)
    (hwatch : kind ≠ .watchRetry) : Armed generation (s.cancel id) := by
  cases id with
  | none => exact h
  | some i =>
    obtain ⟨-, hkind⟩ := hpoints i rfl
    refine ⟨fun j hj => ?_, fun j generation hholds => ?_, fun j hj => ?_, fun j hholds => ?_,
      h.debounce.take i, h.resume.take i, h.settle.take i⟩
    · have hholds := h.probe j hj
      refine Slots.holds_take.mpr ⟨?_, hholds⟩
      rintro rfl
      exact hprobe (hkind _ hholds).symm
    · exact h.probeOnly j generation (Slots.holds_take.mp hholds).2
    · have hholds := h.watch j hj
      refine Slots.holds_take.mpr ⟨?_, hholds⟩
      rintro rfl
      exact hwatch (hkind _ hholds).symm
    · exact h.watchOnly j (Slots.holds_take.mp hholds).2

/-- Another timer is scheduled. -/
theorem Armed.schedule (h : Armed generation s) (timer : Timer) (hprobe : timer.kind ≠ .probeRetry)
    (hwatch : timer.kind ≠ .watchRetry) : Armed generation (s.schedule timer) := by
  refine ⟨fun j hj => ?_, fun j generation hholds => ?_, fun j hj => ?_, fun j hholds => ?_,
    h.debounce.put timer, h.resume.put timer, h.settle.put timer⟩
  · exact Slots.holds_put.mpr (.inr (h.probe j hj))
  · rcases Slots.holds_put.mp hholds with ⟨-, heq⟩ | hholds
    · rw [← heq] at hprobe
      exact absurd rfl hprobe
    · exact h.probeOnly j generation hholds
  · exact Slots.holds_put.mpr (.inr (h.watch j hj))
  rcases Slots.holds_put.mp hholds with ⟨-, heq⟩ | hholds
  · rw [← heq] at hwatch
    exact absurd rfl hwatch
  · exact h.watchOnly j hholds

theorem Alike.of_eq (h : (s'.matched, s'.started, s'.stopped, s'.ownerAvailable, s'.known,
      s'.generation, s'.calls, s'.probeRetryId, s'.watchRetryId) =
    (s.matched, s.started, s.stopped, s.ownerAvailable, s.known, s.generation, s.calls,
      s.probeRetryId, s.watchRetryId)) : Alike s s' := by
  simp only [Prod.mk.injEq] at h
  obtain ⟨hmatched, hstarted, hstopped, howner, hknown, hgeneration, hcalls, hprobe, hwatch⟩ := h
  exact ⟨hmatched, hstarted, hstopped, howner, hknown, hgeneration,
    fun h => by unfold Probing; rw [hcalls, hgeneration]; exact h, hprobe, hwatch⟩

theorem alike_cancel (s : State) (id : Option Nat) : Alike s (s.cancel id) := by
  cases id with
  | none => exact .refl s
  | some id => exact .of_eq rfl

/-- Both at once, for what changes neither. -/
structure Still (s s' : State) : Prop where
  alike : Alike s s'
  armed : ∀ generation, Armed generation s → Armed generation s'

theorem Still.refl (s : State) : Still s s := ⟨.refl s, fun _ h => h⟩

theorem Still.trans (h : Still s s') (h' : Still s' t) : Still s t :=
  ⟨h.alike.trans h'.alike, fun generation hs => h'.armed generation (h.armed generation hs)⟩

theorem Watched.still (h : Watched env s) (hstill : Still s s') : Watched env s' :=
  h.alike hstill.alike (hstill.armed s.generation h.armed)

theorem Still.now (h : Still s s') (hs : Armed s.generation s) : Armed s'.generation s' := by
  rw [h.alike.generation]
  exact h.armed s.generation hs

theorem still_cancelDebounce (s : State) : Still s s.cancelDebounce := by
  refine ⟨(alike_cancel s s.debounceId).trans (.of_eq rfl), ?_⟩
  intro generation h
  have hcancel := h.cancel h.debounce nofun nofun
  exact { hcancel with debounce := .none }

theorem still_cancelResume (s : State) : Still s s.cancelResume := by
  refine ⟨(alike_cancel s s.resumeId).trans (.of_eq rfl), ?_⟩
  intro generation h
  have hcancel := h.cancel h.resume nofun nofun
  exact { hcancel with resume := .none }

theorem still_cancelSettle (s : State) : Still s s.cancelSettle := by
  refine ⟨(alike_cancel s s.settleId).trans (.of_eq rfl), ?_⟩
  intro generation h
  have hcancel := h.cancel h.settle nofun nofun
  exact { hcancel with settle := .none }

theorem still_changed (s : State) : Still s s.changed := by
  unfold State.changed
  have hcancel := still_cancelDebounce s
  split
  · exact hcancel
  split
  · refine ⟨hcancel.alike.trans (.of_eq rfl), fun generation h => ?_⟩
    exact { hcancel.armed generation h with }
  split
  · refine ⟨(.of_eq rfl), fun generation h => ?_⟩
    have hscheduled := h.schedule .debounce nofun nofun
    exact { hscheduled with debounce := Points.fresh s.timers .debounce }
  · exact .refl s

theorem still_settle (s : State) : Still s s.settle := by
  refine (still_cancelSettle s).trans ?_
  unfold State.settle
  generalize s.cancelSettle = t
  refine ⟨(.of_eq rfl), fun generation h => ?_⟩
  have hscheduled := h.schedule (.settle t.operationGeneration) nofun nofun
  exact { hscheduled with settle := Points.fresh t.timers (.settle t.operationGeneration) }

theorem still_scheduleResume (s : State) (n : Nat) : Still s (s.scheduleResume n) := by
  refine ⟨(.of_eq rfl), fun generation h => ?_⟩
  have hscheduled := h.schedule (.resume n s.resumeGeneration) nofun nofun
  exact { hscheduled with resume := Points.fresh s.timers (.resume n s.resumeGeneration) }

theorem still_note (s : State) (e : Event) : Still s (s.note e) :=
  ⟨(.of_eq rfl), fun _ h => { h with }⟩

/-! ### The two retries -/

/-- A retry of the probe is armed, whether it was before or not. -/
theorem Armed.retryProbeLater (h : Armed s.generation s) :
    Armed s.retryProbeLater.generation s.retryProbeLater ∧
      s.retryProbeLater.probeRetryId.isSome = true := by
  unfold State.retryProbeLater
  by_cases hsome : s.probeRetryId.isSome = true
  · rw [if_pos hsome]
    exact ⟨h, hsome⟩
  rw [if_neg hsome]
  have hnone : s.probeRetryId = none := Option.not_isSome_iff_eq_none.mp hsome
  refine ⟨⟨?_, ?_, fun j hj => ?_, fun j hholds => ?_, h.debounce.put _, h.resume.put _,
    h.settle.put _⟩, rfl⟩
  · intro j hj
    cases hj
    exact Slots.holds_put.mpr (.inl ⟨rfl, rfl⟩)
  · intro j generation hholds
    rcases Slots.holds_put.mp hholds with ⟨rfl, -⟩ | hholds
    · rfl
    have heq := h.probeOnly j generation hholds
    rw [hnone] at heq
    nomatch heq
  · exact Slots.holds_put.mpr (.inr (h.watch j hj))
  · rcases Slots.holds_put.mp hholds with ⟨-, heq⟩ | hholds
    · nomatch heq
    · exact h.watchOnly j hholds

/-- After it no retry of a probe is armed, so the generation may go on. -/
theorem Armed.cancelProbeRetry (h : Armed generation s) (next : Nat) :
    Armed next s.cancelProbeRetry := by
  unfold State.cancelProbeRetry State.cancel
  cases hid : s.probeRetryId with
  | none =>
    refine { h with probe := ?_, probeOnly := fun j g hholds => ?_ }
    · exact fun j hj => nomatch hj
    · have heq := h.probeOnly j g hholds
      rw [hid] at heq
      nomatch heq
  | some i =>
    have hi := h.probe i hid
    refine ⟨?_, fun j g hholds => ?_, fun j hj => ?_, fun j hholds => ?_, h.debounce.take i,
      h.resume.take i, h.settle.take i⟩
    · exact fun j hj => nomatch hj
    · obtain ⟨hne, hholds⟩ := Slots.holds_take.mp hholds
      have heq := h.probeOnly j g hholds
      rw [hid] at heq
      exact absurd (Option.some.inj heq).symm hne
    · have hholds := h.watch j hj
      refine Slots.holds_take.mpr ⟨?_, hholds⟩
      rintro rfl
      nomatch hi.unique hholds
    · exact h.watchOnly j (Slots.holds_take.mp hholds).2

theorem Armed.cancelWatchRetry (h : Armed generation s) : Armed generation s.cancelWatchRetry := by
  unfold State.cancelWatchRetry State.cancel
  cases hid : s.watchRetryId with
  | none =>
    refine { h with watch := ?_, watchOnly := fun j hholds => ?_ }
    · exact fun j hj => nomatch hj
    · have heq := h.watchOnly j hholds
      rw [hid] at heq
      nomatch heq
  | some i =>
    have hi := h.watch i hid
    refine ⟨fun j hj => ?_, fun j g hholds => ?_, ?_, fun j hholds => ?_, h.debounce.take i,
      h.resume.take i, h.settle.take i⟩
    · have hholds := h.probe j hj
      refine Slots.holds_take.mpr ⟨?_, hholds⟩
      rintro rfl
      nomatch hi.unique hholds
    · exact h.probeOnly j g (Slots.holds_take.mp hholds).2
    · exact fun j hj => nomatch hj
    obtain ⟨hne, hholds⟩ := Slots.holds_take.mp hholds
    have heq := h.watchOnly j hholds
    rw [hid] at heq
    exact absurd (Option.some.inj heq).symm hne

/-! ### Probes -/

/-- What a probe leaves as it is. -/
structure Modes (s s' : State) : Prop where
  matched : s'.matched = s.matched
  started : s'.started = s.started
  stopped : s'.stopped = s.stopped
  owner : s'.ownerAvailable = s.ownerAvailable

theorem Modes.refl (s : State) : Modes s s := ⟨rfl, rfl, rfl, rfl⟩

theorem Modes.trans (h : Modes s s') (h' : Modes s' t) : Modes s t :=
  ⟨h'.matched.trans h.matched, h'.started.trans h.started, h'.stopped.trans h.stopped,
    h'.owner.trans h.owner⟩

theorem Alike.modes (h : Alike s s') : Modes s s' := { h with }

theorem modes_retryProbeLater (s : State) : Modes s s.retryProbeLater := by
  unfold State.retryProbeLater
  split
  · exact .refl s
  · exact ⟨rfl, rfl, rfl, rfl⟩

theorem Armed.probeFailed (h : Armed s.generation s) :
    Armed s.probeFailed.generation s.probeFailed ∧ s.probeFailed.probeRetryId.isSome = true ∧
      Modes s s.probeFailed := by
  have hset : Armed s.generation { s with known := false } := { h with }
  have hstill := still_changed { s with known := false }
  obtain ⟨hretry, hsome⟩ := (hstill.now hset).retryProbeLater
  refine ⟨hretry, hsome, Modes.trans ?_ (modes_retryProbeLater _)⟩
  have hmodes : Modes s { s with known := false } := ⟨rfl, rfl, rfl, rfl⟩
  exact hmodes.trans hstill.alike.modes

/-- **A probe is on its way, or a retry is armed.** -/
theorem Armed.sendProbe (h : Armed s.generation s) (env : Env) :
    Armed (s.sendProbe env).generation (s.sendProbe env) ∧ Asked (s.sendProbe env) ∧
      Modes s (s.sendProbe env) := by
  unfold State.sendProbe
  split
  · refine ⟨{ h with }, .inr (.inl ⟨s.calls.next, ?_⟩), ⟨rfl, rfl, rfl, rfl⟩⟩
    exact Slots.holds_put.mpr (.inl ⟨rfl, rfl⟩)
  have hused : Armed s.generation s.used := { h with }
  obtain ⟨hfailed, hsome, hmodes⟩ := Armed.probeFailed (s := s.used) hused
  refine ⟨hfailed, .inr (.inr (.inl hsome)), Modes.trans ?_ hmodes⟩
  exact ⟨rfl, rfl, rfl, rfl⟩

/-- A probe may be asked for at any time. -/
theorem Armed.probeNow (h : Armed s.generation s) (env : Env) :
    Armed (s.probe env).generation (s.probe env) ∧ Modes s (s.probe env) ∧
      (s.stopped = false → env.allowed = true → s.ownerAvailable = true → Asked (s.probe env)) := by
  unfold State.probe
  by_cases hoff : s.stopped = true ∨ env.allowed = false ∨ s.ownerAvailable = false
  · rw [if_pos hoff]
    refine ⟨h, .refl s, fun hstopped hallowed howner => ?_⟩
    rcases hoff with heq | heq | heq
    · nomatch hstopped.symm.trans heq
    · nomatch hallowed.symm.trans heq
    · nomatch howner.symm.trans heq
  rw [if_neg hoff]
  by_cases hblocked : s.bluezBlocked = true
  · rw [if_pos hblocked]
    obtain ⟨hretry, hsome⟩ := h.retryProbeLater
    exact ⟨hretry, modes_retryProbeLater s, fun _ _ _ => .inr (.inr (.inl hsome))⟩
  rw [if_neg hblocked]
  have hcancelled := h.cancelProbeRetry (s.generation + 1)
  have hnext : Armed (s.generation + 1)
      { s.cancelProbeRetry with generation := s.generation + 1 } :=
    { hcancelled with }
  obtain ⟨hsent, hasked, hmodes⟩ := Armed.sendProbe
    (s := { s.cancelProbeRetry with generation := s.generation + 1 }) hnext env
  refine ⟨hsent, Modes.trans ?_ hmodes, fun _ _ _ => hasked⟩
  have hcancel := (alike_cancel s s.probeRetryId).modes
  exact { hcancel with }

/-- Whatever was asked for before. -/
theorem Armed.probe' (h : Armed s.generation s)
    (hmatched : s.matched = true → s.started = true ∧ s.stopped = false) :
    Watched env (s.probe env) := by
  obtain ⟨harmed, hmodes, hasked⟩ := h.probeNow env
  refine ⟨harmed, ?_, ?_⟩
  · rw [hmodes.matched, hmodes.started, hmodes.stopped]
    exact hmatched
  · rw [hmodes.started, hmodes.stopped, hmodes.owner]
    exact fun _ hstopped hallowed howner => hasked hstopped hallowed howner

theorem Watched.probe (h : Watched env s) : Watched env (s.probe env) := h.armed.probe' h.matched

/-! ### Watches -/

/-- The watches are tried again later. -/
theorem Armed.watchFailed (h : Armed s.generation s) :
    Armed s.watchFailed.generation s.watchFailed ∧ s.watchFailed.watchRetryId.isSome = true ∧
      s.watchFailed.matched = false := by
  unfold State.watchFailed
  have hset : Armed s.generation { s with matched := false, known := false } := { h with }
  have hstill := still_changed { s with matched := false, known := false }
  have hchanged := hstill.now hset
  have hmatched := hstill.alike.matched
  generalize ({ s with matched := false, known := false } : State).changed = t at hchanged hmatched
  by_cases hnone : t.watchRetryId = none
  · rw [if_pos hnone]
    refine ⟨⟨fun j hj => ?_, fun j g hholds => ?_, ?_, ?_, hchanged.debounce.put _,
      hchanged.resume.put _, hchanged.settle.put _⟩, rfl, hmatched⟩
    · exact Slots.holds_put.mpr (.inr (hchanged.probe j hj))
    · rcases Slots.holds_put.mp hholds with ⟨-, heq⟩ | hholds
      · nomatch heq
      · exact hchanged.probeOnly j g hholds
    · intro j hj
      cases hj
      exact Slots.holds_put.mpr (.inl ⟨rfl, rfl⟩)
    intro j hholds
    rcases Slots.holds_put.mp hholds with ⟨rfl, -⟩ | hholds
    · rfl
    have heq := hchanged.watchOnly j hholds
    rw [hnone] at heq
    nomatch heq
  · rw [if_neg hnone]
    exact ⟨hchanged, Option.isSome_iff_ne_none.mpr hnone, hmatched⟩

theorem still_mediaChanged (s : State) : Still s s.mediaChanged := by
  unfold State.mediaChanged
  split
  · exact .refl s
  · exact still_changed s

/-- **A started controller watches, or tries to again.** It need not have been watched before. -/
theorem Armed.start (h : Armed s.generation s) (hmatched : s.matched = true → s.stopped = false ∧
      (env.allowed = true → s.ownerAvailable = true → Asked s)) :
    Watched env (s.start env) := by
  unfold State.start
  by_cases hm : s.matched = true
  · rw [if_pos hm]
    obtain ⟨hstopped, hasked⟩ := hmatched hm
    exact ⟨{ h with }, fun _ => ⟨rfl, hstopped⟩, fun _ _ => hasked⟩
  rw [if_neg hm]
  by_cases hallowed : env.allowed = false
  · rw [if_pos hallowed]
    have hstill := still_mediaChanged { s with started := true, stopped := false }
    have hon : Armed s.generation { s with started := true, stopped := false } := { h with }
    refine ⟨?_, fun hm' => ?_, fun _ _ hallowed' => ?_⟩
    · exact hstill.now hon
    · exact absurd (hstill.alike.matched.symm.trans hm') hm
    · nomatch hallowed.symm.trans hallowed'
  rw [if_neg hallowed]
  split
  · have hon : Armed s.generation ({ s with started := true, stopped := false } : State).used :=
      { h with }
    obtain ⟨harmed, hsome, hoff⟩ :=
      Armed.watchFailed (s := ({ s with started := true, stopped := false } : State).used) hon
    refine ⟨harmed, fun hm' => ?_, fun _ _ _ _ => ?_⟩
    · nomatch hoff.symm.trans hm'
    · exact .inr (.inr (.inr ⟨hoff, hsome⟩))
  obtain ⟨harmed, hmodes, hasked⟩ := Armed.probeNow
    (s := { ({ s with started := true, stopped := false } : State).used with matched := true })
    ({ h with }) env
  refine ⟨harmed, fun _ => ⟨hmodes.started, hmodes.stopped⟩, ?_⟩
  intro _ _ hallowed' howner
  exact hasked rfl hallowed' (hmodes.owner.symm.trans howner)

theorem Watched.start (h : Watched env s) : Watched env (s.start env) :=
  h.armed.start (fun hm => ⟨(h.matched hm).2, h.asked (h.matched hm).1 (h.matched hm).2⟩)

/-! ### The end of everything that is under way -/

theorem still_failPending (s : State) : Still s s.failPending := by
  unfold State.failPending
  split
  all_goals
    refine ⟨(.of_eq rfl), fun _ h => ?_⟩
    exact { h with }

/-- The generation goes on before the retry of the old one is cancelled. -/
theorem Armed.cancelAll (h : Armed generation s) :
    Armed s.cancelAll.generation s.cancelAll ∧ Modes s s.cancelAll := by
  have hdebounce := still_cancelDebounce s
  have hresume := hdebounce.trans (still_cancelResume s.cancelDebounce)
  have hprobe := (hresume.armed generation h).cancelProbeRetry s.generation
  have hprobeAlike := alike_cancel s.cancelDebounce.cancelResume
    s.cancelDebounce.cancelResume.probeRetryId
  have hwatch := hprobe.cancelWatchRetry
  have hwatchAlike := alike_cancel s.cancelDebounce.cancelResume.cancelProbeRetry
    s.cancelDebounce.cancelResume.cancelProbeRetry.watchRetryId
  have hsettle := still_cancelSettle s.cancelDebounce.cancelResume.cancelProbeRetry.cancelWatchRetry
  have hmodes : Modes s s.cancelDebounce.cancelResume.cancelProbeRetry.cancelWatchRetry := by
    have hprobeModes : Modes s.cancelDebounce.cancelResume
        s.cancelDebounce.cancelResume.cancelProbeRetry :=
      { hprobeAlike with }
    refine hresume.alike.modes.trans (hprobeModes.trans ?_)
    exact { hwatchAlike with }
  refine ⟨?_, hmodes.trans hsettle.alike.modes⟩
  have hgeneration : s.cancelAll.generation = s.generation :=
    hsettle.alike.generation.trans
      (hwatchAlike.generation.trans (hprobeAlike.generation.trans hresume.alike.generation))
  rw [hgeneration]
  exact hsettle.armed s.generation hwatch

theorem Armed.invalidate (h : Armed generation s) (why : Event) :
    Armed (s.invalidate why).generation (s.invalidate why) ∧ Modes s (s.invalidate why) := by
  have hfail := still_failPending s
  have hforgot : Armed generation s.failPending.forget := { hfail.armed generation h with }
  obtain ⟨harmed, hmodes⟩ := hforgot.cancelAll
  have hforget : Modes s.failPending s.failPending.forget := ⟨rfl, rfl, rfl, rfl⟩
  have hnote := still_note s.failPending.forget.cancelAll why
  exact ⟨hnote.now harmed, hfail.alike.modes.trans (hforget.trans (hmodes.trans hnote.alike.modes))⟩

theorem Watched.bluezOwnerChanged (h : Watched env s) (available : Bool) :
    Watched env (s.bluezOwnerChanged env available) := by
  unfold State.bluezOwnerChanged
  have hset : Armed s.generation { s with ownerAvailable := available } := { h.armed with }
  obtain ⟨hinvalid, hmodes⟩ := hset.invalidate .ownerChanged
  have hstill := still_changed (({ s with ownerAvailable := available } : State).invalidate
    .ownerChanged)
  have harmed := hstill.now hinvalid
  have hall := hmodes.trans hstill.alike.modes
  generalize ({ s with ownerAvailable := available } : State).invalidate .ownerChanged = t
    at hstill harmed hall
  have hmatched : t.changed.matched = true → t.changed.started = true ∧ t.changed.stopped = false := by
    rw [hall.matched, hall.started, hall.stopped]
    exact h.matched
  by_cases hon : available = true ∧ t.changed.started = true ∧ t.changed.stopped = false
  · rw [if_pos hon]
    split
    · exact harmed.probe' hmatched
    rename_i hoff
    exact harmed.start (fun hm => absurd hm hoff)
  · rw [if_neg hon]
    refine ⟨harmed, hmatched, fun hstarted hstopped _ howner => ?_⟩
    exact absurd ⟨hall.owner.symm.trans howner, hstarted, hstopped⟩ hon

theorem Watched.stop (h : Watched env s) : Watched env s.stop := by
  have hset : Armed s.generation { s with stopped := true } := { h.armed with }
  obtain ⟨harmed, hmodes⟩ := hset.invalidate .stopped
  refine ⟨{ harmed with }, fun hm => ?_, fun _ hstopped => ?_⟩
  · nomatch hm
  · nomatch hstopped.symm.trans hmodes.stopped

/-! ### Observation -/

/-- The state becomes known. -/
theorem Watched.seen (h : Watched env s) (harmed : Armed t.generation t) (hmodes : Modes s t)
    (hknown : t.known = true) : Watched env t := by
  refine ⟨harmed, ?_, fun _ _ _ _ => .inl hknown⟩
  rw [hmodes.matched, hmodes.started, hmodes.stopped]
  exact h.matched

theorem still_dropConnection (s : State) : Still s s.dropConnection :=
  (still_cancelResume s).trans (still_note _ _)

theorem still_transports (s : State) (transports : Dict Str Str) :
    Still s { s with transports := transports } :=
  ⟨(.of_eq rfl), fun _ h => { h with }⟩

/-- A tree makes the state known, whatever was asked for before. -/
theorem Armed.applyTree (h : Armed s.generation s)
    (hmatched : s.matched = true → s.started = true ∧ s.stopped = false) (objects : Objects) :
    Watched env (s.applyTree env objects) := by
  unfold State.applyTree
  dsimp only
  split
  · exact ⟨{ h with }, hmatched, fun _ _ _ _ => .inl rfl⟩
  refine Watched.still ?_ (still_dropConnection _)
  exact ⟨{ h with }, hmatched, fun _ _ _ _ => .inl rfl⟩

theorem still_applyDevice (s : State) (device : Device) : Still s (s.applyDevice device) := by
  unfold State.applyDevice
  dsimp only
  split
  · exact ⟨(.of_eq rfl), fun _ h => { h with }⟩
  refine Still.trans ?_ (still_dropConnection _)
  exact ⟨(.of_eq rfl), fun _ h => { h with }⟩

theorem Watched.interfacesAdded (h : Watched env s) (path : Str) (interfaces : Interfaces) :
    Watched env (s.interfacesAdded env path interfaces) := by
  unfold State.interfacesAdded
  split
  · exact h
  split
  · have hseen : Watched env { s with known := true, connected := false, hasSource := false } :=
      h.seen ({ h.armed with }) ⟨rfl, rfl, rfl, rfl⟩ rfl
    exact (hseen.still (still_applyDevice _ _)).still (still_changed _)
  split
  · split
    · exact (h.still (still_transports s _)).still (still_changed _)
    · exact h
  · exact h

theorem Watched.interfacesRemoved (h : Watched env s) (path : Str) (names : List Str) :
    Watched env (s.interfacesRemoved env path names) := by
  unfold State.interfacesRemoved
  split
  · exact h
  split
  · obtain ⟨harmed, hmodes⟩ := h.armed.invalidate .deviceRemoved
    have hseen : Watched env { s.invalidate .deviceRemoved with known := true } :=
      h.seen ({ harmed with })
        { hmodes with } rfl
    exact hseen.still (still_changed _)
  · split
    · exact (h.still (still_transports s _)).still (still_changed _)
    · exact h

theorem Watched.transportChanged (h : Watched env s) (path interface : Str) (state : Option Str)
    (delay : Bool) : Watched env (s.transportChanged path interface state delay) := by
  unfold State.transportChanged
  split
  · exact h
  split
  · exact (h.still (still_transports s _)).still (still_changed _)
  · exact h.still (still_changed s)

theorem Watched.propertiesChanged (h : Watched env s) (interface : Str) (device : Device) :
    Watched env (s.propertiesChanged interface device) := by
  unfold State.propertiesChanged
  split
  · exact h
  have hseen : Watched env { s with known := true } :=
    h.seen ({ h.armed with }) ⟨rfl, rfl, rfl, rfl⟩ rfl
  exact (hseen.still (still_applyDevice _ _)).still (still_changed _)

/-! ### Control -/

theorem still_concluded (s : State) (result : Event) : Still s (s.concluded result) :=
  ⟨(.of_eq rfl), fun _ h => { h with }⟩

theorem still_done (s : State) (result : Event) : Still s (s.done result) :=
  ((still_concluded s result).trans (still_changed _)).trans (still_settle _)

theorem still_routeReplied (s : State) (n : Nat) (resume : Bool) (generation : Nat) :
    Still s (s.routeReplied n resume generation) := by
  unfold State.routeReplied State.resumeIfCurrent
  split
  · split
    · exact (still_done s _).trans (still_scheduleResume _ _)
    · exact still_done s _
  · exact .refl s

theorem still_routeFailed (s : State) (n : Nat) (resume : Bool) (generation : Nat) (name : Str) :
    Still s (s.routeFailed n resume generation name) := by
  unfold State.routeFailed
  split
  · exact still_routeReplied s n resume generation
  split
  · exact still_done s _
  · exact .refl s

/-- A call is sent; the probes that are out stay so. -/
theorem still_send (s : State) (call : Call) : Still s (s.used.send call) := by
  refine ⟨⟨rfl, rfl, rfl, rfl, rfl, rfl, ?_, rfl, rfl⟩, fun _ h => { h with }⟩
  rintro ⟨id, hholds⟩
  exact ⟨id, Slots.holds_put.mpr (.inr hholds)⟩

theorem still_sendRoute (env : Env) (s : State) (route : Route) (resume : Bool) :
    Still s (s.sendRoute env route resume) := by
  unfold State.sendRoute
  split
  · exact still_send s _
  refine Still.trans (Still.trans ?_ (still_routeFailed s.used _ _ _ _)) (still_note _ _)
  exact ⟨(.of_eq rfl), fun _ h => { h with }⟩

theorem still_accept (s : State) (route : Route) : Still s (s.accept route) := by
  refine Still.trans ?_ (still_changed _)
  exact ⟨(.of_eq rfl), fun _ h => { h with }⟩

theorem still_beginOperation (s : State) : Still s s.beginOperation := by
  refine ((still_cancelResume s).trans (still_cancelSettle _)).trans ?_
  exact ⟨(.of_eq rfl), fun _ h => { h with }⟩

theorem still_setRoute (env : Env) (s : State) (route : Str) : Still s (s.setRoute env route) := by
  unfold State.setRoute
  split
  · exact .refl s
  split
  · exact .refl s
  have hbegin := still_beginOperation s
  split
  · exact hbegin
  · exact (hbegin.trans (still_accept _ _)).trans (still_sendRoute env _ _ _)
  · exact (hbegin.trans (still_accept _ _)).trans (still_sendRoute env _ _ _)

/-! ### Answers and timers -/

/-- The answer to a call of an older generation, or of a route change, is awaited no more. -/
theorem still_taken {id : Nat} {call : Call} (hget : s.calls.get id = some call)
    (hcall : call ≠ .probe s.generation) : Still s { s with calls := s.calls.take id } := by
  refine ⟨⟨rfl, rfl, rfl, rfl, rfl, rfl, ?_, rfl, rfl⟩, fun _ h => { h with }⟩
  rintro ⟨j, hholds⟩
  refine ⟨j, Slots.holds_take.mpr ⟨?_, hholds⟩⟩
  rintro rfl
  exact hcall (Option.some.inj (hget.symm.trans hholds))

/-- The probe of the present generation is answered. -/
theorem Watched.probed (h : Watched env s) (id : Nat) (answer : Answer)
    (hfits : State.fits (.probe s.generation) answer = true) :
    Watched env ({ s with calls := s.calls.take id }.answered env (.probe s.generation) answer) := by
  have harmed : Armed s.generation { s with calls := s.calls.take id } := { h.armed with }
  unfold State.answered
  cases answer with
  | done => nomatch hfits
  | objects objects =>
    dsimp only
    rw [if_pos rfl]
    exact (Armed.applyTree (s := { s with calls := s.calls.take id }) harmed h.matched
      objects).still (still_changed _)
  | error name =>
    dsimp only
    rw [if_pos rfl]
    obtain ⟨hfailed, hsome, hmodes⟩ :=
      Armed.probeFailed (s := { s with calls := s.calls.take id }) harmed
    refine ⟨hfailed, ?_, fun _ _ _ _ => .inr (.inr (.inl hsome))⟩
    rw [hmodes.matched, hmodes.started, hmodes.stopped]
    exact h.matched

/-- The answer of another call changes neither. -/
theorem still_answered (s : State) {call : Call} (hcall : call ≠ .probe s.generation)
    (answer : Answer) : Still s (s.answered env call answer) := by
  unfold State.answered
  cases call with
  | probe generation =>
    have hne : generation ≠ s.generation := fun heq => hcall (by rw [heq])
    cases answer with
    | done => exact .refl s
    | objects objects | error name =>
      dsimp only
      rw [if_neg hne]
      exact .refl s
  | route n route resume generation =>
    cases answer with
    | done => exact (still_routeReplied s n resume generation).trans (still_note _ _)
    | objects objects => exact .refl s
    | error name => exact (still_routeFailed s n resume generation name).trans (still_note _ _)

theorem Watched.answers (h : Watched env s) (id : Nat) (answer : Answer) :
    Watched env (step env s (.answers id answer)) := by
  cases hget : s.calls.get id with
  | none =>
    rw [step_answers_none hget]
    exact h
  | some call =>
    rw [step_answers hget]
    split
    · rename_i hfits
      by_cases hcall : call = .probe s.generation
      · rw [hcall] at hfits ⊢
        exact h.probed id answer hfits
      have htaken := still_taken hget hcall
      exact (h.still htaken).still (still_answered { s with calls := s.calls.take id } hcall answer)
    · exact h

/-- A timer of another kind has fired. -/
theorem still_fired {id : Nat} {timer : Timer} (hget : s.timers.get id = some timer)
    (hprobe : timer.kind ≠ .probeRetry) (hwatch : timer.kind ≠ .watchRetry) :
    Still s { s with timers := s.timers.take id } := by
  refine ⟨(.of_eq rfl), fun generation h => ?_⟩
  have hholds : s.timers.Holds id timer := hget
  have hpoints : Points s.timers (some id) timer.kind := by
    intro i hi
    cases hi
    exact ⟨hholds.lt, fun other hother => by rw [hholds.unique hother]⟩
  exact h.cancel hpoints hprobe hwatch

/-- A number that points nowhere is forgotten. -/
theorem still_debounceId (s : State) : Still s { s with debounceId := none } := by
  refine ⟨(.of_eq rfl), fun _ h => ?_⟩
  exact { h with debounce := .none }

theorem still_resumeId (s : State) : Still s { s with resumeId := none } := by
  refine ⟨(.of_eq rfl), fun _ h => ?_⟩
  exact { h with resume := .none }

theorem still_settleId (s : State) : Still s { s with settleId := none } := by
  refine ⟨(.of_eq rfl), fun _ h => ?_⟩
  exact { h with settle := .none }

theorem still_debounced (s : State) : Still s s.debounced := by
  unfold State.debounced
  dsimp only
  split
  · exact still_debounceId s
  refine Still.trans ((still_debounceId s).trans ?_) (still_changed _)
  exact ⟨(.of_eq rfl), fun _ h => { h with }⟩

/-- **The retries' own timers.** The watches are made again, or the probe, so that something is
armed or on its way after the timer as well. -/
theorem Watched.fires (h : Watched env s) (id : Nat) : Watched env (step env s (.fires id)) := by
  cases hget : s.timers.get id with
  | none =>
    rw [step_fires_none hget]
    exact h
  | some timer =>
    rw [step_fires hget]
    have hholds : s.timers.Holds id timer := hget
    unfold State.fired
    cases timer with
    | debounce =>
      have hfired := still_fired hget nofun nofun
      exact (h.still hfired).still (still_debounced _)
    | watchRetry =>
      have hid := h.armed.watchOnly id hholds
      have hcancel := h.armed.cancelWatchRetry
      have hstate : s.cancelWatchRetry =
          { s with timers := s.timers.take id, watchRetryId := none } := by
        unfold State.cancelWatchRetry State.cancel
        rw [hid]
      rw [hstate] at hcancel
      dsimp only
      split
      · rename_i hstopped
        refine ⟨hcancel, h.matched, fun _ hrunning => ?_⟩
        nomatch hrunning.symm.trans hstopped
      refine Armed.start hcancel (fun hm => ⟨(h.matched hm).2, fun hallowed howner => ?_⟩)
      -- the watches are there, so they were not what the state was waiting for
      rcases h.asked (h.matched hm).1 (h.matched hm).2 hallowed howner with
        hknown | hprobing | hretry | ⟨hoff, -⟩
      · exact .inl hknown
      · exact .inr (.inl hprobing)
      · exact .inr (.inr (.inl hretry))
      · nomatch hoff.symm.trans hm
    | probeRetry generation =>
      have hid := h.armed.probeOnly id generation hholds
      have hlatest : generation = s.generation :=
        Timer.probeRetry.inj (hholds.unique (h.armed.probe id hid))
      have hcancel := h.armed.cancelProbeRetry s.generation
      have hstate : s.cancelProbeRetry =
          { s with timers := s.timers.take id, probeRetryId := none } := by
        unfold State.cancelProbeRetry State.cancel
        rw [hid]
      rw [hstate] at hcancel
      dsimp only
      rw [if_pos hlatest]
      exact Armed.probe' hcancel h.matched
    | resume n generation =>
      have hfired := still_fired hget nofun nofun
      dsimp only
      split
      · split
        · exact ((h.still hfired).still (still_resumeId _)).still (still_note _ _)
        · exact (h.still hfired).still (still_resumeId _)
      · exact h.still hfired
    | settle generation =>
      have hfired := still_fired hget nofun nofun
      dsimp only
      split
      · exact ((h.still hfired).still (still_settleId _)).probe
      · exact h.still hfired

/-! ## Runs -/

theorem Watched.step (h : Watched env s) (i : Input) : Watched env (step env s i) := by
  cases i with
  | start => exact h.start
  | stop => exact h.stop
  | probe => exact h.probe
  | setRoute route => exact h.still (still_setRoute env s route)
  | bluezOwnerChanged available => exact h.bluezOwnerChanged available
  | mediaChanged => exact h.still (still_mediaChanged s)
  | mediaUnavailable => exact h.still ((still_cancelResume s).trans (still_note _ _))
  | interfacesAdded path interfaces => exact h.interfacesAdded path interfaces
  | interfacesRemoved path names => exact h.interfacesRemoved path names
  | transportChanged path interface state delay => exact h.transportChanged path interface state delay
  | propertiesChanged interface device => exact h.propertiesChanged interface device
  | answers id answer => exact h.answers id answer
  | fires id => exact h.fires id
  | world bluezBlocked changeBlocked media prepare =>
    refine h.still ⟨(.of_eq rfl), fun _ h => ?_⟩
    exact { h with }

theorem watched_init (env : Env) : Watched env {} where
  armed := by
    refine ⟨?_, ?_, ?_, ?_, .none, .none, .none⟩
    · nofun
    · exact fun id generation hholds => absurd hholds (Slots.not_holds_empty id _)
    · nofun
    · exact fun id hholds => absurd hholds (Slots.not_holds_empty id _)
  matched := nofun
  asked := nofun

/-- The state after these inputs. -/
def reached (env : Env) (inputs : List Input) : State := Machine.run (step env) {} inputs

theorem settled_reached (env : Env) (inputs : List Input) : Settled (reached env inputs) :=
  Machine.always (step env) (fun _ i h => h.step env i) inputs settled_init

theorem watched_reached (env : Env) (inputs : List Input) : Watched env (reached env inputs) :=
  Machine.always (step env) (fun _ i h => h.step i) inputs (watched_init env)

/-- What is accepted and answered, or closed by something else, has its one result. -/
theorem Settled.result (h : Settled s) {n : Nat} {route : Route} (hmem : .accepted n route ∈ s.log) :
    results n s.log ≤ 1 ∧
      (.answered n ∈ s.log ∨ ¬ Unclosed s.log n → results n s.log = 1) := by
  by_cases hpending : s.pendingFailure = some n
  · obtain ⟨-, hnone, hanswered, hunclosed⟩ := h.opened n hpending
    refine ⟨by omega, ?_⟩
    rintro (hmem' | hclosed)
    · exact absurd hmem' hanswered
    · exact absurd hunclosed hclosed
  · obtain ⟨-, heq | hone⟩ := h.closed n route hmem
    · exact absurd heq hpending
    · exact ⟨by omega, fun _ => hone⟩

/-- **The audio route of the phone.** In every state that is reached, one accepted change at most has
no result; an accepted one has one at most, and exactly one once its call is answered, or BlueZ's
owner has changed, the device was removed or the controller was stopped since; no two have the same
number, and each playback was resumed with nothing between it and its hand-back that ends it; and a started controller that is
allowed, with BlueZ there, knows the state or is about to ask for it. -/
theorem route_changes_are_settled (env : Env) (inputs : List Input) :
    (∀ n m route route', .accepted n route ∈ (reached env inputs).log →
      .accepted m route' ∈ (reached env inputs).log → results n (reached env inputs).log = 0 →
        results m (reached env inputs).log = 0 → n = m) ∧
      (∀ n route, .accepted n route ∈ (reached env inputs).log →
        results n (reached env inputs).log ≤ 1 ∧
          (.answered n ∈ (reached env inputs).log ∨ ¬ Unclosed (reached env inputs).log n →
            results n (reached env inputs).log = 1)) ∧
      Trace.Each Valid (reached env inputs).log ∧
      ((reached env inputs).started = true → (reached env inputs).stopped = false →
        env.allowed = true → (reached env inputs).ownerAvailable = true →
          (reached env inputs).known = true ∨
          (∃ id, (reached env inputs).calls.Holds id (.probe (reached env inputs).generation)) ∨
          (∃ id generation, (reached env inputs).timers.Holds id (.probeRetry generation)) ∨
          ∃ id, (reached env inputs).timers.Holds id .watchRetry) := by
  have hsettled := settled_reached env inputs
  have hwatched := watched_reached env inputs
  generalize reached env inputs = s at hsettled hwatched
  refine ⟨?_, fun n route hmem => hsettled.result hmem, hsettled.valid, ?_⟩
  · intro n m route route' hn hm hn0 hm0
    obtain ⟨-, hpending | hone⟩ := hsettled.closed n route hn
    · obtain ⟨-, hpending' | hone⟩ := hsettled.closed m route' hm
      · exact Option.some.inj (hpending.symm.trans hpending')
      · omega
    · omega
  intro hstarted hstopped hallowed howner
  rcases hwatched.asked hstarted hstopped hallowed howner with
    hknown | hprobing | hretry | ⟨-, hretry⟩
  · exact .inl hknown
  · exact .inr (.inl hprobing)
  · obtain ⟨id, hid⟩ := Option.isSome_iff_exists.mp hretry
    exact .inr (.inr (.inl ⟨id, _, hwatched.armed.probe id hid⟩))
  obtain ⟨id, hid⟩ := Option.isSome_iff_exists.mp hretry
  exact .inr (.inr (.inr ⟨id, hwatched.armed.watch id hid⟩))

end BlueFerry.PhoneAudio
