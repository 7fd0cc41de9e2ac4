import BlueFerry.AudioRoute.Route

/-! # Every route change is answered once

An accepted route change has one result, or it is the pending one and nothing has ended it
(`Settled`). A playback is resumed in the resume generation of its hand-back, and everything that
must keep it from being resumed begins a new one (`Resumable`).

Most of what the handlers are made of touches neither (`Aside`).
-/

namespace BlueFerry.PhoneAudio

open BlueFerry.Text

/-! ## What the log says -/

def isResult (n : Nat) (e : Event) : Prop := e = .succeeded n ∨ e = .failed n

instance (n : Nat) : DecidablePred (isResult n) := fun e =>
  inferInstanceAs (Decidable (e = .succeeded n ∨ e = .failed n))

/-- How often the caller of this operation was answered. -/
def results (n : Nat) (log : List Event) : Nat := log.countP (fun e => decide (isResult n e))

def isAccept (n : Nat) (e : Event) : Prop := ∃ route, e = .accepted n route

/-- BlueZ's owner has changed, the device is removed, or the controller stops. -/
def isClose (e : Event) : Prop := e = .ownerChanged ∨ e = .deviceRemoved ∨ e = .stopped

/-- What keeps a playback from being resumed. -/
def isEnd (e : Event) : Prop :=
  isClose e ∨ e = .disconnected ∨ e = .mediaEnded ∨ ∃ n, isAccept n e

/-- The hand-back was asked for, and nothing has ended it since. -/
def HandedBack (log : List Event) (n : Nat) : Prop :=
  Trace.Since isEnd (fun e _ => e = .accepted n .phone) log

/-- Nothing has closed the operation since it was accepted. -/
def Unclosed (log : List Event) (n : Nat) : Prop :=
  Trace.Since isClose (fun e _ => isAccept n e) log

/-- Each operation is accepted once, and a playback is resumed only if nothing has ended its
hand-back. -/
def Valid (e : Event) (earlier : List Event) : Prop :=
  match e with
  | .accepted n _ => ∀ route, .accepted n route ∉ earlier
  | .resumed n => HandedBack earlier n
  | _ => True

variable {env : Env} {s s' t : State}

variable {e : Event} {log : List Event} {n generation id : Nat} {resume : Bool}

theorem results_cons_of_not (h : ¬ isResult n e) : results n (e :: log) = results n log := by
  unfold results
  rw [List.countP_cons_of_neg (by simpa using h)]

theorem results_cons_self (h : isResult n e) : results n (e :: log) = results n log + 1 := by
  unfold results
  rw [List.countP_cons_of_pos (by simpa using h)]

/-! ## The invariant -/

/-- It is of the present resume generation only while nothing has ended the hand-back. -/
def Resumable (s : State) (n generation : Nat) : Prop :=
  generation ≤ s.resumeGeneration ∧ (generation = s.resumeGeneration → HandedBack s.log n)

structure Settled (s : State) : Prop where
  valid : Trace.Each Valid s.log
  pending : s.pending.isSome = s.pendingFailure.isSome
  /-- the pending operation has no result, and nothing has ended it -/
  opened : ∀ n, s.pendingFailure = some n →
    n = s.operationGeneration ∧ results n s.log = 0 ∧ .answered n ∉ s.log ∧ Unclosed s.log n
  /-- every other accepted operation has one -/
  closed : ∀ n route, .accepted n route ∈ s.log →
    n ≤ s.operationGeneration ∧ (s.pendingFailure = some n ∨ results n s.log = 1)
  fresh : ∀ n, (∀ route, .accepted n route ∉ s.log) → results n s.log = 0 ∧ .answered n ∉ s.log
  calls : ∀ id n route resume generation,
    s.calls.Holds id (.route n route resume generation) →
      (∃ route, .accepted n route ∈ s.log) ∧ (resume = true → Resumable s n generation)
  timers : ∀ id n generation, s.timers.Holds id (.resume n generation) → Resumable s n generation

/-! ## Calls and timers that go -/

/-- No call of a route change and no timer of a resume is new. -/
structure Fewer (s s' : State) : Prop where
  calls : ∀ id n route resume generation, s'.calls.Holds id (.route n route resume generation) →
    s.calls.Holds id (.route n route resume generation)
  timers : ∀ id n generation, s'.timers.Holds id (.resume n generation) →
    s.timers.Holds id (.resume n generation)

theorem Fewer.refl (s : State) : Fewer s s := ⟨fun _ _ _ _ _ h => h, fun _ _ _ h => h⟩

theorem Fewer.trans (h : Fewer s s') (h' : Fewer s' t) : Fewer s t :=
  ⟨fun id n route resume generation hholds =>
      h.calls id n route resume generation (h'.calls id n route resume generation hholds),
    fun id n generation hholds => h.timers id n generation (h'.timers id n generation hholds)⟩

theorem Fewer.of_eq (hcalls : s'.calls = s.calls) (htimers : s'.timers = s.timers) : Fewer s s' := by
  refine ⟨fun id n route resume generation hholds => ?_, fun id n generation hholds => ?_⟩
  · rw [← hcalls]
    exact hholds
  · rw [← htimers]
    exact hholds

theorem fewer_cancel (s : State) (id : Option Nat) : Fewer s (s.cancel id) := by
  unfold State.cancel
  cases id with
  | none => exact .refl s
  | some id =>
    exact ⟨fun _ _ _ _ _ h => h, fun _ _ _ hholds => (Slots.holds_take.mp hholds).2⟩

theorem fewer_schedule (s : State) (timer : Timer)
    (h : ∀ n generation, timer ≠ .resume n generation) : Fewer s (s.schedule timer) := by
  refine ⟨fun _ _ _ _ _ h => h, fun id n generation hholds => ?_⟩
  rcases Slots.holds_put.mp hholds with ⟨-, heq⟩ | hholds
  · exact absurd heq.symm (h n generation)
  · exact hholds

/-! ## Steps beside the operations -/

/-- Nothing about the operations and the hand-backs changes. -/
structure Aside (s s' : State) : Prop where
  log : s'.log = s.log
  pending : s'.pending = s.pending
  pendingFailure : s'.pendingFailure = s.pendingFailure
  operationGeneration : s'.operationGeneration = s.operationGeneration
  resumeGeneration : s'.resumeGeneration = s.resumeGeneration
  fewer : Fewer s s'

theorem Aside.refl (s : State) : Aside s s := ⟨rfl, rfl, rfl, rfl, rfl, .refl s⟩

theorem Aside.trans (h : Aside s s') (h' : Aside s' t) : Aside s t :=
  ⟨h'.log.trans h.log, h'.pending.trans h.pending, h'.pendingFailure.trans h.pendingFailure,
    h'.operationGeneration.trans h.operationGeneration,
    h'.resumeGeneration.trans h.resumeGeneration, h.fewer.trans h'.fewer⟩

theorem Resumable.congr (h : Resumable s n generation)
    (hresume : s'.resumeGeneration = s.resumeGeneration) (hlog : s'.log = s.log) :
    Resumable s' n generation := by
  unfold Resumable
  rw [hresume, hlog]
  exact h

theorem Settled.aside (h : Settled s) (haside : Aside s s') : Settled s' := by
  obtain ⟨hlog, hpending, hfailure, hoperation, hresume, hfewer⟩ := haside
  constructor
  · rw [hlog]
    exact h.valid
  · rw [hpending, hfailure]
    exact h.pending
  · rw [hfailure, hoperation, hlog]
    exact h.opened
  · rw [hfailure, hoperation, hlog]
    exact h.closed
  · rw [hlog]
    exact h.fresh
  · intro id n route resume generation hholds
    rw [hlog]
    obtain ⟨haccepted, hresumable⟩ := h.calls id n route resume generation
      (hfewer.calls id n route resume generation hholds)
    exact ⟨haccepted, fun heq => (hresumable heq).congr hresume hlog⟩
  · intro id n generation hholds
    exact (h.timers id n generation (hfewer.timers id n generation hholds)).congr hresume hlog

theorem aside_cancel (s : State) (id : Option Nat) : Aside s (s.cancel id) := by
  have hfewer := fewer_cancel s id
  cases id with
  | none => exact .refl s
  | some id => exact ⟨rfl, rfl, rfl, rfl, rfl, hfewer⟩

theorem Aside.of_eq (h : (s'.log, s'.pending, s'.pendingFailure, s'.operationGeneration,
      s'.resumeGeneration, s'.calls, s'.timers) =
    (s.log, s.pending, s.pendingFailure, s.operationGeneration, s.resumeGeneration, s.calls,
      s.timers)) : Aside s s' := by
  simp only [Prod.mk.injEq] at h
  obtain ⟨hlog, hpending, hfailure, hoperation, hresume, hcalls, htimers⟩ := h
  exact ⟨hlog, hpending, hfailure, hoperation, hresume, .of_eq hcalls htimers⟩

section

variable (s : State)

theorem aside_schedule (timer : Timer)
    (h : ∀ n generation, timer ≠ .resume n generation) : Aside s (s.schedule timer) :=
  ⟨rfl, rfl, rfl, rfl, rfl, fewer_schedule s timer h⟩

theorem aside_cancelDebounce : Aside s s.cancelDebounce :=
  (aside_cancel s s.debounceId).trans (.of_eq rfl)

theorem aside_cancelSettle : Aside s s.cancelSettle :=
  (aside_cancel s s.settleId).trans (.of_eq rfl)

theorem aside_cancelProbeRetry : Aside s s.cancelProbeRetry :=
  (aside_cancel s s.probeRetryId).trans (.of_eq rfl)

theorem aside_cancelWatchRetry : Aside s s.cancelWatchRetry :=
  (aside_cancel s s.watchRetryId).trans (.of_eq rfl)

theorem aside_changed : Aside s s.changed := by
  unfold State.changed
  split
  · exact aside_cancelDebounce s
  split
  · exact (aside_cancelDebounce s).trans (.of_eq rfl)
  split
  · exact (aside_schedule s .debounce nofun).trans (.of_eq rfl)
  · exact .refl s

theorem aside_retryProbeLater : Aside s s.retryProbeLater := by
  unfold State.retryProbeLater
  split
  · exact .refl s
  · exact (aside_schedule s (.probeRetry s.generation) nofun).trans (.of_eq rfl)

theorem aside_probeFailed : Aside s s.probeFailed := by
  have hknown : Aside s { s with known := false } := .of_eq rfl
  exact (hknown.trans (aside_changed _)).trans (aside_retryProbeLater _)

theorem aside_sendProbe (env : Env) (s : State) : Aside s (s.sendProbe env) := by
  unfold State.sendProbe
  have hused : Aside s s.used := .of_eq rfl
  split
  · refine ⟨rfl, rfl, rfl, rfl, rfl, ?_, fun _ _ _ h => h⟩
    intro id n route resume generation hholds
    rcases Slots.holds_put.mp hholds with ⟨-, heq⟩ | hholds
    · nomatch heq
    · exact hholds
  · exact hused.trans (aside_probeFailed s.used)

theorem aside_probe (env : Env) (s : State) : Aside s (s.probe env) := by
  unfold State.probe
  split
  · exact .refl s
  split
  · exact aside_retryProbeLater s
  refine Aside.trans ?_ (aside_sendProbe env _)
  exact (aside_cancelProbeRetry s).trans (.of_eq rfl)

theorem aside_watchFailed : Aside s s.watchFailed := by
  unfold State.watchFailed
  have hset : Aside s { s with matched := false, known := false } := .of_eq rfl
  have hchanged := hset.trans (aside_changed _)
  dsimp only
  split
  · refine (hchanged.trans (aside_schedule _ _ ?_)).trans (.of_eq rfl)
    nofun
  · exact hchanged

theorem aside_mediaChanged : Aside s s.mediaChanged := by
  unfold State.mediaChanged
  split
  · exact .refl s
  · exact aside_changed s

theorem aside_start (env : Env) (s : State) : Aside s (s.start env) := by
  unfold State.start
  have hstarted : Aside s { s with started := true } := .of_eq rfl
  have hon : Aside s { s with started := true, stopped := false } := .of_eq rfl
  dsimp only
  split
  · exact hstarted
  split
  · exact hon.trans (aside_mediaChanged _)
  split
  · refine Aside.trans ?_ (aside_watchFailed _)
    exact hon.trans (.of_eq rfl)
  refine Aside.trans ?_ (aside_probe env _)
  exact hon.trans (.of_eq rfl)

theorem aside_settle : Aside s s.settle := by
  refine ((aside_cancelSettle s).trans (aside_schedule _ _ ?_)).trans (.of_eq rfl)
  nofun

theorem aside_debounced : Aside s s.debounced := by
  unfold State.debounced
  have hset : Aside s { s with debounceId := none } := .of_eq rfl
  dsimp only
  split
  · exact hset
  refine Aside.trans ?_ (aside_changed _)
  exact .of_eq rfl

end

/-! ## Hand-backs that end -/

/-- Nothing is to be resumed in the present resume generation. -/
structure Idle (s : State) : Prop where
  calls : ∀ id n route generation, s.calls.Holds id (.route n route true generation) →
    generation < s.resumeGeneration
  timers : ∀ id n generation, s.timers.Holds id (.resume n generation) →
    generation < s.resumeGeneration

theorem Idle.aside (h : Idle s) (haside : Aside s s') : Idle s' := by
  constructor
  · intro id n route generation hholds
    rw [haside.resumeGeneration]
    exact h.calls id n route generation (haside.fewer.calls id n route true generation hholds)
  · intro id n generation hholds
    rw [haside.resumeGeneration]
    exact h.timers id n generation (haside.fewer.timers id n generation hholds)

/-- **A new resume generation**: what was to be resumed is not resumed any more. -/
theorem Settled.cancelResume (h : Settled s) : Settled s.cancelResume ∧ Idle s.cancelResume := by
  have hcancel := h.aside (aside_cancel s s.resumeId)
  unfold State.cancelResume
  have hresume := (aside_cancel s s.resumeId).resumeGeneration
  generalize s.cancel s.resumeId = t at hcancel hresume
  constructor
  · refine { hcancel with calls := ?_, timers := ?_ }
    · intro id n route resume generation hholds
      obtain ⟨haccepted, hresumable⟩ := hcancel.calls id n route resume generation hholds
      refine ⟨haccepted, fun heq => ?_⟩
      have hle := (hresumable heq).1
      refine ⟨?_, fun heq' => ?_⟩
      · show generation ≤ s.resumeGeneration + 1
        omega
      · have hnew : generation = s.resumeGeneration + 1 := heq'
        omega
    intro id n generation hholds
    have hle := (hcancel.timers id n generation hholds).1
    refine ⟨?_, fun heq => ?_⟩
    · show generation ≤ s.resumeGeneration + 1
      omega
    · have hnew : generation = s.resumeGeneration + 1 := heq
      omega
  · constructor
    · intro id n route generation hholds
      have hle := ((hcancel.calls id n route true generation hholds).2 rfl).1
      show generation < s.resumeGeneration + 1
      omega
    intro id n generation hholds
    have hle := (hcancel.timers id n generation hholds).1
    show generation < s.resumeGeneration + 1
    omega

/-- What happens beside the operations: it ends hand-backs at most. -/
def isPassing (e : Event) : Prop :=
  e = .disconnected ∨ e = .mediaEnded ∨ e = .ownerChanged ∨ e = .deviceRemoved ∨ e = .stopped

theorem isPassing.spec (h : isPassing e) :
    (∀ n, ¬ isResult n e) ∧ (∀ n route, e ≠ .accepted n route) ∧ (∀ n, e ≠ .answered n) ∧
      ∀ earlier, Valid e earlier := by
  rcases h with rfl | rfl | rfl | rfl | rfl
  all_goals
    refine ⟨?_, ?_, ?_, fun _ => trivial⟩
    · rintro n (heq | heq) <;> nomatch heq
    · nofun
    · nofun

theorem Resumable.noted (h : Resumable s n generation)
    (hend : isEnd e → generation < s.resumeGeneration) : Resumable (s.note e) n generation := by
  refine ⟨h.1, fun hg => (h.2 hg).later (fun he => ?_)⟩
  exact absurd hg (ne_of_lt (hend he))

/-- **An entry that neither accepts an operation nor is its result**: an answer is not to the pending
operation, what closes finds none, and what ends a hand-back finds nothing to resume. -/
theorem Settled.noted (h : Settled s) (hvalid : Valid e s.log)
    (hresult : ∀ n, ¬ isResult n e) (haccepted : ∀ n route, e ≠ .accepted n route)
    (hanswered : ∀ n, e = .answered n →
      s.pendingFailure ≠ some n ∧ ∃ route, .accepted n route ∈ s.log)
    (hclose : isClose e → s.pendingFailure = none) (hend : isEnd e → Idle s) :
    Settled (s.note e) := by
  constructor
  · exact ⟨hvalid, h.valid⟩
  · exact h.pending
  · intro n hn
    obtain ⟨hgeneration, hzero, hnot, hunclosed⟩ := h.opened n hn
    refine ⟨hgeneration, (results_cons_of_not (hresult n)).trans hzero,
      List.mem_cons.not.mpr (not_or.mpr ⟨fun heq => ?_, hnot⟩), hunclosed.later (fun hc => ?_)⟩
    · exact (hanswered n heq.symm).1 hn
    · nomatch (hclose hc).symm.trans hn
  · intro n route hmem
    rcases List.mem_cons.mp hmem with heq | hmem
    · exact absurd heq.symm (haccepted n route)
    obtain ⟨hle, hor⟩ := h.closed n route hmem
    exact ⟨hle, hor.imp_right (fun hone => (results_cons_of_not (hresult n)).trans hone)⟩
  · intro n hnone
    have hnone' : ∀ route, .accepted n route ∉ s.log := fun route hmem => hnone route (.tail _ hmem)
    obtain ⟨hzero, hnot⟩ := h.fresh n hnone'
    refine ⟨(results_cons_of_not (hresult n)).trans hzero,
      List.mem_cons.not.mpr (not_or.mpr ⟨fun heq => ?_, hnot⟩)⟩
    obtain ⟨route, hmem⟩ := (hanswered n heq.symm).2
    exact hnone' route hmem
  · intro id n route resume generation hholds
    obtain ⟨⟨route', hmem⟩, hresumable⟩ := h.calls id n route resume generation hholds
    refine ⟨⟨route', .tail _ hmem⟩, ?_⟩
    rintro rfl
    exact (hresumable rfl).noted (fun he => (hend he).calls id n route generation hholds)
  · intro id n generation hholds
    exact (h.timers id n generation hholds).noted
      (fun he => (hend he).timers id n generation hholds)

/-- What passes while nothing is to be resumed, and closes no pending operation. -/
theorem Settled.pass (h : Settled s) (hidle : Idle s) (he : isPassing e)
    (hclose : isClose e → s.pendingFailure = none) : Settled (s.note e) := by
  obtain ⟨hresult, haccepted, hanswered, hvalid⟩ := he.spec
  exact h.noted (hvalid s.log) hresult haccepted (fun n heq => absurd heq (hanswered n)) hclose
    (fun _ => hidle)

/-! ## Operations that are over -/

theorem Unclosed.accepted (h : Unclosed log n) : ∃ route, .accepted n route ∈ log := by
  obtain ⟨e, he, -, route, rfl⟩ := Trace.Since.exists_mem h
  exact ⟨route, he⟩

/-- **The pending operation gets its result.** -/
theorem Settled.concluded (h : Settled s) {result : Event} (hn : s.pendingFailure = some n)
    (hresult : result = .succeeded n ∨ result = .failed n) : Settled (s.concluded result) := by
  have hquiet : ¬ isEnd result ∧ (∀ m route, result ≠ .accepted m route) ∧
      (∀ m, result ≠ .answered m) ∧ (∀ m, isResult m result → m = n) := by
    rcases hresult with rfl | rfl
    all_goals
      refine ⟨?_, ?_, ?_, ?_⟩
      · rintro ((heq | heq | heq) | heq | heq | ⟨m, route, heq⟩) <;> nomatch heq
      · nofun
      · nofun
      rintro m (heq | heq)
      all_goals
        cases heq
        try rfl
  obtain ⟨hend, haccepted, hanswered, hown⟩ := hquiet
  obtain ⟨-, hzero, -, hunclosed⟩ := h.opened n hn
  constructor
  · refine ⟨?_, h.valid⟩
    rcases hresult with rfl | rfl <;> trivial
  · rfl
  · exact fun m hm => nomatch hm
  · intro m route hmem
    rcases List.mem_cons.mp hmem with heq | hmem
    · exact absurd heq.symm (haccepted m route)
    obtain ⟨hle, hor⟩ := h.closed m route hmem
    refine ⟨hle, .inr ?_⟩
    show results m (result :: s.log) = 1
    by_cases hm : m = n
    · rw [hm, results_cons_self hresult, hzero]
    rw [results_cons_of_not (fun hr => hm (hown m hr))]
    rcases hor with heq | hone
    · exact absurd (Option.some.inj (heq.symm.trans hn)) hm
    · exact hone
  · intro m hnone
    have hnone' := h.fresh m (fun route hmem => hnone route (.tail _ hmem))
    have hm : m ≠ n := by
      rintro rfl
      obtain ⟨route, hmem⟩ := hunclosed.accepted
      exact hnone route (.tail _ hmem)
    exact ⟨(results_cons_of_not (fun hr => hm (hown m hr))).trans hnone'.1,
      List.mem_cons.not.mpr (not_or.mpr ⟨Ne.symm (hanswered m), hnone'.2⟩)⟩
  · intro id m route resume generation hholds
    obtain ⟨⟨route', hmem⟩, hresumable⟩ := h.calls id m route resume generation hholds
    exact ⟨⟨route', .tail _ hmem⟩, fun heq => (hresumable heq).noted (fun he => absurd he hend)⟩
  · exact fun id m generation hholds =>
      (h.timers id m generation hholds).noted (fun he => absurd he hend)

theorem Settled.failPending (h : Settled s) :
    Settled s.failPending ∧ s.failPending.pendingFailure = none := by
  unfold State.failPending
  split
  · rename_i n hn
    exact ⟨h.concluded hn (.inr rfl), rfl⟩
  rename_i hn
  have hpending : s.pending = none := by
    have hsome := h.pending
    rw [hn] at hsome
    exact Option.not_isSome_iff_eq_none.mp (by rw [hsome]; exact Bool.false_ne_true)
  exact ⟨h.aside ⟨rfl, hpending.symm, rfl, rfl, rfl, .of_eq rfl rfl⟩, hn⟩

/-- No operation is pending: its generation may go on. -/
theorem Settled.nextOperation (h : Settled s) (hnone : s.pendingFailure = none) :
    Settled { s with operationGeneration := s.operationGeneration + 1 } where
  valid := h.valid
  pending := h.pending
  opened n hn := by
    rw [show s.pendingFailure = some n from hn] at hnone
    nomatch hnone
  closed n route hmem := by
    obtain ⟨hle, hor⟩ := h.closed n route hmem
    refine ⟨?_, hor⟩
    show n ≤ s.operationGeneration + 1
    omega
  fresh := h.fresh
  calls := h.calls
  timers := h.timers

/-- **Everything that is under way ends.** -/
theorem Settled.invalidate (h : Settled s) {why : Event} (hwhy : isPassing why) :
    Settled (s.invalidate why) := by
  unfold State.invalidate
  obtain ⟨hfailed, hnone⟩ := h.failPending
  have hnext := hfailed.nextOperation hnone
  generalize s.failPending = t at hfailed hnone hnext
  have hforget : Settled t.forget := hnext.aside (.of_eq rfl)
  obtain ⟨hcancelled, hidle⟩ := (hforget.aside (aside_cancelDebounce _)).cancelResume
  have hrest := ((aside_cancelProbeRetry t.forget.cancelDebounce.cancelResume).trans
    (aside_cancelWatchRetry _)).trans (aside_cancelSettle _)
  refine (hcancelled.aside hrest).pass (hidle.aside hrest) hwhy (fun _ => ?_)
  refine hrest.pendingFailure.trans ?_
  have hdebounce : t.forget.cancelDebounce.pendingFailure = none :=
    (aside_cancelDebounce t.forget).pendingFailure.trans hnone
  exact (aside_cancel t.forget.cancelDebounce _).pendingFailure.trans hdebounce

/-! ## Operations that are accepted -/

theorem Settled.beginOperation (h : Settled s) (hnone : s.pendingFailure = none) :
    Settled s.beginOperation ∧ Idle s.beginOperation ∧ s.beginOperation.pendingFailure = none ∧
      ∀ n route, .accepted n route ∈ s.beginOperation.log →
        n < s.beginOperation.operationGeneration := by
  unfold State.beginOperation
  obtain ⟨hcancelled, hidle⟩ := h.cancelResume
  have hresume := aside_cancel s s.resumeId
  have hsettle := aside_cancelSettle s.cancelResume
  have hnone' : s.cancelResume.cancelSettle.pendingFailure = none :=
    (hsettle.pendingFailure.trans hresume.pendingFailure).trans hnone
  have hgeneration : s.cancelResume.cancelSettle.operationGeneration = s.operationGeneration :=
    hsettle.operationGeneration.trans hresume.operationGeneration
  have hsettled := hcancelled.aside hsettle
  have hidle' := hidle.aside hsettle
  generalize s.cancelResume.cancelSettle = t at hnone' hgeneration hsettled hidle'
  rw [← hgeneration]
  refine ⟨hsettled.nextOperation hnone', ⟨hidle'.calls, hidle'.timers⟩, hnone', ?_⟩
  intro n route hmem
  have hle := (hsettled.closed n route hmem).1
  show n < t.operationGeneration + 1
  omega

/-- **An operation is accepted.** It is the pending one, and what was to be resumed is not. -/
theorem Settled.accept (h : Settled s) (hidle : Idle s) (hnone : s.pendingFailure = none)
    (hnew : ∀ n route, .accepted n route ∈ s.log → n < s.operationGeneration) (route : Route) :
    Settled (s.accept route) := by
  have hfresh := h.fresh s.operationGeneration (fun route hmem => lt_irrefl _ (hnew _ route hmem))
  have hresult : ∀ n, ¬ isResult n (.accepted s.operationGeneration route) := by
    rintro n (heq | heq) <;> nomatch heq
  have hset : Settled ({ s with
      pending := some route
      pendingFailure := some s.operationGeneration }.note
        (.accepted s.operationGeneration route)) := by
    constructor
    · exact ⟨fun route' hmem => lt_irrefl _ (hnew _ route' hmem), h.valid⟩
    · rfl
    · intro n hn
      cases hn
      refine ⟨rfl, ?_, ?_, Trace.Since.here ⟨route, rfl⟩⟩
      · exact (results_cons_of_not (hresult _)).trans hfresh.1
      · refine List.mem_cons.not.mpr (not_or.mpr ⟨?_, hfresh.2⟩)
        nofun
    · intro n route' hmem
      rcases List.mem_cons.mp hmem with heq | hmem
      · cases heq
        exact ⟨le_refl _, .inl rfl⟩
      refine ⟨(h.closed n route' hmem).1, .inr ?_⟩
      refine (results_cons_of_not (hresult n)).trans ?_
      rcases (h.closed n route' hmem).2 with heq | hone
      · rw [hnone] at heq
        nomatch heq
      · exact hone
    · intro n hnone'
      have hn := h.fresh n (fun route' hmem => hnone' route' (.tail _ hmem))
      refine ⟨(results_cons_of_not (hresult n)).trans hn.1, ?_⟩
      refine List.mem_cons.not.mpr (not_or.mpr ⟨?_, hn.2⟩)
      nofun
    · intro id n route' resume generation hholds
      obtain ⟨⟨route'', hmem⟩, hresumable⟩ := h.calls id n route' resume generation hholds
      refine ⟨⟨route'', .tail _ hmem⟩, ?_⟩
      rintro rfl
      exact (hresumable rfl).noted (fun _ => hidle.calls id n route' generation hholds)
    · exact fun id n generation hholds => (h.timers id n generation hholds).noted
        (fun _ => hidle.timers id n generation hholds)
  exact hset.aside (aside_changed _)

/-- The call of an accepted operation was answered, and the operation is not the pending one. -/
theorem Settled.answered (h : Settled s) (hn : s.pendingFailure ≠ some n)
    (haccepted : ∃ route, .accepted n route ∈ s.log) : Settled (s.note (.answered n)) := by
  have hend : ¬ isEnd (.answered n) := by
    rintro ((heq | heq | heq) | heq | heq | ⟨m, route, heq⟩) <;> nomatch heq
  refine h.noted trivial ?_ nofun ?_ (fun hc => absurd (.inl hc) hend) (fun he => absurd he hend)
  · rintro m (heq | heq) <;> nomatch heq
  · rintro m heq
    cases heq
    exact ⟨hn, haccepted⟩

/-! ## Results -/

/-- The pending operation is the one of the pending failure. -/
theorem Settled.isPending_iff (h : Settled s) (n : Nat) :
    s.isPending n = true ↔ s.pendingFailure = some n := by
  unfold State.isPending
  rw [Bool.and_eq_true, decide_eq_true_eq, h.pending]
  constructor
  · rintro ⟨rfl, hsome⟩
    obtain ⟨m, hm⟩ := Option.isSome_iff_exists.mp hsome
    rw [hm, (h.opened m hm).1]
  · intro hn
    exact ⟨(h.opened n hn).1, by rw [hn]; rfl⟩

/-- What is to be resumed is resumed in its own generation only. -/
theorem Settled.resumeIfCurrent (h : Settled s)
    (hresumable : resume = true → Resumable s n generation) :
    Settled (s.resumeIfCurrent n resume generation) := by
  unfold State.resumeIfCurrent
  split
  · rename_i hcurrent
    obtain ⟨hle, hback⟩ := hresumable hcurrent.1
    refine { h with timers := ?_ }
    intro id m g hholds
    rcases Slots.holds_put.mp hholds with ⟨-, heq⟩ | hholds
    · cases heq
      exact ⟨le_refl _, fun _ => hback hcurrent.2⟩
    · exact h.timers id m g hholds
  · exact h

theorem Settled.done (h : Settled s) {result : Event} (hn : s.pendingFailure = some n)
    (hresult : result = .succeeded n ∨ result = .failed n) :
    Settled (s.done result) ∧ (s.done result).pendingFailure = none := by
  have haside := (aside_changed (s.concluded result)).trans (aside_settle _)
  exact ⟨(h.concluded hn hresult).aside haside, haside.pendingFailure⟩

/-- What is to be resumed after a hand-back may be resumed after its result. -/
theorem Resumable.done {m : Nat} {result : Event} (h : Resumable s m generation)
    (hresult : result = .succeeded n ∨ result = .failed n) :
    Resumable (s.done result) m generation := by
  have hend : ¬ isEnd result := by
    rcases hresult with rfl | rfl
    all_goals
      rintro ((heq | heq | heq) | heq | heq | ⟨m, route, heq⟩) <;> nomatch heq
  have hover : Resumable (s.concluded result) m generation := h.noted (fun he => absurd he hend)
  have haside := (aside_changed (s.concluded result)).trans (aside_settle _)
  exact hover.congr haside.resumeGeneration haside.log

theorem resumeIfCurrent_pendingFailure (s : State) (n : Nat) (resume : Bool) (generation : Nat) :
    (s.resumeIfCurrent n resume generation).pendingFailure = s.pendingFailure := by
  unfold State.resumeIfCurrent
  split <;> rfl

/-- The reply ends the operation, if it is the pending one. -/
theorem Settled.routeReplied (h : Settled s)
    (hresumable : resume = true → Resumable s n generation) :
    Settled (s.routeReplied n resume generation) ∧
      (s.routeReplied n resume generation).pendingFailure ≠ some n := by
  unfold State.routeReplied
  by_cases hpending : s.isPending n = true
  · rw [if_pos hpending]
    have hn := (h.isPending_iff n).mp hpending
    obtain ⟨hdone, hnone⟩ := h.done hn (.inl rfl)
    refine ⟨hdone.resumeIfCurrent (fun heq => (hresumable heq).done (.inl rfl)), ?_⟩
    rw [resumeIfCurrent_pendingFailure, hnone]
    nofun
  · rw [if_neg hpending]
    exact ⟨h, fun hn => hpending ((h.isPending_iff n).mpr hn)⟩

theorem Settled.routeFailed (h : Settled s)
    (hresumable : resume = true → Resumable s n generation) (name : Str) :
    Settled (s.routeFailed n resume generation name) ∧
      (s.routeFailed n resume generation name).pendingFailure ≠ some n := by
  unfold State.routeFailed
  by_cases halready : name ∈ already
  · rw [if_pos halready]
    exact h.routeReplied hresumable
  rw [if_neg halready]
  by_cases hpending : s.isPending n = true
  · rw [if_pos hpending]
    obtain ⟨hdone, hnone⟩ := h.done ((h.isPending_iff n).mp hpending) (.inr rfl)
    refine ⟨hdone, ?_⟩
    rw [hnone]
    nofun
  · rw [if_neg hpending]
    exact ⟨h, fun hn => hpending ((h.isPending_iff n).mpr hn)⟩

/-- What is in the log stays in it. -/
theorem accepted_append {log' new : List Event} (hlog : log' = new ++ log)
    (h : ∃ route, .accepted n route ∈ log) : ∃ route, .accepted n route ∈ log' := by
  obtain ⟨route, hmem⟩ := h
  exact ⟨route, by rw [hlog]; exact List.mem_append_right _ hmem⟩

theorem routeReplied_log (s : State) (n : Nat) (resume : Bool) (generation : Nat) :
    ∃ new, (s.routeReplied n resume generation).log = new ++ s.log := by
  unfold State.routeReplied
  split
  · refine ⟨[.succeeded n], ?_⟩
    have haside := (aside_changed (s.concluded (.succeeded n))).trans (aside_settle _)
    have hresume : ((s.done (.succeeded n)).resumeIfCurrent n resume generation).log =
        (s.done (.succeeded n)).log := by
      unfold State.resumeIfCurrent
      split <;> rfl
    rw [hresume]
    exact haside.log
  · exact ⟨[], rfl⟩

theorem routeFailed_log (s : State) (n : Nat) (resume : Bool) (generation : Nat) (name : Str) :
    ∃ new, (s.routeFailed n resume generation name).log = new ++ s.log := by
  unfold State.routeFailed
  split
  · exact routeReplied_log s n resume generation
  split
  · have haside := (aside_changed (s.concluded (.failed n))).trans (aside_settle _)
    exact ⟨[.failed n], haside.log⟩
  · exact ⟨[], rfl⟩

/-- The pending operation's call is sent; one that raises ends it at once. -/
theorem Settled.sendRoute (h : Settled s) (env : Env) {route : Route}
    (haccepted : ∃ route, .accepted s.operationGeneration route ∈ s.log)
    (hback : resume = true → HandedBack s.log s.operationGeneration) :
    Settled (s.sendRoute env route resume) := by
  unfold State.sendRoute
  have hused : Settled s.used := h.aside (.of_eq rfl)
  have hresumable : resume = true → Resumable s.used s.operationGeneration s.resumeGeneration :=
    fun heq => ⟨le_refl _, fun _ => hback heq⟩
  dsimp only
  split
  · refine { hused with calls := ?_ }
    intro id n route' resume' generation hholds
    rcases Slots.holds_put.mp hholds with ⟨-, heq⟩ | hholds
    · cases heq
      exact ⟨haccepted, hresumable⟩
    · exact hused.calls id n route' resume' generation hholds
  rename_i name _
  obtain ⟨hfailed, hne⟩ := hused.routeFailed hresumable name
  obtain ⟨new, hlog⟩ := routeFailed_log s.used s.operationGeneration resume s.resumeGeneration name
  exact hfailed.answered hne (accepted_append hlog haccepted)

/-- **A route change that is accepted, refused or raises.** -/
theorem Settled.setRoute (h : Settled s) (env : Env) (route : Str) :
    Settled (s.setRoute env route) := by
  unfold State.setRoute
  split
  · exact h
  rename_i route' _
  by_cases hoff : s.stopped = true ∨ s.bluezBlocked = true ∨ s.changeBlocked = true ∨
      s.available env = false ∨ s.pending.isSome = true
  · rw [if_pos hoff]
    exact h
  rw [if_neg hoff]
  have hnone : s.pendingFailure = none := by
    have hpending : ¬ s.pending.isSome = true := fun hp => hoff (.inr (.inr (.inr (.inr hp))))
    rw [h.pending] at hpending
    exact Option.not_isSome_iff_eq_none.mp hpending
  obtain ⟨hbegun, hidle, hnone', hnew⟩ := h.beginOperation hnone
  have haccept : ∀ r, Settled (s.beginOperation.accept r) :=
    fun r => hbegun.accept hidle hnone' hnew r
  have hlog : ∀ r, (s.beginOperation.accept r).log =
      .accepted s.beginOperation.operationGeneration r :: s.beginOperation.log :=
    fun r => (aside_changed _).log
  have hgeneration : ∀ r, (s.beginOperation.accept r).operationGeneration =
      s.beginOperation.operationGeneration := fun r => (aside_changed _).operationGeneration
  have hmem : ∀ r, ∃ r', .accepted (s.beginOperation.accept r).operationGeneration r' ∈
      (s.beginOperation.accept r).log := by
    intro r
    rw [hlog, hgeneration]
    exact ⟨r, .head _⟩
  split
  · exact hbegun
  · refine (haccept .phone).sendRoute env (hmem .phone) (fun _ => ?_)
    rw [hlog, hgeneration]
    exact Trace.Since.here rfl
  · exact (haccept _).sendRoute env (hmem _) nofun

/-! ## Observation -/

section

variable (h : Settled s)
include h

theorem Settled.dropConnection : Settled s.dropConnection := by
  obtain ⟨hcancelled, hidle⟩ := h.cancelResume
  refine hcancelled.pass hidle (.inl rfl) ?_
  rintro (heq | heq | heq) <;> nomatch heq

theorem Settled.mediaUnavailable : Settled s.mediaUnavailable := by
  obtain ⟨hcancelled, hidle⟩ := h.cancelResume
  refine hcancelled.pass hidle (.inr (.inl rfl)) ?_
  rintro (heq | heq | heq) <;> nomatch heq

theorem Settled.applyTree (env : Env) (objects : Objects) : Settled (s.applyTree env objects) := by
  unfold State.applyTree
  dsimp only
  split
  · exact h.aside (.of_eq rfl)
  apply Settled.dropConnection
  exact h.aside (.of_eq rfl)

theorem Settled.applyDevice (device : Device) : Settled (s.applyDevice device) := by
  unfold State.applyDevice
  dsimp only
  split
  · exact h.aside (.of_eq rfl)
  apply Settled.dropConnection
  exact h.aside (.of_eq rfl)

theorem Settled.interfacesAdded (env : Env) (path : Str) (interfaces : Interfaces) :
    Settled (s.interfacesAdded env path interfaces) := by
  unfold State.interfacesAdded
  split
  · exact h
  split
  · refine Settled.aside ?_ (aside_changed _)
    apply Settled.applyDevice
    exact h.aside (.of_eq rfl)
  split
  · split
    · refine Settled.aside ?_ (aside_changed _)
      exact h.aside (.of_eq rfl)
    · exact h
  · exact h

theorem Settled.interfacesRemoved (env : Env) (path : Str) (names : List Str) :
    Settled (s.interfacesRemoved env path names) := by
  unfold State.interfacesRemoved
  split
  · exact h
  split
  · refine Settled.aside ?_ (aside_changed _)
    have hinvalid := h.invalidate (.inr (.inr (.inr (.inl rfl))) : isPassing .deviceRemoved)
    exact hinvalid.aside (.of_eq rfl)
  split
  · refine Settled.aside ?_ (aside_changed _)
    exact h.aside (.of_eq rfl)
  · exact h

theorem Settled.transportChanged (path interface : Str) (state : Option Str)
    (delay : Bool) : Settled (s.transportChanged path interface state delay) := by
  unfold State.transportChanged
  split
  · exact h
  split
  · refine Settled.aside ?_ (aside_changed _)
    exact h.aside (.of_eq rfl)
  · exact h.aside (aside_changed _)

theorem Settled.propertiesChanged (interface : Str) (device : Device) :
    Settled (s.propertiesChanged interface device) := by
  unfold State.propertiesChanged
  split
  · exact h
  refine Settled.aside ?_ (aside_changed _)
  apply Settled.applyDevice
  exact h.aside (.of_eq rfl)

theorem Settled.bluezOwnerChanged (env : Env) (available : Bool) :
    Settled (s.bluezOwnerChanged env available) := by
  unfold State.bluezOwnerChanged
  have hset : Settled { s with ownerAvailable := available } := h.aside (.of_eq rfl)
  have hinvalid := hset.invalidate (.inr (.inr (.inl rfl)) : isPassing .ownerChanged)
  have hchanged := hinvalid.aside (aside_changed _)
  dsimp only
  split
  · split
    · exact hchanged.aside (aside_probe env _)
    · exact hchanged.aside (aside_start env _)
  · exact hchanged

theorem Settled.stop : Settled s.stop := by
  unfold State.stop
  have hset : Settled { s with stopped := true } := h.aside (.of_eq rfl)
  have hinvalid := hset.invalidate (.inr (.inr (.inr (.inr rfl))) : isPassing .stopped)
  exact hinvalid.aside (.of_eq rfl)

end

/-! ## Every step -/

/-- **A playback is resumed only in the generation of its hand-back.** -/
theorem Settled.resumed (h : Settled s) (hback : HandedBack s.log n) :
    Settled (s.note (.resumed n)) := by
  have hend : ¬ isEnd (.resumed n) := by
    rintro ((heq | heq | heq) | heq | heq | ⟨m, route, heq⟩) <;> nomatch heq
  refine h.noted hback ?_ nofun nofun (fun hc => absurd (.inl hc) hend) (fun he => absurd he hend)
  rintro m (heq | heq) <;> nomatch heq

theorem Settled.fired (h : Settled s) (env : Env) {timer : Timer}
    (htimer : ∀ n generation, timer = .resume n generation → Resumable s n generation) :
    Settled (s.fired env timer) := by
  unfold State.fired
  cases timer with
  | debounce => exact h.aside (aside_debounced s)
  | watchRetry =>
    have hset : Settled { s with watchRetryId := none } := h.aside (.of_eq rfl)
    dsimp only
    split
    · exact hset
    · exact hset.aside (aside_start env _)
  | resume n generation =>
    have hset : Settled { s with resumeId := none } := h.aside (.of_eq rfl)
    dsimp only
    split
    · rename_i hgeneration
      split
      · exact hset.resumed ((htimer n generation rfl).2 hgeneration)
      · exact hset
    · exact h
  | probeRetry generation | settle generation =>
    dsimp only
    split
    · refine Settled.aside ?_ (aside_probe env _)
      exact h.aside (.of_eq rfl)
    · exact h

theorem Settled.replied (h : Settled s) (env : Env) {call : Call}
    (hcall : ∀ n route resume generation, call = .route n route resume generation →
      (∃ route, .accepted n route ∈ s.log) ∧ (resume = true → Resumable s n generation))
    (answer : Answer) : Settled (s.answered env call answer) := by
  unfold State.answered
  split
  · split
    · exact (h.applyTree env _).aside (aside_changed _)
    · exact h
  · split
    · exact h.aside (aside_probeFailed s)
    · exact h
  · rename_i n route resume generation
    obtain ⟨haccepted, hresumable⟩ := hcall n route resume generation rfl
    obtain ⟨hreplied, hne⟩ := h.routeReplied hresumable
    obtain ⟨new, hlog⟩ := routeReplied_log s n resume generation
    exact hreplied.answered hne (accepted_append hlog haccepted)
  · rename_i n route resume generation name
    obtain ⟨haccepted, hresumable⟩ := hcall n route resume generation rfl
    obtain ⟨hfailed, hne⟩ := h.routeFailed hresumable name
    obtain ⟨new, hlog⟩ := routeFailed_log s n resume generation name
    exact hfailed.answered hne (accepted_append hlog haccepted)
  · exact h

theorem step_answers {call : Call} {answer : Answer} (h : s.calls.get id = some call) :
    step env s (.answers id answer) =
      if State.fits call answer then
        { s with calls := s.calls.take id }.answered env call answer
      else s := by
  simp only [step, h]

theorem step_answers_none {answer : Answer} (h : s.calls.get id = none) :
    step env s (.answers id answer) = s := by
  simp only [step, h]

theorem step_fires {timer : Timer} (h : s.timers.get id = some timer) :
    step env s (.fires id) = { s with timers := s.timers.take id }.fired env timer := by
  simp only [step, h]

theorem step_fires_none (h : s.timers.get id = none) : step env s (.fires id) = s := by
  simp only [step, h]

/-- **Step lemma.** Every step settles the operations. -/
theorem Settled.step (h : Settled s) (env : Env) (i : Input) : Settled (step env s i) := by
  cases i with
  | start => exact h.aside (aside_start env s)
  | stop => exact h.stop
  | probe => exact h.aside (aside_probe env s)
  | setRoute route => exact h.setRoute env route
  | bluezOwnerChanged available => exact h.bluezOwnerChanged env available
  | mediaChanged => exact h.aside (aside_mediaChanged s)
  | mediaUnavailable => exact h.mediaUnavailable
  | interfacesAdded path interfaces => exact h.interfacesAdded env path interfaces
  | interfacesRemoved path names => exact h.interfacesRemoved env path names
  | transportChanged path interface state delay => exact h.transportChanged path interface state delay
  | propertiesChanged interface device => exact h.propertiesChanged interface device
  | answers id answer =>
    cases hget : s.calls.get id with
    | none =>
      rw [step_answers_none hget]
      exact h
    | some call =>
      rw [step_answers hget]
      split
      · have htake : Settled { s with calls := s.calls.take id } := by
          refine h.aside ⟨rfl, rfl, rfl, rfl, rfl, ?_, fun _ _ _ h => h⟩
          exact fun _ _ _ _ _ hholds => (Slots.holds_take.mp hholds).2
        refine htake.replied env ?_ answer
        rintro n route resume generation rfl
        exact h.calls id n route resume generation hget
      · exact h
  | fires id =>
    cases hget : s.timers.get id with
    | none =>
      rw [step_fires_none hget]
      exact h
    | some timer =>
      rw [step_fires hget]
      have htake : Settled { s with timers := s.timers.take id } := by
        refine h.aside ⟨rfl, rfl, rfl, rfl, rfl, fun _ _ _ _ _ h => h, ?_⟩
        exact fun _ _ _ hholds => (Slots.holds_take.mp hholds).2
      refine htake.fired env ?_
      rintro n generation rfl
      exact h.timers id n generation hget
  | world bluezBlocked changeBlocked media prepare =>
    exact h.aside (.of_eq rfl)

theorem settled_init : Settled {} where
  valid := trivial
  pending := rfl
  opened _ hn := nomatch hn
  closed _ _ hmem := nomatch hmem
  fresh _ _ := ⟨rfl, nofun⟩
  calls _ _ _ _ _ hholds := nomatch hholds
  timers _ _ _ hholds := nomatch hholds

end BlueFerry.PhoneAudio
