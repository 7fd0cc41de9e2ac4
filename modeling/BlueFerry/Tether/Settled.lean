import BlueFerry.Lib.Machine
import BlueFerry.Lib.Trace
import BlueFerry.Tether.Controller

/-! # The tether settles

What holds in every state of a run: an attempt has its deadline, a stop is waited for, nothing is
handed out or adopted while the feature is off, and stale callbacks change nothing.

`Base` is what the state does not matter for, `Sound` what each state says, and `Backed` that the
wait for the end of a link ends. A step leaves `Base` alone, and `Sound` and `Backed` are shown for
the state that it ends in: a state in which nothing is waited for (`Base.rest`), a new attempt, a new
stop, or the wait for the end of an adopted link.
-/

namespace BlueFerry.Tether

open BlueFerry.Text

/-! ## What the log says -/

/-- The user has ended the tether since a connection was last asked for. -/
def Suppressed (initially : Bool) : List Event → Bool
  | [] => initially
  | .connectRequested :: _ => false
  | .switchedOn :: _ => false
  | .stopRequested :: _ => true
  | .turnedOffOutside :: _ => true
  | .began _ _ _ :: earlier => Suppressed initially earlier
  | .handed _ :: earlier => Suppressed initially earlier
  | .adopted _ :: earlier => Suppressed initially earlier

/-- An automatic attempt begins while automatic tethering is on and the user has not ended the
tether; an attempt is handed to a backend, and a link adopted, while the feature is on. -/
def Due (initially : Bool) : Event → List Event → Prop
  | .began automatic enabled autoconnect, earlier =>
    automatic = true → enabled = true ∧ autoconnect = true ∧ Suppressed initially earlier = false
  | .handed enabled, _ => enabled = true
  | .adopted enabled, _ => enabled = true
  | _, _ => True

structure Told (initially : Bool) (w : World) : Prop where
  suppressed : w.tether.autoSuppressed = Suppressed initially w.log
  due : Trace.Each (Due initially) w.log

/-! ## The timers -/

/-- The ids are those of timers of their kind. -/
def Ids (w : World) : Prop :=
  ∀ kind n, w.timerIds kind = some n →
    n < w.timers.next ∧ ∀ armed, w.timers.Holds n armed → armed.timer.kind = kind

variable {w : World}

theorem Ids.cancel (h : Ids w) (kind : TimerKind) : Ids (w.cancel kind) := by
  intro kind' n hid
  have hother : kind' ≠ kind ∧ w.timerIds kind' = some n := by
    by_cases hk : kind' = kind
    · rw [hk] at hid
      simp [World.cancel] at hid
    · exact ⟨hk, by simpa [World.cancel, Function.update_of_ne hk] using hid⟩
  obtain ⟨hlt, hheld⟩ := h kind' n hother.2
  unfold World.cancel
  cases hcancel : w.timerIds kind with
  | none => exact ⟨hlt, hheld⟩
  | some m =>
    refine ⟨hlt, ?_⟩
    intro armed harmed
    exact hheld armed (Slots.holds_take.mp harmed).2

theorem Ids.schedule (h : Ids w) (delay : Nat) (timer : Timer) : Ids (w.schedule delay timer) := by
  intro kind n hid
  by_cases hk : kind = timer.kind
  · have hn : n = w.timers.next := by
      rw [hk] at hid
      simpa [World.schedule, eq_comm] using hid
    refine ⟨by simp [World.schedule, Slots.put, hn], ?_⟩
    intro armed harmed
    rcases Slots.holds_put.mp harmed with ⟨-, rfl⟩ | hold
    · exact hk.symm
    have hlt := hold.lt
    omega
  have hold : w.timerIds kind = some n := by
    simpa [World.schedule, Function.update_of_ne hk] using hid
  obtain ⟨hlt, hheld⟩ := h kind n hold
  refine ⟨Nat.lt_succ_of_lt hlt, ?_⟩
  intro armed harmed
  rcases Slots.holds_put.mp harmed with ⟨hn, -⟩ | hbefore
  · omega
  · exact hheld armed hbefore

theorem Ids.forget (h : Ids w) (kind : TimerKind) : Ids (w.forget kind) := by
  intro kind' n hid
  by_cases hk : kind' = kind
  · rw [hk] at hid
    simp [World.forget] at hid
  · exact h kind' n (by simpa [World.forget, Function.update_of_ne hk] using hid)

theorem Ids.take (h : Ids w) (n : Nat) : Ids ({ w with timers := w.timers.take n } : World) := by
  intro kind m hid
  obtain ⟨hlt, hheld⟩ := h kind m hid
  exact ⟨hlt, fun armed harmed => hheld armed (Slots.holds_take.mp harmed).2⟩

variable {n : Nat}

/-- A timer of another kind stays armed. -/
theorem holds_cancel (h : Ids w) {kind : TimerKind} {armed : Armed} (hheld : w.timers.Holds n armed)
    (hkind : armed.timer.kind ≠ kind) : (w.cancel kind).timers.Holds n armed := by
  unfold World.cancel
  cases hid : w.timerIds kind with
  | none => exact hheld
  | some m =>
    refine Slots.holds_take.mpr ⟨?_, hheld⟩
    intro hnm
    rw [hnm] at hheld
    exact hkind ((h kind m hid).2 armed hheld)

/-! ## What holds between two steps -/

/-- The generation of the controller that a request belongs to. -/
def Request.of : Request → Option Nat
  | .chooseConnect generation => some generation
  | .attempt generation => some generation
  | .chooseStop generation _ => some generation
  | .stop generation _ => some generation
  | .getAll _ => none

/-- The request is for a stop. -/
def Request.Stops : Request → Prop
  | .chooseStop _ _ => True
  | .stop _ _ => True
  | _ => False

/-- What a request of the current generation says about the state. -/
def Request.Agrees (t : TetherController) : Request → Prop
  | .chooseConnect _ => t.state = .connecting
  | .attempt _ => t.state ≠ .disconnecting
  | .chooseStop _ _ => t.state = .disconnecting ∧ t.awaitingLinkDown = false
  | .stop _ _ => t.state = .disconnecting ∧ t.awaitingLinkDown = false
  | .getAll _ => True

/-- What the state does not matter for. -/
structure Base (initially : Bool) (w : World) : Prop where
  ids : Ids w
  told : Told initially w
  bounded : ∀ n request generation, w.requests.Holds n request →
    request.of = some generation → generation ≤ w.tether.generation
  alone : ∀ n m request request', w.requests.Holds n request → w.requests.Holds m request' →
    request.of = some w.tether.generation → request'.of = some w.tether.generation → n = m

/-- A stop of the current generation is not answered yet. -/
def World.StopUnanswered (w : World) : Prop :=
  ∃ n request, w.requests.Holds n request ∧ request.of = some w.tether.generation ∧ request.Stops

/-- A read of the link is not answered yet. -/
def World.ProbeUnanswered (w : World) : Prop :=
  ∃ n, w.requests.Holds n (.getAll w.watch.generation)

/-- The timer is armed. -/
def World.IsArmed (w : World) (timer : Timer) : Prop := ∃ n delay, w.timers.Holds n ⟨delay, timer⟩

/-- What each state says. -/
structure Sound (initially : Bool) (w : World) : Prop extends Base initially w where
  deadline : w.tether.state = .connecting → w.IsArmed (.deadline w.tether.generation)
  awaiting : w.tether.awaitingLinkDown = true → w.tether.state = .disconnecting
  agrees : ∀ n request, w.requests.Holds n request →
    request.of = some w.tether.generation → request.Agrees w.tether
  stopping : w.tether.state = .disconnecting → w.tether.awaitingLinkDown = false →
    w.StopUnanswered

/-- The wait for the end of a link ends. -/
def Backed (w : World) : Prop :=
  w.tether.awaitingLinkDown = true → w.ProbeUnanswered ∨ w.IsArmed .confirm

/-- What goes on only while the feature is on. -/
structure On (w : World) : Prop where
  connecting : w.tether.state = .connecting → w.tether.enabled = true
  awaiting : w.tether.awaitingLinkDown = true → w.tether.enabled = true
  watching : w.tether.watching = true → w.tether.enabled = true

/-- What a method comes to. -/
structure Lands (initially : Bool) (w w' : World) : Prop where
  sound : Sound initially w'
  backed : Backed w'
  on : On w → On w'

variable {initially : Bool} {w' w'' : World}

theorem Lands.trans (h : On w → On w') (h' : Lands initially w' w'') : Lands initially w w'' :=
  { h' with on := fun hon => h'.on (h hon) }

/-! ## Steps that change nothing of this -/

/-- What the states are about. -/
structure Brief where
  enabled : Bool
  state : TetherState
  generation : Nat
  awaitingLinkDown : Bool
  watching : Bool
  autoSuppressed : Bool
  watchGeneration : Nat
  requests : Slots Request
  log : List Event

def World.brief (w : World) : Brief :=
  ⟨w.tether.enabled, w.tether.state, w.tether.generation, w.tether.awaitingLinkDown,
    w.tether.watching, w.tether.autoSuppressed, w.watch.generation, w.requests, w.log⟩

/-- The step keeps all of it, and the timers of the deadline and of the second look. -/
structure Keeps (w w' : World) : Prop where
  brief : w'.brief = w.brief
  ids : Ids w → Ids w'
  timers : Ids w → ∀ n armed, w.timers.Holds n armed →
    armed.timer.kind = .deadline ∨ armed.timer.kind = .confirm → w'.timers.Holds n armed

theorem Keeps.refl (w : World) : Keeps w w := ⟨rfl, fun h => h, fun _ _ _ h _ => h⟩

theorem Keeps.trans (h : Keeps w w') (h' : Keeps w' w'') : Keeps w w'' := by
  refine ⟨h'.brief.trans h.brief, fun hids => h'.ids (h.ids hids), ?_⟩
  intro hids n armed harmed hkind
  exact h'.timers (h.ids hids) n armed (h.timers hids n armed harmed hkind) hkind

/-- The timers are the same. -/
theorem Keeps.of_brief (h : (w'.brief, w'.timerIds, w'.timers) = (w.brief, w.timerIds, w.timers)) :
    Keeps w w' := by
  simp only [Prod.mk.injEq] at h
  obtain ⟨h, hids, htimers⟩ := h
  refine ⟨h, ?_, ?_⟩
  · intro hw kind n
    rw [hids, htimers]
    exact hw kind n
  · intro _ n armed harmed _
    rw [htimers]
    exact harmed

/-- Another timer is called off. -/
theorem Keeps.cancel (w : World) (kind : TimerKind) (hd : kind ≠ .deadline)
    (hc : kind ≠ .confirm) : Keeps w (w.cancel kind) := by
  refine ⟨rfl, fun h => h.cancel kind, ?_⟩
  intro hids n armed harmed hkind
  refine holds_cancel hids harmed ?_
  rcases hkind with h | h
  · rw [h]
    exact hd.symm
  rw [h]
  exact hc.symm

theorem Keeps.schedule (w : World) (delay : Nat) (timer : Timer) :
    Keeps w (w.schedule delay timer) := by
  refine ⟨rfl, fun h => h.schedule delay timer, ?_⟩
  intro _ n armed harmed _
  exact Slots.holds_put.mpr (.inr harmed)

theorem Keeps.forget (w : World) (kind : TimerKind) : Keeps w (w.forget kind) :=
  ⟨rfl, fun h => h.forget kind, fun _ _ _ h _ => h⟩

theorem Keeps.scheduleAutoRetry (w : World) : Keeps w w.scheduleAutoRetry := by
  unfold World.scheduleAutoRetry
  extract_lets t
  split
  · exact .refl w
  split
  · exact .refl w
  have hset : Keeps w (w.set fun t => { t with autoFailures := t.autoFailures + 1 }) :=
    .of_brief rfl
  exact hset.trans (.schedule _ _ _)

theorem Keeps.requests (h : Keeps w w') : w'.requests = w.requests := congrArg Brief.requests h.brief

theorem Keeps.generation (h : Keeps w w') : w'.tether.generation = w.tether.generation :=
  congrArg Brief.generation h.brief

theorem Keeps.state (h : Keeps w w') : w'.tether.state = w.tether.state :=
  congrArg Brief.state h.brief

theorem Keeps.awaiting (h : Keeps w w') : w'.tether.awaitingLinkDown = w.tether.awaitingLinkDown :=
  congrArg Brief.awaitingLinkDown h.brief

theorem Told.same (h : Told initially w) (hlog : w'.log = w.log)
    (hsuppressed : w'.tether.autoSuppressed = w.tether.autoSuppressed) : Told initially w' := by
  refine ⟨?_, ?_⟩
  · rw [hlog, hsuppressed]
    exact h.suppressed
  · rw [hlog]
    exact h.due

theorem Keeps.base (h : Keeps w w') (hw : Base initially w) : Base initially w' := by
  refine ⟨h.ids hw.ids, ?_, ?_, ?_⟩
  · exact hw.told.same (congrArg Brief.log h.brief) (congrArg Brief.autoSuppressed h.brief)
  · rw [h.requests, h.generation]
    exact hw.bounded
  · rw [h.requests, h.generation]
    exact hw.alone

theorem Keeps.armed (h : Keeps w w') (hids : Ids w) {timer : Timer}
    (hkind : timer.kind = .deadline ∨ timer.kind = .confirm) (ht : w.IsArmed timer) :
    w'.IsArmed timer := by
  obtain ⟨n, delay, hn⟩ := ht
  exact ⟨n, delay, h.timers hids n ⟨delay, timer⟩ hn hkind⟩

theorem Keeps.sound (h : Keeps w w') (hw : Sound initially w) : Sound initially w' := by
  refine ⟨h.base hw.toBase, ?_, ?_, ?_, ?_⟩
  · rw [h.state, h.generation]
    exact fun hc => h.armed hw.ids (.inl rfl) (hw.deadline hc)
  · rw [h.state, h.awaiting]
    exact hw.awaiting
  · rw [h.requests, h.generation]
    intro n request hn hof
    have hagrees := hw.agrees n request hn hof
    cases request with
    | chooseConnect g => exact h.state.trans hagrees
    | attempt g => exact fun hd => hagrees (h.state.symm.trans hd)
    | chooseStop g e | stop g e => exact ⟨h.state.trans hagrees.1, h.awaiting.trans hagrees.2⟩
    | getAll g => trivial
  · rw [h.state, h.awaiting]
    unfold World.StopUnanswered
    rw [h.requests, h.generation]
    exact hw.stopping

theorem Keeps.backed (h : Keeps w w') (hids : Ids w) (hw : Backed w) : Backed w' := by
  have hwatch : w'.watch.generation = w.watch.generation := congrArg Brief.watchGeneration h.brief
  intro ha
  rw [h.awaiting] at ha
  rcases hw ha with hprobe | hconfirm
  · unfold World.ProbeUnanswered
    rw [h.requests, hwatch]
    exact .inl hprobe
  · exact .inr (h.armed hids (.inr rfl) hconfirm)

theorem Keeps.on (h : Keeps w w') (hw : On w) : On w' := by
  have henabled : w'.tether.enabled = w.tether.enabled := congrArg Brief.enabled h.brief
  have hwatching : w'.tether.watching = w.tether.watching := congrArg Brief.watching h.brief
  refine ⟨?_, ?_, ?_⟩
  · rw [henabled, h.state]
    exact hw.connecting
  · rw [henabled, h.awaiting]
    exact hw.awaiting
  · rw [henabled, hwatching]
    exact hw.watching

/-- What follows a method that lands, and changes nothing of this. -/
theorem Lands.keeps (h : Lands initially w w') (hk : Keeps w' w'') : Lands initially w w'' :=
  ⟨hk.sound h.sound, hk.backed h.sound.ids h.backed, fun hon => hk.on (h.on hon)⟩

/-- A step that changes nothing of this. -/
theorem Keeps.lands (h : Keeps w w') (hw : Sound initially w) (hb : Backed w) :
    Lands initially w w' :=
  ⟨h.sound hw, h.backed hw.ids hb, h.on⟩

/-! ## The log -/

/-- The user decides. -/
theorem Told.decides (h : Told initially w) (event : Event) (hlog : w'.log = event :: w.log)
    (hdecides : w'.tether.autoSuppressed = Suppressed initially (event :: w.log))
    (hdue : Due initially event w.log) : Told initially w' := by
  refine ⟨?_, ?_⟩
  · rw [hlog]
    exact hdecides
  · rw [hlog]
    exact ⟨hdue, h.due⟩

/-- Something happens that is due and decides nothing. -/
theorem Told.records (h : Told initially w) (event : Event) (hlog : w'.log = event :: w.log)
    (hsuppressed : w'.tether.autoSuppressed = w.tether.autoSuppressed)
    (hdecides : Suppressed initially (event :: w.log) = Suppressed initially w.log)
    (hdue : Due initially event w.log) : Told initially w' :=
  h.decides event hlog (hsuppressed.trans (h.suppressed.trans hdecides.symm)) hdue

/-! ## Where nothing is waited for -/

/-- Neither an attempt nor a stop is running. -/
def TetherState.Rests (state : TetherState) : Prop := state ≠ .connecting ∧ state ≠ .disconnecting

/-- What is out for the generation is attempts. -/
def World.OnlyAttempts (w : World) (generation : Nat) : Prop :=
  ∀ n request, w.requests.Holds n request → request.of = some generation → ∃ g, request = .attempt g

/-- **Rest.** A state in which nothing is waited for needs only that what is unanswered in its
generation are attempts that were handed to a backend. -/
theorem Base.rest (h : Base initially w) (w' : World) (hrequests : w'.requests = w.requests)
    (hgeneration : w.tether.generation ≤ w'.tether.generation)
    (hout : w.OnlyAttempts w'.tether.generation)
    (hrests : w'.tether.state.Rests) (hawaiting : w'.tether.awaitingLinkDown = false)
    (hids : Ids w') (htold : Told initially w') (henabled : w'.tether.enabled = w.tether.enabled)
    (hwatching : w'.tether.watching = w.tether.watching) : Lands initially w w' := by
  have hquiet : w'.tether.awaitingLinkDown ≠ true := by
    rw [hawaiting]
    decide
  refine ⟨⟨⟨hids, htold, ?_, ?_⟩, fun hc => absurd hc hrests.1, fun ha => absurd ha hquiet, ?_,
    fun hd => absurd hd hrests.2⟩, fun ha => absurd ha hquiet, fun hon => ?_⟩
  · rw [hrequests]
    intro n request g hn hof
    exact (h.bounded n request g hn hof).trans hgeneration
  · rw [hrequests]
    intro n m request request' hn hm hof hof'
    have hle := h.bounded n request _ hn hof
    have hsame : w'.tether.generation = w.tether.generation := by omega
    rw [hsame] at hof hof'
    exact h.alone n m request request' hn hm hof hof'
  · rw [hrequests]
    intro n request hn hof
    obtain ⟨g, rfl⟩ := hout n request hn hof
    exact hrests.2
  · refine ⟨fun hc => absurd hc hrests.1, fun ha => absurd ha hquiet, ?_⟩
    rw [henabled, hwatching]
    exact hon.watching

/-- In a new generation nothing is unanswered. -/
theorem Base.leave (h : Base initially w) (w' : World) (hrequests : w'.requests = w.requests)
    (hgeneration : w'.tether.generation = w.tether.generation + 1) (hrests : w'.tether.state.Rests)
    (hawaiting : w'.tether.awaitingLinkDown = false) (hids : Ids w') (htold : Told initially w')
    (henabled : w'.tether.enabled = w.tether.enabled)
    (hwatching : w'.tether.watching = w.tether.watching) : Lands initially w w' := by
  refine h.rest w' hrequests (by omega) ?_ hrests hawaiting hids htold henabled hwatching
  intro n request hn hof
  have hle := h.bounded n request _ hn hof
  omega

/-- The end of a link is waited for by a stop only. -/
theorem Sound.quiet (h : Sound initially w) (hstate : w.tether.state ≠ .disconnecting) :
    w.tether.awaitingLinkDown = false := by
  by_contra ha
  exact hstate (h.awaiting (by simpa using ha))

theorem rests_off : TetherState.off.Rests := by constructor <;> decide
theorem rests_failed : TetherState.failed.Rests := by constructor <;> decide
theorem rests_connected : TetherState.connected.Rests := by constructor <;> decide

/-! ## Attempts -/

/-- The attempt ends. -/
theorem Base.lands_failed (h : Base initially w) (hawaiting : w.tether.awaitingLinkDown = false)
    (r : Reading) (token : Str) : Lands initially w (w.failed r w.tether.generation token) := by
  unfold World.failed
  rw [if_neg (fun hne => hne rfl)]
  extract_lets w₁
  have hids : Ids w₁ := Ids.cancel (w := w.supersede) h.ids .deadline
  have hlands := h.leave (w₁.setState r.net .failed (some (publicToken token GENERIC_ERROR))
    (some [])) rfl rfl rests_failed hawaiting hids (h.told.same rfl rfl) rfl rfl
  exact hlands.keeps (.scheduleAutoRetry _)

/-- An attempt runs, and nothing of its generation is unanswered. -/
structure Open (initially : Bool) (w : World) : Prop extends Base initially w where
  state : w.tether.state = .connecting
  deadline : w.IsArmed (.deadline w.tether.generation)
  enabled : w.tether.enabled = true
  awaiting : w.tether.awaitingLinkDown = false
  out : ∀ n request, w.requests.Holds n request → request.of ≠ some w.tether.generation

variable {request : Request}

/-- A call is made in the generation. -/
theorem Base.ask (h : Base initially w)
    (hout : ∀ n request, w.requests.Holds n request → request.of ≠ some w.tether.generation)
    (hof : request.of = some w.tether.generation) : Base initially (w.ask request) := by
  refine ⟨h.ids, h.told.same rfl rfl, ?_, ?_⟩
  · intro n request' g hn hof'
    rcases Slots.holds_put.mp hn with ⟨-, rfl⟩ | hold
    · have hg : w.tether.generation = g := Option.some.inj (hof.symm.trans hof')
      exact le_of_eq hg.symm
    · exact h.bounded n request' g hold hof'
  intro n m q q' hn hm hq hq'
  rcases Slots.holds_put.mp hn with ⟨hnew, -⟩ | hold
  · rcases Slots.holds_put.mp hm with ⟨hnew', -⟩ | hold'
    · rw [hnew, hnew']
    · exact absurd hq' (hout m q' hold')
  · exact absurd hq (hout n q hold)

/-- The attempt waits for the choice of a backend, or for the backend. -/
theorem Open.asks (h : Open initially w) (hof : request.of = some w.tether.generation)
    (hagrees : request.Agrees w.tether) : Lands initially w (w.ask request) := by
  have hnot : w.tether.state ≠ .disconnecting := by
    rw [h.state]
    decide
  refine ⟨⟨h.toBase.ask h.out hof, fun _ => h.deadline, ?_, ?_, ?_⟩, ?_, ?_⟩
  · intro ha
    exact absurd (h.awaiting.symm.trans ha) (by decide)
  · intro n q hn hq
    rcases Slots.holds_put.mp hn with ⟨-, rfl⟩ | hold
    · exact hagrees
    · exact absurd hq (h.out n q hold)
  · exact fun hd => absurd hd hnot
  · intro ha
    exact absurd (h.awaiting.symm.trans ha) (by decide)
  · exact fun hon => { hon with }

theorem Open.lands_hand (h : Open initially w) (r : Reading) (backend : BackendName) :
    Lands initially w (w.hand r w.tether.generation backend) := by
  unfold World.hand
  extract_lets w₁ w₂
  have htold : Told initially w₂ := h.told.records (.handed true)
    (by show Event.handed w.tether.enabled :: w.log = _; rw [h.enabled]) rfl rfl rfl
  have hopen : Open initially w₂ := { h with told := htold }
  have hon : On w → On w₂ := fun hon => { hon with }
  split
  · exact .trans hon (hopen.toBase.lands_failed h.awaiting r GENERIC_ERROR)
  refine .trans hon (hopen.asks rfl ?_)
  show w.tether.state ≠ .disconnecting
  rw [h.state]
  decide

/-- An attempt begins. -/
theorem Sound.lands_begin (h : Sound initially w)
    (hstate : w.tether.state = .off ∨ w.tether.state = .failed) (henabled : w.tether.enabled = true)
    (r : Reading) (automatic : Bool)
    (hauto : automatic = true → w.tether.autoconnect = true ∧ w.tether.autoSuppressed = false) :
    Lands initially w (w.begin r automatic) := by
  have hawaiting : w.tether.awaitingLinkDown = false := by
    apply h.quiet
    rcases hstate with hs | hs
    all_goals
      rw [hs]
      decide
  unfold World.begin
  extract_lets w₁ generation w₂ w₃
  have htold : Told initially w₃ := by
    refine h.told.records (.began automatic w.tether.enabled w.tether.autoconnect) rfl rfl
      rfl ?_
    intro ha
    obtain ⟨hconnect, hsuppressed⟩ := hauto ha
    exact ⟨henabled, hconnect, h.told.suppressed.symm.trans hsuppressed⟩
  have hids : Ids w₃ := Ids.schedule (w := w₂) h.ids 90 (.deadline generation)
  have hopen : Open initially w₃ := by
    refine ⟨⟨hids, htold, ?_, ?_⟩, rfl, ?_, henabled, hawaiting, ?_⟩
    · intro n request g hn hof
      exact (h.bounded n request g hn hof).trans (Nat.le_succ _)
    · intro n m request request' hn _ hof _
      have hle := h.bounded n request _ hn hof
      exact absurd hle (Nat.not_succ_le_self _)
    · exact ⟨w.timers.next, 90, Slots.holds_put.mpr (.inl ⟨rfl, rfl⟩)⟩
    · intro n request hn hof
      have hle := h.bounded n request _ hn hof
      exact absurd hle (Nat.not_succ_le_self _)
  have hon : On w → On w₃ := fun hon => { hon with connecting := fun _ => henabled }
  split
  · exact .trans hon (hopen.asks rfl hopen.state)
  · unfold World.chosen
    rw [if_neg (fun hne => hne rfl)]
    exact .trans hon (hopen.lands_hand r _)
  · exact .trans hon (hopen.toBase.lands_failed hawaiting r _)

/-- The user decides. -/
theorem Sound.decides (h : Sound initially w) (event : Event) (suppressed : Bool)
    (hsuppressed : suppressed = Suppressed initially (event :: w.log))
    (hdue : Due initially event w.log) :
    Sound initially ((w.record event).suppressAuto suppressed) := by
  have htold : Told initially ((w.record event).suppressAuto suppressed) :=
    h.told.decides event rfl hsuppressed hdue
  exact { h with told := htold }

theorem Sound.lands_permitConnect (h : Sound initially w) (hb : Backed w) :
    Lands initially w w.permitConnect := by
  have hdecided : Sound initially ((w.record .connectRequested).suppressAuto false) :=
    h.decides .connectRequested false rfl trivial
  have hset : Keeps ((w.record .connectRequested).suppressAuto false)
      (((w.record .connectRequested).suppressAuto false).set fun t => { t with autoFailures := 0 }) :=
    .of_brief rfl
  refine .trans ?_ ((hset.trans (.cancel _ .retry (by decide) (by decide))).lands hdecided hb)
  exact fun hon => { hon with }

/-- A state that is none of the others. -/
theorem TetherState.off_or_failed {state : TetherState} (hc : ¬ (state = .connecting ∨
    state = .connected)) (hd : state ≠ .disconnecting) : state = .off ∨ state = .failed := by
  cases state with
  | off => exact .inl rfl
  | connecting => exact absurd (.inl rfl) hc
  | connected => exact absurd (.inr rfl) hc
  | disconnecting => exact absurd rfl hd
  | failed => exact .inr rfl

theorem Sound.lands_connect (h : Sound initially w) (hb : Backed w) (r : Reading) (automatic : Bool)
    (hauto : automatic = true → w.tether.autoconnect = true ∧ w.tether.autoSuppressed = false) :
    Lands initially w (w.connect r automatic).1 := by
  unfold World.connect
  split
  · exact (Keeps.refl w).lands h hb
  rename_i henabled
  have henabled' : w.tether.enabled = true := by simpa using henabled
  extract_lets w₁
  have hpermit : Lands initially w w₁ := by
    unfold w₁
    split
    · exact (Keeps.refl w).lands h hb
    · exact h.lands_permitConnect hb
  split
  · exact hpermit
  split
  · exact hpermit
  split
  · exact hpermit
  rename_i hc hd _
  refine .trans hpermit.on (hpermit.sound.lands_begin
    (TetherState.off_or_failed hc hd) ?_ r automatic ?_)
  · unfold w₁
    split <;> exact henabled'
  intro ha
  have hsame : w₁ = w := if_pos ha
  rw [hsame]
  exact hauto ha

theorem Sound.lands_maybeAutoconnect (h : Sound initially w) (hb : Backed w) (r : Reading) :
    Lands initially w (w.maybeAutoconnect r) := by
  unfold World.maybeAutoconnect
  split
  · exact (Keeps.refl w).lands h hb
  rename_i hmay
  split
  · exact (Keeps.refl w).lands h hb
  have hall : w.mayAutoconnect = true := by simpa using hmay
  simp only [World.mayAutoconnect, Bool.and_eq_true, Bool.not_eq_true'] at hall
  obtain ⟨⟨⟨⟨⟨⟨-, hconnect⟩, hsuppressed⟩, -⟩, -⟩, -⟩, -⟩ := hall
  exact h.lands_connect hb r true (fun _ => ⟨hconnect, hsuppressed⟩)

/-! ## The callbacks of an attempt -/

/-- Nothing is waited for beside an attempt that was handed to a backend. -/
theorem Sound.attempt_out (h : Sound initially w)
    (hn : w.requests.Holds n (.attempt w.tether.generation)) :
    w.OnlyAttempts w.tether.generation ∧
      w.tether.awaitingLinkDown = false ∧ w.tether.state ≠ .disconnecting := by
  have hnot : w.tether.state ≠ .disconnecting := h.agrees n _ hn rfl
  refine ⟨?_, h.quiet hnot, hnot⟩
  intro m request hm hof
  have hnm := h.alone n m _ request hn hm rfl hof
  rw [← hnm] at hm
  exact ⟨_, hm.unique hn⟩

theorem Sound.lands_connected (h : Sound initially w) (hb : Backed w) {generation : Nat}
    (hn : w.requests.Holds n (.attempt generation)) (r : Reading) (interface : Str) :
    Lands initially w (w.connected r generation interface) := by
  unfold World.connected
  split
  · exact (Keeps.refl w).lands h hb
  rename_i hcurrent
  have hgeneration : generation = w.tether.generation := by
    by_contra hne
    exact hcurrent (.inl hne)
  rw [hgeneration] at hn
  obtain ⟨hout, hawaiting, -⟩ := h.attempt_out hn
  generalize hw₁ : World.set w.cancelDeadline _ = w₁
  have hids : Ids w₁ := by
    rw [← hw₁]
    exact h.ids.cancel .deadline
  have hbase : Base initially w₁ := by
    rw [← hw₁] at hids ⊢
    exact ⟨hids, h.told.same rfl rfl, h.bounded, h.alone⟩
  have hout₁ : w₁.OnlyAttempts w₁.tether.generation := by
    rw [← hw₁]
    exact hout
  have hawaiting₁ : w₁.tether.awaitingLinkDown = false := by
    rw [← hw₁]
    exact hawaiting
  have hon : On w → On w₁ := by
    rw [← hw₁]
    exact fun hon => { hon with }
  exact .trans hon (hbase.rest (w₁.setState r.net .connected (some [])
    (some (r.net.safeInterface interface))) rfl le_rfl hout₁ rests_connected hawaiting₁ hids
    (hbase.told.same rfl rfl) rfl rfl)

theorem Sound.lands_attemptFailed (h : Sound initially w) (hb : Backed w) {generation : Nat}
    (hn : w.requests.Holds n (.attempt generation)) (r : Reading) (token : Str) :
    Lands initially w (w.failed r generation token) := by
  by_cases hgeneration : generation = w.tether.generation
  · rw [hgeneration] at hn ⊢
    exact h.toBase.lands_failed (h.attempt_out hn).2.1 r token
  unfold World.failed
  rw [if_pos hgeneration]
  exact (Keeps.refl w).lands h hb

theorem Sound.lands_lost (h : Sound initially w) (hb : Backed w) {generation : Nat}
    (hn : w.requests.Holds n (.attempt generation)) (r : Reading) (token : Str)
    (userRequested : Bool) : Lands initially w (w.lost r generation token userRequested) := by
  unfold World.lost
  split
  · exact (Keeps.refl w).lands h hb
  rename_i hcurrent
  have hgeneration : generation = w.tether.generation := by simpa using hcurrent
  rw [hgeneration] at hn
  obtain ⟨-, hawaiting, hstate⟩ := h.attempt_out hn
  extract_lets w₁
  have hids : Ids w₁ :=
    Ids.cancel (w := w.supersede.cancelDeadline) (Ids.cancel (w := w.supersede) h.ids .deadline)
      .confirm
  split
  · -- the user turned it off elsewhere
    have hretry : Ids ((w₁.record .turnedOffOutside).suppressAuto true).cancelRetry :=
      Ids.cancel (w := (w₁.record .turnedOffOutside).suppressAuto true) hids .retry
    have htold : Told initially (((w₁.record .turnedOffOutside).suppressAuto
        true).cancelRetry.setState r.net .off (some []) (some [])) :=
      h.told.decides .turnedOffOutside rfl rfl trivial
    exact h.toBase.leave _ rfl rfl rests_off hawaiting hretry htold rfl rfl
  split
  · -- the link watch has reported it already
    rename_i hover
    have hrests : w₁.tether.state.Rests := ⟨hover.1, hstate⟩
    exact h.toBase.leave w₁ rfl rfl hrests hawaiting hids (h.told.same rfl rfl) rfl rfl
  have hlands := h.toBase.leave (w₁.setState r.net .off
    (some (publicToken token LINK_LOST)) (some [])) rfl rfl rests_off hawaiting hids
    (h.told.same rfl rfl) rfl rfl
  exact hlands.keeps (.scheduleAutoRetry _)

/-! ## The timers fire -/

/-- A timer is off, unless it is the deadline of the attempt that runs. -/
theorem Sound.fired (h : Sound initially w) {armed : Armed} (hn : w.timers.Holds n armed)
    (hnot : w.tether.state = .connecting → armed.timer ≠ .deadline w.tether.generation) :
    Sound initially ({ w with timers := w.timers.take n } : World) := by
  refine ⟨⟨h.ids.take n, h.told.same rfl rfl, h.bounded, h.alone⟩, ?_, h.awaiting, h.agrees,
    h.stopping⟩
  intro hc
  obtain ⟨m, delay, hm⟩ := h.deadline hc
  refine ⟨m, delay, Slots.holds_take.mpr ⟨?_, hm⟩⟩
  intro hmn
  rw [hmn] at hm
  exact hnot hc (congrArg Armed.timer (hn.unique hm))

theorem Backed.fired (h : Backed w) {armed : Armed} (hn : w.timers.Holds n armed)
    (hnot : armed.timer ≠ .confirm) : Backed ({ w with timers := w.timers.take n } : World) := by
  intro ha
  rcases h ha with hprobe | ⟨m, delay, hm⟩
  · exact .inl hprobe
  refine .inr ⟨m, delay, Slots.holds_take.mpr ⟨?_, hm⟩⟩
  intro hmn
  rw [hmn] at hm
  exact hnot (congrArg Armed.timer (hn.unique hm))

theorem Sound.lands_deadline (h : Sound initially w) (hb : Backed w) {delay generation : Nat}
    (hn : w.timers.Holds n ⟨delay, .deadline generation⟩) (r : Reading) :
    Lands initially w (({ w with timers := w.timers.take n } : World).deadline r generation) := by
  unfold World.deadline
  extract_lets w₁
  have hon : On w → On w₁ := fun hon => { hon with }
  split
  · rename_i hcurrent
    obtain ⟨hgeneration, hstate⟩ := hcurrent
    have hbase : Base initially w₁ :=
      ⟨(h.ids.take n).forget .deadline, h.told.same rfl rfl, h.bounded, h.alone⟩
    have hnot : w.tether.state ≠ .disconnecting := by
      rw [show w.tether.state = .connecting from hstate]
      decide
    have hawaiting : w₁.tether.awaitingLinkDown = false := h.quiet hnot
    rw [hgeneration]
    exact .trans hon (hbase.lands_failed hawaiting r TIMEOUT)
  rename_i hother
  have hnot : w.tether.state = .connecting →
      (⟨delay, .deadline generation⟩ : Armed).timer ≠ .deadline w.tether.generation := by
    intro hc hsame
    exact hother ⟨Timer.deadline.inj hsame, hc⟩
  have hlands := (Keeps.forget ({ w with timers := w.timers.take n } : World) .deadline).lands
    (h.fired hn hnot) (hb.fired hn nofun)
  exact { hlands with on := hon }

/-! ## The link -/

/-- Where an attempt or a stop is not running, nothing is unanswered but attempts that were handed
to a backend. -/
theorem Sound.out (h : Sound initially w) (hrests : w.tether.state.Rests) :
    w.OnlyAttempts w.tether.generation := by
  intro n request hn hof
  have hagrees := h.agrees n request hn hof
  cases request with
  | chooseConnect g => exact absurd hagrees hrests.1
  | attempt g => exact ⟨g, rfl⟩
  | chooseStop g e | stop g e => exact absurd hagrees.1 hrests.2
  | getAll g => cases hof

/-- Nor while the end of a link is waited for. -/
theorem Sound.awaiting_out (h : Sound initially w) (ha : w.tether.awaitingLinkDown = true) :
    w.OnlyAttempts w.tether.generation := by
  intro n request hn hof
  have hd := h.awaiting ha
  have hagrees := h.agrees n request hn hof
  cases request with
  | chooseConnect g => exact absurd (hd.symm.trans hagrees) (by decide)
  | attempt g => exact absurd hd hagrees
  | chooseStop g e | stop g e => exact absurd (ha.symm.trans hagrees.2) (by decide)
  | getAll g => cases hof

/-- The stop is over: the tether is off. -/
theorem Base.lands_finishDisconnect (h : Base initially w)
    (hout : w.OnlyAttempts w.tether.generation) (r : Reading) :
    Lands initially w (w.finishDisconnect r) := by
  have hids : Ids (w.finishDisconnect r) :=
    Ids.cancel (w := w.set fun t => { t with awaitingLinkDown := false }) h.ids .confirm
  exact h.rest (w.finishDisconnect r) rfl le_rfl hout rests_off rfl hids (h.told.same rfl rfl) rfl rfl

/-- A link is adopted. -/
theorem Base.lands_adopt (h : Base initially w) (hout : w.OnlyAttempts w.tether.generation)
    (hawaiting : w.tether.awaitingLinkDown = false) (henabled : w.tether.enabled = true) (net : Net)
    (error interface : Option Str) :
    Lands initially w (w.adopt.setState net .connected error interface) := by
  have htold : Told initially (w.adopt.setState net .connected error interface) :=
    h.told.records (.adopted w.tether.enabled) rfl rfl rfl henabled
  exact h.rest _ rfl le_rfl hout rests_connected hawaiting h.ids htold rfl rfl

/-- The end of a link is not waited for any longer. -/
theorem Base.unawait (h : Base initially w) :
    Base initially (w.set fun t => { t with awaitingLinkDown := false }) :=
  { h with told := h.told.same rfl rfl }

theorem On.unawait (h : On w) : On (w.set fun t => { t with awaitingLinkDown := false }) :=
  { h with awaiting := nofun }

theorem Base.cancel (h : Base initially w) (kind : TimerKind) : Base initially (w.cancel kind) :=
  ⟨h.ids.cancel kind, h.told.same rfl rfl, h.bounded, h.alone⟩

/-- The end of the link is waited for, and it is looked at. -/
theorem Sound.lands_linkAfterDisconnect (h : Sound initially w)
    (ha : w.tether.awaitingLinkDown = true) (henabled : w.tether.enabled = true) (r : Reading)
    (connected : Bool) (interface : Str) :
    Lands initially w (w.linkAfterDisconnect r connected interface) := by
  have hout := h.awaiting_out ha
  have hd := h.awaiting ha
  unfold World.linkAfterDisconnect
  split
  · exact h.toBase.lands_finishDisconnect hout r
  split
  · -- a second look is armed
    have hbase : Base initially (w.set fun t => { t with linkDownGraceSpent := true }) :=
      { h with told := h.told.same rfl rfl }
    generalize hw₁ : World.cancelConfirm _ = w₁
    have hsound : Sound initially w₁ := by
      rw [← hw₁]
      refine ⟨hbase.cancel .confirm, ?_, h.awaiting, h.agrees, h.stopping⟩
      intro hc
      exact absurd (hd.symm.trans hc) (by decide)
    have hon : On w → On w₁ := by
      rw [← hw₁]
      exact fun hon => { hon with }
    refine ⟨(Keeps.schedule w₁ 3 .confirm).sound hsound, ?_,
      fun h => (Keeps.schedule w₁ 3 .confirm).on (hon h)⟩
    exact fun _ => .inr ⟨w₁.timers.next, 3, Slots.holds_put.mpr (.inl ⟨rfl, rfl⟩)⟩
  · -- the link is still up
    exact .trans On.unawait (h.toBase.unawait.lands_adopt hout rfl henabled r.net _ _)

/-- A tether that was connected is down. -/
theorem Sound.lands_linkDown (h : Sound initially w) (hstate : w.tether.state = .connected)
    (r : Reading) : Lands initially w (w.linkDown r) := by
  have hrests : w.tether.state.Rests := by
    rw [hstate]
    exact rests_connected
  have hawaiting : w.tether.awaitingLinkDown = false := h.quiet hrests.2
  unfold World.linkDown
  extract_lets external stopped w₁ w₂
  have hoff (error : Option Str) : Lands initially w (w₁.setState r.net .off error (some [])) :=
    h.toBase.rest _ rfl le_rfl (h.out hrests) rests_off hawaiting h.ids (h.told.same rfl rfl) rfl rfl
  split
  · exact hoff _
  split
  · exact hoff _
  · exact (hoff _).keeps (.scheduleAutoRetry _)

theorem Sound.lands_observeKnownLink (h : Sound initially w)
    (hb : w.tether.awaitingLinkDown = false → Backed w) (henabled : w.tether.enabled = true)
    (r : Reading) (connected : Bool) (interface : Str) :
    Lands initially w (w.observeKnownLink r connected interface) := by
  unfold World.observeKnownLink
  extract_lets t
  split
  · rename_i hwaits
    exact h.lands_linkAfterDisconnect hwaits.1 henabled r connected interface
  rename_i hnot
  have hawaiting : w.tether.awaitingLinkDown = false := by
    by_contra ha
    have ha' : w.tether.awaitingLinkDown = true := by simpa using ha
    exact hnot ⟨ha', h.awaiting ha'⟩
  have hsame : Lands initially w w := (Keeps.refl w).lands h (hb hawaiting)
  split
  · split
    · rename_i hdown
      have hrests : w.tether.state.Rests := by
        rcases hdown with hs | hs
        · rw [show w.tether.state = .off from hs]
          exact rests_off
        rw [show w.tether.state = .failed from hs]
        exact rests_failed
      have hbase : Base initially (w.set fun t => { t with connectedAt := some r.now }) :=
        { h with told := h.told.same rfl rfl }
      have hon : On w → On (w.set fun t => { t with connectedAt := some r.now }) :=
        fun hon => { hon with }
      exact .trans hon (hbase.lands_adopt (h.out hrests) hawaiting henabled r.net (some [])
        (some (r.net.safeInterface interface)))
    · split
      · rename_i hup
        have hrests : w.tether.state.Rests := by
          rw [show w.tether.state = .connected from hup.1]
          exact rests_connected
        exact h.toBase.rest _ rfl le_rfl (h.out hrests) rests_connected hawaiting h.ids
          (h.told.same rfl rfl) rfl rfl
      · exact hsame
  · split
    · rename_i hup
      exact h.lands_linkDown hup r
    · exact hsame

/-- **An observation of the link** ends the wait for its end, or arms a second look. -/
theorem Sound.lands_observeLink (h : Sound initially w) (hb : w.tether.enabled = false → Backed w)
    (r : Reading) (connected : Option Bool) (interface : Str) :
    Lands initially w (w.observeLink r connected interface) := by
  have hquiet : w.tether.awaitingLinkDown = false → Backed w := by
    intro hawaiting ha
    exact absurd (hawaiting.symm.trans ha) (by decide)
  unfold World.observeLink
  split
  · rename_i hoff
    exact (Keeps.refl w).lands h (hb (by simpa using hoff))
  rename_i hon
  have henabled : w.tether.enabled = true := by simpa using hon
  split
  · split
    · rename_i ha
      have hlands := (h.toBase.unawait.cancel .confirm).lands_adopt (h.awaiting_out ha) rfl
        henabled r.net (some GENERIC_ERROR) none
      have hon : On w →
          On ((w.set fun t => { t with awaitingLinkDown := false }).cancel .confirm) :=
        fun hon => { hon with awaiting := nofun }
      exact .trans hon hlands
    · rename_i hnot
      exact (Keeps.refl w).lands h (hquiet (by simpa using hnot))
  extract_lets initialProbe w₁ w₂
  have hkeeps : Keeps w w₁ := .of_brief rfl
  have hlands : Lands initially w w₂ := by
    refine .trans hkeeps.on ((hkeeps.sound h).lands_observeKnownLink ?_ henabled r _ interface)
    exact fun hawaiting => hkeeps.backed h.ids (hquiet hawaiting)
  split
  · exact .trans hlands.on (hlands.sound.lands_maybeAutoconnect hlands.backed r)
  · exact hlands

/-! ## The link watch -/

/-- While the feature is off, the end of a link is not waited for. -/
def Unhurried (w : World) : Prop := w.tether.enabled = false → w.tether.awaitingLinkDown = false

theorem On.unhurried (h : On w) : Unhurried w := by
  intro hoff
  by_contra ha
  have henabled := h.awaiting (by simpa using ha)
  exact absurd (hoff.symm.trans henabled) (by decide)

theorem Unhurried.backed (h : Unhurried w) : w.tether.enabled = false → Backed w := by
  intro hoff ha
  exact absurd ((h hoff).symm.trans ha) (by decide)

theorem Keeps.scheduleProbe (w : World) (generation : Nat) :
    Keeps w (w.scheduleProbe generation) := by
  unfold World.scheduleProbe
  extract_lets delay
  have hset : Keeps w
      { w with watch := { w.watch with retryFailures := w.watch.retryFailures + 1 } } :=
    .of_brief rfl
  exact hset.trans (.schedule _ delay (.probe generation))

theorem keeps_retryFailures (w : World) :
    Keeps w { w with watch := { w.watch with retryFailures := 0 } } := .of_brief rfl

/-- The answer to the last read of the link. -/
theorem Sound.lands_probeFailed (h : Sound initially w) (hquiet : Unhurried w) (r : Reading)
    (name : Str) : Lands initially w (w.probeFailed r w.watch.generation name) := by
  unfold World.probeFailed
  rw [if_neg (fun hne => hne rfl)]
  split
  · have hkeeps := keeps_retryFailures w
    refine .trans hkeeps.on ((hkeeps.sound h).lands_observeLink ?_ r (some false) [])
    exact fun hoff => hkeeps.backed h.ids (hquiet.backed hoff)
  extract_lets w₁
  have hlands : Lands initially w w₁ := h.lands_observeLink hquiet.backed r none []
  split
  · exact hlands.keeps (.scheduleProbe _ _)
  · exact hlands

theorem Sound.lands_probeReplied (h : Sound initially w) (hquiet : Unhurried w) (r : Reading)
    (connected : Bool) (interface : Str) :
    Lands initially w (w.probeReplied r w.watch.generation connected interface) := by
  unfold World.probeReplied
  rw [if_neg (fun hne => hne rfl)]
  have hkeeps := keeps_retryFailures w
  refine .trans hkeeps.on ((hkeeps.sound h).lands_observeLink ?_ r _ _)
  exact fun hoff => hkeeps.backed h.ids (hquiet.backed hoff)

/-- What the watch has read is stale; the states do not depend on it. -/
theorem Sound.supersedeProbe (h : Sound initially w) : Sound initially w.supersedeProbe := by
  have hc := (Keeps.cancel w .probe (by decide) (by decide)).sound h
  exact { hc with told := hc.told.same rfl rfl }

theorem On.supersedeProbe (h : On w) : On w.supersedeProbe := { h with }

/-- A read of the link is nothing that a state speaks of. -/
theorem Sound.askProbe (h : Sound initially w) (generation : Nat) :
    Sound initially (w.ask (.getAll generation)) := by
  have hother {n : Nat} {q : Request} {g : Nat} (hn : (w.ask (.getAll generation)).requests.Holds n q)
      (hof : q.of = some g) : w.requests.Holds n q := by
    rcases Slots.holds_put.mp hn with ⟨-, rfl⟩ | hold
    · cases hof
    · exact hold
  refine ⟨⟨h.ids, h.told.same rfl rfl, ?_, ?_⟩, h.deadline, h.awaiting, ?_, ?_⟩
  · exact fun n q g hn hof => h.bounded n q g (hother hn hof) hof
  · exact fun n m q q' hn hm hof hof' => h.alone n m q q' (hother hn hof) (hother hm hof') hof hof'
  · exact fun n q hn hof => h.agrees n q (hother hn hof) hof
  · intro hd ha
    obtain ⟨n, q, hn, hof, hstops⟩ := h.stopping hd ha
    exact ⟨n, q, Slots.holds_put.mpr (.inr hn), hof, hstops⟩

/-- **A read of the link** is answered at once, or it is waited for. -/
theorem Sound.lands_probe (h : Sound initially w) (hquiet : Unhurried w) (r : Reading) :
    Lands initially w (w.probe r) := by
  unfold World.probe
  extract_lets w₁
  have hsound : Sound initially w₁ := h.supersedeProbe
  split
  · exact .trans On.supersedeProbe (hsound.lands_probeFailed hquiet r _)
  refine ⟨hsound.askProbe _, ?_, fun hon => { hon with }⟩
  exact fun _ => .inl ⟨w.requests.next, Slots.holds_put.mpr (.inl ⟨rfl, rfl⟩)⟩

theorem Sound.lands_propertiesChanged (h : Sound initially w) (hb : Backed w) (hquiet : Unhurried w)
    (r : Reading) (network : Bool) (connected : Option Bool) (interface : Str) :
    Lands initially w (w.propertiesChanged r network connected interface) := by
  unfold World.propertiesChanged
  split
  · exact (Keeps.refl w).lands h hb
  split
  · exact (Keeps.refl w).lands h hb
  extract_lets w₁
  have hkeeps := keeps_retryFailures w₁
  have hon : On w → On { w₁ with watch := { w₁.watch with retryFailures := 0 } } :=
    fun hon => hkeeps.on hon.supersedeProbe
  have hquiet' : Unhurried { w₁ with watch := { w₁.watch with retryFailures := 0 } } := hquiet
  exact .trans hon ((hkeeps.sound h.supersedeProbe).lands_observeLink hquiet'.backed r _ _)

/-! ## Stops -/

/-- A stop of the generation runs, and nothing of the generation is unanswered. -/
structure Closing (initially : Bool) (w : World) : Prop extends Base initially w where
  state : w.tether.state = .disconnecting
  awaiting : w.tether.awaitingLinkDown = false
  out : ∀ n request, w.requests.Holds n request → request.of ≠ some w.tether.generation

/-- The stop waits for the choice of a backend, or for the backend. -/
theorem Closing.asks (h : Closing initially w) (hof : request.of = some w.tether.generation)
    (hstops : request.Stops) : Lands initially w (w.ask request) := by
  have hnot : w.tether.state ≠ .connecting := by
    rw [h.state]
    decide
  have hquiet : w.tether.awaitingLinkDown ≠ true := by
    rw [h.awaiting]
    decide
  refine ⟨⟨h.toBase.ask h.out hof, fun hc => absurd hc hnot, fun ha => absurd ha hquiet, ?_, ?_⟩,
    fun ha => absurd ha hquiet, fun hon => { hon with }⟩
  · intro n q hn hq
    rcases Slots.holds_put.mp hn with ⟨-, rfl⟩ | hold
    · cases q with
      | chooseStop g e | stop g e => exact ⟨h.state, h.awaiting⟩
      | chooseConnect g | attempt g | getAll g => exact hstops.elim
    · exact absurd hq (h.out n q hold)
  · exact fun _ _ => ⟨_, request, Slots.holds_put.mpr (.inl ⟨rfl, rfl⟩), hof, hstops⟩

theorem Closing.quiet_out (h : Closing initially w) : w.OnlyAttempts w.tether.generation :=
  fun n request hn hof => absurd hof (h.out n request hn)

/-- The stop failed. -/
theorem Closing.lands_disconnectFailed (h : Closing initially w) (r : Reading) (token : Str) :
    Lands initially w (w.disconnectFailed r w.tether.generation token) := by
  have hset (state : TetherState) (hrests : state.Rests) (error interface : Option Str) :
      Lands initially w (w.setState r.net state error interface) :=
    h.toBase.rest _ rfl le_rfl h.quiet_out hrests h.awaiting h.ids (h.told.same rfl rfl) rfl rfl
  unfold World.disconnectFailed
  rw [if_neg (fun hne => hne rfl)]
  split
  · exact hset .off rests_off _ _
  extract_lets token' w₁
  have hlands : Lands initially w w₁ := by
    unfold w₁
    split
    · exact hset .connected rests_connected _ _
    · exact hset .failed rests_failed _ _
  have hawaiting : w₁.tether.awaitingLinkDown = false := by
    unfold w₁
    split <;> exact h.awaiting
  split
  · exact .trans hlands.on (hlands.sound.lands_probe (fun _ => hawaiting) r)
  · exact hlands

/-- The stop is answered: the end of an adopted link is waited for. -/
theorem Closing.lands_disconnected (h : Closing initially w)
    (hwatching : w.tether.watching = true → w.tether.enabled = true) (r : Reading)
    (external : Bool) : Lands initially w (w.disconnected r w.tether.generation external) := by
  unfold World.disconnected
  rw [if_neg (fun hne => hne rfl)]
  split
  · rename_i hexternal
    have henabled : w.tether.enabled = true := hwatching hexternal.2
    generalize hw₁ : World.set w _ = w₁
    have hsound : Sound initially w₁ := by
      rw [← hw₁]
      refine ⟨{ h with told := h.told.same rfl rfl }, ?_, fun _ => h.state, ?_, ?_⟩
      · exact fun hc => absurd (h.state.symm.trans hc) (by decide)
      · exact fun n q hn hof => absurd hof (h.out n q hn)
      · exact fun _ ha => (by cases ha)
    have hon : On w → On w₁ := by
      rw [← hw₁]
      exact fun hon => { hon with awaiting := fun _ => henabled }
    have hquiet : Unhurried w₁ := by
      rw [← hw₁]
      exact fun hoff => absurd (hoff.symm.trans henabled) (by decide)
    exact .trans hon (hsound.lands_probe hquiet r)
  · exact h.toBase.lands_finishDisconnect h.quiet_out r

/-- A backend is chosen for the stop. -/
theorem Closing.lands_runStop (h : Closing initially w) (r : Reading) (external : Bool)
    (backend : BackendName) :
    Lands initially w (w.runStop r w.tether.generation external backend) := by
  unfold World.runStop
  rw [if_neg (fun hne => hne rfl)]
  extract_lets w₁
  have hclosing : Closing initially w₁ := { h with told := h.told.same rfl rfl }
  have hon : On w → On w₁ := fun hon => { hon with }
  split
  · exact .trans hon (hclosing.lands_disconnectFailed r GENERIC_ERROR)
  · exact .trans hon (hclosing.asks rfl trivial)

/-- An attempt or a tether ends in a stop. -/
theorem Sound.lands_beginStop (h : Sound initially w) (hstate : w.tether.state ≠ .disconnecting)
    (r : Reading) : Lands initially w (w.beginStop r) := by
  have hawaiting : w.tether.awaitingLinkDown = false := h.quiet hstate
  unfold World.beginStop
  extract_lets w₁ generation external own w₂
  have hids : Ids w₂ :=
    Ids.cancel (w := w.supersede.cancelDeadline) (Ids.cancel (w := w.supersede) h.ids .deadline)
      .confirm
  have hstale : ∀ n request, w₂.requests.Holds n request →
      request.of ≠ some w₂.tether.generation := by
    intro n request hn hof
    have hle := h.bounded n request _ hn hof
    exact absurd hle (Nat.not_succ_le_self _)
  have hclosing : Closing initially w₂ := by
    refine ⟨⟨hids, h.told.same rfl rfl, ?_, ?_⟩, rfl, hawaiting, hstale⟩
    · intro n request g hn hof
      exact (h.bounded n request g hn hof).trans (Nat.le_succ _)
    · intro n m request request' hn _ hof _
      exact absurd hof (hstale n request hn)
  have hon : On w → On w₂ := fun hon => { hon with connecting := nofun }
  clear_value own
  cases own with
  | some backend => exact .trans hon (hclosing.lands_runStop r external backend)
  | none =>
    dsimp only
    split
    · exact .trans hon (hclosing.asks rfl trivial)
    · exact .trans hon (hclosing.lands_runStop r external _)
    · exact .trans hon (hclosing.lands_disconnectFailed r _)

/-- The user ends the tether. -/
theorem Sound.lands_stopRequested (h : Sound initially w) (hb : Backed w) :
    Lands initially w ((w.record .stopRequested).suppressAuto true).cancelRetry := by
  have hdecided := h.decides .stopRequested true rfl trivial
  refine .trans ?_ ((Keeps.cancel _ .retry (by decide) (by decide)).lands hdecided hb)
  exact fun hon => { hon with }

theorem Sound.lands_disconnect (h : Sound initially w) (hb : Backed w) (r : Reading) :
    Lands initially w (w.disconnect r) := by
  unfold World.disconnect
  extract_lets w₁
  have hlands : Lands initially w w₁ := h.lands_stopRequested hb
  split
  · exact hlands
  rename_i hstate
  split
  · rename_i hdown
    have hrests : w₁.tether.state.Rests := by
      rcases hdown with hs | hs
      · rw [hs]
        exact rests_off
      rw [hs]
      exact rests_failed
    have hsound := hlands.sound
    exact .trans hlands.on (hsound.toBase.rest _ rfl le_rfl (hsound.out hrests) rests_off
      (hsound.quiet hrests.2) hsound.ids (hsound.told.same rfl rfl) rfl rfl)
  · exact .trans hlands.on (hlands.sound.lands_beginStop hstate r)

/-! ## The feature is turned off -/

/-- Nothing of the tether goes on but a stop. -/
structure Ending (w : World) : Prop where
  awaiting : w.tether.awaitingLinkDown = false
  state : w.tether.state ≠ .connecting

theorem Ending.disconnectFailed (h : Ending w) (hoff : w.tether.enabled = false) (r : Reading)
    (generation : Nat) (token : Str) : Ending (w.disconnectFailed r generation token) := by
  unfold World.disconnectFailed
  split
  · exact h
  rw [if_pos (by simp [hoff])]
  exact ⟨h.awaiting, rests_off.1⟩

theorem Ending.runStop (h : Ending w) (hoff : w.tether.enabled = false) (r : Reading)
    (generation : Nat) (external : Bool) (backend : BackendName) :
    Ending (w.runStop r generation external backend) := by
  unfold World.runStop
  split
  · exact h
  extract_lets w₁
  have h₁ : Ending w₁ := ⟨h.awaiting, h.state⟩
  split
  · exact h₁.disconnectFailed hoff r generation GENERIC_ERROR
  · exact ⟨h₁.awaiting, h₁.state⟩

/-- A stop that is not looked after is over or in flight. -/
theorem ending_beginStop (hawaiting : w.tether.awaitingLinkDown = false)
    (hoff : w.tether.enabled = false) (r : Reading) : Ending (w.beginStop r) := by
  unfold World.beginStop
  extract_lets w₁ generation external own w₂
  have h₂ : Ending w₂ := ⟨hawaiting, nofun⟩
  clear_value own
  cases own with
  | some backend => exact h₂.runStop hoff r generation external backend
  | none =>
    dsimp only
    split
    · exact ⟨h₂.awaiting, h₂.state⟩
    · exact h₂.runStop hoff r generation external _
    · exact h₂.disconnectFailed hoff r generation _

/-- What is left is a stop in flight, or nothing. -/
theorem Sound.settles (h : Sound initially w) (he : Ending w) :
    Sound initially (w.set fun t => { t with awaitingLinkDown := false }).cancelConfirm := by
  refine ⟨h.toBase.unawait.cancel .confirm, fun hc => absurd hc he.state, nofun,
    ?_, fun hd _ => h.stopping hd he.awaiting⟩
  intro n request hn hof
  have hagrees := h.agrees n request hn hof
  cases request with
  | chooseConnect g | attempt g => exact hagrees
  | chooseStop g e | stop g e => exact ⟨hagrees.1, rfl⟩
  | getAll g => trivial

theorem Sound.stopWatch (h : Sound initially w) : Sound initially w.stopWatch := by
  unfold World.stopWatch
  extract_lets w₁
  have h₁ : Sound initially w₁ := { h with told := h.told.same rfl rfl }
  split
  · exact h₁
  have h₂ : Sound initially (w₁.set fun t => { t with watching := false }) :=
    { h with told := h.told.same rfl rfl }
  have h₃ := h₂.supersedeProbe
  exact { h₃ with told := h₃.told.same rfl rfl }

theorem stopWatch_watching (w : World) : w.stopWatch.tether.watching = false := by
  unfold World.stopWatch
  extract_lets w₁
  split
  · rename_i hnot
    simpa using hnot
  · rfl

theorem stopWatch_same (w : World) :
    w.stopWatch.tether.state = w.tether.state ∧
      w.stopWatch.tether.awaitingLinkDown = w.tether.awaitingLinkDown := by
  unfold World.stopWatch
  extract_lets w₁
  split <;> exact ⟨rfl, rfl⟩

/-- Where a link of ours is up, a stop begins. -/
theorem ending_disconnect (hawaiting : w.tether.awaitingLinkDown = false)
    (hoff : w.tether.enabled = false)
    (hup : w.tether.state = .connecting ∨ w.tether.state = .connected) (r : Reading) :
    Ending (w.disconnect r) := by
  unfold World.disconnect
  extract_lets w₁
  have hstate : w₁.tether.state = .connecting ∨ w₁.tether.state = .connected := hup
  have hnot : w₁.tether.state ≠ .disconnecting := by
    rcases hstate with hs | hs
    all_goals
      rw [hs]
      decide
  have hdown : ¬ (w₁.tether.state = .off ∨ w₁.tether.state = .failed) := by
    rcases hstate with hs | hs
    all_goals
      rw [hs]
      decide
  have hawaiting₁ : w₁.tether.awaitingLinkDown = false := hawaiting
  have hoff₁ : w₁.tether.enabled = false := hoff
  rw [if_neg hnot, if_neg hdown]
  exact ending_beginStop hawaiting₁ hoff₁ r

/-- The link is stopped or forgotten. -/
theorem Sound.releaseLink (h : Sound initially w) (hb : Backed w) (hoff : w.tether.enabled = false)
    (r : Reading) :
    Sound initially ((w.releaseLink r).set fun t =>
        { t with awaitingLinkDown := false }).cancelConfirm ∧
      (w.releaseLink r).tether.state ≠ .connecting := by
  unfold World.releaseLink
  extract_lets t
  split
  · rename_i hours
    have hawaiting : w.tether.awaitingLinkDown = false := by
      apply h.quiet
      rcases hours.1 with hs | hs
      all_goals
        rw [hs]
        decide
    have hending : Ending (w.disconnect r) := ending_disconnect hawaiting hoff hours.1 r
    exact ⟨(h.lands_disconnect hb r).sound.settles hending, hending.state⟩
  split
  · generalize hw₁ : World.setState _ r.net .off (some []) (some []) = w₁
    have hids : Ids w₁ := by
      rw [← hw₁]
      exact Ids.cancel (w := w.supersede) h.ids .deadline
    refine ⟨?_, by rw [← hw₁]; exact rests_off.1⟩
    refine (h.toBase.leave _ (by rw [← hw₁]; rfl) (by rw [← hw₁]; rfl) ?_ rfl
      (Ids.cancel (w := w₁.set fun t => { t with awaitingLinkDown := false }) hids .confirm)
      (h.told.same (by rw [← hw₁]; rfl) (by rw [← hw₁]; rfl)) (by rw [← hw₁]; rfl)
      (by rw [← hw₁]; rfl)).sound
    rw [← hw₁]
    exact rests_off
  · rename_i hflight
    have hstate : w.tether.state = .disconnecting := by
      by_contra hne
      exact hflight (.inl hne)
    have hawaiting : w.tether.awaitingLinkDown = false := by
      by_contra ha
      exact hflight (.inr (by simpa using ha))
    have hnot : w.tether.state ≠ .connecting := by
      rw [hstate]
      decide
    exact ⟨h.settles ⟨hawaiting, hnot⟩, hnot⟩

/-- **The feature is off**, and nothing of it goes on but a stop. -/
theorem Sound.disable (h : Sound initially w) (hb : Backed w) (hoff : w.tether.enabled = false)
    (r : Reading) : Sound initially (w.disable r) ∧ Backed (w.disable r) ∧ On (w.disable r) := by
  have hkeeps : Keeps w w.cancelRetry := .cancel w .retry (by decide) (by decide)
  obtain ⟨hsound, hstate⟩ := Sound.releaseLink (hkeeps.sound h) (hkeeps.backed h.ids hb) hoff r
  unfold World.disable
  extract_lets w₁
  generalize hw₂ : World.cancelConfirm _ = w₂
  have hstate₂ : w₂.tether.state ≠ .connecting := by
    rw [← hw₂]
    exact hstate
  have hawaiting₂ : w₂.tether.awaitingLinkDown = false := by
    rw [← hw₂]
    rfl
  have hsound₂ : Sound initially w₂ := by
    rw [← hw₂]
    exact hsound
  obtain ⟨hsame, hsame'⟩ := stopWatch_same w₂
  have hquiet : w₂.stopWatch.tether.awaitingLinkDown ≠ true := by
    rw [hsame', hawaiting₂]
    decide
  refine ⟨hsound₂.stopWatch, fun ha => absurd ha hquiet, ?_, fun ha => absurd ha hquiet, ?_⟩
  · rw [hsame]
    exact fun hc => absurd hc hstate₂
  · rw [stopWatch_watching]
    nofun

/-! ## The life of the controller -/

/-- What holds in every state of a run. -/
structure Settled (initially : Bool) (w : World) : Prop where
  sound : Sound initially w
  backed : Backed w
  on : On w

section

variable (h : Settled initially w)
include h

theorem Settled.lands (hlands : Lands initially w w') : Settled initially w' :=
  { hlands with on := hlands.on h.on }

theorem Settled.keeps (hk : Keeps w w') : Settled initially w' :=
  h.lands (hk.lands h.sound h.backed)

theorem Settled.startWatch (henabled : w.tether.enabled = true)
    (r : Reading) : Settled initially (w.startWatch r) := by
  unfold World.startWatch
  split
  · exact h
  generalize hw₁ : World.set w _ = w₁
  have h₁ : Settled initially { w₁ with watch := { w₁.watch with subscribed := true } } := by
    subst hw₁
    exact ⟨{ h.sound with told := h.sound.told.same rfl rfl }, h.backed,
      { h.on with watching := fun _ => henabled }⟩
  exact h₁.lands (h₁.sound.lands_probe h₁.on.unhurried r)

theorem Settled.startUp (r : Reading) : Settled initially (w.startUp r) := by
  unfold World.startUp
  split
  · exact h
  extract_lets w₁
  have h₁ : Settled initially w₁ := h.keeps (.of_brief rfl)
  split
  · rename_i henabled
    exact h₁.startWatch henabled r
  · exact h₁

theorem Settled.switchOn (r : Reading) : Settled initially (w.switchOn r) := by
  unfold World.switchOn
  have hdecided := h.sound.decides .switchedOn false rfl trivial
  generalize hw₁ : (w.record .switchedOn).suppressAuto false = w₁
  have h₁ : Settled initially w₁ := by
    subst hw₁
    exact ⟨hdecided, h.backed, h.on.connecting, h.on.awaiting, h.on.watching⟩
  have h₂ : Settled initially (w₁.set fun t => { t with autoFailures := 0 }) :=
    h₁.keeps (.of_brief rfl)
  exact h₂.lands (h₂.sound.lands_maybeAutoconnect h₂.backed r)

theorem Settled.configure (r : Reading) (enabled autoconnect : Bool) :
    Settled initially (w.configure r enabled autoconnect) := by
  unfold World.configure
  extract_lets wasEnabled wasAuto w₁ w₂ w₃
  have hsound₁ : Sound initially w₁ := { h.sound with told := h.sound.told.same rfl rfl }
  have h₂ : Settled initially w₂ := by
    unfold w₂
    cases enabled with
    | false =>
      obtain ⟨hsound, hbacked, hon⟩ := hsound₁.disable h.backed rfl r
      exact ⟨hsound, hbacked, hon⟩
    | true =>
      have h₁ : Settled initially w₁ := ⟨hsound₁, h.backed, fun _ => rfl, fun _ => rfl, fun _ => rfl⟩
      rw [if_neg (by decide)]
      split
      · exact h₁.startWatch rfl r
      · exact h₁
  have h₃ : Settled initially w₃ := by
    unfold w₃
    split
    · exact h₂.switchOn r
    split
    · exact h₂.keeps (.cancel w₂ .retry (by decide) (by decide))
    · exact h₂
  split
  · exact h₃.keeps (.of_brief rfl)
  · exact h₃

theorem Settled.resetAfterBluezRestart (r : Reading) :
    Settled initially (w.resetAfterBluezRestart r) := by
  unfold World.resetAfterBluezRestart
  extract_lets wasActive wasExternal w₁ w₂ w₃
  have hids : Ids w₂ :=
    Ids.cancel (w := w.supersede.cancelDeadline)
      (Ids.cancel (w := w.supersede) h.sound.ids .deadline) .confirm
  have h₂ : Settled initially w₂ := h.lands
    (h.sound.toBase.leave w₂ rfl rfl rests_off rfl hids (h.sound.told.same rfl rfl) rfl rfl)
  have h₃ : Settled initially w₃ := by
    unfold w₃
    split
    · exact h₂.lands (h₂.sound.lands_probe h₂.on.unhurried r)
    · exact h₂
  split
  · exact h₃.keeps (.scheduleAutoRetry w₃)
  · exact h₃

end

theorem keeps_linkAlive (w : World) (r : Reading) : Keeps w (w.linkAlive r).1 := by
  unfold World.linkAlive
  extract_lets t
  split
  · exact .refl w
  split
  · split
    · exact .refl w
    unfold World.followRename
    extract_lets renamed
    split
    · exact .refl w
    · exact .of_brief rfl
  · exact .refl w

/-! ## Answers -/

/-- The world after a request was answered, before its callback. -/
def World.answered (w : World) (n : Nat) : World := { w with requests := w.requests.take n }

theorem Base.answered (h : Base initially w) (n : Nat) : Base initially (w.answered n) := by
  refine ⟨h.ids, h.told.same rfl rfl, ?_, ?_⟩
  · exact fun m q g hm hof => h.bounded m q g (Slots.holds_take.mp hm).2 hof
  · exact fun m k q q' hm hk hof hof' =>
      h.alone m k q q' (Slots.holds_take.mp hm).2 (Slots.holds_take.mp hk).2 hof hof'

/-- An answer that no state waits for. -/
theorem Sound.answered (h : Sound initially w) (hn : w.requests.Holds n request)
    (hnot : request.of = some w.tether.generation → ¬ request.Stops) :
    Sound initially (w.answered n) := by
  refine ⟨h.toBase.answered n, h.deadline, h.awaiting, ?_, ?_⟩
  · exact fun m q hm hof => h.agrees m q (Slots.holds_take.mp hm).2 hof
  intro hd ha
  obtain ⟨m, q, hm, hof, hstops⟩ := h.stopping hd ha
  refine ⟨m, q, Slots.holds_take.mpr ⟨?_, hm⟩, hof, hstops⟩
  intro hmn
  rw [hmn] at hm
  have hsame : request = q := hn.unique hm
  rw [hsame] at hnot
  exact hnot hof hstops

theorem Backed.answered (h : Backed w) (hn : w.requests.Holds n request)
    (hnot : request ≠ .getAll w.watch.generation) : Backed (w.answered n) := by
  intro ha
  rcases h ha with ⟨m, hm⟩ | hconfirm
  · refine .inl ⟨m, Slots.holds_take.mpr ⟨?_, hm⟩⟩
    intro hmn
    rw [hmn] at hm
    exact hnot (hn.unique hm)
  · exact .inr hconfirm

/-- The answered request was the only one of its generation. -/
theorem Base.answered_out (h : Base initially w) (hn : w.requests.Holds n request)
    (hof : request.of = some w.tether.generation) : ∀ m q, (w.answered n).requests.Holds m q →
      q.of ≠ some w.tether.generation := by
  intro m q hm hq
  obtain ⟨hne, hold⟩ := Slots.holds_take.mp hm
  exact hne (h.alone m n q request hold hn hq hof)

/-- The choice of a backend for the attempt that runs. -/
theorem Settled.chosen (h : Settled initially w)
    (hn : w.requests.Holds n (.chooseConnect w.tether.generation)) :
    Open initially (w.answered n) := by
  have hstate : w.tether.state = .connecting := h.sound.agrees n _ hn rfl
  have hnot : w.tether.state ≠ .disconnecting := by
    rw [hstate]
    decide
  exact ⟨h.sound.toBase.answered n, hstate, h.sound.deadline hstate, h.on.connecting hstate,
    h.sound.quiet hnot, h.sound.toBase.answered_out hn rfl⟩

/-- The answer to the stop that runs, or to the choice of its backend. -/
theorem Sound.closing (h : Sound initially w) (hn : w.requests.Holds n request)
    (hof : request.of = some w.tether.generation) (hstops : request.Stops) :
    Closing initially (w.answered n) := by
  have hagrees := h.agrees n request hn hof
  have hstate : w.tether.state = .disconnecting ∧ w.tether.awaitingLinkDown = false := by
    cases request with
    | chooseStop g e | stop g e => exact hagrees
    | chooseConnect g | attempt g | getAll g => exact hstops.elim
  exact ⟨h.toBase.answered n, hstate.1, hstate.2, h.toBase.answered_out hn hof⟩

/-- The generation of its owner that a request carries is not the current one. -/
def World.Stale (w : World) : Request → Prop
  | .getAll generation => generation ≠ w.watch.generation
  | request => request.of ≠ some w.tether.generation

/-- **A stale callback changes nothing.** -/
theorem reply_stale (h : w.Stale request) (r : Reading) (answer : Answer) :
    w.reply r request answer = w := by
  cases request with
  | attempt g =>
    have hne : g ≠ w.tether.generation := fun hg => h (congrArg some hg)
    cases answer with
    | connected interface => exact if_pos (.inl hne)
    | failed token | lost token userRequested => exact if_pos hne
    | _ => rfl
  | chooseConnect g | chooseStop g external =>
    have hne : g ≠ w.tether.generation := fun hg => h (congrArg some hg)
    cases answer with
    | chosen backend => exact if_pos hne
    | failed token => exact if_pos hne
    | _ => rfl
  | stop g external =>
    have hne : g ≠ w.tether.generation := fun hg => h (congrArg some hg)
    cases answer with
    | done | failed token => exact if_pos hne
    | _ => rfl
  | getAll g =>
    cases answer with
    | link connected interface | error name => exact if_pos h
    | _ => rfl

/-- An attempt that was handed to a backend calls back, and may do so again. -/
theorem Settled.replyAttempt (h : Settled initially w) {generation : Nat}
    (hn : w.requests.Holds n (.attempt generation)) (r : Reading) (answer : Answer) :
    Settled initially (w.reply r (.attempt generation) answer) := by
  cases answer with
  | connected interface => exact h.lands (h.sound.lands_connected h.backed hn r interface)
  | failed token => exact h.lands (h.sound.lands_attemptFailed h.backed hn r token)
  | lost token userRequested =>
    exact h.lands (h.sound.lands_lost h.backed hn r token userRequested)
  | _ => exact h

/-- A stale request is answered. -/
theorem Settled.answeredStale (h : Settled initially w) (hn : w.requests.Holds n request)
    (hstale : w.Stale request) : Settled initially (w.answered n) := by
  have hof : request.of ≠ some w.tether.generation := by
    cases request with
    | getAll g => nofun
    | _ => exact hstale
  have hprobe : request ≠ .getAll w.watch.generation := by
    rintro rfl
    exact hstale rfl
  exact ⟨h.sound.answered hn (fun hcurrent => absurd hcurrent hof), h.backed.answered hn hprobe,
    h.on.connecting, h.on.awaiting, h.on.watching⟩

/-- A request of the current generation is answered. -/
theorem Settled.replyCurrent (h : Settled initially w) (hn : w.requests.Holds n request)
    (hcurrent : ¬ w.Stale request) (hrepeats : request.repeats = false) {answer : Answer}
    (hadmits : request.admits answer = true) (r : Reading) :
    Settled initially ((w.answered n).reply r request answer) := by
  have hon : On w → On (w.answered n) := fun hon => { hon with }
  cases request with
  | chooseConnect g =>
    obtain rfl : g = w.tether.generation := Option.some.inj (not_not.mp hcurrent)
    have hopen := h.chosen hn
    cases answer with
    | chosen backend =>
      have hsame : (w.answered n).reply r (.chooseConnect w.tether.generation)
          (.chosen backend) = (w.answered n).hand r w.tether.generation backend :=
        if_neg (fun hne => hne rfl)
      rw [hsame]
      exact h.lands (.trans hon (hopen.lands_hand r backend))
    | failed token => exact h.lands (.trans hon (hopen.toBase.lands_failed hopen.awaiting r token))
    | _ => cases hadmits
  | attempt g => cases hrepeats
  | chooseStop g external =>
    obtain rfl : g = w.tether.generation := Option.some.inj (not_not.mp hcurrent)
    have hclosing := h.sound.closing hn rfl trivial
    cases answer with
    | chosen backend => exact h.lands (.trans hon (hclosing.lands_runStop r external backend))
    | failed token => exact h.lands (.trans hon (hclosing.lands_disconnectFailed r token))
    | _ => cases hadmits
  | stop g external =>
    obtain rfl : g = w.tether.generation := Option.some.inj (not_not.mp hcurrent)
    have hclosing := h.sound.closing hn rfl trivial
    cases answer with
    | done => exact h.lands (.trans hon (hclosing.lands_disconnected h.on.watching r external))
    | failed token => exact h.lands (.trans hon (hclosing.lands_disconnectFailed r token))
    | _ => cases hadmits
  | getAll g =>
    obtain rfl : g = w.watch.generation := not_not.mp hcurrent
    have hsound := h.sound.answered hn nofun
    cases answer with
    | link connected interface =>
      exact h.lands (.trans hon
        (hsound.lands_probeReplied (hon h.on).unhurried r connected interface))
    | error name =>
      exact h.lands (.trans hon (hsound.lands_probeFailed (hon h.on).unhurried r name))
    | _ => cases hadmits

/-! ## Every run -/

theorem Settled.fired (h : Settled initially w) {armed : Armed} (hn : w.timers.Holds n armed)
    (r : Reading) :
    Settled initially (({ w with timers := w.timers.take n } : World).fire r armed.timer) := by
  obtain ⟨delay, timer⟩ := armed
  generalize hw₁ : ({ w with timers := w.timers.take n } : World) = w₁
  have hon₁ : On w₁ := by
    rw [← hw₁]
    exact ⟨h.on.connecting, h.on.awaiting, h.on.watching⟩
  have hsound (kind : TimerKind) (hother : ∀ generation, timer ≠ .deadline generation) :
      Sound initially (w₁.forget kind) :=
    (Keeps.forget w₁ kind).sound (by rw [← hw₁]; exact h.sound.fired hn (fun _ => hother _))
  have hbacked (kind : TimerKind) (hother : timer ≠ .confirm) : Backed (w₁.forget kind) := by
    rw [← hw₁]
    exact h.backed.fired hn hother
  cases timer with
  | deadline generation =>
    rw [← hw₁]
    exact h.lands (h.sound.lands_deadline h.backed hn r)
  | retry =>
    have hsound := hsound .retry (fun _ => nofun)
    have hlands := hsound.lands_maybeAutoconnect (hbacked .retry nofun) r
    exact { hlands with on := hlands.on ((Keeps.forget w₁ .retry).on hon₁) }
  | confirm =>
    have hsound := hsound .confirm (fun _ => nofun)
    have hon := (Keeps.forget w₁ .confirm).on hon₁
    unfold World.fire
    dsimp only
    split
    · have hlands := hsound.lands_probe hon.unhurried r
      exact { hlands with on := hlands.on hon }
    rename_i hnot
    exact ⟨hsound, fun ha => absurd ha hnot, hon⟩
  | probe generation =>
    have hsound := hsound .probe (fun _ => nofun)
    have hbacked := hbacked .probe nofun
    have hon := (Keeps.forget w₁ .probe).on hon₁
    unfold World.fire
    dsimp only
    split
    · have hlands := hsound.lands_probe hon.unhurried r
      exact { hlands with on := hlands.on hon }
    · exact ⟨hsound, hbacked, hon⟩

theorem settled_step (initially : Bool) (w : World) (i : Input × Reading)
    (h : Settled initially w) : Settled initially (step w i) := by
  obtain ⟨input, r⟩ := i
  cases input with
  | start => exact h.startUp r
  | configure enabled autoconnect => exact h.configure r enabled autoconnect
  | connect => exact h.lands (h.sound.lands_connect h.backed r false nofun)
  | disconnect => exact h.lands (h.sound.lands_disconnect h.backed r)
  | maybeAutoconnect => exact h.lands (h.sound.lands_maybeAutoconnect h.backed r)
  | probeLink =>
    show Settled initially (w.probeLink r)
    unfold World.probeLink
    split
    · exact h.lands (h.sound.lands_probe h.on.unhurried r)
    · exact h
  | linkAlive => exact h.keeps (keeps_linkAlive w r)
  | bluezRestarted => exact h.resetAfterBluezRestart r
  | propertiesChanged network connected interface =>
    exact h.lands
      (h.sound.lands_propertiesChanged h.backed h.on.unhurried r network connected interface)
  | fired n =>
    unfold step
    dsimp only
    split
    · exact h
    rename_i armed hget
    exact h.fired hget r
  | answered n answer =>
    unfold step
    dsimp only
    split
    · exact h
    rename_i request hget
    split
    · exact h
    rename_i hadmits
    have hadmits' : request.admits answer = true := by simpa using hadmits
    split
    · rename_i hrepeats
      cases request with
      | attempt g => exact h.replyAttempt hget r answer
      | _ => cases hrepeats
    rename_i hrepeats
    by_cases hstale : w.Stale request
    · have hstale' : (w.answered n).Stale request := by
        cases request with
        | getAll g => exact hstale
        | _ => exact hstale
      have hsame := reply_stale hstale' r answer
      unfold World.answered at hsame
      rw [hsame]
      exact h.answeredStale hget hstale
    · exact h.replyCurrent hget hstale (by simpa using hrepeats) hadmits' r

section

variable (enabled autoconnect autoSuppressed : Bool)

theorem settled_start : Settled autoSuppressed (.start enabled autoconnect autoSuppressed) := by
  refine ⟨⟨⟨?_, ⟨rfl, trivial⟩, ?_, ?_⟩, ?_, ?_, ?_, ?_⟩, ?_, ?_, ?_, ?_⟩
  · intro kind n hid
    cases hid
  · intro n request g hn
    cases hn
  · intro n m request request' hn
    cases hn
  · intro hc
    cases hc
  · intro ha
    cases ha
  · intro n request hn
    cases hn
  · intro hd
    cases hd
  · intro ha
    cases ha
  · intro hc
    cases hc
  · intro ha
    cases ha
  · intro hw
    cases hw

/-- A controller after a run. -/
def World.after (inputs : List (Input × Reading)) : World :=
  Machine.run step (.start enabled autoconnect autoSuppressed) inputs

theorem settled_run (inputs : List (Input × Reading)) :
    Settled autoSuppressed (World.after enabled autoconnect autoSuppressed inputs) := by
  have hany : Machine.Along step (fun _ _ => True) (.start enabled autoconnect autoSuppressed)
      inputs := Machine.along_of_forall step (fun _ _ => trivial) _ inputs
  exact Machine.invariant step (fun w i _ => settled_step autoSuppressed w i) hany
    (settled_start enabled autoconnect autoSuppressed)

end

/-- **The tether settles.** In every state of a run, an attempt has its deadline; a stop is
unanswered, be it that its backend is still being chosen, or the end of the link is waited for with
a read unanswered or a second look armed. Attempts are handed to a backend and links adopted only
while the feature is on, an automatic attempt begins only while automatic tethering is on and the
user has not ended the tether since, and a callback of an older generation changes nothing. -/
theorem tether_settles (enabled autoconnect autoSuppressed : Bool)
    (inputs : List (Input × Reading)) :
    let w := World.after enabled autoconnect autoSuppressed inputs
    (w.tether.state = .connecting → w.IsArmed (.deadline w.tether.generation)) ∧
      (w.tether.state = .disconnecting → w.StopUnanswered ∨
        (w.tether.awaitingLinkDown = true ∧ (w.ProbeUnanswered ∨ w.IsArmed .confirm))) ∧
      Trace.Each (Due autoSuppressed) w.log ∧
      ∀ n request answer r, w.requests.Holds n request → w.Stale request →
        step w (.answered n answer, r) = w ∨ step w (.answered n answer, r) = w.answered n := by
  intro w
  have h : Settled autoSuppressed w := settled_run enabled autoconnect autoSuppressed inputs
  refine ⟨h.sound.deadline, ?_, h.sound.told.due, ?_⟩
  · intro hd
    by_cases ha : w.tether.awaitingLinkDown = true
    · exact .inr ⟨ha, h.backed ha⟩
    · exact .inl (h.sound.stopping hd (by simpa using ha))
  intro n request answer r hn hstale
  have hget : w.requests.get n = some request := hn
  unfold step
  dsimp only
  rw [hget]
  dsimp only
  split
  · exact .inl rfl
  split
  · exact .inl (reply_stale hstale r answer)
  have hstale' : (w.answered n).Stale request := by
    cases request with
    | getAll g => exact hstale
    | _ => exact hstale
  exact .inr (reply_stale hstale' r answer)

end BlueFerry.Tether
