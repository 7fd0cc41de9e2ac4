import BlueFerry.Bearers.Orderly

/-! # One request at a time

In every run of the supervisor: at most one bearer is being connected, a Connect is issued only in
the open, the dial of LE is told of, what is being connected ends, and late answers change nothing.
-/

namespace BlueFerry.Bearers

theorem orderly_run (leEnabled : Bool) (now : ℚ) (inputs : List (Input × Reading)) :
    Orderly (fun _ _ _ => False) (World.after leEnabled now inputs).core := by
  have hany : Machine.Along step (fun _ _ => True) (.start leEnabled now) inputs :=
    Machine.along_of_forall step (fun _ _ => trivial) _ inputs
  exact Machine.invariant step (P := fun w => Orderly (fun _ _ _ => False) w.core)
    (fun w i _ h => (h.later i.2.now).moves (moves_step w i)) hany (Orderly.start leEnabled now)

/-! ## Observations settle -/

/-- LE is not being connected, and will not be. -/
def NoLe (w : World) : Prop := .le ∉ w.supervisor.connecting

variable {w : World}

theorem Quiet.connecting {w' : World} (h : Quiet w w') :
    w'.supervisor.connecting = w.supervisor.connecting := by
  obtain ⟨t, -, hcore⟩ := h
  exact congrArg Core.connecting hcore

theorem NoLe.quiet {w' : World} (h : NoLe w) (hq : Quiet w w') : NoLe w' := by
  unfold NoLe
  rw [hq.connecting]
  exact h

theorem endConnect_connecting (w : World) (kind : Kind) :
    (w.endConnect kind).supervisor.connecting = w.supervisor.connecting.erase kind := by
  obtain ⟨t, -, hcore⟩ := core_endConnect w kind
  exact congrArg Core.connecting hcore

theorem NoLe.endConnect (h : NoLe w) (kind : Kind) : NoLe (w.endConnect kind) := by
  unfold NoLe
  rw [endConnect_connecting]
  exact fun hmem => h (Finset.mem_of_mem_erase hmem)

theorem NoLe.connectSucceeded (h : NoLe w) (kind : Kind) (generation id : Nat) :
    NoLe (w.connectSucceeded kind generation id) := by
  unfold World.connectSucceeded
  split
  · exact h
  extract_lets w₁ w₂ w₃
  have h₂ : NoLe w₂ := (h.endConnect kind).quiet (.of_eq rfl)
  have h₃ : NoLe w₃ := by
    unfold w₃
    split
    · exact h₂.quiet (quiet_restoreLePreference w₂)
    · exact h₂
  exact h₃.quiet (quiet_recordFailure w₃ kind false)

theorem NoLe.giveUpConnect (h : NoLe w) (kind : Kind) (e : Failure) :
    NoLe (w.giveUpConnect kind e) := by
  unfold World.giveUpConnect
  extract_lets w₁
  have h₁ : NoLe w₁ := h.endConnect kind
  split
  · exact h₁.quiet (.of_eq rfl)
  · exact h₁.quiet ((quiet_recordFailure w₁ kind true).trans (.of_eq rfl))

/-- A Connect of Classic that is refused at once does not turn to LE. -/
theorem NoLe.connectFailedWith (h : NoLe w) (e : Failure) (generation id : Nat) :
    NoLe (w.connectFailedWith (fun w => (w, none)) .bredr e generation id) := by
  unfold World.connectFailedWith
  split
  · exact h
  split
  · exact h
  split
  · split
    · dsimp only
      split
      · exact h.connectSucceeded .bredr generation id
      · exact h.giveUpConnect .bredr e
    · exact h.connectSucceeded .bredr generation id
  · exact h.giveUpConnect .bredr e

theorem NoLe.callConnect (h : NoLe w) (generation id : Nat) :
    NoLe (w.callConnect (World.connectFailedWith fun w => (w, none)) .bredr generation id) := by
  unfold World.callConnect
  extract_lets issued
  have hissued : NoLe issued := h
  split
  · exact hissued.connectFailedWith _ generation id
  · exact hissued

theorem NoLe.retargetPendingClassicConnect (h : NoLe w) : NoLe w.retargetPendingClassicConnect := by
  unfold World.retargetPendingClassicConnect
  split
  · exact h
  generalize hw₁ : World.set (w.clearConnectRequest .bredr) _ = w₁
  have h₁ : NoLe w₁ := by
    rw [← hw₁]
    exact fun hmem => h (Finset.mem_of_mem_erase hmem)
  unfold World.requestConnectWith
  split
  · exact h₁
  dsimp -zeta only
  extract_lets generation id targeted w₂
  have h₂ : NoLe w₂ := by
    intro hmem
    rcases Finset.mem_insert.mp hmem with hbad | hold
    · cases hbad
    · exact h₁ hold
  split
  · exact h₂.callConnect generation id
  unfold World.preferClassic
  split
  · have hwait : NoLe w₂.wait := h₂
    exact hwait.connectFailedWith _ generation id
  generalize hw₃ : World.set w₂.wait _ = w₃
  have h₃ : NoLe w₃ := by
    rw [← hw₃]
    exact h₂
  exact h₃.callConnect generation id

theorem noteState_connecting (w : World) (kind : Kind) (value : Option Bool) :
    (w.noteState kind value).supervisor.connecting = w.supervisor.connecting := by
  unfold World.noteState
  cases kind with
  | bredr => rfl
  | le =>
    dsimp -zeta only
    extract_lets previous w₁ w₂ w₃
    split
    · rfl
    · rfl

/-- **An observation settles a Connect that BlueZ said is in progress**: the bearer is connected, or
the deadline has passed. -/
theorem settles {kind : Kind} {deadline : ℚ} {value : Option Bool}
    (h : w.supervisor.connectObservationDeadlines kind = some deadline)
    (hvalue : value = some true ∨ deadline ≤ w.now) (deliberate notifyStatus : Bool) :
    kind ∉ (w.updateState kind value deliberate notifyStatus).supervisor.connecting := by
  unfold World.updateState
  extract_lets w₁ previous w₂ w₃ w₄ w₅
  have h₁ : kind ∉ w₁.supervisor.connecting := by
    have hended : kind ∉ (w.endConnect kind).supervisor.connecting := by
      rw [endConnect_connecting]
      exact Finset.notMem_erase _ _
    unfold w₁ World.settleInProgressConnect
    rw [h]
    dsimp only
    rw [if_neg (by
      rintro ⟨hnot, hearly⟩
      rcases hvalue with hconnected | hpassed
      · exact hnot hconnected
      · exact absurd hearly (not_lt.mpr hpassed))]
    split
    · exact hended
    rw [(quiet_recordFailure (w.endConnect kind) kind true).connecting]
    exact hended
  have hq : Quiet w₂ w₅ :=
    (quiet_noteTransition w₂ kind previous value deliberate).trans
      ((quiet_noteDwell w₃ kind value).trans (quiet_tellState w₄ kind previous value notifyStatus))
  have h₅ : kind ∉ w₅.supervisor.connecting := by
    rw [hq.connecting, noteState_connecting]
    exact h₁
  split
  · rename_i hle
    obtain ⟨hkind, -⟩ := hle
    have hno : NoLe w₅ := fun hmem => h₅ (hkind ▸ hmem)
    exact fun hmem => hno.retargetPendingClassicConnect (hkind ▸ hmem)
  · exact h₅

/-! ## Late answers -/

/-- The request is of an older generation, or superseded. -/
def BearerSupervisor.Stale (s : BearerSupervisor) : Request → Prop
  | .connect kind generation id => generation ≠ s.generation ∨ s.connectRequestIds kind ≠ some id
  | .disconnect _ generation => generation ≠ s.generation

/-- **The answer to a stale request changes nothing.** -/
theorem reply_stale {request : Request} (h : w.supervisor.Stale request)
    (error : Option Failure) : w.reply request error = w := by
  cases request with
  | connect kind generation id =>
    have hnot : (!w.supervisor.connectRequestIsCurrent kind generation id) = true := by
      simp only [BearerSupervisor.connectRequestIsCurrent, Bool.not_eq_true',
        Bool.and_eq_false_iff, decide_eq_false_iff_not]
      exact h
    cases error with
    | none | some e => exact if_pos hnot
  | disconnect target generation =>
    have hgen : generation ≠ w.supervisor.generation := h
    cases target with
    | le =>
      cases error with
      | none | some e => exact if_pos hgen
    | device =>
      cases error with
      | none | some e => exact if_pos (Or.inl hgen)

/-! ## Every run -/

/-- A bearer that is being connected waits for the answer to its current request, or for an
observation that settles it. -/
def World.Ends (w : World) (kind : Kind) : Prop :=
  (∃ n id, w.requests.Holds n (.connect kind w.supervisor.generation id) ∧
      w.supervisor.connectRequestIds kind = some id) ∨
    ∃ deadline, w.supervisor.connectObservationDeadlines kind = some deadline ∧
      ∀ r value deliberate notifyStatus, value = some true ∨ deadline ≤ r.now →
        kind ∉ ((w.hear r).updateState kind value deliberate notifyStatus).supervisor.connecting

/-- **One request at a time.** A Connect is issued while BlueZ is not blocked, no profile call or
profile reset is running, and every Disconnect of the same generation is answered. -/
theorem one_at_a_time (leEnabled : Bool) (now : ℚ) (inputs : List (Input × Reading)) :
    let w := World.after leEnabled now inputs
    w.supervisor.connecting.card ≤ 1 ∧
      (∀ kind m, .connect kind m ∈ w.deeds →
        m.blocked = false ∧ m.busy = false ∧ m.resetting = false ∧ m.ownUnanswered = false) ∧
      (w.supervisor.leDialActive = true ↔ .le ∈ w.supervisor.connecting) ∧
      (∀ kind ∈ w.supervisor.connecting, w.Ends kind) ∧
      ∀ n request error r, w.requests.Holds n request → w.supervisor.Stale request →
        (step w (.replied n error, r)).supervisor = w.supervisor ∧
          (step w (.replied n error, r)).budget = w.budget ∧
          (step w (.replied n error, r)).timers = w.timers ∧
          (step w (.replied n error, r)).deeds = w.deeds := by
  intro w
  have h : Orderly (fun _ _ _ => False) w.core := orderly_run leEnabled now inputs
  refine ⟨?_, ?_, h.dial, ?_, ?_⟩
  · exact Finset.card_le_one.mpr h.alone
  · intro kind m hm
    have hclear := h.clear kind m hm
    exact ⟨hclear.blocked, hclear.busy, hclear.resetting, hclear.own⟩
  · intro kind hkind
    obtain ⟨id, hid, hspared | hdeadline | ⟨n, hn⟩⟩ := h.known kind hkind
    · exact hspared.elim
    · obtain ⟨deadline, hdeadline⟩ := Option.isSome_iff_exists.mp hdeadline
      refine Or.inr ⟨deadline, hdeadline, fun r value deliberate notifyStatus hvalue => ?_⟩
      have hheard : (w.hear r).supervisor.connectObservationDeadlines kind = some deadline :=
        hdeadline
      exact settles hheard hvalue deliberate notifyStatus
    · exact Or.inl ⟨n, id, hn, hid⟩
  intro n request error r hn hstale
  have hget : w.requests.get n = some request := hn
  have hstep : step w (.replied n error, r) =
      { w.hear r with requests := w.requests.take n } := by
    have hlook : (w.hear r).requests.get n = some request := hget
    have hstale' : ({ w.hear r with requests := w.requests.take n } :
      World).supervisor.Stale request := hstale
    have hreply := reply_stale hstale' error
    unfold step World.handle
    dsimp only
    rw [hlook]
    exact hreply
  rw [hstep]
  exact ⟨rfl, rfl, rfl, rfl⟩

/-- Every read of a bearer says this. -/
def Reading.of (now : ℚ) (connected : Bool) : Reading :=
  ⟨now, {}, fun _ => { reply := .property connected }⟩

/-- The supervisor is stopped while it waits for a Disconnect of LE, and started again. -/
def acrossStop : List (Input × Reading) :=
  [(.start, .of 100 true), (.recoverLeTransport false none, .of 101 true), (.stop, .of 102 true),
    (.start, .of 103 false)]

/-- A stop forgets the Disconnect that is not answered yet, and the next start connects. -/
theorem stop_forgets_disconnect :
    ¬ ∀ kind m, .connect kind m ∈ (World.after true 0 acrossStop).deeds → m.unanswered = false := by
  intro h
  have hissued := h .bredr ⟨false, false, false, true, false⟩ (by decide +kernel)
  cases hissued

end BlueFerry.Bearers
