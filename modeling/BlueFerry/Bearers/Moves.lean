import BlueFerry.Bearers.ConnectMoves
import BlueFerry.Lib.Machine

/-! # Every step is made of moves

One lemma for each method of the supervisor, up to `moves_handle`.
-/

namespace BlueFerry.Bearers

/-! ## Resets of LE -/

theorem moves_completeLeReset (w : World) :
    Moves (w.core.setReset false 0) w.completeLeReset.core := by
  unfold World.completeLeReset
  extract_lets downSeen w₁ w₂
  have h₁ : w₁.core = w.core.setReset false 0 := rfl
  have h₂ : Moves w₁.core w₂.core := by
    unfold w₂
    split
    · exact .refl _
    · exact moves_updateState w₁ .le (some false) true true
  rw [h₁] at h₂
  split
  · exact h₂.quiet (quiet_scheduleLeConnect w₂)
  · exact h₂

/-- A Disconnect of LE can end here, whatever becomes of the reset. -/
def EndsLe (c : Core) (w : World) : Prop :=
  ∀ pending failures, pending = false ∨ failures ≠ 0 →
    Moves c (w.core.endDisconnect.setReset pending failures)

variable {c : Core} {w : World}

/-- Without a reset, nothing follows the Disconnect. -/
theorem EndsLe.quiet (h : EndsLe c w) (hpending : w.supervisor.leResetPending = false) :
    Moves c (w.core.endDisconnect.setReset w.supervisor.leResetPending
      w.supervisor.leResetFailures) := by
  rw [hpending]
  exact h false _ (Or.inl rfl)

theorem moves_disconnectSucceeded (h : EndsLe c w) :
    Moves c (w.disconnectSucceeded w.supervisor.generation).core := by
  unfold World.disconnectSucceeded
  rw [if_neg (by simp)]
  extract_lets w₁
  split
  · rename_i hnot
    have hnot : (!w.supervisor.leResetPending) = true := hnot
    exact h.quiet (by simpa using hnot)
  · exact (h false 0 (Or.inl rfl)).trans (moves_completeLeReset w₁)

theorem moves_disconnectFailed (h : EndsLe c w) (e : Failure) :
    Moves c (w.disconnectFailed e w.supervisor.generation).core := by
  unfold World.disconnectFailed
  rw [if_neg (by simp)]
  extract_lets w₁
  split
  · rename_i hnot
    have hnot : (!w.supervisor.leResetPending) = true := hnot
    exact h.quiet (by simpa using hnot)
  · split
    · exact (h false 0 (Or.inl rfl)).trans (moves_completeLeReset w₁)
    · exact h w.supervisor.leResetPending (w.supervisor.leResetFailures + 1) (Or.inr (by omega))

theorem moves_callLeDisconnect {force : Bool} (hpays : w.core.PaysDisconnect force)
    (hout : .le ∉ w.core.disconnecting) : Moves w.core (w.callLeDisconnect force).core := by
  unfold World.callLeDisconnect
  extract_lets w₁ generation issued
  have hlater : w.core.now ≤ issued.now := (quiet_wait w₁).le
  split
  · rename_i e _
    have hends : EndsLe w.core issued := by
      intro pending failures hstop
      have herase : issued.core.disconnecting.erase .le = w.core.disconnecting :=
        Finset.erase_insert hout
      rw [Core.endDisconnect, herase]
      exact (Moves.raisedLeDisconnect hpays hout pending failures hstop).trans (.wait hlater)
    exact moves_disconnectFailed hends e
  · exact (Moves.sentLeDisconnect hpays hout).trans (.wait hlater)

theorem moves_requestLeDisconnect {force : Bool} (h : force = true ∨ w.core.resetPending = true) :
    Moves w.core (w.requestLeDisconnect force).core := by
  unfold World.requestLeDisconnect
  extract_lets s
  split
  · exact .refl _
  split
  · exact .refl _
  rename_i hfree
  have hout : .le ∉ w.core.disconnecting := fun hin => hfree (Or.inl hin)
  cases force with
  | true => exact moves_callLeDisconnect (Or.inl rfl) hout
  | false =>
    have hpending : w.core.resetPending = true := by simpa using h
    rw [if_neg (by simp)]
    split
    · exact .refl _
    split
    · rename_i hfirst
      exact moves_callLeDisconnect (Or.inr (Or.inl ⟨hpending, hfirst⟩)) hout
    rename_i hagain
    obtain ⟨⟨budget, granted⟩, htake⟩ : ∃ taken, w.budget.take w.now = taken := ⟨_, rfl⟩
    cases granted with
    | false =>
      rw [take_refused htake]
      exact .refused htake
    | true =>
      rw [take_granted htake]
      dsimp -zeta only
      rw [if_pos rfl]
      generalize hw₁ : World.did _ _ = w₁
      have hgranted : Moves w.core w₁.core := by
        rw [← hw₁]
        exact .granted htake
      have hout₁ : .le ∉ w₁.core.disconnecting := by
        rw [← hw₁]
        exact hout
      have hpays : w₁.core.PaysDisconnect false := by
        rw [← hw₁]
        exact Or.inr (Or.inr ⟨hagain, w.now, w.deeds, rfl⟩)
      exact hgranted.trans (moves_callLeDisconnect hpays hout₁)

section

variable (w : World)

theorem moves_resetLe : Moves (w.core.setReset true w.core.resetFailures) w.resetLe.core := by
  unfold World.resetLe
  extract_lets w₁
  obtain ⟨w₀, hw₀⟩ :
      ∃ w₀, (w.set fun s => { s with leDialSpent := false, leResetPending := true }) = w₀ := ⟨_, rfl⟩
  have h₀ : w₀.core = w.core.setReset true w.core.resetFailures := by
    rw [← hw₀]
    rfl
  have hw₁ : w₁ = w₀.cancelLeSettle := by rw [← hw₀]
  have hq : Quiet w₀ w₁ := hw₁ ▸ quiet_cancelLeSettle w₀
  have hpending : w₁.core.resetPending = true := by
    obtain ⟨t, -, hcore⟩ := hq
    rw [hcore, h₀]
    rfl
  rw [← h₀]
  split
  · exact hq.moves.trans (moves_requestLeDisconnect (Or.inr hpending))
  · exact hq.moves

theorem moves_recoverLeTransport (allowDisconnected : Bool) (since : Option ℚ) :
    Moves w.core (w.recoverLeTransport allowDisconnected since).1.core := by
  unfold World.recoverLeTransport
  extract_lets wanted w₁ s
  have h₁ : w₁.core = w.core := rfl
  split
  · exact .refl _
  split
  · exact .refl _
  split
  · exact .refl _
  split
  · rename_i hpending
    have hreset := moves_resetLe w₁
    have hsame : w₁.core.setReset true w₁.core.resetFailures = w.core := by
      have hp : w.core.resetPending = true := hpending
      rw [h₁, ← hp]
      rfl
    rw [hsame] at hreset
    exact hreset
  obtain ⟨⟨budget, granted⟩, htake⟩ : ∃ taken, w₁.budget.take w₁.now = taken := ⟨_, rfl⟩
  cases granted with
  | false =>
    rw [take_refused htake]
    dsimp -zeta only
    rw [if_neg (by simp)]
    split <;> exact .refused htake
  | true =>
    rw [take_granted htake]
    dsimp -zeta only
    rw [if_pos rfl]
    generalize hw₂ : World.set (World.did _ _) _ = w₂
    have h₂ : w₂.core.setReset true w₂.core.resetFailures =
        (({ w₁.core with budget := budget } : Core).did
          (.budget (.granted w₁.now))).setReset true w₁.core.resetFailures := by
      rw [← hw₂]
      rfl
    exact (Moves.pendReset htake).trans (h₂ ▸ moves_resetLe w₂)

/-! ## Polls -/

theorem moves_connectDown (bredr le : Option Bool) :
    Moves w.core (w.connectDown bredr le).core := by
  unfold World.connectDown
  extract_lets w₁ w₂
  have h₁ : Quiet w w₁ := by
    unfold w₁
    split
    · exact quiet_cancelLeSettle w
    · exact .refl w
  split
  · exact h₁.moves.trans (moves_requestConnect w₁ .bredr)
  split
  · have h₂ : Quiet w w₂ := h₁.trans (quiet_restoreLePreference w₁)
    split
    · exact h₂.moves
    · exact (h₂.trans (quiet_scheduleLeConnect w₂)).moves
  · split
    · exact (h₁.trans (quiet_cancelLeSettle w₁)).moves
    · exact h₁.moves

theorem moves_pursueReset (bredr le : Option Bool) :
    Moves w.core (w.pursueReset bredr le).core := by
  unfold World.pursueReset
  split
  · rename_i hpending
    split
    · exact ((Moves.completed w.core).trans (moves_completeLeReset w)).trans
        (moves_connectDown _ bredr _)
    · exact moves_requestLeDisconnect (Or.inr hpending.1)
    · exact .refl _
  · exact moves_connectDown w bredr le

theorem moves_tick : Moves w.core w.tick.core := by
  unfold World.tick
  split
  · exact .refl _
  have hrefresh : Moves w.core w.refreshStates.1.core := moves_refreshStates w
  split
  rename_i w₁ bredr le hw₁
  rw [hw₁] at hrefresh
  extract_lets w₂
  have h₂ : Moves w.core w₂.core := hrefresh.quiet (quiet_ageLeEvidence w₁)
  split
  · exact h₂
  split
  · exact h₂
  split
  · exact h₂.trans (moves_pursueReset w₂ bredr le)
  rename_i allowDisconnected _
  extract_lets w₃
  have h₃ : Moves w.core w₃.core := h₂.trans (moves_recoverLeTransport w₂ allowDisconnected none)
  split
  · exact h₃
  · exact h₃.trans (moves_pursueReset w₃ bredr le)

theorem moves_tickIfRunning : Moves w.core w.tickIfRunning.core := by
  unfold World.tickIfRunning
  split
  · exact moves_tick w
  · exact .refl _

theorem moves_connectLeAfterSettle : Moves w.core w.connectLeAfterSettle.core := by
  unfold World.connectLeAfterSettle
  extract_lets w₁
  have h₁ : Quiet w w₁ := .of_eq rfl
  split
  · exact h₁.moves
  have hrefresh : Moves w₁.core w₁.refreshStates.1.core := moves_refreshStates w₁
  split
  rename_i w₂ bredr le hw₂
  rw [hw₂] at hrefresh
  have h₂ : Moves w.core w₂.core := h₁.moves.trans hrefresh
  split
  · exact (h₂.quiet (quiet_restoreLePreference w₂)).trans (moves_requestConnect _ .le)
  split
  · exact h₂.trans (moves_requestConnect w₂ .bredr)
  · exact h₂

/-! ## Reconnects and profile resets -/

theorem moves_reconnectNow : Moves w.core w.reconnectNow.1.core := by
  unfold World.reconnectNow
  extract_lets s w₁ w₂
  split
  · exact .refl _
  split
  · exact .refl _
  split
  · exact .refl _
  split
  · exact .refl _
  split
  · exact .refl _
  have h₁ : Quiet w w₁ := .of_eq rfl
  have h₂ : Quiet w w₂ := h₁.trans (.of_eq rfl)
  exact (h₂.trans (quiet_publishReconnect w₂)).moves

theorem moves_manualDial : Moves w.core w.manualDial.core := by
  unfold World.manualDial
  extract_lets w₁
  have h₁ : Quiet w w₁ := .of_eq rfl
  split
  · exact h₁.moves
  · exact (h₁.moves.trans (moves_requestConnect w₁ .bredr)).quiet (quiet_publishReconnect _)

end

/-- A Disconnect of the device can end here, whatever becomes of the reset of the profiles. -/
def EndsDevice (c : Core) (w : World) : Prop :=
  ∀ phase, phase ≠ some .disconnecting → Moves c (w.core.setPhase phase)

theorem moves_profileResetDisconnected (h : EndsDevice c w)
    (hphase : w.core.phase = some .disconnecting) :
    Moves c (w.profileResetDisconnected w.supervisor.generation).core := by
  unfold World.profileResetDisconnected
  extract_lets s
  rw [if_neg (by
    rintro (hgen | hnot)
    · exact hgen rfl
    · exact hnot hphase)]
  exact h (some .settling) (by simp)

theorem moves_profileResetDisconnectFailed (h : EndsDevice c w)
    (hphase : w.core.phase = some .disconnecting) (e : Failure) :
    Moves c (w.profileResetDisconnectFailed e w.supervisor.generation).core := by
  unfold World.profileResetDisconnectFailed
  extract_lets s
  rw [if_neg (by
    rintro (hgen | hnot)
    · exact hgen rfl
    · exact hnot hphase)]
  split
  · exact moves_profileResetDisconnected h hphase
  generalize hw₁ : World.set w _ = w₁
  have hmove : Moves c w₁.core := by
    rw [← hw₁]
    exact h none (by simp)
  exact hmove.quiet (quiet_publishReconnect w₁)

theorem moves_callDeviceDisconnect {t : ℚ} (hnone : c.phase = none)
    (ht : c.now ≤ t) (hcore : w.core = (c.later t).setPhase (some .disconnecting)) :
    Moves c w.callDeviceDisconnect.core := by
  unfold World.callDeviceDisconnect
  extract_lets generation issued
  have hlater : Moves c (c.later issued.now) := by
    have hnow : w.now = t := congrArg Core.now hcore
    exact .wait (ht.trans (hnow ▸ (quiet_wait w).le))
  have hnone' : (c.later issued.now).phase = none := hnone
  have hissued : issued.core =
      ((c.later issued.now).setPhase (some .disconnecting)).did (.disconnect .device false) := by
    have hdid : issued.core = (w.core.did (.disconnect .device false)).later issued.now := rfl
    rw [hdid, hcore]
    rfl
  have hgen : generation = c.generation := congrArg Core.generation hcore
  split
  · rename_i e _
    have hends : EndsDevice c issued := by
      intro phase hphase
      rw [hissued]
      exact hlater.trans (.raisedDeviceDisconnect hnone' phase hphase)
    refine moves_profileResetDisconnectFailed hends ?_ e
    rw [hissued]
    rfl
  have hsent : (issued.await (.disconnect .device generation)).core =
      issued.core.send (.disconnect .device c.generation) := by
    rw [← hgen]
    rfl
  rw [hsent, hissued]
  exact hlater.trans (.sentDeviceDisconnect hnone')

section

variable (w : World)

theorem moves_resetProfiles : Moves w.core w.resetProfiles.1.core := by
  unfold World.resetProfiles
  extract_lets s w₁
  split
  · exact .refl _
  split
  · exact .refl _
  split
  · exact .refl _
  rename_i hfree
  split
  · exact .refl _
  have hnone : w.supervisor.profileResetPhase = none := by
    cases hphase : w.supervisor.profileResetPhase with
    | none => rfl
    | some phase => exact absurd (Or.inl (by simp [s, hphase])) hfree
  obtain ⟨t, ht, hcancel⟩ := quiet_cancelLeSettle w
  have h₁ : w₁.core = (w.core.later t).setPhase (some .disconnecting) := by
    rw [← hcancel]
    rfl
  obtain ⟨u, hu, hpublish⟩ := quiet_publishReconnect w₁
  rw [h₁] at hpublish
  have hnow : w₁.now = t := congrArg Core.now h₁
  exact moves_callDeviceDisconnect hnone (ht.trans (hnow ▸ hu)) hpublish

theorem moves_profileResetReconnect : Moves w.core w.profileResetReconnect.core := by
  unfold World.profileResetReconnect
  extract_lets w₁ w₂
  have h₁ : w₁.core = w.core := rfl
  split
  · exact .refl _
  rename_i hsettling
  have hphase : w.core.phase = some .settling := not_not.mp hsettling
  have h₂ : Moves w.core w₂.core := .settled hphase
  split
  · exact h₂.quiet (quiet_publishReconnect w₂)
  have hread : Quiet w₂ (w₂.read .bredr).1 := quiet_read w₂ .bredr
  split
  rename_i w₃ bredr hw₃
  rw [hw₃] at hread
  extract_lets w₄
  have h₄ : Moves w.core w₄.core :=
    (h₂.quiet hread).trans (moves_updateState w₃ .bredr bredr false true)
  have hread' : Quiet w₄ (w₄.read .le).1 := quiet_read w₄ .le
  split
  rename_i w₅ le hw₅
  rw [hw₅] at hread'
  extract_lets w₆
  have h₆ : Moves w.core w₆.core := (h₄.quiet hread').trans (moves_updateState w₅ .le le false true)
  split
  · exact h₆.quiet (quiet_publishReconnect w₆)
  exact ((h₆.quiet (quiet_forgiveClassic w₆)).trans (moves_requestConnect _ .bredr)).quiet
    (quiet_publishReconnect _)

/-! ## Signals -/

theorem moves_observeSignalledLe (connected : Bool) :
    Moves w.core (w.observeSignalledLe connected).core := by
  unfold World.observeSignalledLe
  split
  · exact .refl _
  · exact moves_updateState w .le (some connected) true false

theorem moves_onLeDisconnectedSignal (name : BlueFerry.Text.Str) :
    Moves w.core (w.onLeDisconnectedSignal name).core := by
  unfold World.onLeDisconnectedSignal
  split
  · exact .refl _
  · exact (quiet_setFlaps w _).moves.trans (moves_observeSignalledLe _ false)

theorem quiet_clearFlapsIf (bonded : Bool) : Quiet w (w.clearFlapsIf bonded) := by
  unfold World.clearFlapsIf
  split
  · exact quiet_setFlaps w _
  · exact .refl w

theorem moves_onLePropertiesChanged (changed : Changed) :
    Moves w.core (w.onLePropertiesChanged changed).core := by
  unfold World.onLePropertiesChanged
  split
  · exact .refl _
  split
  · rename_i rssi bonded
    refine Quiet.moves (Quiet.after (quiet_clearFlapsIf _ bonded) ?_)
    split
    · exact quiet_notePresence w true
    · exact .refl w
  split
  · exact (quiet_clearFlapsIf w _).moves
  rename_i connected
  extract_lets w₁
  have h₁ : Quiet w w₁ := .of_eq rfl
  exact (h₁.moves.trans (moves_observeSignalledLe w₁ connected)).quiet (quiet_clearFlapsIf _ _)

theorem moves_onBredrDisconnectedSignal (name : BlueFerry.Text.Str) :
    Moves w.core (w.onBredrDisconnectedSignal name).core := by
  unfold World.onBredrDisconnectedSignal
  extract_lets s
  split
  · exact .refl _
  split
  · exact .refl _
  split
  · exact (quiet_enterBredrResting w).moves
  · exact .refl w.core

/-! ## The life of the supervisor -/

theorem moves_startUp : Moves w.core w.startUp.core := by
  unfold World.startUp
  split
  · exact .refl _
  extract_lets w₁
  have hrun : Quiet w (w.set fun s => { s with running := true }) := .of_eq rfl
  have h₁ : Moves w.core w₁.core := hrun.moves.trans (moves_tick _)
  exact h₁.quiet (.of_eq rfl)

theorem moves_enableLe : Moves w.core w.enableLe.core := by
  unfold World.enableLe
  split
  · exact .refl _
  extract_lets w₁ w₂
  have h₁ : Quiet w w₁ := .of_eq rfl
  have h₂ : Quiet w w₂ := by
    unfold w₂
    split
    · exact h₁
    have hpending :
        Quiet w₁ (w₁.set fun s => { s with lePreferenceRestorePending := true }) := .of_eq rfl
    exact h₁.trans (hpending.trans (quiet_restoreLePreference _))
  exact h₂.moves.trans (moves_tickIfRunning w₂)

theorem moves_holdLe : Moves w.core w.holdLe.core := by
  unfold World.holdLe
  extract_lets w₁
  have h₁ : Quiet w w₁ := (quiet_cancelLeSettle _).after (.of_eq rfl)
  split
  · exact h₁.moves.trans (moves_requestLeDisconnect (Or.inl rfl))
  · exact h₁.moves

theorem core_abortProfileReset : w.abortProfileReset.core = w.core.setPhase none := by
  rw [← core_cancel w w.supervisor.profileResetId]
  rfl

theorem moves_stop : Moves w.core w.stop.core := by
  unfold World.stop
  extract_lets w₁ w₂ w₃ w₄ w₅
  obtain ⟨t, ht, hdial⟩ := core_setLeDialActive w₁ false
  have h₂ : w₂.core.setPhase none = (w.core.renewed w.core.resetFailures).later t := by
    have hset : w₂.core = (w₁.setLeDialActive false).core.setReset false
      (w₁.setLeDialActive false).core.resetFailures := rfl
    rw [hset, hdial]
    rfl
  have h₄ : w₄.core = w₂.core := by
    have hset : w₄.core = (w₃.cancel w₃.supervisor.manualDialId).core := rfl
    rw [hset, core_cancel]
    exact core_cancelLeSettle w₂
  have h₅ : w₅.core = w₄.abortProfileReset.core := rfl
  have hlast : ((w₅.cancel w₅.supervisor.timerId).set fun s => { s with timerId := none }).core =
      w₅.core := core_cancel w₅ w₅.supervisor.timerId
  rw [hlast, h₅, core_abortProfileReset, h₄, h₂]
  exact (Moves.renewed w.core w.core.resetFailures).trans (.wait ht)

theorem moves_resetAfterBluezRestart : Moves w.core w.resetAfterBluezRestart.core := by
  unfold World.resetAfterBluezRestart
  extract_lets previous w₁ w₂ w₃ w₄ w₅
  obtain ⟨t, ht, hdial⟩ := core_setLeDialActive w₁ false
  have h₂ : w₂.core.setPhase none = (w.core.renewed 0).later t := by
    have hset : w₂.core = (w₁.setLeDialActive false).core.setReset false 0 := rfl
    rw [hset, hdial]
    rfl
  have h₃ : w₃.core = w₂.core := core_cancelLeSettle w₂
  have habort : Moves w.core w₃.abortProfileReset.core := by
    rw [core_abortProfileReset, h₃, h₂]
    exact (Moves.renewed w.core 0).trans (.wait ht)
  have h₄ : Moves w.core w₄.core := habort.quiet (quiet_tell _ _)
  have h₅ : Moves w.core w₅.core := by
    unfold w₅
    split
    · exact h₄.quiet (quiet_tellStatus w₄)
    · exact h₄
  exact h₅.trans (moves_tickIfRunning w₅)

theorem moves_observeAncsHealth (healthy : Bool) (proof : Option ℚ) :
    Moves w.core (w.observeAncsHealth healthy proof).core := by
  cases healthy with
  | false => exact .sampled w.core false proof
  | true => exact .sampled w.core true proof

/-! ## Steps -/

theorem moves_fire (timer : Timer) : Moves w.core (w.fire timer).core := by
  cases timer with
  | tick => exact moves_tickIfRunning w
  | connectLeAfterSettle => exact moves_connectLeAfterSettle w
  | manualDial => exact moves_manualDial w
  | profileResetReconnect => exact moves_profileResetReconnect w

/-- BlueZ answers a request. -/
theorem moves_reply {n : Nat} {request : Request} (hn : w.requests.get n = some request)
    (error : Option Failure) :
    Moves w.core ((({ w with requests := w.requests.take n } : World).reply request error)).core := by
  generalize hw₁ : ({ w with requests := w.requests.take n } : World) = w₁
  have h₁ : w₁.core = w.core.answer n := by
    rw [← hw₁]
    rfl
  have hgen₁ : w₁.supervisor.generation = w.core.generation := congrArg Core.generation h₁
  have hholds : w.core.requests.Holds n request := hn
  cases request with
  | connect kind generation id =>
    have hhandles : Handles w₁.core (w₁.reply (.connect kind generation id) error) kind generation
        id := by
      cases error with
      | none => exact handles_connectSucceeded w₁ kind generation id
      | some e => exact handles_connectFailed w₁ kind e generation id
    by_cases hgen : generation = w.core.generation
    · subst hgen
      exact .answered hholds (h₁ ▸ hhandles.moves) hhandles.settled
    refine Moves.trans (.dropped hholds ?_) (h₁ ▸ hhandles.moves)
    intro kind' id' hsame
    cases hsame
    exact absurd rfl hgen
  | disconnect target generation =>
    have hdropped : Moves w.core w₁.core := by
      rw [h₁]
      exact .dropped hholds (fun _ _ hsame => by cases hsame)
    by_cases hgen : generation = w₁.supervisor.generation
    · have hout : w.core.requests.Holds n (.disconnect target w.core.generation) := by
        rw [← hgen₁, ← hgen]
        exact hholds
      subst hgen
      cases target with
      | le =>
        have hends : EndsLe w.core w₁ := by
          intro pending failures hstop
          rw [h₁]
          exact .endedLeDisconnect hout pending failures hstop
        cases error with
        | none => exact moves_disconnectSucceeded hends
        | some e => exact moves_disconnectFailed hends e
      | device =>
        by_cases hphase : w₁.supervisor.profileResetPhase = some .disconnecting
        · have hends : EndsDevice w.core w₁ := by
            intro phase hnot
            rw [h₁]
            exact .endedDeviceDisconnect hout phase hnot
          cases error with
          | none => exact moves_profileResetDisconnected hends hphase
          | some e => exact moves_profileResetDisconnectFailed hends hphase e
        have hsame : w₁.reply (.disconnect .device w₁.supervisor.generation) error = w₁ := by
          cases error with
          | none | some e => exact if_pos (Or.inr hphase)
        rw [hsame]
        exact hdropped
    · have hsame : w₁.reply (.disconnect target generation) error = w₁ := by
        cases target with
        | le =>
          cases error with
          | none | some e => exact if_pos hgen
        | device =>
          cases error with
          | none | some e => exact if_pos (Or.inl hgen)
      rw [hsame]
      exact hdropped

/-- **Every step is made of moves.** -/
theorem moves_handle (i : Input) : Moves w.core (w.handle i).core := by
  cases i with
  | start => exact moves_startUp w
  | stop => exact moves_stop w
  | poke => exact moves_tickIfRunning w
  | enableLe => exact moves_enableLe w
  | holdLe => exact moves_holdLe w
  | bluezRestarted => exact moves_resetAfterBluezRestart w
  | ancsHealth healthy proof => exact moves_observeAncsHealth w healthy proof
  | recoverLeTransport allowDisconnected since =>
    exact moves_recoverLeTransport w allowDisconnected since
  | reconnectNow => exact moves_reconnectNow w
  | resetProfiles => exact moves_resetProfiles w
  | leUsable => exact (quiet_setFlaps w _).moves
  | leDisconnected name => exact moves_onLeDisconnectedSignal w name
  | lePropertiesChanged changed => exact moves_onLePropertiesChanged w changed
  | bredrDisconnected name => exact moves_onBredrDisconnectedSignal w name
  | fired n =>
    unfold World.handle
    dsimp only
    split
    · exact .refl _
    split
    · exact moves_fire w .tick
    rename_i armed _ _
    exact moves_fire { w with timers := w.timers.take n } armed.timer
  | late timer => exact moves_fire w timer
  | replied n error =>
    unfold World.handle
    dsimp only
    split
    · exact .refl _
    rename_i request hn
    exact moves_reply w hn error

theorem moves_step (i : Input × Reading) :
    Moves (w.core.later i.2.now) (step w i).core := moves_handle (w.hear i.2) i.1

end

/-- The world after a run. -/
def World.after (leEnabled : Bool) (now : ℚ) (inputs : List (Input × Reading)) : World :=
  Machine.run step (.start leEnabled now) inputs

end BlueFerry.Bearers
