import BlueFerry.Bearers.Quiet

/-! # The moves of observations and Connects

What handles the end of a Connect is shown to settle its request (`Handles`), and what asks for one
or observes a bearer to be made of moves.
-/

namespace BlueFerry.Bearers

/-! ## Requests to connect -/

theorem core_setLeDialActive (w : World) (active : Bool) :
    ∃ t, w.now ≤ t ∧ (w.setLeDialActive active).core = { w.core with dial := active, now := t } := by
  unfold World.setLeDialActive
  split
  · rename_i hsame
    subst hsame
    exact ⟨w.now, le_rfl, rfl⟩
  · obtain ⟨t, ht, hcore⟩ :=
      quiet_tellLeDial (w.set fun s => { s with leDialActive := active }) active
    exact ⟨t, ht, hcore⟩

section

variable (w : World) (kind : Kind)

theorem core_endConnect :
    ∃ t, w.now ≤ t ∧ (w.endConnect kind).core = (w.core.endConnect kind).later t := by
  unfold World.endConnect
  extract_lets w₁
  cases kind with
  | bredr => exact ⟨w.now, le_rfl, rfl⟩
  | le =>
    obtain ⟨t, ht, hcore⟩ := core_setLeDialActive w₁ false
    refine ⟨t, ht, ?_⟩
    rw [if_pos rfl, hcore]
    rfl

theorem moves_endConnect : Moves w.core (w.endConnect kind).core := by
  obtain ⟨t, ht, hcore⟩ := core_endConnect w kind
  rw [hcore]
  exact (Moves.ended w.core kind).trans (.wait ht)

/-- A request that is over is settled. -/
theorem handles_endConnect (generation id : Nat) :
    Handles w.core (w.endConnect kind) kind generation id := by
  refine ⟨moves_endConnect w kind, fun _ hid => ?_⟩
  obtain ⟨t, -, hcore⟩ := core_endConnect w kind
  rw [hcore] at hid
  simp [Core.endConnect, Core.later] at hid

theorem moves_settleInProgressConnect (value : Option Bool) :
    Moves w.core (w.settleInProgressConnect kind value).core := by
  unfold World.settleInProgressConnect
  split
  · exact .refl _
  split
  · exact .refl _
  extract_lets w₁
  have h₁ : Moves w.core w₁.core := moves_endConnect w kind
  split
  · exact h₁
  · exact h₁.quiet (quiet_recordFailure w₁ kind true)

theorem handles_connectSucceeded (generation id : Nat) :
    Handles w.core (w.connectSucceeded kind generation id) kind generation id := by
  unfold World.connectSucceeded
  split
  · rename_i hnot
    exact ⟨.refl _, Core.settled_of_not_current (by simpa using hnot)⟩
  extract_lets w₁ w₂ w₃
  have h₁ : Handles w.core w₁ kind generation id := handles_endConnect w kind generation id
  have h₂ : Quiet w₁ w₂ := .of_eq rfl
  have h₃ : Quiet w₁ w₃ := by
    unfold w₃
    split
    · exact h₂.trans (quiet_restoreLePreference w₂)
    · exact h₂
  exact h₁.quiet (h₃.trans (quiet_recordFailure w₃ kind false))

theorem handles_giveUpConnect (e : Failure) (generation id : Nat) :
    Handles w.core (w.giveUpConnect kind e) kind generation id := by
  unfold World.giveUpConnect
  extract_lets w₁
  have h₁ : Handles w.core w₁ kind generation id := handles_endConnect w kind generation id
  split
  · exact h₁.quiet (.of_eq rfl)
  · exact h₁.quiet ((quiet_recordFailure w₁ kind true).trans (.of_eq rfl))

end

theorem handles_connectFailedWith {reread : World → World × Option Bool}
    (hreread : ∀ w, Moves w.core (reread w).1.core) (w : World) (kind : Kind) (e : Failure)
    (generation id : Nat) :
    Handles w.core (w.connectFailedWith reread kind e generation id) kind generation id := by
  unfold World.connectFailedWith
  split
  · rename_i hnot
    exact ⟨.refl _, Core.settled_of_not_current (by simpa using hnot)⟩
  split
  · refine ⟨.deadline w.core kind _, fun _ _ => Or.inl ?_⟩
    simp [World.core, World.set]
  split
  · split
    · have h₁ : Moves w.core (reread w).1.core := hreread w
      split
      rename_i w₁ bredr hw₁
      rw [hw₁] at h₁
      split
      · exact (handles_connectSucceeded w₁ kind generation id).after h₁
      split
      · rename_i hnot
        exact ⟨h₁, Core.settled_of_not_current (by simpa using hnot)⟩
      · exact (handles_giveUpConnect w₁ kind e generation id).after h₁
    · exact handles_connectSucceeded w kind generation id
  · exact handles_giveUpConnect w kind e generation id

/-- How a Connect that BlueZ refuses at once is handled. -/
def HandlesFailure (fail : World → Kind → Failure → Nat → Nat → World) : Prop :=
  ∀ w kind e generation id, Handles w.core (fail w kind e generation id) kind generation id

variable {w : World} {budget : LeRecoveryBudget}

/-- The policy that a Connect asks for leaves the way open. -/
theorem open_of_mayConnect {kind : Kind} (h : w.mayConnect kind = true) :
    w.core.connecting = ∅ ∧ w.core.phase = none ∧ w.core.disconnecting = ∅ ∧
      w.env.blocked = false ∧ w.env.busy = false := by
  simp only [World.mayConnect, Bool.and_eq_true, Bool.not_eq_true', decide_eq_true_eq,
    Option.isNone_iff_eq_none] at h
  obtain ⟨⟨⟨⟨⟨⟨⟨⟨⟨hblocked, hphase⟩, hbusy⟩, hdisconnecting⟩, hkind⟩, hbredr⟩, hle⟩, -⟩, -⟩, -⟩ := h
  refine ⟨?_, hphase, hdisconnecting, hblocked, hbusy⟩
  rw [Finset.eq_empty_iff_forall_notMem]
  intro other hother
  cases kind with
  | bredr =>
    cases other with
    | bredr => exact hkind hother
    | le => exact hbredr rfl hother
  | le =>
    cases other with
    | bredr => exact hle rfl hother
    | le => exact hkind hother

theorem open_meanwhile (hphase : w.core.phase = none)
    (hdisconnecting : w.core.disconnecting = ∅) (hblocked : w.env.blocked = false)
    (hbusy : w.env.busy = false) : w.core.Open w.meanwhile where
  phase := hphase
  disconnecting := hdisconnecting
  blocked := hblocked
  busy := hbusy
  resetting := by
    have hnone : w.supervisor.profileResetPhase = none := hphase
    simp [World.meanwhile, hnone]
  own := by
    intro hown
    obtain ⟨n, -, hn⟩ := of_decide_eq_true hown
    cases hget : w.requests.get n with
    | none => simp [hget] at hn
    | some r =>
      cases r with
      | connect kind generation id => simp [hget, Request.isDisconnectOf] at hn
      | disconnect target generation =>
        have hgen : generation = w.supervisor.generation := by
          simpa [hget, Request.isDisconnectOf] using hn
        subst hgen
        exact ⟨n, target, hget⟩

/-- The request that is sent is awaited. -/
theorem handles_await (w : World) (kind : Kind) (generation id : Nat)
    (hgen : generation = w.supervisor.generation) :
    Handles w.core (w.await (.connect kind generation id)) kind generation id := by
  subst hgen
  refine ⟨.sent w.core kind id, fun _ _ => Or.inr ⟨w.requests.next, ?_⟩⟩
  exact Slots.holds_put.mpr (Or.inl ⟨rfl, rfl⟩)

variable {fail : World → Kind → Failure → Nat → Nat → World}

/-- Once the Connect is issued, it is refused at once or awaited. -/
theorem handles_callConnect (hfail : HandlesFailure fail) {c : Core} {kind : Kind}
    {generation id : Nat} (hgen : generation = w.supervisor.generation)
    (h : Moves c (w.wait.did (.connect kind w.meanwhile)).core) :
    Handles c (w.callConnect fail kind generation id) kind generation id := by
  unfold World.callConnect
  extract_lets issued
  split
  · exact (hfail issued kind _ generation id).after h
  · exact (handles_await issued kind generation id hgen).after h

theorem handles_callConnect_bredr (hfail : HandlesFailure fail) {generation id : Nat}
    (hgen : generation = w.supervisor.generation) (hopen : w.core.Open w.meanwhile) :
    Handles w.core (w.callConnect fail .bredr generation id) .bredr generation id := by
  refine handles_callConnect hfail hgen (Moves.trans (.issueClassic hopen) ?_)
  exact (Moves.wait (quiet_wait w).le).trans (.refl _)

theorem handles_preferClassic (hfail : HandlesFailure fail) {generation id : Nat}
    (hgen : generation = w.supervisor.generation) (hphase : w.core.phase = none)
    (hdisconnecting : w.core.disconnecting = ∅) (hblocked : w.env.blocked = false)
    (hbusy : w.env.busy = false) :
    Handles w.core (w.preferClassic fail generation id) .bredr generation id := by
  unfold World.preferClassic
  split
  · exact (hfail w.wait .bredr _ generation id).after (quiet_wait w).moves
  obtain ⟨w₁, hw₁⟩ : ∃ w₁, (w.wait.set fun s => { s with lePreferenceRestorePending := true }) =
      w₁ := ⟨_, rfl⟩
  have hopen : w₁.core.Open w₁.meanwhile := by
    subst hw₁
    exact open_meanwhile hphase hdisconnecting hblocked hbusy
  have hgen₁ : generation = w₁.supervisor.generation := by
    subst hw₁
    exact hgen
  have hq : Quiet w w₁ := (quiet_wait w).trans (.of_eq (by rw [← hw₁]; rfl))
  rw [hw₁]
  exact (handles_callConnect_bredr hfail hgen₁ hopen).after hq.moves

theorem take_refused
    (h : w.budget.take w.now = (budget, false)) : w.take = ({ w with budget := budget }, false) := by
  unfold World.take
  rw [h]
  rfl

theorem take_granted (h : w.budget.take w.now = (budget, true)) :
    w.take = (({ w with budget := budget } : World).did (.budget (.granted w.now)), true) := by
  unfold World.take
  rw [h]
  rfl

/-- The dial of LE, on the grant that was just taken. -/
theorem handles_dialLe (hfail : HandlesFailure fail)
    (id : Nat) (hphase : w.core.phase = none) (hdisconnecting : w.core.disconnecting = ∅)
    (hblocked : w.env.blocked = false) (hbusy : w.env.busy = false)
    (htake : w.budget.take w.now = (budget, true)) : Handles (w.core.begin .le)
      ((({ w with budget := budget } : World).did (.budget (.granted w.now))).dialLe fail
        w.supervisor.generation id) .le w.supervisor.generation id := by
  unfold World.dialLe
  extract_lets w₁
  obtain ⟨w₂, hw₂⟩ : ∃ w₂, (w₁.beginConnect .le false).setLeDialActive true = w₂ := ⟨_, rfl⟩
  obtain ⟨t, ht, hcore⟩ := core_setLeDialActive (w₁.beginConnect .le false) true
  rw [hw₂] at hcore ⊢
  have henv : w₂.env.blocked = false ∧ w₂.env.busy = false := by
    rw [← hw₂]
    unfold World.setLeDialActive
    split <;> exact ⟨hblocked, hbusy⟩
  have hopen : w₂.core.Open w₂.meanwhile :=
    open_meanwhile (by rw [hcore]; exact hphase) (by rw [hcore]; exact hdisconnecting) henv.1 henv.2
  have hgen : w.supervisor.generation = w₂.core.generation := by
    rw [hcore]
    rfl
  have hbegun : (w.core.begin .le).Open w₂.meanwhile :=
    ⟨hphase, hdisconnecting, hopen.blocked, hopen.busy, hopen.resetting, by
      have hown := hopen.own
      rw [hcore] at hown
      exact hown⟩
  refine handles_callConnect hfail hgen ?_
  have hissued : (w₂.wait.did (.connect .le w₂.meanwhile)).core =
      (w₂.core.did (.connect .le w₂.meanwhile)).later w₂.wait.now := rfl
  have hlater : w.now ≤ w₂.wait.now := by
    have hnow : w₂.now = t := congrArg Core.now hcore
    calc w.now ≤ t := ht
      _ = w₂.now := hnow.symm
      _ ≤ w₂.wait.now := (quiet_wait w₂).le
  rw [hissued, hcore]
  exact .issueLe hbegun htake hlater

theorem moves_requestConnectWith (hfail : HandlesFailure fail) (w : World) (kind : Kind) :
    Moves w.core (w.requestConnectWith fail kind).core := by
  unfold World.requestConnectWith
  split
  · exact .refl _
  rename_i hmay
  obtain ⟨hidle, hphase, hdisconnecting, hblocked, hbusy⟩ :=
    open_of_mayConnect (by simpa using hmay)
  cases kind with
  | bredr =>
    dsimp -zeta only
    extract_lets generation id targeted w₁
    have h₁ : w₁.core = w.core.begin .bredr := rfl
    split
    · have hcall : Handles w₁.core (w₁.callConnect fail .bredr generation id) .bredr
          generation id :=
        handles_callConnect_bredr hfail rfl (open_meanwhile hphase hdisconnecting hblocked hbusy)
      exact .request hidle (h₁ ▸ hcall.moves) hcall.settled
    · have hcall : Handles w₁.core (w₁.preferClassic fail generation id) .bredr generation id :=
        handles_preferClassic hfail rfl hphase hdisconnecting hblocked hbusy
      exact .request hidle (h₁ ▸ hcall.moves) hcall.settled
  | le =>
    dsimp -zeta only
    obtain ⟨⟨budget, granted⟩, htake⟩ : ∃ taken, w.budget.take w.now = taken := ⟨_, rfl⟩
    cases granted with
    | false =>
      rw [take_refused htake]
      exact .refused htake
    | true =>
      rw [take_granted htake]
      have hdial := handles_dialLe hfail (w.supervisor.connectRequestSerial + 1) hphase
        hdisconnecting hblocked hbusy htake
      exact .request hidle hdial.moves hdial.settled

/-! ## Observations -/

theorem moves_noteState (w : World) (kind : Kind) (value : Option Bool) :
    Moves w.core (w.noteState kind value).core := by
  unfold World.noteState
  cases kind with
  | bredr => exact .refl _
  | le =>
    dsimp -zeta only
    extract_lets previous w₁ w₂ w₃
    have h₃ : Moves w.core w₃.core := .refl _
    split
    · exact h₃
    · exact h₃.trans (.sampled w₃.core false none)

theorem handlesFailure_connectFailedWith {reread : World → World × Option Bool}
    (hreread : ∀ w, Moves w.core (reread w).1.core) :
    HandlesFailure (World.connectFailedWith reread) :=
  handles_connectFailedWith hreread

section

variable (w : World)

theorem moves_retargetPendingClassicConnect :
    Moves w.core w.retargetPendingClassicConnect.core := by
  unfold World.retargetPendingClassicConnect
  split
  · exact .refl _
  refine Moves.trans (.ended w.core .bredr) ?_
  have hfail : HandlesFailure (World.connectFailedWith fun w => (w, none)) :=
    handlesFailure_connectFailedWith fun w => .refl w.core
  generalize hw₁ : World.set (w.clearConnectRequest .bredr) _ = w₁
  have h₁ : w₁.core = w.core.endConnect .bredr := by
    rw [← hw₁]
    rfl
  rw [← h₁]
  exact moves_requestConnectWith hfail w₁ .bredr

theorem moves_updateState (kind : Kind) (value : Option Bool) (deliberate notifyStatus : Bool) :
    Moves w.core (w.updateState kind value deliberate notifyStatus).core := by
  unfold World.updateState
  extract_lets w₁ previous w₂ w₃ w₄ w₅
  have h₂ : Moves w.core w₂.core :=
    (moves_settleInProgressConnect w kind value).trans (moves_noteState w₁ kind value)
  have hq : Quiet w₂ w₅ :=
    (quiet_noteTransition w₂ kind previous value deliberate).trans
      ((quiet_noteDwell w₃ kind value).trans (quiet_tellState w₄ kind previous value notifyStatus))
  have h₅ : Moves w.core w₅.core := h₂.quiet hq
  split
  · exact h₅.trans (moves_retargetPendingClassicConnect w₅)
  · exact h₅

theorem moves_refreshLeState (notifyStatus : Bool) :
    Moves w.core (w.refreshLeState notifyStatus).1.core := by
  unfold World.refreshLeState
  extract_lets previousLe previousObservation
  have hread : Moves w.core (w.read .le).1.core := (quiet_read w .le).moves
  split
  rename_i w₁ le hw₁
  rw [hw₁] at hread
  extract_lets w₂
  have h₂ : Moves w.core w₂.core := hread.trans (moves_updateState w₁ .le le false notifyStatus)
  split
  · exact h₂.quiet (quiet_tell w₂ _)
  · exact h₂

theorem moves_refreshStates : Moves w.core w.refreshStates.1.core := by
  unfold World.refreshStates
  extract_lets previous
  have hread : Moves w.core (w.read .bredr).1.core := (quiet_read w .bredr).moves
  split
  rename_i w₁ bredr hw₁
  rw [hw₁] at hread
  extract_lets w₂
  have h₂ : Moves w.core w₂.core := hread.trans (moves_updateState w₁ .bredr bredr false false)
  have hrefresh : Moves w₂.core (w₂.refreshLeState false).1.core := moves_refreshLeState w₂ false
  split
  rename_i w₃ le hw₃
  rw [hw₃] at hrefresh
  extract_lets changed w₄
  have h₄ : Moves w.core w₄.core := h₂.trans hrefresh
  show Moves w.core (if changed then w₄.tellStatus else w₄).core
  split
  · exact h₄.quiet (quiet_tellStatus w₄)
  · exact h₄

theorem moves_rereadBearers : Moves w.core w.rereadBearers.1.core := by
  unfold World.rereadBearers
  have hread : Moves w.core (w.read .bredr).1.core := (quiet_read w .bredr).moves
  split
  rename_i w₁ bredr hw₁
  rw [hw₁] at hread
  extract_lets w₂
  have h₂ : Moves w.core w₂.core := hread.trans (moves_updateState w₁ .bredr bredr false true)
  split
  · exact h₂
  · exact h₂.trans (moves_refreshLeState w₂ true)

theorem handles_connectFailed : HandlesFailure World.connectFailed :=
  handlesFailure_connectFailedWith moves_rereadBearers

theorem moves_requestConnect (kind : Kind) : Moves w.core (w.requestConnect kind).core :=
  moves_requestConnectWith handles_connectFailed w kind

end

end BlueFerry.Bearers
