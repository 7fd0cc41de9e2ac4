import BlueFerry.Ancs.Backlog

/-! # The queue is pumped again

After every handler a request that is still queued waits for something that pumps the queue when it
ends. A handler that takes such a thing away pumps the queue itself, and that leaves the queue empty
or something new to wait for.
-/

namespace BlueFerry.Ancs

open BlueFerry.Text

namespace Client

/-- A queue that is not empty waits for the active request, an open write, the busy-retry timer or
a re-enable of the notifications. -/
def Settled (s : Client) : Prop :=
  s.core.queue ≠ [] → s.core.active.isSome = true ∨ s.core.cpWriteToken.isSome = true
    ∨ s.core.busyRetry = true ∨ s.tr.notifyRefresh.isSome = true

variable {env : Env} {s s' : Client}

theorem settled_of_empty (h : s.core.queue = []) : s.Settled := fun hq => absurd h hq

theorem settled_of_active (h : s.core.active.isSome = true) : s.Settled := fun _ => Or.inl h

theorem settled_of_busyRetry (h : s.core.busyRetry = true) : s.Settled :=
  fun _ => .inr (.inr (.inl h))

theorem settled_of_refresh (h : s.tr.notifyRefresh.isSome = true) : s.Settled :=
  fun _ => .inr (.inr (.inr h))

/-- The queue may shrink, and what it waits for is still there. -/
theorem Settled.mono (h : s.Settled) (hqueue : s.core.queue = [] → s'.core.queue = [])
    (hactive : s'.core.active.isSome = s.core.active.isSome)
    (htoken : s'.core.cpWriteToken = s.core.cpWriteToken)
    (hbusy : s'.core.busyRetry = s.core.busyRetry)
    (hrefresh : s'.tr.notifyRefresh = s.tr.notifyRefresh) : s'.Settled := by
  intro hq
  rw [hactive, htoken, hbusy, hrefresh]
  exact h (fun hnil => hq (hqueue hnil))

/-- The transport changes, and a re-enable goes on. -/
theorem Settled.onTransport (h : s.Settled) (f : Transport → Transport)
    (hf : (f s.tr).notifyRefresh = s.tr.notifyRefresh) : (s.onTransport f).Settled :=
  h.mono id rfl rfl rfl hf

theorem Settled.note (h : s.Settled) (e : Entry) : (s.note e).Settled := h.mono id rfl rfl rfl rfl

theorem Settled.ite {p : Prop} [Decidable p] (h : p → s.Settled) (h' : ¬ p → s'.Settled) :
    (if p then s else s').Settled := by
  split
  · exact h ‹_›
  · exact h' ‹_›

/-! ## Giving up -/

theorem queue_discard (uid : Option Nat) (c : Core) (h : c.queue = []) :
    (c.discardNotificationRequests uid).queue = [] := by
  have hd := (c.discards_discardNotificationRequests uid).queue
  rw [h] at hd
  cases hqueue : (c.discardNotificationRequests uid).queue with
  | nil => rfl
  | cons r rest =>
    have := (hd r (by rw [hqueue]; exact .head _)).1
    cases this

theorem queue_resetActions (c : Core) (h : c.queue = []) : c.resetActions.queue = [] := by
  obtain ⟨after, before, -, -, heq⟩ := c.resetActions_eq
  rw [heq]
  simp [Core.removeIf, h]

theorem queue_endSession (c : Core) (h : c.queue = []) : c.endSession.queue = [] :=
  queue_discard none _ h

theorem clearSubscription_queue (stop : Bool) : (s.clearSubscription env stop).core.queue = [] :=
  queue_endSession _ (queue_resetActions _ (Core.resetRequests_queue _))

theorem markTransportFailed_queue : (s.markTransportFailed env).core.queue = [] := by
  unfold markTransportFailed
  dsimp only
  split <;> exact clearSubscription_queue _

theorem settled_markTransportFailed : (s.markTransportFailed env).Settled :=
  settled_of_empty markTransportFailed_queue

theorem settled_escalate : (s.escalateUnresponsiveTransport env).Settled :=
  settled_of_empty markTransportFailed_queue

theorem Settled.resetActions (h : s.Settled) : (s.onCore (·.resetActions)).Settled := by
  obtain ⟨after, before, -, -, heq⟩ := s.core.resetActions_eq
  refine h.mono (queue_resetActions _) ?_ ?_ (Core.resetActions_busyRetry _) rfl
  · show s.core.resetActions.active.isSome = s.core.active.isSome
    rw [heq]
    rfl
  · show s.core.resetActions.cpWriteToken = s.core.cpWriteToken
    rw [heq]
    rfl

theorem Settled.discard (h : s.Settled) (uid : Option Nat) :
    (s.onCore (·.discardNotificationRequests uid)).Settled := by
  have hactive : (s.core.discardNotificationRequests uid).active.isSome = s.core.active.isSome
      ∧ (s.core.discardNotificationRequests uid).cpWriteToken = s.core.cpWriteToken := by
    rcases (s.core.removeIf (Core.isAbout uid)).retireActive_cases uid with heq | ⟨r, hr, -, heq⟩
    · unfold Core.discardNotificationRequests
      rw [heq]
      exact ⟨rfl, rfl⟩
    have hr : s.core.active = some r := hr
    unfold Core.discardNotificationRequests
    rw [heq, hr]
    exact ⟨rfl, rfl⟩
  exact h.mono (queue_discard uid _) hactive.1 hactive.2
    (Core.discardNotificationRequests_busyRetry uid _) rfl

theorem Settled.endSession (h : s.Settled) : (s.onCore (·.endSession)).Settled := by
  have hended : (s.onCore fun c =>
      ({ c with liveEventsSeen := false } : Core).note .sessionEnded).Settled :=
    h.mono id rfl rfl rfl rfl
  exact (hended.discard none).note (.called .sessionReset)

/-! ## Pumping -/

theorem giveUp_queue (r : PendingRequest) : (s.giveUp env r).core.queue = s.core.queue := by
  have hemits : ∀ (ws : List Waiting) (appName : Str) (c : Core),
      (ws.foldl (fun c w => c.emit env w appName) c).queue = c.queue := by
    intro ws appName
    induction ws with
    | nil => exact fun _ => rfl
    | cons w ws ih =>
      intro c
      rw [List.foldl_cons, ih]
      unfold Core.emit
      dsimp only
      split
      · split <;> rfl
      · rfl
  unfold giveUp
  split
  · rfl
  split
  · rfl
  split
  · rfl
  split
  · rfl
  · exact hemits _ _ _

/-- A write that does not free the control point is not the one that holds it. -/
theorem token_settle (s : Client) (w : Write) (rest : List Write)
    (hno : ((s.onCore fun c => { c with writes := rest }).releaseWrite w).2 = false) :
    (s.core.settle w rest).cpWriteToken = s.core.cpWriteToken := by
  refine if_neg (fun htoken => ?_)
  have htoken : (s.onCore fun c => { c with writes := rest }).core.cpWriteToken = some w.token := htoken
  simp [releaseWrite, htoken] at hno

/-- A failed write ends with the queue as it was, ready to be pumped, or with something to wait
for. -/
theorem settled_failed (hs : Sound s) (h : s.Settled) (w : Write) (rest : List Write)
    (e : DBusError) :
    (((s.onCore fun c => { c with writes := rest }).failed env w e).2 = true →
        ((s.onCore fun c => { c with writes := rest }).failed env w e).1.core.queue = s.core.queue)
      ∧ (((s.onCore fun c => { c with writes := rest }).failed env w e).2 = false →
        ((s.onCore fun c => { c with writes := rest }).failed env w e).1.Settled) := by
  have hsettled := s.releaseWrite_settle w rest
  have hreleased := token_settle s w rest
  unfold failed
  generalize (s.onCore fun c => { c with writes := rest }).releaseWrite w = released at *
  obtain ⟨s₁, b⟩ := released
  dsimp only at hsettled hreleased ⊢
  subst hsettled
  split
  · rename_i hcurrent
    split
    · rename_i hnone
      obtain ⟨r, hr, -⟩ := s.exists_active_of_isCurrent hcurrent
      have hnone : s.core.active = none := hnone
      rw [hr] at hnone
      cases hnone
    rename_i r hr
    split
    · split
      · exact ⟨nofun, fun _ => settled_markTransportFailed⟩
      · exact ⟨fun _ => Core.finishActive_queue _, nofun⟩
    rename_i hwanted
    have hwanted : r.discarded = false := by simpa using hwanted
    split
    · refine ⟨nofun, fun _ => settled_of_busyRetry ?_⟩
      have hbacklog : (s.core.settle w rest).Backlog := hs.backlog.congr rfl
      have heq := (hbacklog.pushFront hr hwanted (r.busyRetries + 1)).1
      show (pushFront { r with busyRetries := r.busyRetries + 1 }
        { s.core.settle w rest with active := none }).busyRetry = true
      rw [heq]
    split
    · rename_i a ha
      split
      · exact ⟨nofun, fun _ => settled_markTransportFailed⟩
      refine ⟨fun _ => ?_, nofun⟩
      have hobserved : ∀ u : Client, (u.observePermissionError e).core.queue = u.core.queue := by
        intro u
        unfold observePermissionError
        split
        · dsimp only
          split <;> rfl
        · rfl
      rw [hobserved]
      exact Core.finishActive_queue _
    · split
      · exact ⟨nofun, fun _ => settled_markTransportFailed⟩
      refine ⟨fun _ => ?_, nofun⟩
      rw [s.settle_observePermissionError, abandonRequest_eq]
      show (giveUp env r _).core.queue = s.core.queue
      rw [giveUp_queue]
      show (s.observePermissionError e).core.queue = s.core.queue
      unfold observePermissionError
      split
      · dsimp only
        split <;> rfl
      · rfl
  · refine ⟨fun _ => ?_, fun hno => ?_⟩
    · cases w.action with
      | none | some a => rfl
    have hkept := hreleased hno
    cases w.action with
    | none | some a => exact h.mono id rfl hkept rfl rfl

/-- **The pump leaves nothing behind**, if it has a round for every queued request. -/
theorem settled_pumpRounds (rounds : Nat) (hs : Sound s) (hrounds : s.core.queue.length ≤ rounds) :
    (pumpRounds env rounds s).Settled := by
  induction rounds generalizing s with
  | zero => exact settled_of_empty (List.eq_nil_of_length_eq_zero (Nat.le_zero.mp hrounds))
  | succ rounds ih =>
    unfold pumpRounds
    split
    · exact settled_of_empty ‹_›
    rename_i r rest hqueue
    split
    · rename_i hblocked
      have hbusy : s.core.queue ≠ [] := by rw [hqueue]; exact List.cons_ne_nil _ _
      have hcp := (hs.fine.subscribed (hs.subscribed (.inl hbusy))).2
      intro _
      unfold isBlocked at hblocked
      simp only [Bool.or_eq_true, or_assoc] at hblocked
      rcases hblocked with h | h | h | h | h
      · exact .inl h
      · exact .inr (.inl h)
      · exact .inr (.inr (.inl h))
      · exact .inr (.inr (.inr h))
      rw [Option.isNone_iff_eq_none] at h
      rw [h] at hcp
      cases hcp
    · rename_i hblocked
      have hfree : s.isBlocked = false := by simpa using hblocked
      have hwrote : Sound ((s.startWrite env r rest).onCore fun c =>
          { c with writes := c.writes ++ [s.writeOf r] }) :=
        sound_act (@Act.wrote env (fun _ => True) s r rest hqueue hfree) hs
      have hopen : ((s.startWrite env r rest).onCore fun c =>
          { c with writes := c.writes ++ [s.writeOf r] }).core.writes.Perm
            (s.writeOf r :: s.core.writes) := List.perm_append_singleton _ _
      dsimp only
      split
      · exact settled_of_active rfl
      rename_i e _
      -- the write that is not dispatched is one that is answered at once
      have hacts : Acts env (fun _ => True) _
          ((s.startWrite env r rest).failed env (s.writeOf r) e).1 := acts_failed .refl hopen e
      obtain ⟨hagain, hdone⟩ :
          (((s.startWrite env r rest).failed env (s.writeOf r) e).2 = true →
            ((s.startWrite env r rest).failed env (s.writeOf r) e).1.core.queue = rest)
          ∧ (((s.startWrite env r rest).failed env (s.writeOf r) e).2 = false →
            ((s.startWrite env r rest).failed env (s.writeOf r) e).1.Settled) :=
        settled_failed hwrote (settled_of_active rfl) (s.writeOf r) s.core.writes e
      split
      · rename_i hgo
        refine ih (sound_acts hacts hwrote) ?_
        rw [hqueue, List.length_cons] at hrounds
        calc ((s.startWrite env r rest).failed env (s.writeOf r) e).1.core.queue.length
            = rest.length := by rw [hagain hgo]
          _ ≤ rounds := by omega
      · rename_i hstop
        exact hdone (eq_false_of_ne_true hstop)

theorem settled_pump (hs : Sound s) : (pump env s).Settled := settled_pumpRounds _ hs le_rfl

/-- The acts before the pump leave the client sound. -/
theorem settled_pump_of_acts (hs : Sound s) (h : Acts env (fun _ => True) s s') :
    (pump env s').Settled := settled_pump (sound_acts h hs)

theorem Settled.enqueue (h : s.Settled) (hs : Sound s) {r : PendingRequest} (hr : r.New)
    (front : Bool) (hon : s.tr.notifyStarted = true) : (s.enqueue env r front).1.Settled := by
  unfold Client.enqueue
  split
  · exact h
  rename_i c hc
  exact settled_pump (sound_act (@Act.queued env (fun _ => True) s r front c hr hon hc) hs)

theorem Settled.newRid (h : s.Settled) : s.newRid.1.Settled := h.mono (fun hq => hq) rfl rfl rfl rfl

theorem sound_newRid (hs : Sound s) : Sound s.newRid.1 := hs.same rfl

theorem Settled.queueAuthorizationProbe (h : s.Settled) (hs : Sound s) (force : Bool) :
    (s.queueAuthorizationProbe env force).Settled := by
  unfold Client.queueAuthorizationProbe
  split
  · exact h
  rename_i hoff
  have hon : s.tr.notifyStarted = true := by
    by_contra hnot
    exact hoff (by simp [hnot])
  exact h.newRid.enqueue (sound_newRid hs) (new_authorizationProbe _) false hon

theorem settled_written (hs : Sound s) (h : s.Settled) {w : Write} {rest : List Write}
    (hw : s.core.writes.Perm (w :: rest)) :
    ((s.onCore fun c => { c with writes := rest }).written env w).Settled := by
  have hsettled := s.releaseWrite_settle w rest
  have hreleased := token_settle s w rest
  unfold written
  generalize (s.onCore fun c => { c with writes := rest }).releaseWrite w = released at *
  obtain ⟨s₁, b⟩ := released
  dsimp only at hsettled hreleased ⊢
  subst hsettled
  split
  · rename_i a ha
    split
    · rename_i hcurrent
      exact settled_pump_of_acts hs (.single (.sent w rest a hw hcurrent ha))
    rename_i hcurrent
    have hstale := @Act.stale env (fun _ => True) s w rest .sent hw (eq_false_of_ne_true hcurrent)
    rw [ha] at hstale
    refine .ite (fun _ => settled_pump (sound_act hstale hs)) (fun hno => ?_)
    exact h.mono id rfl (hreleased (eq_false_of_ne_true hno)) rfl rfl
  rename_i ha
  split
  · rename_i hcurrent
    obtain ⟨r, hr, -⟩ := s.exists_active_of_isCurrent hcurrent
    exact settled_of_active (show s.core.active.isSome = true by rw [hr]; rfl)
  rename_i hcurrent
  have hstale := @Act.stale env (fun _ => True) s w rest .sent hw (eq_false_of_ne_true hcurrent)
  rw [ha] at hstale
  refine .ite (fun _ => settled_pump (sound_act hstale hs)) (fun hno => ?_)
  exact h.mono id rfl (hreleased (eq_false_of_ne_true hno)) rfl rfl

/-! ## Subscriptions, owners and the bearer -/

/-- What the acts do to a sound client can be left to them. -/
theorem walk_settled : Walk env (fun s => Sound s ∧ s.Settled) := by
  have hacts : ∀ {s s' : Client}, Acts env (fun _ => True) s s' → Sound s → Sound s' :=
    fun h hs => sound_acts h hs
  have hwalk : ∀ {s : Client}, Walk env (Acts env (fun _ => True) s) := walk_acts
  exact {
    quiet := fun h f hf => ⟨hacts (hwalk.quiet .refl f hf) h.1,
      h.2.onTransport f (Transport.notifyRefresh_of_footing hf)⟩
    told := fun h callback hc => ⟨hacts (hwalk.told .refl callback hc) h.1, h.2.note _⟩
    found := fun h path kind => ⟨hacts (hwalk.found .refl path kind) h.1,
      h.2.onTransport _ (by cases kind <;> rfl)⟩
    starting := fun h => ⟨hacts (hwalk.starting .refl) h.1, h.2.onTransport _ rfl⟩
    startFailed := fun h hoff => ⟨hacts (hwalk.startFailed .refl hoff) h.1, h.2.onTransport _ rfl⟩
    subscribing := fun h hs hcp => ⟨hacts (hwalk.subscribing .refl hs hcp) h.1,
      ((h.2.onTransport _ rfl).resetActions).endSession⟩
    failed := fun h => ⟨hacts (hwalk.failed .refl) h.1, settled_markTransportFailed⟩
    probed := fun h force => ⟨hacts (hwalk.probed .refl force) h.1,
      h.2.queueAuthorizationProbe h.1 force⟩
    cleared := fun h f g stop hf hg => ⟨hacts (hwalk.cleared .refl f g stop hf hg) h.1,
      settled_of_empty (clearSubscription_queue stop)⟩ }

/-- An owner change takes the marker away; if no reply is owed, it was not there. -/
theorem Settled.observeBluezOwner (h : s.Settled) (hs : Sound s) (oldOwner newOwner : Bool)
    (hunowed : oldOwner = false → Unowed s) :
    (s.observeBluezOwner env oldOwner newOwner).Settled := by
  unfold Client.observeBluezOwner
  split
  · exact h
  cases oldOwner with
  | false =>
    have htoken : s.core.cpWriteToken = none := by
      by_contra hsome
      obtain ⟨t, ht⟩ := Option.ne_none_iff_exists'.mp hsome
      obtain ⟨w, hw, -, hg⟩ := hs.wired.owed t ht
      exact (hunowed rfl).1 w hw hg
    have hfound : (s.nextOwner newOwner).Settled := h.mono id rfl htoken.symm rfl rfl
    have hsound := sound_act (@Act.ownerFound env (fun _ => True) s newOwner trivial) hs
    exact .ite (fun _ => (walk_settled.rebuildDiscovery ⟨hsound, hfound⟩).2) (fun _ => hfound)
  | true =>
    have hlost : ((s.nextOwner newOwner).ownerLost env).Settled := by
      exact .ite (fun _ => settled_of_empty (clearSubscription_queue false))
        (fun _ => settled_of_empty (clearSubscription_queue false))
    have hacts : Acts env (fun _ => True) s _ := acts_ownerLost .refl newOwner
    exact .ite (fun _ => (walk_settled.rebuildDiscovery ⟨sound_acts hacts hs, hlost⟩).2)
      (fun _ => hlost)

/-! ## Re-enabling the notifications -/

theorem settled_refreshFailed (e : DBusError) : (s.refreshFailed env e).Settled :=
  .ite (fun _ => settled_markTransportFailed) (fun _ => settled_escalate)

theorem Settled.toggleStart (h : s.Settled) (token : Nat) (path : Path) :
    (s.toggleStart env token path).Settled := by
  unfold Client.toggleStart
  dsimp only
  split
  · exact h.mono id rfl rfl rfl rfl
  split
  · exact settled_refreshFailed _
  · exact h.mono id rfl rfl rfl rfl

theorem Settled.toggleStopped (h : s.Settled) (toggle : Toggle) :
    (s.toggleStopped env toggle).Settled := by
  have howned : (if toggle.generation = s.tr.ownerGeneration then
      s.onTransport (fun t =>
        { t with ownedNotifyPaths := t.ownedNotifyPaths.filter (· ≠ toggle.path) })
      else s).Settled := .ite (fun _ => h.onTransport _ rfl) (fun _ => h)
  exact .ite (fun _ => howned.toggleStart _ _) (fun _ => howned)

theorem Settled.toggleStopFailed (h : s.Settled) (toggle : Toggle) (e : DBusError) :
    (s.toggleStopFailed env toggle e).Settled := by
  unfold Client.toggleStopFailed
  split
  · exact h.toggleStopped toggle
  split
  · exact settled_refreshFailed e
  · exact h

theorem Settled.toggleNotify (h : s.Settled) (token : Nat) (path : Path) :
    (s.toggleNotify env token path).Settled := by
  have hcounted := h.onTransport (fun t => { t with nextToggle := s.tr.nextToggle + 1 }) rfl
  unfold Client.toggleNotify
  dsimp only
  split
  · exact hcounted.onTransport _ rfl
  · exact hcounted.toggleStopFailed _ _

/-- The transport changes in what the facts do not look at, or a re-enable ends. -/
theorem sound_transport (hs : Sound s) {tr : Transport}
    (hsame : tr.started = s.tr.started ∧ tr.ownerGeneration = s.tr.ownerGeneration
      ∧ tr.notifyStarted = s.tr.notifyStarted ∧ tr.cpPath = s.tr.cpPath
      ∧ tr.receivers = s.tr.receivers)
    (hrefresh : tr.notifyRefresh.isSome = true → s.tr.notifyRefresh.isSome = true)
    (hnumbered : tr.Numbered) : Sound ⟨tr, s.core⟩ := by
  obtain ⟨hstarted, hgeneration, hnotify, hcp, hreceivers⟩ := hsame
  refine ⟨hs.backlog, by rw [hgeneration]; exact hs.wired, ?_, hnumbered, ?_⟩
  · exact ⟨by rw [hnotify, hstarted, hcp]; exact hs.fine.subscribed,
      by rw [hreceivers, hnotify]; exact hs.fine.received,
      fun hr => by rw [hnotify]; exact hs.fine.refreshed (hrefresh hr)⟩
  · rw [hnotify]
    exact hs.subscribed

theorem settled_refreshDone (hs : Sound s) (hon : s.tr.notifyStarted = true) :
    (s.refreshDone env).Settled := by
  have hover : Sound (s.onTransport fun t => { t with notifyRefresh := none }) :=
    sound_transport hs ⟨rfl, rfl, rfl, rfl, rfl⟩ (fun hr => by cases hr)
      ⟨hs.numbered.below, hs.numbered.nodup⟩
  have hacts : Acts env (fun _ => True)
      (s.onTransport fun t => { t with notifyRefresh := none }) _ :=
    acts_newRid (acts_resetActions .refl)
  have hreset := sound_acts hacts hover
  unfold Client.refreshDone
  dsimp only
  split
  · rename_i c hc
    exact settled_pump (sound_act
      (@Act.queued env (fun _ => True) _ _ true c (new_authorizationProbe _) hon hc) hreset)
  · split
    · exact settled_pump hreset
    · exact settled_escalate

theorem settled_refreshNext (hs : Sound s) (hon : s.tr.notifyStarted = true) (refresh : Refresh) :
    (s.refreshNext env refresh).Settled := by
  unfold Client.refreshNext
  split
  · exact (settled_of_refresh rfl).toggleNotify _ _
  · exact settled_refreshDone hs hon

theorem Settled.toggleStarted (h : s.Settled) (hs : Sound s) (toggle : Toggle) :
    (s.toggleStarted env toggle).Settled := by
  unfold Client.toggleStarted
  extract_lets u
  obtain ⟨hu, husettled⟩ : Sound u ∧ u.Settled := by
    by_cases hown : toggle.generation = s.tr.ownerGeneration
    · rw [show u = _ from if_pos hown]
      refine ⟨sound_transport hs ⟨rfl, rfl, rfl, rfl, rfl⟩ id ?_, h.onTransport _ rfl⟩
      exact ⟨hs.numbered.below, hs.numbered.nodup⟩
    · rw [show u = s from if_neg hown]
      exact ⟨hs, h⟩
  split
  · split
    · exact husettled
    rename_i refresh hrefresh
    exact settled_refreshNext hu (hu.fine.refreshed (by rw [hrefresh]; rfl)) refresh
  · exact husettled

theorem Settled.toggleAnswered (h : s.Settled) (hs : Sound s) (toggle : Toggle)
    (error : Option DBusError) : (s.toggleAnswered env toggle error).Settled := by
  have hanswered := h.onTransport (fun t =>
    { t with toggles := t.toggles.filter (fun x => x.number ≠ toggle.number) }) rfl
  unfold Client.toggleAnswered
  dsimp only
  split
  · exact hanswered.toggleStopped toggle
  · exact hanswered.toggleStopFailed toggle _
  · refine hanswered.toggleStarted ?_ toggle
    exact sound_transport hs ⟨rfl, rfl, rfl, rfl, rfl⟩ id (hs.numbered.answered _)
  split
  · exact settled_refreshFailed _
  · exact hanswered

theorem settled_refreshNotifications (hs : s.refreshNotifications env = some s') : s'.Settled := by
  unfold Client.refreshNotifications at hs
  split at hs
  · split at hs
    · cases hs
    cases hs
    exact (settled_of_refresh rfl).toggleNotify _ _
  · cases hs

theorem settled_requestTimedOut (hs : Sound s) (hdue : s.core.requestTimer = true) :
    (s.requestTimedOut env).Settled := by
  have hfinished : Acts env (fun _ => True) s (s.onCore (·.finishActive)) :=
    .single (.finished (fun _ _ => .inr hdue))
  unfold Client.requestTimedOut
  dsimp only
  split
  · rename_i hnone
    have hcore : s.core.finishActive = { s.core with requestTimer := false } :=
      Core.finishActive_none hnone
    have hfinished : Acts env (fun _ => True) s ⟨s.tr, s.core.finishActive⟩ := hfinished
    rw [hcore] at hfinished
    exact settled_pump_of_acts hs hfinished
  rename_i r hr
  split
  · split
    · rename_i s₁ hs₁
      exact settled_refreshNotifications hs₁
    · exact settled_escalate
  · exact settled_pump_of_acts hs (acts_abandonTimedOut hr hfinished)

/-! ## Packets and calls -/

theorem Settled.arrive (h : s.Settled) (n : Notification) :
    (s.onCore (Client.arrive n)).Settled := by
  obtain ⟨after, before, -, -, heq⟩ := Core.arrive_eq n s.core
  have hcore : (s.onCore (Client.arrive n)).core = Client.arrive n s.core := rfl
  refine h.mono ?_ ?_ ?_ ?_ rfl <;> rw [hcore, heq]
  · intro hq
    simp [Core.removeIf, hq]
  · rfl
  · rfl
  · rfl

theorem Settled.replay (h : s.Settled) : (s.onCore Client.replay).Settled := by
  unfold Client.onCore Client.replay
  dsimp only
  split
  · split
    · exact h.endSession
    · exact h
  have hreset := h.resetActions
  split
  · exact hreset.endSession
  · exact hreset

theorem Settled.onNsChanged (h : s.Settled) (hs : Sound s) (hon : s.tr.notifyStarted = true)
    (data : Bytes) : (s.onNsChanged env data).Settled := by
  unfold Client.onNsChanged
  split
  · exact h
  rename_i n _
  have harrived := h.arrive n
  split
  · exact (harrived.discard (some n.id)).note (.called (.removed n.id))
  split
  · exact harrived.replay
  have hacts : ∀ categories, Acts env (fun _ => True) s _ := fun categories =>
    acts_newRid (acts_book (acts_arrive .refl n)
      (fun c => { c with liveEventsSeen := true, categories }) rfl)
  have hcounted : ∀ categories, ((s.onCore (Client.arrive n)).onCore
      (fun c => { c with liveEventsSeen := true, categories })).newRid.1.Settled :=
    fun categories => harrived.mono id rfl rfl rfl rfl
  exact (hcounted _).enqueue (sound_acts (hacts _) hs) (new_probeRequest _ _) false hon

theorem settled_handleNotificationResponse {r : PendingRequest} (hs : Sound s)
    (hactive : s.core.active = some r)
    (h : Acts env (fun _ => True) s (s.onCore (·.finishActive))) (hon : s.tr.notifyStarted = true)
    (body : Bytes) :
    ((s.onCore (·.finishActive)).handleNotificationResponse env r body).Settled := by
  have habandoned := settled_pump_of_acts hs (acts_abandonFinished hactive h)
  unfold Client.handleNotificationResponse
  split
  · exact settled_pump_of_acts hs h
  split
  · split
    · exact habandoned
    split
    · exact settled_pump_of_acts hs h
    · exact settled_pump_of_acts hs (acts_handleProbe h hon _ _)
  split
  · exact habandoned
  split
  · exact settled_pump_of_acts hs h
  · exact settled_pump_of_acts hs (acts_handleNotificationAttrs h hon _)

theorem Settled.onDsChanged (h : s.Settled) (hs : Sound s) (hon : s.tr.notifyStarted = true)
    (data : Bytes) : (s.onDsChanged env data).Settled := by
  unfold Client.onDsChanged
  split
  · exact h
  rename_i r hactive
  split
  · exact h
  rename_i assembler hassembler
  have hfinished : Acts env (fun _ => True) s (s.onCore (·.finishActive)) := by
    refine .single (.finished (fun r' hr' => ?_))
    rw [hactive] at hr'
    cases hr'
    exact .inl (by rw [hassembler]; rfl)
  have habandoned := settled_pump_of_acts hs (acts_abandonFinished hactive hfinished)
  split
  · exact habandoned
  · exact settled_of_active rfl
  unfold Client.handleResponse
  split
  · exact settled_pump_of_acts hs hfinished
  split
  · exact habandoned
  split
  · exact settled_handleNotificationResponse hs hactive hfinished hon _
  split
  · split
    · exact habandoned
    rename_i app _
    refine settled_pump_of_acts hs (acts_handleAppAttrs ?_ app)
    exact acts_ite (unmoved_acts.markAuthorized hfinished) hfinished
  · exact settled_pump_of_acts hs hfinished

theorem Settled.performNotificationAction (h : s.Settled) (hs : Sound s) (uid : Nat)
    (positive : Bool) (token call : Nat) :
    (s.performNotificationAction env uid positive token call).Settled := by
  have hrefused : ∀ result, (s.note (.called (.actionResult call result))).Settled :=
    fun result => h.note _
  unfold Client.performNotificationAction
  dsimp only
  split
  · exact hrefused _
  rename_i entry hentry
  by_cases htoken : entry.token ≠ token
      ∨ (if positive = true then entry.positive else entry.negative) = false
  · rw [if_pos htoken]
    exact hrefused _
  rw [if_neg htoken]
  split
  · exact hrefused _
  rename_i hconnected
  have hon : s.tr.notifyStarted = true := by
    by_contra hoff
    exact hconnected (by simp [Transport.connected, hoff])
  split
  · exact hrefused _
  split
  · exact hrefused _
  rename_i c hc
  have hbacklog : (s.newRid.1).core.Backlog := (sound_newRid hs).backlog
  refine settled_pump ⟨(hbacklog.enqueue rfl rfl hc).congr rfl, ?_, hs.fine,
    hs.numbered, fun _ => hon⟩
  rw [Core.enqueue_eq hc]
  exact hs.wired.congr ⟨rfl, rfl, rfl⟩ rfl rfl

/-- **One step**: the queue is waited for after it, as it was before it. -/
theorem settled_step (input : Env × Input) (hok : OwnersInOrder s input) (hs : Sound s)
    (h : s.Settled) : (s.step input).Settled := by
  obtain ⟨env, i⟩ := input
  have hsubscribed : s.tr.receiversCurrent = true → s.tr.notifyStarted = true := by
    intro hcurrent
    simp only [Transport.receiversCurrent, Bool.and_eq_true, beq_iff_eq] at hcurrent
    exact hs.fine.received (by rw [hcurrent.2]; rfl)
  cases i with
  | start => exact (walk_settled.start ⟨hs, h⟩).2
  | stop => exact (walk_settled.stop ⟨hs, h⟩).2
  | owner oldOwner newOwner =>
    refine h.observeBluezOwner hs oldOwner newOwner (fun hold => ?_)
    subst hold
    exact hok
  | bearer connected legacyConnected =>
    exact (walk_settled.observeBearerState ⟨hs, h⟩ connected legacyConnected).2
  | ifaceAdded path kind =>
    exact .ite (fun _ => (walk_settled.onIfaceAdded ⟨hs, h⟩ path kind).2) (fun _ => h)
  | ifaceRemoved path =>
    exact .ite (fun _ => (walk_settled.onIfaceRemoved ⟨hs, h⟩ path).2) (fun _ => h)
  | ns data => exact .ite (fun hc => h.onNsChanged hs (hsubscribed hc) data) (fun _ => h)
  | ds data => exact .ite (fun hc => h.onDsChanged hs (hsubscribed hc) data) (fun _ => h)
  | writeReply token =>
    show (s.answerWrite token (fun w s => s.written env w)).Settled
    unfold answerWrite
    split
    · exact h
    · exact settled_written hs h (perm_of_find? hs.wired.tokens ‹_›)
  | writeError token e =>
    show (s.answerWrite token (fun w s => s.writeFailed env e w)).Settled
    unfold answerWrite
    split
    · exact h
    rename_i w hw
    have hopen := perm_of_find? hs.wired.tokens hw
    have hacts : Acts env (fun _ => True) s _ := acts_failed .refl hopen e
    have hfailed := @settled_failed env s hs h w (s.core.writes.filter (fun x => x.token ≠ token)) e
    exact .ite (fun _ => settled_pump (sound_acts hacts hs))
      (fun hno => hfailed.2 (eq_false_of_ne_true hno))
  | toggleReply number error =>
    simp only [step]
    split
    · exact h
    · exact h.toggleAnswered hs _ error
  | requestTimeout => exact .ite (fun hdue => settled_requestTimedOut hs hdue) (fun _ => h)
  | busyRetry =>
    refine .ite (fun _ => ?_) (fun _ => h)
    exact settled_pump (hs.same rfl)
  | managerRetry => exact .ite (fun _ => (walk_settled.retryManagerBind ⟨hs, h⟩).2) (fun _ => h)
  | subscribeRetry => exact .ite (fun _ => (walk_settled.retrySubscribe ⟨hs, h⟩).2) (fun _ => h)
  | authorizationRetry => exact .ite (fun _ => (walk_settled.retryAuthorization ⟨hs, h⟩).2) (fun _ => h)
  | bearerSettle => exact .ite (fun _ => (walk_settled.finishBearerSettle ⟨hs, h⟩).2) (fun _ => h)
  | transportReset => exact .ite (fun _ => (walk_settled.requestTransportReset ⟨hs, h⟩).2) (fun _ => h)
  | legacyHealth => exact .ite (fun _ => (walk_settled.checkLegacyHealth ⟨hs, h⟩).2) (fun _ => h)
  | actionsChanged => exact .ite (fun _ => h) (fun _ => h.resetActions)
  | perform uid positive token call => exact h.performNotificationAction hs uid positive token call
  | probeHealth => exact (walk_settled.probeHealth ⟨hs, h⟩).2

end Client

/-! ## Every run -/

/-- At most one open write belongs to each bluetoothd. -/
theorem Core.Wired.one_write {g : Nat} {c : Core} (h : c.Wired g) (generation : Nat) :
    (c.writes.filter (fun w => w.generation = generation)).length ≤ 1 := by
  have hnodup : ((c.writes.filter (fun w => w.generation = generation)).map
      (·.generation)).Nodup := (List.Sublist.map _ List.filter_sublist).nodup h.generations
  have hsame : ∀ x ∈ (c.writes.filter (fun w => w.generation = generation)).map (·.generation),
      x = generation := by
    intro x hx
    obtain ⟨w, hw, rfl⟩ := List.mem_map.mp hx
    simpa using (List.mem_filter.mp hw).2
  calc (c.writes.filter (fun w => w.generation = generation)).length
      = ((c.writes.filter (fun w => w.generation = generation)).map (·.generation)).length := by
        rw [List.length_map]
    _ ≤ 1 := by
        generalize (c.writes.filter (fun w => w.generation = generation)).map (·.generation) = l at *
        match l, hnodup, hsame with
        | [], _, _ => exact Nat.zero_le _
        | [_], _, _ => exact le_rfl
        | x :: y :: _, hnodup, hsame =>
          have hx := hsame x (by simp)
          have hy := hsame y (by simp)
          simp [hx, hy] at hnodup

/-- A key is reserved for a queued request, or for the active one while it is wanted. -/
theorem Core.Backlog.mem_reserved {c : Core} (h : c.Backlog) (key : Key) :
    key ∈ c.reserved ↔ (∃ r ∈ c.queue, r.key = key)
      ∨ ∃ r, c.active = some r ∧ r.discarded = false ∧ r.key = key := by
  rw [h.keys.mem_iff, List.mem_map]
  constructor
  · rintro ⟨r, hr, hkey⟩
    rcases List.mem_append.mp hr with hr | hr
    · simp only [Option.mem_toList, Option.filter_eq_some_iff, Bool.not_eq_true'] at hr
      exact .inr ⟨r, hr.1, hr.2, hkey⟩
    · exact .inl ⟨r, hr, hkey⟩
  · rintro (⟨r, hr, hkey⟩ | ⟨r, hr, hwanted, hkey⟩)
    · exact ⟨r, c.queue_subset_held hr, hkey⟩
    · exact ⟨r, Core.mem_held_of_active hr hwanted, hkey⟩

/-- What the client waits for, after every run with the owners in order. -/
theorem lively_run (previouslyAuthorized : Bool) (inputs : List (Env × Input))
    (hok : Machine.Along Client.step OwnersInOrder (Client.initial previouslyAuthorized) inputs) :
    Lively (Machine.run Client.step (Client.initial previouslyAuthorized) inputs)
      ∧ (Machine.run Client.step (Client.initial previouslyAuthorized) inputs).Settled := by
  have hstep : ∀ s i, OwnersInOrder s i → Sound s ∧ Lively s ∧ s.Settled →
      Sound (s.step i) ∧ Lively (s.step i) ∧ (s.step i).Settled := by
    rintro s i hi ⟨hsound, hlively, hsettled⟩
    exact ⟨sound_step s i hsound, lively_step s i hi hsound hlively,
      Client.settled_step i hi hsound hsettled⟩
  refine (Machine.invariant Client.step hstep hok ?_).2
  exact ⟨sound_initial _, .idle rfl (fun f hf => by cases hf), Client.settled_of_empty rfl⟩

/-- **The requests are kept in order**, after every run. Each bluetoothd owes the reply to one write
at most; no key is queued twice; the reserved keys are those of the queued requests and of the
active one, unless it was retired, and there are no more of them than the limit. And where
bluetoothd comes and goes in order, a request that is still queued waits for something that pumps
the queue again; an active request waits in turn for the reply to its write or for its timer, and the
write that the client waits for is open. -/
theorem requests_in_order (previouslyAuthorized : Bool) (inputs : List (Env × Input)) :
    let s := Machine.run Client.step (Client.initial previouslyAuthorized) inputs
    (∀ generation, (s.core.writes.filter (fun w => w.generation = generation)).length ≤ 1)
      ∧ (s.core.queue.map (·.key)).Nodup
      ∧ (s.core.reserved.Nodup ∧ ∀ key, key ∈ s.core.reserved ↔ (∃ r ∈ s.core.queue, r.key = key)
        ∨ ∃ r, s.core.active = some r ∧ r.discarded = false ∧ r.key = key)
      ∧ s.core.reserved.length ≤ maxAncsRequests
      ∧ (Machine.Along Client.step OwnersInOrder (Client.initial previouslyAuthorized) inputs →
        (s.core.queue ≠ [] → s.isBlocked = true)
          ∧ (s.core.active.isSome = true →
            s.core.cpWriteToken.isSome = true ∨ s.core.requestTimer = true)
          ∧ ∀ token, s.core.cpWriteToken = some token → ∃ w ∈ s.core.writes, w.token = token) := by
  intro s
  have hs : Sound s := sound_run previouslyAuthorized inputs
  refine ⟨hs.wired.one_write, ?_, ⟨?_, hs.backlog.mem_reserved⟩, hs.backlog.bound, ?_⟩
  · exact (List.Sublist.map _ (List.sublist_append_right _ _)).nodup hs.backlog.nodup
  · exact hs.backlog.keys.nodup_iff.mpr hs.backlog.nodup
  intro hok
  obtain ⟨hlively, hsettled⟩ := lively_run previouslyAuthorized inputs hok
  refine ⟨fun hqueue => ?_, hlively.attended, fun token htoken => ?_⟩
  · unfold Client.isBlocked
    simp only [Bool.or_eq_true, or_assoc]
    rcases hsettled hqueue with h | h | h | h
    · exact .inl h
    · exact .inr (.inl h)
    · exact .inr (.inr (.inl h))
    · exact .inr (.inr (.inr (.inl h)))
  · obtain ⟨w, hw, hsame, -⟩ := hs.wired.owed token htoken
    exact ⟨w, hw, hsame⟩

/-- Two notifications arrive while the Control Point is free: one probe is written, the other one
waits. -/
def twoArrivals : List (Env × Input) :=
  connecting ++ [.ns [0, 8, 4, 1, 7, 0, 0, 0], .ns [0, 8, 4, 1, 9, 0, 0, 0]].map
    (Prod.mk (friendly true))

theorem requests_in_order_two :
    (Machine.run Client.step (Client.initial false) twoArrivals).core.queue.map (·.key)
        = [.notification 9]
      ∧ (Machine.run Client.step (Client.initial false) twoArrivals).isBlocked = true := by
  refine ⟨by decide +kernel, ?_⟩
  have h := requests_in_order false twoArrivals
  exact (h.2.2.2.2 (by decide +kernel)).1 (by decide +kernel)

/-- The first one is removed before the phone has answered. -/
def retiring : List (Env × Input) :=
  twoArrivals ++ [(friendly true, .ns [2, 0, 4, 1, 7, 0, 0, 0])]

/-- The key of a retired request is not reserved, although the request is still active. -/
theorem retired_key_is_free :
    ¬ ∀ (previouslyAuthorized : Bool) (inputs : List (Env × Input)) (key : Key),
      key ∈ (Machine.run Client.step (Client.initial previouslyAuthorized) inputs).core.reserved
        ↔ (∃ r ∈ (Machine.run Client.step (Client.initial previouslyAuthorized) inputs).core.queue,
            r.key = key)
          ∨ ∃ r, (Machine.run Client.step (Client.initial previouslyAuthorized) inputs).core.active
              = some r ∧ r.key = key := by
  intro hall
  have hactive : ((Machine.run Client.step (Client.initial false) retiring).core.active.map
      (·.key)) = some (.retired (.notification 7)) := by decide +kernel
  have hreserved : (Machine.run Client.step (Client.initial false) retiring).core.reserved
      = [.notification 9] := by decide +kernel
  obtain ⟨r, hr, hkey⟩ := Option.map_eq_some_iff.mp hactive
  have hmem := (hall false retiring (.retired (.notification 7))).mpr (.inr ⟨r, hr, hkey⟩)
  rw [hreserved] at hmem
  exact absurd hmem (by decide)

end BlueFerry.Ancs
