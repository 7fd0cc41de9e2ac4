import BlueFerry.Ancs.Walk

/-! # The moves of the client

Every step of the client is a sequence of *moves*, each of which changes the client in one way that
an invariant can be checked against. The handlers are taken apart here once (`moves_step`); what
holds of the client in every run is then proved move by move.

Some moves are *delicate*: whether an invariant survives them depends on the state they meet. They
carry the condition `allow`, which the proof of an invariant chooses, and `delicate` computes from
the state and the input what delicate moves the step would make.
-/

namespace BlueFerry.Ancs

open BlueFerry.Text

/-- The delicate moves. -/
inductive Delicate where
  /-- a live Notification Source event -/
  | live (n : Notification)
  /-- an event about a notification from before the subscription -/
  | replayed (n : Notification)
  /-- the actions are reset while the session goes on -/
  | actionsReset
  /-- the busy-retry timer fires -/
  | busyRetryDue
  /-- a write failed with a retryable error that BlueZ reports later than the call -/
  | retry (r : PendingRequest)
  deriving DecidableEq

namespace Core

/-- Some app's waiting notifications include this one. -/
def IsWaiting (c : Core) (w : Waiting) : Prop := ∃ p ∈ c.pendingAppLookups, w ∈ p.2

/-- The active request is finished and the answer to its probe noted. -/
def probeAnswered (env : Env) (a : Arrival) (appId : Str) (observed : List Str) (nextRid : Nat)
    (c : Core) : Core :=
  { c.finishActive.note (.probed a.notification.id appId env.includeNonMessageNotifications
      (env.includeAppNotification appId) env.notificationActions) with
    observedAppIds := observed, nextRid }

/-- A live event has arrived and nothing is asked for it yet. -/
def arrivedLive (n : Notification) (categories : List (Nat × Nat)) (nextRid : Nat) (c : Core) :
    Core :=
  { Client.arrive n c with liveEventsSeen := true, categories, nextRid }

/-- The offer for a notification is marked as used or not. -/
def flagOffer (uid : Nat) (inFlight : Bool) (c : Core) : Core :=
  let entries := c.actionable.map (fun e => if e.uid = uid then { e with inFlight } else e)
  { c with actionable := entries }

end Core

/-- The policy callbacks accept an app: it is Messages, or all three conditions hold. -/
def policyAccepts (includeNonMessage includeApp : Bool) (appId : Str) : Bool :=
  appId == messagesAppId || (isAppId appId && includeNonMessage && includeApp)

/-- A complete Data Source response to the active request, which is still wanted. -/
structure Answered (heard : PendingRequest → Bytes → Prop) (c : Core) (r : PendingRequest)
    (ev : DataSourceEvent) : Prop where
  active : c.active = some r
  wanted : r.discarded = false
  complete : ∃ assembler data rest complete, heard r data ∧ r.assembler = some assembler
    ∧ assembler.feed data = (rest, .ok (some complete)) ∧ DataSourceEvent.parse complete = .ok ev
  type : ev.type = CommandID.getNotificationAttributes

/-- The attributes of a notification, in answer to the active request. -/
structure ContentAnswered (heard : PendingRequest → Bytes → Prop) (c : Core) (r : PendingRequest)
    (a : Arrival) (attrs : NotificationAttributes) : Prop where
  answered : ∃ ev, Answered heard c r ev
    ∧ NotificationAttributes.parse ev.body r.actionLabelIds = .ok attrs
  notification : r.notification = some a
  content : r.appProbe = false
  expected : some attrs.appId = r.expectedAppId

/-- One move. The condition `heard` is on the packets that a request is fed. -/
inductive Move (env : Env) (allow : Delicate → Core → Prop)
    (heard : PendingRequest → Bytes → Prop) : Client → Client → Prop
  /-- what the client knows of its transport changes -/
  | transport {s : Client} (tr : Transport)
      (h : tr.notifyRefresh.isSome = s.tr.notifyRefresh.isSome) : Move env allow heard s ⟨tr, s.core⟩
  | called {s : Client} (callback : Callback) : Move env allow heard s (s.note (.called callback))
  /-- timers, counters and caches change -/
  | book {s : Client} (requestTimer : Bool) (nextRid : Nat) (appNameCache : List (Str × Str))
      (observedAppIds appLookupRequested : List Str) :
      Move env allow heard s (s.onCore fun c =>
        { c with requestTimer, nextRid, appNameCache, observedAppIds, appLookupRequested })
  | resume {s : Client} (h : allow .busyRetryDue s.core) :
      Move env allow heard s (s.onCore fun c => { c with busyRetry := false })
  /-- `_clear_characteristic_subscription` -/
  | clear {s : Client} (tr : Transport) (h : tr.notifyRefresh = none) :
      Move env allow heard s ⟨tr, s.core.resetRequests.resetActions.endSession⟩
  | subscribe {s : Client} : Move env allow heard s (s.onCore fun c => c.resetActions.endSession)
  /-- a CCC re-enable starts -/
  | refresh {s : Client} (tr : Transport) (h : tr.notifyRefresh.isSome = true) :
      Move env allow heard s ⟨tr, s.core.finishActive.endSession⟩
  /-- the opt-in was switched off, or a CCC re-enable is done -/
  | reset {s : Client} (tr : Transport) (h : allow .actionsReset s.core) :
      Move env allow heard s ⟨tr, s.core.resetActions⟩
  | removed {s : Client} (n : Notification) (hid : n.id < 2 ^ 32)
      (h : n.type = notificationRemoved) :
      Move env allow heard s (s.onCore fun c =>
        (Client.arrive n c).discardNotificationRequests (some n.id))
  | replayed {s : Client} (n : Notification) (hid : n.id < 2 ^ 32)
      (h : allow (.replayed n) s.core) :
      Move env allow heard s (s.onCore fun c => Client.replay (Client.arrive n c))
  /-- a live event, whose probe is queued unless the backlog refuses it -/
  | live {s : Client} (n : Notification) (categories : List (Nat × Nat)) (nextRid : Nat) (rid : Nat)
      (hid : n.id < 2 ^ 32) (h : allow (.live n) s.core) :
      Move env allow heard s (s.onCore fun c =>
        ((c.arrivedLive n categories nextRid).enqueue (Client.probeRequest rid ⟨n, c.serials⟩)
          false).getD (c.arrivedLive n categories nextRid))
  | askApp {s : Client} (r : PendingRequest) (front : Bool) (c : Core)
      (hr : (∃ rid, r = Client.authorizationProbe rid)
        ∨ ∃ rid appId, r = Client.appNameRequest rid appId)
      (h : s.core.enqueue r front = some c) : Move env allow heard s ⟨s.tr, c⟩
  | write {s : Client} (r : PendingRequest) (rest : List PendingRequest)
      (hqueue : s.core.queue = r :: rest) (hfree : s.isBlocked = false) :
      Move env allow heard s (s.startWrite env r rest)
  | opened {s : Client} (w : Write) (r : PendingRequest) (hactive : s.core.active = some r)
      (hw : w.rid = r.rid ∧ w.action = r.action) :
      Move env allow heard s (s.onCore fun c => { c with writes := c.writes ++ [w] })
  /-- a write was answered, or its bluetoothd is gone -/
  | answered {s : Client} (writes : List Write) (token : Option Nat)
      (hwrites : writes ⊆ s.core.writes) (htoken : token = s.core.cpWriteToken ∨ token = none) :
      Move env allow heard s (s.onCore fun c => { c with writes, cpWriteToken := token })
  /-- the active request goes back to the front of the queue -/
  | retry {s : Client} (r : PendingRequest) (writes : List Write) (token : Option Nat) (n : Nat)
      (hactive : s.core.active = some r) (hwanted : r.discarded = false)
      (hwrites : writes ⊆ s.core.writes) (htoken : token = s.core.cpWriteToken ∨ token = none)
      (h : allow (.retry r) s.core
        ∨ ∃ actions earlier, s.core.log = .wrote r.packet r.action actions :: earlier) :
      Move env allow heard s (s.onCore fun c => Client.pushFront { r with busyRetries := n }
        { c with writes, cpWriteToken := token, active := none })
  | finish {s : Client} (key : Key) : Move env allow heard s (s.onCore (·.finish key))
  | deactivate {s : Client} : Move env allow heard s (s.onCore fun c => { c with active := none })
  /-- the offer for a notification is used up -/
  | retire {s : Client} (uid : Nat) :
      Move env allow heard s (s.onCore fun c =>
        { c with actionable := c.actionable.filter (fun e => e.uid ≠ uid) })
  /-- the offer for a notification can be used again -/
  | unflag {s : Client} (uid : Nat) :
      Move env allow heard s (s.onCore (·.flagOffer uid false))
  | emitWaiting {s : Client} (w : Waiting) (appName : Str) (h : s.core.IsWaiting w) :
      Move env allow heard s (s.onCore (·.emit env w appName))
  | forgetWaiting {s : Client} (pending : List (Str × List Waiting))
      (h : ∀ p ∈ pending, ∀ w ∈ p.2, s.core.IsWaiting w) :
      Move env allow heard s (s.onCore fun c => { c with pendingAppLookups := pending })
  | feed {s : Client} (r : PendingRequest) (assembler assembler' : DataSourceAssembler) (data : Bytes)
      (hactive : s.core.active = some r) (hr : r.assembler = some assembler)
      (hheard : heard r data) (h : assembler.feed data = (assembler', .ok none)) :
      Move env allow heard s (s.onCore fun c =>
        { c with active := some { r with assembler := some assembler' } })
  | probed {s : Client} (r : PendingRequest) (a : Arrival) (ev : DataSourceEvent) (appId : Str)
      (observed : List Str) (nextRid : Nat) (h : Answered heard s.core r ev)
      (hn : r.notification = some a) (hp : r.appProbe = true)
      (hbody : parseNotificationAppIdentifier ev.body = .ok (a.notification.id, appId)) :
      Move env allow heard s (s.onCore (·.probeAnswered env a appId observed nextRid))
  /-- the same, for an app that the policy accepts: its content is asked for -/
  | accepted {s : Client} (r : PendingRequest) (a : Arrival) (ev : DataSourceEvent) (appId : Str)
      (observed : List Str) (nextRid rid : Nat) (c : Core) (h : Answered heard s.core r ev)
      (hn : r.notification = some a) (hp : r.appProbe = true)
      (hbody : parseNotificationAppIdentifier ev.body = .ok (a.notification.id, appId))
      (hpolicy : policyAccepts env.includeNonMessageNotifications
        (env.includeAppNotification appId) appId = true)
      (henqueue : (s.core.probeAnswered env a appId observed nextRid).enqueue
        (Client.fullRequest env rid a appId) false = some c) : Move env allow heard s ⟨s.tr, c⟩
  | emitContent {s : Client} (r : PendingRequest) (a : Arrival) (attrs : NotificationAttributes)
      (cache : List (Str × Str)) (appName : Str) (h : ContentAnswered heard s.core r a attrs) :
      Move env allow heard s (s.onCore fun c =>
        ({ c.finishActive with appNameCache := cache } : Core).emit env ⟨attrs, a.serial⟩ appName)
  | contentWaits {s : Client} (r : PendingRequest) (a : Arrival) (attrs : NotificationAttributes)
      (h : ContentAnswered heard s.core r a attrs) :
      Move env allow heard s (s.onCore fun c =>
        Client.addWaiting attrs.appId ⟨attrs, a.serial⟩ c.finishActive)
  /-- an offered action is used -/
  | perform {s : Client} (rid : Nat) (a : ActionRequest) (entry : Actionable) (c : Core)
      (hentry : s.core.actionable.find? (fun e => e.uid == a.uid) = some entry)
      (ha : a.token = entry.token ∧ a.serial = entry.serial ∧ entry.inFlight = false)
      (hopt : env.notificationActions = true)
      (henqueue : s.core.enqueue (Client.actionRequest rid a) true = some c) :
      Move env allow heard s ⟨s.tr, c.flagOffer a.uid true⟩

/-- A sequence of moves. -/
abbrev Moves (env : Env) (allow : Delicate → Core → Prop)
    (heard : PendingRequest → Bytes → Prop) : Client → Client → Prop :=
  Relation.ReflTransGen (Move env allow heard)

/-! ## The transport

A re-enable that is in progress stays in progress under every change of the transport but those
that a move names. -/

namespace Transport

@[simp] theorem clearSubscription_notifyRefresh (env : Env) (stop : Bool) (t : Transport) :
    (t.clearSubscription env stop).notifyRefresh = none := by
  unfold clearSubscription
  dsimp only
  split <;> rfl

end Transport

section

variable {env : Env} {allow : Delicate → Core → Prop} {heard : PendingRequest → Bytes → Prop}
  {s₀ s s' : Client}

theorem moves_onTransport (h : Moves env allow heard s₀ s) (f : Transport → Transport)
    (hf : (f s.tr).notifyRefresh = s.tr.notifyRefresh) : Moves env allow heard s₀ (s.onTransport f) :=
  h.tail (.transport _ (by rw [hf]))

theorem moves_called (h : Moves env allow heard s₀ s) (callback : Callback) :
    Moves env allow heard s₀ (s.note (.called callback)) := h.tail (.called _)

theorem unmoved_moves : Unmoved (Moves env allow heard s₀) where
  quiet h f hf := moves_onTransport h f (Transport.notifyRefresh_of_footing hf)
  told h callback _ := moves_called h callback

theorem moves_ite {p : Prop} [Decidable p] {t u : Client} (ht : Moves env allow heard s₀ t)
    (hu : Moves env allow heard s₀ u) : Moves env allow heard s₀ (if p then t else u) := by
  split
  · exact ht
  · exact hu

/-- The subscription is cleared, whatever the transport was just before. -/
theorem moves_clearSubscription (h : Moves env allow heard s₀ s) (hcore : s'.core = s.core)
    (stop : Bool) : Moves env allow heard s₀ (s'.clearSubscription env stop) := by
  have hmove : Move env allow heard s (s'.clearSubscription env stop) := by
    unfold Client.clearSubscription Client.onTransport Client.onCore
    rw [hcore]
    exact .clear _ (by simp)
  exact h.tail hmove

theorem moves_markTransportFailed (h : Moves env allow heard s₀ s) (hcore : s'.core = s.core) :
    Moves env allow heard s₀ (s'.markTransportFailed env) := by
  refine unmoved_moves.statusIf (unmoved_moves.quiet (moves_clearSubscription h ?_ _) _ ?_) _
  · exact hcore
  · split <;> simp

theorem moves_escalateUnresponsiveTransport (h : Moves env allow heard s₀ s)
    (hcore : s'.core = s.core) : Moves env allow heard s₀ (s'.escalateUnresponsiveTransport env) := by
  apply moves_markTransportFailed h
  split <;> exact hcore

/-! ## Emitting what waits -/

namespace Core

/-- Emitting an event does not look at the waiting notifications. -/
theorem emit_pending (env : Env) (w : Waiting) (appName : Str) (c : Core) (asked : List Str)
    (pending : List (Str × List Waiting)) :
    ({ c with appLookupRequested := asked, pendingAppLookups := pending } : Core).emit env w appName
      = { c.emit env w appName with appLookupRequested := asked, pendingAppLookups := pending } := by
  unfold emit
  dsimp only
  split
  · split <;> rfl
  · rfl

@[simp] theorem emit_pendingAppLookups (env : Env) (w : Waiting) (appName : Str) (c : Core) :
    (c.emit env w appName).pendingAppLookups = c.pendingAppLookups := by
  unfold emit
  dsimp only
  split
  · split <;> rfl
  · rfl

theorem foldl_emit_pending (env : Env) (appName : Str) (ws : List Waiting) (c : Core)
    (asked : List Str) (pending : List (Str × List Waiting)) :
    ws.foldl (fun c w => c.emit env w appName)
        { c with appLookupRequested := asked, pendingAppLookups := pending }
      = { ws.foldl (fun c w => c.emit env w appName) c with
          appLookupRequested := asked, pendingAppLookups := pending } := by
  induction ws generalizing c with
  | nil => rfl
  | cons w ws ih => rw [List.foldl_cons, List.foldl_cons, emit_pending, ih]

theorem isWaiting_of_mem_waitingFor {c : Core} {appId : Str} {w : Waiting}
    (h : w ∈ c.waitingFor appId) : c.IsWaiting w := by
  unfold waitingFor at h
  cases hl : c.pendingAppLookups.lookup appId with
  | none => simp [hl] at h
  | some ws =>
    rw [hl] at h
    obtain ⟨before, after, hsplit, -⟩ := List.lookup_eq_some_iff.mp hl
    exact ⟨(appId, ws), by simp [hsplit], h⟩

end Core

theorem moves_emits (ws : List Waiting) (appName : Str) (h : Moves env allow heard s₀ s)
    (hw : ∀ w ∈ ws, s.core.IsWaiting w) :
    Moves env allow heard s₀ (s.onCore fun c => ws.foldl (fun c w => c.emit env w appName) c) := by
  induction ws generalizing s with
  | nil => exact h
  | cons w ws ih =>
    have hfirst : Moves env allow heard s₀ (s.onCore (·.emit env w appName)) :=
      h.tail (.emitWaiting w appName (hw w (by simp)))
    refine ih hfirst (fun x hx => ?_)
    unfold Core.IsWaiting Client.onCore
    rw [Core.emit_pendingAppLookups]
    exact hw x (by simp [hx])

theorem moves_forgetWaiting (h : Moves env allow heard s₀ s) (asked : List Str)
    (pending : List (Str × List Waiting)) (hp : ∀ p ∈ pending, ∀ w ∈ p.2, s.core.IsWaiting w) :
    Moves env allow heard s₀ (s.onCore fun c =>
      { c with appLookupRequested := asked, pendingAppLookups := pending }) := by
  have hbook : Moves env allow heard s₀ (s.onCore fun c => { c with appLookupRequested := asked }) :=
    h.tail (.book _ _ _ _ asked)
  exact hbook.tail (.forgetWaiting pending hp)

theorem moves_flushWaiting (h : Moves env allow heard s₀ s) (appId appName : Str) :
    Moves env allow heard s₀ (s.onCore (·.flushWaiting env appId appName)) := by
  have hemits := moves_emits (s.core.waitingFor appId) appName h
    (fun w hw => Core.isWaiting_of_mem_waitingFor hw)
  have hforget := moves_forgetWaiting hemits (s.core.appLookupRequested.filter (· ≠ appId))
    (s.core.pendingAppLookups.filter (fun p => p.1 ≠ appId)) ?_
  · unfold Client.onCore Core.flushWaiting at *
    dsimp only at hforget ⊢
    rwa [Core.foldl_emit_pending]
  · -- the emitted notifications are still recorded as waiting, and the others are kept
    intro p hp w hw
    have hmem : p ∈ s.core.pendingAppLookups := List.mem_of_mem_filter hp
    have hpending : ∀ (ws : List Waiting) (c : Core),
        (ws.foldl (fun c w => c.emit env w appName) c).pendingAppLookups = c.pendingAppLookups := by
      intro ws
      induction ws with
      | nil => exact fun _ => rfl
      | cons x ws ih => exact fun c => by rw [List.foldl_cons, ih, Core.emit_pendingAppLookups]
    refine ⟨p, ?_, hw⟩
    show p ∈ ((s.core.waitingFor appId).foldl (fun c w => c.emit env w appName)
      s.core).pendingAppLookups
    rw [hpending]
    exact hmem

theorem moves_abandonRequest (h : Moves env allow heard s₀ s) (r : PendingRequest) :
    Moves env allow heard s₀ (s.abandonRequest env r) := by
  have hfinish : Moves env allow heard s₀ (s.onCore (·.finish r.key)) := h.tail (.finish _)
  unfold Client.abandonRequest
  split
  · exact unmoved_moves.quiet hfinish _ (by simp)
  split
  · exact hfinish
  split
  · exact hfinish
  split
  · exact hfinish
  · exact moves_flushWaiting hfinish _ _

theorem Core.finishActive_none {c : Core} (h : c.active = none) :
    c.finishActive = { c with requestTimer := false } := by
  unfold Core.finishActive
  rw [h]

theorem Core.finishActive_some {c : Core} {r : PendingRequest} (h : c.active = some r) :
    c.finishActive = { c.finish r.key with active := none, requestTimer := false } := by
  unfold Core.finishActive
  rw [h]

theorem moves_finishActive (h : Moves env allow heard s₀ s) :
    Moves env allow heard s₀ (s.onCore (·.finishActive)) := by
  have hbook : Moves env allow heard s₀ (s.onCore fun c => { c with requestTimer := false }) :=
    h.tail (.book false _ _ _ _)
  show Moves env allow heard s₀ ⟨s.tr, s.core.finishActive⟩
  cases hactive : s.core.active with
  | none =>
    rw [Core.finishActive_none hactive]
    exact hbook
  | some r =>
    have hfinish := hbook.tail (.finish r.key)
    rw [Core.finishActive_some hactive]
    exact hfinish.tail .deactivate

/-! ## Writing -/

namespace Client

/-- Releasing a write changes nothing but the token. -/
theorem releaseWrite_fst (w : Write) (s : Client) :
    (s.releaseWrite w).1 = s.onCore (fun c => { c with
      cpWriteToken := if c.cpWriteToken = some w.token then none else c.cpWriteToken }) := by
  by_cases h : s.core.cpWriteToken = some w.token <;> simp [releaseWrite, onCore, h]

end Client

theorem moves_releaseWrite (h : Moves env allow heard s₀ s) (w : Write) :
    Moves env allow heard s₀ (s.releaseWrite w).1 := by
  rw [Client.releaseWrite_fst]
  refine h.tail (.answered s.core.writes _ (List.Subset.refl _) ?_)
  split
  · exact .inr rfl
  · exact .inl rfl

theorem moves_actionFailed (h : Moves env allow heard s₀ s) (a : ActionRequest) (e : DBusError) :
    Moves env allow heard s₀ (s.onCore (Client.actionFailed a e)) := by
  unfold Client.actionFailed
  dsimp only
  split
  · exact moves_called (h.tail (.retire a.uid)) _
  · exact moves_called (h.tail (.unflag a.uid)) _

/-- The request of a failed write, back at the front of the queue. -/
def retried (w : Write) (r : PendingRequest) (s : Client) : Client :=
  (s.releaseWrite w).1.onCore (fun c =>
    Client.pushFront { r with busyRetries := r.busyRetries + 1 } { c with active := none })

/-- A failed write; the move back to the queue is the caller's to justify. -/
theorem moves_failed (h : Moves env allow heard s₀ s) (w : Write) (e : DBusError)
    (hretry : ∀ r, s.core.active = some r → s.isCurrent w = true → r.discarded = false →
      e.isInProgress = true → r.busyRetries < maxControlPointBusyRetries →
      Moves env allow heard s₀ (retried w r s)) :
    Moves env allow heard s₀ (s.failed env w e).1 := by
  have hrelease := moves_releaseWrite h w
  have hcurrent : (s.releaseWrite w).1.isCurrent w = s.isCurrent w := by
    rw [Client.releaseWrite_fst]
    rfl
  have hactive : (s.releaseWrite w).1.core.active = s.core.active := by
    rw [Client.releaseWrite_fst]
    rfl
  unfold retried at hretry
  unfold Client.failed
  generalize s.releaseWrite w = released at *
  obtain ⟨s₁, b⟩ := released
  dsimp only at *
  split
  · rename_i hc
    split
    · exact hrelease
    rename_i r hr
    split
    · have hfinished := moves_finishActive hrelease
      split
      · exact moves_markTransportFailed hfinished rfl
      · exact hfinished
    rename_i hwanted
    split
    · rename_i hbusy
      simp only [Bool.and_eq_true, decide_eq_true_eq] at hbusy
      exact hretry r (hactive ▸ hr) (hcurrent ▸ hc) (by simpa using hwanted) hbusy.1 hbusy.2
    split
    · rename_i a ha
      have hfailed := unmoved_moves.observePermissionError
        (moves_actionFailed (moves_finishActive hrelease) a e) e
      split
      · exact moves_markTransportFailed hfailed rfl
      · exact hfailed
    have hfailed := unmoved_moves.observePermissionError hrelease e
    split
    · exact moves_markTransportFailed hfailed rfl
    · exact (moves_abandonRequest hfailed r).tail .deactivate
  · split
    · exact moves_called hrelease _
    · exact hrelease

/-- A failure of the dispatch itself is answered at once: the write is the newest entry. -/
theorem moves_dispatchFailed (h : Moves env allow heard s₀ s) (r : PendingRequest)
    (rest : List PendingRequest) (generation : Nat) (e : DBusError) (hqueue : s.core.queue = r :: rest)
    (hfree : s.isBlocked = false) :
    Moves env allow heard s₀ ((s.startWrite env r rest).failed env
      { token := s.core.nextWrite, rid := r.rid, generation, action := r.action } e).1 := by
  have hstarted : Moves env allow heard s₀ (s.startWrite env r rest) := h.tail (.write r rest hqueue hfree)
  refine moves_failed hstarted _ e ?_
  intro r' hactive _ hwanted _ _
  have hr : r' = r := (Option.some.inj hactive).symm
  subst hr
  unfold retried
  rw [Client.releaseWrite_fst]
  refine hstarted.tail (.retry r' _ _ _ rfl hwanted (List.Subset.refl _) ?_ (.inr ⟨_, _, rfl⟩))
  exact .inr (if_pos rfl)

theorem moves_pumpRounds (rounds : Nat) (h : Moves env allow heard s₀ s) :
    Moves env allow heard s₀ (Client.pumpRounds env rounds s) := by
  induction rounds generalizing s with
  | zero => exact h
  | succ rounds ih =>
    unfold Client.pumpRounds
    split
    · exact h
    rename_i r rest hqueue
    split
    · exact h
    rename_i hblocked
    have hfree : s.isBlocked = false := by simpa using hblocked
    dsimp only
    split
    · exact (h.tail (.write r rest hqueue hfree)).tail (.opened _ r rfl ⟨rfl, rfl⟩)
    rename_i e _
    have hfailed := moves_dispatchFailed h r rest s.tr.ownerGeneration e hqueue hfree
    split
    · exact ih hfailed
    · exact hfailed

section

variable (h : Moves env allow heard s₀ s)
include h

theorem moves_pump : Moves env allow heard s₀ (Client.pump env s) := moves_pumpRounds _ h

theorem moves_newRid : Moves env allow heard s₀ s.newRid.1 := h.tail (.book _ _ _ _ _)

/-- A request about an app, and the pump. -/
theorem moves_askApp (r : PendingRequest) (front : Bool)
    (hr : (∃ rid, r = Client.authorizationProbe rid)
      ∨ ∃ rid appId, r = Client.appNameRequest rid appId) :
    Moves env allow heard s₀ (s.enqueue env r front).1 := by
  unfold Client.enqueue
  split
  · exact h
  rename_i c hc
  exact moves_pump (h.tail (.askApp r front c hr hc))

theorem moves_queueAuthorizationProbe (force : Bool) :
    Moves env allow heard s₀ (s.queueAuthorizationProbe env force) := by
  unfold Client.queueAuthorizationProbe
  split
  · exact h
  · exact moves_askApp (moves_newRid h) _ false (.inl ⟨_, rfl⟩)

theorem moves_written (w : Write) : Moves env allow heard s₀ (s.written env w) := by
  have hrelease := moves_releaseWrite h w
  unfold Client.written
  generalize s.releaseWrite w = released at *
  obtain ⟨s₁, b⟩ := released
  dsimp only at *
  split
  · rename_i a ha
    split
    · -- the write completes the action
      have hretired := (moves_finishActive hrelease).tail (.retire a.uid)
      exact moves_pump (moves_called hretired _)
    have hreported := moves_called hrelease (.actionResult a.call .sent)
    split
    · exact moves_pump hreported
    · exact hreported
  split
  · exact hrelease.tail (.book true _ _ _ _)
  split
  · exact moves_pump hrelease
  · exact hrelease

end

/-! ## Subscriptions, owners and the bearer -/

theorem walk_moves : Walk env (Moves env allow heard s₀) where
  toUnmoved := unmoved_moves
  found h path kind := moves_onTransport h _ (by cases kind <;> rfl)
  starting h := moves_onTransport h _ rfl
  startFailed h _ := moves_onTransport h _ rfl
  subscribing h _ _ := (moves_onTransport h _ rfl).tail .subscribe
  failed h := moves_markTransportFailed h rfl
  probed := moves_queueAuthorizationProbe
  cleared {s} h f g stop _ hg := by
    have hcleared := @moves_clearSubscription env allow heard s₀ s (s.onTransport f) h rfl stop
    exact moves_onTransport hcleared g (Transport.notifyRefresh_of_bonds (hg _))

theorem moves_ownerLost (h : Moves env allow heard s₀ s) : Moves env allow heard s₀ (s.ownerLost env) := by
  refine unmoved_moves.statusIf (moves_onTransport (moves_clearSubscription h ?_ _) _ ?_) _ <;> rfl

theorem moves_observeBluezOwner (h : Moves env allow heard s₀ s) (oldOwner newOwner : Bool) :
    Moves env allow heard s₀ (s.observeBluezOwner env oldOwner newOwner) := by
  unfold Client.observeBluezOwner
  split
  · exact h
  have hchanged := moves_onTransport h (fun t => { t with
    ownerGeneration := t.ownerGeneration + 1, ownerAvailable := newOwner, notifyRefreshes := 0 }) rfl
  have hreleased := hchanged.tail (.answered s.core.writes none (List.Subset.refl _) (.inr rfl))
  cases oldOwner with
  | false => exact moves_ite (walk_moves.rebuildDiscovery hreleased) hreleased
  | true =>
    have hlost := moves_ownerLost hreleased
    exact moves_ite (walk_moves.rebuildDiscovery hlost) hlost

/-! ## Re-enabling the notifications -/

section

variable (h : Moves env allow heard s₀ s)
include h

theorem moves_refreshFailed (e : DBusError) : Moves env allow heard s₀ (s.refreshFailed env e) := by
  refine moves_ite (moves_markTransportFailed h ?_) (moves_escalateUnresponsiveTransport h ?_)
  · rfl
  · rfl

theorem moves_toggleStart (token : Nat) (path : Path) :
    Moves env allow heard s₀ (s.toggleStart env token path) := by
  have hcounted := moves_onTransport h (fun t => { t with nextToggle := s.tr.nextToggle + 1 }) rfl
  unfold Client.toggleStart
  dsimp only
  split
  · exact moves_onTransport hcounted _ rfl
  · exact moves_ite (moves_refreshFailed hcounted _) hcounted

section

variable (toggle : Toggle)

theorem moves_toggleStopped : Moves env allow heard s₀ (s.toggleStopped env toggle) := by
  have howned : Moves env allow heard s₀ (if toggle.generation = s.tr.ownerGeneration then
      s.onTransport (fun t =>
        { t with ownedNotifyPaths := t.ownedNotifyPaths.filter (· ≠ toggle.path) }) else s) :=
    moves_ite (moves_onTransport h _ rfl) h
  exact moves_ite (moves_toggleStart howned _ _) howned

theorem moves_toggleStopFailed (e : DBusError) :
    Moves env allow heard s₀ (s.toggleStopFailed env toggle e) :=
  moves_ite (moves_toggleStopped h toggle) (moves_ite (moves_refreshFailed h e) h)

theorem moves_toggleNotify (token : Nat) (path : Path) :
    Moves env allow heard s₀ (s.toggleNotify env token path) := by
  have hcounted := moves_onTransport h (fun t => { t with nextToggle := s.tr.nextToggle + 1 }) rfl
  unfold Client.toggleNotify
  dsimp only
  split
  · exact moves_onTransport hcounted _ rfl
  · exact moves_toggleStopFailed hcounted _ _

theorem moves_refreshDone (hreset : allow .actionsReset s.core) :
    Moves env allow heard s₀ (s.refreshDone env) := by
  have hdone := h.tail (.reset { s.tr with notifyRefresh := none } hreset)
  have hrid := moves_newRid hdone
  unfold Client.refreshDone
  dsimp only
  split
  · rename_i c hc
    exact moves_pump (hrid.tail (.askApp _ true c (.inl ⟨_, rfl⟩) hc))
  · exact moves_ite (moves_pump hrid) (moves_escalateUnresponsiveTransport hrid rfl)

theorem moves_refreshNext (refresh : Refresh) (hs : s.tr.notifyRefresh.isSome = true)
    (hreset : refresh.remaining = [] → allow .actionsReset s.core) :
    Moves env allow heard s₀ (s.refreshNext env refresh) := by
  unfold Client.refreshNext
  split
  · exact moves_toggleNotify (h.tail (.transport _ (by rw [hs]; rfl))) _ _
  rename_i hremaining
  exact moves_refreshDone h (hreset hremaining)

theorem moves_toggleStarted (hreset : s.tr.refreshCurrent toggle.refresh = true →
      s.tr.notifyRefresh.any (·.remaining.isEmpty) = true → allow .actionsReset s.core) :
    Moves env allow heard s₀ (s.toggleStarted env toggle) := by
  unfold Client.toggleStarted
  dsimp only
  by_cases hgeneration : toggle.generation = s.tr.ownerGeneration
  · rw [if_pos hgeneration]
    have howned := moves_onTransport h (fun t =>
      { t with ownedNotifyPaths := toggle.path :: t.ownedNotifyPaths }) rfl
    split
    · rename_i hcurrent
      split
      · exact howned
      rename_i refresh hrefresh
      refine moves_refreshNext howned refresh (by rw [hrefresh]; rfl) (fun hempty => ?_)
      refine hreset hcurrent ?_
      have hr : s.tr.notifyRefresh = some refresh := hrefresh
      simp [hr, hempty]
    · exact howned
  · rw [if_neg hgeneration]
    split
    · rename_i hcurrent
      split
      · exact h
      rename_i refresh hrefresh
      refine moves_refreshNext h refresh (by rw [hrefresh]; rfl) (fun hempty => ?_)
      exact hreset hcurrent (by simp [hrefresh, hempty])
    · exact h

theorem moves_toggleAnswered (error : Option DBusError)
    (hreset : toggle.starting = true → error = none → s.tr.refreshCurrent toggle.refresh = true →
      s.tr.notifyRefresh.any (·.remaining.isEmpty) = true → allow .actionsReset s.core) :
    Moves env allow heard s₀ (s.toggleAnswered env toggle error) := by
  have hanswered := moves_onTransport h (fun t =>
    { t with toggles := t.toggles.filter (fun x => x.number ≠ toggle.number) }) rfl
  unfold Client.toggleAnswered
  split
  · exact moves_toggleStopped hanswered toggle
  · exact moves_toggleStopFailed hanswered toggle _
  · rename_i hstarting
    exact moves_toggleStarted hanswered toggle (hreset hstarting rfl)
  · exact moves_ite (moves_refreshFailed hanswered _) hanswered

end

theorem moves_refreshNotifications
    (hs : s.refreshNotifications env = some s') : Moves env allow heard s₀ s' := by
  unfold Client.refreshNotifications at hs
  split at hs
  · split at hs
    · cases hs
    rename_i nsPath dsPath _ _ _
    cases hs
    refine moves_refreshNext ?_ _ rfl (fun hempty => by cases hempty)
    exact h.tail (.refresh _ rfl)
  · cases hs

theorem moves_requestTimedOut : Moves env allow heard s₀ (s.requestTimedOut env) := by
  have hcleared : Moves env allow heard s₀ (s.onCore fun c => { c with requestTimer := false }) :=
    h.tail (.book false _ _ _ _)
  unfold Client.requestTimedOut
  dsimp only
  split
  · exact moves_pump hcleared
  rename_i r hr
  split
  · split
    · rename_i s₁ hs
      exact moves_refreshNotifications hcleared hs
    · exact moves_escalateUnresponsiveTransport hcleared rfl
  · exact moves_pump ((moves_abandonRequest hcleared r).tail .deactivate)

end

/-! ## Notification Source -/

theorem Notification.parse_id_lt {data : Bytes} {n : Notification}
    (h : Notification.parse data = some n) : n.id < 2 ^ 32 := by
  unfold Notification.parse at h
  split at h
  · cases h
    rename_i b₀ b₁ b₂ b₃ _
    show u32le b₀ b₁ b₂ b₃ < 2 ^ 32
    unfold u32le
    have := b₀.toNat_lt
    have := b₁.toNat_lt
    have := b₂.toNat_lt
    have := b₃.toNat_lt
    omega
  · cases h

/-- A live event, the attempt to queue its probe, and the pump. -/
theorem moves_arrivedLive (h : Moves env allow heard s₀ s) (n : Notification)
    (categories : List (Nat × Nat)) (nextRid rid : Nat) (hid : n.id < 2 ^ 32)
    (hlive : allow (.live n) s.core) :
    Moves env allow heard s₀ ((s.onCore (·.arrivedLive n categories nextRid)).enqueue env
      (Client.probeRequest rid ⟨n, s.core.serials⟩) false).1 := by
  have hmove := h.tail (.live n categories nextRid rid hid hlive)
  unfold Client.onCore at hmove
  unfold Client.enqueue Client.onCore
  dsimp only at hmove ⊢
  split
  · rename_i hrefused
    rw [hrefused] at hmove
    exact hmove
  · rename_i c hqueued
    rw [hqueued] at hmove
    exact moves_pump hmove

theorem moves_onNsChanged (h : Moves env allow heard s₀ s) (data : Bytes)
    (hreplayed : ∀ n, Notification.parse data = some n → n.type ≠ notificationRemoved →
      n.isPreexisting = true → allow (.replayed n) s.core)
    (hlive : ∀ n, Notification.parse data = some n → n.type ≠ notificationRemoved →
      n.isPreexisting = false → allow (.live n) s.core) :
    Moves env allow heard s₀ (s.onNsChanged env data) := by
  unfold Client.onNsChanged
  split
  · exact h
  rename_i n hn
  split
  · rename_i hremoved
    exact moves_called (h.tail (.removed n (Notification.parse_id_lt hn) hremoved)) _
  rename_i hremoved
  split
  · rename_i hpre
    exact h.tail (.replayed n (Notification.parse_id_lt hn) (hreplayed n hn hremoved hpre))
  rename_i hpre
  exact moves_arrivedLive h n _ _ _ (Notification.parse_id_lt hn)
    (hlive n hn hremoved (by simpa using hpre))

/-! ## Data Source -/

theorem moves_requestAppName (h : Moves env allow heard s₀ s) (appId : Str) :
    Moves env allow heard s₀ (s.requestAppName env appId).1 := by
  unfold Client.requestAppName
  split
  · exact h
  have hrid := moves_newRid h
  have hasked : Moves env allow heard s₀ (s.newRid.1.onCore fun c =>
      { c with appLookupRequested := appId :: c.appLookupRequested }) := hrid.tail (.book _ _ _ _ _)
  have hqueued := moves_askApp hasked (Client.appNameRequest s.newRid.2 appId) false
    (.inr ⟨_, _, rfl⟩)
  dsimp only
  split
  · exact hqueued
  · exact hrid

/-- A name that is not asked for leaves the waiting notifications as they were. -/
theorem Client.requestAppName_refused (appId : Str) (h : (s.requestAppName env appId).2 = false) :
    (s.requestAppName env appId).1.core.pendingAppLookups = s.core.pendingAppLookups := by
  unfold Client.requestAppName at h ⊢
  split
  · rfl
  rename_i hcached
  rw [if_neg hcached] at h
  dsimp only at h ⊢
  split
  · rename_i htaken
    rw [if_pos htaken] at h
    cases h
  · rfl

/-- A waiting notification is emitted after all. -/
theorem moves_emitRemoved (h : Moves env allow heard s₀ s) (appId appName : Str) (w : Waiting)
    (hw : s.core.IsWaiting w) :
    Moves env allow heard s₀ (s.onCore fun c => (Client.removeWaiting appId w c).emit env w appName) := by
  have hemit : Moves env allow heard s₀ (s.onCore (·.emit env w appName)) := h.tail (.emitWaiting w _ hw)
  have hforget := moves_forgetWaiting hemit s.core.appLookupRequested
    (Client.removeWaiting appId w s.core).pendingAppLookups ?_
  · have heq := Core.emit_pending env w appName s.core s.core.appLookupRequested
      (Client.removeWaiting appId w s.core).pendingAppLookups
    unfold Client.onCore at hforget ⊢
    dsimp only at hforget ⊢
    rw [← heq] at hforget
    exact hforget
  · -- nobody waits who did not wait before
    intro p hp x hx
    have hkept : p ∈ s.core.pendingAppLookups.filter (fun p => p.1 ≠ appId)
        ∨ p = (appId, (s.core.waitingFor appId).eraseP (fun x => x.attrs == w.attrs)) := by
      unfold Client.removeWaiting at hp
      dsimp only at hp
      split at hp
      · exact .inl hp
      · simpa using hp
    have hwaiting : s.core.IsWaiting x := by
      rcases hkept with hp | rfl
      · exact ⟨p, List.mem_of_mem_filter hp, hx⟩
      · exact Core.isWaiting_of_mem_waitingFor (List.mem_of_mem_eraseP hx)
    obtain ⟨q, hq, hxq⟩ := hwaiting
    exact ⟨q, (Core.emit_pendingAppLookups env w appName s.core).symm ▸ hq, hxq⟩

theorem isWaiting_addWaiting (appId : Str) (w : Waiting) (c : Core) :
    (Client.addWaiting appId w c).IsWaiting w :=
  ⟨(appId, c.waitingFor appId ++ [w]), by simp [Client.addWaiting], by simp⟩

section

variable (h : Moves env allow heard s₀ s)
include h

section

variable (r : PendingRequest)

/-- The content of a notification is emitted or waits for the name of its app. -/
theorem moves_handleNotificationAttrs (a : Arrival)
    (attrs : NotificationAttributes) (hcontent : ContentAnswered heard s.core r a attrs) :
    Moves env allow heard s₀
      ((s.onCore (·.finishActive)).handleNotificationAttrs env ⟨attrs, a.serial⟩) := by
  unfold Client.handleNotificationAttrs
  dsimp only
  split
  · exact h.tail (.emitContent r a attrs _ _ hcontent)
  split
  · exact h.tail (.emitContent r a attrs _ _ hcontent)
  split
  · exact h.tail (.emitContent r a attrs _ _ hcontent)
  have hwaits : Moves env allow heard s₀ ((s.onCore (·.finishActive)).onCore
      (Client.addWaiting attrs.appId ⟨attrs, a.serial⟩)) :=
    h.tail (.contentWaits r a attrs hcontent)
  have hnamed := moves_requestAppName hwaits attrs.appId
  split
  · exact hnamed
  rename_i hasked
  refine moves_emitRemoved hnamed _ _ _ ?_
  unfold Core.IsWaiting
  rw [Client.requestAppName_refused attrs.appId (eq_false_of_ne_true hasked)]
  exact isWaiting_addWaiting _ _ _

/-- The content of an accepted notification is asked for. -/
theorem moves_accepted (a : Arrival)
    (ev : DataSourceEvent) (appId : Str) (observed : List Str) (nextRid rid : Nat)
    (hanswer : Answered heard s.core r ev) (hn : r.notification = some a) (hp : r.appProbe = true)
    (hbody : parseNotificationAppIdentifier ev.body = .ok (a.notification.id, appId))
    (hpolicy : policyAccepts env.includeNonMessageNotifications
      (env.includeAppNotification appId) appId = true) :
    Moves env allow heard s₀ ((s.onCore (·.probeAnswered env a appId observed nextRid)).enqueue env
      (Client.fullRequest env rid a appId) false).1 := by
  unfold Client.enqueue
  split
  · exact h.tail (.probed r a ev appId observed nextRid hanswer hn hp hbody)
  rename_i c hc
  exact moves_pump (h.tail
    (.accepted r a ev appId observed nextRid rid c hanswer hn hp hbody hpolicy hc))

theorem moves_handleProbe (a : Arrival) (ev : DataSourceEvent) (appId : Str)
    (hanswer : Answered heard s.core r ev) (hn : r.notification = some a) (hp : r.appProbe = true)
    (hbody : parseNotificationAppIdentifier ev.body = .ok (a.notification.id, appId)) :
    Moves env allow heard s₀ ((s.onCore (·.finishActive)).handleProbe env a appId) := by
  have hprobed := fun observed nextRid =>
    h.tail (.probed r a ev appId observed nextRid hanswer hn hp hbody)
  unfold Client.handleProbe
  dsimp only
  split
  · rename_i hmessages
    exact moves_accepted h r a ev appId _ _ _ hanswer hn hp hbody
      (by simp [policyAccepts, hmessages])
  split
  · rename_i hallowed
    simp only [Bool.and_eq_true] at hallowed
    split
    · rename_i hincluded
      exact moves_accepted h r a ev appId _ _ _ hanswer hn hp hbody
        (by simp [policyAccepts, hallowed, hincluded])
    · exact hprobed _ s.core.finishActive.nextRid
  · exact hprobed s.core.finishActive.observedAppIds s.core.finishActive.nextRid

theorem moves_handleNotificationResponse
    (ev : DataSourceEvent) (hanswer : Answered heard s.core r ev) :
    Moves env allow heard s₀ ((s.onCore (·.finishActive)).handleNotificationResponse env r ev.body) := by
  have hfinished := moves_finishActive h
  unfold Client.handleNotificationResponse
  split
  · exact moves_pump hfinished
  rename_i a hn
  split
  · rename_i hp
    split
    · exact moves_pump (moves_abandonRequest hfinished r)
    rename_i notificationId appId hbody
    split
    · exact moves_pump hfinished
    rename_i hid
    have hid : notificationId = a.notification.id := by simpa using hid
    rw [hid] at hbody
    exact moves_pump (moves_handleProbe h r a ev appId hanswer hn hp hbody)
  rename_i hp
  split
  · exact moves_pump (moves_abandonRequest hfinished r)
  rename_i attrs hparse
  split
  · exact moves_pump hfinished
  rename_i hexpected
  refine moves_pump (moves_handleNotificationAttrs h r a attrs ?_)
  exact ⟨⟨ev, hanswer, hparse⟩, hn, by simpa using hp, by simpa using hexpected⟩

end

theorem moves_handleAppAttrs (app : AppAttributes) :
    Moves env allow heard s₀ (s.onCore (·.handleAppAttrs env app)) := by
  have hflushed : ∀ cache, Moves env allow heard s₀ ((s.onCore fun c =>
      { c with appNameCache := cache }).onCore
        (·.flushWaiting env app.appId (app.appName.take 256))) :=
    fun cache => moves_flushWaiting (h.tail (.book _ _ cache _ _)) _ _
  unfold Client.onCore at hflushed ⊢
  dsimp only at hflushed ⊢
  exact hflushed _

theorem moves_onDsChanged (data : Bytes) (hheard : ∀ r, s.core.active = some r → heard r data) :
    Moves env allow heard s₀ (s.onDsChanged env data) := by
  have hfinished := moves_finishActive h
  unfold Client.onDsChanged
  split
  · exact h
  rename_i r hactive
  split
  · exact h
  rename_i assembler hassembler
  split
  · exact moves_pump (moves_abandonRequest hfinished r)
  · rename_i assembler' hfeed
    exact h.tail (.feed r assembler assembler' data hactive hassembler (hheard r hactive) hfeed)
  rename_i rest complete hfeed
  unfold Client.handleResponse
  split
  · exact moves_pump hfinished
  rename_i hwanted
  split
  · exact moves_pump (moves_abandonRequest hfinished r)
  rename_i ev hev
  split
  · rename_i htype
    refine moves_handleNotificationResponse h r ev ?_
    exact ⟨hactive, by simpa using hwanted,
      ⟨assembler, data, rest, complete, hheard r hactive, hassembler, hfeed, hev⟩, htype⟩
  split
  · split
    · exact moves_pump (moves_abandonRequest hfinished r)
    rename_i app happ
    refine moves_pump (moves_handleAppAttrs ?_ app)
    exact moves_ite (unmoved_moves.markAuthorized hfinished) hfinished
  · exact moves_pump hfinished

end

/-! ## Actions and the whole step -/

theorem moves_performNotificationAction (h : Moves env allow heard s₀ s) (uid : Nat) (positive : Bool)
    (token call : Nat) :
    Moves env allow heard s₀ (s.performNotificationAction env uid positive token call) := by
  unfold Client.performNotificationAction
  dsimp only
  split
  · exact moves_called h _
  rename_i entry hentry
  split at hentry
  · rename_i hopt
    by_cases htoken : entry.token ≠ token
        ∨ (if positive = true then entry.positive else entry.negative) = false
    · rw [if_pos htoken]
      exact moves_called h _
    rw [if_neg htoken]
    split
    · exact moves_called h _
    split
    · exact moves_called h _
    rename_i hbusy
    have hrid := moves_newRid h
    split
    · exact moves_called h _
    rename_i c hc
    refine moves_pump (hrid.tail (.perform _ _ entry c hentry ⟨?_, rfl, ?_⟩ hopt hc))
    · by_contra hne
      exact htoken (.inl (fun he => hne he.symm))
    · cases hflight : entry.inFlight with
      | false => rfl
      | true => simp [hflight] at hbusy
  · cases hentry

end

namespace Client

/-- The delicate moves that a step makes. -/
def delicate (s : Client) (input : Env × Input) : List Delicate :=
  match input.2 with
  | .ns data =>
    match Notification.parse data with
    | none => []
    | some n =>
      if !s.tr.receiversCurrent || n.type == notificationRemoved then []
      else if n.isPreexisting then [.replayed n]
      else [.live n]
  | .writeError token e =>
    match s.core.writes.find? (fun w => w.token == token), s.core.active with
    | some w, some r =>
      if s.isCurrent w && !r.discarded && e.isInProgress
          && r.busyRetries < maxControlPointBusyRetries then [.retry r]
      else []
    | _, _ => []
  | .toggleReply number none =>
    match s.tr.toggles.find? (fun t => t.number == number) with
    | none => []
    | some toggle =>
      if toggle.starting && s.tr.refreshCurrent toggle.refresh
          && s.tr.notifyRefresh.any (·.remaining.isEmpty) then [.actionsReset]
      else []
  | .busyRetry => if s.core.busyRetry then [.busyRetryDue] else []
  | .actionsChanged => if input.1.notificationActions then [] else [.actionsReset]
  | _ => []

end Client

/-- **Every step is a sequence of moves**, if its delicate moves are allowed. -/
theorem moves_step (allow : Delicate → Core → Prop) (heard : PendingRequest → Bytes → Prop)
    (s : Client) (input : Env × Input) (hallow : ∀ x ∈ s.delicate input, allow x s.core)
    (hheard : ∀ data r, input.2 = .ds data → s.tr.receiversCurrent = true →
      s.core.active = some r → heard r data) :
    Moves input.1 allow heard s (s.step input) := by
  obtain ⟨env, i⟩ := input
  have h : Moves env allow heard s s := .refl
  cases i with
  | start => exact walk_moves.start h
  | stop => exact walk_moves.stop h
  | owner oldOwner newOwner => exact moves_observeBluezOwner h oldOwner newOwner
  | bearer connected legacyConnected =>
    exact walk_moves.observeBearerState h connected legacyConnected
  | ifaceAdded path kind => exact moves_ite (walk_moves.onIfaceAdded h path kind) h
  | ifaceRemoved path => exact moves_ite (walk_moves.onIfaceRemoved h path) h
  | ns data =>
    show Moves env allow heard s (if s.tr.receiversCurrent then s.onNsChanged env data else s)
    split
    · rename_i hcurrent
      refine moves_onNsChanged h data (fun n hn hremoved hpre => ?_) (fun n hn hremoved hpre => ?_) <;>
        exact hallow _ (by simp [Client.delicate, hn, hcurrent, hremoved, hpre])
    · exact h
  | ds data =>
    show Moves env allow heard s (if s.tr.receiversCurrent then s.onDsChanged env data else s)
    split
    · exact moves_onDsChanged h data (fun r hr => hheard data r rfl ‹_› hr)
    · exact h
  | writeReply token =>
    show Moves env allow heard s (s.answerWrite token (fun w s => s.written env w))
    unfold Client.answerWrite
    split
    · exact h
    · exact moves_written (h.tail (.answered _ _ List.filter_sublist.subset (.inl rfl))) _
  | writeError token e =>
    show Moves env allow heard s (s.answerWrite token (fun w s => s.writeFailed env e w))
    unfold Client.answerWrite
    split
    · exact h
    rename_i w hw
    have hanswered : Moves env allow heard s (s.onCore fun c =>
        { c with writes := c.writes.filter (fun x => x.token ≠ token) }) :=
      h.tail (.answered _ _ List.filter_sublist.subset (.inl rfl))
    have hfailed := moves_failed hanswered w e ?_
    · exact moves_ite (moves_pump hfailed) hfailed
    · intro r hactive hcurrent hwanted hbusy hretries
      have hallowed := hallow (.retry r) (by
        have hactive : s.core.active = some r := hactive
        have hcurrent : s.isCurrent w = true := hcurrent
        simp [Client.delicate, hw, hactive, hcurrent, hwanted, hbusy, hretries])
      unfold retried
      rw [Client.releaseWrite_fst]
      refine h.tail (.retry r _ _ _ hactive hwanted List.filter_sublist.subset ?_ (.inl hallowed))
      by_cases htoken : s.core.cpWriteToken = some w.token
      · exact .inr (if_pos htoken)
      · exact .inl (if_neg htoken)
  | toggleReply number error =>
    simp only [Client.step]
    split
    · exact h
    rename_i toggle htoggle
    refine moves_toggleAnswered h toggle error (fun hstarting herror hcurrent hempty => ?_)
    subst herror
    exact hallow _ (by simp [Client.delicate, htoggle, hstarting, hcurrent, hempty])
  | requestTimeout => exact moves_ite (moves_requestTimedOut h) h
  | busyRetry =>
    show Moves env allow heard s (if s.core.busyRetry then
      Client.pump env (s.onCore fun c => { c with busyRetry := false }) else s)
    split
    · rename_i hdue
      exact moves_pump (h.tail (.resume (hallow _ (by simp [Client.delicate, hdue]))))
    · exact h
  | managerRetry => exact moves_ite (walk_moves.retryManagerBind h) h
  | subscribeRetry => exact moves_ite (walk_moves.retrySubscribe h) h
  | authorizationRetry => exact moves_ite (walk_moves.retryAuthorization h) h
  | bearerSettle => exact moves_ite (walk_moves.finishBearerSettle h) h
  | transportReset => exact moves_ite (walk_moves.requestTransportReset h) h
  | legacyHealth => exact moves_ite (walk_moves.checkLegacyHealth h) h
  | actionsChanged =>
    show Moves env allow heard s (if env.notificationActions then s else s.onCore (·.resetActions))
    split
    · exact h
    rename_i hoff
    exact h.tail (.reset s.tr (hallow _ (by simp [Client.delicate, hoff])))
  | perform uid positive token call => exact moves_performNotificationAction h uid positive token call
  | probeHealth => exact walk_moves.probeHealth h

/-- **Invariants of runs.** `P` holds after every run if every move keeps it. A second condition
`Q`, which may depend on the answers from outside, need only hold while one step lasts. -/
theorem invariant_of_moves {ok : Client → Env × Input → Prop} (P : Client → Prop)
    (Q : Env → Client → Prop) (allow : Env → Delicate → Core → Prop)
    (hstart : ∀ s i, ok s i → P s → Q i.1 s ∧ ∀ x ∈ s.delicate i, allow i.1 x s.core)
    (hmove : ∀ env s s', Move env (allow env) (fun _ _ => True) s s' → P s → Q env s → P s' ∧ Q env s') {s : Client}
    {inputs : List (Env × Input)} (hrun : Machine.Along Client.step ok s inputs) (hs : P s) :
    P (Machine.run Client.step s inputs) := by
  refine Machine.invariant _ (fun s i hi hP => ?_) hrun hs
  obtain ⟨hQ, hallow⟩ := hstart s i hi hP
  have hall : ∀ s', Moves i.1 (allow i.1) (fun _ _ => True) s s' → P s' ∧ Q i.1 s' := by
    intro s' hmoves
    induction hmoves with
    | refl => exact ⟨hP, hQ⟩
    | tail _ hlast ih => exact hmove _ _ _ hlast ih.1 ih.2
  exact (hall _ (moves_step (allow i.1) _ s i hallow (fun _ _ _ _ _ => trivial))).1

end BlueFerry.Ancs
