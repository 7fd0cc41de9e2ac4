import BlueFerry.Ancs.Effects

/-! # What a step does to the requests

The moves of `Moves.lean` leave open which write a reply belongs to and what becomes of the caller
of an action. Here every step is taken apart a second time (`acts_step`), into *acts* that settle
just that: an answered write is named and leaves the list of open ones, a reported result names its
action, a finished request is the active one.

An owner change that names no old owner is the one act that can go wrong; it carries the condition
`fresh`, which the proof of an invariant chooses.
-/

namespace BlueFerry.Ancs

open BlueFerry.Text

/-! ## The transport -/

namespace Transport

/-- There are receivers and re-enables only under a subscription, and a subscription only for a
started client with a Control Point. -/
structure Fine (t : Transport) : Prop where
  subscribed : t.notifyStarted = true → t.started = true ∧ t.cpPath.isSome = true
  received : t.receivers.isSome = true → t.notifyStarted = true
  refreshed : t.notifyRefresh.isSome = true → t.notifyStarted = true

/-- The open toggles have numbers of their own. -/
structure Numbered (t : Transport) : Prop where
  below : ∀ x ∈ t.toggles, x.number < t.nextToggle
  nodup : (t.toggles.map (·.number)).Nodup

/-- A re-enable belongs to this bluetoothd, and one of its toggles is open. -/
def Toggling (t : Transport) : Prop :=
  ∀ f, t.notifyRefresh = some f → f.generation = t.ownerGeneration
    ∧ ∃ x ∈ t.toggles, x.refresh = f.token ∧ x.generation = t.ownerGeneration

/-- A change that no request notices. -/
structure Keeps (t t' : Transport) : Prop where
  generation : t'.ownerGeneration = t.ownerGeneration
  subscribed : t.notifyStarted = true → t'.notifyStarted = true
  fine : t.Fine → t'.Fine
  numbered : t.Numbered → t'.Numbered
  toggling : t.Toggling → t'.Toggling

/-- The subscription is given up. -/
structure Cleared (t t' : Transport) : Prop where
  generation : t'.ownerGeneration = t.ownerGeneration
  off : t'.notifyStarted = false ∧ t'.receivers = none ∧ t'.notifyRefresh = none
  numbered : t.Numbered → t'.Numbered

variable {t t' : Transport}

theorem Cleared.fine (h : t.Cleared t') : t'.Fine := by
  obtain ⟨hoff, hreceivers, hrefresh⟩ := h.off
  refine ⟨?_, ?_, ?_⟩
  · rw [hoff]
    nofun
  · rw [hreceivers]
    nofun
  · rw [hrefresh]
    nofun

theorem Cleared.toggling (h : t.Cleared t') : t'.Toggling := by
  intro f hf
  rw [h.off.2.2] at hf
  cases hf

theorem keeps_of_footing (h : t'.footing = t.footing) : t.Keeps t' := by
  simp only [footing, Prod.mk.injEq] at h
  obtain ⟨hstarted, hgeneration, hnotify, hcp, hreceivers, hrefresh, htoggles, hnext⟩ := h
  refine ⟨hgeneration, fun hs => by rw [hnotify]; exact hs, ?_, ?_, ?_⟩
  · rintro ⟨h₁, h₂, h₃⟩
    exact ⟨by rw [hnotify, hstarted, hcp]; exact h₁, by rw [hreceivers, hnotify]; exact h₂,
      by rw [hrefresh, hnotify]; exact h₃⟩
  · rintro ⟨h₁, h₂⟩
    exact ⟨by rw [htoggles, hnext]; exact h₁, by rw [htoggles]; exact h₂⟩
  · intro ht f hf
    rw [hgeneration, htoggles]
    exact ht f (by rw [← hrefresh]; exact hf)

theorem Keeps.trans {t₁ t₂ t₃ : Transport} (h : t₁.Keeps t₂) (h' : t₂.Keeps t₃) : t₁.Keeps t₃ :=
  ⟨by rw [h'.generation, h.generation], fun hs => h'.subscribed (h.subscribed hs),
    fun hf => h'.fine (h.fine hf), fun hn => h'.numbered (h.numbered hn),
    fun ht => h'.toggling (h.toggling ht)⟩

/-- Clearing the subscription, whatever else is changed about it before. -/
theorem cleared_clearSubscription (env : Env) (stop : Bool)
    (hgeneration : t'.ownerGeneration = t.ownerGeneration) (hnumbered : t.Numbered → t'.Numbered) :
    t.Cleared (t'.clearSubscription env stop) := by
  unfold clearSubscription
  dsimp only
  split <;>
    exact ⟨hgeneration, ⟨rfl, rfl, rfl⟩, fun h => ⟨(hnumbered h).below, (hnumbered h).nodup⟩⟩

end Transport

/-! ## The acts -/

namespace Key

/-- The key is not that of a retired request. -/
def isPlain : Key → Bool
  | .retired _ => false
  | _ => true

end Key

/-- A request as it is queued: it is wanted, and a response is awaited unless it is an action. -/
structure PendingRequest.New (r : PendingRequest) : Prop where
  wanted : r.discarded = false
  plain : r.key.isPlain = true
  response : r.assembler.isSome = true
  noAction : r.action = none

namespace Core

/-- The requests, the writes, the offers and the log. -/
def stock (c : Core) :=
  (c.queue, c.reserved, c.active, c.requestTimer, c.cpWriteToken, c.writes, c.nextWrite,
    c.actionable, c.nextToken, c.log)

/-- BlueZ has answered a write: it is no longer open, and the marker goes if it is this write's. -/
def settle (w : Write) (rest : List Write) (c : Core) : Core :=
  { c with
    writes := rest
    cpWriteToken := if c.cpWriteToken = some w.token then none else c.cpWriteToken }

/-- The requests are given up, and the offers with them. -/
def giveUpAll (c : Core) : Core := { c.resetRequests with actionable := [] }

/-- The caller of an action, if it is one, is told the result. -/
def reportAny (a : Option ActionRequest) (result : ActionResult) (c : Core) : Core :=
  match a with
  | none => c
  | some a => c.reportAction a result

end Core

/-- The write of the head of the queue. -/
def Client.writeOf (r : PendingRequest) (s : Client) : Write :=
  { token := s.core.nextWrite, rid := r.rid, generation := s.tr.ownerGeneration, action := r.action }

/-- An act. -/
inductive Act (env : Env) (fresh : Client → Prop) : Client → Client → Prop
  | transport {s : Client} (tr : Transport) (h : s.tr.Keeps tr) : Act env fresh s ⟨tr, s.core⟩
  | noted {s : Client} (e : Entry) (h : e.isResult = false) : Act env fresh s (s.note e)
  /-- counters and caches change, not the requests -/
  | book {s : Client} (c : Core) (h : c.stock = s.core.stock) : Act env fresh s ⟨s.tr, c⟩
  | offered {s : Client} (event : AncsEvent) (serial : Nat) :
      Act env fresh s (s.onCore (·.rememberActionable event serial))
  | withdrawn {s : Client} (entries : List Actionable) (h : entries.Sublist s.core.actionable) :
      Act env fresh s (s.onCore fun c => { c with actionable := entries })
  | dropped {s : Client} (p : ActionRequest → Bool) (result : ActionResult) (h : result ≠ .sent) :
      Act env fresh s (s.onCore (·.dropQueuedActions p result))
  /-- the requests about one notification, or all, are retired -/
  | retired {s : Client} (uid : Option Nat) :
      Act env fresh s (s.onCore fun c => (c.removeIf (Core.isAbout uid)).retireActive uid)
  | cleared {s : Client} (tr : Transport) (requestTimer : Bool) (h : s.tr.Cleared tr) :
      Act env fresh s ⟨tr, ({ s.core with requestTimer } : Core).giveUpAll⟩
  /-- the old bluetoothd is gone -/
  | ownerLost {s : Client} (tr : Transport) (hfine : tr.Fine ∧ tr.Toggling)
      (hnumbered : s.tr.Numbered → tr.Numbered)
      (hgeneration : tr.ownerGeneration = s.tr.ownerGeneration + 1) :
      Act env fresh s ⟨tr, ({ s.core with cpWriteToken := none } : Core).giveUpAll⟩
  /-- a bluetoothd appears where none was -/
  | ownerFound {s : Client} (available : Bool) (h : fresh s) :
      Act env fresh s ⟨{ s.tr with
        ownerGeneration := s.tr.ownerGeneration + 1, ownerAvailable := available
        notifyRefreshes := 0 }, { s.core with cpWriteToken := none }⟩
  /-- the response is complete or will not come -/
  | finished {s : Client}
      (h : ∀ r, s.core.active = some r → r.assembler.isSome = true ∨ s.core.requestTimer = true) :
      Act env fresh s (s.onCore (·.finishActive))
  | fed {s : Client} (r : PendingRequest) (assembler assembler' : DataSourceAssembler)
      (hactive : s.core.active = some r) (hr : r.assembler = some assembler) :
      Act env fresh s (s.onCore fun c =>
        { c with active := some { r with assembler := some assembler' } })
  | queued {s : Client} (r : PendingRequest) (front : Bool) (c : Core) (hr : r.New)
      (hs : s.tr.notifyStarted = true) (h : s.core.enqueue r front = some c) :
      Act env fresh s ⟨s.tr, c⟩
  | wrote {s : Client} (r : PendingRequest) (rest : List PendingRequest)
      (hqueue : s.core.queue = r :: rest) (hfree : s.isBlocked = false) :
      Act env fresh s ((s.startWrite env r rest).onCore fun c =>
        { c with writes := c.writes ++ [s.writeOf r] })
  /-- the reply to a write whose request is gone -/
  | stale {s : Client} (w : Write) (rest : List Write) (result : ActionResult)
      (hw : s.core.writes.Perm (w :: rest)) (h : s.isCurrent w = false) :
      Act env fresh s (s.onCore fun c => (c.settle w rest).reportAny w.action result)
  /-- the phone took an action -/
  | sent {s : Client} (w : Write) (rest : List Write) (a : ActionRequest)
      (hw : s.core.writes.Perm (w :: rest)) (h : s.isCurrent w = true) (ha : w.action = some a) :
      Act env fresh s (s.onCore fun c => Client.actionWritten a (c.settle w rest).finishActive)
  /-- the phone took a command and will respond -/
  | awaited {s : Client} (w : Write) (rest : List Write) (hw : s.core.writes.Perm (w :: rest))
      (h : s.isCurrent w = true) (ha : w.action = none) :
      Act env fresh s (s.onCore fun c => { c.settle w rest with requestTimer := true })
  /-- the write of a retired request failed -/
  | drained {s : Client} (w : Write) (rest : List Write) (r : PendingRequest)
      (hw : s.core.writes.Perm (w :: rest)) (h : s.isCurrent w = true)
      (hactive : s.core.active = some r) (hr : r.discarded = true) :
      Act env fresh s (s.onCore fun c => (c.settle w rest).finishActive)
  | retried {s : Client} (w : Write) (rest : List Write) (r : PendingRequest) (n : Nat)
      (hw : s.core.writes.Perm (w :: rest)) (h : s.isCurrent w = true)
      (hactive : s.core.active = some r) (hr : r.discarded = false) :
      Act env fresh s (s.onCore fun c => Client.pushFront { r with busyRetries := n }
        { c.settle w rest with active := none })
  | refused {s : Client} (w : Write) (rest : List Write) (r : PendingRequest) (a : ActionRequest)
      (e : DBusError) (hw : s.core.writes.Perm (w :: rest)) (h : s.isCurrent w = true)
      (hactive : s.core.active = some r) (ha : r.action = some a) :
      Act env fresh s (s.onCore fun c => Client.actionFailed a e (c.settle w rest).finishActive)
  | abandoned {s : Client} (w : Write) (rest : List Write) (r : PendingRequest)
      (hw : s.core.writes.Perm (w :: rest)) (h : s.isCurrent w = true)
      (hactive : s.core.active = some r) (ha : r.action = none) :
      Act env fresh s (s.onCore fun c => { (c.settle w rest).finish r.key with active := none })
  /-- the write failed because the transport is lost -/
  | lost {s : Client} (w : Write) (rest : List Write) (r : PendingRequest) (tr : Transport)
      (hw : s.core.writes.Perm (w :: rest)) (h : s.isCurrent w = true)
      (hactive : s.core.active = some r) (ha : r.action = none) (htr : s.tr.Cleared tr) :
      Act env fresh s ⟨tr, (s.core.settle w rest).giveUpAll⟩

/-- What a call of `perform_notification_action` does before the queue is pumped: its action is
queued, or it is answered at once. -/
inductive Taken (token call : Nat) : Client → Client → Prop
  | queued {s : Client} (rid nextRid : Nat) (a : ActionRequest) (entry : Actionable) (c : Core)
      (hentry : s.core.actionable.find? (fun e => e.uid == a.uid) = some entry)
      (ha : a.token = token ∧ a.call = call)
      (hoffer : entry.token = token ∧ entry.inFlight = false)
      (hs : s.tr.notifyStarted = true)
      (h : ({ s.core with nextRid } : Core).enqueue (Client.actionRequest rid a) true = some c) :
      Taken token call s ⟨s.tr, c.flagOffer a.uid true⟩
  | refused {s : Client} (result : ActionResult) (h : result ≠ .sent) :
      Taken token call s (s.note (.called (.actionResult call result)))

/-- A sequence of acts. -/
abbrev Acts (env : Env) (fresh : Client → Prop) : Client → Client → Prop :=
  Relation.ReflTransGen (Act env fresh)

section

variable {env : Env} {fresh : Client → Prop} {s₀ s s' : Client}

theorem acts_transport (h : Acts env fresh s₀ s) (f : Transport → Transport)
    (hf : s.tr.Keeps (f s.tr)) : Acts env fresh s₀ (s.onTransport f) := h.tail (.transport _ hf)

/-- A change of the transport that leaves the footing alone. -/
theorem acts_onTransport (h : Acts env fresh s₀ s) (f : Transport → Transport)
    (hf : (f s.tr).footing = s.tr.footing) : Acts env fresh s₀ (s.onTransport f) :=
  acts_transport h f (Transport.keeps_of_footing hf)

theorem acts_noted (h : Acts env fresh s₀ s) (e : Entry) (he : e.isResult = false) :
    Acts env fresh s₀ (s.note e) := h.tail (.noted e he)

/-- A change of the core that leaves the stock alone. -/
theorem acts_book (h : Acts env fresh s₀ s) (f : Core → Core) (hf : (f s.core).stock = s.core.stock) :
    Acts env fresh s₀ (s.onCore f) := h.tail (.book _ hf)

theorem unmoved_acts : Unmoved (Acts env fresh s₀) where
  quiet := acts_onTransport
  told h _ hc := acts_noted h _ hc

theorem acts_ite {p : Prop} [Decidable p] {t u : Client} (ht : Acts env fresh s₀ t)
    (hu : Acts env fresh s₀ u) : Acts env fresh s₀ (if p then t else u) := by
  split
  · exact ht
  · exact hu

/-! ## Actions and sessions -/

theorem acts_forgetActionable (h : Acts env fresh s₀ s) (uid : Nat) :
    Acts env fresh s₀ (s.onCore (·.forgetActionable uid)) := by
  have hdropped : Acts env fresh s₀ (s.onCore (·.dropQueuedActions (fun a => a.uid == uid)
      .unavailable)) := h.tail (.dropped _ _ (by decide))
  have hwithdrawn := hdropped.tail (.withdrawn
    ((s.core.dropQueuedActions (fun a => a.uid == uid) .unavailable).actionable.filter
      (fun e => e.uid ≠ uid)) List.filter_sublist)
  unfold Client.onCore Core.forgetActionable
  dsimp only at hwithdrawn ⊢
  split
  · exact acts_noted hwithdrawn (.called (.notificationRemoved uid)) rfl
  · exact hwithdrawn

/-- The offers are gone already; the queued actions follow. -/
theorem acts_resetWithdrawn (h : Acts env fresh s₀ (s.onCore fun c => { c with actionable := [] })) :
    Acts env fresh s₀ (s.onCore (·.resetActions)) := by
  have hdropped := h.tail (.dropped (fun _ => true) .unavailable (by decide))
  have hnoted := acts_noted hdropped .actionsReset rfl
  unfold Client.onCore Core.resetActions
  dsimp only at hnoted ⊢
  split
  · exact acts_noted hnoted (.called .actionsReset) rfl
  · exact hnoted

theorem acts_resetActions (h : Acts env fresh s₀ s) :
    Acts env fresh s₀ (s.onCore (·.resetActions)) :=
  acts_resetWithdrawn (h.tail (.withdrawn [] (List.nil_sublist _)))

theorem acts_discard (h : Acts env fresh s₀ s) (uid : Option Nat) :
    Acts env fresh s₀ (s.onCore (·.discardNotificationRequests uid)) := by
  have hretired := h.tail (.retired uid)
  have hkept := acts_book hretired (fun c => { c with
    pendingAppLookups := Core.keepWaiting uid c.pendingAppLookups }) rfl
  exact acts_noted hkept (.invalidated uid) rfl

theorem acts_endSession (h : Acts env fresh s₀ s) :
    Acts env fresh s₀ (s.onCore (·.endSession)) := by
  have hended := acts_book h (fun c => { c with liveEventsSeen := false }) rfl
  have hdiscarded := acts_discard (acts_noted hended .sessionEnded rfl) none
  exact acts_noted hdiscarded (.called .sessionReset) rfl

/-- The requests can be given up with the subscription. -/
def MayClear (env : Env) (fresh : Client → Prop) (s₀ s : Client) : Prop :=
  ∀ tr, s.tr.Cleared tr → Acts env fresh s₀ ⟨tr, s.core.giveUpAll⟩

theorem mayClear (h : Acts env fresh s₀ s) : MayClear env fresh s₀ s :=
  fun tr htr => h.tail (.cleared tr s.core.requestTimer htr)

theorem MayClear.of_eq (h : MayClear env fresh s₀ s) (hcore : s'.core = s.core)
    (hgeneration : s'.tr.ownerGeneration = s.tr.ownerGeneration)
    (hnumbered : s.tr.Numbered → s'.tr.Numbered) : MayClear env fresh s₀ s' := by
  intro tr htr
  rw [hcore]
  refine h tr ⟨?_, htr.off, fun hn => htr.numbered (hnumbered hn)⟩
  rw [htr.generation, hgeneration]

theorem acts_clearSubscription (h : MayClear env fresh s₀ s) (stop : Bool) :
    Acts env fresh s₀ (s.clearSubscription env stop) := by
  have hcleared : Acts env fresh s₀ ((Client.mk (s.tr.clearSubscription env stop)
      s.core.resetRequests).onCore fun c => { c with actionable := [] }) :=
    h _ (Transport.cleared_clearSubscription env stop rfl id)
  exact acts_endSession (acts_resetWithdrawn hcleared)

theorem acts_markTransportFailed (h : MayClear env fresh s₀ s) :
    Acts env fresh s₀ (s.markTransportFailed env) := by
  refine unmoved_acts.statusIf (acts_onTransport (acts_clearSubscription (h.of_eq ?_ ?_ ?_) _) _ ?_) _
  · rfl
  · rfl
  · exact fun hn => ⟨hn.below, hn.nodup⟩
  · split <;> simp

theorem acts_escalateUnresponsiveTransport (h : MayClear env fresh s₀ s) :
    Acts env fresh s₀ (s.escalateUnresponsiveTransport env) := by
  apply acts_markTransportFailed
  split
  · exact h.of_eq rfl rfl (fun hn => ⟨hn.below, hn.nodup⟩)
  · exact h

/-! ## Emitting what waits -/

theorem acts_emit (h : Acts env fresh s₀ s) (w : Waiting) (appName : Str) :
    Acts env fresh s₀ (s.onCore (·.emit env w appName)) := by
  unfold Client.onCore Core.emit
  dsimp only
  split
  · split
    · exact acts_noted h _ rfl
    · exact acts_noted (h.tail (.offered _ w.serial)) _ rfl
  · exact acts_noted h _ rfl

theorem acts_flushWaiting (h : Acts env fresh s₀ s) (appId appName : Str) :
    Acts env fresh s₀ (s.onCore (·.flushWaiting env appId appName)) := by
  have hemits : ∀ (ws : List Waiting) {s : Client}, Acts env fresh s₀ s →
      Acts env fresh s₀ (s.onCore fun c => ws.foldl (fun c w => c.emit env w appName) c) := by
    intro ws
    induction ws with
    | nil => exact id
    | cons w ws ih => exact fun h => ih (acts_emit h w appName)
  exact hemits (s.core.waitingFor appId) (acts_book h (fun c => { c with
    appLookupRequested := c.appLookupRequested.filter (· ≠ appId)
    pendingAppLookups := c.pendingAppLookups.filter (fun p => p.1 ≠ appId) }) rfl)

/-- What `_abandon_request` does once the key is free: a probe is tried again, the notifications
that wait for the app's name are emitted without it. -/
def Client.giveUp (env : Env) (r : PendingRequest) (s : Client) : Client :=
  if r.authorizationProbe then s.onTransport (·.scheduleAuthorizationRetry)
  else
    match r.assembler with
    | none => s
    | some assembler =>
      match assembler.appId with
      | none => s
      | some appId =>
        if r.notification.isSome || appId.isEmpty then s
        else s.onCore (·.flushWaiting env appId appId)

theorem Client.abandonRequest_eq (r : PendingRequest) :
    s.abandonRequest env r = (s.onCore (·.finish r.key)).giveUp env r := rfl

theorem acts_giveUp (h : Acts env fresh s₀ s) (r : PendingRequest) :
    Acts env fresh s₀ (s.giveUp env r) := by
  unfold Client.giveUp
  split
  · exact acts_onTransport h _ (by simp)
  split
  · exact h
  split
  · exact h
  · exact acts_ite h (acts_flushWaiting h _ _)

theorem Core.emit_active (w : Waiting) (appName : Str) (c : Core) (a : Option PendingRequest) :
    ({ c with active := a } : Core).emit env w appName = { c.emit env w appName with active := a } := by
  unfold Core.emit
  dsimp only
  split
  · split <;> rfl
  · rfl

theorem Core.flushWaiting_active (appId appName : Str) (c : Core) (a : Option PendingRequest) :
    ({ c with active := a } : Core).flushWaiting env appId appName
      = { c.flushWaiting env appId appName with active := a } := by
  have hfold : ∀ (ws : List Waiting) (c : Core),
      ws.foldl (fun c w => c.emit env w appName) { c with active := a }
        = { ws.foldl (fun c w => c.emit env w appName) c with active := a } := by
    intro ws
    induction ws with
    | nil => exact fun _ => rfl
    | cons w ws ih =>
      intro c
      rw [List.foldl_cons, List.foldl_cons, Core.emit_active, ih]
  exact hfold (c.waitingFor appId) { c with
    appLookupRequested := c.appLookupRequested.filter (· ≠ appId)
    pendingAppLookups := c.pendingAppLookups.filter (fun p => p.1 ≠ appId) }

/-- It does not matter whether the request is given up before or after it ceases to be active. -/
theorem Client.giveUp_active (r : PendingRequest) (a : Option PendingRequest) :
    (s.giveUp env r).onCore (fun c => { c with active := a })
      = (s.onCore fun c => { c with active := a }).giveUp env r := by
  unfold Client.giveUp
  split
  · rfl
  split
  · rfl
  split
  · rfl
  split
  · rfl
  · exact congrArg (Client.mk s.tr) (Core.flushWaiting_active _ _ s.core a).symm

variable {r : PendingRequest} {t : Transport} {token : Nat}

/-- The key of a finished request is free already. -/
theorem Core.finish_finishActive {c : Core} (h : c.active = some r) :
    c.finishActive.finish r.key = c.finishActive := by
  rw [Core.finishActive_some h]
  simp [Core.finish, List.filter_filter]

/-- The active request is finished and then abandoned. -/
theorem acts_abandonFinished (hactive : s.core.active = some r)
    (h : Acts env fresh s₀ (s.onCore (·.finishActive))) :
    Acts env fresh s₀ ((s.onCore (·.finishActive)).abandonRequest env r) := by
  have hfree : (s.onCore (·.finishActive)).onCore (·.finish r.key) = s.onCore (·.finishActive) := by
    unfold Client.onCore
    dsimp only
    rw [Core.finish_finishActive hactive]
  rw [Client.abandonRequest_eq, hfree]
  exact acts_giveUp h r

/-- The active request is abandoned when its time is up. -/
theorem acts_abandonTimedOut (hactive : s.core.active = some r)
    (h : Acts env fresh s₀ (s.onCore (·.finishActive))) :
    Acts env fresh s₀ (((s.onCore fun c => { c with requestTimer := false }).abandonRequest env
      r).onCore fun c => { c with active := none }) := by
  have hfinished : ((s.onCore fun c => { c with requestTimer := false }).onCore
      (·.finish r.key)).onCore (fun c => { c with active := none }) = s.onCore (·.finishActive) := by
    unfold Client.onCore
    dsimp only
    rw [Core.finishActive_some hactive]
    rfl
  rw [Client.abandonRequest_eq, Client.giveUp_active, hfinished]
  exact acts_giveUp h r

/-! ## Writes and their replies -/

namespace Client

theorem releaseWrite_settle (w : Write) (rest : List Write) :
    ((s.onCore fun c => { c with writes := rest }).releaseWrite w).1 = s.onCore (·.settle w rest) := by
  rw [releaseWrite_fst]
  rfl

/-- What a permission error changes has nothing to do with the writes. -/
theorem settle_observePermissionError (w : Write) (rest : List Write) (e : DBusError) :
    (s.onCore (·.settle w rest)).observePermissionError e
      = (s.observePermissionError e).onCore (·.settle w rest) := by
  unfold observePermissionError
  split
  · have hauthorized : (s.onCore (·.settle w rest)).tr.authorized = s.tr.authorized := rfl
    dsimp only
    rw [hauthorized]
    split <;> rfl
  · rfl

theorem observePermissionError_core (e : DBusError) :
    (s.observePermissionError e).core.writes = s.core.writes
      ∧ (s.observePermissionError e).core.active = s.core.active := by
  unfold observePermissionError
  split
  · dsimp only
    split <;> exact ⟨rfl, rfl⟩
  · exact ⟨rfl, rfl⟩

theorem observePermissionError_footing (e : DBusError) :
    (s.observePermissionError e).tr.footing = s.tr.footing := by
  unfold observePermissionError
  split
  · dsimp only
    split <;> exact Transport.scheduleAuthorizationRetry_footing _
  · rfl

theorem isCurrent_observePermissionError (w : Write) (e : DBusError) :
    (s.observePermissionError e).isCurrent w = s.isCurrent w := by
  have htr := s.observePermissionError_footing e
  simp only [Transport.footing, Prod.mk.injEq] at htr
  unfold isCurrent
  rw [htr.1, htr.2.1, (s.observePermissionError_core e).2]

theorem exists_active_of_isCurrent {w : Write} (h : s.isCurrent w = true) :
    ∃ r, s.core.active = some r ∧ r.rid = w.rid := by
  unfold isCurrent at h
  simp only [Bool.and_eq_true, Option.any_eq_true, beq_iff_eq] at h
  obtain ⟨-, r, hr, hrid⟩ := h
  exact ⟨r, hr, hrid⟩

end Client

/-- **A failed write** is one act, and what follows from it. -/
theorem acts_failed (h : Acts env fresh s₀ s) {w : Write} {rest : List Write}
    (hw : s.core.writes.Perm (w :: rest)) (e : DBusError) :
    Acts env fresh s₀ ((s.onCore fun c => { c with writes := rest }).failed env w e).1 := by
  have hsettled := s.releaseWrite_settle w rest
  unfold Client.failed
  generalize (s.onCore fun c => { c with writes := rest }).releaseWrite w = released at *
  obtain ⟨s₁, b⟩ := released
  dsimp only at hsettled ⊢
  subst hsettled
  split
  · rename_i hcurrent
    have hcurrent : s.isCurrent w = true := hcurrent
    split
    · rename_i hnone
      obtain ⟨r, hr, -⟩ := s.exists_active_of_isCurrent hcurrent
      have hnone : s.core.active = none := hnone
      rw [hr] at hnone
      cases hnone
    rename_i r hr
    have hr : s.core.active = some r := hr
    split
    · rename_i hdiscarded
      have hdrained := h.tail (.drained w rest r hw hcurrent hr hdiscarded)
      split
      · exact acts_markTransportFailed (mayClear hdrained)
      · exact hdrained
    rename_i hwanted
    have hwanted : r.discarded = false := by simpa using hwanted
    split
    · exact h.tail (.retried w rest r _ hw hcurrent hr hwanted)
    split
    · rename_i a ha
      have hrefused := unmoved_acts.observePermissionError
        (h.tail (.refused w rest r a e hw hcurrent hr ha)) e
      split
      · exact acts_markTransportFailed (mayClear hrefused)
      · exact hrefused
    -- the error is observed first, so that the write and its request end together
    rename_i ha
    have hobserved := unmoved_acts.observePermissionError h e
    have hactive : (s.observePermissionError e).core.active = some r := by
      rw [(s.observePermissionError_core e).2, hr]
    have hwrites : (s.observePermissionError e).core.writes.Perm (w :: rest) := by
      rw [(s.observePermissionError_core e).1]
      exact hw
    have hstill : (s.observePermissionError e).isCurrent w = true := by
      rw [s.isCurrent_observePermissionError, hcurrent]
    rw [s.settle_observePermissionError]
    split
    · refine acts_markTransportFailed (fun tr htr => ?_)
      exact hobserved.tail (.lost w rest r tr hwrites hstill hactive ha htr)
    have habandoned := hobserved.tail (.abandoned w rest r hwrites hstill hactive ha)
    have hgiven := acts_giveUp habandoned r
    rw [Client.abandonRequest_eq, Client.giveUp_active]
    exact hgiven
  · rename_i hstale
    have hstale : s.isCurrent w = false := eq_false_of_ne_true hstale
    have hreported := h.tail (.stale w rest (actionErrorResult e) hw hstale)
    cases ha : w.action with
    | none | some a =>
      rw [ha] at hreported
      exact hreported

theorem acts_pumpRounds (rounds : Nat) (h : Acts env fresh s₀ s) :
    Acts env fresh s₀ (Client.pumpRounds env rounds s) := by
  induction rounds generalizing s with
  | zero => exact h
  | succ rounds ih =>
    unfold Client.pumpRounds
    split
    · exact h
    rename_i r rest hqueue
    split
    · exact h
    rename_i hblocked
    have hfree : s.isBlocked = false := by simpa using hblocked
    have hwrote := h.tail (.wrote r rest hqueue hfree)
    dsimp only
    split
    · exact hwrote
    rename_i e _
    -- a dispatch that fails at once is a write that is answered at once
    have hopen : ((s.startWrite env r rest).onCore fun c =>
        { c with writes := c.writes ++ [s.writeOf r] }).core.writes.Perm
          (s.writeOf r :: s.core.writes) := List.perm_append_singleton _ _
    have hfailed := acts_failed hwrote hopen e
    split
    · exact ih hfailed
    · exact hfailed

theorem acts_pump (h : Acts env fresh s₀ s) : Acts env fresh s₀ (Client.pump env s) :=
  acts_pumpRounds _ h

theorem acts_written (h : Acts env fresh s₀ s) {w : Write} {rest : List Write}
    (hw : s.core.writes.Perm (w :: rest)) :
    Acts env fresh s₀ ((s.onCore fun c => { c with writes := rest }).written env w) := by
  have hsettled := s.releaseWrite_settle w rest
  unfold Client.written
  generalize (s.onCore fun c => { c with writes := rest }).releaseWrite w = released at *
  obtain ⟨s₁, b⟩ := released
  dsimp only at hsettled ⊢
  subst hsettled
  have hcurrent : (s.onCore (·.settle w rest)).isCurrent w = s.isCurrent w := rfl
  rw [hcurrent]
  split
  · rename_i a ha
    split
    · rename_i hc
      exact acts_pump (h.tail (.sent w rest a hw hc ha))
    rename_i hc
    have hreported := h.tail (.stale w rest .sent hw (by simpa using hc))
    rw [ha] at hreported
    exact acts_ite (acts_pump hreported) hreported
  rename_i ha
  split
  · rename_i hc
    exact h.tail (.awaited w rest hw hc ha)
  rename_i hc
  have hstale := h.tail (.stale w rest .sent hw (by simpa using hc))
  rw [ha] at hstale
  exact acts_ite (acts_pump hstale) hstale

/-! ## Queueing -/

theorem new_authorizationProbe (rid : Nat) : (Client.authorizationProbe rid).New :=
  ⟨rfl, rfl, rfl, rfl⟩

theorem new_appNameRequest (rid : Nat) (appId : Str) : (Client.appNameRequest rid appId).New :=
  ⟨rfl, rfl, rfl, rfl⟩

theorem new_probeRequest (rid : Nat) (a : Arrival) : (Client.probeRequest rid a).New :=
  ⟨rfl, rfl, rfl, rfl⟩

theorem new_fullRequest (rid : Nat) (a : Arrival) (appId : Str) :
    (Client.fullRequest env rid a appId).New := ⟨rfl, rfl, rfl, rfl⟩

theorem acts_newRid (h : Acts env fresh s₀ s) : Acts env fresh s₀ s.newRid.1 :=
  acts_book h (fun c => { c with nextRid := c.nextRid + 1 }) rfl

theorem acts_enqueue (h : Acts env fresh s₀ s) (hr : r.New) (front : Bool)
    (hs : s.tr.notifyStarted = true) : Acts env fresh s₀ (s.enqueue env r front).1 := by
  unfold Client.enqueue
  split
  · exact h
  rename_i c hc
  exact acts_pump (h.tail (.queued r front c hr hs hc))

theorem acts_queueAuthorizationProbe (h : Acts env fresh s₀ s) (force : Bool) :
    Acts env fresh s₀ (s.queueAuthorizationProbe env force) := by
  unfold Client.queueAuthorizationProbe
  split
  · exact h
  rename_i hoff
  have hs : s.tr.notifyStarted = true := by
    by_contra hnot
    exact hoff (by simp [hnot])
  exact acts_enqueue (acts_newRid h) (new_authorizationProbe _) false hs

/-! ## Subscriptions and owners -/

/-- A subscription starts: the client is started and has a Control Point. -/
theorem acts_subscribing (h : Acts env fresh s₀ s) (hs : s.tr.started = true)
    (hcp : s.tr.cpPath.isSome = true) :
    Acts env fresh s₀ ((s.onTransport fun t => { t with
      subscribeRetry := false, notifyStarted := true
      receivers := some (t.ownerGeneration, t.subscriptionGeneration) }).onCore
        fun c => c.resetActions.endSession) := by
  have hsubscribed := acts_transport h (fun t => { t with
    subscribeRetry := false, notifyStarted := true
    receivers := some (t.ownerGeneration, t.subscriptionGeneration) }) ?_
  · exact acts_endSession (acts_resetActions hsubscribed)
  · refine ⟨rfl, fun _ => rfl, ?_, fun hn => ⟨hn.below, hn.nodup⟩, id⟩
    exact fun _ => ⟨fun _ => ⟨hs, hcp⟩, fun _ => rfl, fun _ => rfl⟩

theorem acts_withPath (h : Acts env fresh s₀ s) (path : Path) (kind : Characteristic) :
    Acts env fresh s₀ (s.onTransport (·.withPath path kind)) := by
  refine acts_transport h _ ?_
  cases kind with
  | notificationSource | dataSource => exact Transport.keeps_of_footing rfl
  | controlPoint =>
    refine ⟨rfl, id, ?_, fun hn => ⟨hn.below, hn.nodup⟩, id⟩
    exact fun hf => { hf with subscribed := fun hs => ⟨(hf.subscribed hs).1, rfl⟩ }

/-- Paths and timers change before the subscription is given up, and paths and flags afterwards. -/
theorem acts_clearedThen (h : MayClear env fresh s₀ s) (f g : Transport → Transport) (stop : Bool)
    (hf : (f s.tr).bonds = s.tr.bonds) (hg : ∀ t, (g t).bonds = t.bonds) :
    Acts env fresh s₀ (((s.onTransport f).clearSubscription env stop).onTransport g) := by
  simp only [Transport.bonds, Prod.mk.injEq] at hf hg
  have hmay : MayClear env fresh s₀ (s.onTransport f) := by
    refine h.of_eq rfl hf.1 (fun hn => ?_)
    obtain ⟨-, -, -, -, htoggles, hnext⟩ := hf
    exact ⟨by rw [show (s.onTransport f).tr = f s.tr from rfl, htoggles, hnext]; exact hn.below,
      by rw [show (s.onTransport f).tr = f s.tr from rfl, htoggles]; exact hn.nodup⟩
  have hoff : ((s.onTransport f).clearSubscription env stop).tr.notifyStarted = false :=
    (Transport.cleared_clearSubscription env stop rfl id).off.1
  refine acts_transport (acts_clearSubscription hmay stop) g ?_
  obtain ⟨hgeneration, hnotify, hreceivers, hrefresh, htoggles, hnext⟩ := hg
    ((s.onTransport f).clearSubscription env stop).tr
  refine ⟨hgeneration, fun hs => ?_, fun hfine => ?_, fun hn => ?_, fun ht f hf => ?_⟩
  · rw [hoff] at hs
    cases hs
  · refine ⟨fun hs => ?_, fun hr => ?_, fun hr => ?_⟩
    · rw [hnotify, hoff] at hs
      cases hs
    · rw [hreceivers] at hr
      rw [hnotify]
      exact hfine.received hr
    · rw [hrefresh] at hr
      rw [hnotify]
      exact hfine.refreshed hr
  · exact ⟨by rw [htoggles, hnext]; exact hn.below, by rw [htoggles]; exact hn.nodup⟩
  · rw [hgeneration, htoggles]
    exact ht f (by rw [← hrefresh]; exact hf)

theorem acts_starting (h : Acts env fresh s₀ s) :
    Acts env fresh s₀ (s.onTransport fun t => { t with ownerAvailable := true, started := true }) := by
  refine acts_transport h _ ⟨rfl, id, fun hf => ?_, fun hn => ⟨hn.below, hn.nodup⟩, fun ht => ht⟩
  exact { hf with subscribed := fun hs => ⟨rfl, (hf.subscribed hs).2⟩ }

/-- The discovery failed before anything was subscribed. -/
theorem acts_startFailed (h : Acts env fresh s₀ s) (hstopped : s.tr.started = false) :
    Acts env fresh s₀ (s.onTransport fun t =>
      { t with ownerAvailable := true, started := false, managerWatched := false }) := by
  refine acts_transport h _ ⟨rfl, id, fun hf => ⟨fun hs => ?_, hf.received, hf.refreshed⟩,
    fun hn => ⟨hn.below, hn.nodup⟩, id⟩
  have := (hf.subscribed hs).1
  rw [hstopped] at this
  cases this

theorem walk_acts : Walk env (Acts env fresh s₀) where
  toUnmoved := unmoved_acts
  found := acts_withPath
  starting := acts_starting
  startFailed := acts_startFailed
  subscribing := acts_subscribing
  failed h := acts_markTransportFailed (mayClear h)
  probed := acts_queueAuthorizationProbe
  cleared h := acts_clearedThen (mayClear h)

/-- An owner change, before anything is given up. -/
def Client.nextOwner (newOwner : Bool) (s : Client) : Client :=
  ⟨{ s.tr with ownerGeneration := s.tr.ownerGeneration + 1, ownerAvailable := newOwner
               notifyRefreshes := 0 }, { s.core with cpWriteToken := none }⟩

theorem acts_ownerLost (h : Acts env fresh s₀ s) (newOwner : Bool) :
    Acts env fresh s₀ ((s.nextOwner newOwner).ownerLost env) := by
  have hmay : MayClear env fresh s₀ (s.nextOwner newOwner) := by
    intro tr htr
    refine h.tail (.ownerLost tr ⟨htr.fine, htr.toggling⟩ (fun hn => ?_) htr.generation)
    exact htr.numbered ⟨hn.below, hn.nodup⟩
  exact unmoved_acts.statusIf (acts_clearedThen hmay (fun t => { t with
      managerRetry := false, bearerSettle := false, transportReset := false
      managerWatched := false, subscribeRetry := false })
    (fun t => { t with
      bearerConnected := none, legacyConnected := false, bearerReady := false
      transportBlocked := false, ownedNotifyPaths := [], nsPath := none, dsPath := none
      cpPath := none }) false rfl (fun _ => rfl)) _

theorem acts_observeBluezOwner (h : Acts env fresh s₀ s) (oldOwner newOwner : Bool)
    (hfresh : oldOwner = false → fresh s) :
    Acts env fresh s₀ (s.observeBluezOwner env oldOwner newOwner) := by
  unfold Client.observeBluezOwner
  split
  · exact h
  cases oldOwner with
  | false =>
    have hfound := h.tail (.ownerFound newOwner (hfresh rfl))
    exact acts_ite (walk_acts.rebuildDiscovery hfound) hfound
  | true =>
    have hlost := acts_ownerLost h newOwner
    exact acts_ite (walk_acts.rebuildDiscovery hlost) hlost

/-! ## Re-enabling the notifications -/

/-- The transport `t` in the middle of a re-enable: its next toggle is still to be sent. -/
structure Transport.Midway (token : Nat) (t t' : Transport) : Prop where
  generation : t'.ownerGeneration = t.ownerGeneration
  running : t.started = true ∧ t.notifyStarted = true
  same : t'.started = t.started ∧ t'.notifyStarted = t.notifyStarted
    ∧ t'.cpPath.isSome = t.cpPath.isSome ∧ t'.receivers = t.receivers
  numbered : t.Numbered → t'.Numbered
  refresh : ∃ f, t'.notifyRefresh = some f ∧ f.token = token ∧ f.generation = t.ownerGeneration

namespace Transport.Midway

variable {token : Nat} {t t' t'' : Transport}

theorem current (h : t.Midway token t') : t'.refreshCurrent token = true := by
  obtain ⟨f, hf, htoken, hgeneration⟩ := h.refresh
  simp [refreshCurrent, hf, htoken, hgeneration, h.generation, h.same.1, h.running.1]

/-- Counters and the owned paths may change on the way. -/
theorem step (h : t.Midway token t') (hgeneration : t''.ownerGeneration = t'.ownerGeneration)
    (hsame : t''.started = t'.started ∧ t''.notifyStarted = t'.notifyStarted
      ∧ t''.cpPath = t'.cpPath ∧ t''.receivers = t'.receivers)
    (hnumbered : t'.Numbered → t''.Numbered)
    (hrefresh : ∃ f, t''.notifyRefresh = some f ∧ f.token = token
      ∧ f.generation = t.ownerGeneration) : t.Midway token t'' := by
  refine ⟨by rw [hgeneration, h.generation], h.running, ?_, fun hn => hnumbered (h.numbered hn),
    hrefresh⟩
  rw [hsame.1, hsame.2.1, hsame.2.2.1, hsame.2.2.2]
  exact h.same

/-- The end of it: the re-enable is over, or a toggle is on its way. -/
theorem keeps (h : t.Midway token t') (hgeneration : t''.ownerGeneration = t'.ownerGeneration)
    (hsame : t''.started = t'.started ∧ t''.notifyStarted = t'.notifyStarted
      ∧ t''.cpPath = t'.cpPath ∧ t''.receivers = t'.receivers)
    (hnumbered : t'.Numbered → t''.Numbered) (htoggling : t''.Toggling) : t.Keeps t'' := by
  have hon : t''.notifyStarted = true := by rw [hsame.2.1, h.same.2.1, h.running.2]
  refine ⟨by rw [hgeneration, h.generation], fun _ => hon, fun hf => ⟨fun _ => ?_, fun _ => hon,
    fun _ => hon⟩, fun hn => hnumbered (h.numbered hn), fun _ => htoggling⟩
  rw [hsame.1, h.same.1, hsame.2.2.1, h.same.2.2.1]
  exact hf.subscribed h.running.2

end Transport.Midway

/-- A counted toggle. -/
theorem Transport.Numbered.counted (h : t.Numbered) :
    ({ t with nextToggle := t.nextToggle + 1 } : Transport).Numbered :=
  ⟨fun x hx => Nat.lt_succ_of_lt (h.below x hx), h.nodup⟩

/-- A toggle is on its way. -/
theorem Transport.Numbered.sent (h : t.Numbered) {toggle : Toggle}
    (hnumber : toggle.number = t.nextToggle) :
    ({ t with nextToggle := t.nextToggle + 1, toggles := t.toggles ++ [toggle] }
      : Transport).Numbered := by
  refine ⟨fun x hx => ?_, ?_⟩
  · rcases List.mem_append.mp hx with hx | hx
    · exact Nat.lt_succ_of_lt (h.below x hx)
    rw [List.mem_singleton.mp hx, hnumber]
    exact Nat.lt_succ_self _
  rw [List.map_append, List.nodup_append']
  refine ⟨h.nodup, List.nodup_singleton _, fun n hn hlast => ?_⟩
  obtain ⟨x, hx, rfl⟩ := List.mem_map.mp hn
  have hlast : x.number = toggle.number := by simpa using hlast
  have := h.below x hx
  omega

theorem acts_refreshFailed (h : MayClear env fresh s₀ s) (e : DBusError) :
    Acts env fresh s₀ (s.refreshFailed env e) := by
  have hover : MayClear env fresh s₀ (s.onTransport fun t => { t with notifyRefresh := none }) :=
    h.of_eq rfl rfl (fun hn => ⟨hn.below, hn.nodup⟩)
  exact acts_ite (acts_markTransportFailed hover) (acts_escalateUnresponsiveTransport hover)

section

variable (h : Acts env fresh s₀ s)
include h

/-- In the middle of a re-enable the requests can be given up as before it. -/
theorem Transport.Midway.mayClear
    (hm : s.tr.Midway token s'.tr) (hcore : s'.core = s.core) : MayClear env fresh s₀ s' :=
  (BlueFerry.Ancs.mayClear h).of_eq hcore hm.generation hm.numbered

/-- A toggle is sent in the middle of a re-enable. -/
theorem acts_sendToggle (hm : s.tr.Midway token s'.tr)
    (hcore : s'.core = s.core) (path : Path) (starting : Bool) :
    Acts env fresh s₀ ((s'.onTransport fun t => { t with nextToggle := s'.tr.nextToggle + 1
      }).onTransport fun t => { t with toggles := t.toggles ++ [
        { number := s'.tr.nextToggle, refresh := token, generation := s'.tr.ownerGeneration, path
          starting }] }) := by
  have hkeeps : s.tr.Keeps { s'.tr with
      nextToggle := s'.tr.nextToggle + 1
      toggles := s'.tr.toggles ++ [{ number := s'.tr.nextToggle, refresh := token
                                     generation := s'.tr.ownerGeneration, path, starting }] } := by
    refine hm.keeps rfl ⟨rfl, rfl, rfl, rfl⟩ (fun hn => hn.sent rfl) ?_
    intro f hf
    obtain ⟨f', hf', htoken, hgeneration⟩ := hm.refresh
    rw [hf'] at hf
    obtain rfl := Option.some.inj hf
    refine ⟨hgeneration.trans hm.generation.symm, ?_⟩
    exact ⟨_, List.mem_append_right _ (List.mem_singleton_self _), htoken.symm, rfl⟩
  have hsent := h.tail (.transport _ hkeeps)
  rw [← hcore] at hsent
  exact hsent

theorem acts_toggleStart (hm : s.tr.Midway token s'.tr) (hcore : s'.core = s.core) (path : Path) :
    Acts env fresh s₀ (s'.toggleStart env token path) := by
  have hcounted : s.tr.Midway token (s'.onTransport fun t =>
      { t with nextToggle := s'.tr.nextToggle + 1 }).tr :=
    hm.step rfl ⟨rfl, rfl, rfl, rfl⟩ (fun hn => hn.counted) hm.refresh
  unfold Client.toggleStart
  dsimp only
  split
  · exact acts_sendToggle h hm hcore path true
  rw [if_pos hcounted.current]
  exact acts_refreshFailed (hcounted.mayClear h hcore) _

theorem acts_toggleStopped (toggle : Toggle) (hm : s.tr.Midway toggle.refresh s'.tr)
    (hcore : s'.core = s.core) : Acts env fresh s₀ (s'.toggleStopped env toggle) := by
  unfold Client.toggleStopped
  split
  · have howned : s.tr.Midway toggle.refresh (s'.onTransport fun t => { t with
        ownedNotifyPaths := t.ownedNotifyPaths.filter (· ≠ toggle.path) }).tr :=
      hm.step rfl ⟨rfl, rfl, rfl, rfl⟩ (fun hn => ⟨hn.below, hn.nodup⟩) hm.refresh
    rw [if_pos howned.current]
    exact acts_toggleStart h howned hcore _
  · rw [if_pos hm.current]
    exact acts_toggleStart h hm hcore _

theorem acts_toggleStopFailed (toggle : Toggle)
    (hm : s.tr.Midway toggle.refresh s'.tr) (hcore : s'.core = s.core) (e : DBusError) :
    Acts env fresh s₀ (s'.toggleStopFailed env toggle e) := by
  unfold Client.toggleStopFailed
  rw [if_pos hm.current]
  exact acts_ite (acts_toggleStopped h toggle hm hcore) (acts_refreshFailed (hm.mayClear h hcore) e)

theorem acts_toggleNotify (hm : s.tr.Midway token s'.tr) (hcore : s'.core = s.core) (path : Path) :
    Acts env fresh s₀ (s'.toggleNotify env token path) := by
  have hcounted : s.tr.Midway token (s'.onTransport fun t =>
      { t with nextToggle := s'.tr.nextToggle + 1 }).tr :=
    hm.step rfl ⟨rfl, rfl, rfl, rfl⟩ (fun hn => hn.counted) hm.refresh
  unfold Client.toggleNotify
  dsimp only
  split
  · exact acts_sendToggle h hm hcore path false
  refine acts_toggleStopFailed h _ ?_ ?_ _
  · exact hcounted
  · exact hcore

theorem acts_refreshDone (hm : s.tr.Midway token s'.tr)
    (hcore : s'.core = s.core) : Acts env fresh s₀ (s'.refreshDone env) := by
  have hover : Acts env fresh s₀ (s'.onTransport fun t => { t with notifyRefresh := none }) := by
    have hkeeps : s.tr.Keeps { s'.tr with notifyRefresh := none } :=
      hm.keeps rfl ⟨rfl, rfl, rfl, rfl⟩ (fun hn => ⟨hn.below, hn.nodup⟩) (fun f hf => by cases hf)
    have hmoved := h.tail (.transport _ hkeeps)
    rw [← hcore] at hmoved
    exact hmoved
  have hreset := acts_newRid (acts_resetActions hover)
  have hon : s'.tr.notifyStarted = true := by rw [hm.same.2.1, hm.running.2]
  unfold Client.refreshDone
  dsimp only
  split
  · rename_i c hc
    exact acts_pump (hreset.tail (.queued _ true c (new_authorizationProbe _) hon hc))
  · exact acts_ite (acts_pump hreset) (acts_escalateUnresponsiveTransport (mayClear hreset))

theorem acts_refreshNext (refresh : Refresh) (hm : s.tr.Midway refresh.token s'.tr)
    (hcore : s'.core = s.core) (hgeneration : refresh.generation = s.tr.ownerGeneration) :
    Acts env fresh s₀ (s'.refreshNext env refresh) := by
  unfold Client.refreshNext
  split
  · rename_i path rest _
    have hnext : s.tr.Midway refresh.token (s'.onTransport fun t =>
        { t with notifyRefresh := some { refresh with remaining := rest } }).tr :=
      hm.step rfl ⟨rfl, rfl, rfl, rfl⟩ (fun hn => ⟨hn.below, hn.nodup⟩) ⟨_, rfl, rfl, hgeneration⟩
    exact acts_toggleNotify h hnext hcore path
  · exact acts_refreshDone h hm hcore

theorem acts_toggleStarted (toggle : Toggle) (hm : s.tr.Midway toggle.refresh s'.tr)
    (hcore : s'.core = s.core) : Acts env fresh s₀ (s'.toggleStarted env toggle) := by
  obtain ⟨f, hf, htoken, hgeneration⟩ := hm.refresh
  unfold Client.toggleStarted
  split
  · have howned : s.tr.Midway toggle.refresh (s'.onTransport fun t => { t with
        ownedNotifyPaths := toggle.path :: t.ownedNotifyPaths }).tr :=
      hm.step rfl ⟨rfl, rfl, rfl, rfl⟩ (fun hn => ⟨hn.below, hn.nodup⟩) hm.refresh
    rw [if_pos howned.current]
    have hf' : (s'.onTransport fun t => { t with
      ownedNotifyPaths := toggle.path :: t.ownedNotifyPaths }).tr.notifyRefresh = some f := hf
    simp only [hf']
    exact acts_refreshNext h f (htoken ▸ howned) hcore hgeneration
  · rw [if_pos hm.current]
    simp only [hf]
    exact acts_refreshNext h f (htoken ▸ hm) hcore hgeneration

end

/-- The reply to a toggle of a re-enable that is over changes nothing but the list. -/
theorem toggleAnswered_stale (toggle : Toggle) (error : Option DBusError)
    (hstale : s.tr.refreshCurrent toggle.refresh = false) :
    (s.toggleAnswered env toggle error).core = s.core
      ∧ (s.toggleAnswered env toggle error).tr.footing
        = ({ s.tr with toggles := s.tr.toggles.filter (fun x => x.number ≠ toggle.number) }
          : Transport).footing := by
  have hstale : ({ s.tr with toggles := s.tr.toggles.filter (fun x => x.number ≠ toggle.number) }
    : Transport).refreshCurrent toggle.refresh ≠ true := ne_true_of_eq_false hstale
  have hstopped : ∀ {u : Client}, u.tr.refreshCurrent toggle.refresh ≠ true →
      (u.toggleStopped env toggle).core = u.core
        ∧ (u.toggleStopped env toggle).tr.footing = u.tr.footing := by
    intro u hu
    unfold Client.toggleStopped
    dsimp only
    split
    · split
      · exact absurd ‹_› hu
      · exact ⟨rfl, rfl⟩
    · exact ⟨rfl, rfl⟩
  unfold Client.toggleAnswered
  dsimp only
  split
  · exact hstopped hstale
  · unfold Client.toggleStopFailed
    split
    · exact hstopped hstale
    split
    · exact absurd ‹_› hstale
    · exact ⟨rfl, rfl⟩
  · unfold Client.toggleStarted
    dsimp only
    split
    all_goals
      split
      · exact absurd ‹_› hstale
      · exact ⟨rfl, rfl⟩
  · split
    · exact absurd ‹_› hstale
    · exact ⟨rfl, rfl⟩

theorem Transport.Numbered.answered (h : t.Numbered) (number : Nat) :
    ({ t with toggles := t.toggles.filter (fun x => x.number ≠ number) } : Transport).Numbered :=
  ⟨fun x hx => h.below x (List.mem_of_mem_filter hx),
    (List.Sublist.map _ List.filter_sublist).nodup h.nodup⟩

theorem acts_toggleAnswered (h : Acts env fresh s₀ s) (hfine : s.tr.Fine) (hnumbered : s.tr.Numbered)
    {toggle : Toggle} (htoggle : toggle ∈ s.tr.toggles) (error : Option DBusError) :
    Acts env fresh s₀ (s.toggleAnswered env toggle error) := by
  by_cases hcurrent : s.tr.refreshCurrent toggle.refresh = true
  · have hm : s.tr.Midway toggle.refresh (s.onTransport fun t => { t with
        toggles := t.toggles.filter (fun x => x.number ≠ toggle.number) }).tr := by
      simp only [Transport.refreshCurrent, Bool.and_eq_true, Option.any_eq_true, beq_iff_eq]
        at hcurrent
      obtain ⟨hstarted, f, hf, htoken, hgeneration⟩ := hcurrent
      refine ⟨rfl, ⟨hstarted, hfine.refreshed (by rw [hf]; rfl)⟩, ⟨rfl, rfl, rfl, rfl⟩,
        fun hn => hn.answered _, f, hf, htoken, hgeneration⟩
    unfold Client.toggleAnswered
    split
    · exact acts_toggleStopped h toggle hm rfl
    · exact acts_toggleStopFailed h toggle hm rfl _
    · exact acts_toggleStarted h toggle hm rfl
    rw [if_pos hm.current]
    exact acts_refreshFailed (hm.mayClear h rfl) _
  · have hstale : s.tr.refreshCurrent toggle.refresh = false := by simpa using hcurrent
    obtain ⟨hcore, hfooting⟩ : (s.toggleAnswered env toggle error).core = s.core ∧ _ :=
      toggleAnswered_stale toggle error hstale
    have hkeeps : s.tr.Keeps { s.tr with
        toggles := s.tr.toggles.filter (fun x => x.number ≠ toggle.number) } := by
      refine ⟨rfl, id, fun hf => ⟨hf.subscribed, hf.received, hf.refreshed⟩,
        fun hn => hn.answered _, fun ht f hf => ?_⟩
      have hf : s.tr.notifyRefresh = some f := hf
      obtain ⟨hgeneration, x, hx, hrefresh, hxgeneration⟩ := ht f hf
      refine ⟨hgeneration, x, ?_, hrefresh, hxgeneration⟩
      -- were it the toggle of the re-enable, the re-enable would be current
      refine List.mem_filter.mpr ⟨hx, decide_eq_true (fun hnumber => hcurrent ?_)⟩
      have hsame : x = toggle := List.inj_on_of_nodup_map hnumbered.nodup hx htoggle hnumber
      have hstarted := (hfine.subscribed (hfine.refreshed (by rw [hf]; rfl))).1
      simp [Transport.refreshCurrent, hstarted, hf, ← hsame, hrefresh, hgeneration]
    have hmoved := h.tail (.transport _ (hkeeps.trans (Transport.keeps_of_footing hfooting)))
    rw [← hcore] at hmoved
    exact hmoved

/-! ## Timeouts -/

theorem Core.finishActive_timer (c : Core) (requestTimer : Bool) :
    ({ c with requestTimer } : Core).finishActive = c.finishActive := by
  unfold Core.finishActive
  dsimp only
  split <;> rfl

theorem acts_refreshNotifications (h : Acts env fresh s₀ s) (hdue : s.core.requestTimer = true)
    (hs : (s.onCore fun c => { c with requestTimer := false }).refreshNotifications env = some s') :
    Acts env fresh s₀ s' := by
  have hended := acts_endSession (h.tail (.finished (fun _ _ => .inr hdue)))
  unfold Client.refreshNotifications at hs
  split at hs
  · split at hs
    · cases hs
    rename_i nsPath dsPath _ _ hready
    cases hs
    have hon : s.tr.started = true ∧ s.tr.notifyStarted = true := by
      simp only [Bool.or_eq_true, not_or, Bool.not_eq_true, Bool.not_eq_false'] at hready
      exact ⟨hready.1.1.1.1.1.1, hready.1.1.1.1.1.2⟩
    refine acts_refreshNext hended _ ⟨rfl, hon, ⟨rfl, rfl, rfl, rfl⟩, ?_, ⟨_, rfl, rfl, rfl⟩⟩ ?_ rfl
    · exact fun hn => ⟨hn.counted.below, hn.counted.nodup⟩
    · show ({ s.core with requestTimer := false } : Core).finishActive.endSession
        = s.core.finishActive.endSession
      rw [Core.finishActive_timer]
  · cases hs

theorem acts_requestTimedOut (h : Acts env fresh s₀ s) (hdue : s.core.requestTimer = true) :
    Acts env fresh s₀ (s.requestTimedOut env) := by
  have hfinished := h.tail (.finished (fun _ _ => .inr hdue))
  unfold Client.requestTimedOut
  dsimp only
  split
  · rename_i hnone
    have hcore : s.core.finishActive = { s.core with requestTimer := false } :=
      Core.finishActive_none hnone
    have hfinished : Acts env fresh s₀ ⟨s.tr, s.core.finishActive⟩ := hfinished
    rw [hcore] at hfinished
    exact acts_pump hfinished
  rename_i r hr
  split
  · split
    · rename_i s₁ hs
      exact acts_refreshNotifications h hdue hs
    · exact acts_escalateUnresponsiveTransport (fun tr htr => h.tail (.cleared tr false htr))
  · exact acts_pump (acts_abandonTimedOut hr hfinished)

/-! ## Notification Source -/

theorem acts_arrive (h : Acts env fresh s₀ s) (n : Notification) :
    Acts env fresh s₀ (s.onCore (Client.arrive n)) := by
  have hreported : Acts env fresh s₀ (s.onCore (Client.reportCallActivity n)) := by
    unfold Client.onCore Client.reportCallActivity
    split
    · split
      · exact h
      · exact acts_noted h _ rfl
    · split
      · exact acts_noted h _ rfl
      · exact h
  have hcounted := acts_book hreported (fun c => { c with serials := c.serials + 1 }) rfl
  exact acts_forgetActionable
    (acts_noted hcounted (.arrived n.id (Client.reportCallActivity n s.core).serials) rfl) n.id

theorem acts_replay (h : Acts env fresh s₀ s) : Acts env fresh s₀ (s.onCore Client.replay) := by
  unfold Client.onCore Client.replay
  dsimp only
  split
  · split
    · exact acts_endSession h
    · exact h
  have hreset := acts_resetActions h
  split
  · exact acts_endSession hreset
  · exact hreset

theorem acts_onNsChanged (h : Acts env fresh s₀ s) (hs : s.tr.notifyStarted = true) (data : Bytes) :
    Acts env fresh s₀ (s.onNsChanged env data) := by
  unfold Client.onNsChanged
  split
  · exact h
  rename_i n _
  have harrived := acts_arrive h n
  split
  · exact acts_noted (acts_discard harrived (some n.id)) (.called (.removed n.id)) rfl
  split
  · exact acts_replay harrived
  have hcounted := fun categories => acts_book harrived
    (fun c => { c with liveEventsSeen := true, categories }) rfl
  exact acts_enqueue (acts_newRid (hcounted _)) (new_probeRequest _ _) false hs

/-! ## Data Source -/

theorem acts_requestAppName (h : Acts env fresh s₀ s) (hs : s.tr.notifyStarted = true)
    (appId : Str) : Acts env fresh s₀ (s.requestAppName env appId).1 := by
  unfold Client.requestAppName
  split
  · exact h
  have hrid := acts_newRid h
  have hasked := acts_book hrid
    (fun c => { c with appLookupRequested := appId :: c.appLookupRequested }) rfl
  have hqueued := acts_enqueue hasked (new_appNameRequest s.newRid.2 appId) false hs
  dsimp only
  split
  · exact hqueued
  · exact hrid

theorem acts_handleNotificationAttrs (h : Acts env fresh s₀ s) (hs : s.tr.notifyStarted = true)
    (w : Waiting) : Acts env fresh s₀ (s.handleNotificationAttrs env w) := by
  unfold Client.handleNotificationAttrs
  dsimp only
  split
  · exact acts_emit h w _
  split
  · rename_i appName _
    exact acts_emit (acts_book h (fun c => { c with
      appNameCache := c.appNameCache.filter (fun p => p.1 ≠ w.attrs.appId)
        ++ [(w.attrs.appId, appName)] }) rfl) w appName
  split
  · exact acts_emit h w _
  have hwaits := acts_book h (Client.addWaiting w.attrs.appId w) rfl
  have hnamed := acts_requestAppName hwaits hs w.attrs.appId
  split
  · exact hnamed
  · exact acts_emit (acts_book hnamed (Client.removeWaiting w.attrs.appId w) rfl) w _

theorem acts_handleProbe (h : Acts env fresh s₀ s) (hs : s.tr.notifyStarted = true) (a : Arrival)
    (appId : Str) : Acts env fresh s₀ (s.handleProbe env a appId) := by
  have hprobed := acts_noted h (.probed a.notification.id appId env.includeNonMessageNotifications
    (env.includeAppNotification appId) env.notificationActions) rfl
  unfold Client.handleProbe
  dsimp only
  split
  · exact acts_enqueue (acts_newRid hprobed) (new_fullRequest _ _ _) false hs
  split
  · have hobserved := fun observedAppIds => acts_book hprobed
      (fun c => { c with observedAppIds }) rfl
    split
    · exact acts_enqueue (acts_newRid (hobserved _)) (new_fullRequest _ _ _) false hs
    · exact hobserved _
  · exact hprobed

theorem acts_handleNotificationResponse (hactive : s.core.active = some r)
    (h : Acts env fresh s₀ (s.onCore (·.finishActive))) (hs : s.tr.notifyStarted = true)
    (body : Bytes) :
    Acts env fresh s₀ ((s.onCore (·.finishActive)).handleNotificationResponse env r body) := by
  have habandoned := acts_pump (acts_abandonFinished hactive h)
  unfold Client.handleNotificationResponse
  split
  · exact acts_pump h
  split
  · split
    · exact habandoned
    split
    · exact acts_pump h
    · exact acts_pump (acts_handleProbe h hs _ _)
  split
  · exact habandoned
  split
  · exact acts_pump h
  · exact acts_pump (acts_handleNotificationAttrs h hs _)

theorem acts_handleAppAttrs (h : Acts env fresh s₀ s) (app : AppAttributes) :
    Acts env fresh s₀ (s.onCore (·.handleAppAttrs env app)) := by
  have hflushed := fun appNameCache => acts_flushWaiting
    (acts_book h (fun c => { c with appNameCache }) rfl) app.appId (app.appName.take 256)
  unfold Client.onCore at hflushed ⊢
  dsimp only at hflushed ⊢
  exact hflushed _

theorem acts_onDsChanged (h : Acts env fresh s₀ s) (hs : s.tr.notifyStarted = true) (data : Bytes) :
    Acts env fresh s₀ (s.onDsChanged env data) := by
  unfold Client.onDsChanged
  split
  · exact h
  rename_i r hactive
  split
  · exact h
  rename_i assembler hassembler
  have hfinished := h.tail (.finished (fun r' hr' => by
    rw [hactive] at hr'
    cases hr'
    exact .inl (by rw [hassembler]; rfl)))
  have habandoned := acts_pump (acts_abandonFinished hactive hfinished)
  split
  · exact habandoned
  · rename_i assembler' _
    exact h.tail (.fed r assembler assembler' hactive hassembler)
  unfold Client.handleResponse
  split
  · exact acts_pump hfinished
  split
  · exact habandoned
  split
  · exact acts_handleNotificationResponse hactive hfinished hs _
  split
  · split
    · exact habandoned
    rename_i app _
    refine acts_pump (acts_handleAppAttrs ?_ app)
    exact acts_ite (unmoved_acts.markAuthorized hfinished) hfinished
  · exact acts_pump hfinished

/-! ## The whole step -/

/-- A call is taken or refused, and then the queue may be pumped. -/
theorem acts_performNotificationAction (uid : Nat) (positive : Bool) (token call : Nat) :
    ∃ s₁, Taken token call s s₁
      ∧ Acts env fresh s₁ (s.performNotificationAction env uid positive token call) := by
  have hrefused : ∀ result, result ≠ ActionResult.sent →
      ∃ s₁, Taken token call s s₁ ∧ Acts env fresh s₁ (s.note (.called (.actionResult call result))) :=
    fun result hresult => ⟨_, .refused result hresult, .refl⟩
  unfold Client.performNotificationAction
  dsimp only
  split
  · exact hrefused _ (by decide)
  rename_i entry hentry
  split at hentry
  · by_cases htoken : entry.token ≠ token
        ∨ (if positive = true then entry.positive else entry.negative) = false
    · rw [if_pos htoken]
      exact hrefused _ (by decide)
    rw [if_neg htoken]
    have htoken : entry.token = token := by
      by_contra hne
      exact htoken (.inl hne)
    split
    · exact hrefused _ (by decide)
    rename_i hconnected
    have hs : s.tr.notifyStarted = true := by
      by_contra hoff
      exact hconnected (by simp [Transport.connected, hoff])
    split
    · exact hrefused _ (by decide)
    rename_i hbusy
    have hfree : entry.inFlight = false := by
      by_contra hflight
      exact hbusy (by simp [hflight])
    split
    · exact hrefused _ (by decide)
    rename_i c hc
    refine ⟨_, .queued s.core.nextRid (s.core.nextRid + 1)
      { uid, positive, call, token, serial := entry.serial } entry c hentry ⟨rfl, rfl⟩
      ⟨htoken, hfree⟩ hs hc, acts_pump .refl⟩
  · cases hentry

end

/-- The write that a reply names, and the others. -/
theorem perm_of_find? {writes : List Write} {token : Nat} {w : Write}
    (hnodup : (writes.map (·.token)).Nodup)
    (h : writes.find? (fun w => w.token == token) = some w) :
    writes.Perm (w :: writes.filter (fun x => x.token ≠ token)) := by
  induction writes with
  | nil => cases h
  | cons x writes ih =>
    rw [List.map_cons, List.nodup_cons] at hnodup
    by_cases hx : x.token = token
    · have hw : x = w := by simpa [List.find?_cons, hx] using h
      have hrest : writes.filter (fun x => x.token ≠ token) = writes := by
        refine List.filter_eq_self.mpr (fun y hy => decide_eq_true (fun hy' => hnodup.1 ?_))
        rw [hx, ← hy']
        exact List.mem_map_of_mem hy
      rw [List.filter_cons_of_neg (by simp [hx]), hrest, hw]
    have hw : writes.find? (fun w => w.token == token) = some w := by
      simpa [List.find?_cons, hx] using h
    rw [List.filter_cons_of_pos (by simp [hx])]
    exact ((ih hnodup.2 hw).cons x).trans (List.Perm.swap _ _ _)

/-- **Every step is a sequence of acts**; a call is taken or refused first. -/
theorem acts_step (fresh : Client → Prop) (s : Client) (input : Env × Input) (hfine : s.tr.Fine)
    (hnumbered : s.tr.Numbered) (htokens : (s.core.writes.map (·.token)).Nodup)
    (hfresh : ∀ newOwner, input.2 = .owner false newOwner → fresh s) :
    Acts input.1 fresh s (s.step input)
      ∨ ∃ uid positive token call s₁, input.2 = .perform uid positive token call
        ∧ Taken token call s s₁ ∧ Acts input.1 fresh s₁ (s.step input) := by
  obtain ⟨env, i⟩ := input
  have h : Acts env fresh s s := .refl
  have hsubscribed : s.tr.receiversCurrent = true → s.tr.notifyStarted = true := by
    intro hcurrent
    simp only [Transport.receiversCurrent, Bool.and_eq_true, beq_iff_eq] at hcurrent
    exact hfine.received (by rw [hcurrent.2]; rfl)
  cases i with
  | perform uid positive token call =>
    obtain ⟨s₁, htaken, hacts⟩ := acts_performNotificationAction uid positive token call
    exact .inr ⟨uid, positive, token, call, s₁, rfl, htaken, hacts⟩
  | start => exact .inl (walk_acts.start h)
  | stop => exact .inl (walk_acts.stop h)
  | owner oldOwner newOwner =>
    refine .inl (acts_observeBluezOwner h oldOwner newOwner (fun hold => ?_))
    subst hold
    exact hfresh newOwner rfl
  | bearer connected legacyConnected =>
    exact .inl (walk_acts.observeBearerState h connected legacyConnected)
  | ifaceAdded path kind => exact .inl (acts_ite (walk_acts.onIfaceAdded h path kind) h)
  | ifaceRemoved path => exact .inl (acts_ite (walk_acts.onIfaceRemoved h path) h)
  | ns data =>
    left
    show Acts env fresh s (if s.tr.receiversCurrent then s.onNsChanged env data else s)
    split
    · rename_i hcurrent
      exact acts_onNsChanged h (hsubscribed hcurrent) data
    · exact h
  | ds data =>
    left
    show Acts env fresh s (if s.tr.receiversCurrent then s.onDsChanged env data else s)
    split
    · rename_i hcurrent
      exact acts_onDsChanged h (hsubscribed hcurrent) data
    · exact h
  | writeReply token =>
    left
    show Acts env fresh s (s.answerWrite token (fun w s => s.written env w))
    unfold Client.answerWrite
    split
    · exact h
    · exact acts_written h (perm_of_find? htokens ‹_›)
  | writeError token e =>
    left
    show Acts env fresh s (s.answerWrite token (fun w s => s.writeFailed env e w))
    unfold Client.answerWrite
    split
    · exact h
    have hfailed := acts_failed h (perm_of_find? htokens ‹_›) e
    exact acts_ite (acts_pump hfailed) hfailed
  | toggleReply number error =>
    left
    simp only [Client.step]
    split
    · exact h
    · exact acts_toggleAnswered h hfine hnumbered (List.mem_of_find?_eq_some ‹_›) error
  | requestTimeout =>
    left
    show Acts env fresh s (if s.core.requestTimer then s.requestTimedOut env else s)
    split
    · rename_i hdue
      exact acts_requestTimedOut h hdue
    · exact h
  | busyRetry =>
    exact .inl (acts_ite (acts_pump (acts_book h (fun c => { c with busyRetry := false }) rfl)) h)
  | managerRetry => exact .inl (acts_ite (walk_acts.retryManagerBind h) h)
  | subscribeRetry => exact .inl (acts_ite (walk_acts.retrySubscribe h) h)
  | authorizationRetry => exact .inl (acts_ite (walk_acts.retryAuthorization h) h)
  | bearerSettle => exact .inl (acts_ite (walk_acts.finishBearerSettle h) h)
  | transportReset => exact .inl (acts_ite (walk_acts.requestTransportReset h) h)
  | legacyHealth => exact .inl (acts_ite (walk_acts.checkLegacyHealth h) h)
  | actionsChanged => exact .inl (acts_ite h (acts_resetActions h))
  | probeHealth => exact .inl (walk_acts.probeHealth h)

end BlueFerry.Ancs
