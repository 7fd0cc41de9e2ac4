import BlueFerry.Ancs.Client

/-! # The handlers of the transport

Most handlers are about paths, timers and the bearer. All that they do to the requests is to give up
a subscription, to start one or to queue a probe. A condition on the client that survives these
(`Walk`) survives the handlers, which are taken apart here once for every such condition.
-/

namespace BlueFerry.Ancs

open BlueFerry.Text

namespace Transport

section

variable (t : Transport)

/-- What the requests depend on. -/
def footing :=
  (t.started, t.ownerGeneration, t.notifyStarted, t.cpPath.isSome, t.receivers, t.notifyRefresh,
    t.toggles, t.nextToggle)

/-- What a subscription leaves open when it is given up. -/
def bonds :=
  (t.ownerGeneration, t.notifyStarted, t.receivers, t.notifyRefresh, t.toggles, t.nextToggle)

@[simp] theorem scheduleAuthorizationRetry_footing :
    t.scheduleAuthorizationRetry.footing = t.footing := by
  unfold scheduleAuthorizationRetry
  split <;> rfl

@[simp] theorem scheduleSubscribeRetry_footing : t.scheduleSubscribeRetry.footing = t.footing := by
  unfold scheduleSubscribeRetry
  split <;> rfl

@[simp] theorem scheduleTransportReset_footing (env : Env) (t : Transport) :
    (t.scheduleTransportReset env).footing = t.footing := by
  unfold scheduleTransportReset
  split <;> rfl

@[simp] theorem scheduleBearerSettle_footing : t.scheduleBearerSettle.footing = t.footing := by
  unfold scheduleBearerSettle
  split <;> rfl

@[simp] theorem scheduleManagerRetry_footing : t.scheduleManagerRetry.footing = t.footing := by
  unfold scheduleManagerRetry
  split <;> rfl

@[simp] theorem scheduleLegacyHealth_footing : t.scheduleLegacyHealth.footing = t.footing := by
  unfold scheduleLegacyHealth
  split <;> rfl

end

theorem notifyRefresh_of_footing {t t' : Transport} (h : t'.footing = t.footing) :
    t'.notifyRefresh = t.notifyRefresh := by
  simp only [footing, Prod.mk.injEq] at h
  exact h.2.2.2.2.2.1

theorem notifyRefresh_of_bonds {t t' : Transport} (h : t'.bonds = t.bonds) :
    t'.notifyRefresh = t.notifyRefresh := by
  simp only [bonds, Prod.mk.injEq] at h
  exact h.2.2.2.1

/-- A characteristic is found. -/
def withPath (path : Path) (kind : Characteristic) (t : Transport) : Transport :=
  match kind with
  | .notificationSource => { t with nsPath := some path }
  | .dataSource => { t with dsPath := some path }
  | .controlPoint => { t with cpPath := some path }

end Transport

/-- The entry tells a caller the result of an action. -/
def Entry.isResult : Entry → Bool
  | .called (.actionResult _ _) => true
  | _ => false

/-- The condition `P` survives what no request notices. -/
structure Unmoved (P : Client → Prop) : Prop where
  quiet : ∀ {s : Client}, P s → ∀ f : Transport → Transport, (f s.tr).footing = s.tr.footing →
    P (s.onTransport f)
  told : ∀ {s : Client}, P s → ∀ callback : Callback, (Entry.called callback).isResult = false →
    P (s.note (.called callback))

/-- The condition `P` survives what the handlers of the transport are made of. -/
structure Walk (env : Env) (P : Client → Prop) : Prop extends Unmoved P where
  found : ∀ {s : Client}, P s → ∀ (path : Path) (kind : Characteristic),
    P (s.onTransport (·.withPath path kind))
  starting : ∀ {s : Client}, P s →
    P (s.onTransport fun t => { t with ownerAvailable := true, started := true })
  startFailed : ∀ {s : Client}, P s → s.tr.started = false → P (s.onTransport fun t =>
    { t with ownerAvailable := true, started := false, managerWatched := false })
  subscribing : ∀ {s : Client}, P s → s.tr.started = true → s.tr.cpPath.isSome = true →
    P ((s.onTransport fun t => { t with
      subscribeRetry := false, notifyStarted := true
      receivers := some (t.ownerGeneration, t.subscriptionGeneration) }).onCore
        fun c => c.resetActions.endSession)
  failed : ∀ {s : Client}, P s → P (s.markTransportFailed env)
  probed : ∀ {s : Client}, P s → ∀ force : Bool, P (s.queueAuthorizationProbe env force)
  /-- the subscription is given up; paths, timers and flags change before and afterwards -/
  cleared : ∀ {s : Client}, P s → ∀ (f g : Transport → Transport) (stop : Bool),
    (f s.tr).bonds = s.tr.bonds → (∀ t, (g t).bonds = t.bonds) →
    P (((s.onTransport f).clearSubscription env stop).onTransport g)

theorem ite_of {P : Client → Prop} {p : Prop} [Decidable p] {t u : Client} (ht : P t) (hu : P u) :
    P (if p then t else u) := by
  split
  · exact ht
  · exact hu

theorem startNotify_eq {env : Env} {s s' : Client} {path : Path}
    (hs : s.startNotify env path = .ok s') : s'.core = s.core ∧ s'.tr.footing = s.tr.footing := by
  unfold Client.startNotify at hs
  split at hs
  · split at hs
    · cases hs
    cases hs
    exact ⟨rfl, rfl⟩
  · cases hs
    exact ⟨rfl, rfl⟩

namespace Unmoved

variable {P : Client → Prop} {s : Client}

theorem status (U : Unmoved P) (h : P s) : P s.status := U.told h _ rfl

theorem statusIf (U : Unmoved P) (h : P s) (b : Bool) : P (if b then s.status else s) :=
  ite_of (U.status h) h

theorem observePermissionError (U : Unmoved P) (h : P s) (e : DBusError) :
    P (s.observePermissionError e) := by
  unfold Client.observePermissionError
  split
  · exact U.quiet (U.statusIf (U.quiet h _ rfl) _) _ (by simp)
  · exact h

theorem markAuthorized (U : Unmoved P) (h : P s) : P s.markAuthorized := by
  have hallowed := U.quiet h (fun t =>
    ({ t with permissionDenied := false } : Transport).scheduleLegacyHealth)
      (Transport.scheduleLegacyHealth_footing _)
  exact ite_of hallowed (U.status (U.quiet hallowed _ rfl))

end Unmoved

namespace Walk

variable {env : Env} {P : Client → Prop} {s s' : Client}

section

variable (W : Walk env P)
include W

theorem probeHealth (h : P s) : P (s.probeHealth env) := ite_of (W.probed h true) h

theorem subscribeFailed (h : P s) (e : DBusError) : P (s.subscribeFailed env e) := by
  have hobserved := W.observePermissionError h e
  unfold Client.subscribeFailed
  split
  · exact W.failed hobserved
  · exact W.quiet hobserved _ (by simp)

theorem startNotify (h : P s) (path : Path) (hs : s.startNotify env path = .ok s') : P s' := by
  obtain ⟨hcore, hfooting⟩ := startNotify_eq hs
  have hmoved := W.quiet h (fun _ => s'.tr) hfooting
  unfold Client.onTransport at hmoved
  rw [← hcore] at hmoved
  exact hmoved

theorem trySubscribe (h : P s) : P (s.trySubscribe env) := by
  unfold Client.trySubscribe
  split
  · exact h
  rename_i hready
  have hstarted : s.tr.started = true := by
    by_contra hnot
    exact hready (by simp [hnot])
  split
  · rename_i nsPath dsPath cpPath hns hds hcp
    split
    · exact W.subscribeFailed h _
    rename_i s₁ hs₁
    have h₁ := W.startNotify h _ hs₁
    split
    · exact W.subscribeFailed h₁ _
    rename_i s₂ hs₂
    have hfooting := (startNotify_eq hs₂).2.trans (startNotify_eq hs₁).2
    simp only [Transport.footing, Prod.mk.injEq] at hfooting
    refine W.probed (W.subscribing (W.startNotify h₁ _ hs₂) ?_ ?_) false
    · rw [hfooting.1, hstarted]
    · rw [hfooting.2.2.2.1, hcp]
      rfl
  · exact h

theorem onIfaceAdded (h : P s) (path : Path) (kind : Characteristic) :
    P (s.onIfaceAdded env path kind) := by
  have hadded := W.found h path kind
  exact ite_of (W.quiet hadded _ (by simp)) (W.trySubscribe hadded)

theorem onIfaceRemoved (h : P s) (path : Path) : P (s.onIfaceRemoved env path) := by
  unfold Client.onIfaceRemoved
  dsimp only
  split
  · exact h
  rename_i forget hforget
  refine W.statusIf (W.cleared h _ _ false ?_ ?_) _
  · split at hforget
    · cases hforget
      rfl
    split at hforget
    · cases hforget
      rfl
    split at hforget
    · cases hforget
      rfl
    · cases hforget
  · exact fun _ => rfl

theorem bindManagerAndRescan (h : P s) : P (s.bindManagerAndRescan env).1 := by
  unfold Client.bindManagerAndRescan
  split
  · split
    · exact W.quiet h (fun t => { t with managerWatched := false }) rfl
    rename_i objects _
    have hall : ∀ (os : List (Path × Characteristic)) {s : Client}, P s →
        P (os.foldl (fun s o => s.onIfaceAdded env o.1 o.2) s) := by
      intro os
      induction os with
      | nil => exact fun h => h
      | cons o os ih => exact fun h => ih (W.onIfaceAdded h o.1 o.2)
    exact hall objects (W.quiet h _ rfl)
  · exact h

theorem start (h : P s) : P (s.start env) := by
  unfold Client.start
  split
  · exact h
  rename_i hstopped
  have hstopped : s.tr.started = false := by simpa using hstopped
  have hbound := W.bindManagerAndRescan (W.starting h)
  dsimp only
  split
  · -- the discovery failed before anything was subscribed
    rename_i hfailed
    unfold Client.bindManagerAndRescan at hfailed ⊢
    split at hfailed
    · rename_i hready
      rw [if_pos hready]
      split at hfailed
      · have hstartFailed := W.startFailed h hstopped
        exact hstartFailed
      · cases hfailed
    · cases hfailed
  · split
    · exact W.quiet hbound _ (by simp)
    · exact hbound

theorem rebuildDiscovery (h : P s) : P (s.rebuildDiscovery env) := by
  have hbound := W.bindManagerAndRescan h
  unfold Client.rebuildDiscovery
  dsimp only
  split
  · exact hbound
  · exact W.quiet hbound _ (by simp)

theorem retrySubscribe (h : P s) : P (s.retrySubscribe env) := by
  have hcleared := W.quiet h (fun t => { t with subscribeRetry := false }) rfl
  refine ite_of (W.trySubscribe (ite_of ?_ hcleared)) hcleared
  exact W.quiet hcleared _ rfl

theorem finishBearerSettle (h : P s) : P (s.finishBearerSettle env) := by
  have hsettled := W.quiet h (fun t => { t with bearerSettle := false }) rfl
  refine ite_of hsettled (W.trySubscribe ?_)
  exact W.quiet hsettled _ rfl

theorem retryManagerBind (h : P s) : P (s.retryManagerBind env) := by
  have hcleared := W.quiet h (fun t => { t with managerRetry := false }) rfl
  exact ite_of (W.rebuildDiscovery hcleared) hcleared

theorem legacyChanged (h : P s) (legacyConnected : Bool) :
    P (s.legacyChanged env legacyConnected) :=
  W.statusIf (W.cleared h (fun t => { t with
      legacyConnected, subscribeRetry := false, bearerSettle := false, transportReset := false })
    (fun t => { t with bearerReady := false, transportBlocked := false }) false rfl (fun _ => rfl)) _

theorem legacyTransportHint (h : P s) : P (s.legacyTransportHint env) := by
  refine ite_of h (ite_of (W.probeHealth h) (ite_of ?_ h))
  exact W.quiet h _ (Transport.scheduleSubscribeRetry_footing _)

theorem bearerLost (h : P s) : P (s.bearerLost env) := by
  have hlost := W.quiet h (fun t => { t with
    notifyRefreshes := 0, transportBlocked := false, bearerReady := false, bearerSettle := false
    transportReset := false }) rfl
  refine ite_of (W.status ?_) (W.quiet hlost _ rfl)
  exact W.cleared hlost (fun t => { t with subscribeRetry := false }) id false rfl (fun _ => rfl)

theorem observeLeBearer (h : P s) (connected : Option Bool) :
    P (s.observeLeBearer env connected) := by
  unfold Client.observeLeBearer
  split
  · exact W.quiet h (fun t =>
      { t with bearerConnected := none, bearerReady := false, bearerSettle := false }) rfl
  · exact W.bearerLost (W.quiet h (fun t => { t with bearerConnected := some false }) rfl)
  have hup := W.quiet h (fun t => { t with bearerConnected := some true }) rfl
  refine ite_of hup (ite_of ?_ (ite_of ?_ hup)) <;> exact W.quiet hup _ (by simp)

theorem observeBearerState (h : P s) (connected : Option Bool) (legacyConnected : Bool) :
    P (s.observeBearerState env connected legacyConnected) := by
  have hchanged := W.legacyChanged h legacyConnected
  have hlegacy := W.quiet hchanged (fun t => { t with bearerConnected := none }) rfl
  refine ite_of (ite_of (ite_of ?_ hlegacy) (ite_of ?_ ?_)) (ite_of ?_ ?_)
  · exact W.quiet hlegacy _ (by simp)
  · exact W.quiet hchanged _ rfl
  · exact W.observeLeBearer hchanged connected
  · exact W.legacyTransportHint (W.quiet h (fun t => { t with bearerConnected := none }) rfl)
  · exact W.observeLeBearer h connected

theorem requestTransportReset (h : P s) : P (s.requestTransportReset env) := by
  have hcleared := W.quiet h (fun t => { t with transportReset := false }) rfl
  exact ite_of (W.told hcleared _ rfl) hcleared

theorem stop (h : P s) : P (s.stop env) :=
  W.statusIf (W.cleared h (fun t => { t with
      started := false, ownerAvailable := false, managerRetry := false, subscribeRetry := false
      authorizationRetry := false, bearerSettle := false, transportReset := false })
    (fun t => { t with
      ownedNotifyPaths := [], managerWatched := false, nsPath := none, dsPath := none
      cpPath := none }) _ rfl (fun _ => rfl)) _

theorem retryAuthorization (h : P s) : P (s.retryAuthorization env) :=
  W.probed
    (W.quiet h (fun t => { t with authorizationRetry := false }) rfl) false

theorem checkLegacyHealth (h : P s) : P (s.checkLegacyHealth env) := by
  have hcleared := W.quiet h (fun t => { t with legacyHealth := false }) rfl
  have hprobed := W.probeHealth hcleared
  exact ite_of (ite_of (W.quiet hprobed _ (by simp)) hprobed) hcleared

end

end Walk

end BlueFerry.Ancs
