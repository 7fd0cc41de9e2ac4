import BlueFerry.Ancs.Moves

/-! # What the operations do

For each operation of the queue, what is left of the requests, the waiting notifications and the
offers, and what the log gains. The invariants are proved from these facts and do not look into the
operations again.
-/

namespace BlueFerry.Ancs

open BlueFerry.Text

/-- The entry records a callback. -/
def Entry.isCall : Entry → Bool
  | .called _ => true
  | _ => false

namespace Core

/-- The request is queued or active. -/
def Holds (c : Core) (r : PendingRequest) : Prop := r ∈ c.queue ∨ c.active = some r

/-- Requests and waiting notifications may be gone, none is new, and the log gained `new`. -/
structure Shrinks (c c' : Core) (new : List Entry) : Prop where
  queue : c'.queue ⊆ c.queue
  active : ∀ r, c'.active = some r → c.active = some r
  waiting : ∀ w, c'.IsWaiting w → c.IsWaiting w
  log : c'.log = new ++ c.log

theorem Shrinks.refl (c : Core) : c.Shrinks c [] :=
  ⟨List.Subset.refl _, fun _ h => h, fun _ h => h, rfl⟩

variable {new : List Entry} {c c' : Core} {r : PendingRequest}

theorem Shrinks.trans {c₁ c₂ c₃ : Core} {new' : List Entry} (h : c₁.Shrinks c₂ new)
    (h' : c₂.Shrinks c₃ new') : c₁.Shrinks c₃ (new' ++ new) :=
  ⟨fun _ hr => h.queue (h'.queue hr), fun r hr => h.active r (h'.active r hr),
    fun w hw => h.waiting w (h'.waiting w hw), by rw [h'.log, h.log, List.append_assoc]⟩

theorem Shrinks.note (h : c.Shrinks c' new) (e : Entry) : c.Shrinks (c'.note e) (e :: new) :=
  { h with log := by rw [Core.note, h.log]; rfl }

theorem Shrinks.holds (h : c.Shrinks c' new) (hr : c'.Holds r) : c.Holds r := by
  rcases hr with hr | hr
  · exact Or.inl (h.queue hr)
  · exact Or.inr (h.active r hr)

/-! ## Actions -/

theorem foldl_reportAction (actions : List ActionRequest) (result : ActionResult) (c : Core) :
    ∃ calls, (∀ e ∈ calls, e.isCall = true)
      ∧ actions.foldl (fun c a => c.reportAction a result) c = { c with log := calls ++ c.log } := by
  induction actions generalizing c with
  | nil => exact ⟨[], by simp, rfl⟩
  | cons a actions ih =>
    obtain ⟨calls, hcalls, heq⟩ := ih (c.reportAction a result)
    refine ⟨calls ++ [.called (.actionResult a.call result)], ?_, ?_⟩
    · intro e he
      rcases List.mem_append.mp he with he | he
      · exact hcalls e he
      rw [List.mem_singleton.mp he]
      rfl
    · rw [List.foldl_cons, heq]
      simp [reportAction, note]

/-- Queued actions are dropped and their callers told. -/
theorem dropQueuedActions_eq (c : Core) (p : ActionRequest → Bool) (result : ActionResult) :
    ∃ calls, (∀ e ∈ calls, e.isCall = true)
      ∧ c.dropQueuedActions p result
        = { c.removeIf (isAction p) with log := calls ++ c.log } := by
  obtain ⟨calls, hcalls, heq⟩ := foldl_reportAction
    ((c.queue.filter (isAction p)).filterMap (·.action)) result (c.removeIf (isAction p))
  exact ⟨calls, hcalls, heq⟩

theorem forgetActionable_eq (c : Core) (uid : Nat) :
    ∃ calls, (∀ e ∈ calls, e.isCall = true)
      ∧ c.forgetActionable uid
        = { c.removeIf (isAction (fun a => a.uid == uid)) with
            actionable := c.actionable.filter (fun e => e.uid ≠ uid), log := calls ++ c.log } := by
  obtain ⟨calls, hcalls, heq⟩ := c.dropQueuedActions_eq (fun a => a.uid == uid) .unavailable
  unfold forgetActionable
  dsimp only
  rw [heq]
  split
  · refine ⟨.called (.notificationRemoved uid) :: calls, ?_, rfl⟩
    intro e he
    rcases List.mem_cons.mp he with rfl | he
    · rfl
    · exact hcalls e he
  · exact ⟨calls, hcalls, rfl⟩

theorem resetActions_eq (c : Core) :
    ∃ after before, (∀ e ∈ after, e.isCall = true) ∧ (∀ e ∈ before, e.isCall = true)
      ∧ c.resetActions = { c.removeIf (isAction (fun _ => true)) with
          actionable := [], log := after ++ .actionsReset :: (before ++ c.log) } := by
  obtain ⟨calls, hcalls, heq⟩ := ({ c with actionable := [] } : Core).dropQueuedActions_eq
    (fun _ => true) .unavailable
  unfold resetActions
  dsimp only
  rw [heq]
  split
  · refine ⟨[.called .actionsReset], calls, ?_, hcalls, rfl⟩
    intro e he
    rw [List.mem_singleton.mp he]
    rfl
  · exact ⟨[], calls, by simp, hcalls, rfl⟩

theorem mem_removeIf {p : PendingRequest → Bool}
    (h : r ∈ (c.removeIf p).queue) : r ∈ c.queue ∧ p r = false := by
  simpa [removeIf] using h

/-- No action is left, and the log says that they were reset. -/
theorem resetActions_shrinks (c : Core) :
    ∃ after before, (∀ e ∈ after, e.isCall = true) ∧ (∀ e ∈ before, e.isCall = true)
      ∧ c.Shrinks c.resetActions (after ++ .actionsReset :: before) := by
  obtain ⟨after, before, hafter, hbefore, heq⟩ := c.resetActions_eq
  refine ⟨after, before, hafter, hbefore, ?_⟩
  rw [heq]
  exact ⟨fun r hr => (mem_removeIf hr).1, fun r hr => hr, fun w hw => hw, by simp⟩

@[simp] theorem resetActions_actionable (c : Core) : c.resetActions.actionable = [] := by
  obtain ⟨after, before, -, -, heq⟩ := c.resetActions_eq
  rw [heq]

@[simp] theorem resetActions_busyRetry (c : Core) : c.resetActions.busyRetry = c.busyRetry := by
  obtain ⟨after, before, -, -, heq⟩ := c.resetActions_eq
  rw [heq]
  rfl

theorem resetActions_noAction (c : Core) (h : r ∈ c.resetActions.queue) : r.action = none := by
  obtain ⟨after, before, -, -, heq⟩ := c.resetActions_eq
  rw [heq] at h
  have := (mem_removeIf h).2
  cases ha : r.action with
  | none => rfl
  | some a => simp [isAction, ha] at this

/-! ## Arrivals -/

/-- An arrival drops the offer for its notification and the actions queued with it. -/
theorem arrive_eq (n : Notification) (c : Core) :
    ∃ after before, (∀ e ∈ after, e.isCall = true) ∧ (∀ e ∈ before, e.isCall = true)
      ∧ Client.arrive n c = { c.removeIf (isAction (fun a => a.uid == n.id)) with
          serials := c.serials + 1
          actionable := c.actionable.filter (fun e => e.uid ≠ n.id)
          log := after ++ .arrived n.id c.serials :: (before ++ c.log) } := by
  have hreport : ∃ before, (∀ e ∈ before, e.isCall = true)
      ∧ Client.reportCallActivity n c = { c with log := before ++ c.log } := by
    unfold Client.reportCallActivity
    split
    · split
      · exact ⟨[], by simp, rfl⟩
      · exact ⟨[.called (.callActivity true)], by simp [Entry.isCall], rfl⟩
    · split
      · exact ⟨[.called (.callActivity false)], by simp [Entry.isCall], rfl⟩
      · exact ⟨[], by simp, rfl⟩
  obtain ⟨before, hbefore, hreport⟩ := hreport
  unfold Client.arrive
  rw [hreport]
  obtain ⟨after, hafter, heq⟩ := (({ c with
    serials := c.serials + 1, log := before ++ c.log } : Core).note
      (.arrived n.id c.serials)).forgetActionable_eq n.id
  exact ⟨after, before, hafter, hbefore, heq⟩

theorem arrive_shrinks (n : Notification) (c : Core) :
    ∃ after before, (∀ e ∈ after, e.isCall = true) ∧ (∀ e ∈ before, e.isCall = true)
      ∧ c.Shrinks (Client.arrive n c) (after ++ .arrived n.id c.serials :: before) := by
  obtain ⟨after, before, hafter, hbefore, heq⟩ := arrive_eq n c
  refine ⟨after, before, hafter, hbefore, ?_⟩
  rw [heq]
  exact ⟨fun r hr => (mem_removeIf hr).1, fun r hr => hr, fun w hw => hw, by simp⟩

@[simp] theorem arrive_busyRetry (n : Notification) (c : Core) :
    (Client.arrive n c).busyRetry = c.busyRetry := by
  obtain ⟨after, before, -, -, heq⟩ := arrive_eq n c
  rw [heq]
  rfl

/-! ## Finishing and resetting requests -/

section

variable (c : Core)

theorem finishActive_shrinks : c.Shrinks c.finishActive [] := by
  unfold finishActive
  split
  · exact ⟨List.Subset.refl _, fun _ h => h, fun _ h => h, rfl⟩
  · exact ⟨List.Subset.refl _, fun _ h => (by cases h), fun _ h => h, rfl⟩

@[simp] theorem finishActive_active : c.finishActive.active = none := by
  unfold finishActive
  split
  · rename_i h
    exact h
  · rfl

@[simp] theorem finishActive_queue : c.finishActive.queue = c.queue := by
  unfold finishActive
  split <;> rfl

@[simp] theorem finishActive_actionable : c.finishActive.actionable = c.actionable := by
  unfold finishActive
  split <;> rfl

@[simp] theorem finishActive_log : c.finishActive.log = c.log := by
  unfold finishActive
  split <;> rfl

@[simp] theorem finishActive_busyRetry : c.finishActive.busyRetry = c.busyRetry := by
  unfold finishActive
  split <;> rfl

@[simp] theorem finishActive_liveEventsSeen : c.finishActive.liveEventsSeen = c.liveEventsSeen := by
  unfold finishActive
  split <;> rfl

@[simp] theorem finishActive_nextToken : c.finishActive.nextToken = c.nextToken := by
  unfold finishActive
  split <;> rfl

@[simp] theorem resetRequests_queue : c.resetRequests.queue = [] := by
  simp [resetRequests]

@[simp] theorem resetRequests_active : c.resetRequests.active = none := by
  simp [resetRequests]

theorem resetRequests_shrinks :
    ∃ calls, (∀ e ∈ calls, e.isCall = true) ∧ c.Shrinks c.resetRequests calls := by
  obtain ⟨calls, hcalls, heq⟩ := ({ c with busyRetry := false } : Core).dropQueuedActions_eq
    (fun _ => true) .disconnected
  refine ⟨calls, hcalls, by simp, by simp, ?_, ?_⟩
  · rintro w ⟨p, hp, -⟩
    cases hp
  · simp [resetRequests, heq]

theorem resetRequests_offers :
    c.resetRequests.actionable = c.actionable ∧ c.resetRequests.nextToken = c.nextToken
      ∧ c.resetRequests.liveEventsSeen = c.liveEventsSeen := by
  obtain ⟨calls, -, heq⟩ := ({ c with busyRetry := false } : Core).dropQueuedActions_eq
    (fun _ => true) .disconnected
  refine ⟨?_, ?_, ?_⟩ <;> simp [resetRequests, heq, removeIf]

end

/-! ## Discarding -/

/-- The requests made for the notification are gone or, if active, only drained, and so is what
waits for it. -/
structure Discards (uid : Option Nat) (c c' : Core) : Prop where
  queue : ∀ r ∈ c'.queue, r ∈ c.queue ∧ isAbout uid r = false
  active : ∀ r', c'.active = some r' → ∃ r, c.active = some r
    ∧ ((r' = r ∧ (isAbout uid r = false ∨ r.discarded = true))
      ∨ r' = { r with discarded := true, key := .retired r.key })
  waiting : ∀ w, c'.IsWaiting w → c.IsWaiting w ∧ uid.any (· != w.attrs.id) = true
  log : c'.log = .invalidated uid :: c.log

theorem discards_discardNotificationRequests (uid : Option Nat) (c : Core) :
    c.Discards uid (c.discardNotificationRequests uid) := by
  have hqueue : (c.discardNotificationRequests uid).queue = (c.removeIf (isAbout uid)).queue := by
    unfold discardNotificationRequests retireActive
    split
    · rfl
    · split <;> rfl
  have hlog : (c.discardNotificationRequests uid).log = .invalidated uid :: c.log := by
    unfold discardNotificationRequests retireActive
    split
    · rfl
    · split <;> rfl
  have hpending : (c.discardNotificationRequests uid).pendingAppLookups
      = keepWaiting uid c.pendingAppLookups := by
    unfold discardNotificationRequests retireActive
    split
    · rfl
    · split <;> rfl
  refine ⟨fun r hr => mem_removeIf (hqueue ▸ hr), ?_, ?_, hlog⟩
  · intro r' hr'
    have hactive : (c.discardNotificationRequests uid).active
        = ((c.removeIf (isAbout uid)).retireActive uid).active := rfl
    rw [hactive] at hr'
    unfold retireActive at hr'
    split at hr'
    · rename_i hnone
      rw [hnone] at hr'
      cases hr'
    rename_i r hr
    refine ⟨r, hr, ?_⟩
    split at hr'
    · exact Or.inr (Option.some.inj hr').symm
    rename_i hkept
    rw [hr] at hr'
    refine Or.inl ⟨(Option.some.inj hr').symm, ?_⟩
    cases habout : isAbout uid r with
    | false => exact Or.inl rfl
    | true => exact Or.inr (by simpa [habout] using hkept)
  · rintro w ⟨p, hp, hw⟩
    rw [hpending] at hp
    simp only [keepWaiting, List.mem_filter, List.mem_map] at hp
    obtain ⟨⟨q, hq, rfl⟩, -⟩ := hp
    obtain ⟨hwq, hkept⟩ := List.mem_filter.mp hw
    exact ⟨⟨q, hq, hwq⟩, hkept⟩

@[simp] theorem discardNotificationRequests_actionable (uid : Option Nat) (c : Core) :
    (c.discardNotificationRequests uid).actionable = c.actionable := by
  unfold discardNotificationRequests retireActive
  split
  · rfl
  · split <;> rfl

@[simp] theorem discardNotificationRequests_busyRetry (uid : Option Nat) (c : Core) :
    (c.discardNotificationRequests uid).busyRetry = c.busyRetry := by
  unfold discardNotificationRequests retireActive
  split
  · rfl
  · split <;> rfl

section

variable (c : Core)

/-- The end of a session discards what it holds and changes nothing else of the queue. -/
theorem endSession_queue_subset : c.endSession.queue ⊆ c.queue := by
  have hd := (({ c with liveEventsSeen := false } : Core).note
    .sessionEnded).discards_discardNotificationRequests none
  exact fun r hr => (hd.queue r hr).1

@[simp] theorem endSession_busyRetry : c.endSession.busyRetry = c.busyRetry := by
  simp [endSession, note]

/-- The requests are discarded first and the session is marked as ended afterwards, or the other
way round. -/
theorem endSession_eq :
    c.endSession = ({ (c.note .sessionEnded).discardNotificationRequests none with
      liveEventsSeen := false } : Core).note (.called .sessionReset) := by
  unfold endSession discardNotificationRequests retireActive
  dsimp only [note, removeIf]
  cases c.active with
  | none => rfl
  | some r =>
    dsimp only
    split <;> rfl

@[simp] theorem endSession_actionable : c.endSession.actionable = c.actionable := by
  simp [endSession, note]

/-! ## Replays -/

/-- A replay resets the actions, if any are offered, and ends a live session. -/
theorem replay_cases :
    ∃ d : Core, ((c.actionable = [] ∧ d = c) ∨ d = c.resetActions)
      ∧ Client.replay c = if c.liveEventsSeen then d.endSession else d := by
  have hseen : c.resetActions.liveEventsSeen = c.liveEventsSeen := by
    obtain ⟨after, before, -, -, heq⟩ := c.resetActions_eq
    rw [heq]
    rfl
  unfold Client.replay
  cases hoffers : c.actionable with
  | nil => exact ⟨c, Or.inl ⟨rfl, rfl⟩, by simp⟩
  | cons e rest => exact ⟨c.resetActions, Or.inr rfl, by simp [hseen]⟩

/-! ## Emitting -/

theorem rememberActionable_shrinks (event : AncsEvent) (serial : Nat) :
    c.Shrinks (c.rememberActionable event serial)
      [.offered c.nextToken event.notificationId serial] :=
  ⟨List.Subset.refl _, fun _ h => h, fun _ h => h, rfl⟩

end

/-- An event is emitted. If it has a label and actions are opted in, an offer is made with it. -/
theorem emit_cases (env : Env) (w : Waiting) (appName : Str) (c : Core) :
    ∃ event : AncsEvent, event.notificationId = w.attrs.id ∧ event.appId = w.attrs.appId
      ∧ (c.emit env w appName = c.note (.emitted event)
        ∨ ((w.attrs.positiveActionLabel ≠ [] ∨ w.attrs.negativeActionLabel ≠ [])
          ∧ ∃ offer : AncsEvent, offer.notificationId = w.attrs.id
            ∧ c.emit env w appName = (c.rememberActionable offer w.serial).note (.emitted event))) := by
  unfold emit
  dsimp only
  split
  · split
    · exact ⟨_, rfl, rfl, Or.inl rfl⟩
    rename_i hlabels
    refine ⟨_, rfl, rfl, Or.inr ⟨?_, _, rfl, rfl⟩⟩
    by_contra hnone
    push Not at hnone
    exact hlabels hnone
  · exact ⟨_, rfl, rfl, Or.inl rfl⟩

/-! ## Queueing -/

theorem enqueue_eq {front : Bool} (h : c.enqueue r front = some c') : c' = { c with
      reserved := r.key :: c.reserved
      queue := if front then r :: c.queue else c.queue ++ [r] } := by
  unfold enqueue at h
  split at h
  · cases h
  split at h
  · cases h
  · exact (Option.some.inj h).symm

theorem enqueue_mem {x : PendingRequest} {front : Bool}
    (h : c.enqueue r front = some c') (hx : x ∈ c'.queue) : x = r ∨ x ∈ c.queue := by
  rw [enqueue_eq h] at hx
  split at hx
  · exact List.mem_cons.mp hx
  · exact (List.mem_append.mp hx).symm.imp_left List.mem_singleton.mp

end Core

end BlueFerry.Ancs
