import BlueFerry.Lib.Trace
import BlueFerry.Ancs.Requests

/-! # When an action is performed

An action goes to the phone under the UID of a notification, and the phone reuses UIDs. It should
reach the phone only while the event that offered it is the last word about that UID: no other event
for the UID, no end of the session and no reset of the actions has been processed since.

The code retires offers and queued actions at every such point, but not what is on its way: an action
that is active and goes back to the queue after a retryable error, and a request or a waiting
notification that makes its offer later. The condition of the main theorem names these places.
-/

namespace BlueFerry.Ancs

open BlueFerry.Text

/-! ## The property -/

/-- After this entry an earlier offer for the notification is void. -/
def EndsOffer (uid : Nat) : Entry → Prop
  | .sessionEnded => True
  | .actionsReset => True
  | .arrived u _ => u = uid
  | _ => False

instance (uid : Nat) : DecidablePred (EndsOffer uid)
  | .sessionEnded => .isTrue trivial
  | .actionsReset => .isTrue trivial
  | .arrived u _ => inferInstanceAs (Decidable (u = uid))
  | .invalidated _ => .isFalse id
  | .probed _ _ _ _ _ => .isFalse id
  | .wrote _ _ _ => .isFalse id
  | .offered _ _ _ => .isFalse id
  | .emitted _ => .isFalse id
  | .called _ => .isFalse id

/-- The event with this serial number is the last word about the notification. -/
def Fresh (uid serial : Nat) : List Entry → Prop :=
  Trace.Since (EndsOffer uid) (fun e _ => e = .arrived uid serial)

instance (uid serial : Nat) : DecidablePred (Fresh uid serial) :=
  fun log => Trace.Since.decidable log

/-- **The action that is written was offered for an event that is still the last word.** -/
def Current : Entry → List Entry → Prop
  | .wrote packet action _, earlier =>
    (∀ uid, performed packet = some uid → ∃ a, action = some a ∧ a.uid = uid)
      ∧ ∀ a, action = some a → .offered a.token a.uid a.serial ∈ earlier
        ∧ Fresh a.uid a.serial earlier
  | _, _ => True

/-! ## What can still make an offer -/

/-- The request can still lead to an offer for one of the notifications. -/
def PendingRequest.mayOffer (r : PendingRequest) (p : Nat → Bool) : Bool :=
  !r.discarded && r.notification.any (fun a => p a.notification.id
    && ((r.appProbe && !a.notification.actionLabelIds.isEmpty) || !r.actionLabelIds.isEmpty))

/-- The attributes have a label. -/
def Waiting.hasLabel (w : Waiting) : Bool :=
  !w.attrs.positiveActionLabel.isEmpty || !w.attrs.negativeActionLabel.isEmpty

/-- A request or a waiting notification can still lead to an offer for one of the notifications. -/
def Core.mayOffer (c : Core) (p : Nat → Bool) : Bool :=
  (c.queue ++ c.active.toList).any (·.mayOffer p)
    || c.pendingAppLookups.any (fun q => q.2.any (fun w => p w.attrs.id && w.hasLabel))

/-- The delicate moves that leave every offer fresh:
* a live event for a notification for which nothing can make an offer any more;
* a replay that does not end a session in which an action is queued without any offer left;
* a reset of the actions when nothing can make an offer;
* a retry of an action whose offer is still there. -/
def allowOffer : Delicate → Core → Prop
  | .live n, c => c.mayOffer (· == n.id) = false
  | .replayed n, c => c.liveEventsSeen = true → (∀ e ∈ c.actionable, e.uid = n.id) →
      ∀ r ∈ c.queue, ∀ a ∈ r.action, a.uid = n.id
  | .actionsReset, c => c.mayOffer (fun _ => true) = false
  | .busyRetryDue, _ => True
  | .retry r, c => ∀ a ∈ r.action, ∃ e ∈ c.actionable, e.token = a.token

instance : ∀ (x : Delicate) (c : Core), Decidable (allowOffer x c)
  | .live _, _ => inferInstanceAs (Decidable (_ = _))
  | .replayed n, c => inferInstanceAs (Decidable (_ = _ → (∀ e ∈ c.actionable, e.uid = n.id) →
      ∀ r ∈ c.queue, ∀ a ∈ r.action, a.uid = n.id))
  | .actionsReset, _ => inferInstanceAs (Decidable (_ = _))
  | .busyRetryDue, _ => inferInstanceAs (Decidable True)
  | .retry r, c => inferInstanceAs (Decidable (∀ a ∈ r.action, ∃ e ∈ c.actionable, e.token = a.token))

/-! ## The invariant -/

/-- Every action, and everything that can make an offer, belongs to an event that is still the last
word about its notification. While a re-enable is in progress the actions wait to be reset, and
`stale` are the notifications whose pending offers are about to be dropped. -/
structure Offers (refreshing : Bool) (stale : Nat → Prop) (c : Core) : Prop where
  shaped : ∀ r, c.Holds r → ∃ k, r.Is k
  queued : refreshing = false → ∀ r ∈ c.queue, ∀ a, r.action = some a → Fresh a.uid a.serial c.log
  offers : refreshing = false → ∀ e ∈ c.actionable, Fresh e.uid e.serial c.log
  used : ∀ r, c.Holds r → ∀ a, r.action = some a → .offered a.token a.uid a.serial ∈ c.log
  entries : ∀ e ∈ c.actionable, .offered e.token e.uid e.serial ∈ c.log
  unique : ∀ t u n u' n', .offered t u n ∈ c.log → .offered t u' n' ∈ c.log → u = u' ∧ n = n'
  below : ∀ t u n, .offered t u n ∈ c.log → t < c.nextToken
  pending : ∀ r a, c.Holds r → r.notification = some a → ¬ stale a.notification.id →
    r.mayOffer (fun _ => true) = true → Fresh a.notification.id a.serial c.log
  waiting : ∀ w, c.IsWaiting w → ¬ stale w.attrs.id → w.hasLabel = true →
    Fresh w.attrs.id w.serial c.log
  quiet : c.liveEventsSeen = false →
    (∀ r, c.Holds r → r.discarded = false → r.notification = none) ∧ ∀ w, ¬ c.IsWaiting w
  bounded : ∀ uid n, .arrived uid n ∈ c.log → uid < 2 ^ 32
  log : Trace.Each Current c.log

/-- The entry is neither an offer nor a write. -/
def Entry.plain : Entry → Bool
  | .offered _ _ _ => false
  | .wrote _ _ _ => false
  | _ => true

/-- The entry is plain and ends no offer. -/
def Entry.calm : Entry → Bool
  | .invalidated _ => true
  | .probed _ _ _ _ _ => true
  | .emitted _ => true
  | .called _ => true
  | _ => false

variable {e : Entry} {c : Core}

theorem Entry.calm_of_isCall (h : e.isCall = true) : e.calm = true := by
  cases e <;> first | rfl | cases h

theorem Entry.plain_of_calm (h : e.calm = true) : e.plain = true := by
  cases e <;> first | rfl | cases h

theorem Entry.not_endsOffer_of_calm (h : e.calm = true) (uid : Nat) : ¬ EndsOffer uid e := by
  cases e <;> first | exact id | cases h

theorem current_of_plain (h : e.plain = true) (earlier : List Entry) : Current e earlier := by
  cases e with
  | wrote packet action actions => cases h
  | _ => trivial

variable {r : PendingRequest}

namespace Offers

variable {R R' : Bool} {stale stale' : Nat → Prop} {c c' : Core} {new : List Entry}

section

variable (h : Offers R stale c)
include h

/-- **Extension.** Requests, waiting notifications and offers may go, and the log gains plain
entries. An action that stays was fresh before, and no new entry ends its offer. -/
theorem extend (hs : c.Shrinks c' new)
    (hplain : ∀ e ∈ new, e.plain = true) (hbound : ∀ uid n, .arrived uid n ∈ new → uid < 2 ^ 32)
    (hoffers : ∀ e ∈ c'.actionable, ∃ e₀ ∈ c.actionable,
      e.token = e₀.token ∧ e.uid = e₀.uid ∧ e.serial = e₀.serial)
    (hnext : c'.nextToken = c.nextToken) (hseen : c'.liveEventsSeen = c.liveEventsSeen)
    (hstale : ∀ u, ¬ stale' u → ¬ stale u ∧ ∀ e ∈ new, ¬ EndsOffer u e)
    (hqueue : R' = false → ∀ r ∈ c'.queue, ∀ a, r.action = some a →
      R = false ∧ ∀ e ∈ new, ¬ EndsOffer a.uid e)
    (hentries : R' = false → ∀ x ∈ c'.actionable, R = false ∧ ∀ e ∈ new, ¬ EndsOffer x.uid e) :
    Offers R' stale' c' := by
  have hold : ∀ t u n, .offered t u n ∈ c'.log → .offered t u n ∈ c.log := by
    intro t u n hmem
    rw [hs.log] at hmem
    rcases List.mem_append.mp hmem with hmem | hmem
    · exact absurd (hplain _ hmem) Bool.false_ne_true
    · exact hmem
  have hmem : ∀ {e : Entry}, e ∈ c.log → e ∈ c'.log := by
    intro e he
    rw [hs.log]
    exact List.mem_append_right _ he
  refine ⟨fun r hr => h.shaped r (hs.holds hr), ?_, ?_, ?_, ?_, ?_, ?_, ?_, ?_, ?_, ?_, ?_⟩
  · intro hR r hr a ha
    obtain ⟨hR, hnew⟩ := hqueue hR r hr a ha
    rw [hs.log]
    exact (h.queued hR r (hs.queue hr) a ha).append hnew
  · intro hR x hx
    obtain ⟨hR, hnew⟩ := hentries hR x hx
    obtain ⟨x₀, hx₀, -, huid, hserial⟩ := hoffers x hx
    rw [huid] at hnew
    rw [hs.log, huid, hserial]
    exact (h.offers hR x₀ hx₀).append hnew
  · exact fun r hr a ha => hmem (h.used r (hs.holds hr) a ha)
  · intro x hx
    obtain ⟨x₀, hx₀, htoken, huid, hserial⟩ := hoffers x hx
    rw [htoken, huid, hserial]
    exact hmem (h.entries x₀ hx₀)
  · exact fun t u n u' n' hu hu' => h.unique t u n u' n' (hold t u n hu) (hold t u' n' hu')
  · intro t u n hu
    rw [hnext]
    exact h.below t u n (hold t u n hu)
  · intro r a hr hn hu hmay
    rw [hs.log]
    exact (h.pending r a (hs.holds hr) hn (hstale _ hu).1 hmay).append (hstale _ hu).2
  · intro w hw hu hlabel
    rw [hs.log]
    exact (h.waiting w (hs.waiting w hw) (hstale _ hu).1 hlabel).append (hstale _ hu).2
  · intro hlive
    obtain ⟨hrequests, hwaiting⟩ := h.quiet (hseen ▸ hlive)
    exact ⟨fun r hr => hrequests r (hs.holds hr), fun w hw => hwaiting w (hs.waiting w hw)⟩
  · intro uid n hu
    rw [hs.log] at hu
    rcases List.mem_append.mp hu with hu | hu
    · exact hbound uid n hu
    · exact h.bounded uid n hu
  · rw [hs.log]
    exact h.log.append (fun e he => current_of_plain (hplain e he))

/-- Extension by calm entries. -/
theorem calm (hs : c.Shrinks c' new) (hcalm : ∀ e ∈ new, e.calm = true)
    (hoffers : ∀ e ∈ c'.actionable, ∃ e₀ ∈ c.actionable,
      e.token = e₀.token ∧ e.uid = e₀.uid ∧ e.serial = e₀.serial)
    (hnext : c'.nextToken = c.nextToken) (hseen : c'.liveEventsSeen = c.liveEventsSeen) :
    Offers R stale c' := by
  have hends : ∀ u, ∀ e ∈ new, ¬ EndsOffer u e :=
    fun u e he => Entry.not_endsOffer_of_calm (hcalm e he) u
  refine h.extend hs (fun e he => Entry.plain_of_calm (hcalm e he)) ?_ hoffers hnext hseen
    (fun u hu => ⟨hu, hends u⟩) (fun hR r _ a _ => ⟨hR, hends a.uid⟩) (fun hR x _ => ⟨hR, hends x.uid⟩)
  intro uid n hu
  exact absurd (hcalm _ hu) Bool.false_ne_true

/-- Nothing is logged. -/
theorem silent (hs : c.Shrinks c' []) (hoffers : ∀ e ∈ c'.actionable, ∃ e₀ ∈ c.actionable,
      e.token = e₀.token ∧ e.uid = e₀.uid ∧ e.serial = e₀.serial)
    (hnext : c'.nextToken = c.nextToken) (hseen : c'.liveEventsSeen = c.liveEventsSeen) :
    Offers R stale c' := h.calm hs (by simp) hoffers hnext hseen

theorem deactivate : Offers R stale { c with active := none } :=
  h.silent ⟨List.Subset.refl _, fun _ hr => (by cases hr), fun _ hw => hw, rfl⟩
    (fun x hx => ⟨x, hx, rfl, rfl, rfl⟩) rfl rfl

theorem note {e : Entry} (he : e.calm = true) : Offers R stale (c.note e) :=
  h.calm ((Core.Shrinks.refl c).note e) (by simpa using he) (fun x hx => ⟨x, hx, rfl, rfl, rfl⟩)
    rfl rfl

theorem finishActive : Offers R stale c.finishActive := by
  refine h.calm c.finishActive_shrinks (by simp) ?_ ?_ ?_
  · intro x hx
    rw [Core.finishActive_actionable] at hx
    exact ⟨x, hx, rfl, rfl, rfl⟩
  · unfold Core.finishActive
    split <;> rfl
  · unfold Core.finishActive
    split <;> rfl

theorem resetRequests : Offers R stale c.resetRequests := by
  obtain ⟨calls, hcalls, hs⟩ := c.resetRequests_shrinks
  obtain ⟨hoffers, hnext, hseen⟩ := c.resetRequests_offers
  refine h.calm hs (fun e he => Entry.calm_of_isCall (hcalls e he)) ?_ hnext hseen
  rw [hoffers]
  exact fun x hx => ⟨x, hx, rfl, rfl, rfl⟩

/-- After a reset there is no action, and what is still pending is stale. -/
theorem resetActions (R' : Bool) : Offers R' (fun _ => True) c.resetActions := by
  obtain ⟨after, before, hafter, hbefore, hs⟩ := c.resetActions_shrinks
  have hnext : c.resetActions.nextToken = c.nextToken := by
    obtain ⟨_, _, -, -, heq⟩ := c.resetActions_eq
    rw [heq]
    rfl
  have hseen : c.resetActions.liveEventsSeen = c.liveEventsSeen := by
    obtain ⟨_, _, -, -, heq⟩ := c.resetActions_eq
    rw [heq]
    rfl
  have hplain : ∀ e ∈ after ++ .actionsReset :: before,
      e = .actionsReset ∨ e.calm = true := by
    intro e he
    rcases List.mem_append.mp he with he | he
    · exact .inr (Entry.calm_of_isCall (hafter e he))
    rcases List.mem_cons.mp he with rfl | he
    · exact .inl rfl
    · exact .inr (Entry.calm_of_isCall (hbefore e he))
  refine h.extend hs ?_ ?_ (by simp) hnext hseen (fun u hu => absurd trivial hu) ?_ (by simp)
  · intro e he
    rcases hplain e he with rfl | he
    · rfl
    · exact Entry.plain_of_calm he
  · intro uid n hu
    rcases hplain _ hu with hu | hu <;> cases hu
  · intro _ r hr a ha
    rw [Core.resetActions_noAction c hr] at ha
    cases ha

end

/-- An arrival drops the actions for its notification and makes stale what is pending for it. -/
theorem arrive (h : Offers R (fun _ => False) c) (n : Notification) (hid : n.id < 2 ^ 32) :
    Offers R (· = n.id) (Client.arrive n c) := by
  obtain ⟨after, before, hafter, hbefore, heq⟩ := Core.arrive_eq n c
  have hnew : ∀ e ∈ after ++ .arrived n.id c.serials :: before,
      e = .arrived n.id c.serials ∨ e.calm = true := by
    intro e he
    rcases List.mem_append.mp he with he | he
    · exact .inr (Entry.calm_of_isCall (hafter e he))
    rcases List.mem_cons.mp he with rfl | he
    · exact .inl rfl
    · exact .inr (Entry.calm_of_isCall (hbefore e he))
  have hends : ∀ u, u ≠ n.id → ∀ e ∈ after ++ .arrived n.id c.serials :: before,
      ¬ EndsOffer u e := by
    intro u hu e he
    rcases hnew e he with rfl | he
    · exact fun heq => hu heq.symm
    · exact Entry.not_endsOffer_of_calm he u
  have hs : c.Shrinks (Client.arrive n c) (after ++ .arrived n.id c.serials :: before) := by
    rw [heq]
    exact ⟨fun r hr => (Core.mem_removeIf hr).1, fun r hr => hr, fun w hw => hw, by simp⟩
  refine h.extend hs ?_ ?_ ?_ ?_ ?_ (fun u hu => ⟨id, hends u hu⟩) ?_ ?_
  · intro e he
    rcases hnew e he with rfl | he
    · rfl
    · exact Entry.plain_of_calm he
  · intro uid m hu
    rcases hnew _ hu with hu | hu
    · cases hu
      exact hid
    · cases hu
  · intro x hx
    rw [heq] at hx
    exact ⟨x, List.mem_of_mem_filter hx, rfl, rfl, rfl⟩
  · rw [heq]
    rfl
  · rw [heq]
    rfl
  · intro hR r hr a ha
    rw [heq] at hr
    refine ⟨hR, hends a.uid ?_⟩
    have := (Core.mem_removeIf hr).2
    simpa [Core.isAction, ha] using this
  · intro hR x hx
    rw [heq] at hx
    exact ⟨hR, hends x.uid (by simpa using (List.mem_filter.mp hx).2)⟩

theorem wanted_of_mayOffer {p : Nat → Bool} (h : r.mayOffer p = true) : r.discarded = false := by
  cases hd : r.discarded with
  | false => rfl
  | true => simp [PendingRequest.mayOffer, hd] at h

section

variable (h : Offers R stale c)
include h

/-- Discarding drops what is pending for the notification, or for all of them. -/
theorem discard (uid : Option Nat) :
    Offers R (fun u => stale u ∧ uid.any (· != u) = true) (c.discardNotificationRequests uid) := by
  have hd := c.discards_discardNotificationRequests uid
  have hactions : (c.discardNotificationRequests uid).actionable = c.actionable := by simp
  have hother : (c.discardNotificationRequests uid).nextToken = c.nextToken
      ∧ (c.discardNotificationRequests uid).liveEventsSeen = c.liveEventsSeen := by
    unfold Core.discardNotificationRequests Core.retireActive
    split
    · exact ⟨rfl, rfl⟩
    · split <;> exact ⟨rfl, rfl⟩
  -- what is still wanted was there before and is about another notification
  have hheld : ∀ r, (c.discardNotificationRequests uid).Holds r → r.discarded = false →
      c.Holds r ∧ Core.isAbout uid r = false := by
    rintro r (hr | hr) hw
    · exact ⟨.inl (hd.queue r hr).1, (hd.queue r hr).2⟩
    · obtain ⟨r₀, hr₀, ⟨rfl, hkept⟩ | rfl⟩ := hd.active r hr
      · refine ⟨.inr hr₀, hkept.resolve_right ?_⟩
        rw [hw]
        exact Bool.false_ne_true
      · cases hw
  have hoffered : ∀ {t u n}, .offered t u n ∈ (c.discardNotificationRequests uid).log →
      .offered t u n ∈ c.log := by
    intro t u n hu
    rw [hd.log] at hu
    exact (List.mem_cons.mp hu).resolve_left (fun he => by cases he)
  refine ⟨?_, ?_, ?_, ?_, ?_, ?_, ?_, ?_, ?_, ?_, ?_, ?_⟩
  · rintro r (hr | hr)
    · exact h.shaped r (.inl (hd.queue r hr).1)
    · obtain ⟨r₀, hr₀, ⟨rfl, -⟩ | rfl⟩ := hd.active r hr
      · exact h.shaped r (.inr hr₀)
      obtain ⟨k, hk⟩ := h.shaped r₀ (.inr hr₀)
      exact ⟨k, hk.retired⟩
  · intro hR r hr a ha
    rw [hd.log]
    exact .later id (h.queued hR r (hd.queue r hr).1 a ha)
  · intro hR x hx
    rw [hactions] at hx
    rw [hd.log]
    exact .later id (h.offers hR x hx)
  · rintro r (hr | hr) a ha
    · rw [hd.log]
      exact .tail _ (h.used r (.inl (hd.queue r hr).1) a ha)
    · rw [hd.log]
      obtain ⟨r₀, hr₀, ⟨rfl, -⟩ | rfl⟩ := hd.active r hr
      · exact .tail _ (h.used r (.inr hr₀) a ha)
      · exact .tail _ (h.used r₀ (.inr hr₀) a ha)
  · intro x hx
    rw [hactions] at hx
    rw [hd.log]
    exact .tail _ (h.entries x hx)
  · exact fun t u n u' n' hu hu' => h.unique t u n u' n' (hoffered hu) (hoffered hu')
  · intro t u n hu
    rw [hother.1]
    exact h.below t u n (hoffered hu)
  · intro r a hr hn hu hmay
    obtain ⟨hr, hkept⟩ := hheld r hr (wanted_of_mayOffer hmay)
    rw [hd.log]
    refine .later id (h.pending r a hr hn (fun hs => hu ⟨hs, ?_⟩) hmay)
    cases uid with
    | none => simp [Core.isAbout, hn] at hkept
    | some u => simpa [Core.isAbout, hn, bne_iff_ne] using hkept
  · intro w hw hu hlabel
    obtain ⟨hw, hkept⟩ := hd.waiting w hw
    rw [hd.log]
    exact .later id (h.waiting w hw (fun hs => hu ⟨hs, hkept⟩) hlabel)
  · intro hlive
    obtain ⟨hrequests, hwaiting⟩ := h.quiet (hother.2 ▸ hlive)
    exact ⟨fun r hr hw => hrequests r (hheld r hr hw).1 hw, fun w hw => hwaiting w (hd.waiting w hw).1⟩
  · intro u n hu
    rw [hd.log] at hu
    exact h.bounded u n ((List.mem_cons.mp hu).resolve_left (fun he => by cases he))
  · rw [hd.log]
    exact ⟨trivial, h.log⟩

/-- **The end of a session.** Nothing is pending afterwards; the actions must be gone, or a
re-enable is in progress that will reset them. -/
theorem endSession (hidle : R' = false → (∀ r ∈ c.queue, r.action = none) ∧ c.actionable = []) :
    Offers R' (fun _ => False) c.endSession := by
  have hended : Offers R' (fun _ => True) (c.note .sessionEnded) := by
    refine h.extend ((Core.Shrinks.refl c).note .sessionEnded) (by simp [Entry.plain]) (by simp)
      (fun x hx => ⟨x, hx, rfl, rfl, rfl⟩) rfl rfl (fun u hu => absurd trivial hu) ?_ ?_
    · intro hR r hr a ha
      rw [(hidle hR).1 r hr] at ha
      cases ha
    intro hR x hx
    have hx : x ∈ c.actionable := hx
    rw [(hidle hR).2] at hx
    cases hx
  have hd := (c.note .sessionEnded).discards_discardNotificationRequests none
  have hnone := hended.discard none
  rw [Core.endSession_eq]
  apply note _ rfl
  refine { hnone with pending := ?_, waiting := ?_, quiet := ?_ }
  · exact fun r a hr hn _ => hnone.pending r a hr hn (by simp)
  · exact fun w hw _ => hnone.waiting w hw (by simp)
  intro _
  constructor
  · rintro r (hr | hr) hw
    · cases hn : r.notification with
      | none => rfl
      | some a => exact absurd (hd.queue r hr).2 (by simp [Core.isAbout, hn])
    · obtain ⟨r₀, -, ⟨rfl, hkept⟩ | rfl⟩ := hd.active r hr
      · cases hn : r.notification with
        | none => rfl
        | some a =>
          rcases hkept with hkept | hkept
          · simp [Core.isAbout, hn] at hkept
          rw [hw] at hkept
          cases hkept
      · cases hw
  · intro w hw
    have := (hd.waiting w hw).2
    simp at this

/-- A request is queued. An action must be fresh, and so must what can make an offer. -/
theorem enqueue {front : Bool} (henqueue : c.enqueue r front = some c') {k : Kind} (hk : r.Is k)
    (haction : ∀ a, r.action = some a →
      .offered a.token a.uid a.serial ∈ c.log ∧ (R = false → Fresh a.uid a.serial c.log))
    (hpending : ∀ a, r.notification = some a → c.liveEventsSeen = true
      ∧ (r.mayOffer (fun _ => true) = true → Fresh a.notification.id a.serial c.log)) :
    Offers R stale c' := by
  have hheld : ∀ x, c'.Holds x → x = r ∨ c.Holds x := by
    rintro x (hx | hx)
    · exact (Core.enqueue_mem henqueue hx).imp_right Or.inl
    · rw [Core.enqueue_eq henqueue] at hx
      exact .inr (.inr hx)
  have hmem := fun x => Core.enqueue_mem (x := x) henqueue
  have heq := Core.enqueue_eq henqueue
  have hlog : c'.log = c.log := by rw [heq]
  have hactions : c'.actionable = c.actionable := by rw [heq]
  have hwaits : ∀ w, c'.IsWaiting w → c.IsWaiting w := by
    rw [heq]
    exact fun w hw => hw
  refine ⟨?_, ?_, ?_, ?_, ?_, ?_, ?_, ?_, ?_, ?_, ?_, ?_⟩
  · intro x hx
    rcases hheld x hx with rfl | hx
    · exact ⟨k, hk⟩
    · exact h.shaped x hx
  · intro hR x hx a ha
    rw [hlog]
    rcases hmem x hx with rfl | hx
    · exact (haction a ha).2 hR
    · exact h.queued hR x hx a ha
  · rw [hactions, hlog]
    exact h.offers
  · intro x hx a ha
    rw [hlog]
    rcases hheld x hx with rfl | hx
    · exact (haction a ha).1
    · exact h.used x hx a ha
  · rw [hactions, hlog]
    exact h.entries
  · rw [hlog]
    exact h.unique
  · rw [hlog, heq]
    exact h.below
  · intro x a hx hn hu hmay
    rw [hlog]
    rcases hheld x hx with rfl | hx
    · exact (hpending a hn).2 hmay
    · exact h.pending x a hx hn hu hmay
  · intro w hw hu hlabel
    rw [hlog]
    exact h.waiting w (hwaits w hw) hu hlabel
  · intro hlive
    have hlive : c.liveEventsSeen = false := by
      rw [heq] at hlive
      exact hlive
    obtain ⟨hrequests, hwaiting⟩ := h.quiet hlive
    refine ⟨fun x hx hw => ?_, fun w hw => hwaiting w (hwaits w hw)⟩
    rcases hheld x hx with rfl | hx
    · cases hn : x.notification with
      | none => rfl
      | some a =>
        rw [(hpending a hn).1] at hlive
        cases hlive
    · exact hrequests x hx hw
  · rw [hlog]
    exact h.bounded
  · rw [hlog]
    exact h.log

/-- **An offer is made** under a new token. -/
theorem rememberActionable (event : AncsEvent) {serial : Nat}
    (hfresh : Fresh event.notificationId serial c.log) :
    Offers R stale (c.rememberActionable event serial) := by
  have hentries : ∀ x ∈ (c.rememberActionable event serial).actionable, x ∈ c.actionable
      ∨ (x.token = c.nextToken ∧ x.uid = event.notificationId ∧ x.serial = serial) := by
    intro x hx
    rcases List.mem_append.mp (List.mem_of_mem_drop hx) with hx | hx
    · exact .inl (List.mem_of_mem_filter hx)
    rw [List.mem_singleton.mp hx]
    exact .inr ⟨rfl, rfl, rfl⟩
  have hoffered : ∀ {t u n}, .offered t u n ∈ (c.rememberActionable event serial).log →
      (t = c.nextToken ∧ u = event.notificationId ∧ n = serial) ∨ .offered t u n ∈ c.log := by
    intro t u n hu
    rcases List.mem_cons.mp hu with hu | hu
    · cases hu
      exact .inl ⟨rfl, rfl, rfl⟩
    · exact .inr hu
  refine ⟨h.shaped, fun hR r hr a ha => .later id (h.queued hR r hr a ha), ?_, ?_, ?_, ?_, ?_,
    fun r a hr hn hu hmay => .later id (h.pending r a hr hn hu hmay),
    fun w hw hu hlabel => .later id (h.waiting w hw hu hlabel), h.quiet, ?_, ⟨trivial, h.log⟩⟩
  · intro hR x hx
    rcases hentries x hx with hx | ⟨-, huid, hserial⟩
    · exact .later id (h.offers hR x hx)
    rw [huid, hserial]
    exact .later id hfresh
  · exact fun r hr a ha => .tail _ (h.used r hr a ha)
  · intro x hx
    rcases hentries x hx with hx | ⟨htoken, huid, hserial⟩
    · exact .tail _ (h.entries x hx)
    rw [htoken, huid, hserial]
    exact .head _
  · intro t u n u' n' hu hu'
    rcases hoffered hu with ⟨rfl, rfl, rfl⟩ | hu
    · rcases hoffered hu' with ⟨-, rfl, rfl⟩ | hu'
      · exact ⟨rfl, rfl⟩
      have := h.below _ _ _ hu'
      omega
    rcases hoffered hu' with ⟨rfl, -, -⟩ | hu'
    · have := h.below _ _ _ hu
      omega
    · exact h.unique t u n u' n' hu hu'
  · intro t u n hu
    show t < c.nextToken + 1
    rcases hoffered hu with ⟨rfl, -, -⟩ | hu
    · omega
    have := h.below t u n hu
    omega
  · intro u n hu
    exact h.bounded u n ((List.mem_cons.mp hu).resolve_left (fun he => by cases he))

theorem emit (env : Env) (w : Waiting) (appName : Str)
    (hfresh : w.hasLabel = true → Fresh w.attrs.id w.serial c.log) :
    Offers R stale (c.emit env w appName) := by
  obtain ⟨event, -, -, heq | ⟨hlabels, offer, hid, heq⟩⟩ := c.emit_cases env w appName
  · rw [heq]
    exact h.note rfl
  rw [heq]
  apply note _ rfl
  apply h.rememberActionable
  rw [hid]
  apply hfresh
  unfold Waiting.hasLabel
  rcases hlabels with hlabel | hlabel
  · cases hl : w.attrs.positiveActionLabel with
    | nil => exact absurd hl hlabel
    | cons x rest => rfl
  · cases hl : w.attrs.negativeActionLabel with
    | nil => exact absurd hl hlabel
    | cons x rest => simp

theorem addWaiting (appId : Str) (w : Waiting) (hlive : c.liveEventsSeen = true)
    (hfresh : w.hasLabel = true → Fresh w.attrs.id w.serial c.log) :
    Offers R stale (Client.addWaiting appId w c) := by
  refine { h with waiting := ?_, quiet := ?_ }
  · rintro x ⟨p, hp, hx⟩ hu hlabel
    rcases List.mem_append.mp hp with hp | hp
    · exact h.waiting x ⟨p, List.mem_of_mem_filter hp, hx⟩ hu hlabel
    rw [List.mem_singleton.mp hp] at hx
    rcases List.mem_append.mp hx with hx | hx
    · exact h.waiting x (Core.isWaiting_of_mem_waitingFor hx) hu hlabel
    rw [List.mem_singleton.mp hx] at hlabel ⊢
    exact hfresh hlabel
  · intro hquiet
    have hquiet : c.liveEventsSeen = false := hquiet
    rw [hlive] at hquiet
    cases hquiet

end

/-- **Writing the head of the queue** performs a fresh action, if it performs any. -/
theorem current_wrote (h : Offers false stale c) {rest : List PendingRequest}
    (hqueue : c.queue = r :: rest) (actions : Bool) :
    Current (.wrote r.packet r.action actions) c.log := by
  have hmem : r ∈ c.queue := by rw [hqueue]; exact .head _
  obtain ⟨k, hk⟩ := h.shaped r (.inl hmem)
  have hfresh := h.queued rfl r hmem
  refine ⟨?_, fun a ha => ⟨h.used r (.inl hmem) a ha, hfresh a ha⟩⟩
  intro uid hperformed
  rw [hk.packet] at hperformed
  cases k with
  | probe a | content a appId labels => cases hperformed
  | authorization | appName appId =>
    rw [Kind.packet, performed_appAttributes] at hperformed
    cases hperformed
  | action a =>
    have ha : r.action = some a := hk.action
    -- the event that made the offer arrived, so the UID fits into the packet
    have harrived : ∀ {log : List Entry}, Fresh a.uid a.serial log →
        .arrived a.uid a.serial ∈ log := by
      intro log
      induction log with
      | nil => exact False.elim
      | cons e log ih =>
        rintro (rfl | ⟨-, hlog⟩)
        · exact .head _
        · exact .tail _ (ih hlog)
    have hbound := h.bounded _ _ (harrived (hfresh a ha))
    rw [Kind.packet, performed_perform hbound] at hperformed
    exact ⟨a, ha, Option.some.inj hperformed⟩

theorem startWrite (h : Offers false stale c) {rest : List PendingRequest}
    (hqueue : c.queue = r :: rest) (actions : Bool) (token nextWrite : Nat) :
    Offers false stale (({ c with queue := rest, active := some r, cpWriteToken := some token, nextWrite } :
      Core).note (.wrote r.packet r.action actions)) := by
  have hmem : r ∈ c.queue := by rw [hqueue]; exact .head _
  have hrest : ∀ x ∈ rest, x ∈ c.queue := fun x hx => by rw [hqueue]; exact .tail _ hx
  have hheld : ∀ x, x ∈ rest ∨ some r = some x → c.Holds x := by
    rintro x (hx | hx)
    · exact .inl (hrest x hx)
    · cases hx
      exact .inl hmem
  have hold : ∀ {e : Entry}, e ≠ .wrote r.packet r.action actions →
      e ∈ .wrote r.packet r.action actions :: c.log → e ∈ c.log :=
    fun hne he => (List.mem_cons.mp he).resolve_left hne
  refine ⟨fun x hx => h.shaped x (hheld x hx),
    fun hR x hx a ha => .later id (h.queued hR x (hrest x hx) a ha),
    fun hR x hx => .later id (h.offers hR x hx),
    fun x hx a ha => .tail _ (h.used x (hheld x hx) a ha),
    fun x hx => .tail _ (h.entries x hx), ?_, ?_,
    fun x a hx hn hu hmay => .later id (h.pending x a (hheld x hx) hn hu hmay),
    fun w hw hu hlabel => .later id (h.waiting w hw hu hlabel), ?_, ?_,
    h.current_wrote hqueue actions, h.log⟩
  · exact fun t u n u' n' hu hu' => h.unique t u n u' n' (hold (fun he => by cases he) hu)
      (hold (fun he => by cases he) hu')
  · exact fun t u n hu => h.below t u n (hold (fun he => by cases he) hu)
  · intro hlive
    obtain ⟨hrequests, hwaiting⟩ := h.quiet hlive
    exact ⟨fun x hx => hrequests x (hheld x hx), hwaiting⟩
  · exact fun u n hu => h.bounded u n (hold (fun he => by cases he) hu)

/-- The active request goes back to the front of the queue; an action must still be fresh. -/
theorem retry (h : Offers R stale c) (hactive : c.active = some r) (n : Nat) (writes : List Write)
    (token : Option Nat)
    (hfresh : R = false → ∀ a, r.action = some a → Fresh a.uid a.serial c.log) :
    Offers R stale (Client.pushFront { r with busyRetries := n }
      { c with writes, cpWriteToken := token, active := none }) := by
  obtain ⟨k, hk⟩ := h.shaped r (.inr hactive)
  unfold Client.pushFront
  split
  · have hheld : ∀ x, x ∈ { r with busyRetries := n } :: c.queue ∨ (none : Option PendingRequest) = some x →
        x = { r with busyRetries := n } ∨ c.Holds x := by
      rintro x (hx | hx)
      · exact (List.mem_cons.mp hx).imp_right Or.inl
      · cases hx
    refine ⟨?_, ?_, h.offers, ?_, h.entries, h.unique, h.below, ?_, h.waiting, ?_, h.bounded, h.log⟩
    · intro x hx
      rcases hheld x hx with rfl | hx
      · exact ⟨k, hk.retried n⟩
      · exact h.shaped x hx
    · intro hR x hx a ha
      rcases List.mem_cons.mp hx with rfl | hx
      · exact hfresh hR a ha
      · exact h.queued hR x hx a ha
    · intro x hx a ha
      rcases hheld x hx with rfl | hx
      · exact h.used r (.inr hactive) a ha
      · exact h.used x hx a ha
    · intro x a hx hn hu hmay
      rcases hheld x hx with rfl | hx
      · exact h.pending r a (.inr hactive) hn hu hmay
      · exact h.pending x a hx hn hu hmay
    intro hlive
    obtain ⟨hrequests, hwaiting⟩ := h.quiet hlive
    refine ⟨fun x hx hw => ?_, hwaiting⟩
    rcases hheld x hx with rfl | hx
    · exact hrequests r (.inr hactive) hw
    · exact hrequests x hx hw
  · have hidle := h.deactivate
    exact { hidle with }

theorem feed (h : Offers R stale c) (hactive : c.active = some r)
    {assembler assembler' : DataSourceAssembler} {data : Bytes} (hr : r.assembler = some assembler)
    (hfeed : assembler.feed data = (assembler', .ok none)) :
    Offers R stale { c with active := some { r with assembler := some assembler' } } := by
  obtain ⟨k, hk⟩ := h.shaped r (.inr hactive)
  refine ⟨?_, h.queued, h.offers, ?_, h.entries, h.unique, h.below, ?_, h.waiting, ?_, h.bounded,
    h.log⟩
  · rintro x (hx | hx)
    · exact h.shaped x (.inl hx)
    · cases hx
      exact ⟨k, hk.fed hr hfeed⟩
  · rintro x (hx | hx) a ha
    · exact h.used x (.inl hx) a ha
    · cases hx
      exact h.used r (.inr hactive) a ha
  · rintro x a (hx | hx) hn hu hmay
    · exact h.pending x a (.inl hx) hn hu hmay
    · cases hx
      exact h.pending r a (.inr hactive) hn hu hmay
  intro hlive
  obtain ⟨hrequests, hwaiting⟩ := h.quiet hlive
  refine ⟨?_, hwaiting⟩
  rintro x (hx | hx) hw
  · exact hrequests x (.inl hx) hw
  · cases hx
    exact hrequests r (.inr hactive) hw

/-- A session in which a notification is asked about is live. -/
theorem live_of_held (h : Offers R stale c) (hr : c.Holds r) (hw : r.discarded = false)
    {a : Arrival} (hn : r.notification = some a) : c.liveEventsSeen = true := by
  by_contra hquiet
  have := (h.quiet (eq_false_of_ne_true hquiet)).1 r hr hw
  rw [hn] at this
  cases this

theorem probeAnswered (h : Offers R stale c) (env : Env) (a : Arrival) (appId : Str)
    (observed : List Str) (nextRid : Nat) :
    Offers R stale (c.probeAnswered env a appId observed nextRid) := by
  have hnoted : Offers R stale (c.finishActive.note (.probed a.notification.id appId
      env.includeNonMessageNotifications (env.includeAppNotification appId)
      env.notificationActions)) := h.finishActive.note rfl
  exact { hnoted with }

/-- Labels come only in answer to a request that names them. -/
theorem fresh_of_content (h : Offers R (fun _ => False) c) {a : Arrival}
    {attrs : NotificationAttributes} (hc : ContentAnswered (fun _ _ => True) c r a attrs) :
    c.liveEventsSeen = true ∧ ((⟨attrs, a.serial⟩ : Waiting).hasLabel = true →
      Fresh attrs.id a.serial c.log) := by
  obtain ⟨ev, hanswer, hparse⟩ := hc.answered
  have hheld : c.Holds r := Or.inr hanswer.active
  obtain ⟨k, hk⟩ := h.shaped r hheld
  obtain ⟨hid, -⟩ := hk.contentAnswered hc
  refine ⟨h.live_of_held hheld hanswer.wanted hc.notification, fun hlabel => ?_⟩
  rw [hid]
  refine h.pending r a hheld hc.notification id ?_
  cases hids : r.actionLabelIds with
  | nil =>
    rw [hids] at hparse
    rw [Waiting.hasLabel, (NotificationAttributes.labels_of_parse hparse).1,
      (NotificationAttributes.labels_of_parse hparse).2] at hlabel
    cases hlabel
  | cons id ids => simp [PendingRequest.mayOffer, hanswer.wanted, hc.notification, hids]

/-- Nothing stale can make an offer, so nothing is stale. -/
theorem unstale (h : Offers R stale c)
    (hrequests : ∀ r a, c.Holds r → r.notification = some a → stale a.notification.id →
      r.mayOffer (fun _ => true) = false)
    (hwaiting : ∀ w, c.IsWaiting w → stale w.attrs.id → w.hasLabel = false) :
    Offers R (fun _ => False) c := by
  refine { h with pending := ?_, waiting := ?_ }
  · intro r a hr hn _ hmay
    refine h.pending r a hr hn (fun hs => ?_) hmay
    rw [hrequests r a hr hn hs] at hmay
    cases hmay
  intro w hw _ hlabel
  refine h.waiting w hw (fun hs => ?_) hlabel
  rw [hwaiting w hw hs] at hlabel
  cases hlabel

/-- The offers are marked, and nothing else changes. -/
theorem flagOffer (h : Offers R stale c) (uid : Nat) (inFlight : Bool) :
    Offers R stale (c.flagOffer uid inFlight) := by
  refine h.silent ⟨List.Subset.refl _, fun _ hr => hr, fun _ hw => hw, rfl⟩ ?_ rfl rfl
  intro x hx
  obtain ⟨x₀, hx₀, rfl⟩ := List.mem_map.mp hx
  refine ⟨x₀, hx₀, ?_⟩
  split <;> exact ⟨rfl, rfl, rfl⟩

end Offers

/-- What `mayOffer` rules out. -/
theorem Core.not_mayOffer {p : Nat → Bool} (h : c.mayOffer p = false) :
    (∀ r a, c.Holds r → r.notification = some a → p a.notification.id = true →
        r.mayOffer (fun _ => true) = false)
      ∧ ∀ w, c.IsWaiting w → p w.attrs.id = true → w.hasLabel = false := by
  simp only [Core.mayOffer, Bool.or_eq_false_iff, List.any_eq_false] at h
  constructor
  · intro r a hr hn hp
    have hmem : r ∈ c.queue ++ c.active.toList := by
      rcases hr with hr | hr
      · exact List.mem_append_left _ hr
      · exact List.mem_append_right _ (by simp [hr])
    have hr := h.1 r hmem
    cases hmay : r.mayOffer (fun _ => true) with
    | false => rfl
    | true =>
      exfalso
      apply hr
      simpa [PendingRequest.mayOffer, hn, hp] using hmay
  · rintro w ⟨q, hq, hw⟩ hp
    have hnone := h.2 q hq
    cases hlabel : w.hasLabel with
    | false => rfl
    | true =>
      exfalso
      apply hnone
      exact List.any_eq_true.mpr ⟨w, hw, by simp [hp, hlabel]⟩

theorem fresh_arrive (n : Notification) (c : Core) :
    Fresh n.id c.serials (Client.arrive n c).log := by
  obtain ⟨after, before, hafter, -, heq⟩ := Core.arrive_eq n c
  rw [heq]
  refine Trace.Since.append (.here rfl) (fun e he => ?_)
  exact Entry.not_endsOffer_of_calm (Entry.calm_of_isCall (hafter e he)) _

/-! ## The moves -/

theorem offers_replayed {R : Bool} (h : Offers R (fun _ => False) c) (n : Notification)
    (hid : n.id < 2 ^ 32) (hallow : allowOffer (.replayed n) c) :
    Offers R (fun _ => False) (Client.replay (Client.arrive n c)) := by
  have harrived := h.arrive n hid
  obtain ⟨after, before, -, -, heq⟩ := Core.arrive_eq n c
  have hseen : (Client.arrive n c).liveEventsSeen = c.liveEventsSeen := by
    rw [heq]
    rfl
  obtain ⟨d, hd, hreplay⟩ := (Client.arrive n c).replay_cases
  rw [hreplay]
  split
  · rename_i hlive
    rw [hseen] at hlive
    rcases hd with ⟨hnone, rfl⟩ | rfl
    · -- no offer is left, so the condition leaves no action either
      refine harrived.endSession (fun _ => ⟨fun r hr => ?_, hnone⟩)
      rw [heq] at hr hnone
      have hall : ∀ e ∈ c.actionable, e.uid = n.id := by
        intro e he
        have := List.filter_eq_nil_iff.mp hnone e he
        simpa using this
      obtain ⟨hr, hother⟩ := Core.mem_removeIf hr
      cases ha : r.action with
      | none => rfl
      | some a =>
        have huid := hallow hlive hall r hr a ha
        simp [Core.isAction, ha, huid] at hother
    · refine (harrived.resetActions R).endSession (fun _ => ⟨fun r hr => ?_, by simp⟩)
      exact Core.resetActions_noAction _ hr
  · rename_i hquiet
    rw [hseen] at hquiet
    -- nothing is asked about any notification before the session is live
    obtain ⟨hrequests, hwaiting⟩ := h.quiet (eq_false_of_ne_true hquiet)
    have hnone : ∀ {stale : Nat → Prop} {c' : Core} {new : List Entry}, c.Shrinks c' new →
        Offers R stale c' → Offers R (fun _ => False) c' := by
      intro stale c' new hs h'
      refine h'.unstale (fun r a hr hn _ => ?_) (fun w hw _ => absurd (hs.waiting w hw) (hwaiting w))
      cases hdiscarded : r.discarded with
      | true => simp [PendingRequest.mayOffer, hdiscarded]
      | false =>
        rw [hrequests r (hs.holds hr) hdiscarded] at hn
        cases hn
    obtain ⟨_, _, -, -, hs⟩ := c.arrive_shrinks n
    rcases hd with ⟨-, rfl⟩ | rfl
    · exact hnone hs harrived
    obtain ⟨_, _, -, -, hs'⟩ := (Client.arrive n c).resetActions_shrinks
    exact hnone (hs.trans hs') (harrived.resetActions R)

theorem offers_live {R : Bool} (h : Offers R (fun _ => False) c) (n : Notification)
    (hid : n.id < 2 ^ 32) (hallow : allowOffer (.live n) c) (categories : List (Nat × Nat))
    (nextRid rid : Nat) : Offers R (fun _ => False) (((c.arrivedLive n categories nextRid).enqueue
      (Client.probeRequest rid ⟨n, c.serials⟩) false).getD (c.arrivedLive n categories nextRid)) := by
  obtain ⟨hrequests, hwaiting⟩ := Core.not_mayOffer hallow
  obtain ⟨_, _, -, -, hs⟩ := c.arrive_shrinks n
  have harrived : Offers R (fun _ => False) (Client.arrive n c) := by
    refine (h.arrive n hid).unstale (fun r a hr hn hu => ?_) (fun w hw hu => ?_)
    · exact hrequests r a (hs.holds hr) hn (by simp [hu])
    · exact hwaiting w (hs.waiting w hw) (by simp [hu])
  have hlive : Offers R (fun _ => False) (c.arrivedLive n categories nextRid) :=
    { harrived with quiet := nofun }
  cases hqueued : (c.arrivedLive n categories nextRid).enqueue
      (Client.probeRequest rid ⟨n, c.serials⟩) false with
  | none => exact hlive
  | some c' =>
    refine hlive.enqueue hqueued (is_probeRequest rid hid) (fun a ha => by cases ha) ?_
    intro a ha
    cases ha
    exact ⟨rfl, fun _ => fresh_arrive n c⟩

/-- The retried action is still fresh: its offer is there, or it was written just now. -/
theorem fresh_of_retry {R : Bool} (h : Offers R (fun _ => False) c) (hactive : c.active = some r)
    (hallow : allowOffer (.retry r) c
      ∨ ∃ actions earlier, c.log = .wrote r.packet r.action actions :: earlier) (hR : R = false)
    (a : ActionRequest) (ha : r.action = some a) : Fresh a.uid a.serial c.log := by
  rcases hallow with hallow | ⟨actions, earlier, hlog⟩
  · obtain ⟨x, hx, htoken⟩ := hallow a ha
    have hoffer := h.entries x hx
    rw [htoken] at hoffer
    obtain ⟨huid, hserial⟩ := h.unique _ _ _ _ _ hoffer (h.used r (.inr hactive) a ha)
    rw [← huid, ← hserial]
    exact h.offers hR x hx
  · have hcurrent := h.log
    rw [hlog] at hcurrent ⊢
    exact .later id (hcurrent.1.2 a ha).2

theorem offers_move {env : Env} {s s' : Client} (hmove : Move env allowOffer (fun _ _ => True) s s')
    (h : Offers s.tr.notifyRefresh.isSome (fun _ => False) s.core) :
    Offers s'.tr.notifyRefresh.isSome (fun _ => False) s'.core := by
  cases hmove with
  | transport tr htr =>
    rw [htr]
    exact h
  | called callback => exact h.note rfl
  | clear tr _ =>
    exact (h.resetRequests.resetActions false).endSession
      (fun _ => ⟨fun r hr => Core.resetActions_noAction _ hr, by simp⟩)
  | subscribe =>
    exact (h.resetActions false).endSession
      (fun _ => ⟨fun r hr => Core.resetActions_noAction _ hr, by simp⟩)
  | refresh tr htr =>
    refine h.finishActive.endSession (fun hR => ?_)
    rw [htr] at hR
    cases hR
  | reset tr hallow =>
    obtain ⟨hrequests, hwaiting⟩ := Core.not_mayOffer hallow
    obtain ⟨_, _, -, -, hs⟩ := s.core.resetActions_shrinks
    refine (h.resetActions _).unstale (fun r a hr hn _ => ?_) (fun w hw _ => ?_)
    · exact hrequests r a (hs.holds hr) hn rfl
    · exact hwaiting w (hs.waiting w hw) rfl
  | removed n hid _ =>
    refine ((h.arrive n hid).discard (some n.id)).unstale (fun r a _ _ hu => ?_) (fun w _ hu => ?_) <;>
      exact absurd hu.1.symm (by simpa using hu.2)
  | replayed n hid hallow => exact offers_replayed h n hid hallow
  | live n categories nextRid rid hid hallow => exact offers_live h n hid hallow categories nextRid rid
  | askApp r front c hr henqueue =>
    rcases hr with ⟨rid, rfl⟩ | ⟨rid, appId, rfl⟩
    · exact h.enqueue henqueue (is_authorizationProbe rid) (fun a ha => by cases ha)
        (fun a ha => by cases ha)
    exact h.enqueue henqueue (is_appNameRequest rid appId) (fun a ha => by cases ha)
      (fun a ha => by cases ha)
  | write r rest hqueue hfree =>
    have hR : s.tr.notifyRefresh.isSome = false := by
      simp only [Client.isBlocked, Bool.or_eq_false_iff] at hfree
      exact hfree.1.2
    show Offers s.tr.notifyRefresh.isSome _ _
    rw [hR] at h ⊢
    exact h.startWrite hqueue _ _ _
  | retry r writes token n hactive hw _ _ hallow =>
    exact h.retry hactive n writes token (fresh_of_retry h hactive hallow)
  | book _ _ _ _ _ | resume _ | opened w r _ _ | answered writes token _ _ | finish key =>
    exact { h with }
  | deactivate => exact h.deactivate
  | retire uid =>
    refine h.silent ⟨List.Subset.refl _, fun _ hr => hr, fun _ hw => hw, rfl⟩ ?_ rfl rfl
    exact fun x hx => ⟨x, List.mem_of_mem_filter hx, rfl, rfl, rfl⟩
  | unflag uid => exact h.flagOffer uid false
  | emitWaiting w appName hw => exact h.emit env w appName (h.waiting w hw id)
  | forgetWaiting pending hp =>
    refine h.silent ⟨List.Subset.refl _, fun _ hr => hr, ?_, rfl⟩
      (fun x hx => ⟨x, hx, rfl, rfl, rfl⟩) rfl rfl
    rintro w ⟨p, hmem, hw⟩
    exact hp p hmem w hw
  | feed r assembler assembler' data hactive hr _ hfeed => exact h.feed hactive hr hfeed
  | probed r a ev appId observed nextRid _ _ _ _ => exact h.probeAnswered env a appId observed nextRid
  | accepted r a ev appId observed nextRid rid c hanswer hn hp hbody hpolicy henqueue =>
    have hheld : s.core.Holds r := Or.inr hanswer.active
    obtain ⟨k, hk⟩ := h.shaped r hheld
    have hbound := hk.bound a (hk.notification ▸ hn)
    refine (h.probeAnswered env a appId observed nextRid).enqueue henqueue
      (is_fullRequest env rid appId hbound) (fun b hb => by cases hb) ?_
    intro b hb
    cases hb
    refine ⟨?_, fun hmay => ?_⟩
    · show s.core.finishActive.liveEventsSeen = true
      rw [Core.finishActive_liveEventsSeen]
      exact h.live_of_held hheld hanswer.wanted hn
    -- labels are named only where the flags of the event announce them
    refine .later id ?_
    rw [Core.finishActive_log]
    refine h.pending r a hheld hn id ?_
    have hlabels : a.notification.actionLabelIds ≠ [] := by
      intro hnone
      simp [PendingRequest.mayOffer, Client.fullRequest, hnone] at hmay
    cases hids : a.notification.actionLabelIds with
    | nil => exact absurd hids hlabels
    | cons id ids => simp [PendingRequest.mayOffer, hanswer.wanted, hn, hp, hids]
  | emitContent r a attrs cache appName hc =>
    obtain ⟨hlive, hfresh⟩ := h.fresh_of_content hc
    have hf := h.finishActive
    have hcached : Offers s.tr.notifyRefresh.isSome (fun _ => False)
        ({ s.core.finishActive with appNameCache := cache } : Core) :=
      { hf with }
    refine hcached.emit env ⟨attrs, a.serial⟩ appName (fun hlabel => ?_)
    show Fresh attrs.id a.serial s.core.finishActive.log
    rw [Core.finishActive_log]
    exact hfresh hlabel
  | contentWaits r a attrs hc =>
    obtain ⟨hlive, hfresh⟩ := h.fresh_of_content hc
    refine h.finishActive.addWaiting attrs.appId ⟨attrs, a.serial⟩ ?_ (fun hlabel => ?_)
    · rw [Core.finishActive_liveEventsSeen]
      exact hlive
    · show Fresh attrs.id a.serial s.core.finishActive.log
      rw [Core.finishActive_log]
      exact hfresh hlabel
  | perform rid a entry c hentry ha _ henqueue =>
    obtain ⟨htoken, hserial, -⟩ := ha
    have hmem := List.mem_of_find?_eq_some hentry
    have huid : entry.uid = a.uid := by simpa using List.find?_some hentry
    refine (h.enqueue henqueue (is_actionRequest rid a) ?_ (fun b hb => by cases hb)).flagOffer _ _
    intro b hb
    cases hb
    rw [htoken, hserial, ← huid]
    exact ⟨h.entries entry hmem, fun hR => h.offers hR entry hmem⟩

/-! ## Runs -/

/-- The step makes no delicate move that could leave an action or a pending offer behind. -/
def Careful (s : Client) (input : Env × Input) : Prop :=
  ∀ x ∈ s.delicate input, allowOffer x s.core

instance (s : Client) (input : Env × Input) : Decidable (Careful s input) :=
  inferInstanceAs (Decidable (∀ x ∈ s.delicate input, _))

theorem offers_initial (previouslyAuthorized : Bool) :
    Offers (Client.initial previouslyAuthorized).tr.notifyRefresh.isSome (fun _ => False)
      (Client.initial previouslyAuthorized).core := by
  have hheld : ∀ r, ¬ (Client.initial previouslyAuthorized).core.Holds r := by
    rintro r (hr | hr) <;> cases hr
  have hwaits : ∀ w, ¬ (Client.initial previouslyAuthorized).core.IsWaiting w := by
    rintro w ⟨p, hp, -⟩
    cases hp
  refine ⟨fun r hr => absurd hr (hheld r), ?_, ?_, fun r hr => absurd hr (hheld r), ?_, ?_, ?_,
    fun r a hr => absurd hr (hheld r), fun w hw => absurd hw (hwaits w), ?_, ?_, trivial⟩
  · intro _ r hr
    cases hr
  · intro _ x hx
    cases hx
  · intro x hx
    cases hx
  · intro t u n u' n' hu
    cases hu
  · intro t u n hu
    cases hu
  · exact fun _ => ⟨fun r hr => absurd hr (hheld r), hwaits⟩
  · intro u n hu
    cases hu

/-- **Only current actions are performed.** In every run whose steps are all careful, every
`PerformNotificationAction` packet that is handed to `WriteValue` carries an action whose token was
offered for a Notification Source event about its UID, and since that event no other one for the UID
has been processed, no session has ended and the actions have not been reset. This includes an action
that goes back to the queue after a retryable error. -/
theorem performed_only_while_current (previouslyAuthorized : Bool) (inputs : List (Env × Input))
    (hrun : Machine.Along Client.step Careful (Client.initial previouslyAuthorized) inputs) :
    Trace.Each Current
      (Machine.run Client.step (Client.initial previouslyAuthorized) inputs).core.log := by
  have h := invariant_of_moves
    (fun s => Offers s.tr.notifyRefresh.isSome (fun _ => False) s.core) (fun _ _ => True)
    (fun _ => allowOffer) (fun s i hi _ => ⟨trivial, hi⟩)
    (fun env s s' hmove h _ => ⟨offers_move hmove h, trivial⟩) hrun
    (offers_initial previouslyAuthorized)
  exact h.log

/-- A notification with a positive action arrives, its content and the name of its app are asked
for, and the action that is offered for it is used. -/
def performing : List (Env × Input) :=
  connecting ++ [.ns [0, 8, 4, 1, 7, 0, 0, 0], .writeReply 1, .ds [0, 7, 0, 0, 0, 0, 1, 0, 97],
    .writeReply 2, .ds [0, 7, 0, 0, 0, 0, 1, 0, 97, 1, 0, 0, 2, 0, 0, 3, 0, 0, 6, 1, 0, 79],
    .writeReply 3, .ds [1, 97, 0, 0, 1, 0, 78], .perform 7 true 1 0].map (Prod.mk (friendly true))

def inProgress : DBusError where
  name := "org.bluez.Error.InProgress".toList
  message := []
  text := []

/-- The write fails with a retryable error, and is repeated. -/
def retrying : List (Env × Input) :=
  performing ++ [.writeError 4 inProgress, .busyRetry].map (Prod.mk (friendly true))

theorem performed_only_while_current_retry :
    Trace.Each Current (Machine.run Client.step (Client.initial false) retrying).core.log
      ∧ (Machine.run Client.step (Client.initial false) retrying).core.log.countP
        (fun e => e == .wrote (buildPerformNotificationAction 7 true) (some ⟨7, true, 0, 1, 0⟩) true)
          = 2 := by
  constructor
  · apply performed_only_while_current
    decide +kernel
  · decide +kernel

/-- The same, but the notification is removed while the write is under way. -/
def removing : List (Env × Input) :=
  performing ++ [.ns [2, 0, 4, 1, 7, 0, 0, 0], .writeError 4 inProgress, .busyRetry].map
    (Prod.mk (friendly true))

/-- An active action survives the removal of its notification, and is written again. -/
theorem performed_after_removal :
    ¬ ∀ (previouslyAuthorized : Bool) (inputs : List (Env × Input)),
      Trace.Each Current
        (Machine.run Client.step (Client.initial previouslyAuthorized) inputs).core.log := by
  intro hall
  have h := hall false removing
  have hlast : (Machine.run Client.step (Client.initial false) removing).core.log.head?
      = some (.wrote (buildPerformNotificationAction 7 true) (some ⟨7, true, 0, 1, 0⟩) true) := by
    decide +kernel
  have hstale : ¬ Fresh 7 0
      (Machine.run Client.step (Client.initial false) removing).core.log.tail := by decide +kernel
  obtain ⟨earlier, hlog⟩ := List.head?_eq_some_iff.mp hlast
  rw [hlog] at h hstale
  exact hstale (h.1.2 _ rfl).2

end BlueFerry.Ancs
