import BlueFerry.Ancs.Watch

/-! # What the client asks for

The content of a notification is asked for, and an event is made of it, only after a probe for the
app identifier alone has been answered with an app that the policy accepts, and only while nothing
has invalidated that notification since.

Action labels are part of the content request. The opt-in is read when the request is made, and the
packet is written later: when the opt-in is switched off in between, the labels are still asked for.
-/

namespace BlueFerry.Ancs

open BlueFerry.Text

/-! ## The property -/

/-- The entry ends the validity of what is known about the notification. -/
def Invalidates (uid : Nat) (e : Entry) : Prop :=
  e = .invalidated none ∨ e = .invalidated (some uid)

/-- The app identifier of the notification, and nothing else, was asked for. -/
def Asked (uid : Nat) : List Entry → Prop :=
  Trace.Since (Invalidates uid) (fun e _ => ∃ packet actions, e = .wrote packet none actions
    ∧ requested packet = some (uid, [NotificationAttributeID.appIdentifier]))

/-- The answer to such a probe was this app, and the policy accepted it. Where labels are asked for,
actions were opted in and the app is not Messages. -/
def Approved (uid : Nat) (appId : Str) (labels : Prop) : List Entry → Prop :=
  Trace.Since (Invalidates uid) (fun e earlier => ∃ includeNonMessage includeApp actions,
    e = .probed uid appId includeNonMessage includeApp actions
      ∧ policyAccepts includeNonMessage includeApp appId = true
      ∧ (labels → actions = true ∧ appId ≠ messagesAppId) ∧ Asked uid earlier)

/-- The attributes include an action label. -/
def NamesLabel (ids : List UInt8) : Prop := ∃ id ∈ ids, id ∈ actionLabelAttributeIds

/-- **The privacy promise**, for one entry of the log and what was before it. The strict promise
includes that labels are asked for only while actions are opted in. -/
def Respects (strict : Prop) : Entry → List Entry → Prop
  | .wrote packet _ actions, earlier =>
    ∀ uid ids, requested packet = some (uid, ids) →
      (∃ id ∈ ids, id ≠ NotificationAttributeID.appIdentifier) →
      ∃ appId, Approved uid appId (NamesLabel ids) earlier
        ∧ (strict → NamesLabel ids → actions = true)
  | .emitted event, earlier => Approved event.notificationId event.appId False earlier
  | _, _ => True

theorem respects_of_neutral {strict : Prop} {e : Entry} (h : e.neutral = true)
    (earlier : List Entry) : Respects strict e earlier := by
  cases e with
  | wrote packet action actions => cases h
  | emitted event => cases h
  | _ => trivial

/-! ## The invariant -/

/-- Everything that is queued, active or waiting is backed by the log. -/
structure Private (strict : Prop) (c : Core) : Prop where
  shaped : ∀ r, c.Holds r → ∃ k, r.Is k
  wanted : ∀ r ∈ c.queue, r.discarded = false
  content : ∀ r a appId, c.Holds r → r.discarded = false → r.notification = some a →
    r.expectedAppId = some appId → Approved a.notification.id appId (r.actionLabelIds ≠ []) c.log
  asked : ∀ r a, c.active = some r → r.discarded = false → r.notification = some a →
    r.appProbe = true → Asked a.notification.id c.log
  waiting : ∀ w, c.IsWaiting w → Approved w.attrs.id w.attrs.appId False c.log
  log : Trace.Each (Respects strict) c.log

variable {r : PendingRequest}

namespace Private

variable {strict : Prop} {heard : PendingRequest → Bytes → Prop} {c c' : Core}

/-- A notification that was not discarded is another one. -/
theorem not_invalidates_of_kept {uid : Option Nat} {a : Arrival} (hn : r.notification = some a)
    (hkept : Core.isAbout uid r = false) : ¬ Invalidates a.notification.id (.invalidated uid) := by
  unfold Core.isAbout at hkept
  rw [hn] at hkept
  rintro (he | he)
  all_goals
    cases he
    simp at hkept

/-- The label ids that a content request names are those it was made with. -/
theorem namesLabel_iff (labels : LabelIds) :
    NamesLabel ([NotificationAttributeID.appIdentifier, NotificationAttributeID.title,
      NotificationAttributeID.subtitle, NotificationAttributeID.message] ++ labels.ids)
      ↔ labels.ids ≠ [] := by
  constructor
  · rintro ⟨id, hid, hlabel⟩ hnone
    rw [hnone, List.append_nil] at hid
    simp only [List.mem_cons, List.not_mem_nil, or_false] at hid
    rcases hid with rfl | rfl | rfl | rfl <;> revert hlabel <;> decide
  · intro hsome
    obtain ⟨id, hid⟩ := List.exists_mem_of_ne_nil _ hsome
    exact ⟨id, List.mem_append_right _ hid, labels.supported id hid⟩

/-- **Writing the head of the queue respects the promise**, if no label is asked for against the
opt-in. -/
theorem respects_wrote (h : Private strict c) {rest : List PendingRequest}
    (hqueue : c.queue = r :: rest) (actions : Bool)
    (hlabels : strict → r.actionLabelIds ≠ [] → actions = true) :
    Respects strict (.wrote r.packet r.action actions) c.log := by
  have hmem : r ∈ c.queue := by rw [hqueue]; exact .head _
  obtain ⟨k, hk⟩ := h.shaped r (.inl hmem)
  intro uid ids hrequested hcontent
  rw [hk.packet] at hrequested
  cases k with
  | probe a =>
    rw [Kind.packet, requested_appIdentifier (hk.bound a rfl)] at hrequested
    cases hrequested
    obtain ⟨id, hid, hne⟩ := hcontent
    exact absurd (List.mem_singleton.mp hid) hne
  | content a appId labels =>
    rw [Kind.packet, requested_attributes (hk.bound a rfl)] at hrequested
    cases hrequested
    have happroved := h.content r a appId (.inl hmem) (h.wanted r hmem) hk.notification hk.expected
    rw [hk.labels] at happroved
    refine ⟨appId, ?_, fun hstrict hnames => hlabels hstrict ?_⟩
    · rw [namesLabel_iff]
      exact happroved
    · rw [hk.labels]
      exact (namesLabel_iff labels).mp hnames
  | authorization | appName appId =>
    rw [Kind.packet, requested_appAttributes] at hrequested
    cases hrequested
  | action a => cases hrequested

/-- **An accepted probe approves the content request that follows it.** -/
theorem approved_of_answer (h : Private strict c) {env : Env} {a : Arrival} {ev : DataSourceEvent}
    {appId : Str} (hanswer : Answered heard c r ev) (hn : r.notification = some a)
    (hp : r.appProbe = true)
    (hpolicy : policyAccepts env.includeNonMessageNotifications
      (env.includeAppNotification appId) appId = true) (observed : List Str) (nextRid rid : Nat) :
    Approved a.notification.id appId ((Client.fullRequest env rid a appId).actionLabelIds ≠ [])
      (c.probeAnswered env a appId observed nextRid).log := by
  refine .here ⟨_, _, _, rfl, hpolicy, ?_, ?_⟩
  · intro hlabels
    simp only [Client.fullRequest, ne_eq, ite_eq_right_iff, Bool.and_eq_true, bne_iff_ne,
      Classical.not_imp] at hlabels
    exact hlabels.1
  · rw [Core.finishActive_log]
    exact h.asked r a hanswer.active hanswer.wanted hn hp

/-- The content that answers the active request was approved. -/
theorem approved_of_content (h : Private strict c) {a : Arrival} {attrs : NotificationAttributes}
    (hc : ContentAnswered heard c r a attrs) : Approved attrs.id attrs.appId False c.log := by
  obtain ⟨ev, hanswer, -⟩ := hc.answered
  obtain ⟨k, hk⟩ := h.shaped r (.inr hanswer.active)
  obtain ⟨hid, -⟩ := hk.contentAnswered hc
  have happroved := h.content r a attrs.appId (.inr hanswer.active) hanswer.wanted hc.notification
    hc.expected.symm
  rw [hid]
  refine Trace.Since.mono ?_ happroved
  rintro e earlier ⟨inm, ia, actions, he, hpolicy, -, hasked⟩
  exact ⟨inm, ia, actions, he, hpolicy, False.elim, hasked⟩

/-- The facts that are about one request, one waiting notification and one entry. -/
def watch (strict : Prop) : Watch where
  base := fun _ => True
  held := fun c r => (∃ k, r.Is k) ∧ (r.discarded = false → ∀ a appId, r.notification = some a →
    r.expectedAppId = some appId → Approved a.notification.id appId (r.actionLabelIds ≠ []) c.log)
  sent := fun c r => r.discarded = false → ∀ a, r.notification = some a → r.appProbe = true →
    Asked a.notification.id c.log
  waits := fun c attrs => Approved attrs.id attrs.appId False c.log
  entry := Respects strict

theorem watch_on : (watch strict).On c ↔ Private strict c := by
  constructor
  · intro h
    exact ⟨fun r hr => (h.held r hr).1, h.wanted, fun r a appId hr hw => (h.held r hr).2 hw a appId,
      fun r a hr hw => h.sent r hr hw a, h.waits, h.log⟩
  · intro h
    exact ⟨trivial, h.wanted, fun r hr => ⟨h.shaped r hr, fun hw a appId => h.content r a appId hr hw⟩,
      fun r hr hw a => h.asked r a hr hw, h.waiting, h.log⟩

theorem lawful_watch (strict : Prop) : (watch strict).Lawful := by
  -- what is known about a notification outlives the entries that do not invalidate it
  have hgoes : ∀ {c c' : Core} {new : List Entry}, c.Goes c' new →
      ∀ uid, ∀ e ∈ new, ¬ Invalidates uid e := by
    rintro c c' new hg uid e he (rfl | rfl)
    · exact hg.valid _ he none rfl
    · exact hg.valid _ he (some uid) rfl
  refine {
    base := fun _ h => h
    held := ?_, sent := ?_, waits := ?_, heldKept := ?_, sentKept := ?_, waitsKept := ?_,
    retired := ?_, drained := ?_, retried := ?_, fed := ?_, plain := ?_
    neutral := fun he => respects_of_neutral he _
    invalidated := trivial
    shows := ?_ }
  · intro c c' new r hg hr
    refine ⟨hr.1, fun hw a appId hn he => ?_⟩
    rw [hg.log]
    exact (hr.2 hw a appId hn he).append (hgoes hg _)
  · intro c c' new r hg hr hw a hn hp
    rw [hg.log]
    exact (hr hw a hn hp).append (hgoes hg _)
  · intro c c' new attrs hg hattrs
    show Approved _ _ _ c'.log
    rw [hg.log]
    exact Trace.Since.append hattrs (hgoes hg _)
  · intro c c' uid r hg hkept hr
    refine ⟨hr.1, fun hw a appId hn he => ?_⟩
    have hkept := hkept.resolve_right (by simp [hw])
    rw [hg.log]
    exact .later (not_invalidates_of_kept hn hkept) (hr.2 hw a appId hn he)
  · intro c c' uid r hg hkept hr hw a hn hp
    rw [hg.log]
    exact .later (not_invalidates_of_kept hn hkept) (hr hw a hn hp)
  · intro c c' uid attrs hg hkept hattrs
    show Approved _ _ _ c'.log
    rw [hg.log]
    refine .later ?_ hattrs
    rintro (he | he)
    all_goals
      cases he
      simp at hkept
  · rintro c r ⟨⟨k, hk⟩, -⟩
    exact ⟨⟨k, hk.retired⟩, fun hw => by cases hw⟩
  · intro c r hdiscarded hw
    rw [hw] at hdiscarded
    cases hdiscarded
  · rintro c r n ⟨⟨k, hk⟩, hcontent⟩
    exact ⟨⟨k, hk.retried n⟩, hcontent⟩
  · rintro c r assembler assembler' data hr hfeed ⟨⟨⟨k, hk⟩, hcontent⟩, hasked⟩
    exact ⟨⟨⟨k, hk.fed hr hfeed⟩, hcontent⟩, hasked⟩
  · intro c r k hk hn
    exact ⟨⟨k, hk⟩, fun _ a appId hn' _ => by simp [hn] at hn'⟩
  · intro c attrs event hattrs hshows
    show Approved event.notificationId event.appId False c.log
    rw [hshows.1, hshows.2.1]
    exact hattrs

end Private

/-! ## The moves -/

/-- No label request is queued against the opt-in. -/
def NoLabels (env : Env) (c : Core) : Prop :=
  env.notificationActions = false → ∀ r ∈ c.queue, r.actionLabelIds = []

instance (env : Env) (c : Core) : Decidable (NoLabels env c) :=
  inferInstanceAs (Decidable (_ = _ → ∀ r ∈ c.queue, _ = _))

/-- While a step lasts, such a request can only be one that a busy retry holds back. -/
def LabelsHeld (strict : Prop) (env : Env) (c : Core) : Prop :=
  strict → NoLabels env c ∨ c.busyRetry = true

/-- The busy-retry timer may release nothing but requests without labels. -/
def allowResume (strict : Prop) (env : Env) : Delicate → Core → Prop
  | .busyRetryDue, c => strict → NoLabels env c
  | _, _ => True

theorem private_move {strict : Prop} {env : Env} {heard : PendingRequest → Bytes → Prop}
    {s s' : Client}
    (hmove : Move env (allowResume strict env) heard s s') (h : Private strict s.core)
    (hheld : LabelsHeld strict env s.core) : Private strict s'.core := by
  refine Private.watch_on.mp ((Private.watch_on.mpr h).move (Private.lawful_watch strict) hmove ?_ ?_ ?_ ?_)
  · exact fun n categories nextRid rid hid =>
      ⟨⟨_, is_probeRequest rid hid⟩, fun _ a appId _ he => by cases he⟩
  · intro r a ev appId observed nextRid rid hanswer hn hp hpolicy
    obtain ⟨k, hk⟩ := h.shaped r (.inr hanswer.active)
    have hbound := hk.bound a (hk.notification ▸ hn)
    refine ⟨⟨_, is_fullRequest env rid appId hbound⟩, fun _ b app hb happ => ?_⟩
    cases hb
    cases happ
    exact h.approved_of_answer hanswer hn hp hpolicy observed nextRid rid
  · intro r rest hqueue hfree
    have hmem : r ∈ s.core.queue := by rw [hqueue]; exact .head _
    constructor
    · refine h.respects_wrote hqueue _ (fun hstrict hlabels => ?_)
      -- a busy retry would have held the request back
      have hidle : s.core.busyRetry = false := by
        simp only [Client.isBlocked, Bool.or_eq_false_iff] at hfree
        exact hfree.1.1.2
      rcases hheld hstrict with hnone | hbusy
      · by_contra hoff
        exact hlabels (hnone (eq_false_of_ne_true hoff) r hmem)
      rw [hidle] at hbusy
      cases hbusy
    intro _ a hn hp
    obtain ⟨k, hk⟩ := h.shaped r (.inl hmem)
    obtain rfl := hk.probe_of hn hp
    -- the probe is the packet that is written
    refine .here ⟨r.packet, env.notificationActions, by rw [hk.action]; rfl, ?_⟩
    rw [hk.packet]
    exact requested_appIdentifier (hk.bound a rfl)
  · exact fun r a attrs hc => h.approved_of_content hc

namespace LabelsHeld

variable {strict : Prop} {env : Env} {c c' : Core}

section

variable (h : LabelsHeld strict env c)
include h

theorem less (hqueue : c'.queue ⊆ c.queue)
    (hbusy : c'.busyRetry = c.busyRetry) : LabelsHeld strict env c' := by
  intro hstrict
  rcases h hstrict with hnone | hheld
  · exact .inl (fun hoff r hr => hnone hoff r (hqueue hr))
  · exact .inr (hbusy.trans hheld)

theorem resetActions : LabelsHeld strict env c.resetActions := by
  obtain ⟨after, before, -, -, hs⟩ := c.resetActions_shrinks
  exact h.less hs.queue c.resetActions_busyRetry

theorem arrive (n : Notification) : LabelsHeld strict env (Client.arrive n c) := by
  obtain ⟨after, before, -, -, hs⟩ := c.arrive_shrinks n
  exact h.less hs.queue (c.arrive_busyRetry n)

theorem finishActive : LabelsHeld strict env c.finishActive :=
  h.less c.finishActive_shrinks.queue c.finishActive_busyRetry

theorem endSession : LabelsHeld strict env c.endSession :=
  h.less c.endSession_queue_subset c.endSession_busyRetry

theorem discard (uid : Option Nat) : LabelsHeld strict env (c.discardNotificationRequests uid) :=
  h.less (fun r hr => ((c.discards_discardNotificationRequests uid).queue r hr).1)
    (c.discardNotificationRequests_busyRetry uid)

theorem emit (w : Waiting) (appName : Str) : LabelsHeld strict env (c.emit env w appName) := by
  obtain ⟨event, -, -, heq | ⟨-, offer, -, heq⟩⟩ := c.emit_cases env w appName
  all_goals
    rw [heq]
    exact h

/-- A request without labels is queued. -/
theorem enqueue {front : Bool} (henqueue : c.enqueue r front = some c')
    (hr : env.notificationActions = false → r.actionLabelIds = []) : LabelsHeld strict env c' := by
  intro hstrict
  rcases h hstrict with hnone | hheld
  · refine .inl (fun hoff x hx => ?_)
    rcases Core.enqueue_mem henqueue hx with rfl | hx
    · exact hr hoff
    · exact hnone hoff x hx
  · rw [Core.enqueue_eq henqueue]
    exact .inr hheld

end

end LabelsHeld

/-- Label requests enter the queue only under the opt-in or behind a busy retry. -/
theorem labelsHeld_move {strict : Prop} {env : Env} {heard : PendingRequest → Bytes → Prop}
    {s s' : Client} (hmove : Move env (allowResume strict env) heard s s')
    (h : LabelsHeld strict env s.core) : LabelsHeld strict env s'.core := by
  cases hmove with
  | resume hallow => exact fun hstrict => .inl (hallow hstrict)
  | clear tr _ =>
    have hempty : LabelsHeld strict env s.core.resetRequests := by
      refine fun _ => .inl (fun _ r hr => ?_)
      rw [Core.resetRequests_queue] at hr
      cases hr
    exact hempty.resetActions.endSession
  | subscribe => exact h.resetActions.endSession
  | refresh tr _ => exact h.finishActive.endSession
  | reset tr _ => exact h.resetActions
  | removed n _ _ => exact (h.arrive n).discard (some n.id)
  | replayed n _ _ =>
    obtain ⟨d, hd, heq⟩ := (Client.arrive n s.core).replay_cases
    have hd : LabelsHeld strict env d := by
      rcases hd with ⟨-, rfl⟩ | rfl
      · exact h.arrive n
      · exact (h.arrive n).resetActions
    show LabelsHeld strict env (Client.replay (Client.arrive n s.core))
    rw [heq]
    split
    · exact hd.endSession
    · exact hd
  | live n categories nextRid rid hid _ =>
    have hlive : LabelsHeld strict env (s.core.arrivedLive n categories nextRid) := h.arrive n
    show LabelsHeld strict env (((s.core.arrivedLive n categories nextRid).enqueue
      (Client.probeRequest rid ⟨n, s.core.serials⟩) false).getD _)
    cases hqueued : (s.core.arrivedLive n categories nextRid).enqueue
        (Client.probeRequest rid ⟨n, s.core.serials⟩) false with
    | none => exact hlive
    | some c => exact hlive.enqueue hqueued (fun _ => rfl)
  | askApp r front c hr henqueue =>
    refine h.enqueue henqueue (fun _ => ?_)
    rcases hr with ⟨rid, rfl⟩ | ⟨rid, appId, rfl⟩ <;> rfl
  | write r rest hqueue _ =>
    refine h.less (fun x hx => ?_) rfl
    rw [hqueue]
    exact .tail _ hx
  | retry r writes token n hactive hw _ _ _ =>
    show LabelsHeld strict env (Client.pushFront _ _)
    unfold Client.pushFront
    split
    · exact fun _ => .inr rfl
    · exact h
  | emitWaiting w appName _ => exact h.emit w appName
  | transport tr _ | called callback | book _ _ _ _ _ | opened w r _ _
    | answered writes token _ _ | finish key | deactivate | retire uid | unflag uid
    | forgetWaiting pending _ | feed r assembler assembler' data _ _ _ => exact h
  | accepted r a ev appId observed nextRid rid c _ _ _ _ _ henqueue =>
    have hprobed : LabelsHeld strict env (s.core.probeAnswered env a appId observed nextRid) :=
      h.finishActive
    exact hprobed.enqueue henqueue (fun hoff => by simp [Client.fullRequest, hoff])
  | emitContent r a attrs cache appName _ =>
    have hcached : LabelsHeld strict env ({ s.core.finishActive with appNameCache := cache } : Core) :=
      h.finishActive
    exact hcached.emit _ _
  | probed r a ev appId observed nextRid _ _ _ _ | contentWaits r a attrs _ => exact h.finishActive
  | perform rid a entry c _ _ _ henqueue =>
    have hqueued := h.enqueue henqueue (fun _ => rfl)
    exact hqueued

/-! ## Runs -/

theorem private_initial (strict : Prop) (previouslyAuthorized : Bool) :
    Private strict (Client.initial previouslyAuthorized).core := by
  refine ⟨?_, ?_, ?_, ?_, ?_, trivial⟩
  · rintro r (hr | hr) <;> cases hr
  · intro r hr
    cases hr
  · rintro r a appId (hr | hr) <;> cases hr
  · intro r a hr
    cases hr
  · rintro w ⟨p, hp, -⟩
    cases hp

/-- The promise is kept along every run that meets the condition of the strict one, if it is the
strict one. -/
theorem private_run (strict : Prop) (previouslyAuthorized : Bool) {inputs : List (Env × Input)}
    (hrun : Machine.Along Client.step (fun s i => strict → NoLabels i.1 s.core)
      (Client.initial previouslyAuthorized) inputs) :
    Private strict (Machine.run Client.step (Client.initial previouslyAuthorized) inputs).core := by
  refine invariant_of_moves (fun s => Private strict s.core)
    (fun env s => LabelsHeld strict env s.core) (allowResume strict) ?_ ?_ hrun
    (private_initial strict previouslyAuthorized)
  · intro s i hok _
    refine ⟨fun hstrict => .inl (hok hstrict), fun x _ => ?_⟩
    cases x with
    | busyRetryDue => exact hok
    | _ => trivial
  · intro env s s' hmove hprivate hheld
    exact ⟨private_move hmove hprivate hheld, labelsHeld_move hmove hheld⟩

/-- **Content is asked for, and events are emitted, only as the policy allows.** In every run, a
packet that asks for more than the app identifier of a notification is written only after a probe
for that identifier alone was answered with an app that the policy accepted, and nothing has
invalidated the notification since; every event is backed in the same way, with the app identifier
that was probed; and labels are never asked for Messages, nor unless actions were opted in when the
request was made. In a run that never takes a step with the opt-in switched off and a label request
still queued, labels are also written only while actions are opted in. -/
theorem content_only_as_approved (previouslyAuthorized : Bool) (inputs : List (Env × Input)) :
    Trace.Each (Respects False)
        (Machine.run Client.step (Client.initial previouslyAuthorized) inputs).core.log
      ∧ (Machine.Along Client.step (fun s i => NoLabels i.1 s.core)
          (Client.initial previouslyAuthorized) inputs →
        Trace.Each (Respects True)
          (Machine.run Client.step (Client.initial previouslyAuthorized) inputs).core.log) := by
  constructor
  · have hall := Machine.along_of_forall Client.step
      (fun s i => (False.elim : False → NoLabels i.1 s.core))
      (Client.initial previouslyAuthorized) inputs
    exact (private_run False previouslyAuthorized hall).log
  · intro hrun
    exact (private_run True previouslyAuthorized (hrun.mono Client.step (fun _ _ h _ => h))).log

/-- A notification with a positive action arrives, and the answer to its probe comes before BlueZ
has answered the write. -/
def probing : List (Env × Input) :=
  connecting ++ [.ns [0, 8, 4, 1, 7, 0, 0, 0], .ds [0, 7, 0, 0, 0, 0, 1, 0, 97]].map
    (Prod.mk (friendly true))

/-- Then the write is answered, and the content is asked for with its label. -/
def asking : List (Env × Input) := probing ++ [(friendly true, .writeReply 1)]

theorem content_only_as_approved_labels :
    Trace.Each (Respects True) (Machine.run Client.step (Client.initial false) asking).core.log
      ∧ Entry.wrote (buildGetNotificationAttributes 7 [6]) none true
        ∈ (Machine.run Client.step (Client.initial false) asking).core.log := by
  constructor
  · apply (content_only_as_approved false asking).2
    decide +kernel
  · decide +kernel

/-- Or the opt-in is switched off before the write is answered. -/
def optingOut : List (Env × Input) :=
  probing ++ [(friendly false, .actionsChanged), (friendly false, .writeReply 1)]

/-- The label of a request that waited for the reply is asked for although actions are not opted in
any more. -/
theorem labels_written_after_opt_out :
    ¬ ∀ (previouslyAuthorized : Bool) (inputs : List (Env × Input)),
      Trace.Each (Respects True)
        (Machine.run Client.step (Client.initial previouslyAuthorized) inputs).core.log := by
  intro hall
  have h := hall false optingOut
  have hlast : (Machine.run Client.step (Client.initial false) optingOut).core.log.head?
      = some (.wrote (buildGetNotificationAttributes 7 [6]) none false) := by decide +kernel
  obtain ⟨earlier, hlog⟩ := List.head?_eq_some_iff.mp hlast
  rw [hlog] at h
  obtain ⟨appId, -, hlabels⟩ := h.1 7 [0, 1, 2, 3, 6] (by decide) ⟨1, by decide, by decide⟩
  exact absurd (hlabels trivial ⟨6, by decide, by decide⟩) (by decide)

end BlueFerry.Ancs
