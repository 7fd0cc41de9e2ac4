import BlueFerry.Ancs.Assembler
import BlueFerry.Ancs.Effects

/-! # The kinds of requests

A request in the backlog is of one of five kinds, and its packet, its assembler and what it
remembers follow from the kind: only the bytes received, the key, the number of retries and the mark
of a discarded request change. The packets are decoded here as the phone decodes them, so that the
theorems can speak of the bytes that are written.
-/

namespace BlueFerry.Ancs

open BlueFerry.Text

/-! ## What a packet asks for -/

/-- The attributes named in a request; title, subtitle and message carry a maximal length. -/
def requestedIds : Bytes → List UInt8
  | [] => []
  | id :: rest =>
    if id = NotificationAttributeID.title ∨ id = NotificationAttributeID.subtitle
        ∨ id = NotificationAttributeID.message then
      match rest with
      | _ :: _ :: rest => id :: requestedIds rest
      | _ => [id]
    else id :: requestedIds rest

/-- A packet that asks for attributes of a notification: its id and the attributes. -/
def requested : Bytes → Option (Nat × List UInt8)
  | command :: b₀ :: b₁ :: b₂ :: b₃ :: rest =>
    if command = CommandID.getNotificationAttributes
    then some (u32le b₀ b₁ b₂ b₃, requestedIds rest) else none
  | _ => none

/-- A packet that performs an action on a notification: its id. -/
def performed : Bytes → Option Nat
  | command :: b₀ :: b₁ :: b₂ :: b₃ :: _ =>
    if command = CommandID.performNotificationAction then some (u32le b₀ b₁ b₂ b₃) else none
  | _ => none

theorem u32le_packU32 {n : Nat} (h : n < 2 ^ 32) :
    u32le (UInt8.ofNat (n % 256)) (UInt8.ofNat (n / 256 % 256)) (UInt8.ofNat (n / 65536 % 256))
      (UInt8.ofNat (n / 16777216 % 256)) = n := by
  unfold u32le
  simp only [UInt8.toNat_ofNat']
  omega

theorem requestedIds_labels {ids : List UInt8} (h : ∀ id ∈ ids, id ∈ actionLabelAttributeIds) :
    requestedIds ids = ids := by
  induction ids with
  | nil => rfl
  | cons id ids ih =>
    have hid : id = 6 ∨ id = 7 := by
      simpa [actionLabelAttributeIds, NotificationAttributeID.positiveActionLabel,
        NotificationAttributeID.negativeActionLabel] using h id (by simp)
    have hplain : ¬ (id = NotificationAttributeID.title ∨ id = NotificationAttributeID.subtitle
        ∨ id = NotificationAttributeID.message) := by
      rcases hid with rfl | rfl <;> decide
    rw [requestedIds.eq_def]
    simp only [if_neg hplain]
    rw [ih (fun x hx => h x (List.mem_cons_of_mem _ hx))]

theorem requested_appIdentifier {uid : Nat} (h : uid < 2 ^ 32) :
    requested (buildGetNotificationAppIdentifier uid)
      = some (uid, [NotificationAttributeID.appIdentifier]) := by
  have hu := u32le_packU32 h
  simp [buildGetNotificationAppIdentifier, packU32, requested, hu]
  decide

theorem requested_attributes {uid : Nat} (h : uid < 2 ^ 32) (labels : LabelIds) :
    requested (buildGetNotificationAttributes uid labels.ids)
      = some (uid, [NotificationAttributeID.appIdentifier, NotificationAttributeID.title,
          NotificationAttributeID.subtitle, NotificationAttributeID.message] ++ labels.ids) := by
  have hu := u32le_packU32 h
  have hl := requestedIds_labels labels.supported
  simp [buildGetNotificationAttributes, packU32, packU16, requested, hu, requestedIds, hl,
    NotificationAttributeID.appIdentifier, NotificationAttributeID.title,
    NotificationAttributeID.subtitle, NotificationAttributeID.message]

theorem requested_appAttributes (appId : Str) : requested (buildGetAppAttributes appId) = none := by
  unfold buildGetAppAttributes requested
  split
  · rename_i command _ _ _ _ _ h
    have hcommand : CommandID.getAppAttributes = command := by
      have := congrArg List.head? h
      simpa using this
    rw [← hcommand]
    rfl
  · rfl

theorem performed_perform {uid : Nat} (h : uid < 2 ^ 32) (positive : Bool) :
    performed (buildPerformNotificationAction uid positive) = some uid := by
  have hu := u32le_packU32 h
  simp [buildPerformNotificationAction, packU32, performed, hu]

theorem performed_appAttributes (appId : Str) : performed (buildGetAppAttributes appId) = none := by
  unfold buildGetAppAttributes performed
  split
  · rename_i command _ _ _ _ _ h
    have hcommand : CommandID.getAppAttributes = command := by
      have := congrArg List.head? h
      simpa using this
    rw [← hcommand]
    rfl
  · rfl

/-- A response without label attributes has no labels. -/
theorem NotificationAttributes.labels_of_parse {body : Bytes} {attrs : NotificationAttributes}
    (h : NotificationAttributes.parse body [] = .ok attrs) :
    attrs.positiveActionLabel = [] ∧ attrs.negativeActionLabel = [] := by
  unfold NotificationAttributes.parse at h
  split at h
  · simp only [parseLabels, bind, Except.bind] at h
    repeat' split at h
    all_goals first | cases h; exact ⟨rfl, rfl⟩ | cases h
  · cases h

/-! ## The kinds -/

/-- What a request is for. -/
inductive Kind where
  | authorization
  | probe (a : Arrival)
  | content (a : Arrival) (appId : Str) (labels : LabelIds)
  | appName (appId : Str)
  | action (a : ActionRequest)

namespace Kind

def packet : Kind → Bytes
  | authorization => buildGetAppAttributes messagesAppId
  | probe a => buildGetNotificationAppIdentifier a.notification.id
  | content a _ labels => buildGetNotificationAttributes a.notification.id labels.ids
  | appName appId => buildGetAppAttributes appId
  | action a => buildPerformNotificationAction a.uid a.positive

/-- The response that it waits for on the Data Source. -/
def request : Kind → Option Request
  | authorization => some (.appAttributes messagesAppId)
  | probe a => some (.appIdentifier a.notification.id)
  | content a _ labels => some (.attributes a.notification.id labels)
  | appName appId => some (.appAttributes appId)
  | action _ => none

def arrival : Kind → Option Arrival
  | probe a => some a
  | content a _ _ => some a
  | _ => none

def isProbe : Kind → Bool
  | probe _ => true
  | _ => false

def expectedAppId : Kind → Option Str
  | content _ appId _ => some appId
  | _ => none

def labelIds : Kind → List UInt8
  | content _ _ labels => labels.ids
  | _ => []

def actionOf : Kind → Option ActionRequest
  | action a => some a
  | _ => none

end Kind

/-- The request is of the kind. -/
structure PendingRequest.Is (r : PendingRequest) (k : Kind) : Prop where
  packet : r.packet = k.packet
  assembler : ∃ buffer, r.assembler = k.request.map (·.assembler buffer)
  notification : r.notification = k.arrival
  appProbe : r.appProbe = k.isProbe
  expected : r.expectedAppId = k.expectedAppId
  labels : r.actionLabelIds = k.labelIds
  action : r.action = k.actionOf
  bound : ∀ a, k.arrival = some a → a.notification.id < 2 ^ 32

theorem is_authorizationProbe (rid : Nat) : (Client.authorizationProbe rid).Is .authorization :=
  ⟨rfl, ⟨[], rfl⟩, rfl, rfl, rfl, rfl, rfl, fun _ h => by cases h⟩

theorem is_appNameRequest (rid : Nat) (appId : Str) :
    (Client.appNameRequest rid appId).Is (.appName appId) :=
  ⟨rfl, ⟨[], rfl⟩, rfl, rfl, rfl, rfl, rfl, fun _ h => by cases h⟩

theorem is_probeRequest (rid : Nat) {a : Arrival} (h : a.notification.id < 2 ^ 32) :
    (Client.probeRequest rid a).Is (.probe a) :=
  ⟨rfl, ⟨[], rfl⟩, rfl, rfl, rfl, rfl, rfl, fun b hb => by cases hb; exact h⟩

theorem is_actionRequest (rid : Nat) (a : ActionRequest) :
    (Client.actionRequest rid a).Is (.action a) :=
  ⟨rfl, ⟨[], rfl⟩, rfl, rfl, rfl, rfl, rfl, fun _ h => by cases h⟩

/-- The labels that the flags of a notification announce. -/
def Notification.labels (n : Notification) : LabelIds where
  ids := n.actionLabelIds
  supported := by
    intro id hid
    simp only [Notification.actionLabelIds, List.mem_append] at hid
    rcases hid with hid | hid
    all_goals
      split at hid
      · simp_all [actionLabelAttributeIds]
      · simp at hid
  nodup := by
    unfold Notification.actionLabelIds
    split <;> split <;> decide

def LabelIds.none : LabelIds where
  ids := []
  supported := by simp
  nodup := List.nodup_nil

/-- The labels of a content request. -/
def askedLabels (env : Env) (a : Arrival) (appId : Str) : LabelIds :=
  if env.notificationActions && appId != messagesAppId then a.notification.labels else .none

theorem is_fullRequest (env : Env) (rid : Nat) {a : Arrival} (appId : Str)
    (h : a.notification.id < 2 ^ 32) :
    (Client.fullRequest env rid a appId).Is (.content a appId (askedLabels env a appId)) := by
  have hlabels : (askedLabels env a appId).ids = (if env.notificationActions && appId != messagesAppId
      then a.notification.actionLabelIds else []) := by
    unfold askedLabels
    split <;> rfl
  refine ⟨?_, ⟨[], ?_⟩, rfl, rfl, rfl, ?_, rfl, fun b hb => by cases hb; exact h⟩
  · show buildGetNotificationAttributes _ _ = buildGetNotificationAttributes _ _
    rw [hlabels]
  · simp only [Client.fullRequest, Kind.request, Option.map_some, Request.assembler,
      Request.attributeIds, hlabels, Request.command, Request.notificationId, Request.appId]
  · exact hlabels.symm

/-! ## What happens to a request -/

namespace PendingRequest.Is

variable {r : PendingRequest} {k : Kind}

theorem retired (h : r.Is k) : ({ r with discarded := true, key := .retired r.key }).Is k :=
  { h with }

theorem retried (h : r.Is k) (n : Nat) : ({ r with busyRetries := n }).Is k := { h with }

theorem fed (h : r.Is k) {assembler assembler' : DataSourceAssembler} {data : Bytes}
    (hr : r.assembler = some assembler) (hfeed : assembler.feed data = (assembler', .ok none)) :
    ({ r with assembler := some assembler' }).Is k := by
  refine { h with assembler := ?_ }
  obtain ⟨buffer, hbuffer⟩ := h.assembler
  rw [hr] at hbuffer
  cases hk : k.request with
  | none => simp [hk] at hbuffer
  | some request =>
    rw [hk, Option.map_some, Option.some.injEq] at hbuffer
    refine ⟨buffer ++ data, ?_⟩
    rw [Option.map_some, Option.some.injEq]
    have := congrArg Prod.fst hfeed
    rw [hbuffer, DataSourceAssembler.feed_fst] at this
    exact this.symm

/-- A request with a notification and no probe asks for content. -/
theorem content_of (h : r.Is k) {a : Arrival} (hn : r.notification = some a)
    (hp : r.appProbe = false) : ∃ appId labels, k = .content a appId labels := by
  rw [h.notification] at hn
  rw [h.appProbe] at hp
  cases k with
  | probe b => cases hp
  | content b appId labels =>
    cases hn
    exact ⟨appId, labels, rfl⟩
  | authorization | appName appId | action b => cases hn

theorem probe_of (h : r.Is k) {a : Arrival} (hn : r.notification = some a)
    (hp : r.appProbe = true) : k = .probe a := by
  rw [h.notification] at hn
  rw [h.appProbe] at hp
  cases k with
  | probe b =>
    cases hn
    rfl
  | content b appId labels => cases hp
  | authorization | appName appId | action b => cases hn

/-- **The content that is used** belongs to the notification it was asked for, and its app is the
expected one. -/
theorem contentAnswered (h : r.Is k) {heard : PendingRequest → Bytes → Prop} {c : Core}
    {a : Arrival} {attrs : NotificationAttributes} (hc : ContentAnswered heard c r a attrs) :
    attrs.id = a.notification.id ∧ ∃ labels, k = .content a attrs.appId labels := by
  obtain ⟨appId, labels, rfl⟩ := h.content_of hc.notification hc.content
  have happ : attrs.appId = appId := by
    have := hc.expected
    rw [h.expected] at this
    exact Option.some.inj this
  refine ⟨?_, labels, by rw [happ]⟩
  obtain ⟨ev, ⟨-, -, ⟨assembler, data, rest, complete, -, hassembler, hfeed, hev⟩, -⟩, hparse⟩ :=
    hc.answered
  obtain ⟨buffer, hbuffer⟩ := h.assembler
  rw [hassembler, Kind.request, Option.map_some, Option.some.injEq] at hbuffer
  have hfed : (((Request.attributes a.notification.id labels).assembler buffer).feed data).2
      = .ok (some complete) := by
    rw [← hbuffer, hfeed]
  obtain ⟨ident, values, hwf⟩ := DataSourceAssembler.wellFormed_of_feed hfed
  obtain ⟨body, hbody, attrs', hattrs', hid⟩ := accepted_of_wellFormed hwf
  rw [hev, Except.ok.injEq] at hbody
  rw [hbody, h.labels] at hparse
  have : attrs = attrs' := Except.ok.inj (hparse.symm.trans hattrs')
  rw [this]
  exact hid

end PendingRequest.Is

/-! ## A run that the concrete examples start with -/

/-- A world in which every call succeeds and every app is allowed. -/
def friendly (notificationActions : Bool) : Env where
  includeNonMessageNotifications := true
  includeAppNotification := fun _ => true
  notificationActions
  dispatch := fun _ => none
  managed := some [(1, .notificationSource), (2, .dataSource), (3, .controlPoint)]
  startNotify := fun _ => none
  stopNotify := fun _ => none
  cachedNotifying := fun _ => none
  toggleDispatch := fun _ => none
  handlesTransportFailure := false

/-- The client connects and is authorized. -/
def connecting : List (Env × Input) :=
  [.bearer (some true) false, .start, .bearerSettle, .writeReply 0,
    .ds (CommandID.getAppAttributes :: encode messagesAppId ++ [0, 0, 1, 0, 77])].map
      (Prod.mk (friendly true))

end BlueFerry.Ancs
