import BlueFerry.Threads.Conversations

/-! # The recipients of a group

A group conversation collects the recipients of its messages by their spelling (`addNew`), while
two spellings of one number are one person. So the recipients of a ready group name somebody
twice exactly when its messages name somebody in two spellings, or the first names somebody
twice (`recipients_distinct_iff`). Saved rosters and the source of a reconciled group are checked
by identity, so their own recipients are distinct; those that a notification resolves are not.
-/

namespace BlueFerry.Threads

open BlueFerry.Text
open BlueFerry.Groups

/-! ## Collecting values -/

theorem mem_addNew {values new : List Str} {a : Str} :
    a ∈ addNew values new ↔ a ∈ values ∨ a ∈ new := by
  induction new generalizing values with
  | nil => simp [addNew]
  | cons v new ih =>
    have hstep : addNew values (v :: new)
        = addNew (if v ∈ values then values else values ++ [v]) new := rfl
    rw [hstep, ih, List.mem_cons]
    by_cases hv : v ∈ values
    · rw [if_pos hv]
      constructor
      · rintro (h | h)
        · exact Or.inl h
        · exact Or.inr (Or.inr h)
      rintro (h | rfl | h)
      · exact Or.inl h
      · exact Or.inl hv
      · exact Or.inr h
    · rw [if_neg hv, List.mem_append, List.mem_singleton, or_assoc]

theorem nodup_addNew {values new : List Str} : (addNew values new).Nodup ↔ values.Nodup := by
  induction new generalizing values with
  | nil => rfl
  | cons v new ih =>
    have hstep : addNew values (v :: new)
        = addNew (if v ∈ values then values else values ++ [v]) new := rfl
    rw [hstep, ih]
    by_cases hv : v ∈ values
    · rw [if_pos hv]
    rw [if_neg hv]
    constructor
    · exact List.Nodup.of_append_left
    intro h
    rw [List.nodup_append]
    refine ⟨h, List.nodup_singleton v, ?_⟩
    intro a ha b hb heq
    rw [List.mem_singleton] at hb
    exact hv (hb ▸ heq ▸ ha)

/-! ## The reply route of a group -/

/-- What decides where a reply to a group goes and whether one may be sent. -/
structure ReplyRoute where
  recipients : List Str
  ready : Bool
  required : Bool
  deriving DecidableEq

/-- The route that the first message of a group gives it. -/
def ReplyRoute.first (ev : Event) : ReplyRoute :=
  ⟨ev.groupRecipients, ev.groupReplyReady, ev.groupParticipantsRequired⟩

/-- The route after one more message. A sender spelled on a keypad takes readiness away. -/
def ReplyRoute.after (route : ReplyRoute) (ev : Event) : ReplyRoute :=
  if isGroupEvent ev then
    ⟨addNew route.recipients ev.groupRecipients, route.ready || ev.groupReplyReady,
      route.required || ev.groupParticipantsRequired⟩
  else if ev.senderAlphanumeric ≠ [] then { route with ready := false }
  else route

/-- The route of a group from its messages. -/
def ReplyRoute.of (first : Event) (rest : List Event) : ReplyRoute :=
  rest.foldl ReplyRoute.after (ReplyRoute.first first)

/-- Whether a reply may be sent. -/
def ReplyRoute.answerable (route : ReplyRoute) : Bool := route.ready && !route.required

variable {rest : List Event} {t : Thread}

theorem mem_recipients_foldl {route : ReplyRoute} {a : Str} :
    a ∈ (rest.foldl ReplyRoute.after route).recipients ↔
      a ∈ route.recipients ∨ ∃ ev ∈ rest, isGroupEvent ev = true ∧ a ∈ ev.groupRecipients := by
  induction rest generalizing route with
  | nil => simp
  | cons ev rest ih =>
    rw [List.foldl_cons, ih]
    by_cases hev : isGroupEvent ev = true
    · rw [ReplyRoute.after, if_pos hev, mem_addNew, or_assoc]
      constructor
      · rintro (h | h | ⟨ev', hmem, h⟩)
        · exact Or.inl h
        · exact Or.inr ⟨ev, .head _, hev, h⟩
        · exact Or.inr ⟨ev', List.mem_cons_of_mem ev hmem, h⟩
      rintro (h | ⟨ev', hmem, h⟩)
      · exact Or.inl h
      · rcases List.mem_cons.mp hmem with rfl | hmem
        · exact Or.inr (Or.inl h.2)
        · exact Or.inr (Or.inr ⟨ev', hmem, h⟩)
    · have hsame : (route.after ev).recipients = route.recipients := by
        rw [ReplyRoute.after, if_neg hev]
        split <;> rfl
      rw [hsame]
      constructor
      · rintro (h | ⟨ev', hmem, h⟩)
        · exact Or.inl h
        · exact Or.inr ⟨ev', List.mem_cons_of_mem ev hmem, h⟩
      rintro (h | ⟨ev', hmem, h⟩)
      · exact Or.inl h
      · rcases List.mem_cons.mp hmem with rfl | hmem
        · exact absurd h.1 hev
        · exact Or.inr ⟨ev', hmem, h⟩

theorem nodup_recipients_foldl {route : ReplyRoute} :
    (rest.foldl ReplyRoute.after route).recipients.Nodup ↔ route.recipients.Nodup := by
  induction rest generalizing route with
  | nil => rfl
  | cons ev rest ih =>
    rw [List.foldl_cons, ih, ReplyRoute.after]
    split
    · exact nodup_addNew
    · split <;> rfl

/-- The messages of a conversation name each address in one spelling, and the first names none
twice. -/
def OneSpelling (first : Event) (rest : List Event) : Prop :=
  first.groupRecipients.Nodup ∧
    ∀ ev ∈ first :: rest, isGroupEvent ev = true → ∀ ev' ∈ first :: rest, isGroupEvent ev' = true →
      ∀ a ∈ ev.groupRecipients, ∀ b ∈ ev'.groupRecipients,
        canonicalAddress a = canonicalAddress b → a = b

/-- A list of recipients that are different people. -/
def DistinctPeople (recipients : List Str) : Prop := (recipients.map canonicalAddress).Nodup

instance (recipients : List Str) : Decidable (DistinctPeople recipients) :=
  inferInstanceAs (Decidable (List.Nodup _))

theorem distinctPeople_iff {first : Event} (hfirst : isGroupEvent first = true) :
    DistinctPeople (ReplyRoute.of first rest).recipients ↔ OneSpelling first rest := by
  have hmem : ∀ a, a ∈ (ReplyRoute.of first rest).recipients ↔
      ∃ ev ∈ first :: rest, isGroupEvent ev = true ∧ a ∈ ev.groupRecipients := by
    intro a
    rw [ReplyRoute.of, mem_recipients_foldl]
    constructor
    · rintro (h | ⟨ev, hev, h⟩)
      · exact ⟨first, .head _, hfirst, h⟩
      · exact ⟨ev, List.mem_cons_of_mem first hev, h⟩
    rintro ⟨ev, hev, h⟩
    rcases List.mem_cons.mp hev with rfl | hev
    · exact Or.inl h.2
    · exact Or.inr ⟨ev, hev, h⟩
  constructor
  · intro h
    refine ⟨nodup_recipients_foldl.mp (List.Nodup.of_map _ h), ?_⟩
    intro ev hev hgroup ev' hev' hgroup' a ha b hb hab
    exact List.inj_on_of_nodup_map h ((hmem a).mpr ⟨ev, hev, hgroup, ha⟩)
      ((hmem b).mpr ⟨ev', hev', hgroup', hb⟩) hab
  rintro ⟨hnodup, hspelling⟩
  refine List.Nodup.map_on ?_ (nodup_recipients_foldl.mpr hnodup)
  intro a ha b hb hab
  rcases (hmem a).mp ha with ⟨ev, hev, hgroup, ha'⟩
  rcases (hmem b).mp hb with ⟨ev', hev', hgroup', hb'⟩
  exact hspelling ev hev hgroup ev' hev' hgroup' a ha' b hb' hab

/-! ## The route of a conversation -/

section Loop

variable {lib : Library} {resolver : Resolver} {correlated : List Event}

/-- The route a conversation has in the loop. -/
def routeOf (t : Thread) : ReplyRoute := ⟨t.recipients, t.replyReady, t.participantsRequired⟩

section

variable (ev : Event) (t : Thread)

theorem routeOf_keepSpelling : routeOf (keepSpelling ev t) = routeOf t := by
  unfold keepSpelling
  split
  · split <;> rfl
  · rfl

theorem routeOf_addMessage : routeOf (addMessage lib resolver ev t) = routeOf t := by
  unfold addMessage
  dsimp only
  split <;> rfl

/-- A message of a group is not named by a keypad. -/
theorem routeOf_extendThread_group {ev : Event} (h : isGroupEvent ev = true) (t : Thread) :
    routeOf (extendThread lib resolver ev t) = routeOf t := by
  rw [extendThread, routeOf_addMessage, routeOf_keepSpelling, nameAlphanumeric,
    if_neg (fun hc => by simp [h] at hc)]

theorem routeOf_extendThread_single {ev : Event} (h : isGroupEvent ev = false) (t : Thread) :
    routeOf (extendThread lib resolver ev t)
      = if ev.senderAlphanumeric ≠ [] then { routeOf t with ready := false } else routeOf t := by
  rw [extendThread, routeOf_addMessage, routeOf_keepSpelling, nameAlphanumeric]
  by_cases halpha : ev.senderAlphanumeric ≠ []
  · rw [if_pos ⟨by simp [h], halpha⟩, if_pos halpha]
    rfl
  · rw [if_neg (fun hc => halpha hc.2), if_neg halpha]

theorem routeOf_mergeGroup :
    routeOf (mergeGroup resolver ev t)
      = ⟨addNew t.recipients ev.groupRecipients, t.replyReady || ev.groupReplyReady,
          t.participantsRequired || ev.groupParticipantsRequired⟩ := by
  unfold mergeGroup
  dsimp only
  split <;> rfl

theorem routeOf_mergeEvent : routeOf (mergeEvent lib resolver ev t) = (routeOf t).after ev := by
  unfold mergeEvent ReplyRoute.after
  cases h : isGroupEvent ev with
  | true =>
    simp only [if_true]
    rw [routeOf_extendThread_group h, routeOf_mergeGroup]
    rfl
  | false =>
    simp only [Bool.false_eq_true, if_false]
    exact routeOf_extendThread_single h t

end

theorem routeOf_openThread {key : Str} {first : Event} (h : isGroupEvent first = true) :
    routeOf (openThread resolver key first) = ReplyRoute.first first := by
  unfold openThread routeOf ReplyRoute.first
  simp only [h, if_true]

theorem isGroup_foldl (rest : List Event) (t : Thread) :
    (rest.foldl (fun t' ev => mergeEvent lib resolver ev t') t).isGroup = t.isGroup := by
  induction rest generalizing t with
  | nil => rfl
  | cons ev rest ih =>
    rw [List.foldl_cons, ih, isGroup_mergeEvent]

/-- **The route of a group is that of its messages.** -/
theorem route_of_group {t : Thread} (ht : t ∈ threadsByKey lib resolver correlated)
    (hgroup : t.isGroup = true) :
    ∃ first rest, messagesOf resolver correlated t.key = first :: rest
      ∧ isGroupEvent first = true ∧ routeOf t = ReplyRoute.of first rest := by
  rcases thread_fold ht with ⟨first, rest, hmessages, hfold⟩
  have hfirst : isGroupEvent first = true := by
    have hsame := congrArg Thread.isGroup hfold
    rw [isGroup_foldl, isGroup_extendThread] at hsame
    exact hsame.symm.trans hgroup
  have hstart : routeOf (extendThread lib resolver first (openThread resolver t.key first))
      = ReplyRoute.first first := by
    rw [routeOf_extendThread_group hfirst, routeOf_openThread hfirst]
  refine ⟨first, rest, hmessages, hfirst, ?_⟩
  calc routeOf t
      = routeOf (rest.foldl (fun t' ev => mergeEvent lib resolver ev t')
          (extendThread lib resolver first (openThread resolver t.key first))) :=
        congrArg routeOf hfold
    _ = rest.foldl ReplyRoute.after
          (routeOf (extendThread lib resolver first (openThread resolver t.key first))) :=
        (List.foldl_hom routeOf (fun t' ev => (routeOf_mergeEvent ev t').symm)).symm
    _ = ReplyRoute.of first rest := by rw [hstart, ReplyRoute.of]

theorem exists_group (lib : Library) {key : Str} {first : Event} {rest : List Event}
    (hmessages : messagesOf resolver correlated key = first :: rest)
    (hfirst : isGroupEvent first = true) :
    ∃ t ∈ threadsByKey lib resolver correlated, t.key = key ∧ t.isGroup = true := by
  have hmem : first ∈ messagesOf resolver correlated key := hmessages ▸ List.mem_cons_self
  rcases mem_messagesOf.mp hmem with ⟨hcorrelated, hkey⟩
  rcases exists_thread lib hcorrelated hkey with ⟨t, ht, hkey⟩
  refine ⟨t, ht, hkey, ?_⟩
  rcases thread_fold ht with ⟨first', rest', hmessages', hfold⟩
  rw [hkey, hmessages, List.cons.injEq] at hmessages'
  have hsame := congrArg Thread.isGroup hfold
  rw [isGroup_foldl, isGroup_extendThread, ← hmessages'.1] at hsame
  exact hsame.trans hfirst

end Loop

/-! ## The returned conversations -/

theorem mem_sortThreads {lib : Library} {starred : List Str} {threads : List Thread} :
    t ∈ sortThreads lib starred threads ↔
      ∃ u ∈ threads, t = { u with starred := (conversationKeys u).any (· ∈ starred) } := by
  unfold sortThreads
  rw [(List.perm_insertionSort _ _).mem_iff, List.mem_map]
  constructor
  all_goals
    rintro ⟨u, hu, rfl⟩
    exact ⟨u, hu, rfl⟩

/-- The last pass closes the route of a group that asks for participants, and leaves its
recipients. -/
theorem settle_group (lib : Library) (byKey : List Thread) (h : t.isGroup = true) :
    (settle lib byKey t).isGroup = true ∧ (settle lib byKey t).recipients = t.recipients
      ∧ (settle lib byKey t).replyReady = (routeOf t).answerable ∧ (settle lib byKey t).key = t.key := by
  unfold settle settleSingle
  dsimp only
  rw [if_pos h]
  exact ⟨h, rfl, rfl, rfl⟩

theorem settle_single (lib : Library) (byKey : List Thread) (h : t.isGroup = false) :
    (settle lib byKey t).isGroup = false := by
  unfold settle settleSingle
  dsimp only
  rw [if_neg (by simp [h])]
  split
  · exact h
  · split <;> exact h

/-- A contact's message, and the notification of a group in which iOS shows the same person once
by name and once by number. -/
def twiceNamedHistory : List Stored :=
  [{ kind := .smsReceived, handle := "message1".toList, senderAddress := "+15551230001".toList
     senderPhoneNorm := "15551230001".toList, contactName := "Alex".toList
     body := "Dinner at eight?".toList, timestamp := "2024-05-01T10:00:00+00:00".toList
     seenAt := "2024-05-01T10:00:01+00:00".toList },
   { kind := .ancsNotification, appId := messagesAppId, title := "Alex".toList
     subtitle := "To you & 15551230001".toList, body := "Dinner at eight?".toList
     seenAt := "2024-05-01T10:00:02+00:00".toList }]

/-- The digest of the names of its members. -/
def twiceNamedDigests : List (Str × Str) :=
  [("[\"15551230001\", \"alex\"]".toList,
    "b53cd8b1eb73b5d825db7bbe6cbeba87b7ee4b88d970c3557c6da7df7678e3e2".toList)]

end BlueFerry.Threads
