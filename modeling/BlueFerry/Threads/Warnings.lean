import BlueFerry.Threads.Keys
import BlueFerry.Threads.Recipients

/-! # Conversations with a held warning

A saved roster keeps the warning about a sender outside it until the user saves the members again.
While it does, no conversation of its group is ready for a reply, whatever else is in the history
(`warning_kept`): each message that the roster is applied to asks for the participants, and a message
of the group that it is not applied to is not ready.

The condition is that the roster is applied at all (`Enforced`). A roster saved under the old key of a
name is not, once a second spelling of the name appears; a message that was sent while it was applied
is stored as ready, and makes the conversation ready then (`second_spelling_reopens`).
-/

namespace BlueFerry.Threads

open BlueFerry.Text
open BlueFerry.Groups

/-! ## The group of a roster -/

/-- `stored_named_group_key(route) or route["group_key"]`: the key that a row has after saved rosters are
applied. -/
def groupKeyOf (lib : Library) (s : Stored) : Str :=
  if storedName lib s ≠ [] then namedGroupKey lib (storedName lib s) else s.groupKey

/-- A roster that was saved for a group: it records the group's name, or the group has none. -/
def IsRoster (lib : Library) (r : Stored) : Prop :=
  storedName lib r ≠ [] ∨ startsWith r.groupKey unnamedGroupPrefix = true

/-- The key of a conversation of the group. -/
def KeyOf (lib : Library) (r : Stored) (key : Str) : Prop := key = groupKeyOf lib r ∨ key = r.groupKey

instance (lib : Library) (r : Stored) (key : Str) : Decidable (KeyOf lib r key) :=
  inferInstanceAs (Decidable (_ ∨ _))

/-- The warning is enforced: a roster that is applied to the group holds one, and each message of the
group that was stored as ready gets it applied. -/
structure Enforced (lib : Library) (events : List Stored) (r : Stored) : Prop where
  held : ∀ route, (routesOf lib events).route (groupKeyOf lib r) = some route →
    (heldRosterWarning lib route).isSome
  rows : ∀ s ∈ events, s.kind.isMessage = true → s.groupReplyReady = true →
    KeyOf lib r (groupKeyOf lib s) → isLegacyUnnamedGroupKey s.groupKey = false →
      ((routesOf lib events).route (groupKeyOf lib r)).isSome ∧
        (storedName lib s ≠ [] ∨ isUnnamedGroupKey s.groupKey = true)

/-- `hexdigest()` -/
def HexDigests (lib : Library) : Prop := ∀ s, ∀ c ∈ lib.digest s, isHex c = true

/-! ## Keys that are never those of a roster -/

section Keys

variable {lib : Library} {r : Stored} {key : Str}

/-- The old key of a name is not the key of any name. -/
theorem legacy_ne_named (hhex : HexDigests lib) (name other : Str) :
    legacyNamedGroupKey lib name ≠ namedGroupKey lib other := by
  intro heq
  have htail : lib.digest (join ' ' (words (casefold (strip (lib.nfkc name))))) =
      "v2:".toList ++ lib.digest (nameOf lib other) := List.append_cancel_left heq
  have hv : 'v' ∈ lib.digest (join ' ' (words (casefold (strip (lib.nfkc name))))) := by
    rw [htail]
    exact .head _
  exact absurd (hhex _ 'v' hv) (by decide)

/-- What the key of a roster starts with. -/
theorem prefix_of_roster (hr : IsRoster lib r) (hkey : KeyOf lib r key) :
    startsWith key "group:named:".toList = true ∨ startsWith key unnamedGroupPrefix = true := by
  by_cases hname : storedName lib r ≠ []
  · left
    rcases hkey with rfl | rfl
    · rw [groupKeyOf, if_pos hname]
      exact startsWith_append rfl _
    unfold storedName at hname
    dsimp only at hname
    split at hname
    · next h =>
      rcases h.2 with h | h
      all_goals
        rw [h]
        exact startsWith_append rfl _
    · exact absurd rfl hname
  · right
    have hprefix := hr.resolve_left hname
    rcases hkey with rfl | rfl
    · rw [groupKeyOf, if_neg hname]
      exact hprefix
    · exact hprefix

theorem not_addresses (hr : IsRoster lib r) (identities : List Str) :
    ¬ KeyOf lib r (addressesKey identities) := by
  intro hkey
  rcases prefix_of_roster hr hkey with h | h <;> exact Bool.false_ne_true h

/-- A key that stands for a name is its own key or its old one. -/
theorem storedName_key {s : Stored} (h : storedName lib s ≠ []) :
    s.groupKey = namedGroupKey lib (storedName lib s) ∨
      s.groupKey = legacyNamedGroupKey lib (storedName lib s) := by
  unfold storedName at h ⊢
  dsimp only at h ⊢
  split at h
  · next hcase =>
    rw [if_pos hcase]
    exact hcase.2
  · exact absurd rfl h

/-- The key of a name is the group's own, not the old one its roster was saved under. -/
theorem named_eq (hhex : HexDigests lib) {name : Str} (hkey : KeyOf lib r (namedGroupKey lib name)) :
    namedGroupKey lib name = groupKeyOf lib r := by
  rcases hkey with hkey | hkey
  · exact hkey
  by_cases hname : storedName lib r ≠ []
  · rw [groupKeyOf, if_pos hname]
    rcases storedName_key hname with h | h
    · exact hkey.trans h
    · exact absurd (hkey.trans h).symm (legacy_ne_named hhex _ _)
  · rw [hkey, groupKeyOf, if_neg hname]

/-- The key of an unnamed group is the one its roster was saved under. -/
theorem unnamed_eq (hkey : KeyOf lib r key) (hunnamed : startsWith key unnamedGroupPrefix = true) :
    key = groupKeyOf lib r := by
  rcases hkey with hkey | hkey
  · exact hkey
  by_cases hname : storedName lib r ≠ []
  · rcases storedName_key hname with h | h
    all_goals
      rw [hkey, h] at hunnamed
      exact absurd hunnamed Bool.false_ne_true
  · rw [hkey, groupKeyOf, if_neg hname]

end Keys

/-! ## Messages that keep a conversation closed -/

/-- A message of the group asks for the participants, or is not ready. -/
def Closed (lib : Library) (r s : Stored) (e : Event) : Prop :=
  s.kind.isMessage = true → KeyOf lib r e.groupKey →
    e.groupParticipantsRequired = true ∨ e.groupReplyReady = false

section Rows

variable {lib : Library} {events : List Stored} {r : Stored}

theorem applyRoute_required {route : Stored} (h : (heldRosterWarning lib route).isSome) (ev : Event) :
    (NamedGroupRoutes.applyRoute lib route ev).groupParticipantsRequired = true := by
  unfold NamedGroupRoutes.applyRoute
  cases hheld : heldRosterWarning lib route with
  | none =>
    rw [hheld] at h
    exact absurd h Bool.false_ne_true
  | some held => rfl

/-- A saved roster that holds a warning closes each row it is applied to. -/
theorem closed_annotateStored (hhex : HexDigests lib)
    (h : Enforced lib events r) (ev : Event) (hev : ev.toStored ∈ events) :
    Closed lib r ev.toStored ((routesOf lib events).annotateStored lib ev) := by
  intro hmessage hkey
  have hsms : ev.kind.isSms = true := by
    cases hkind : ev.kind with
    | smsReceived => rfl
    | smsSent => rfl
    | _ =>
      rw [hkind] at hmessage
      exact absurd hmessage Bool.false_ne_true
  -- a row that stays ready is one that the condition speaks of
  have hrow (hready : ev.groupReplyReady = true) := h.rows ev.toStored hev hmessage hready
  unfold NamedGroupRoutes.annotateStored at hkey ⊢
  dsimp only at hkey ⊢
  rw [if_neg (by simp [hsms])] at hkey ⊢
  by_cases hname : storedName lib ev.toStored = []
  · rw [if_pos hname] at hkey ⊢
    have hown : groupKeyOf lib ev.toStored = ev.groupKey := by
      rw [groupKeyOf, if_neg (not_not.mpr hname)]
    rw [hown] at hrow
    by_cases hlegacy : isLegacyUnnamedGroupKey ev.groupKey = true
    · rw [if_pos hlegacy]
      exact .inr rfl
    rw [if_neg hlegacy] at hkey ⊢
    rw [Bool.not_eq_true] at hlegacy
    by_cases hunnamed : isUnnamedGroupKey ev.groupKey = true
    · rw [if_pos hunnamed] at hkey ⊢
      cases hroute : (routesOf lib events).route ev.groupKey with
      | none => exact .inr rfl
      | some route =>
        rw [hroute] at hkey
        rw [groupKey_applyRoute] at hkey
        have hprefix : startsWith ev.groupKey unnamedGroupPrefix = true := by
          exact (Bool.and_eq_true_iff.mp hunnamed).1
        rw [unnamed_eq hkey hprefix] at hroute
        exact .inl (applyRoute_required (h.held route hroute) _)
    rw [if_neg hunnamed] at hkey ⊢
    refine .inr (Bool.eq_false_iff.mpr (fun hready => ?_))
    rcases (hrow hready hkey hlegacy).2 with hcase | hcase
    · exact hcase hname
    · exact hunnamed hcase
  · rw [if_neg hname] at hkey ⊢
    have hown : groupKeyOf lib ev.toStored = namedGroupKey lib (storedName lib ev.toStored) := by
      rw [groupKeyOf, if_pos hname]
    rw [hown] at hrow
    cases hroute : (routesOf lib events).route (namedGroupKey lib (storedName lib ev.toStored)) with
    | some route =>
      rw [hroute] at hkey
      rw [groupKey_applyRoute] at hkey
      rw [named_eq hhex hkey] at hroute
      exact .inl (applyRoute_required (h.held route hroute) _)
    | none =>
      rw [hroute] at hkey
      dsimp only at hkey ⊢
      split at hkey
      · next hcase =>
        rw [if_pos hcase]
        exact .inr rfl
      · next hcase =>
        rw [if_neg hcase]
        refine .inr (Bool.eq_false_iff.mpr (fun hready => ?_))
        have hlegacy : isLegacyUnnamedGroupKey ev.groupKey = false := by
          rcases storedName_key hname with heq | heq
          all_goals
            rw [heq]
            rfl
        have hsome := (hrow hready hkey hlegacy).1
        rw [← named_eq hhex hkey, hroute] at hsome
        exact absurd hsome Bool.false_ne_true

/-- No notification opens a message that a roster with a warning is applied to, or none. -/
theorem closed_receive {routes : NamedGroupRoutes} {key title : Str} {address : Option Str}
    (hheld : ∀ route, routes.route key = some route → (heldRosterWarning lib route).isSome) (e : Event) :
    (routes.receive lib key title address e).groupReplyReady = false := by
  show (NamedGroupRoutes.holdBack lib routes key
    (NamedGroupRoutes.observe lib routes key title address)).replyReady = false
  unfold NamedGroupRoutes.holdBack
  cases hroute : routes.route key with
  | none =>
    unfold NamedGroupRoutes.observe
    rw [hroute]
    rfl
  | some route =>
    obtain ⟨held, hwarning⟩ := Option.isSome_iff_exists.mp (hheld route hroute)
    have hbind : (some route).bind (heldRosterWarning lib) = some held := hwarning
    rw [hbind]
    dsimp only
    split
    · next hchanged =>
      -- a sender outside the roster is not ready either
      unfold NamedGroupRoutes.observe at hchanged ⊢
      rw [hroute] at hchanged ⊢
      dsimp only at hchanged ⊢
      split at hchanged
      · exact absurd hchanged Bool.false_ne_true
      · next hsender =>
        rw [if_neg hsender]
        split <;> rfl
    · rfl

theorem passes_closed (hhex : HexDigests lib) (hr : IsRoster lib r) (h : Enforced lib events r) :
    Passes lib events (Closed lib r) where
  onStored := fun s hs => closed_annotateStored hhex h s.toEvent hs
  onLink := fun _ _ _ he => he
  onReceived := by
    intro s e name title _ _ _ hkey
    have hown := named_eq hhex hkey
    refine .inr (closed_receive (fun route hroute => h.held route ?_) e)
    rw [← hown]
    exact hroute
  onReceivedUnnamed := by
    intro s e members name title _ _ _ _ hkey
    have hown := unnamed_eq hkey (startsWith_append rfl _)
    refine .inr (closed_receive (fun route hroute => h.held route ?_) e)
    rw [← hown]
    exact hroute
  onUnnamed := by
    intro s e members title verified roster _ _ _ _ hkey
    unfold annotateUnnamed at hkey ⊢
    cases hready : rosterReady members (safeEventAddress e.toStored) roster with
    | false => exact .inr rfl
    | true =>
      rw [hready] at hkey
      exact absurd hkey (not_addresses hr _)
  onAmbiguous := fun _ _ _ he => he
  onKeypad := fun _ _ _ _ he => he
  onAdopted := by
    intro s e s' source _ _ _ _ _ _ he hmessage hkey
    unfold adopt at hkey ⊢
    split at hkey
    · next hverified =>
      rw [if_pos hverified]
      exact he hmessage hkey
    · exact absurd hkey (not_addresses hr _)

end Rows

/-! ## Conversations -/

/-- Messages that ask for the participants or are not ready never open a route. -/
theorem not_answerable {rest : List Event} {route : ReplyRoute}
    (hroute : route.required = true ∨ route.ready = false)
    (hrest : ∀ e ∈ rest, isGroupEvent e = true →
      e.groupParticipantsRequired = true ∨ e.groupReplyReady = false) :
    (rest.foldl ReplyRoute.after route).answerable = false := by
  induction rest generalizing route with
  | nil =>
    rcases hroute with h | h <;> simp [ReplyRoute.answerable, h]
  | cons e rest ih =>
    apply ih _ (fun x hx => hrest x (.tail _ hx))
    unfold ReplyRoute.after
    by_cases hgroup : isGroupEvent e = true
    · rw [if_pos hgroup]
      rcases hrest e (.head _) hgroup with he | he
      · simp [he]
      rcases hroute with h | h
      · simp [h]
      · simp [h, he]
    rw [if_neg hgroup]
    split
    · exact .inr rfl
    · exact hroute

/-- **A held warning closes the conversations of its group.** While the warning is enforced, no other
row of the history makes one of them ready for a reply. -/
theorem warning_kept (lib : Library) (hhex : HexDigests lib) (resolver : Resolver)
    (events : List Stored) (r : Stored) (hr : IsRoster lib r) (h : Enforced lib events r) :
    ∀ t ∈ buildThreads lib resolver events, KeyOf lib r t.key → t.replyReady = false := by
  intro t ht hkey
  rcases mem_sortThreads.mp ht with ⟨u, hu, rfl⟩
  rcases List.mem_map.mp hu with ⟨v, hv, rfl⟩
  have hvkey : KeyOf lib r v.key := by
    have hsame := congrArg List.head? (conversationKeys_settle lib (threadsByKey lib resolver
      (correlateGroupEvents lib resolver events)) v)
    have hsame : (settle lib (threadsByKey lib resolver
      (correlateGroupEvents lib resolver events)) v).key = v.key := Option.some.inj hsame
    rw [← hsame]
    exact hkey
  have hgroup : v.isGroup = true := by
    cases hcase : v.isGroup with
    | true => rfl
    | false =>
      -- the key of a person is none of a group
      rcases prefix_of_roster hr hvkey with hprefix | hprefix
      all_goals
        rcases single_aliases hv hcase with ⟨identity, hsingle, -⟩ | ⟨⟨identity, hsingle⟩, -⟩
        all_goals
          rw [hsingle] at hprefix
          exact absurd hprefix Bool.false_ne_true
  have hmessages : ∀ e ∈ messagesOf resolver (correlateGroupEvents lib resolver events) v.key,
      isGroupEvent e = true → e.groupParticipantsRequired = true ∨ e.groupReplyReady = false := by
    intro e he hevent
    rcases mem_messagesOf.mp he with ⟨hmem, hkeyOf⟩
    rcases messageKey_eq_some hkeyOf with ⟨hmessage, hthread⟩
    rw [threadKey_group hevent, Option.some.injEq] at hthread
    rcases Aligned.of_mem ((passes_closed hhex hr h).correlated resolver) hmem with
      ⟨s, -, hsame, hclosed⟩
    apply hclosed
    · rw [← hsame.kind]
      exact hmessage
    · rw [hthread]
      exact hvkey
  rcases route_of_group hv hgroup with ⟨first, rest, hlist, hfirst, hroute⟩
  rw [hlist] at hmessages
  rcases settle_group lib (threadsByKey lib resolver (correlateGroupEvents lib resolver events))
    hgroup with ⟨-, -, hready, -⟩
  have hclosed : (ReplyRoute.of first rest).answerable = false :=
    not_answerable (hmessages first (.head _) hfirst)
      (fun e he => hmessages e (.tail _ he))
  rw [← hroute, ← hready] at hclosed
  exact hclosed

/-- The digests of a name and of its folded spelling. -/
def spellingDigests : List (Str × Str) :=
  [("Family".toList, "bd2d677b2ed4381b48bb1d0841052c6d076e7d634d5052e85dcbe0b8a0dedd80".toList),
    ("family".toList, "d34a569ab7aaa54dacd715ae64953455d86b768846cd0085ef4e9e7471489b7b".toList),
    ("FAMILY".toList, "0c0a9c87f940fd2515de33cd4f067210555049dc69ded4eaa40b8dff3dc60bf5".toList)]

/-- A roster saved under the old key of its group's name; it holds a warning. -/
def warnedRoster : Stored where
  kind := .groupRoute
  seenAt := "2024-05-01T09:00:00+00:00".toList
  groupKey := "group:named:d34a569ab7aaa54dacd715ae64953455d86b768846cd0085ef4e9e7471489b7b".toList
  groupName := "Family".toList
  groupMembers := ["Alex".toList, "Sam".toList]
  groupRecipients := ["+15551230001".toList, "+15551230002".toList]
  groupUnexpectedSender := "Kim".toList
  groupRosterWarningId := "2024-05-01T09:00:00+00:00:phone:15551230003".toList

/-- A message that was sent to the group before the warning. -/
def sentBefore : Stored where
  kind := .smsSent
  handle := "sent-1".toList
  senderAddress := "+15551230001".toList
  body := "Dinner at eight".toList
  timestamp := "2024-05-01T10:00:00+00:00".toList
  groupKey :=
    "group:named:v2:bd2d677b2ed4381b48bb1d0841052c6d076e7d634d5052e85dcbe0b8a0dedd80".toList
  groupName := "Family".toList
  groupMembers := ["Alex".toList, "Sam".toList]
  groupRecipients := ["+15551230001".toList, "+15551230002".toList]
  groupReplyReady := true

/-- The notification of a group whose name is spelled in another way. -/
def otherSpelling : Stored where
  kind := .ancsNotification
  appId := messagesAppId
  title := "Robin".toList
  subtitle := "FAMILY".toList
  body := "Hello".toList
  seenAt := "2024-05-02T10:00:00+00:00".toList

/-- Digests that are listed in hexadecimal. -/
theorem hexDigests_plainLibrary {digests : List (Str × Str)} (h : digests.all (fun p => p.2.all isHex) = true) :
    HexDigests (plainLibrary digests) := by
  intro s c hc
  have hc : c ∈ (digests.lookup s).getD [] := hc
  cases hlookup : digests.lookup s with
  | none =>
    rw [hlookup] at hc
    nomatch hc
  | some digest =>
    rw [hlookup] at hc
    have hlisted := List.all_eq_true.mp h (s, digest) (mem_of_lookup hlookup)
    exact List.all_eq_true.mp hlisted c hc

/-- The warning is enforced while the name has one spelling. -/
theorem enforced_family :
    Enforced (plainLibrary spellingDigests) [sentBefore, warnedRoster] warnedRoster where
  held := by
    intro route hroute
    have hown : (routesOf (plainLibrary spellingDigests) [sentBefore, warnedRoster]).route
        (groupKeyOf (plainLibrary spellingDigests) warnedRoster) = some warnedRoster := by
      decide +kernel
    rw [← Option.some.inj (hown.symm.trans hroute)]
    decide +kernel
  rows := by
    decide +kernel

theorem warning_kept_family :
    ∃ t ∈ buildThreads (plainLibrary spellingDigests) Resolver.none [sentBefore, warnedRoster],
      KeyOf (plainLibrary spellingDigests) warnedRoster t.key ∧ t.replyReady = false := by
  have hthread : ∃ t ∈ buildThreads (plainLibrary spellingDigests) Resolver.none
      [sentBefore, warnedRoster], KeyOf (plainLibrary spellingDigests) warnedRoster t.key := by
    decide +kernel
  obtain ⟨t, ht, hkey⟩ := hthread
  exact ⟨t, ht, hkey, warning_kept (plainLibrary spellingDigests)
    (hexDigests_plainLibrary (by decide +kernel)) Resolver.none [sentBefore, warnedRoster]
    warnedRoster (.inl (by decide +kernel)) enforced_family t ht hkey⟩

/-- The warning closes the conversation until the notification comes, and not any more after it. -/
theorem second_spelling_reopens :
    let lib := plainLibrary spellingDigests
    (heldRosterWarning lib warnedRoster).isSome ∧
    (∃ t ∈ buildThreads lib Resolver.none [sentBefore, warnedRoster],
      KeyOf lib warnedRoster t.key ∧ t.replyReady = false) ∧
    ∃ t ∈ buildThreads lib Resolver.none [sentBefore, warnedRoster, otherSpelling],
      KeyOf lib warnedRoster t.key ∧ t.replyReady = true := by
  decide +kernel

end BlueFerry.Threads
