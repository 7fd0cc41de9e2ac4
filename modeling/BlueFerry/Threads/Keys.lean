import BlueFerry.Groups.Contacts
import BlueFerry.Threads.Conversations

/-! # Keys and aliases of conversations

An alias is a key that a conversation had under an older rule: the folded key of a group name,
another identity of the same contact, the digits of a sender spelled on a keypad. Stars,
deletions and replies look a conversation up by key or alias, so no name may belong to two.

Conversations with one person prune their aliases, those of groups do not. So the names are
disjoint exactly when no old key that a group conversation begins with is the key of another
conversation or the alias of another group (`GroupAliasesApart`). The old key of a named group
is such a key when a row is stored under it without the name it stands for.
-/

namespace BlueFerry.Threads

open BlueFerry.Text
open BlueFerry.Groups

/-! ## Kinds of names -/

theorem addressKey_inj {a b : Str} (h : addressKey a = addressKey b) : a = b :=
  List.append_cancel_left h

theorem not_alphanumeric_addressKey (a : Str) : isAlphanumericKey (addressKey a) = false := rfl

theorem not_group_addressKey (a : Str) : startsWith (addressKey a) "group:".toList = false := rfl

theorem not_group_alphanumeric (a : Str) :
    startsWith ("alphanumeric:".toList ++ a) "group:".toList = false := rfl

theorem startsWith_append {s pre : Str} (h : startsWith s pre = true) (rest : Str) :
    startsWith (s ++ rest) pre = true :=
  (startsWith_iff _ _).mpr (List.prefix_append_of_prefix ((startsWith_iff _ _).mp h))

section

variable (lib : Library)

theorem group_legacyNamedGroupKey (name : Str) :
    startsWith (legacyNamedGroupKey lib name) "group:".toList = true :=
  startsWith_append rfl _

theorem group_namedGroupKey (name : Str) :
    startsWith (namedGroupKey lib name) "group:".toList = true :=
  startsWith_append rfl _

theorem group_unnamedGroupKey (members : List Str) :
    startsWith (unnamedGroupKey lib members) "group:".toList = true :=
  startsWith_append rfl _

theorem group_addressesKey (identities : List Str) :
    startsWith (addressesKey identities) "group:".toList = true :=
  startsWith_append rfl _

/-! ## The aliases that correlation leaves on a row -/

/-- A row has aliases only under a group key, and then the old key of one name. -/
def LegacyAliased (ev : Event) : Prop :=
  ev.groupAliases ≠ [] →
    startsWith ev.groupKey "group:".toList = true
      ∧ ∃ name, ev.groupAliases = [legacyNamedGroupKey lib name]

theorem aliases_eq (r : NamedGroupRoutes) (name : Str) :
    r.aliases lib name = [] ∨ r.aliases lib name = [legacyNamedGroupKey lib name] := by
  unfold NamedGroupRoutes.aliases
  dsimp only
  split
  · exact .inr rfl
  · exact .inl rfl

end

variable {ev : Event} {resolver : Resolver}

/-- The key of a name with the aliases that belong to it. -/
theorem legacyAliased_named {lib : Library} {r : NamedGroupRoutes} {name : Str}
    (hkey : ev.groupKey = namedGroupKey lib name) (haliases : ev.groupAliases = r.aliases lib name) :
    LegacyAliased lib ev := by
  intro hne
  rw [hkey, haliases] at *
  rcases aliases_eq lib r name with hnil | hlegacy
  · exact absurd hnil hne
  · exact ⟨group_namedGroupKey lib name, name, hlegacy⟩

theorem groupKey_applyRoute (lib : Library) (route : Stored) (ev : Event) :
    (NamedGroupRoutes.applyRoute lib route ev).groupKey = ev.groupKey := by
  unfold NamedGroupRoutes.applyRoute
  cases heldRosterWarning lib route with
  | none => rfl
  | some held => rfl

theorem groupAliases_applyRoute (lib : Library) (route : Stored) (ev : Event) :
    (NamedGroupRoutes.applyRoute lib route ev).groupAliases = ev.groupAliases := by
  unfold NamedGroupRoutes.applyRoute
  cases heldRosterWarning lib route with
  | none => rfl
  | some held => rfl

theorem legacyAliased_annotateStored (lib : Library) (r : NamedGroupRoutes) (s : Stored) :
    LegacyAliased lib (r.annotateStored lib s.toEvent) := by
  have hnil : ∀ ev : Event, ev.groupAliases = [] → LegacyAliased lib ev :=
    fun ev h hne => absurd h hne
  unfold NamedGroupRoutes.annotateStored
  dsimp only
  split
  · exact hnil _ rfl
  split
  · split
    · exact hnil _ rfl
    split
    · split
      · exact hnil _ (groupAliases_applyRoute lib _ _)
      · exact hnil _ rfl
    · exact hnil _ rfl
  · split
    · exact legacyAliased_named (groupKey_applyRoute lib _ _) (groupAliases_applyRoute lib _ _)
    · split <;> exact legacyAliased_named rfl rfl

theorem passes_legacyAliased (lib : Library) (events : List Stored) :
    Passes lib events (fun _ ev => LegacyAliased lib ev) where
  onStored := fun s _ => legacyAliased_annotateStored lib _ s
  onLink := fun _ _ _ h => h
  onReceived := fun _ _ _ _ _ _ => legacyAliased_named rfl rfl
  onReceivedUnnamed := fun _ _ _ _ _ _ _ _ hne => absurd rfl hne
  onUnnamed := by
    intro _ e members title verified roster _ _ h hne
    refine ⟨?_, (h hne).2⟩
    unfold annotateUnnamed groupIdentity
    dsimp only
    split
    · exact group_addressesKey _
    · exact group_unnamedGroupKey lib members
  onAmbiguous := fun _ _ _ h => h
  onKeypad := fun _ _ _ _ h => h
  onAdopted := by
    intro _ e _ source _ _ _ _ _ _ h
    unfold adopt
    split
    · exact h
    intro hne
    exact ⟨group_addressesKey _, (h hne).2⟩

theorem legacyAliased_correlated {lib : Library} {events : List Stored} (h : ev ∈ correlateGroupEvents lib resolver events) : LegacyAliased lib ev := by
  rcases Aligned.of_mem ((passes_legacyAliased lib events).correlated resolver) h with ⟨_, _, _, hP⟩
  exact hP

/-! ## The aliases of a conversation after the loop -/

/-- The keys that a conversation with one person may have had: those of the block of one of its
addresses, and that of the address itself. -/
def Owned (resolver : Resolver) (key a : Str) : Prop :=
  ∃ x primary rest, resolver.threadAddresses x = primary :: rest ∧ key = addressKey primary
    ∧ ((∃ b ∈ primary :: rest, a = addressKey b)
      ∨ ∃ identity, canonicalAddress x = some identity ∧ a = addressKey identity)

theorem messageKey_eq_some {key : Str} (h : messageKey resolver ev = some key) :
    ev.kind.isMessage = true ∧ threadKey resolver ev = some key := by
  unfold messageKey at h
  split at h
  · next hkind => exact ⟨hkind, h⟩
  · cases h

theorem threadKey_group (h : isGroupEvent ev = true) :
    threadKey resolver ev = some ev.groupKey := by
  have hne : ev.groupKey ≠ [] := of_decide_eq_true h
  unfold threadKey
  rw [if_pos hne]

/-- The key of a message from one person, under the letters of its sender or its address. -/
theorem threadKey_single {key : Str}
    (h : isGroupEvent ev = false) (hkey : threadKey resolver ev = some key) :
    ∃ x identity, safeEventAddress ev.toStored = some x ∧ canonicalAddress x = some identity ∧
      ((ev.senderAlphanumeric ≠ [] ∧ key = "alphanumeric:".toList ++ identity)
        ∨ (ev.senderAlphanumeric = [] ∧ (∃ primary rest, resolver.threadAddresses x = primary :: rest
            ∧ key = addressKey primary))
        ∨ (ev.senderAlphanumeric = [] ∧ resolver.threadAddresses x = []
            ∧ key = addressKey identity)) := by
  have hgroup : ¬ ev.groupKey ≠ [] := of_decide_eq_false h
  unfold threadKey at hkey
  rw [if_neg hgroup] at hkey
  cases hx : safeEventAddress ev.toStored with
  | none =>
    rw [hx] at hkey
    split at hkey <;> cases hkey
  | some x =>
    rcases canonicalAddress_of_safe hx with ⟨identity, hidentity⟩
    refine ⟨x, identity, rfl, hidentity, ?_⟩
    rw [hx] at hkey
    simp only [Option.bind_some, hidentity, Option.map_some, contactAddressesOf] at hkey
    by_cases halpha : ev.senderAlphanumeric ≠ []
    · rw [if_pos halpha, Option.some.injEq] at hkey
      exact .inl ⟨halpha, hkey.symm⟩
    rw [if_neg halpha] at hkey
    have hempty : ev.senderAlphanumeric = [] := not_not.mp halpha
    cases hblock : resolver.threadAddresses x with
    | nil =>
      rw [hblock] at hkey
      exact .inr (.inr ⟨hempty, rfl, (Option.some.inj hkey).symm⟩)
    | cons primary rest =>
      rw [hblock] at hkey
      exact .inr (.inl ⟨hempty, primary, rest, rfl, (Option.some.inj hkey).symm⟩)

variable {t : Thread}

/-- A spelling is added to the aliases of a conversation of its own key only. -/
theorem mem_aliases_keepSpelling {a : Str}
    (hkey : threadKey resolver ev = some t.key) (ha : a ∈ (keepSpelling ev t).aliases) :
    a ∈ t.aliases ∨ (isGroupEvent ev = false ∧ t.aliases ≠ []
      ∧ (a = t.key ∨ Owned resolver t.key a)) := by
  unfold keepSpelling at ha
  split at ha
  · next hsingle =>
    have hgroup : isGroupEvent ev = false := by simpa using hsingle.1
    split at ha
    · next identity hidentity =>
      rw [mem_sorted, List.mem_dedup, List.mem_cons] at ha
      rcases ha with rfl | ha
      · refine .inr ⟨hgroup, hsingle.2.2, ?_⟩
        rcases threadKey_single hgroup hkey with ⟨x, c, hx, hc, hcases⟩
        rw [hx, Option.bind_some, hc, Option.some.injEq] at hidentity
        subst hidentity
        rcases hcases with ⟨halpha, _⟩ | ⟨_, primary, rest, hblock, hprimary⟩ | ⟨_, _, heq⟩
        · exact absurd hsingle.2.1 halpha
        · exact .inr ⟨x, primary, rest, hblock, hprimary, .inr ⟨c, hc, rfl⟩⟩
        · exact .inl heq.symm
      · exact .inl ha
    · exact .inl ha
  · exact .inl ha

theorem aliases_keepSpelling_nil (h : t.aliases = []) : (keepSpelling ev t).aliases = [] := by
  unfold keepSpelling
  rw [if_neg (fun hc => hc.2.2 h)]
  exact h

theorem aliases_keepSpelling_group (h : isGroupEvent ev = true) :
    (keepSpelling ev t).aliases = t.aliases := by
  unfold keepSpelling
  rw [if_neg (fun hc => by simp [h] at hc)]

section Loop

variable {lib : Library} {resolver : Resolver} {correlated : List Event}

/-- **A group conversation keeps the aliases of its first message.** -/
theorem group_aliases (hlegacy : ∀ ev ∈ correlated, LegacyAliased lib ev)
    (ht : t ∈ threadsByKey lib resolver correlated) (hgroup : t.isGroup = true) :
    ∃ first rest, messagesOf resolver correlated t.key = first :: rest
      ∧ isGroupEvent first = true ∧ t.aliases = first.groupAliases := by
  rcases thread_induction ht with ⟨first, rest, hmessages, hinduct⟩
  have hfirst : first ∈ messagesOf resolver correlated t.key := hmessages ▸ List.mem_cons_self
  rcases mem_messagesOf.mp hfirst with ⟨hmem, hkey⟩
  have hthread := (messageKey_eq_some hkey).2
  have hP := hinduct
    (fun t' => t'.key = t.key ∧ t'.isGroup = isGroupEvent first
      ∧ (isGroupEvent first = true → t'.aliases = first.groupAliases))
    (by
      refine ⟨key_extendThread _ _, isGroup_extendThread _ _, ?_⟩
      intro hg
      rw [aliases_extendThread, aliases_keepSpelling_group hg]
      show firstAliases resolver first = first.groupAliases
      rw [firstAliases, if_pos hg])
    (by
      intro ev _ hev t' ⟨hk, hg, ha⟩
      refine ⟨(key_mergeEvent ev t').trans hk, (isGroup_mergeEvent ev t').trans hg, ?_⟩
      intro hfg
      rw [aliases_mergeEvent, ← ha hfg]
      by_cases hevent : isGroupEvent ev = true
      · exact aliases_keepSpelling_group hevent
      -- A message from one person never has a group's key.
      by_cases hnil : t'.aliases = []
      · rw [hnil]
        exact aliases_keepSpelling_nil hnil
      exfalso
      rw [ha hfg] at hnil
      have hprefix := (hlegacy first hmem hnil).1
      rw [threadKey_group hfg, Option.some.injEq] at hthread
      rw [hthread] at hprefix
      rcases threadKey_single (Bool.eq_false_of_not_eq_true hevent) (messageKey_eq_some hev).2
        with ⟨x, c, _, _, ⟨_, heq⟩ | ⟨_, p, r, _, heq⟩ | ⟨_, _, heq⟩⟩
      · rw [heq, not_group_alphanumeric] at hprefix
        cases hprefix
      · rw [heq, not_group_addressKey] at hprefix
        cases hprefix
      rw [heq, not_group_addressKey] at hprefix
      cases hprefix)
  have hg : isGroupEvent first = true := hP.2.1.symm.trans hgroup
  exact ⟨first, rest, hmessages, hg, hP.2.2 hg⟩

/-- A conversation with a sender spelled on a keypad has the digits as its one alias. -/
def KeypadNamed (t : Thread) : Prop :=
  ∃ identity, t.key = "alphanumeric:".toList ++ identity
    ∧ ∀ a ∈ t.aliases, a = addressKey identity

/-- A conversation with one address has the names of the address as aliases. -/
def AddressNamed (resolver : Resolver) (t : Thread) : Prop :=
  (∃ identity, t.key = addressKey identity)
    ∧ ∀ a ∈ t.aliases, a = t.key ∨ Owned resolver t.key a

theorem keypad_first {first : Event} {key x identity : Str}
    (hsingle : isGroupEvent first = false) (halpha : first.senderAlphanumeric ≠ [])
    (hx : safeEventAddress first.toStored = some x) (hc : canonicalAddress x = some identity) :
    ∀ a ∈ (extendThread lib resolver first (openThread resolver key first)).aliases,
      a = addressKey identity := by
  intro a ha
  rw [aliases_extendThread] at ha
  have hkeep : (keepSpelling first (openThread resolver key first)).aliases
      = firstAliases resolver first := by
    unfold keepSpelling
    rw [if_neg (fun hcond => halpha hcond.2.1)]
    rfl
  rw [hkeep, firstAliases, if_neg (by simp [hsingle]), if_pos halpha, hx] at ha
  split at ha
  · simpa [hc] using ha
  · cases ha

theorem keypad_merge {ev : Event} {identity : Str}
    (hkey : t.key = "alphanumeric:".toList ++ identity) (hev : threadKey resolver ev = some t.key) :
    (mergeEvent lib resolver ev t).aliases = t.aliases := by
  rw [aliases_mergeEvent]
  by_cases hevent : isGroupEvent ev = true
  · exact aliases_keepSpelling_group hevent
  have hnot : isAlphanumericKey t.key = true := by
    rw [hkey]
    exact startsWith_append rfl _
  rcases threadKey_single (Bool.eq_false_of_not_eq_true hevent) hev
    with ⟨x, c, _, _, ⟨halpha, _⟩ | ⟨_, p, r, _, heq⟩ | ⟨_, _, heq⟩⟩
  · unfold keepSpelling
    rw [if_neg (fun hcond => halpha hcond.2.1)]
  · rw [heq, not_alphanumeric_addressKey] at hnot
    cases hnot
  rw [heq, not_alphanumeric_addressKey] at hnot
  cases hnot

/-- The aliases that the first message of an address brings belong to the address. -/
theorem address_first {first : Event} {key : Str} (hsingle : isGroupEvent first = false)
    (halpha : first.senderAlphanumeric = []) (hkey : threadKey resolver first = some key) :
    ∀ a ∈ (openThread resolver key first).aliases, Owned resolver key a := by
  intro a ha
  change a ∈ firstAliases resolver first at ha
  rw [firstAliases, if_neg (by simp [hsingle]), if_neg (by simp [halpha])] at ha
  rcases threadKey_single hsingle hkey with ⟨x, c, hx, hc, hcases⟩
  rw [hx] at ha
  rcases List.mem_map.mp ha with ⟨b, hb, rfl⟩
  rcases hcases with ⟨hne, _⟩ | ⟨_, primary, rest, hblock, hprimary⟩ | ⟨_, hnil, _⟩
  · exact absurd halpha hne
  · refine ⟨x, primary, rest, hblock, hprimary, .inl ⟨b, ?_, rfl⟩⟩
    rw [← hblock]
    exact hb
  · have hb' : b ∈ resolver.threadAddresses x := hb
    rw [hnil] at hb'
    cases hb'

/-- **A conversation with one person has only names of that person.** -/
theorem single_aliases (ht : t ∈ threadsByKey lib resolver correlated)
    (hgroup : t.isGroup = false) : KeypadNamed t ∨ AddressNamed resolver t := by
  rcases thread_induction ht with ⟨first, rest, hmessages, hinduct⟩
  have hfirst : first ∈ messagesOf resolver correlated t.key := hmessages ▸ List.mem_cons_self
  have hkey := (messageKey_eq_some (mem_messagesOf.mp hfirst).2).2
  have hsingle : isGroupEvent first = false := by
    have hP := hinduct (fun t' => t'.isGroup = isGroupEvent first) (isGroup_extendThread _ _)
      (fun ev _ _ t' ht' => (isGroup_mergeEvent ev t').trans ht')
    rw [← hP, hgroup]
  rcases threadKey_single hsingle hkey with ⟨x, c, hx, hc, hcases⟩
  by_cases halpha : first.senderAlphanumeric ≠ []
  · have hname : t.key = "alphanumeric:".toList ++ c := by
      rcases hcases with ⟨_, heq⟩ | ⟨hempty, _⟩ | ⟨hempty, _⟩
      · exact heq
      · exact absurd hempty halpha
      · exact absurd hempty halpha
    have hP := hinduct (fun t' => t'.key = t.key ∧ ∀ a ∈ t'.aliases, a = addressKey c)
      ⟨key_extendThread _ _, keypad_first hsingle halpha hx hc⟩
      (by
        intro ev _ hev t' ⟨hk, ha⟩
        refine ⟨(key_mergeEvent ev t').trans hk, ?_⟩
        rw [keypad_merge (hk.trans hname) (hk ▸ (messageKey_eq_some hev).2)]
        exact ha)
    exact .inl ⟨c, hname, hP.2⟩
  · have hempty : first.senderAlphanumeric = [] := not_not.mp halpha
    have hname : ∃ identity, t.key = addressKey identity := by
      rcases hcases with ⟨hne, _⟩ | ⟨_, p, r, _, heq⟩ | ⟨_, _, heq⟩
      · exact absurd hne halpha
      · exact ⟨p, heq⟩
      · exact ⟨c, heq⟩
    have hP := hinduct
      (fun t' => t'.key = t.key ∧ ∀ a ∈ t'.aliases, a = t.key ∨ Owned resolver t.key a)
      (by
        refine ⟨key_extendThread _ _, ?_⟩
        intro a ha
        rw [aliases_extendThread] at ha
        have hopen : threadKey resolver first = some (openThread resolver t.key first).key := hkey
        rcases mem_aliases_keepSpelling hopen ha with ha | ⟨_, _, ha⟩
        · exact .inr (address_first hsingle hempty hkey a ha)
        · exact ha)
      (by
        intro ev _ hev t' ⟨hk, ha⟩
        refine ⟨(key_mergeEvent ev t').trans hk, ?_⟩
        intro a hmem
        rw [aliases_mergeEvent] at hmem
        rcases mem_aliases_keepSpelling (hk ▸ (messageKey_eq_some hev).2) hmem with hmem | ⟨_, _, hmem⟩
        · exact ha a hmem
        rw [hk] at hmem
        exact hmem)
    exact .inr ⟨hname, hP.2⟩

end Loop

/-! ## The aliases of the returned conversations -/

/-- The aliases a conversation is returned with. -/
def finalAliases (byKey : List Thread) (t : Thread) : List Str :=
  if t.isGroup then t.aliases else pruneAliases byKey t

theorem settleSingle_names (lib : Library) (byKey : List Thread) (t : Thread) :
    (settleSingle lib byKey t).key = t.key
      ∧ (settleSingle lib byKey t).aliases = finalAliases byKey t := by
  unfold settleSingle finalAliases
  split
  · exact ⟨rfl, rfl⟩
  split
  · exact ⟨rfl, rfl⟩
  · split <;> exact ⟨rfl, rfl⟩

theorem conversationKeys_settle (lib : Library) (byKey : List Thread) (t : Thread) :
    conversationKeys (settle lib byKey t) = t.key :: finalAliases byKey t := by
  have h := settleSingle_names lib byKey { t with messages := t.messages.insertionSort (fun a b =>
    orderLe (timestampOrder lib a.timestamp) (timestampOrder lib b.timestamp) = true) }
  show (settleSingle lib byKey _).key :: (settleSingle lib byKey _).aliases = _
  rw [h.1, h.2]
  rfl

/-- Two conversations without a name in common. -/
def NamesApart (names : Thread → List Str) (t u : Thread) : Prop := ∀ a ∈ names t, a ∉ names u

instance (names : Thread → List Str) (t u : Thread) : Decidable (NamesApart names t u) :=
  inferInstanceAs (Decidable (∀ a ∈ names t, a ∉ names u))

instance (names : Thread → List Str) : Std.Symm (NamesApart names) where
  symm := fun _ _ h a hu ht => h a ht hu

/-- No name belongs to two of the conversations. -/
def KeysDisjoint (threads : List Thread) : Prop :=
  threads.Pairwise (NamesApart conversationKeys)

instance (threads : List Thread) : Decidable (KeysDisjoint threads) :=
  inferInstanceAs (Decidable (List.Pairwise _ _))

/-- The final order of the conversations does not matter. -/
theorem keysDisjoint_sortThreads (lib : Library) (starred : List Str) (threads : List Thread) :
    KeysDisjoint (sortThreads lib starred threads) ↔ KeysDisjoint threads := by
  unfold sortThreads KeysDisjoint
  rw [(List.perm_insertionSort _ _).pairwise_iff (fun h => Std.Symm.symm _ _ h), List.pairwise_map]
  rfl

/-- The names a conversation of the loop is returned with. -/
def finalNames (byKey : List Thread) (t : Thread) : List Str := t.key :: finalAliases byKey t

/-- Disjointness of the returned conversations, in terms of those of the loop. -/
theorem keysDisjoint_buildThreads (lib : Library) (resolver : Resolver) (events : List Stored) :
    KeysDisjoint (buildThreads lib resolver events) ↔
      let byKey := threadsByKey lib resolver (correlateGroupEvents lib resolver events)
      ∀ t ∈ byKey, ∀ u ∈ byKey, t ≠ u → NamesApart (finalNames byKey) t u := by
  have hnames : ∀ byKey : List Thread, (fun t u => NamesApart conversationKeys
      (settle lib byKey t) (settle lib byKey u)) = NamesApart (finalNames byKey) := by
    intro byKey
    funext t u
    unfold NamesApart finalNames
    rw [conversationKeys_settle, conversationKeys_settle]
  unfold buildThreads
  dsimp only
  rw [keysDisjoint_sortThreads, KeysDisjoint, List.pairwise_map, hnames]
  constructor
  · intro h t ht u hu hne
    exact h.forall ht hu hne
  · intro h
    exact nodup_threadsByKey.pairwise_of_forall_ne h

/-! ## When the names are disjoint -/

/-- The message that opens the conversation of a key. -/
def opening (resolver : Resolver) (correlated : List Event) (key : Str) : Option Event :=
  (messagesOf resolver correlated key).head?

/-- No old key that a group conversation begins with is the key of another conversation, or an
alias that another group conversation begins with. -/
def GroupAliasesApart (resolver : Resolver) (correlated : List Event) : Prop :=
  ∀ key first, opening resolver correlated key = some first → isGroupEvent first = true →
    ∀ a ∈ first.groupAliases,
      (a ≠ key → opening resolver correlated a = none)
        ∧ ∀ key' first', opening resolver correlated key' = some first' →
            isGroupEvent first' = true → a ∈ first'.groupAliases → key' = key

section Disjoint

variable {lib : Library} {resolver : Resolver} {correlated : List Event}

theorem exists_opening (ht : t ∈ threadsByKey lib resolver correlated) :
    ∃ first, opening resolver correlated t.key = some first ∧ t.isGroup = isGroupEvent first := by
  rcases thread_induction ht with ⟨first, rest, hmessages, hinduct⟩
  refine ⟨first, ?_, ?_⟩
  · rw [opening, hmessages]
    rfl
  · exact hinduct (fun t' => t'.isGroup = isGroupEvent first) (isGroup_extendThread _ _)
      (fun ev _ _ t' ht' => (isGroup_mergeEvent ev t').trans ht')

theorem exists_of_opening (lib : Library) {key : Str} {first : Event}
    (h : opening resolver correlated key = some first) :
    ∃ t ∈ threadsByKey lib resolver correlated, t.key = key := by
  rcases mem_messagesOf.mp (List.mem_of_head? h) with ⟨hmem, hkey⟩
  exact exists_thread lib hmem hkey

theorem aliases_of_opening (hlegacy : ∀ ev ∈ correlated, LegacyAliased lib ev)
    (ht : t ∈ threadsByKey lib resolver correlated) (hgroup : t.isGroup = true) :
    ∃ first, opening resolver correlated t.key = some first ∧ isGroupEvent first = true
      ∧ t.aliases = first.groupAliases ∧ first ∈ correlated := by
  rcases group_aliases hlegacy ht hgroup with ⟨first, rest, hmessages, hfirst, haliases⟩
  refine ⟨first, ?_, hfirst, haliases, ?_⟩
  · rw [opening, hmessages]
    rfl
  · exact (mem_messagesOf.mp (hmessages ▸ List.mem_cons_self)).1

variable {a : Str} {byKey : List Thread}

theorem mem_finalAliases (h : a ∈ finalAliases byKey t) : a ∈ t.aliases := by
  unfold finalAliases pruneAliases at h
  split at h
  · exact h
  · split at h <;> exact List.mem_of_mem_filter h

/-- What a keypad conversation keeps is no name of a numeric one. -/
theorem not_numeric_of_final (hgroup : t.isGroup = false)
    (hkeypad : KeypadNamed t) (h : a ∈ finalAliases byKey t) : a ∉ numericKeys byKey := by
  rcases hkeypad with ⟨identity, hkey, _⟩
  have halpha : isAlphanumericKey t.key = true := by
    rw [hkey]
    exact startsWith_append rfl _
  unfold finalAliases pruneAliases at h
  rw [hgroup, if_neg Bool.false_ne_true, if_pos halpha] at h
  exact of_decide_eq_true (List.mem_filter.mp h).2

theorem mem_numericKeys (ht : t ∈ byKey) (hkey : isAlphanumericKey t.key = false)
    (ha : a ∈ conversationKeys t) : a ∈ numericKeys byKey := by
  refine List.mem_flatMap.mpr ⟨t, List.mem_filter.mpr ⟨ht, ?_⟩, ha⟩
  rw [hkey]
  rfl

/-- The key of a conversation is no alias that another one keeps. -/
theorem key_not_alias (hlegacy : ∀ ev ∈ correlated, LegacyAliased lib ev)
    (hapart : GroupAliasesApart resolver correlated) {u : Thread}
    (ht : t ∈ threadsByKey lib resolver correlated) (hu : u ∈ threadsByKey lib resolver correlated)
    (hne : t ≠ u) : t.key ∉ finalAliases (threadsByKey lib resolver correlated) u := by
  intro ha
  have hkeys : t.key ≠ u.key := fun h => hne (eq_of_key ht hu h)
  cases hgroup : u.isGroup with
  | true =>
    rcases aliases_of_opening hlegacy hu hgroup with ⟨first, hopen, hfirst, haliases, _⟩
    have hmem := mem_finalAliases ha
    rw [haliases] at hmem
    have hnone := (hapart u.key first hopen hfirst t.key hmem).1 hkeys
    rcases exists_opening ht with ⟨first', hopen', _⟩
    rw [hnone] at hopen'
    cases hopen'
  | false =>
    rcases single_aliases hu hgroup with hkeypad | ⟨⟨identity, hkey⟩, _⟩
    · have hnumeric := not_numeric_of_final hgroup hkeypad ha
      rcases hkeypad with ⟨identity, _, hall⟩
      have heq := hall _ (mem_finalAliases ha)
      apply hnumeric
      apply mem_numericKeys ht
      · rw [heq]
        exact not_alphanumeric_addressKey identity
      · exact .head _
    unfold finalAliases pruneAliases at ha
    rw [hgroup, if_neg Bool.false_ne_true, hkey, not_alphanumeric_addressKey,
      if_neg Bool.false_ne_true, List.mem_filter, decide_eq_true_eq, ← hkey] at ha
    rcases ha.2 with heq | hfresh
    · exact hkeys heq
    · exact hfresh (List.mem_map_of_mem ht)

variable {identities : Str → List Str} {records : List ContactRecord}

/-- A name that two addresses own belongs to one conversation. -/
theorem owned_unique (hlookup : IdentityLookup identities records)
    (hresolver : resolver.threadAddresses = threadAddresses identities records) {k k' : Str}
    (h : Owned resolver k a) (h' : Owned resolver k' a) : k = k' := by
  rcases h with ⟨x, p, rest, hblock, rfl, hname⟩
  rcases h' with ⟨y, p', rest', hblock', rfl, hname'⟩
  rw [hresolver] at hblock hblock'
  have hx : threadAddresses identities records x ≠ [] := by
    rw [hblock]
    exact List.cons_ne_nil _ _
  have hy : threadAddresses identities records y ≠ [] := by
    rw [hblock']
    exact List.cons_ne_nil _ _
  have hsame : threadAddresses identities records x = threadAddresses identities records y := by
    rcases hname with ⟨b, hb, rfl⟩ | ⟨c, hc, rfl⟩
    · rw [← hblock] at hb
      rcases hname' with ⟨b', hb', heq⟩ | ⟨c', hc', heq⟩
      · rw [← hblock', ← addressKey_inj heq] at hb'
        exact block_eq_of_mem hb hb'
      rw [← addressKey_inj heq] at hc'
      exact (block_eq_of_canonical hlookup hc' hy hb).symm
    rcases hname' with ⟨b', hb', heq⟩ | ⟨c', hc', heq⟩
    · rw [← hblock', ← addressKey_inj heq] at hb'
      exact block_eq_of_canonical hlookup hc hx hb'
    rw [← addressKey_inj heq] at hc'
    exact hlookup.block x y c hc hc'
  rw [hblock, hblock'] at hsame
  rw [(List.cons.inj hsame).1]

theorem group_of_final (hlegacy : ∀ ev ∈ correlated, LegacyAliased lib ev)
    (ht : t ∈ threadsByKey lib resolver correlated) (hgroup : t.isGroup = true)
    (ha : a ∈ finalAliases (threadsByKey lib resolver correlated) t) :
    startsWith a "group:".toList = true := by
  rcases aliases_of_opening hlegacy ht hgroup with ⟨first, _, _, haliases, hmem⟩
  have ha' := mem_finalAliases ha
  rw [haliases] at ha'
  rcases (hlegacy first hmem (List.ne_nil_of_mem ha')).2 with ⟨name, hname⟩
  rw [hname, List.mem_singleton] at ha'
  rw [ha']
  exact group_legacyNamedGroupKey lib name

theorem address_of_single (ht : t ∈ threadsByKey lib resolver correlated)
    (hgroup : t.isGroup = false) (ha : a ∈ finalAliases (threadsByKey lib resolver correlated) t) :
    startsWith a "group:".toList = false := by
  have ha' := mem_finalAliases ha
  have haddress : ∃ c, a = addressKey c := by
    rcases single_aliases ht hgroup with ⟨c, _, hall⟩ | ⟨⟨c, hkey⟩, hall⟩
    · exact ⟨c, hall a ha'⟩
    rcases hall a ha' with heq | ⟨_, _, _, _, _, ⟨b, _, heq⟩ | ⟨b, _, heq⟩⟩
    · exact ⟨c, heq.trans hkey⟩
    · exact ⟨b, heq⟩
    · exact ⟨b, heq⟩
  rcases haddress with ⟨c, rfl⟩
  exact not_group_addressKey c

/-- A keypad conversation and one with an address keep no alias in common. -/
theorem keypad_apart {u : Thread} (hu : u ∈ threadsByKey lib resolver correlated)
    (hgroup : t.isGroup = false) (hkeypad : KeypadNamed t) (haddress : AddressNamed resolver u)
    (ha : a ∈ finalAliases (threadsByKey lib resolver correlated) t)
    (ha' : a ∈ finalAliases (threadsByKey lib resolver correlated) u) : False := by
  rcases haddress with ⟨⟨identity, hkey⟩, _⟩
  apply not_numeric_of_final hgroup hkeypad ha
  apply mem_numericKeys hu
  · rw [hkey]
    exact not_alphanumeric_addressKey identity
  · exact .tail _ (mem_finalAliases ha')

/-- Two conversations keep no alias in common. -/
theorem aliases_apart (hlookup : IdentityLookup identities records)
    (hresolver : resolver.threadAddresses = threadAddresses identities records)
    (hlegacy : ∀ ev ∈ correlated, LegacyAliased lib ev)
    (hapart : GroupAliasesApart resolver correlated) {u : Thread}
    (ht : t ∈ threadsByKey lib resolver correlated) (hu : u ∈ threadsByKey lib resolver correlated)
    (hne : t ≠ u) (ha : a ∈ finalAliases (threadsByKey lib resolver correlated) t)
    (ha' : a ∈ finalAliases (threadsByKey lib resolver correlated) u) : False := by
  have hkeys : t.key ≠ u.key := fun h => hne (eq_of_key ht hu h)
  cases htg : t.isGroup with
  | true =>
    cases hug : u.isGroup with
    | true =>
      rcases aliases_of_opening hlegacy ht htg with ⟨f, hopen, hf, haliases, _⟩
      rcases aliases_of_opening hlegacy hu hug with ⟨g, hopen', hg, haliases', _⟩
      have hmem := mem_finalAliases ha
      have hmem' := mem_finalAliases ha'
      rw [haliases] at hmem
      rw [haliases'] at hmem'
      exact hkeys ((hapart t.key f hopen hf a hmem).2 u.key g hopen' hg hmem').symm
    | false =>
      have h₁ := group_of_final hlegacy ht htg ha
      rw [address_of_single hu hug ha'] at h₁
      cases h₁
  | false =>
    cases hug : u.isGroup with
    | true =>
      have h₁ := group_of_final hlegacy hu hug ha'
      rw [address_of_single ht htg ha] at h₁
      cases h₁
    | false =>
      rcases single_aliases ht htg with hk | hn
      · rcases single_aliases hu hug with hk' | hn'
        · rcases hk with ⟨c, hc, hall⟩
          rcases hk' with ⟨c', hc', hall'⟩
          have heq := (hall a (mem_finalAliases ha)).symm.trans (hall' a (mem_finalAliases ha'))
          rw [hc, hc', addressKey_inj heq] at hkeys
          exact hkeys rfl
        · exact keypad_apart hu htg hk hn' ha ha'
      rcases single_aliases hu hug with hk' | hn'
      · exact keypad_apart ht hug hk' hn ha' ha
      rcases hn.2 a (mem_finalAliases ha) with heq | howned
      · rw [heq] at ha'
        exact key_not_alias hlegacy hapart ht hu hne ha'
      rcases hn'.2 a (mem_finalAliases ha') with heq' | howned'
      · rw [heq'] at ha
        exact key_not_alias hlegacy hapart hu ht (Ne.symm hne) ha
      · exact hkeys (owned_unique hlookup hresolver howned howned')

/-- **Names of conversations are disjoint but for the old keys of groups.** With contacts whose
identity lookup is consistent, no key or alias belongs to two returned conversations if and only
if the aliases that group conversations begin with stand apart. -/
theorem keysDisjoint_iff (lib : Library) (resolver : Resolver) (identities : Str → List Str)
    (records : List ContactRecord) (hlookup : IdentityLookup identities records)
    (hresolver : resolver.threadAddresses = threadAddresses identities records)
    (events : List Stored) :
    KeysDisjoint (buildThreads lib resolver events) ↔
      GroupAliasesApart resolver (correlateGroupEvents lib resolver events) := by
  have hlegacy : ∀ ev ∈ correlateGroupEvents lib resolver events, LegacyAliased lib ev :=
    fun ev hev => legacyAliased_correlated hev
  rw [keysDisjoint_buildThreads]
  dsimp only
  constructor
  · intro h key first hopen hfirst a ha
    rcases exists_of_opening lib hopen with ⟨t, ht, rfl⟩
    have hfinal : ∀ t' ∈ threadsByKey lib resolver (correlateGroupEvents lib resolver events),
        ∀ f, opening resolver (correlateGroupEvents lib resolver events) t'.key = some f →
          isGroupEvent f = true → a ∈ f.groupAliases →
            a ∈ finalNames (threadsByKey lib resolver
              (correlateGroupEvents lib resolver events)) t' := by
      intro t' ht' f hf hgroup hmem
      rcases exists_opening ht' with ⟨f', hf', hg'⟩
      rw [hf, Option.some.injEq] at hf'
      subst hf'
      rcases aliases_of_opening hlegacy ht' (hg'.trans hgroup) with ⟨f', hf', _, haliases, _⟩
      rw [hf, Option.some.injEq] at hf'
      subst hf'
      refine .tail _ ?_
      unfold finalAliases
      rw [if_pos (hg'.trans hgroup), haliases]
      exact hmem
    have ht_mem := hfinal t ht first hopen hfirst ha
    constructor
    · intro hne
      cases hother : opening resolver (correlateGroupEvents lib resolver events) a with
      | none => rfl
      | some g =>
        exfalso
        rcases exists_of_opening lib hother with ⟨u, hu, hukey⟩
        have htu : t ≠ u := by
          intro heq
          exact hne (by rw [heq, hukey])
        apply h t ht u hu htu a ht_mem
        rw [← hukey]
        exact .head _
    · intro key' first' hopen' hfirst' ha'
      rcases exists_of_opening lib hopen' with ⟨u, hu, rfl⟩
      by_contra hne
      have htu : t ≠ u := fun heq => hne (by rw [heq])
      exact h t ht u hu htu a ht_mem (hfinal u hu first' hopen' hfirst' ha')
  · intro hapart t ht u hu hne a ha ha'
    rcases List.mem_cons.mp ha with rfl | ha
    · rcases List.mem_cons.mp ha' with heq | ha'
      · exact hne (eq_of_key ht hu heq)
      · exact key_not_alias hlegacy hapart ht hu hne ha'
    · rcases List.mem_cons.mp ha' with rfl | ha'
      · exact key_not_alias hlegacy hapart hu ht (Ne.symm hne) ha
      · exact aliases_apart hlookup hresolver hlegacy hapart ht hu hne ha ha'

end Disjoint

/-- The digests of a group's name and of its folded name. -/
def familyDigests : List (Str × Str) :=
  [("Family".toList,
      "bd2d677b2ed4381b48bb1d0841052c6d076e7d634d5052e85dcbe0b8a0dedd80".toList),
    ("family".toList,
      "d34a569ab7aaa54dacd715ae64953455d86b768846cd0085ef4e9e7471489b7b".toList)]

/-- A phonebook with one card. -/
def alexCard : List ContactRecord :=
  [⟨"Alex".toList, ["+15551230001".toList], ["alex@example.org".toList]⟩]

/-- A message to a group under its name, and one from each address of a contact. -/
def familyHistory : List Stored :=
  [{ kind := .smsSent, handle := "sent-1".toList, senderAddress := "+15551230001".toList
     body := "Dinner at eight".toList, timestamp := "2024-05-01T10:00:00+00:00".toList
     groupKey := namedGroupKey (plainLibrary familyDigests) "Family".toList
     groupName := "Family".toList, groupMembers := ["Alex".toList, "Sam".toList]
     groupRecipients := ["+15551230001".toList, "+15551230002".toList], groupReplyReady := true },
   { kind := .smsReceived, handle := "message1".toList, senderAddress := "+15551230001".toList
     body := "Fine".toList, timestamp := "2024-05-01T10:01:00+00:00".toList
     seenAt := "2024-05-01T10:01:00+00:00".toList },
   { kind := .smsReceived, handle := "message2".toList, senderAddress := "alex@example.org".toList
     body := "See you".toList, timestamp := "2024-05-01T10:02:00+00:00".toList
     seenAt := "2024-05-01T10:02:00+00:00".toList }]

/-- The names of the two conversations of such a history are disjoint because the group's old key
stands apart. -/
theorem keysDisjoint_iff_family :
    KeysDisjoint (buildThreads (plainLibrary familyDigests)
        (contactsResolver (plainLibrary familyDigests)
          (fun raw => (canonicalAddress raw).toList) alexCard) familyHistory) ↔
      GroupAliasesApart (contactsResolver (plainLibrary familyDigests)
          (fun raw => (canonicalAddress raw).toList) alexCard)
        (correlateGroupEvents (plainLibrary familyDigests)
          (contactsResolver (plainLibrary familyDigests)
            (fun raw => (canonicalAddress raw).toList) alexCard) familyHistory) :=
  keysDisjoint_iff _ _ _ alexCard (identityLookup_canonical alexCard) rfl familyHistory

/-- A row that was stored under the old key of the group without a name. -/
def orphanedHistory : List Stored :=
  { kind := .smsSent, handle := "sent-0".toList, senderAddress := "+15551230001".toList
    body := "Hello all".toList, timestamp := "2024-05-01T09:00:00+00:00".toList
    groupKey := legacyNamedGroupKey (plainLibrary familyDigests) "Family".toList
    groupMembers := ["Alex".toList, "Sam".toList]
    groupRecipients := ["+15551230001".toList, "+15551230002".toList], groupReplyReady := true }
    :: familyHistory

/-- The old key of the group is then the key of one conversation and an alias of another. -/
theorem keys_meet :
    IdentityLookup (fun raw => (canonicalAddress raw).toList) alexCard
      ∧ ¬ KeysDisjoint (buildThreads (plainLibrary familyDigests)
        (contactsResolver (plainLibrary familyDigests)
          (fun raw => (canonicalAddress raw).toList) alexCard) orphanedHistory) :=
  ⟨identityLookup_canonical alexCard, by decide +kernel⟩

end BlueFerry.Threads
