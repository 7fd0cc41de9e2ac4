import BlueFerry.Groups.Event

/-! # Group names and saved rosters

The iPhone gives a group no conversation id. A named group is keyed by the digest of its name, an
unnamed one by the digest of its member names (`named_groups.py`). The older key of a named group
folded the spelling of the name, so it is used only to read retained rows, and only while one
spelling owns it (`NamedGroupRoutes.aliases`).

`NamedGroupRoutes` holds the rosters the user saved. A roster may hold a warning about a sender
outside it (`heldRosterWarning`); while it does, no message that the roster is applied to is
ready for a reply.
-/

namespace BlueFerry.Groups

open BlueFerry.Text

/-! ## Keys -/

/-- The pieces of `s` between the characters in `p`. -/
def splitWhere (p : Char → Bool) : Str → List Str
  | [] => [[]]
  | c :: s =>
    if p c then [] :: splitWhere p s
    else
      match splitWhere p s with
      | [] => [[c]]
      | piece :: rest => (c :: piece) :: rest

/-- `str.split()`: the words between runs of white space. -/
def words (s : Str) : List Str := (splitWhere isSpace s).filter (· ≠ [])

section

variable (lib : Library)

/-- `_name`. -/
def nameOf (value : Str) : Str := strip (lib.nfc value)

/-- `named_group_key`. -/
def namedGroupKey (name : Str) : Str :=
  "group:named:v2:".toList ++ lib.digest (nameOf lib name)

/-- `UNNAMED_GROUP_PREFIX`. -/
def unnamedGroupPrefix : Str := "group:participants:".toList

/-- `unnamed_group_key`. -/
def unnamedGroupKey (members : List Str) : Str :=
  unnamedGroupPrefix ++ "v2:".toList ++ lib.digest (lib.dumps (sorted (members.map casefold)))

/-- `character in "0123456789abcdef"`. -/
def isHex (c : Char) : Bool := c ∈ "0123456789abcdef".toList

/-- `is_legacy_unnamed_group_key`. -/
def isLegacyUnnamedGroupKey (key : Str) : Bool :=
  startsWith key unnamedGroupPrefix &&
    let rest := key.drop unnamedGroupPrefix.length
    !(startsWith rest "v2:".toList && rest.length == 67 && (rest.drop 3).all isHex)

/-- `is_unnamed_group_key`. -/
def isUnnamedGroupKey (key : Str) : Bool :=
  startsWith key unnamedGroupPrefix && !isLegacyUnnamedGroupKey key

/-- `legacy_named_group_key`. -/
def legacyNamedGroupKey (name : Str) : Str :=
  "group:named:".toList ++ lib.digest (join ' ' (words (casefold (strip (lib.nfkc name)))))

/-- `_stored_name`: the name recorded with a key, if the key is that name's. -/
def storedName (ev : Stored) : Str :=
  let name := nameOf lib ev.groupName
  if name ≠ [] ∧ (ev.groupKey = namedGroupKey lib name ∨ ev.groupKey = legacyNamedGroupKey lib name)
  then name else []

/-- `stored_named_group_key`. -/
def storedNamedGroupKey (ev : Stored) : Str :=
  let name := storedName lib ev
  if name ≠ [] then namedGroupKey lib name else []

/-! ## Versions and held warnings -/

/-- `route_version`. -/
def routeVersion (route : Stored) : Str :=
  if route.seenAt ≠ [] then route.seenAt
  else if storedNamedGroupKey lib route ≠ [] then storedNamedGroupKey lib route
  else route.groupKey

/-- What `held_roster_warning` returns when it is not empty. -/
structure HeldWarning where
  unexpectedSender : Str
  warningId : Str
  deriving DecidableEq

/-- `held_roster_warning`. -/
def heldRosterWarning (route : Stored) : Option HeldWarning :=
  if startsWith route.groupRosterWarningId (routeVersion lib route ++ ":".toList) then
    some ⟨route.groupUnexpectedSender, route.groupRosterWarningId⟩
  else none

end

/-! ## The saved rosters of a history -/

/-- `NamedGroupRoutes`: names under the legacy key they fold to, and a roster for each key. -/
structure NamedGroupRoutes where
  names : List (Str × Str)
  routes : List (Str × Stored)

namespace NamedGroupRoutes

/-- The names recorded under a legacy key. -/
def namesUnder (r : NamedGroupRoutes) (legacy : Str) : List Str :=
  (r.names.filter (fun p => p.1 = legacy)).map Prod.snd

section

variable (lib : Library) (r : NamedGroupRoutes)

/-- `aliases`: the legacy key, while no other spelling folds to it. -/
def aliases (name : Str) : List Str :=
  let legacy := legacyNamedGroupKey lib name
  let known := r.namesUnder legacy
  if known ≠ [] ∧ ∀ n ∈ known, n = nameOf lib name then [legacy] else []

/-- The recipients of a roster that are not blank, as it is checked. -/
def rosterAddresses (route : Stored) : List Str :=
  (route.groupRecipients.map strip).filter (· ≠ [])

/-- The checks on the recipients of a roster. -/
def acceptable (route : Stored) : Bool :=
  let recipients := rosterAddresses route
  let identities := recipients.map canonicalAddress
  decide (2 ≤ recipients.length) && decide (recipients.length ≤ 20)
    && identities.all Option.isSome && decide identities.Nodup

/-- The key a roster is kept under, none where it cannot be assigned to one conversation. -/
def routeKey (ev : Stored) : Option Str :=
  let name := storedName lib ev
  if name ≠ [] then
    let key := namedGroupKey lib name
    if ev.groupKey ≠ key ∧ aliases lib r name = [] then none else some key
  else if isUnnamedGroupKey ev.groupKey then some ev.groupKey
  else none

/-- One step of the loop over `group_route` rows: the last acceptable roster of a key wins. -/
def addRoute (ev : Stored) : NamedGroupRoutes :=
  if ev.kind ≠ .groupRoute then r
  else
    match routeKey lib r ev with
    | none => r
    | some key => if acceptable ev then { r with routes := (key, ev) :: r.routes } else r

/-- `NamedGroupRoutes.__init__`. -/
def ofEvents (lib : Library) (events : List Stored) (observedNames : List Str) : NamedGroupRoutes :=
  let known := (observedNames ++ events.map (storedName lib)).filter (· ≠ [])
  events.foldl (addRoute lib)
    ⟨known.map (fun name => (legacyNamedGroupKey lib name, nameOf lib name)), []⟩

/-- `self._routes.get(key)`; the newest entry of a key stands first. -/
def route (r : NamedGroupRoutes) (key : Str) : Option Stored := r.routes.lookup key

/-- `has_route`. -/
def hasRoute (r : NamedGroupRoutes) (key : Str) : Bool := (r.route key).isSome

/-- `_apply_stored`: a roster replaces the routing data of a row, not ready while it holds a
warning. -/
def applyRoute (lib : Library) (route : Stored) (ev : Event) : Event :=
  let applied := { ev with
    groupName := route.groupName
    groupMembers := route.groupMembers
    groupRecipients := route.groupRecipients
    groupReplyReady := (heldRosterWarning lib route).isNone
    groupParticipantsRequired := (heldRosterWarning lib route).isSome }
  match heldRosterWarning lib route with
  | none => applied
  | some held => { applied with
      groupRosterChanged := true
      groupUnexpectedSender := held.unexpectedSender
      groupRosterWarningId := held.warningId }

/-- `annotate_stored`. -/
def annotateStored (ev : Event) : Event :=
  if !ev.kind.isSms then ev
  else
    let name := storedName lib ev.toStored
    if name = [] then
      if isLegacyUnnamedGroupKey ev.groupKey then
        { ev with
          groupOrigin := .unnamed
          groupReplyReady := false
          groupParticipantsRequired := false }
      else if isUnnamedGroupKey ev.groupKey then
        let ev' := { ev with groupOrigin := .unnamed }
        match r.route ev.groupKey with
        | some route => applyRoute lib route ev'
        | none => { ev' with groupReplyReady := false, groupParticipantsRequired := true }
      else ev
    else
      let key := namedGroupKey lib name
      let wasLegacy := ev.groupKey ≠ key
      let ev' := { ev with
        groupKey := key, groupAliases := aliases lib r name, groupOrigin := .named }
      match r.route key with
      | some route => applyRoute lib route ev'
      | none =>
        if wasLegacy ∧ aliases lib r name = [] then
          { ev' with groupReplyReady := false, groupParticipantsRequired := true }
        else ev'

/-- The routing data of one received message, as `_received` returns it. -/
structure Routing where
  recipients : List Str
  members : List Str
  replyReady : Bool
  rosterChanged : Bool
  unexpectedSender : Str
  warningId : Str
  deriving DecidableEq

/-- `_received` before a held warning is looked at. -/
def observe (key senderTitle : Str) (senderAddress : Option Str) : Routing :=
  match r.route key with
  | none =>
    ⟨senderAddress.toList, if senderTitle = [] then [] else [senderTitle], false, false, [], []⟩
  | some route =>
    let recipients := route.groupRecipients
    let senderIdentity := senderAddress.bind canonicalAddress
    if senderIdentity.isSome ∧ senderIdentity ∈ recipients.map canonicalAddress then
      ⟨recipients, route.groupMembers, true, false, [], []⟩
    else
      let extended := match senderAddress with
        | some a => if a ∈ recipients then recipients else recipients ++ [a]
        | none => recipients
      match senderIdentity with
      | some identity =>
        ⟨extended, route.groupMembers, false, true, senderTitle,
          routeVersion lib route ++ ":".toList ++ identity⟩
      | none => ⟨extended, route.groupMembers, false, false, [], []⟩

/-- A held warning stands until a newer one replaces it: a member writing again does not
answer it. -/
def holdBack (key : Str) (seen : Routing) : Routing :=
  match (r.route key).bind (heldRosterWarning lib) with
  | none => seen
  | some held =>
    if seen.rosterChanged then seen
    else { seen with
      replyReady := false
      rosterChanged := true
      unexpectedSender := held.unexpectedSender
      warningId := held.warningId }

/-- `_received`, applied to the message it describes. -/
def receive (key senderTitle : Str) (senderAddress : Option Str) (ev : Event) : Event :=
  let routing := holdBack lib r key (observe lib r key senderTitle senderAddress)
  { ev with
    groupKey := key
    groupMembers := routing.members
    groupRecipients := routing.recipients
    groupReplyReady := routing.replyReady
    groupParticipantsRequired := !routing.replyReady
    groupObservedRecipient := senderAddress.getD []
    groupObservedSender := senderTitle
    groupRosterChanged := routing.rosterChanged
    groupUnexpectedSender := routing.unexpectedSender
    groupRosterWarningId := routing.warningId }

/-- `received`. -/
def received (name senderTitle : Str) (senderAddress : Option Str) (ev : Event) : Event :=
  { receive lib r (namedGroupKey lib name) senderTitle senderAddress ev with
    groupAliases := aliases lib r name
    groupName := name
    groupOrigin := .named }

/-- `received_unnamed`. -/
def receivedUnnamed (key name senderTitle : Str)
    (senderAddress : Option Str) (ev : Event) : Event :=
  { receive lib r key senderTitle senderAddress ev with
    groupAliases := []
    groupName := name
    groupOrigin := .unnamed }

end

end NamedGroupRoutes

end BlueFerry.Groups
