import BlueFerry.Groups.Matching

/-! # Correlating messages and notifications

`correlateGroupEvents` (`grouping.py`) returns copies of the rows with the matched messages
annotated. It runs in four passes over one list of rows: saved rosters are applied to rows that
were stored with a group (`annotateStored`), each group notification joins the one message it
can be (`joinGroup`), each other notification is linked to its message (`linkDirect`), and the
provisional and the ready views of one group are collapsed (`reconcile`).

The passes only write to messages, so the notifications they walk over are those of the list the
first pass leaves. `Join` is the state of the second pass; the contact names looked up on the
way are kept in it, as the source keeps them.
-/

namespace BlueFerry.Groups

open BlueFerry.Text

/-! ## Addresses of members -/

/-- `_ContactNames`: what contacts answered for each folded name. -/
abbrev ContactNames := List (Str × List Str)

/-- `_ContactNames.addresses`. The first spelling of a folded name decides what is looked up. -/
def contactAddresses (resolver : Resolver) (cache : ContactNames) (name : Str) :
    List Str × ContactNames :=
  let folded := casefold name
  match cache.lookup folded with
  | some found => (found, cache)
  | none =>
    let found := ((resolver.findByName name).filter (fun p => casefold p.1 = folded)).map Prod.snd
    (found, (folded, found) :: cache)

/-- `sorted(addresses_by_name.get(name, ()))`, for the pairs of a folded name and an address. -/
def knownAddresses (known : List (Str × Str)) (folded : Str) : List Str :=
  sorted (((known.filter (fun p => p.1 = folded)).map Prod.snd).dedup)

/-- The addresses among `found` that have an identity, if it is one identity. -/
def uniqueAddress (found : List Str) : Option Str :=
  if (found.filterMap canonicalAddress).dedup.length = 1 then
    found.find? (fun a => (canonicalAddress a).isSome)
  else none

section

variable (resolver : Resolver) (known : List (Str × Str))

/-- `_member_address`. -/
def memberAddress (cache : ContactNames) (member : Str) : Option Str × ContactNames :=
  if (canonicalAddress member).isSome then (some (strip member), cache)
  else
    let contacts := contactAddresses resolver cache member
    (uniqueAddress (knownAddresses known (casefold member) ++ contacts.1), contacts.2)

/-- `_member_roster_token`. -/
def memberRosterToken (cache : ContactNames) (member : Str) : Str × ContactNames :=
  let found := memberAddress resolver known cache member
  ((found.1.bind canonicalAddress).getD ("name:".toList ++ casefold member), found.2)

/-! ## The roster of an unnamed group -/

/-- `", ".join(sorted(members, key=str.casefold))`. -/
def displayMembers (members : List Str) : Str :=
  List.intercalate ", ".toList (sortedBy casefold members)

/-- `"group:addresses:" + "|".join(...)`. -/
def addressesKey (identities : List Str) : Str :=
  "group:addresses:".toList ++ join '|' identities

/-- `_group_identity`: key and display name. -/
def groupIdentity (lib : Library) (members recipients : List Str) (replyReady : Bool) : Str × Str :=
  (if replyReady then addressesKey (sorted (recipients.filterMap canonicalAddress))
    else unnamedGroupKey lib members,
   displayMembers members)

/-- What the loop over the members of one notification has gathered. -/
structure Roster where
  recipients : List Str := []
  missing : List Str := []
  unresolved : Bool := false
  cache : ContactNames
  deriving DecidableEq

/-- One member of the loop. The title of a notification is remote text, so it names the sender's
own address only when contacts agree with it. -/
def addMember (senderTitle : Str)
    (verified : Bool) (senderAddress : Option Str) (r : Roster) (member : Str) : Roster :=
  let isSender := senderTitle ≠ [] ∧ casefold member = casefold senderTitle
  let found := memberAddress resolver known r.cache member
  let address := if isSender then (if verified then senderAddress else none) else found.1
  let unknown := if isSender then senderAddress.isNone else found.1.isNone
  { recipients := match address with
      | some a => if a ∈ r.recipients then r.recipients else r.recipients ++ [a]
      | none => r.recipients
    missing := if unknown then r.missing ++ [member] else r.missing
    unresolved := r.unresolved || address.isNone
    cache := if isSender then r.cache else found.2 }

end

/-- `reply_ready` of an unnamed group. -/
def rosterReady (members : List Str) (senderAddress : Option Str) (r : Roster) : Bool :=
  let senderIdentity := senderAddress.bind canonicalAddress
  !r.unresolved && decide (2 ≤ r.recipients.length)
    && decide (r.recipients.length = members.length)
    && senderIdentity.isSome && decide (senderIdentity ∈ r.recipients.map canonicalAddress)

/-- The annotation of a message of an unnamed group without a saved roster. -/
def annotateUnnamed (lib : Library) (members : List Str) (senderTitle : Str) (verified : Bool)
    (senderAddress : Option Str) (r : Roster) (sms : Event) : Event :=
  let ready := rosterReady members senderAddress r
  let identity := groupIdentity lib members r.recipients ready
  { sms with
    groupKey := identity.1
    groupName := identity.2
    groupMembers := members
    groupRecipients := r.recipients
    groupReplyReady := ready
    groupObservedSender := senderTitle
    groupObservedRecipient := senderAddress.getD []
    groupSenderVerified := some verified
    groupOrigin := if ready then .unset else .unnamed
    groupParticipantsRequired := !ready
    groupMissingMembers := some (if ready then [] else r.missing) }

/-! ## Joining group notifications -/

/-- The state of the loop over group notifications. -/
structure Join where
  out : List Event
  matched : List Nat := []
  ambiguous : List Nat := []
  known : List (Str × Str)
  cache : ContactNames := []

section

variable (lib : Library) (resolver : Resolver)

/-- Joins a notification with the one message it can be. -/
def joinMessage (routes : NamedGroupRoutes) (s : Join)
    (event : Event) (layout : Layout) (index : Nat) : Join :=
  match s.out[index]? with
  | none => s
  | some sms =>
    -- A title that names somebody else: the two rows are not safe to join.
    if !namesAgree event.toStored sms.toStored then s
    else
      let senderTitle := strip event.title
      let verified := nameVerified event.toStored sms.toStored
      let senderAddress := safeEventAddress sms.toStored
      let linked := { sms with
        correlatedAncsRowIds := sms.correlatedAncsRowIds ++ event.rowId.toList }
      let known := match verified, senderAddress with
        | true, some a => (casefold senderTitle, a) :: s.known
        | _, _ => s.known
      let joined := { s with matched := index :: s.matched, known := known }
      match layout with
      | .named name =>
        { joined with
          out := s.out.set index (routes.received lib name senderTitle senderAddress linked) }
      | .unnamed members =>
        let savedKey := unnamedGroupKey lib members
        if routes.hasRoute savedKey then
          { joined with
            out := s.out.set index (routes.receivedUnnamed lib savedKey
              (displayMembers members) senderTitle senderAddress linked) }
        else
          let roster := members.foldl
            (addMember resolver known senderTitle verified senderAddress) { cache := s.cache }
          { joined with
            out := s.out.set index
              (annotateUnnamed lib members senderTitle verified senderAddress roster linked)
            cache := roster.cache }

/-- One group notification. -/
def joinGroup (routes : NamedGroupRoutes)
    (rows : List Event) (candidates : List Candidate) (s : Join) (event : Event) : Join :=
  if event.kind ≠ .ancsNotification then s
  else
    match layoutOf event.toStored, noticeTime lib event.toStored with
    | some layout, some time =>
      let found := matching candidates event.body time none
      let unsure := { s with ambiguous := s.ambiguous ++ found.filter (fun i =>
        rows[i]?.any (fun sms => namesAgree event.toStored sms.toStored)) }
      -- A copy of a notification whose message is already joined.
      if found ≠ [] ∧ ∀ i ∈ found, i ∈ s.matched then s
      else
        match found with
        | [index] =>
          if 1 < (evidenceBySms lib rows candidates index).length then unsure
          else joinMessage lib resolver routes s event layout index
        | _ => unsure
    | _, _ => s

/-- `ambiguous - matched` is marked. -/
def markAmbiguous (s : Join) : List Event :=
  s.out.mapIdx (fun i e =>
    if i ∈ s.ambiguous ∧ i ∉ s.matched then { e with groupAmbiguous := true } else e)

/-! ## Linking other notifications -/

/-- A keypad match names the sender of a repeated text too. -/
def nameKeypad (senderTitle : Str) (out : List Event) (index : Nat) : List Event :=
  out.modify index (fun e =>
    if spelledOnKeypad senderTitle e.senderAddress then { e with senderAlphanumeric := senderTitle }
    else e)

/-- One Messages notification that is not a group's. -/
def linkDirect (lib : Library) (candidates : List Candidate) (out : List Event) (event : Event) :
    List Event :=
  if event.kind ≠ .ancsNotification ∨ event.appId ≠ messagesAppId
      ∨ (layoutOf event.toStored).isSome then out
  else
    match noticeTime lib event.toStored with
    | none => out
    | some time =>
      let direct := matching candidates event.body time (some 2)
      let named := direct.foldl (nameKeypad (strip event.title)) out
      match direct with
      | [index] =>
        named.modify index (fun sms =>
          if namesAgree event.toStored sms.toStored then
            { sms with
              correlatedAncsRowIds := sms.correlatedAncsRowIds ++ event.rowId.toList }
          else sms)
      | _ => named

/-! ## One view of each group -/

/-- The first spelling of each identity among `values`. -/
def distinctAddresses (values : List Str) : List Str :=
  values.foldl (fun kept a =>
    if (canonicalAddress a).isSome ∧ canonicalAddress a ∉ kept.map canonicalAddress then kept ++ [a]
    else kept) []

/-- `recipient_signature`. -/
def recipientSignature (ev : Event) : List Str :=
  sorted ((distinctAddresses ev.groupRecipients).filterMap canonicalAddress)

/-- The tokens of the members of a row, in order. -/
def rosterTokens (resolver : Resolver) (known : List (Str × Str)) :
    ContactNames → List Str → List Str × ContactNames
  | cache, [] => ([], cache)
  | cache, member :: members =>
    let token := memberRosterToken resolver known cache member
    let rest := rosterTokens resolver known token.2 members
    (token.1 :: rest.1, rest.2)

/-- The cluster a row falls in: the identities of its members, none where the row keeps its key
or a member is unknown. -/
def clusterOf (resolver : Resolver) (known : List (Str × Str)) (routes : NamedGroupRoutes)
    (cache : ContactNames) (ev : Event) : Option (List Str) × ContactNames :=
  let members := memberNames ev.groupMembers
  if !ev.kind.isSms ∨ ev.groupOrigin = .named ∨ routes.hasRoute ev.groupKey
      ∨ members.length < 2 then (none, cache)
  else
    let tokens := rosterTokens resolver known cache members
    (if tokens.1.any (fun token => startsWith token "name:".toList) then none
      else some (sorted tokens.1), tokens.2)

/-- The clusters of the rows, in order. -/
def clusters (resolver : Resolver) (known : List (Str × Str)) (routes : NamedGroupRoutes) :
    ContactNames → List Event → List (Option (List Str))
  | _, [] => []
  | cache, ev :: events =>
    let found := clusterOf resolver known routes cache ev
    found.1 :: clusters resolver known routes found.2 events

/-- The row whose recipients a cluster takes: the first that is ready, if all that are ready
agree. -/
def verifiedSource (grouped : List Event) : Option Event :=
  match grouped.filter (fun e => e.groupReplyReady ∧ 2 ≤ (recipientSignature e).length) with
  | [] => none
  | source :: rest =>
    if rest.all (fun e => recipientSignature e = recipientSignature source) then some source
    else none

/-- A row of a cluster takes the key and the recipients of the source. -/
def adopt (source ev : Event) : Event :=
  if ev.groupSenderVerified = some false then ev
  else { ev with
    groupKey := addressesKey (recipientSignature source)
    groupName := source.groupName
    groupRecipients := distinctAddresses source.groupRecipients
    groupReplyReady := true
    groupOrigin := .unset
    groupParticipantsRequired := false
    groupMissingMembers := some [] }

/-- The row of a cluster after reconciliation; the clusters do not touch each other's rows. -/
def reconcileRow (tagged : List (Event × Option (List Str))) (row : Event × Option (List Str)) :
    Event :=
  match row.2 with
  | none => row.1
  | some roster =>
    match verifiedSource ((tagged.filter (fun r => r.2 = some roster)).map Prod.fst) with
    | none => row.1
    | some source => adopt source row.1

/-- `_reconcile_group_identities`. -/
def reconcile (resolver : Resolver) (known : List (Str × Str)) (routes : NamedGroupRoutes)
    (cache : ContactNames) (events : List Event) : List Event :=
  let tagged := events.zip (clusters resolver known routes cache events)
  tagged.map (reconcileRow tagged)

/-! ## The whole pass -/

/-- The routes of the history: those saved, under the names it shows. -/
def routesOf (lib : Library) (events : List Stored) : NamedGroupRoutes :=
  NamedGroupRoutes.ofEvents lib events (events.filterMap namedGroupFromAncs)

/-- `addresses_by_name` as learned from all messages. -/
def learnedNames (events : List Event) : List (Str × Str) :=
  events.filterMap (fun ev =>
    let name := strip ev.contactName
    if ev.kind.isSms ∧ name ≠ [] then
      (safeEventAddress ev.toStored).map (fun address => (casefold name, address))
    else none)

/-- The rows with saved rosters applied. -/
def annotated (lib : Library) (events : List Stored) : List Event :=
  events.map (fun s => (routesOf lib events).annotateStored lib s.toEvent)

/-- The state after the loop over group notifications. -/
def joined (events : List Stored) : Join :=
  let rows := annotated lib events
  rows.foldl (joinGroup lib resolver (routesOf lib events) rows (messageCandidates lib rows))
    { out := rows, known := learnedNames rows }

/-- The rows after the loop over the other notifications. -/
def linked (events : List Stored) : List Event :=
  let rows := annotated lib events
  rows.foldl (linkDirect lib (messageCandidates lib rows))
    (markAmbiguous (joined lib resolver events))

/-- `correlate_group_events`. -/
def correlateGroupEvents (events : List Stored) : List Event :=
  let s := joined lib resolver events
  reconcile resolver s.known (routesOf lib events) s.cache (linked lib resolver events)

end

end BlueFerry.Groups
