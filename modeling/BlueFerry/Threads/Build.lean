import BlueFerry.Groups.Correlate

/-! # Building conversations

`buildThreads` (`threads.py`) sorts the correlated messages into conversations. The loop keeps
the conversations in the order of their first message (`byKey`); the first message of a key sets
the conversation up (`openThread`), every later one is merged into it (`mergeGroup` for the data
of a group), and each one is appended (`addMessage`). The last pass prunes the aliases of
conversations with one person, decides where a reply goes and whether one may be sent.
-/

namespace BlueFerry.Threads

open BlueFerry.Text
open BlueFerry.Groups

/-! ## Times -/

/-- `timestamp_order`; the minus infinity of a text that is no time is `none`. -/
def timestampOrder (lib : Library) (value : Str) : Option Int := lib.instant value

/-- `a <= b` of two such values. -/
def orderLe : Option Int → Option Int → Bool
  | none, _ => true
  | some _, none => false
  | some a, some b => decide (a ≤ b)

/-- `_event_time`. -/
def eventTime (ev : Stored) : Str := if ev.timestamp ≠ [] then ev.timestamp else ev.seenAt

/-! ## Messages and conversations -/

/-- One message of a conversation. -/
structure Message where
  handle : Str
  address : Str
  body : Str
  timestamp : Str
  outgoing : Bool
  sender : Str
  read : Bool
  bodyTruncated : Bool
  /-- whether the source puts its `id` in `maybe_group` -/
  maybeGroup : Bool
  deriving DecidableEq

/-- One conversation. -/
structure Thread where
  key : Str
  aliases : List Str
  name : Str
  isGroup : Bool
  members : List Str
  recipients : List Str
  observedRecipients : List Str
  replyReady : Bool
  groupOrigin : Origin
  participantsRequired : Bool
  promptSender : Str
  rosterChanged : Bool
  unexpectedSender : Str
  rosterWarningId : Str
  missingMembers : Option (List Str)
  groupAmbiguous : Bool := false
  senderReplyToken : Option Str := none
  messages : List Message := []
  lastTs : Str := []
  messagesTruncated : Bool := false
  unread : Bool := false
  starred : Bool := false
  deriving DecidableEq

/-- `conversation_keys`. -/
def conversationKeys (thread : Thread) : List Str := thread.key :: thread.aliases

/-! ## Names and keys -/

section

variable (resolver : Resolver) (ev : Event)

/-- `_thread_name`. -/
def threadName (address : Option Str) : Str :=
  if ev.groupName ≠ [] then ev.groupName
  else
    match (address.bind resolver.resolve).filter (· ≠ []) with
    | some resolved => resolved
    | none => displaySenderFromDict ev.toStored

/-- `_message_sender`. -/
def messageSender (address : Option Str) : Str :=
  match (address.bind resolver.resolve).filter (· ≠ []) with
  | some resolved => resolved
  | none =>
    let contact := strip ev.contactName
    let observed := strip ev.groupObservedSender
    if contact ≠ [] then contact
    else if observed ≠ [] then observed
    else address.getD "(unknown)".toList

/-- `_contact_addresses`. A message without a safe address has none. -/
def contactAddressesOf (resolver : Resolver) (address : Option Str) : List Str :=
  match address with
  | some a => resolver.threadAddresses a
  | none => []

/-- `"address:" + identity`. -/
def addressKey (identity : Str) : Str := "address:".toList ++ identity

/-- `thread_key`. -/
def threadKey : Option Str :=
  if ev.groupKey ≠ [] then some ev.groupKey
  else
    let address := safeEventAddress ev.toStored
    let identity := address.bind canonicalAddress
    if ev.senderAlphanumeric ≠ [] then identity.map ("alphanumeric:".toList ++ ·)
    else
      match contactAddressesOf resolver address with
      | primary :: _ => some (addressKey primary)
      | [] => identity.map addressKey

/-! ## The loop over messages -/

/-- Whether a message belongs to a group. -/
def isGroupEvent (ev : Event) : Bool := ev.groupKey ≠ []

/-- The aliases a conversation begins with. -/
def firstAliases : List Str :=
  let address := safeEventAddress ev.toStored
  if isGroupEvent ev then ev.groupAliases
  else if ev.senderAlphanumeric ≠ [] then
    match contactAddressesOf resolver address with
    | [] => ((address.bind canonicalAddress).map addressKey).toList
    | _ :: _ => []
  else (contactAddressesOf resolver address).map addressKey

/-- The sender an annotated message was observed from. -/
def observedRecipient (ev : Event) : List Str :=
  let observed := strip ev.groupObservedRecipient
  if observed ≠ [] then [observed] else []

/-- The conversation as its first message opens it. -/
def openThread (resolver : Resolver) (key : Str) (ev : Event) : Thread :=
  let address := safeEventAddress ev.toStored
  { key := key
    aliases := firstAliases resolver ev
    name := threadName resolver ev address
    isGroup := isGroupEvent ev
    members := if isGroupEvent ev then ev.groupMembers else []
    recipients := if isGroupEvent ev then ev.groupRecipients else address.toList
    observedRecipients := if isGroupEvent ev then observedRecipient ev else []
    replyReady := if isGroupEvent ev then ev.groupReplyReady else address.isSome
    groupOrigin :=
      if ev.groupOrigin ≠ .unset then ev.groupOrigin
      else if startsWith key "group:named:".toList then .named else .unset
    participantsRequired := ev.groupParticipantsRequired
    promptSender := ev.groupObservedSender
    rosterChanged := ev.groupRosterChanged
    unexpectedSender := ev.groupUnexpectedSender
    rosterWarningId := ev.groupRosterWarningId
    missingMembers := if isGroupEvent ev then ev.groupMissingMembers else none }

/-- Appends the values that are not in the list yet. -/
def addNew (values new : List Str) : List Str :=
  new.foldl (fun vs v => if v ∈ vs then vs else vs ++ [v]) values

/-- A later message of a group. -/
def mergeGroup (thread : Thread) : Thread :=
  let address := safeEventAddress ev.toStored
  let missing := match ev.groupMissingMembers, thread.missingMembers with
    | none, still => still
    | some new, none => some new
    | some new, some still =>
      some (still.filter (fun member => casefold member ∈ new.map casefold))
  let merged := { thread with
    members := addNew thread.members ev.groupMembers
    recipients := addNew thread.recipients ev.groupRecipients
    name := if ev.groupRecipients.all (· ∈ thread.recipients) then thread.name
      else threadName resolver ev address
    observedRecipients := addNew thread.observedRecipients (observedRecipient ev)
    replyReady := thread.replyReady || ev.groupReplyReady
    participantsRequired := thread.participantsRequired || ev.groupParticipantsRequired
    missingMembers := missing
    groupOrigin := if ev.groupOrigin ≠ .unset then ev.groupOrigin else thread.groupOrigin }
  if ev.groupRosterChanged then
    { merged with
      rosterChanged := true
      unexpectedSender := ev.groupUnexpectedSender
      rosterWarningId := ev.groupRosterWarningId }
  else merged

/-- A sender spelled on a keypad: a reply would go to the digits, not to the sender. -/
def nameAlphanumeric (lib : Library) (ev : Event) (thread : Thread) : Thread :=
  if !isGroupEvent ev ∧ ev.senderAlphanumeric ≠ [] then
    { thread with
      replyReady := false
      name :=
        if !lib.islower ev.senderAlphanumeric
            ∨ casefold ev.senderAlphanumeric ≠ casefold thread.name
        then ev.senderAlphanumeric else thread.name }
  else thread

/-- The key that a dialling spelling had before contacts were loaded stays usable. -/
def keepSpelling (ev : Event) (thread : Thread) : Thread :=
  if !isGroupEvent ev ∧ ev.senderAlphanumeric = [] ∧ thread.aliases ≠ [] then
    match (safeEventAddress ev.toStored).bind canonicalAddress with
    | some identity =>
      { thread with aliases := sorted ((addressKey identity :: thread.aliases).dedup) }
    | none => thread
  else thread

/-- The message of an event. -/
def messageOf : Message :=
  let address := safeEventAddress ev.toStored
  { handle := ev.handle
    address := address.getD []
    body := ev.body
    timestamp := eventTime ev.toStored
    outgoing := ev.kind = .smsSent
    sender := if isGroupEvent ev ∧ ev.kind ≠ .smsSent then messageSender resolver ev address else []
    read := ev.isRead.getD true
    bodyTruncated := ev.bodyTruncated
    maybeGroup := !isGroupEvent ev && ev.groupAmbiguous }

end

section

variable (lib : Library) (resolver : Resolver)

/-- Appends a message; the newest one dates the conversation. -/
def addMessage (ev : Event) (thread : Thread) : Thread :=
  let message := messageOf resolver ev
  let extended := { thread with messages := thread.messages ++ [message] }
  if orderLe (timestampOrder lib thread.lastTs) (timestampOrder lib message.timestamp) then
    { extended with
      lastTs := message.timestamp
      promptSender :=
        if ev.groupObservedSender ≠ [] then ev.groupObservedSender else thread.promptSender }
  else extended

/-- What a message does to its conversation, whether it opened it or not. -/
def extendThread (ev : Event) (thread : Thread) : Thread :=
  addMessage lib resolver ev (keepSpelling ev (nameAlphanumeric lib ev thread))

/-- One event of the loop. `byKey` holds one conversation for each key, oldest first. -/
def bucket (byKey : List Thread) (ev : Event) : List Thread :=
  if !ev.kind.isMessage then byKey
  else
    match threadKey resolver ev with
    | none => byKey
    | some key =>
      if byKey.any (fun thread => thread.key = key) then
        byKey.map (fun thread =>
          if thread.key = key then
            extendThread lib resolver ev
              (if isGroupEvent ev then mergeGroup resolver ev thread else thread)
          else thread)
      else byKey ++ [extendThread lib resolver ev (openThread resolver key ev)]

/-! ## The last pass -/

/-- `thread["key"].startswith("alphanumeric:")`. -/
def isAlphanumericKey (key : Str) : Bool := startsWith key "alphanumeric:".toList

/-- `numeric_keys`. -/
def numericKeys (byKey : List Thread) : List Str :=
  (byKey.filter (fun thread => !isAlphanumericKey thread.key)).flatMap conversationKeys

/-- The aliases that a conversation with one person keeps. -/
def pruneAliases (byKey : List Thread) (thread : Thread) : List Str :=
  if isAlphanumericKey thread.key then
    thread.aliases.filter (fun a => a ∉ numericKeys byKey)
  else
    thread.aliases.filter (fun a => a = thread.key ∨ a ∉ byKey.map Thread.key)

/-- `sender_reply_token` of `recipients.py`, over the handle and time of each message. -/
def senderReplyToken (lib : Library) (address : Str) (messages : List Message) : Str :=
  "sender:".toList ++ lib.digest (lib.dumpsEvidence address ((messages.map (fun m =>
    [m.handle, m.timestamp])).insertionSort (fun a b => a ≤ b)))

/-- `latest_incoming`: the newest received message, or the newest one. -/
def latestIncoming (messages : List Message) : Option Message :=
  match messages.reverse.find? (fun m => !m.outgoing) with
  | some m => some m
  | none => messages.getLast?

/-- Where the reply to one person goes, and whether the newest message may be a group's. -/
def settleSingle (lib : Library) (byKey : List Thread) (thread : Thread) : Thread :=
  if thread.isGroup then thread
  else
    let pruned := { thread with aliases := pruneAliases byKey thread }
    match latestIncoming thread.messages with
    | none => pruned
    | some latest =>
      let settled := { pruned with recipients := [latest.address] }
      if latest.maybeGroup then
        { settled with
          groupAmbiguous := true
          senderReplyToken :=
            if thread.replyReady ∧ latest.address ≠ [] then
              some (senderReplyToken lib latest.address
                (thread.messages.filter (·.maybeGroup)))
            else none
          replyReady := false }
      else settled

/-- `MAX_THREAD_MESSAGES`. -/
def maxThreadMessages : Nat := 500

/-- One conversation of the last pass. -/
def settle (lib : Library) (byKey : List Thread) (thread : Thread) : Thread :=
  let ordered := { thread with messages := thread.messages.insertionSort (fun a b =>
    orderLe (timestampOrder lib a.timestamp) (timestampOrder lib b.timestamp) = true) }
  let single := settleSingle lib byKey ordered
  let newest := single.messages.drop (single.messages.length - maxThreadMessages)
  { single with
    replyReady := single.replyReady && !single.participantsRequired
    missingMembers := some (single.missingMembers.getD [])
    messagesTruncated := decide (maxThreadMessages < single.messages.length)
    messages := newest
    unread := newest.any (fun m => !m.outgoing && !m.read) }

/-- `sort_threads`: newest first, starred conversations above the rest. -/
def sortThreads (lib : Library) (starredKeys : List Str) (threads : List Thread) : List Thread :=
  let decorated := threads.map (fun thread =>
    { thread with starred := (conversationKeys thread).any (· ∈ starredKeys) })
  decorated.insertionSort (fun a b =>
    (b.starred = false ∧ a.starred = true) ∨ (a.starred = b.starred ∧
      orderLe (timestampOrder lib b.lastTs) (timestampOrder lib a.lastTs) = true))

/-- The conversations before the last pass. -/
def threadsByKey (correlated : List Event) : List Thread :=
  correlated.foldl (bucket lib resolver) []

/-- `build_threads`. -/
def buildThreads (events : List Stored) : List Thread :=
  let byKey := threadsByKey lib resolver (correlateGroupEvents lib resolver events)
  sortThreads lib [] (byKey.map (settle lib byKey))

end

end BlueFerry.Threads
