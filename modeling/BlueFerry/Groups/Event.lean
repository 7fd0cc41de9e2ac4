import BlueFerry.Records
import BlueFerry.Groups.Address

/-! # History rows and their annotations

`Stored` is a history row as its writers persist it (`SmsEvent.to_dict`, the notification rows,
the saved rosters). Correlation works on copies that carry more keys; `Event` is such a copy.
A missing text is the empty one, as every reader of the source takes it (`str(x or "")`);
`isRead` and the two annotations whose absence is read apart are optional.

What the code takes from packages (`hashlib`, `unicodedata`, `datetime`) is the structure
`Library`, and what it asks of contacts is `Resolver`. No result depends on what these
functions compute, except where a hypothesis says so.
-/

namespace BlueFerry.Groups

open BlueFerry.Text

/-! ## What the code calls -/

/-- The library functions that the model leaves open. -/
structure Library where
  /-- `hashlib.sha256(text.encode("utf-8")).hexdigest()` -/
  digest : Str → Str
  /-- `unicodedata.normalize("NFC", text)` -/
  nfc : Str → Str
  /-- `unicodedata.normalize("NFKC", text)` -/
  nfkc : Str → Str
  /-- `json.dumps` of a list of strings -/
  dumps : List Str → Str
  /-- `json.dumps([address, *pairs], separators=(",", ":"))` -/
  dumpsEvidence : Str → List (List Str) → Str
  /-- `datetime.fromisoformat(text.replace("Z", "+00:00"))` as microseconds since the epoch,
  none where it raises -/
  instant : Str → Option Int
  /-- `str.islower()` -/
  islower : Str → Bool
  /-- `str.lower()` -/
  lower : Str → Str

/-! ## The library on plain texts -/

/-- The value of a decimal numeral. -/
def decimal (s : Str) : Int := s.foldl (fun n c => 10 * n + (c.toNat - 48)) 0

/-- Days from 1970-01-01 to a date of the Gregorian calendar. -/
def daysTo (year month day : Int) : Int :=
  let y := if month ≤ 2 then year - 1 else year
  let era := y / 400
  let yearOfEra := y - era * 400
  let dayOfYear := (153 * (if 2 < month then month - 3 else month + 9) + 2) / 5 + day - 1
  era * 146097 + yearOfEra * 365 + yearOfEra / 4 - yearOfEra / 100 + dayOfYear - 719468

/-- The instant of a time written `YYYY-MM-DDTHH:MM:SS+00:00`. -/
def utcInstant (s : Str) : Option Int :=
  if s.length = 25 ∧ s.drop 19 = "+00:00".toList ∧ (s.take 4).all isDigit then
    let part := fun start size => decimal ((s.drop start).take size)
    some (1000000 * (86400 * daysTo (part 0 4) (part 5 2) (part 8 2)
      + 3600 * part 11 2 + 60 * part 14 2 + part 17 2))
  else none

/-- A JSON string of plain ASCII characters. -/
def quoted (s : Str) : Str := '"' :: s ++ ['"']

/-- A JSON list of values that are written already. -/
def bracketed (sep : Str) (values : List Str) : Str := '[' :: List.intercalate sep values ++ [']']

/-- The library on plain ASCII texts and times in UTC; `digests` lists the digests that are
taken. -/
def plainLibrary (digests : List (Str × Str)) : Library where
  digest := fun s => (digests.lookup s).getD []
  nfc := fun s => s
  nfkc := fun s => s
  dumps := fun values => bracketed ", ".toList (values.map quoted)
  dumpsEvidence := fun address pairs =>
    bracketed [','] (quoted address :: pairs.map (fun pair => bracketed [','] (pair.map quoted)))
  instant := utcInstant
  islower := fun s => s.any (fun c => isLetter c) && s.all (fun c => !(65 ≤ c.toNat && c.toNat ≤ 90))
  lower := fun s => s.map Char.toLower

example : utcInstant "2024-05-01T10:00:00+00:00".toList = some 1714557600000000 := by
  decide +kernel

/-! ## What is asked of contacts -/

/-- What the projection asks of `ContactsResolver`. Without contacts every answer is empty. -/
structure Resolver where
  /-- `find_by_name`: display names and destinations -/
  findByName : Str → List (Str × Str)
  /-- `resolve` of an address to one name -/
  resolve : Str → Option Str
  /-- `thread_addresses`: the identities of the one record that owns the address -/
  threadAddresses : Str → List Str

/-- `resolver=None`. -/
def Resolver.none : Resolver where
  findByName := fun _ => []
  resolve := fun _ => Option.none
  threadAddresses := fun _ => []

/-! ## Rows -/

/-- The kinds of rows that the conversation model tells apart. -/
inductive Kind where
  | smsReceived
  | smsSent
  | smsSeen
  | ancsNotification
  | groupRoute
  | other
  deriving DecidableEq

/-- `kind.startswith("sms_")`. -/
def Kind.isSms : Kind → Bool
  | .smsReceived | .smsSent | .smsSeen => true
  | .ancsNotification | .groupRoute | .other => false

/-- `kind in MESSAGE_KINDS`. -/
def Kind.isMessage : Kind → Bool
  | .smsReceived | .smsSent => true
  | .smsSeen | .ancsNotification | .groupRoute | .other => false

/-- A history row or a saved roster. -/
structure Stored where
  kind : Kind
  handle : Str := []
  senderAddress : Str := []
  senderPhoneNorm : Str := []
  contactName : Str := []
  body : Str := []
  bodyTruncated : Bool := false
  timestamp : Str := []
  seenAt : Str := []
  isRead : Option Bool := Option.none
  appId : Str := []
  title : Str := []
  subtitle : Str := []
  groupKey : Str := []
  groupName : Str := []
  groupMembers : List Str := []
  groupRecipients : List Str := []
  groupReplyReady : Bool := false
  senderAlphanumeric : Str := []
  groupUnexpectedSender : Str := []
  groupRosterWarningId : Str := []
  /-- `HISTORY_ROW_ID_FIELD`, which only a deletion sets -/
  rowId : Option Nat := Option.none
  deriving DecidableEq

/-- `group_origin`. -/
inductive Origin where
  | unset
  | named
  | unnamed
  deriving DecidableEq

/-- A row with the keys that correlation adds. -/
structure Event extends Stored where
  groupAliases : List Str := []
  groupOrigin : Origin := .unset
  groupParticipantsRequired : Bool := false
  groupObservedSender : Str := []
  groupObservedRecipient : Str := []
  groupSenderVerified : Option Bool := Option.none
  groupMissingMembers : Option (List Str) := Option.none
  groupRosterChanged : Bool := false
  groupAmbiguous : Bool := false
  /-- `CORRELATED_ANCS_ROW_IDS_FIELD` -/
  correlatedAncsRowIds : List Nat := []
  deriving DecidableEq

/-- `dict(event)`: a copy without annotations. -/
def Stored.toEvent (s : Stored) : Event := { toStored := s }

/-! ## Reading a row -/

/-- `safe_event_address`. -/
def safeEventAddress (ev : Stored) : Option Str :=
  let raw := strip ev.senderAddress
  if (canonicalAddress raw).isSome then some raw
  else
    let normalized := strip ev.senderPhoneNorm
    if (canonicalAddress normalized).isSome then some normalized else none

/-- `display_sender_from_dict`. -/
def displaySenderFromDict (ev : Stored) : Str :=
  if ev.groupName ≠ [] then ev.groupName
  else if ev.contactName ≠ [] then ev.contactName
  else
    let raw := strip ev.senderAddress
    if isPhoneShaped raw || isEmailShaped raw then raw
    else if ev.senderPhoneNorm ≠ [] then ev.senderPhoneNorm
    else "(unknown)".toList

/-- A safe address has an identity. -/
theorem canonicalAddress_of_safe {ev : Stored} {a : Str} (h : safeEventAddress ev = some a) :
    ∃ identity, canonicalAddress a = some identity := by
  unfold safeEventAddress at h
  dsimp only at h
  split at h
  · next hraw =>
    cases h
    exact Option.isSome_iff_exists.mp hraw
  split at h
  · next hnorm =>
    cases h
    exact Option.isSome_iff_exists.mp hnorm
  · cases h

/-- `_seen_at`. -/
def seenAtOf (lib : Library) (ev : Stored) : Option Int :=
  if ev.seenAt = [] then none else lib.instant ev.seenAt

end BlueFerry.Groups
