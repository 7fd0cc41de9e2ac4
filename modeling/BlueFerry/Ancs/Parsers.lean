import BlueFerry.Text.Utf8

/-! # The ANCS wire format

The parsers and the response assembler of `ancs/parsers.py`. A Data Source response is the byte
of its command, what identifies the request (a notification's id, or an app identifier ended by a
NUL byte) and one attribute after the other, each as its id, a little-endian length of two bytes
and its value. The response has no length of its own: `DataSourceAssembler` finds its end from
the attributes that were asked for.
-/

namespace BlueFerry.Ancs

open BlueFerry.Text

/-! ## Identifiers of the wire format -/

/-- `MAX_DATA_SOURCE_RESPONSE`. -/
def maxDataSourceResponse : Nat := 64 * 1024

/-- `MAX_ACTION_LABEL_CHARS`. -/
def maxActionLabelChars : Nat := 64

namespace CommandID

def getNotificationAttributes : UInt8 := 0
def getAppAttributes : UInt8 := 1
def performNotificationAction : UInt8 := 2

end CommandID

namespace NotificationAttributeID

def appIdentifier : UInt8 := 0
def title : UInt8 := 1
def subtitle : UInt8 := 2
def message : UInt8 := 3
def positiveActionLabel : UInt8 := 6
def negativeActionLabel : UInt8 := 7

end NotificationAttributeID

def displayName : UInt8 := 0

/-- `ACTION_LABEL_ATTRIBUTE_IDS`. -/
def actionLabelAttributeIds : List UInt8 :=
  [NotificationAttributeID.positiveActionLabel, NotificationAttributeID.negativeActionLabel]

/-- The `ValueError`s of the parsers. -/
inductive ParseError where
  /-- `short attribute header` -/
  | shortAttributeHeader
  /-- `truncated attribute body` -/
  | truncatedAttributeBody
  /-- `attrs response too short` -/
  | attrsTooShort
  /-- `unsupported action label request` -/
  | unsupportedActionLabel
  /-- `unexpected notification attributes` -/
  | unexpectedAttributes
  /-- `AppAttributes: missing NUL after app_id` -/
  | missingNul
  /-- `AppAttributes: short attribute header` -/
  | shortDisplayName
  /-- `AppAttributes: truncated display name` -/
  | truncatedDisplayName
  /-- `app identifier response is too short` -/
  | appIdentifierTooShort
  /-- `app identifier response has trailing attributes` -/
  | trailingAttributes
  /-- `DS packet empty` -/
  | emptyPacket
  deriving DecidableEq

/-! ## Numbers and attributes -/

/-- `struct.unpack("<H", …)`. -/
def u16le (lo hi : UInt8) : Nat := lo.toNat + 256 * hi.toNat

/-- `struct.unpack("<I", …)`. -/
def u32le (b₀ b₁ b₂ b₃ : UInt8) : Nat :=
  b₀.toNat + 256 * b₁.toNat + 65536 * b₂.toNat + 16777216 * b₃.toNat

/-- `parse_attr_string`: the value of the attribute at the front, and what follows it. -/
def parseAttrString (data : Bytes) : Except ParseError (Str × Bytes) :=
  match data with
  | _ :: lo :: hi :: rest =>
    if rest.length < u16le lo hi then .error .truncatedAttributeBody
    else .ok (decodeReplace (rest.take (u16le lo hi)), rest.drop (u16le lo hi))
  | _ => .error .shortAttributeHeader

/-- `struct.pack("<H", …)`. -/
def packU16 (n : Nat) : Bytes := [UInt8.ofNat (n % 256), UInt8.ofNat (n / 256 % 256)]

/-- `struct.pack("<I", …)`. -/
def packU32 (n : Nat) : Bytes :=
  [UInt8.ofNat (n % 256), UInt8.ofNat (n / 256 % 256), UInt8.ofNat (n / 65536 % 256),
    UInt8.ofNat (n / 16777216 % 256)]

/-! ## Notification Source packets -/

/-- `Notification`: one packet of the Notification Source. -/
structure Notification where
  id : Nat
  type : Nat
  flags : Nat
  category : Nat
  categoryCount : Nat
  deriving DecidableEq

namespace Notification

/-- `Notification.parse`; the error is `NS packet too short`. -/
def parse : Bytes → Option Notification
  | eid :: flags :: cat :: count :: b₀ :: b₁ :: b₂ :: b₃ :: _ =>
    some { id := u32le b₀ b₁ b₂ b₃, type := eid.toNat, flags := flags.toNat
           category := cat.toNat, categoryCount := count.toNat }
  | _ => none

section

variable (n : Notification)

/-- `EventFlag.PreExisting`. -/
def isPreexisting : Bool := n.flags.testBit 2

/-- `EventFlag.PositiveAction`. -/
def hasPositiveAction : Bool := n.flags.testBit 3

/-- `EventFlag.NegativeAction`. -/
def hasNegativeAction : Bool := n.flags.testBit 4

/-- `action_label_ids`. -/
def actionLabelIds : List UInt8 :=
  (if n.hasPositiveAction then [NotificationAttributeID.positiveActionLabel] else [])
    ++ (if n.hasNegativeAction then [NotificationAttributeID.negativeActionLabel] else [])

end

end Notification

/-! ## Action labels -/

/-- `[\x00-\x1f\x7f-\x9f\u2028\u2029]`. -/
def isLabelControl (c : Char) : Bool :=
  let n := c.toNat
  n ≤ 0x1F || (0x7F ≤ n && n ≤ 0x9F) || n == 0x2028 || n == 0x2029

/-- `_LABEL_CONTROL_RE.sub(" ", label)`: one space for every run of controls. -/
def subControls (inRun : Bool) : Str → Str
  | [] => []
  | c :: s =>
    if isLabelControl c then (if inRun then subControls true s else ' ' :: subControls true s)
    else c :: subControls false s

/-- `str.split()`: the runs of characters that are no spaces. -/
def splitWords (s : Str) : List Str := (s.splitOnP isSpace).filter (fun w => !w.isEmpty)

/-- `_clean_action_label`. -/
def cleanActionLabel (label : Str) : Str :=
  (join ' ' (splitWords (subControls false label))).take maxActionLabelChars

/-! ## The parsers -/

/-- `NotificationAttributes`. -/
structure NotificationAttributes where
  id : Nat
  appId : Str
  title : Str
  subtitle : Str
  message : Str
  positiveActionLabel : Str := []
  negativeActionLabel : Str := []
  deriving DecidableEq

/-- The loop over the requested labels: the labels read so far, by their attribute. -/
def parseLabels : List UInt8 → List (UInt8 × Str) → Bytes →
    Except ParseError (List (UInt8 × Str) × Bytes)
  | [], labels, msg => .ok (labels, msg)
  | expected :: ids, labels, msg =>
    if expected ∉ actionLabelAttributeIds ∨ (labels.lookup expected).isSome then
      .error .unsupportedActionLabel
    else if msg.head? ≠ some expected then .error .unexpectedAttributes
    else do
      let (label, msg) ← parseAttrString msg
      parseLabels ids ((expected, cleanActionLabel label) :: labels) msg

/-- `NotificationAttributes.parse`. -/
def NotificationAttributes.parse (body : Bytes) (actionLabelIds : List UInt8) :
    Except ParseError NotificationAttributes :=
  match body with
  | b₀ :: b₁ :: b₂ :: b₃ :: msg => do
      let (appId, msg) ← parseAttrString msg
      let (title, msg) ← parseAttrString msg
      let (subtitle, msg) ← parseAttrString msg
      let (message, msg) ← parseAttrString msg
      let (labels, msg) ← parseLabels actionLabelIds [] msg
      if msg ≠ [] then .error .unexpectedAttributes
      else
        .ok { id := u32le b₀ b₁ b₂ b₃, appId, title, subtitle, message
              positiveActionLabel :=
                (labels.lookup NotificationAttributeID.positiveActionLabel).getD []
              negativeActionLabel :=
                (labels.lookup NotificationAttributeID.negativeActionLabel).getD [] }
  | _ => .error .attrsTooShort

/-- `AppAttributes`. -/
structure AppAttributes where
  appId : Str
  appName : Str
  deriving DecidableEq

/-- `AppAttributes.parse`. -/
def AppAttributes.parse (body : Bytes) : Except ParseError AppAttributes :=
  if (0 : UInt8) ∉ body then .error .missingNul
  else
    let appId := decodeReplace (body.takeWhile (· != 0))
    match (body.dropWhile (· != 0)).tail with
    | [] => .ok { appId, appName := "<not installed>".toList }
    | _ :: lo :: hi :: rest =>
      if (rest.take (u16le lo hi)).length ≠ u16le lo hi then .error .truncatedDisplayName
      else .ok { appId, appName := decodeReplace (rest.take (u16le lo hi)) }
    | _ => .error .shortDisplayName

/-- `parse_notification_app_identifier`. -/
def parseNotificationAppIdentifier (body : Bytes) : Except ParseError (Nat × Str) :=
  if body.length < 7 then .error .appIdentifierTooShort
  else
    match body with
    | b₀ :: b₁ :: b₂ :: b₃ :: rest => do
        let (appId, remainder) ← parseAttrString rest
        if remainder ≠ [] then .error .trailingAttributes
        else .ok (u32le b₀ b₁ b₂ b₃, appId)
    | _ => .error .appIdentifierTooShort

/-- `DataSourceEvent`. -/
structure DataSourceEvent where
  type : UInt8
  body : Bytes
  deriving DecidableEq

/-- `DataSourceEvent.parse`. -/
def DataSourceEvent.parse : Bytes → Except ParseError DataSourceEvent
  | [] => .error .emptyPacket
  | type :: body => .ok { type, body }

/-! ## The assembler -/

/-- The `ValueError`s of the assembler. -/
inductive AssemblyError where
  /-- `ANCS Data Source response exceeds safety limit` -/
  | tooLarge
  /-- `unexpected trailing bytes in ANCS response` -/
  | trailingBytes
  /-- `ANCS response command … does not match request …` -/
  | commandMismatch
  /-- `ANCS response notification id mismatch` -/
  | notificationIdMismatch
  /-- `ANCS response app id mismatch` -/
  | appIdMismatch
  /-- `unsupported ANCS response command …` -/
  | unsupportedCommand
  /-- `ANCS attribute … does not match expected attribute …` -/
  | attributeMismatch
  deriving DecidableEq

/-- `DataSourceAssembler`. -/
structure DataSourceAssembler where
  command : UInt8
  attributeIds : List UInt8
  notificationId : Option Nat := none
  appId : Option Str := none
  buffer : Bytes := []
  deriving DecidableEq

namespace DataSourceAssembler

/-- The loop of `_complete_length` over the expected attributes. -/
def attributesEnd (data : Bytes) : List UInt8 → Nat → Except AssemblyError (Option Nat)
  | [], cursor => .ok (some cursor)
  | expectedId :: ids, cursor =>
    match data.drop cursor with
    | attrId :: lo :: hi :: _ =>
      if attrId ≠ expectedId then .error .attributeMismatch
      else if data.length < cursor + 3 + u16le lo hi then .ok none
      else attributesEnd data ids (cursor + 3 + u16le lo hi)
    | _ => .ok none

/-- `_complete_length`. -/
def completeLength (a : DataSourceAssembler) : Except AssemblyError (Option Nat) :=
  match a.buffer with
  | [] => .ok none
  | command :: rest =>
    if command ≠ a.command then .error .commandMismatch
    else if a.command = CommandID.getNotificationAttributes then
      match rest with
      | b₀ :: b₁ :: b₂ :: b₃ :: _ =>
        if a.notificationId.any (· != u32le b₀ b₁ b₂ b₃) then .error .notificationIdMismatch
        else attributesEnd a.buffer a.attributeIds 5
      | _ => .ok none
    else if a.command = CommandID.getAppAttributes then
      if (0 : UInt8) ∉ rest then .ok none
      else
        let receivedApp := rest.takeWhile (· != 0)
        if a.appId.any (· != decodeReplace receivedApp) then .error .appIdMismatch
        -- the NUL stands at `1 + len(received_app)`
        else attributesEnd a.buffer a.attributeIds (1 + receivedApp.length + 1)
    else .error .unsupportedCommand

/-- What `feed` returns, from the buffer with the fragment in it. -/
def received (a : DataSourceAssembler) : Except AssemblyError (Option Bytes) :=
  if maxDataSourceResponse < a.buffer.length then .error .tooLarge
  else
    match a.completeLength with
    | .error e => .error e
    | .ok none => .ok none
    | .ok (some length) =>
      if a.buffer.length ≠ length then .error .trailingBytes else .ok (some a.buffer)

/-- `feed`: the assembler with the fragment in its buffer, and what is returned. -/
def feed (a : DataSourceAssembler) (fragment : Bytes) :
    DataSourceAssembler × Except AssemblyError (Option Bytes) :=
  let a := { a with buffer := a.buffer ++ fragment }
  (a, a.received)

end DataSourceAssembler

/-! ## Control Point packets -/

/-- `ANCS_TITLE_MAX_BYTES`, `ANCS_SUBTITLE_MAX_BYTES`. -/
def titleMaxBytes : Nat := 128

/-- `ANCS_MESSAGE_MAX_BYTES`. -/
def messageMaxBytes : Nat := 1024

/-- `build_get_notification_app_identifier`. -/
def buildGetNotificationAppIdentifier (notificationId : Nat) : Bytes :=
  CommandID.getNotificationAttributes :: packU32 notificationId
    ++ [NotificationAttributeID.appIdentifier]

/-- `build_get_notification_attributes`, for labels that it supports. -/
def buildGetNotificationAttributes (notificationId : Nat) (actionLabelIds : List UInt8) : Bytes :=
  CommandID.getNotificationAttributes :: packU32 notificationId
    ++ [NotificationAttributeID.appIdentifier]
    ++ NotificationAttributeID.title :: packU16 titleMaxBytes
    ++ NotificationAttributeID.subtitle :: packU16 titleMaxBytes
    ++ NotificationAttributeID.message :: packU16 messageMaxBytes
    ++ actionLabelIds

/-- `build_get_app_attributes`. -/
def buildGetAppAttributes (appId : Str) : Bytes :=
  CommandID.getAppAttributes :: encode appId ++ [0, displayName]

/-- `build_perform_notification_action`. -/
def buildPerformNotificationAction (notificationId : Nat) (positive : Bool) : Bytes :=
  CommandID.performNotificationAction :: packU32 notificationId ++ [if positive then 0 else 1]

end BlueFerry.Ancs
