import BlueFerry.Lib.Dict
import BlueFerry.Groups.Correlate

/-! # The context of one-time codes

`OtpContext` (`otp_context.py`) keeps the messages and the Messages notifications of the last
minute, to tell whether a message was read and whether it belongs to a group. A record that is
older is dropped when the context is next asked about a group or given a record; when there are more
than 128, the oldest go.

Times are microseconds. What the grouping code takes from packages is the `Library` of the groups.
-/

namespace BlueFerry.Otp

open BlueFerry.Text BlueFerry.Groups

def MAX_CONTEXT_RECORDS : Nat := 128

def MAX_OTP_MESSAGE_CHARS : Nat := 1000

/-- A message; `row` is its `to_dict()`, `timestamp` the time it carries, when that has a zone. -/
structure SmsEvent where
  row : Stored
  messagePath : Str
  timestamp : Option Int

/-- A notification; `row` is its `correlation_dict()`. -/
structure AncsEvent where
  notificationId : Int
  row : Stored

structure OtpMetadata where
  timestamp : Option Int
  isRead : Bool

/-- The keys of the records, of two kinds. -/
inductive RecordKey where
  | sms (name : Str)
  | ancs (id : Int)
deriving DecidableEq

/-- `event.is_read` -/
def SmsEvent.isRead (e : SmsEvent) : Bool := e.row.isRead == some true

/-- `("sms", event.message_path or event.handle)` -/
def SmsEvent.recordKey (e : SmsEvent) : RecordKey :=
  .sms (if e.messagePath = [] then e.row.handle else e.messagePath)

/-- The records, each with the time of its arrival, the oldest first. -/
abbrev OtpContext := Dict RecordKey (Int × Stored)

namespace OtpContext

section

variable (c : OtpContext)

/-- `_prune` -/
def prune (now : Int) : OtpContext :=
  c.filter (fun _ v => !decide (v.1 < now - correlationWindow))

/-- `_remember` -/
def remember (now : Int) (key : RecordKey) (payload : Stored) : OtpContext :=
  let bounded := { payload with body := payload.body.take (MAX_OTP_MESSAGE_CHARS + 1) }
  (((c.prune now).erase key).set key (now, bounded)).keepLast MAX_CONTEXT_RECORDS

/-- The record under a key is marked as read. -/
def readAt (key : RecordKey) : Bool :=
  (c.get? key).any (fun v => v.2.isRead == some true)

/-- `message` -/
def message (now : Int) (e : SmsEvent) : OtpContext :=
  if e.row.kind = .smsReceived then
    c.remember now e.recordKey (if c.readAt e.recordKey then { e.row with isRead := some true }
      else e.row)
  else c

/-- `ancs` -/
def ancs (c : OtpContext) (now : Int) (e : AncsEvent) : OtpContext :=
  if e.row.appId = messagesAppId then c.remember now (.ancs e.notificationId) e.row else c

/-- `read` -/
def read (handle : Str) : OtpContext :=
  c.mapValues (fun _ v =>
    if v.2.kind = .smsReceived ∧ v.2.handle = handle then (v.1, { v.2 with isRead := some true })
    else v)

end

/-- `is_read` -/
def isRead (c : OtpContext) (e : SmsEvent) : Bool := e.isRead || c.readAt e.recordKey

end OtpContext

/-- The loop of `is_group` over the notifications: one of a group may be that of the message. -/
def mayBelong (lib : Library) (e : SmsEvent) (record : Stored) : Bool :=
  if !hasMembers record && (namedGroupFromAncs record).isNone then false
  else
    match lib.instant record.seenAt, lib.instant e.row.seenAt with
    | some time, some seen =>
      if correlationWindow < |time - seen| ∨ record.body = [] then false
      else if record.body = e.row.body then true
      else
        let encoded := encode (rstrip (· == replacement) record.body)
        messageCaps.any (fun cap => decide (cap - 3 ≤ encoded.length ∧ encoded.length ≤ cap))
          && encoded.isPrefixOf (encode e.row.body)
    | _, _ => false

/-- What the records say about a message: it was joined with a group notification, or it may be. -/
def groupEvidence (lib : Library) (records : List Stored) (e : SmsEvent) : Bool :=
  (correlateGroupEvents lib Resolver.none records).any (fun record =>
    decide (record.handle = e.row.handle) && decide (record.groupKey ≠ []))
  || records.any (mayBelong lib e)

namespace OtpContext

/-- `is_group` -/
def isGroup (lib : Library) (c : OtpContext) (now : Int) (e : SmsEvent) : Bool :=
  decide (e.row.groupKey ≠ [])
    || groupEvidence lib ((c.prune now).items.map (fun item => item.2.2)) e

section

variable (c : OtpContext) (now : Int)

/-- The context after `is_group`. -/
def asked (e : SmsEvent) : OtpContext :=
  if e.row.groupKey ≠ [] then c else c.prune now

/-! ## What pruning does -/

theorem prune_prune : (c.prune now).prune now = c.prune now := by
  unfold prune Dict.filter
  simp

theorem get?_prune (key : RecordKey) :
    (c.prune now).get? key =
      (c.get? key).filter (fun v => !decide (v.1 < now - correlationWindow)) :=
  Dict.get?_filter c _ key

theorem isGroup_prune (lib : Library) (c : OtpContext) (now : Int) (e : SmsEvent) :
    isGroup lib (c.prune now) now e = isGroup lib c now e := by
  unfold isGroup
  rw [prune_prune]

/-- The context holds the record of this message, of this handle, and it is not too old. -/
def Keeps (e : SmsEvent) : Prop :=
  ∃ arrived row, c.get? e.recordKey = some (arrived, row) ∧ row.kind = .smsReceived ∧
    row.handle = e.row.handle ∧ now - correlationWindow ≤ arrived

end

theorem readAt_prune {c : OtpContext} {now arrived : Int} {key : RecordKey} {row : Stored}
    (hget : c.get? key = some (arrived, row)) (hnew : now - correlationWindow ≤ arrived) :
    (c.prune now).readAt key = c.readAt key := by
  unfold readAt
  rw [get?_prune, hget]
  simp [Option.filter, hnew]

/-- A message whose record is kept is read after its handle was reported, also when the context is
pruned. -/
theorem Keeps.isRead_read {c : OtpContext} {now : Int} {e : SmsEvent} (h : c.Keeps now e) :
    (c.read e.row.handle).isRead e = true ∧
      ((c.read e.row.handle).prune now).isRead e = true := by
  obtain ⟨arrived, row, hget, hkind, hhandle, hnew⟩ := h
  have hread : (c.read e.row.handle).get? e.recordKey
      = some (arrived, { row with isRead := some true }) := by
    unfold read
    rw [Dict.get?_mapValues, hget, Option.map_some, if_pos ⟨hkind, hhandle⟩]
  have hat : (c.read e.row.handle).readAt e.recordKey = true := by
    unfold readAt
    rw [hread]
    rfl
  unfold isRead
  rw [readAt_prune hread hnew, hat]
  simp

end OtpContext

end BlueFerry.Otp
