import BlueFerry.Text.CaseMapping
import BlueFerry.Obex.Recipients

/-! # Outgoing messages

`buildBmessage` and `buildGroupBmessage` (`obex/map_send.py`) put one text and its recipients
into the bMessage that MAP `PushMessage` takes: a fixed template of structural lines, one
vCard for each recipient and the body between `BEGIN:MSG` and `END:MSG`.

A body line that would read as a structural line is *stuffed*: it gets one space in front
(`stuffLine`). What this leaves at column 0 of the built message is stated in
`Obex/Injection.lean`.
-/

namespace BlueFerry.MapSend

open BlueFerry.Text BlueFerry.Recipients

/-- `MAX_OUTGOING_BODY_BYTES`. -/
def maxOutgoingBodyBytes : Nat := 256 * 1024

/-- Why a message is not built. -/
inductive BuildError where
  /-- `message body exceeds 262144 UTF-8 bytes` -/
  | bodyTooLarge
  | recipient (error : InvalidRecipient)
  deriving DecidableEq

/-! ## Stuffing -/

/-- `line.upper().startswith(("BEGIN:", "END:"))`. -/
def opensMarker (line : Str) : Bool :=
  startsWith (upper line) "BEGIN:".toList || startsWith (upper line) "END:".toList

/-- One line of `_byte_stuff`. -/
def stuffLine (line : Str) : Str := if opensMarker line then ' ' :: line else line

/-- `_byte_stuff`. -/
def byteStuff (body : Str) : Str := joinLines ((splitLines body).map stuffLine)

/-! ## The template -/

/-- The lines of `_recipient_vcard` for an address that is already normalised. -/
def vcardLines (address : Str) : List Str :=
  [ "BEGIN:VCARD".toList
  , "VERSION:2.1".toList
  , "N:;;;;".toList
  , (if '@' ∈ address then "EMAIL".toList else "TEL".toList) ++ ':' :: address
  , "END:VCARD".toList ]

/-- `_recipient_vcard`. -/
def recipientVcard (recipient : Str) : Except InvalidRecipient (List Str) :=
  (validateRecipient recipient).map vcardLines

/-- The template's lines up to and including `BEGIN:BENV`. -/
def headerLines : List Str :=
  [ "BEGIN:BMSG".toList
  , "VERSION:1.0".toList
  , "STATUS:UNREAD".toList
  , "TYPE:SMS_GSM".toList
  , "FOLDER:telecom/msg/outbox".toList
  -- the originator, which the phone fills in
  , "BEGIN:VCARD".toList
  , "VERSION:2.1".toList
  , "N:;;;;".toList
  , "TEL:".toList
  , "END:VCARD".toList
  , "BEGIN:BENV".toList ]

/-- The template's lines from the recipients' vCards to the body. -/
def bodyHeaderLines (encodedLen : Nat) : List Str :=
  [ "BEGIN:BBODY".toList
  , "CHARSET:UTF-8".toList
  , "LENGTH:".toList ++ Nat.toDigits 10 encodedLen
  , "BEGIN:MSG".toList ]

/-- The template's lines after the body. -/
def footerLines : List Str :=
  [ "END:MSG".toList
  , "END:BBODY".toList
  , "END:BENV".toList
  , "END:BMSG".toList ]

/-- `"\r\n".join(lines) + "\r\n"`: every line with its end. -/
def crlfLines (lines : List Str) : Str := lines.flatMap (· ++ crlf)

/-- The built text, from the vCard lines of the recipients and the stuffed body. -/
def bmessageText (recipientLines : List Str) (stuffed : Str) : Str :=
  crlfLines (headerLines ++ recipientLines ++ bodyHeaderLines (utf8Size stuffed) ++ [stuffed]
    ++ footerLines)

/-- `_build_bmessage`. -/
def buildFromRecipients (recipients : List Str) (body : Str) : Except BuildError Str :=
  if maxOutgoingBodyBytes < utf8Size body then .error .bodyTooLarge
  else
    match recipients.mapM recipientVcard with
    | .error e => .error (.recipient e)
    | .ok cards => .ok (bmessageText cards.flatten (byteStuff body))

/-- `build_bmessage`. -/
def buildBmessage (recipient body : Str) : Except BuildError Str :=
  match validateRecipient recipient with
  | .error e => .error (.recipient e)
  | .ok normalized => buildFromRecipients [normalized] body

/-- `build_group_bmessage`. -/
def buildGroupBmessage (recipients : List Str) (body : Str) : Except BuildError Str :=
  match recipients.mapM validateRecipient with
  | .error e => .error (.recipient e)
  | .ok normalized =>
    if ¬ (2 ≤ normalized.length ∧ normalized.length ≤ 20) then .error (.recipient .groupSize)
    else if ¬ normalized.Nodup then .error (.recipient .notUnique)
    else buildFromRecipients normalized body

/-! ## What the stuffed lines look like -/

theorem upperChar_space : upperChar ' ' = [' '] := by decide

/-- A line that starts with a space opens no marker. -/
theorem opensMarker_space (line : Str) : opensMarker (' ' :: line) = false := by
  rw [opensMarker, upper_cons, upperChar_space]
  rfl

/-- **No stuffed line opens a marker.** -/
theorem opensMarker_stuffLine (line : Str) : opensMarker (stuffLine line) = false := by
  rw [stuffLine]
  by_cases h : opensMarker line = true
  · rw [if_pos h]
    exact opensMarker_space line
  rw [if_neg h]
  exact Bool.not_eq_true _ ▸ h

theorem noBreak_stuffLine {line : Str} (h : NoBreak line) : NoBreak (stuffLine line) := by
  rw [stuffLine]
  split_ifs
  · exact noBreak_cons.mpr ⟨by decide, h⟩
  · exact h

theorem noBreak_stuffed (body : Str) : ∀ l ∈ (splitLines body).map stuffLine, NoBreak l := by
  intro l hl
  obtain ⟨m, hm, rfl⟩ := List.mem_map.mp hl
  exact noBreak_stuffLine (noBreak_of_mem_splitLines hm)

/-! ## The built text -/

/-- The recipients' vCards of a list of accepted recipients. -/
theorem mapM_recipientVcard {recipients normalized : List Str}
    (h : List.Forall₂ (fun r n => validateRecipient r = .ok n) recipients normalized) :
    recipients.mapM recipientVcard = .ok (normalized.map vcardLines) := by
  induction h with
  | nil => rfl
  | cons hr _ ih =>
    rw [List.mapM_cons, recipientVcard, hr, ih]
    rfl

theorem buildFromRecipients_eq {recipients normalized : List Str} {body : Str}
    (h : List.Forall₂ (fun r n => validateRecipient r = .ok n) recipients normalized)
    (hsize : utf8Size body ≤ maxOutgoingBodyBytes) :
    buildFromRecipients recipients body
      = .ok (bmessageText (normalized.flatMap vcardLines) (byteStuff body)) := by
  rw [buildFromRecipients, if_neg (by omega), mapM_recipientVcard h]
  rfl

theorem buildBmessage_eq {recipient normalized body : Str}
    (h : validateRecipient recipient = .ok normalized)
    (hsize : utf8Size body ≤ maxOutgoingBodyBytes) :
    buildBmessage recipient body
      = .ok (bmessageText (vcardLines normalized) (byteStuff body)) := by
  rw [buildBmessage, h]
  show buildFromRecipients [normalized] body = _
  rw [buildFromRecipients_eq (.cons (validateRecipient_idem h) .nil) hsize]
  simp

end BlueFerry.MapSend
