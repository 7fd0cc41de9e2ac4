import BlueFerry.Groups.Address
import BlueFerry.Lib.Dict
import BlueFerry.Text.CodePoints
import BlueFerry.Text.Utf8

/-! # The details of a contact card

`contact_details.py`: the labelled numbers, mail and postal addresses, the organization and the title
of an unfolded vCard body, and the form in which they are stored.

Python's codecs and the numbering plans are a `Platform`. A codec that is found by its name may still
be none for text, and a name with a NUL cannot even be looked up; both raise, and so does the parse
(`none` throughout).
-/

namespace BlueFerry.Contacts

open BlueFerry.Text
open BlueFerry.Groups (normalizePhone isPhoneShaped isEmailShaped)

/-- `MAX_CONTACT_ADDRESS_CHARS` -/
def maxContactAddressChars : Nat := 320

/-- `MAX_CONTACT_ADDRESSES_PER_CARD` -/
def maxContactAddressesPerCard : Nat := 64

/-- `MAX_CONTACT_DETAIL_CHARS` -/
def maxContactDetailChars : Nat := 512

/-- `MAX_CONTACT_LABEL_CHARS` -/
def maxContactLabelChars : Nat := 64

/-- `MAX_CONTACT_POSTAL_ADDRESSES_PER_CARD` -/
def maxContactPostalAddressesPerCard : Nat := 16

/-- The number of `POSTAL_FIELDS`. -/
def postalFields : Nat := 7

/-! ## The platform -/

/-- What `codecs.lookup` does with a name. -/
inductive Lookup where
  /-- the codec's own name -/
  | found (name : Str)
  /-- a `LookupError` -/
  | unknown
  /-- a `ValueError` -/
  | raises
  deriving DecidableEq

structure Platform where
  lookup : Str → Lookup
  /-- `bytes.decode(name, "replace")`; `none` when it raises -/
  decode : Str → Bytes → Option Points
  /-- the spelling is of a full national number in the configured region -/
  fullNational : Str → Bool

/-! ## Labels -/

inductive Kind where
  | mobile
  | iphone
  | home
  | work
  | main
  | homeFax
  | workFax
  | otherFax
  | pager
  | other
  | custom
  deriving DecidableEq

/-- `PHONE_KINDS` -/
def phoneKinds : List Kind :=
  [.mobile, .iphone, .home, .work, .main, .homeFax, .workFax, .otherFax, .pager, .other, .custom]

/-- `EMAIL_KINDS` -/
def emailKinds : List Kind := [.home, .work, .other, .custom]

/-- `ADDRESS_KINDS` -/
def addressKinds : List Kind := [.home, .work, .other, .custom]

/-- A kind as it is written. -/
def Kind.text : Kind → Str
  | mobile => "mobile".toList
  | iphone => "iphone".toList
  | home => "home".toList
  | work => "work".toList
  | main => "main".toList
  | homeFax => "home_fax".toList
  | workFax => "work_fax".toList
  | otherFax => "other_fax".toList
  | pager => "pager".toList
  | other => "other".toList
  | custom => "custom".toList

/-- The kind among `kinds` that is written so. -/
def kindOf (kinds : List Kind) (s : Points) : Option Kind :=
  kinds.find? (fun kind => decide (Points.ofStr kind.text = s))

/-- `_APPLE_LABELS` -/
def appleLabels : List (Str × Kind) :=
  [("MOBILE".toList, .mobile), ("HOME".toList, .home), ("WORK".toList, .work),
    ("MAIN".toList, .main), ("HOMEFAX".toList, .homeFax), ("WORKFAX".toList, .workFax),
    ("OTHERFAX".toList, .otherFax), ("PAGER".toList, .pager), ("OTHER".toList, .other),
    ("IPHONE".toList, .iphone)]

/-! ## Details -/

structure LabeledValue where
  kind : Kind
  label : Points
  value : Points
  number : Points
  deriving DecidableEq

structure PostalAddress where
  kind : Kind
  label : Points
  /-- the values of `POSTAL_FIELDS`, in their order -/
  fields : List Points
  deriving DecidableEq

structure ContactDetails where
  phones : List LabeledValue
  emails : List LabeledValue
  addresses : List PostalAddress
  organization : Points
  title : Points
  deriving DecidableEq

/-- `EMPTY` -/
def ContactDetails.empty : ContactDetails := ⟨[], [], [], [], []⟩

/-! ## Storage -/

/-- A JSON value, as far as `from_storage` looks at it. -/
inductive Stored where
  | str (s : Points)
  | list (items : List Stored)
  | object (items : List (String × Stored))
  | other

/-- A row of strings. -/
def rowOf (parts : List Points) : Stored := .list (parts.map .str)

/-- A part of the details that is left out when there is nothing in it. -/
def fieldOf {α : Type} (name : String) (items : List α) (value : Stored) : List (String × Stored) :=
  if items.isEmpty then [] else [(name, value)]

/-- `to_storage` -/
def ContactDetails.toStorage (d : ContactDetails) : Stored :=
  .object
    (fieldOf "phones" d.phones (.list (d.phones.map (fun item =>
        rowOf [.ofStr item.kind.text, item.label, item.value, item.number]))) ++
      fieldOf "emails" d.emails (.list (d.emails.map (fun item =>
        rowOf [.ofStr item.kind.text, item.label, item.value]))) ++
      fieldOf "addresses" d.addresses (.list (d.addresses.map (fun item =>
        rowOf (.ofStr item.kind.text :: item.label :: item.fields)))) ++
      fieldOf "organization" d.organization (.str d.organization) ++
      fieldOf "title" d.title (.str d.title))

/-- `_text` -/
def text : Option Stored → Points
  | some (.str s) => s.take maxContactDetailChars
  | _ => []

/-- The strings of a row, if it is one of strings only. -/
def stringsOf : Stored → Option (List Points)
  | .list parts => parts.mapM (fun part =>
    match part with
    | .str s => some s
    | _ => none)
  | _ => none

/-- `_rows` -/
def rows (value : Option Stored) (maximum : Nat) : List (List Points) :=
  match value with
  | some (.list items) => (items.take maximum).filterMap stringsOf
  | _ => []

/-- `is_email_shaped`. The pattern has characters only. -/
def emailShaped (s : Points) : Bool := (Points.chars? s).any isEmailShaped

/-- A stored number. -/
def storedPhone : List Points → Option LabeledValue
  | [kind, label, text, number] =>
    (kindOf phoneKinds kind).bind (fun kind =>
      if text = [] ∨ maxContactAddressChars < text.length then none
      else some {
        kind
        label := label.take maxContactLabelChars
        value := text
        number := if number.length ≤ maxContactAddressChars then number else [] })
  | _ => none

/-- A stored mail address. -/
def storedEmail : List Points → Option LabeledValue
  | [kind, label, text] =>
    (kindOf emailKinds kind).bind (fun kind =>
      if maxContactAddressChars < text.length ∨ emailShaped text = false then none
      else some { kind, label := label.take maxContactLabelChars, value := text, number := [] })
  | _ => none

/-- A stored postal address. -/
def storedAddress : List Points → Option PostalAddress
  | kind :: label :: parts =>
    if parts.length ≠ postalFields then none
    else
      (kindOf addressKinds kind).bind (fun kind =>
        let fields := parts.map (List.take maxContactDetailChars)
        if fields.all List.isEmpty then none
        else some { kind, label := label.take maxContactLabelChars, fields })
  | _ => none

/-- `from_storage` -/
def fromStorage : Stored → ContactDetails
  | .object items => {
      phones := (rows (items.lookup "phones") maxContactAddressesPerCard).filterMap storedPhone
      emails := (rows (items.lookup "emails") maxContactAddressesPerCard).filterMap storedEmail
      addresses := (rows (items.lookup "addresses") maxContactPostalAddressesPerCard).filterMap
        storedAddress
      organization := text (items.lookup "organization")
      title := text (items.lookup "title") }
  | _ => .empty

/-! ## Content lines -/

/-- `_value_separator`: the first colon outside quotes -/
def valueSeparator (quoted : Bool) : Str → Option Nat
  | [] => none
  | c :: s =>
    if c = '"' then (valueSeparator (!quoted) s).map (· + 1)
    else if c = ':' ∧ quoted = false then some 0
    else (valueSeparator quoted s).map (· + 1)

/-- `a` put before the first part. -/
def consFirst {α : Type} (a : α) : List (List α) → List (List α)
  | [] => [[a]]
  | part :: parts => (a :: part) :: parts

/-- `_split_escaped`, of a string whose elements are characters under `view`. -/
def splitEscaped {α : Type} (view : α → Option Char) (newline : α) (separator : Char)
    (escaped : Bool) : List α → List (List α)
  | [] => [[]]
  | a :: s =>
    if escaped then
      consFirst (if view a = some 'n' ∨ view a = some 'N' then newline else a)
        (splitEscaped view newline separator false s)
    else if view a = some '\\' then splitEscaped view newline separator true s
    else if view a = some separator then [] :: splitEscaped view newline separator false s
    else consFirst a (splitEscaped view newline separator false s)

/-- `_split_escaped(value)` -/
def splitParts (value : Str) : List Str := splitEscaped some '\n' ';' false value

/-- `_unescape`, of a value before it is decoded -/
def unescape (value : Str) : Str := (splitEscaped some '\n' (Char.ofNat 0) false value).headD []

/-- `_unescape`, of a value that is decoded -/
def unescapePoints (value : Points) : Points :=
  (splitEscaped CodePoint.char? (.char '\n') (Char.ofNat 0) false value).headD []

/-- `_Property` -/
structure Property where
  group : Str
  name : Str
  tokens : List Str
  value : Str
  quotedPrintable : Bool
  charset : Str
  deriving DecidableEq

/-- `_QUOTED_PRINTABLE` -/
def quotedPrintableName : Str := "QUOTED-PRINTABLE".toList

/-- The value of a hexadecimal digit. -/
def hexValue (b : UInt8) : Option Nat :=
  let n := b.toNat
  if 48 ≤ n ∧ n ≤ 57 then some (n - 48)
  else if 65 ≤ n ∧ n ≤ 70 then some (n - 55)
  else if 97 ≤ n ∧ n ≤ 102 then some (n - 87)
  else none

/-- `quopri.decodestring`. An equals sign with two hexadecimal digits is a byte, with a line break it
is nothing, before another equals sign or anything else it is itself, and at the end it is dropped. A
carriage return behind one starts a break that ends with the next newline (`skipping`). -/
def decodestring (skipping : Bool) : Bytes → Bytes
  | [] => []
  | a :: rest =>
    if skipping then decodestring (decide (a ≠ 0x0A)) rest
    else if a ≠ 0x3D then a :: decodestring false rest
    else
      match rest with
      | [] => []
      | [b] => if b = 0x0A ∨ b = 0x0D then [] else if b = 0x3D then [0x3D] else [0x3D, b]
      | b :: c :: rest =>
        if b = 0x0A then decodestring false (c :: rest)
        else if b = 0x0D then decodestring true (c :: rest)
        else if b = 0x3D then 0x3D :: decodestring false (c :: rest)
        else
          match hexValue b, hexValue c with
          | some high, some low => UInt8.ofNat (16 * high + low) :: decodestring false rest
          | _, _ => 0x3D :: decodestring false (b :: c :: rest)

/-- `_Property.decode`; `none` when the codec raises -/
def Property.decode (platform : Platform) (p : Property) (text : Str) : Option Points :=
  if p.quotedPrintable then platform.decode p.charset (decodestring false (encode text))
  else some (Points.ofStr text)

/-- `.strip().strip('"')` -/
def unquoted (value : Str) : Str := stripOf (· == '"') (strip value)

section

variable (platform : Platform)

/-- `_charset` -/
def charset (value : Str) : Option Str :=
  match platform.lookup (unquoted value) with
  | .found name => some name
  | .unknown => some "utf-8".toList
  | .raises => none

/-- What the parameters of a line say. -/
structure Params where
  tokens : List Str
  quotedPrintable : Bool
  charset : Str

/-- A word of a `TYPE` parameter, or a bare one. -/
def Params.addWord (params : Params) (part : Str) : Params :=
  let word := upper (unquoted part)
  if word = quotedPrintableName then { params with quotedPrintable := true }
  else if word = [] then params
  else { params with tokens := params.tokens ++ [word] }

/-- One parameter. -/
def Params.add (params : Params) (param : Str) : Option Params :=
  let param := strip param
  let hasValue := decide ('=' ∈ param)
  let key := upper (strip (partition '=' param).1)
  let values := (partition '=' param).2
  if hasValue ∧ key = "ENCODING".toList then
    some { params with quotedPrintable := decide (upper (unquoted values) = quotedPrintableName) }
  else if hasValue ∧ key = "CHARSET".toList then
    (Contacts.charset platform values).map (fun charset => { params with charset })
  else if hasValue ∧ key ≠ "TYPE".toList then some params
  else some ((splitChar ',' (if hasValue then values else key)).foldl Params.addWord params)

/-- `str.rpartition` at one character, without the separator. -/
def rpartition (sep : Char) (s : Str) : Str × Str :=
  ((s.reverse.dropWhile (· != sep)).tail.reverse, (s.reverse.takeWhile (· != sep)).reverse)

/-- `_property`: `some none` where there is no value -/
def property (line : Str) : Option (Option Property) :=
  match valueSeparator false line with
  | none => some none
  | some separator =>
    let pieces := splitChar ';' (line.take separator)
    let names := rpartition '.' (strip (pieces.headD []))
    (pieces.tail.foldlM (Params.add platform) ⟨[], false, "utf-8".toList⟩).map (fun params =>
      some {
        group := upper names.1
        name := upper names.2
        tokens := params.tokens
        value := line.drop (separator + 1)
        quotedPrintable := params.quotedPrintable
        charset := params.charset })

/-! ## Labels of a card -/

/-- A label: its kind, the label of its own, and its text. -/
abbrev Label := Kind × Points × Points

/-- `_apple_label` -/
def appleLabel (value : Points) : Label :=
  let text := Points.strip (unescapePoints value)
  if (Points.ofStr "_$!<".toList).isPrefixOf text ∧ (Points.ofStr ">!$_".toList).isSuffixOf text then
    let text := (text.drop 4).take (text.length - 8)
    match (Points.chars? text).bind (fun s => appleLabels.lookup (upper s)) with
    | some kind => (kind, [], text.take maxContactLabelChars)
    | none => (.custom, text.take maxContactLabelChars, text.take maxContactLabelChars)
  else (.custom, text.take maxContactLabelChars, text.take maxContactLabelChars)

/-- `_phone_kind` -/
def phoneKind (tokens : List Str) : Kind :=
  if "FAX".toList ∈ tokens then
    if "HOME".toList ∈ tokens then .homeFax
    else if "WORK".toList ∈ tokens then .workFax
    else .otherFax
  else if "PAGER".toList ∈ tokens then .pager
  else if "IPHONE".toList ∈ tokens then .iphone
  else if "CELL".toList ∈ tokens then .mobile
  else if "MAIN".toList ∈ tokens then .main
  else if "HOME".toList ∈ tokens then .home
  else if "WORK".toList ∈ tokens then .work
  else .other

/-- `_place_kind` -/
def placeKind (tokens : List Str) : Kind :=
  if "HOME".toList ∈ tokens then .home
  else if "WORK".toList ∈ tokens then .work
  else .other

/-- `_labelled` -/
def labelled (kind : Kind) (group : Str) (labels : Dict Str Label) (allowed : List Kind) :
    Kind × Points :=
  match if group = [] then none else labels.get? group with
  | some (labelKind, label, text) =>
    if labelKind ∈ allowed then (labelKind, label) else (.custom, text)
  | none => (kind, [])

/-! ## Numbers -/

/-- `_phone_spelling` -/
def phoneSpelling (raw : Str) : Str :=
  let value := raw.map (fun c => if c = '/' then ' ' else c)
  if isPhoneShaped value then value else []

/-- `contact_phone`. What is spelled as a phone number has no digits but those of ASCII. -/
def contactPhone (raw : Str) : Option Str :=
  let plus := if startsWith (strip raw) ['+'] then ['+'] else []
  match normalizePhone (phoneSpelling raw) with
  | some digits => some (plus ++ digits)
  | none =>
    if phoneSpelling raw = [] ∨ platform.fullNational (phoneSpelling raw) = false then none
    else some (plus ++ raw.filter isDigit)

/-- `contact_phone(text, config.PHONE_REGION) or ""`. A lone surrogate is in no number. -/
def numberOf (text : Points) : Points :=
  Points.ofStr (((Points.chars? text).bind (contactPhone platform)).getD [])

/-! ## The card -/

section

variable (labels : Dict Str Label)

/-- The number of a `TEL` line: `some none` where there is none, and `none` when it raises. -/
def telOf (p : Property) : Option (Option LabeledValue) :=
  (p.decode platform p.value).map (fun decoded =>
    let text := Points.strip decoded
    if text = [] ∨ maxContactAddressChars < text.length then none
    else
      let named := labelled (phoneKind p.tokens) p.group labels phoneKinds
      some { kind := named.1, label := named.2, value := text, number := numberOf platform text })

/-- The address of an `EMAIL` line. -/
def emailOf (p : Property) : Option (Option LabeledValue) :=
  (p.decode platform p.value).map (fun decoded =>
    let text := Points.strip decoded
    if maxContactAddressChars < text.length ∨ emailShaped text = false then none
    else
      let named := labelled (placeKind p.tokens) p.group labels emailKinds
      some { kind := named.1, label := named.2, value := text, number := [] })

/-- The postal address of an `ADR` line. -/
def addressOf (p : Property) : Option (Option PostalAddress) :=
  ((splitParts p.value).mapM (p.decode platform)).map (fun decoded =>
    let parts := decoded.map (fun part => (Points.strip part).take maxContactDetailChars)
    let fields := (parts ++ List.replicate postalFields []).take postalFields
    if fields.all List.isEmpty then none
    else
      let named := labelled (placeKind p.tokens) p.group labels addressKinds
      some { kind := named.1, label := named.2, fields })

/-- The organization of an `ORG` line, if it is any. -/
def organizationOf (p : Property) : Option (Option Points) :=
  ((splitParts p.value).mapM (p.decode platform)).map (fun decoded =>
    let texts := (decoded.map Points.strip).filter (fun text => !text.isEmpty)
    let joined := (List.intercalate (Points.ofStr ", ".toList) texts).take maxContactDetailChars
    if joined = [] then none else some joined)

/-- The title of a `TITLE` line, if it is any. -/
def titleOf (p : Property) : Option (Option Points) :=
  (p.decode platform (unescape p.value)).map (fun decoded =>
    let title := (Points.strip decoded).take maxContactDetailChars
    if title = [] then none else some title)

/-- One line of the card. -/
def addLine (d : ContactDetails) (p : Property) : Option ContactDetails :=
  if p.name = "TEL".toList ∧ d.phones.length < maxContactAddressesPerCard then
    (telOf platform labels p).map (fun kept => { d with phones := d.phones ++ kept.toList })
  else if p.name = "EMAIL".toList ∧ d.emails.length < maxContactAddressesPerCard then
    (emailOf platform labels p).map (fun kept => { d with emails := d.emails ++ kept.toList })
  else if p.name = "ADR".toList ∧ d.addresses.length < maxContactPostalAddressesPerCard then
    (addressOf platform labels p).map (fun kept => { d with addresses := d.addresses ++ kept.toList })
  else if p.name = "ORG".toList ∧ d.organization = [] then
    (organizationOf platform p).map (fun kept => { d with organization := kept.getD [] })
  else if p.name = "TITLE".toList ∧ d.title = [] then
    (titleOf platform p).map (fun kept => { d with title := kept.getD [] })
  else some d

end

/-- The line names the label of its group. -/
def isLabel (p : Property) : Bool := decide (p.name = "X-ABLABEL".toList ∧ p.group ≠ [])

/-- One line in the first pass: the lines that are no labels, and the labels of the groups. -/
def scanLine (found : List Property × Dict Str Label) (raw : Str) :
    Option (List Property × Dict Str Label) :=
  (property platform (strip raw)).bind (fun parsed =>
    match parsed with
    | none => some found
    | some p =>
      if isLabel p then
        (p.decode platform p.value).map (fun decoded =>
          (found.1, found.2.set p.group (appleLabel decoded)))
      else some (found.1 ++ [p], found.2))

/-- `parse_card_details` -/
def parseCardDetails (body : Str) : Option ContactDetails :=
  ((splitLines body).foldlM (scanLine platform) ([], Dict.empty)).bind (fun found =>
    found.1.foldlM (addLine platform found.2) ContactDetails.empty)

end

end BlueFerry.Contacts
