import BlueFerry.Text.CaseMapping
import BlueFerry.Text.Lines

/-! # vCard blocks

`iterVcardBodies` (`vcard.py`) extracts the cards of a text, each unfolded into one property
a line. `Card` is the source's `_Card` as the bMessage parser uses it, with a photo budget of
zero: PHOTO, LOGO, SOUND and KEY are dropped whole.

A text that is given as one string has no cut lines, so every line piece of `_line_pieces` is
a whole line of `splitLines`.
-/

namespace BlueFerry.Vcard

open BlueFerry.Text

/-- `MAX_VCARD_CHARS`. -/
def maxVcardChars : Nat := 1024 * 1024

/-- `_MAX_HEAD_CHARS`. -/
def maxHeadChars : Nat := 1024

/-- `_WHOLE_LINE_START`. -/
def wholeLineStart : Nat := 256

def skippedProperties : List Str :=
  ["PHOTO".toList, "LOGO".toList, "SOUND".toList, "KEY".toList]

def base64Parameters : List Str :=
  ["ENCODING=B".toList, "ENCODING=BASE64".toList, "BASE64".toList]

def quotedPrintableParameters : List Str :=
  ["ENCODING=QUOTED-PRINTABLE".toList, "QUOTED-PRINTABLE".toList]

def isBlank (c : Char) : Bool := c == ' ' || c == '\t'

/-- `_BASE64_LINE`: base64 characters with optional blanks around them. -/
def base64Line (s : Str) : Bool :=
  let core := stripOf isBlank s
  !core.isEmpty && core.all (fun c => isLetter c || isDigit c || c == '+' || c == '/' || c == '=')

/-- `_split_unquoted`: the pieces of `s` at `sep` outside double quotes. -/
def splitUnquoted (sep : Char) : Bool → Str → List Str
  | _, [] => [[]]
  | quoted, c :: s =>
    if c = sep ∧ quoted = false then [] :: splitUnquoted sep quoted s
    else
      match splitUnquoted sep (if c = '"' then !quoted else quoted) s with
      | [] => [[c]]
      | l :: ls => (c :: l) :: ls

/-- The position of the first colon outside quotes, and the quoting after the scan. -/
def scanHead : Bool → Str → Bool × Option Nat
  | quoted, [] => (quoted, none)
  | quoted, c :: s =>
    if c = '"' then
      let (q, i) := scanHead (!quoted) s
      (q, i.map (· + 1))
    else if c = ':' ∧ quoted = false then (quoted, some 0)
    else
      let (q, i) := scanHead quoted s
      (q, i.map (· + 1))

/-! ## One card -/

/-- `_Card`, without the fields of a retained photo. -/
structure Card where
  limit : Nat
  lines : List Str := []
  size : Nat := 0
  overflowed : Bool := false
  version21 : Bool := false
  -- the open property
  present : Bool := false
  decided : Bool := false
  skipped : Bool := false
  head : Str := []
  quoted : Bool := false
  encoding : List Str := []
  base64Open : Bool := false
  softBreak : Bool := false
  parts : List Str := []
  propertySize : Nat := 1

section

variable (c : Card)

/-- `_reset_property`. -/
def Card.resetProperty (present : Bool) : Card :=
  { c with present := present, decided := false, skipped := false, head := [], quoted := false,
           encoding := [], base64Open := false, softBreak := false, parts := [], propertySize := 1 }

/-- `_check_budget`. -/
def Card.checkBudget : Card :=
  if c.limit < c.size + c.propertySize then
    { c with overflowed := true, lines := [], parts := [] }
  else c

/-- `_decide`. -/
def Card.decideHead (head : Str) : Card :=
  let pieces := splitUnquoted ';' false head
  let encoding := pieces.tail.map (fun part => upper (strip part))
  let selected := upper (((splitChar '.' (strip (pieces.headD []))).getLast?).getD [])
  let c := { c with decided := true, head := [], encoding := encoding,
                    base64Open := encoding.any (· ∈ base64Parameters) }
  if selected ∈ skippedProperties then { c with skipped := true, parts := [] } else c

/-- `_read_head`. -/
def Card.readHead (text : Str) : Card :=
  let scanned := text.take (maxHeadChars - c.head.length)
  let (quoted, colon) := scanHead c.quoted scanned
  let c := { c with quoted := quoted }
  match colon with
  | some index => c.decideHead (c.head ++ scanned.take index)
  | none =>
    let c := { c with head := c.head ++ scanned }
    if maxHeadChars ≤ c.head.length ∨ maxHeadChars < c.propertySize then
      { c with decided := true }
    else c

/-- `_add`. -/
def Card.add (text : Str) : Card :=
  if c.skipped then c
  else
    let c := if text = [] then c
      else { c with parts := c.parts ++ [text], propertySize := c.propertySize + text.length }
    let c := if c.decided then c else c.readHead text
    if c.decided && !c.skipped then c.checkBudget else c

/-- `_drop_soft_break`. -/
def Card.dropSoftBreak : Card :=
  let kept := c.parts.rdropWhile (fun part => (rstrip isSpace part).isEmpty)
  let dropped := ((c.parts.drop kept.length).map List.length).sum
  let c := { c with parts := kept, propertySize := c.propertySize - dropped }
  match kept.getLast? with
  | none => c
  | some part =>
    let last := rstrip isSpace part
    let last := if last.getLast? = some '=' then last.dropLast else last
    { c with parts := kept.dropLast ++ [last],
             propertySize := c.propertySize - (part.length - last.length) }

/-- `_note_line_end`. -/
def Card.noteLineEnd (text : Str) : Card :=
  let stripped := rstrip isSpace text
  if stripped = [] then c else { c with softBreak := stripped.getLast? == some '=' }

/-- `_close_property`. -/
def Card.closeProperty : Card :=
  if !c.present || c.overflowed || c.skipped then c
  else
    let c := { c with decided := true }.checkBudget
    if c.overflowed then c
    else
      let line := c.parts.flatten
      let (name, value) := partition ':' line
      { c with lines := c.lines ++ [line], size := c.size + c.propertySize,
               version21 := if upper (strip name) = "VERSION".toList
                 then strip value == "2.1".toList else c.version21,
               parts := [] }

/-- `start_line`. -/
def Card.startLine (text : Str) : Card :=
  if c.overflowed then c
  else
    let start := text.take wholeLineStart
    let c :=
      if c.softBreak && c.encoding.any (· ∈ quotedPrintableParameters) then
        -- a soft-break continuation is taken verbatim, also when it starts with a blank
        let c := c.dropSoftBreak
        { c with propertySize := c.propertySize + 1 }.add text
      else if c.present && text.head?.any isBlank then
        { c with propertySize := c.propertySize + 1 }.add
          (if c.version21 then text else text.tail)
      else if c.version21 && c.base64Open && ((strip start).isEmpty || base64Line start) then
        -- a blank line ends a vCard 2.1 BASE64 value
        { c with base64Open := !(strip start).isEmpty, propertySize := c.propertySize + 1 }.add text
      else (c.closeProperty.resetProperty true).add text
    { c with softBreak := false }.noteLineEnd text

/-- `finish`. -/
def Card.finish : Option Str :=
  let c := c.closeProperty
  if c.overflowed then none else some (joinLines c.lines)

end

/-! ## The cards of a text -/

/-- `_iter_cards` over the lines of one string, from the card that is open. -/
def cardBodies (limit : Nat) : Option Card → List Str → List Str
  | _, [] => []
  | card, line :: lines =>
    let folded := (card.any Card.present) && line.head?.any isBlank
    -- a folded continuation is never a marker
    let marker := if folded then [] else casefold (strip line)
    if marker = "begin:vcard".toList then cardBodies limit (some { limit := limit }) lines
    else if marker = "end:vcard".toList then
      match card.bind Card.finish with
      | some body => body :: cardBodies limit none lines
      | none => cardBodies limit none lines
    else cardBodies limit (card.map (Card.startLine · line)) lines

/-- `iter_vcard_bodies`: the count is checked only after a card was yielded. -/
def iterVcardBodies (blob : Str) (maximum : Nat) : List Str :=
  (cardBodies maxVcardChars none (splitLines blob)).take (max 1 maximum)

end BlueFerry.Vcard
