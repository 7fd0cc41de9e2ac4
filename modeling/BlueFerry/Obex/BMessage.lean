import BlueFerry.Obex.MapSend
import BlueFerry.Obex.Vcard

/-! # The bMessage parser

`parse` (`obex/bmessage.py`) reads an incoming message: the originator from the first vCard
before the envelope (`originatorRegion`), the text from the first complete `MSG` block
(`messageBody`), and the status, type and folder by a search for a line over the whole blob
(`searchField`).

`messageBody` is one forward scan with offsets into the blob, as in the source; the scan's
state `Scan` keeps the first open `BEGIN:MSG` of each indentation and the blocks closed so far.
-/

namespace BlueFerry.BMessage

open BlueFerry.Text BlueFerry.Vcard BlueFerry.MapSend

def maxContactAddressChars : Nat := 320
def maxContactNameChars : Nat := 512
def maxRemotePropertyChars : Nat := 512

structure ParsedBMessage where
  senderAddress : Option Str
  senderName : Option Str
  body : Option Str
  status : Option Str
  type : Option Str
  folder : Option Str
  deriving DecidableEq

/-! ## The originator -/

/-- `line.strip().casefold() == "begin:benv"`. -/
def opensEnvelope (line : Str) : Bool := casefold (strip line) == "begin:benv".toList

/-- `_originator_region`: the lines before the first envelope, with their ends. -/
def originatorRegion (blob : Str) : Str :=
  ((splitLinesKeep blob).takeWhile (fun line => !opensEnvelope line)).flatten

/-- What the loop over the vCard's lines has found so far. -/
structure Originator where
  phone : Option Str := none
  email : Option Str := none
  name : Option Str := none

def nonEmpty (s : Str) : Option Str := if s = [] then none else some s

/-- A TEL or EMAIL value that may be kept, unless one was found before. -/
def keepAddress (found : Option Str) (line : Str) : Option Str :=
  let candidate := strip (partition ':' line).2
  if candidate ≠ [] ∧ candidate.length ≤ maxContactAddressChars ∧ found = none then some candidate
  else found

/-- One line of the originator's vCard. -/
def readOriginatorLine (o : Originator) (raw : Str) : Originator :=
  let line := strip raw
  if line = [] then o
  else
    let (head, value) := partition ':' line
    let prop := upper (head.takeWhile (· != ';'))
    if prop = "FN".toList then { o with name := nonEmpty (strip value) }
    else if prop = "N".toList ∧ o.name = none then
      let parts := splitChar ';' value
      let given := ((parts.drop 1).take 1 ++ parts.take 1).map strip
      { o with name := nonEmpty (join ' ' (given.filter (fun p => !p.isEmpty))) }
    else if startsWith (upper line) "TEL".toList then { o with phone := keepAddress o.phone line }
    else if startsWith (upper line) "EMAIL".toList then { o with email := keepAddress o.email line }
    else o

/-- The originator of a blob: the first vCard of its header. -/
def originator (blob : Str) : Originator :=
  match (iterVcardBodies (originatorRegion blob) 1).head? with
  | none => {}
  | some vc => (splitLines vc).foldl readOriginatorLine {}

/-! ## The text -/

/-- The state of `_message_body`'s scan: the first open marker of each indentation, as its
start and the start of its body, and the closed blocks `(begin, body start, body end)`. -/
structure Scan where
  candidates : List (Str × Nat × Nat) := []
  found : List (Nat × Nat × Nat) := []

/-- The indentation and the folded marker text of a raw line. -/
def lineMarker (raw : Str) : Str × Str :=
  let line := if raw.getLast? = some '\r' then raw.dropLast else raw
  let content := lstrip isBlank line
  (line.take (line.length - content.length), casefold (rstrip isBlank content))

/-- One line of the scan, from `start` to `next`. -/
def scanLine (st : Scan) (start next : Nat) (raw : Str) (terminated : Bool) : Scan :=
  let (indent, marker) := lineMarker raw
  if marker = "begin:msg".toList ∧ terminated = true then
    match st.candidates.lookup indent with
    | some _ => st
    | none => { st with candidates := (indent, start, next) :: st.candidates }
  else if marker = "end:msg".toList then
    match st.candidates.lookup indent with
    | none => st
    | some (beginStart, bodyStart) =>
      { candidates := st.candidates.filter (fun c => c.1 != indent)
        found := st.found ++ [(beginStart, bodyStart, start)] }
  else st

/-- The scan over the pieces between newlines, from offset `start`. What follows the last
newline is a line only when it is not empty. -/
def scanFrom (start : Nat) : List Str → Scan → Scan
  | [], st => st
  | [last], st => if last = [] then st else scanLine st start (start + last.length) last false
  | line :: lines, st =>
    let next := start + line.length + 1
    scanFrom next lines (scanLine st start next line true)

/-- `min(matches, key=lambda item: item[0])`: the first of the least. -/
def earliest : List (Nat × Nat × Nat) → Option (Nat × Nat × Nat)
  | [] => none
  | m :: ms =>
    match earliest ms with
    | none => some m
    | some k => if k.1 < m.1 then some k else some m

/-- `_message_body`. -/
def messageBody (blob : Str) : Option Str :=
  match earliest (scanFrom 0 (rawLines blob) {}).found with
  | none => none
  | some (_, bodyStart, bodyEnd) => some ((blob.take bodyEnd).drop bodyStart)

/-- One line of the unstuffing in `parse`. -/
def unstuffLine (line : Str) : Str :=
  if line.head? = some ' ' ∧ opensMarker line.tail = true then line.tail else line

def isOuter (c : Char) : Bool := c == '\r' || c == '\n' || c == ' '

/-- The body of `parse`, from the raw text of the block. -/
def unstuff (raw : Str) : Str :=
  let body := stripOf isOuter raw
  if body = [] then body else joinLines ((splitLines body).map unstuffLine)

/-! ## The header fields -/

/-- A literal of an `IGNORECASE` pattern: `S` also stands for the long s. -/
def sameLetter (p c : Char) : Bool := c == p || c == p.toLower || (p == 'S' && c == 'ſ')

/-- A match of `^NAME:(\S+)` at the start of a line: the run of non-space characters. -/
def matchField (name line : Str) : Option Str :=
  let pattern := name ++ [':']
  let value := (line.drop pattern.length).takeWhile (fun c => !isSpace c)
  if pattern.length ≤ line.length
      ∧ (List.zipWith sameLetter pattern line).all id = true ∧ value ≠ [] then some value
  else none

/-- `rx.search(blob)` for `^NAME:(?P<v>\S+)` with `MULTILINE`: the first line that matches. -/
def searchField (name blob : Str) : Option Str := (rawLines blob).findSome? (matchField name)

/-- `parse`. -/
def parse (blob : Str) : ParsedBMessage :=
  let sender := originator blob
  { senderAddress := sender.phone.or sender.email
    senderName := sender.name.map (·.take maxContactNameChars)
    body := (messageBody blob).map unstuff
    status := (searchField "STATUS".toList blob).map (·.take maxRemotePropertyChars)
    type := (searchField "TYPE".toList blob).map (·.take maxRemotePropertyChars)
    folder := (searchField "FOLDER".toList blob).map (·.take maxRemotePropertyChars) }

end BlueFerry.BMessage
