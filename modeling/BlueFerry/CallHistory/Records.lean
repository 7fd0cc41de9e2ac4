import BlueFerry.Lib.Dict
import BlueFerry.Groups.Event

/-! # Call records

The records of the phone's call lists (`call_history.py`): what identifies a call, how the lists of
several directions are merged, and how a record is read back from the store.

Times are microseconds since the epoch; the time of day that a timestamp shows is in seconds. What
`\d` matches and which digit it stands for is a table of Python's, `Platform.digit`.
-/

namespace BlueFerry.CallHistory

open BlueFerry.Text

def MAX_CALL_HISTORY_RECORDS : Nat := 2000

def MAX_TIMESTAMP_CHARS : Nat := 64

def MAX_CONTACT_NAME_CHARS : Nat := 512

def MAX_CONTACT_ADDRESS_CHARS : Nat := 320

/-- What the code takes from Python's own tables and orders. -/
structure Platform where
  /-- the value of a character that `\d` matches -/
  digit : Char → Option Nat
  /-- `str.upper()` -/
  upper : Str → Str
  /-- the order in which a set of time differences is gone through -/
  arrange : List Int → List Int

inductive Direction where
  | missed
  | incoming
  | outgoing
deriving DecidableEq

/-- `DIRECTIONS` -/
def DIRECTIONS : List Direction := [.missed, .incoming, .outgoing]

def Direction.text : Direction → Str
  | .missed => "missed".toList
  | .incoming => "incoming".toList
  | .outgoing => "outgoing".toList

/-- `_DIRECTION_PRIORITY` -/
def Direction.priority : Direction → Nat
  | .missed => 0
  | .incoming => 1
  | .outgoing => 2

structure CallRecord where
  direction : Direction
  occurredAt : Int
  rawTime : Str
  address : Str
  phone : Option Str
  name : Option Str
deriving DecidableEq

/-! ## Identity -/

/-- `canonical_phone_digits` of a phone that is there. -/
def canonicalPhoneDigits (phone : Str) : Str :=
  if "00".toList.isPrefixOf phone && decide (9 < phone.length) then phone.drop 2 else phone

/-- `number_identity` -/
def CallRecord.numberIdentity (r : CallRecord) : Str :=
  match r.phone with
  | some (c :: phone) => canonicalPhoneDigits (c :: phone)
  | _ => r.address

/-- `key` -/
def CallRecord.key (r : CallRecord) : Str :=
  r.direction.text ++ '|' :: r.rawTime ++ '|' :: r.numberIdentity

/-- `merge_key` -/
def CallRecord.mergeKey (r : CallRecord) : Str × Str × Bool :=
  (r.rawTime, r.numberIdentity, decide (r.direction = .outgoing))

/-- `str.partition("|")`: what is before the first bar and what is after it. -/
def partitionBar (s : Str) : Option (Str × Str) :=
  if '|' ∈ s then some (s.takeWhile (· ≠ '|'), (s.dropWhile (· ≠ '|')).drop 1) else none

/-- `split_key` -/
def splitKey (key : Str) : Option (Direction × Str × Str) := do
  let (direction, rest) ← partitionBar key
  let (rawTime, number) ← partitionBar rest
  let direction ← DIRECTIONS.find? (fun d => d.text = direction)
  some (direction, rawTime, number)

/-! ## The time of day -/

/-- `\d{n}` at the start, and what is after it. -/
def digits (p : Platform) : Nat → Str → Option (Nat × Str)
  | 0, s => some (0, s)
  | _ + 1, [] => none
  | n + 1, c :: s => do
    let d ← p.digit c
    let (value, rest) ← digits p n s
    some (d * 10 ^ n + value, rest)

/-- An optional character. -/
def skip (c : Char) : Str → Str
  | [] => []
  | d :: s => if d = c then s else d :: s

/-- A letter in either case. -/
def letter (upper lower : Char) : Str → Option Str
  | [] => none
  | c :: s => if c = upper ∨ c = lower then some s else none

/-- `(?:[.,]\d{1,9})?` -/
def skipFraction (p : Platform) : Str → Str
  | [] => []
  | c :: s =>
    let count := ((s.takeWhile (fun d => (p.digit d).isSome)).take 9).length
    if (c = '.' ∨ c = ',') ∧ 0 < count then s.drop count else c :: s

/-- `(?P<zone>Z|[+-]\d{2}(?::?\d{2})?)?$` -/
def isZone (p : Platform) : Str → Bool
  | [] => true
  | [c] => c = 'Z' || c = 'z'
  | c :: s =>
    (c = '+' || c = '-') &&
      match digits p 2 s with
      | none => false
      | some (_, []) => true
      | some (_, rest) => ((digits p 2 (skip ':' rest)).map Prod.snd) == some []

def isLeapYear (year : Nat) : Bool :=
  year % 4 == 0 && (year % 100 != 0 || year % 400 == 0)

def daysInMonth (year month : Nat) : Nat :=
  if month = 2 then (if isLeapYear year then 29 else 28)
  else if month ∈ [4, 6, 9, 11] then 30
  else 31

/-- `wall_clock` of a timestamp, in seconds. -/
def wallClock (p : Platform) (value : Str) : Option Int := do
  let text := strip value
  if text = [] ∨ MAX_TIMESTAMP_CHARS < text.length then none
  else
    let (year, s) ← digits p 4 text
    let (month, s) ← digits p 2 (skip '-' s)
    let (day, s) ← digits p 2 (skip '-' s)
    let s ← letter 'T' 't' s
    let (hour, s) ← digits p 2 s
    let (minute, s) ← digits p 2 (skip ':' s)
    let (second, s) ← digits p 2 (skip ':' s)
    if !isZone p (skipFraction p s) then none
    else if year = 0 ∨ month = 0 ∨ 12 < month ∨ day = 0 ∨ daysInMonth year month < day
        ∨ 23 < hour ∨ 59 < minute ∨ 59 < second then none
    else some (86400 * Groups.daysTo year month day + 3600 * hour + 60 * minute + second)

/-! ## Merging -/

/-- A name that is there. -/
def given (name : Option Str) : Option Str := name.filter (· ≠ [])

/-- `min((existing, record), key=…)` -/
def preferred (existing record : CallRecord) : CallRecord :=
  if record.direction.priority < existing.direction.priority ∨
      record.direction.priority = existing.direction.priority ∧
        (existing.name = none ∧ record.name ≠ none) then record
  else existing

/-- What two records of one call are merged to. -/
def combined (existing record : CallRecord) : CallRecord :=
  let best := preferred existing record
  let name := (given existing.name).or record.name
  if best.name = none ∧ (given name).isSome then { best with name := name } else best

/-- The loop of `merge_call_history`. -/
def collect (merged : Dict (Str × Str × Bool) CallRecord) (records : List CallRecord) :
    Dict (Str × Str × Bool) CallRecord :=
  records.foldl (fun merged record =>
    merged.set record.mergeKey
      (match merged.get? record.mergeKey with
        | none => record
        | some existing => combined existing record)) merged

/-- The order of `key=lambda item: (item.occurred_at, item.key), reverse=True`. -/
def CallRecord.notAfter (b a : CallRecord) : Prop :=
  b.occurredAt < a.occurredAt ∨ b.occurredAt = a.occurredAt ∧ b.key ≤ a.key

instance (b a : CallRecord) : Decidable (b.notAfter a) := inferInstanceAs (Decidable (_ ∨ _))

/-- `sorted(…, reverse=True)`: stable, the newest first. -/
def newestFirst (records : List CallRecord) : List CallRecord :=
  records.insertionSort (fun a b => b.notAfter a)

/-- `merge_call_history` of lists that are joined. -/
def mergeCallHistory (records : List CallRecord) : List CallRecord :=
  (newestFirst ((collect .empty records).items.map Prod.snd)).take MAX_CALL_HISTORY_RECORDS

/-! ## Reading back -/

/-- The characters that `terminal_text` replaces: controls, line and paragraph separators, and the
marks that change the writing direction. -/
def isNeutralized (c : Char) : Bool :=
  let n := c.toNat
  n < 32 || (0x7F ≤ n && n ≤ 0x9F) || n == 0x2028 || n == 0x2029 || n == 0x061C || n == 0x200E
    || n == 0x200F || (0x202A ≤ n && n ≤ 0x202E) || (0x2066 ≤ n && n ≤ 0x2069)

/-- `_clean`; a new line is kept by `terminal_text` and becomes a blank. -/
def clean (limit : Nat) (value : Str) : Str :=
  strip ((value.take limit).map (fun c =>
    if c = '\n' then ' ' else if isNeutralized c then '\uFFFD' else c))

/-- `_clean(value, limit) or None` -/
def cleanOptional (limit : Nat) (value : Option Str) : Option Str :=
  (value.map (clean limit)).filter (· ≠ [])

/-- `CallRecord.from_storage` of what `to_storage` gave. -/
def CallRecord.readBack (r : CallRecord) : CallRecord :=
  { r with
    rawTime := r.rawTime.take MAX_TIMESTAMP_CHARS
    address := clean MAX_CONTACT_ADDRESS_CHARS r.address
    phone := cleanOptional MAX_CONTACT_ADDRESS_CHARS r.phone
    name := cleanOptional MAX_CONTACT_NAME_CHARS r.name }

end BlueFerry.CallHistory
