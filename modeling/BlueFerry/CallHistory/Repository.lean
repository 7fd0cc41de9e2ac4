import BlueFerry.Lib.Machine
import BlueFerry.CallHistory.Records

/-! # The mirror of the phone's call lists

`CallHistoryRepository.replace` (`call_history_repository.py`) puts what the phone lists in place of
the retained calls, and tells which missed calls are new. The missed calls that were announced are
kept in `seen`, with the time of each; there is no such record before the first sync that found a
call, which seeds it. A phone that changes its time zone writes all its calls anew, with other keys:
`unseen` recognises such a list as a whole.

What a sync finds of the store beside its contents (a row that cannot be opened, a write that fails)
is given with the sync.
-/

namespace BlueFerry.CallHistory

open BlueFerry.Text

def MAX_CALL_HISTORY_SEEN_KEYS : Nat := 5000

/-- `_RERENDER_STEP`, in seconds. -/
def RERENDER_STEP : Int := 900

/-- `_RERENDER_MAX`, in seconds. -/
def RERENDER_MAX : Int := 93600

/-- A day, in microseconds. -/
def dayLength : Int := 86400000000

/-- The database: the calls, oldest first, the announced missed calls, and the phone. -/
structure CallStore where
  rows : List CallRecord
  seen : Option (Dict Str Int)
  phone : Option Str

def CallStore.empty : CallStore := ⟨[], none, none⟩

/-- A call of `replace`. `retentionDays` is `retention_days or config.HISTORY_RETENTION_DAYS`;
`opens` says which rows can be opened, `intact` that reading raises nothing, `saved` that the
transaction commits. -/
structure Sync where
  records : List CallRecord
  now : Int
  retentionDays : Int
  phone : Option Str
  directions : Option (List Direction)
  writable : Bool
  opens : Nat → Bool
  intact : Bool
  saved : Bool

structure ReplaceResult where
  records : List CallRecord
  newMissed : List CallRecord
  seeded : Bool
  changed : Bool

/-! ## Which missed calls are new -/

/-- `_rerendered`: no retained call is still listed as it was. -/
def rerendered (previous listed : List CallRecord) : Bool :=
  !previous.any (fun r => decide (r.key ∈ listed.map CallRecord.key))

/-- An earlier rendering of a call: the direction and the number, and the time of day. -/
abbrev Rendering := (Direction × Str) × Int

/-- `candidates`: the announced calls that are not listed any more. -/
def candidates (p : Platform) (known : List Str) (present : List Str) : List Rendering :=
  known.filterMap (fun key =>
    if key ∈ present then none
    else do
      let (direction, rawTime, number) ← splitKey key
      let clock ← wallClock p rawTime
      some ((direction, number), clock))

/-- `shifts`: by how much a call can have been moved. -/
def shifts (p : Platform) (earlier : List Rendering) (r : CallRecord) : List Int :=
  match wallClock p r.rawTime with
  | none => []
  | some clock =>
    p.arrange (((earlier.filter (fun e => e.1 = (r.direction, r.numberIdentity))).map
      (fun e => clock - e.2)).filter (fun shift =>
        shift ≠ 0 ∧ |shift| ≤ RERENDER_MAX ∧ shift % RERENDER_STEP = 0)).dedup

/-- `options`: the shifts of every call that is not announced yet. -/
def options (p : Platform) (earlier : List Rendering) (fresh : List CallRecord) :
    Dict Str (List Int) :=
  fresh.foldl (fun d r => d.set r.key (shifts p earlier r)) .empty

/-- `support`: how many calls each shift explains, in the order in which they are found. -/
def support (options : Dict Str (List Int)) : Dict Int Nat :=
  (options.items.map Prod.snd).flatten.foldl
    (fun d shift => d.set shift ((d.get? shift).getD 0 + 1)) .empty

/-- `max(support, key=…)`: the first one of the best. -/
def common : List (Int × Nat) → Option Int
  | [] => none
  | e :: rest =>
    some (rest.foldl (fun best e =>
      if best.2 < e.2 ∨ best.2 = e.2 ∧ |e.1| < |best.1| then e else best) e).1

/-- The last loop of `_unseen`: each earlier rendering explains at most one call. -/
def unexplained (p : Platform) (options : Dict Str (List Int)) (shift : Int) :
    List Rendering → List CallRecord → List CallRecord
  | _, [] => []
  | remaining, r :: fresh =>
    match wallClock p r.rawTime with
    | none => r :: unexplained p options shift remaining fresh
    | some clock =>
      let target : Rendering := ((r.direction, r.numberIdentity), clock - shift)
      if shift ∈ (options.get? r.key).getD [] ∧ target ∈ remaining then
        unexplained p options shift (remaining.erase target) fresh
      else r :: unexplained p options shift remaining fresh

/-- `_unseen` -/
def unseen (p : Platform) (missed : List CallRecord) (known : Dict Str Int)
    (current : List CallRecord) (rerendered : Bool) : List CallRecord :=
  let fresh := missed.filter (fun r => r.key ∉ known.keys)
  if fresh = [] ∨ rerendered = false then fresh
  else
    let earlier := candidates p known.keys (current.map CallRecord.key)
    match common (support (options p earlier fresh)).items with
    | none => fresh
    | some shift => unexplained p (options p earlier fresh) shift earlier fresh

/-! ## The announced calls -/

section

variable (known : Dict Str Int)

/-- `known[record.key] = record.occurred_at.timestamp()` for the missed calls. -/
def announce (missed : List CallRecord) : Dict Str Int :=
  missed.foldl (fun known r => known.set r.key r.occurredAt) known

/-- The announced calls inside the retention window, the newest first. -/
def inWindow (cutoff : Int) : List (Str × Int) :=
  (known.items.filter (fun e => cutoff ≤ e.2)).insertionSort (fun a b => b.2 ≤ a.2)

theorem inWindow_nodup (cutoff : Int) : ((inWindow known cutoff).map Prod.fst).Nodup := by
  unfold inWindow
  rw [((List.perm_insertionSort _ _).map Prod.fst).nodup_iff]
  exact known.nodup.sublist (List.filter_sublist.map _)

/-- `_retained_seen` -/
def retainedSeen (cutoff : Int) : Dict Str Int where
  items := (inWindow known cutoff).take MAX_CALL_HISTORY_SEEN_KEYS
  nodup := (inWindow_nodup known cutoff).sublist ((List.take_sublist _ _).map _)

end

/-! ## Replacing -/

/-- `_normalize_phone_id` -/
def normalizePhoneId (p : Platform) (phone : Option Str) : Option Str :=
  let text := p.upper (strip (phone.getD []))
  if text = [] then none else some text

/-- `_cutoff` -/
def Sync.cutoff (sync : Sync) : Int := sync.now - dayLength * max 1 sync.retentionDays

/-- The directions that were pulled. -/
def Sync.pulled (sync : Sync) : List Direction := sync.directions.getD DIRECTIONS

/-- `_read_records` -/
def readRecords (s : CallStore) (sync : Sync) : List CallRecord :=
  ((s.rows.take MAX_CALL_HISTORY_RECORDS).zipIdx.filter (fun e => sync.opens e.2)).map
    (fun e => e.1.readBack)

section

variable (p : Platform) (s : CallStore) (sync : Sync)

/-- The store belongs to another phone. -/
def otherPhone : Bool :=
  match normalizePhoneId p sync.phone, s.phone with
  | some phone, some stored => stored ≠ phone
  | _, _ => false

/-- `previous` -/
def previous : List CallRecord :=
  if otherPhone p s sync then [] else readRecords s sync

/-- `seen` -/
def seenBefore : Option (Dict Str Int) :=
  if otherPhone p s sync then none else s.seen

/-- `incoming` -/
def incoming : List CallRecord :=
  if DIRECTIONS.all (fun d => decide (d ∈ sync.pulled)) then sync.records
  else
    mergeCallHistory ((previous p s sync).filter (fun r => r.direction ∉ sync.pulled)
      ++ sync.records)

/-- `kept` -/
def kept : List CallRecord :=
  (newestFirst ((incoming p s sync).filter (fun r => sync.cutoff ≤ r.occurredAt))).take
    MAX_CALL_HISTORY_RECORDS

/-- `missed` -/
def missed (p : Platform) (s : CallStore) (sync : Sync) : List CallRecord :=
  (kept p s sync).filter (fun r => r.direction = .missed)

/-- `new_missed` -/
def newMissed : List CallRecord :=
  match seenBefore p s sync with
  | none => []
  | some known =>
    unseen p (missed p s sync) known (kept p s sync)
      (rerendered ((previous p s sync).filter (fun r => r.direction ∈ sync.pulled)) sync.records)

/-- `known`, with the missed calls of this sync. -/
def announced : Dict Str Int :=
  announce ((seenBefore p s sync).getD .empty) (missed p s sync)

/-- `retained_seen` -/
def seenAfter : Option (Dict Str Int) :=
  if (seenBefore p s sync).isNone && (kept p s sync).isEmpty then none
  else some (retainedSeen (announced p s sync) sync.cutoff)

/-- `replace`; none where it raises, which leaves the database as it was. What is written is what is
not there yet. -/
def replace : Option (CallStore × ReplaceResult) :=
  if !sync.writable || !sync.intact then none
  else
    let records := kept p s sync
    let changed := decide (readRecords s sync ≠ records.reverse)
    let phone := normalizePhoneId p sync.phone
    let phoneChanged := phone.isSome && decide (s.phone ≠ phone)
    let seenChanged := decide ((seenAfter p s sync).map Dict.items ≠ s.seen.map Dict.items)
    if (changed || seenChanged || phoneChanged) && !sync.saved then none
    else
      some
        ({ rows := if changed then records.reverse else s.rows
           seen := seenAfter p s sync
           phone := if phone.isSome then phone else s.phone },
          ⟨records, newMissed p s sync, (seenBefore p s sync).isNone, changed⟩)

end

end BlueFerry.CallHistory
