import BlueFerry.Lib.Table
import BlueFerry.Records

/-! # The event history

The operations of `history.py` over its SQLite file: a table of payloads under `AUTOINCREMENT`
ids and the integers of `meta`. An operation is one transaction; where the code raises, the
transaction is rolled back and nothing changes.

What the process around the file supplies is the `Env` of a call: the state of the storage policy,
the codec of the payloads, the clock, and the parser of timestamps. Sealing uses a fresh nonce, so
the codec may give another text for every call of an operation.

The columns `kind` and `occurred_at` are written and never read, and are left out.
-/

namespace BlueFerry.History

open BlueFerry.Text

/-! ## The state -/

/-- The database file. `generation` reads as 0 while `meta` has no such row. -/
structure Db where
  events : Table Str
  generation : Nat
  floor : Option Int
  instanceId : Option Int

/-- The file that SQLite creates. -/
def Db.fresh : Db := ⟨Table.empty, 0, none, none⟩

/-- `_HandleIndex`. -/
structure HandleIndex where
  identity : Int
  scannedThrough : Nat := 0
  rows : List (Str × List Nat) := []
  deriving DecidableEq

/-- The database and the index that the process keeps beside it. -/
structure World where
  db : Db
  index : Option HandleIndex := none

/-- What `_deserialize` does with a payload. -/
inductive Decoded where
  | event (e : Record)
  /-- `None`: no JSON object -/
  | missing
  /-- a `ValueError` or `RuntimeError` -/
  | failed
  /-- a `CorruptStorageError` -/
  | corrupt
  deriving DecidableEq

/-- What a call finds around it. -/
structure Env where
  /-- `storage is not None` -/
  managed : Bool
  canRead : Bool
  canWrite : Bool
  /-- the policy is `ENCRYPTED_STORAGE` -/
  encrypted : Bool
  deserialize : Str → Decoded
  /-- `_serialize`, for the n-th event of a call; `none` when sealing raises -/
  serialize : Nat → Record → Option Str
  /-- `datetime.fromisoformat` as microseconds of UTC; `none` when it raises -/
  fromIsoFormat : Str → Option Int
  /-- `datetime.now`, in microseconds -/
  now : Int
  /-- SQLite's `random()` -/
  random : Int

namespace Env

def readable (env : Env) : Bool := !env.managed || env.canRead

def writable (env : Env) : Bool := !env.managed || env.canWrite

end Env

/-! ## Appending -/

/-- The rows inserted by a transaction, unless an event cannot be sealed. -/
def insertAll (env : Env) : Nat → List Record → Table Str → Option (Table Str)
  | _, [], t => some t
  | n, event :: events, t =>
    match env.serialize n event with
    | none => none
    | some payload => insertAll env (n + 1) events (t.insert payload)

section

variable (env : Env)

/-- `append_events`. `floor` is `none` for `_ANY_FLOOR`; the error is `HistoryErasedError`, or that
of sealing. -/
def appendEvents (events : List Record) (floor : Option (Option Int)) (w : World) :
    World × Option Nat :=
  if events = [] then (w, some 0)
  else if floor.any (· != w.db.floor) then (w, none)
  else
    match insertAll env 0 events w.db.events with
    | none => (w, none)
    | some t => ({ w with db := { w.db with events := t } }, some events.length)

/-! ## Erasing -/

/-- `_raise_backfill_floor`, with whole seconds. -/
def raiseBackfillFloor (db : Db) (now : Int) : Db :=
  let seconds := now.tdiv 1000000
  { db with floor := some (match db.floor with | none => seconds | some f => max f seconds) }

/-- `delete_event_rows`. SQLite counts the row of the floor among the changes. -/
def deleteEventRows (eventIds : List Nat) (raiseFloor : Bool) (w : World) : World × Nat :=
  if eventIds = [] then (w, 0)
  else if env.writable = false then (w, 0)
  else
    let t := w.db.events.deleteWhere (fun r => eventIds.contains r.1)
    let removed := w.db.events.count - t.count
    let db := { w.db with events := t }
    if raiseFloor ∧ removed ≠ 0 then ({ w with db := raiseBackfillFloor db env.now }, removed + 1)
    else ({ w with db }, removed)

/-- `clear_events`. A file that SQLite cannot read is deleted under `discard_damaged`, and otherwise
the error is raised. -/
def clearEvents (damaged discardDamaged : Bool) (w : World) : World :=
  if damaged then (if discardDamaged then { w with db := Db.fresh } else w)
  else
    let db := { w.db with events := w.db.events.deleteWhere (fun _ => true) }
    { w with db := raiseBackfillFloor db env.now }

/-- `is_encrypted_value`. -/
def isEncryptedValue (value : Str) : Bool := startsWith value "blueferry:aesgcm:v1:".toList

/-- `scrub_unprotected_events`. -/
def scrubUnprotectedEvents (w : World) : World :=
  if env.encrypted = false ∨ env.canRead = false then w
  else { w with db := { w.db with
          events := w.db.events.deleteWhere (fun r => !isEncryptedValue r.2) } }

/-! ## Marking messages read -/

/-- `rows.setdefault(handle, []).append(event_id)`. -/
def addHandle (handle : Str) (eventId : Nat) : List (Str × List Nat) → List (Str × List Nat)
  | [] => [(handle, [eventId])]
  | (h, ids) :: rows =>
    if h = handle then (h, ids ++ [eventId]) :: rows else (h, ids) :: addHandle handle eventId rows

/-- The rows that the index has not seen yet; `none` when one of them is corrupt. -/
def scanRows (env : Env) : List (Nat × Str) → HandleIndex → Option HandleIndex
  | [], index => some index
  | (eventId, payload) :: rows, index =>
    match env.deserialize payload with
    | .corrupt => none
    | .missing => scanRows env rows { index with scannedThrough := eventId }
    | .failed => scanRows env rows { index with scannedThrough := eventId }
    | .event event =>
      let handle := event.textOf "handle".toList
      let index := { index with scannedThrough := eventId }
      if event.textOf "kind".toList ≠ "sms_received".toList ∨ handle = [] then
        scanRows env rows index
      else scanRows env rows { index with rows := addHandle handle eventId index.rows }

/-- `_received_handle_rows`, from the instance id of the file. -/
def currentIndex (identity : Int) (w : World) : Option HandleIndex :=
  let index := match w.index with
    | none => { identity }
    | some index =>
      if index.identity ≠ identity ∨ w.db.events.newest < index.scannedThrough then { identity }
      else index
  scanRows env (w.db.events.rows.filter (fun r => index.scannedThrough < r.1)) index

/-- How the loop over the selected rows ends. -/
inductive MarkEnd where
  | done
  /-- at a `CorruptStorageError`: the function returns, and the transaction is committed -/
  | corrupt
  /-- at an error of sealing: the transaction is rolled back -/
  | raised
  deriving DecidableEq

/-- The loop over the indexed rows of the selected handles: the table, the number of updates and
how the loop ended. -/
def markRows (env : Env) : List (Str × Nat) → Nat → Table Str → Table Str × Nat × MarkEnd
  | [], updated, t => (t, updated, .done)
  | (handle, eventId) :: rest, updated, t =>
    match t.find eventId with
    | none => markRows env rest updated t
    | some payload =>
      match env.deserialize payload with
      | .corrupt => (t, updated, .corrupt)
      | .failed => markRows env rest updated t
      | .missing => markRows env rest updated t
      | .event event =>
        if event.textOf "kind".toList ≠ "sms_received".toList
            ∨ event.textOf "handle".toList ≠ handle
            ∨ event.get "is_read".toList = .bool true then markRows env rest updated t
        else
          match env.serialize updated (event.set "is_read".toList (.bool true)) with
          | none => (t, updated, .raised)
          | some sealed => markRows env rest (updated + 1) (t.update eventId sealed)

/-- The rows of the selected handles, handle by handle. -/
def selectedRows (handles : List Str) (rows : List (Str × List Nat)) : List (Str × Nat) :=
  ((handles.filter (· ≠ [])).dedup.insertionSort (· ≤ ·)).flatMap
    (fun handle => ((rows.lookup handle).getD []).map (fun eventId => (handle, eventId)))

/-- `mark_event_handles_read`. -/
def markEventHandlesRead (handles : List Str) (w : World) : World × Nat :=
  if handles.filter (· ≠ []) = [] then (w, 0)
  else if env.writable = false then (w, 0)
  else
    let identity := w.db.instanceId.getD env.random
    let db := { w.db with instanceId := some identity }
    match currentIndex env identity w with
    | none => ({ db, index := none }, 0)
    | some index =>
      match markRows env (selectedRows handles index.rows) 0 db.events with
      | (_, _, .raised) => ({ w with index := some index }, 0)
      | (t, _, .corrupt) => ({ db := { db with events := t }, index := none }, 0)
      | (t, updated, .done) =>
        ({ db := { db with
              events := t
              generation := if updated = 0 then db.generation else db.generation + 1 }
           index := some index }, updated)

/-! ## Retention -/

/-- `_event_datetime`. -/
def eventDatetime (event : Record) : Option Int :=
  let raw := (((event.get "seen_at".toList).orElse (event.get "timestamp".toList)).orElse
    (.str [])).text
  if raw = [] then none
  else env.fromIsoFormat (raw.flatMap (fun c => if c = 'Z' then "+00:00".toList else [c]))

/-- The ids that the age sweep expires; `none` when a payload is corrupt. -/
def expiredIds (env : Env) (cutoff : Int) : List (Nat × Str) → Option (List Nat)
  | [] => some []
  | (eventId, payload) :: rows =>
    match env.deserialize payload with
    | .corrupt => none
    | .failed => expiredIds env cutoff rows
    | .missing => expiredIds env cutoff rows
    | .event event =>
      if (eventDatetime env event).any (· < cutoff) then
        (expiredIds env cutoff rows).map (eventId :: ·)
      else expiredIds env cutoff rows

/-- The newest row, from the newest on, that does not fit the byte limit any more. -/
def deleteThrough (limit : Nat) : Nat → List (Nat × Str) → Option Nat
  | _, [] => none
  | total, (eventId, payload) :: rows =>
    let size := utf8Size payload
    if limit < total + size then some eventId else deleteThrough limit (total + size) rows

/-- The limits of a pruning run, after the defaults of the configuration. -/
structure Limits where
  maxEvents : Nat
  maxPayloadBytes : Nat
  cutoff : Int
  expireByAge : Bool
  deriving DecidableEq

/-- `prune_events`: the rows that are left. -/
def prunedEvents (limits : Limits) (t : Table Str) : Table Str :=
  let kept := (t.rows.reverse.take limits.maxEvents).map Prod.fst
  let counted := t.deleteWhere (fun r => !kept.contains r.1)
  match if limits.expireByAge then expiredIds env limits.cutoff counted.rows else some [] with
  | none => t
  | some expired =>
    let aged := counted.deleteWhere (fun r => expired.contains r.1)
    match deleteThrough limits.maxPayloadBytes 0 aged.rows.reverse with
    | none => aged
    | some through => aged.deleteWhere (fun r => r.1 ≤ through)

/-- `prune_events`. In managed storage the newest payload must be readable first. -/
def pruneEvents (limits : Limits) (w : World) : World × Nat :=
  if env.readable = false then (w, 0)
  else
    let archive := if env.managed then (w.db.events.rows.getLast?.map (fun r => env.deserialize r.2))
      else none
    if archive = some .corrupt ∨ archive = some .failed then (w, 0)
    else
      let t := prunedEvents env limits w.db.events
      ({ w with db := { w.db with events := t } }, w.db.events.count - t.count)

/-! ## Minimizing notification rows -/

/-- `_ANCS_CORRELATION_FIELDS`. -/
def correlationFields : List Str :=
  [ "kind".toList, "notification_id".toList, "app_id".toList, "title".toList, "subtitle".toList
  , "body".toList, "seen_at".toList ]

/-- The projection of a Messages notification. -/
def projection (event : Record) : Record := correlationFields.map (fun key => (key, event.get key))

/-- `event == projection`: the values agree, so it is a matter of the keys. -/
def isMinimal (event : Record) : Bool :=
  event.keys.all (correlationFields.contains ·) && correlationFields.all (event.keys.contains ·)

/-- The rows to delete and the rows to rewrite; `none` when the function returns or raises before
it has written anything. -/
def minimizePlan (env : Env) : Nat → List (Nat × Str) → Option (List Nat × List (Str × Nat))
  | _, [] => some ([], [])
  | n, (eventId, payload) :: rows =>
    match env.deserialize payload with
    | .corrupt => none
    | .failed => minimizePlan env n rows
    | .missing => minimizePlan env n rows
    | .event event =>
      if event.get "kind".toList ≠ .str "ancs_notification".toList then minimizePlan env n rows
      else if event.get "app_id".toList ≠ .str messagesAppId then
        (minimizePlan env n rows).map (fun plan => (eventId :: plan.1, plan.2))
      else if isMinimal event then minimizePlan env n rows
      else
        match env.serialize n (projection event) with
        | none => none
        | some sealed =>
          (minimizePlan env (n + 1) rows).map
            (fun plan => (plan.1, (sealed, eventId) :: plan.2))

/-- `minimize_ancs_history`. -/
def minimizeAncsHistory (w : World) : World × Nat × Nat :=
  if env.readable = false then (w, 0, 0)
  else
    match minimizePlan env 0 w.db.events.rows with
    | none => (w, 0, 0)
    | some (deleted, minimized) =>
      let t := w.db.events.deleteWhere (fun r => deleted.contains r.1)
      let t := minimized.foldl (fun t m => t.update m.2 m.1) t
      ({ w with db := { w.db with events := t } }, deleted.length, minimized.length)

/-! ## The revision -/

/-- `history_revision`: the number of rows, the newest id and the generation. -/
def historyRevision (w : World) : Nat × Nat × Nat :=
  if env.readable = false then (0, 0, 0)
  else (w.db.events.count, w.db.events.newest, w.db.generation)

end

/-- What a search was made for: the generation of the conversations, the revision of the storage
policy and that of the history. -/
structure SearchVersion where
  generation : Nat
  key : Nat
  history : Nat × Nat × Nat
  deriving DecidableEq

/-- `_only_appended` (`backend_operations.py`). -/
def onlyAppended (before after : SearchVersion) : Bool :=
  let (count, newest, changes) := before.history
  let (nowCount, nowNewest, nowChanges) := after.history
  before.generation == after.generation && before.key == after.key && changes == nowChanges
    && newest ≤ nowNewest && (nowCount : Int) - count == (nowNewest : Int) - newest

/-! ## Runs -/

/-- The write operations. -/
inductive Op where
  | append (events : List Record) (floor : Option (Option Int))
  | deleteRows (eventIds : List Nat) (raiseFloor : Bool)
  | clear (damaged discardDamaged : Bool)
  | scrub
  | prune (limits : Limits)
  | markRead (handles : List Str)
  | minimize

/-- One write operation in its environment. -/
def step (w : World) (call : Env × Op) : World :=
  match call.2 with
  | .append events floor => (appendEvents call.1 events floor w).1
  | .deleteRows eventIds raiseFloor => (deleteEventRows call.1 eventIds raiseFloor w).1
  | .clear damaged discardDamaged => clearEvents call.1 damaged discardDamaged w
  | .scrub => scrubUnprotectedEvents call.1 w
  | .prune limits => (pruneEvents call.1 limits w).1
  | .markRead handles => (markEventHandlesRead call.1 handles w).1
  | .minimize => (minimizeAncsHistory call.1 w).1

end BlueFerry.History
