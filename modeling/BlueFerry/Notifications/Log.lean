import BlueFerry.Lib.Machine
import BlueFerry.Notifications.Pins

/-! # The notification log

`NotificationLog` (`notification_log.py`) lists the recent notifications of other apps: the last
ones in a ring, and the pinned ones, which stay when they leave it. `entries` holds the records,
`sessions` the ANCS session in which each one came (`none`: from the settings document, or cut off
from its session), `ring` and `pinned` their keys, oldest first.

A call asks the pin store, and it draws random keys until one is free. What the store answers and
what is drawn is given with the call: `Answers`. A call that has drawn all of its keys in vain has
not returned, so it is no step (`none`).
-/

namespace BlueFerry.Notifications

open BlueFerry.Text

def MESSAGES_APP_ID : Str := "com.apple.MobileSMS".toList

/-- `_bounded` -/
def bounded (text : Str) : Str :=
  if text.length ≤ MAX_FIELD_CHARS then text else text.take (MAX_FIELD_CHARS - 1) ++ ['…']

structure AncsEvent where
  notificationId : Int
  appId : Str
  appName : Str
  time : Str
  title : Str
  subtitle : Str
  body : Str

/-- The log; `hasStore` says whether there is a store for the pins. -/
structure NotificationLog where
  showContent : Bool
  capacity : Nat
  entries : Dict Str Record
  sessions : Dict Str (Option Nat)
  ring : List Str
  pinned : List Str
  session : Nat
  hasStore : Bool
  pinsLoaded : Bool
  pinsLoadFailed : Bool
  pinsDirty : Bool

/-! ## What the store answers -/

/-- The exceptions of `PinnedNotificationsStore.load`; an `UnreadableSettingsError` is a
`ValueError` too. -/
inductive LoadError where
  | unreadableSettings
  | other

/-- An attempt to save: whether the store is writable, and whether `save` succeeds. -/
structure Saving where
  writable : Bool
  saved : Bool

/-- An attempt to load: `readable()` before and after, and the stored value. -/
structure Loading where
  readable : Bool
  document : Except LoadError Document
  stillReadable : Bool
  rewriting : Saving

structure Answers where
  loading : Loading
  saving : Saving
  cleared : Bool
  draws : List Str

namespace NotificationLog

/-! ## Internals -/

section

variable (l : NotificationLog)

/-- The record is of the current session, and the iPhone has not removed it. -/
def liveRecord (key : Str) (r : Record) : Bool :=
  l.sessions.get? key == some (some l.session) && !r.removed

/-- `_live_match` -/
def liveMatch (id : Int) (appId : Str) : Option Str :=
  (l.entries.items.find? (fun e =>
    l.liveRecord e.1 e.2 && decide (e.2.id = id) && decide (e.2.appId = appId))).map Prod.fst

/-- `_unique_key`: the first key drawn that may be used, and the draws after it. -/
def uniqueKey (l : NotificationLog) (avoid : List Str) : List Str → Option (Str × List Str)
  | [] => none
  | key :: draws =>
    if validKey key && decide (key ∉ l.entries.keys) && decide (key ∉ avoid) then some (key, draws)
    else uniqueKey l avoid draws

/-- `_drop` -/
def drop (key : Str) : NotificationLog :=
  { l with entries := l.entries.erase key, sessions := l.sessions.erase key }

/-- The loop of `_ring_append`, over what the ring still holds. -/
def makeRoom (l : NotificationLog) : List Str → NotificationLog
  | [] => { l with ring := [] }
  | evicted :: ring =>
    if l.capacity ≤ (evicted :: ring).length then
      makeRoom (if evicted ∈ l.pinned then l else l.drop evicted) ring
    else { l with ring := evicted :: ring }

/-- `_ring_append` -/
def ringAppend (key : Str) : NotificationLog :=
  let l := l.makeRoom l.ring
  { l with ring := l.ring ++ [key] }

/-- `_rekey`, with the key that was drawn. -/
def rekey (key fresh : Str) : NotificationLog :=
  match l.entries.get? key with
  | none => l
  | some record =>
    let rename := fun item => if item = key then fresh else item
    { l with
      entries := (l.entries.erase key).set fresh { record with key := fresh }
      sessions := (l.sessions.erase key).set fresh ((l.sessions.get? key).getD none)
      ring := l.ring.map rename
      pinned := l.pinned.map rename }

/-- `_persist` -/
def persist (saving : Saving) : NotificationLog :=
  if !l.hasStore || !l.pinsLoaded then l
  else { l with pinsDirty := !(saving.writable && saving.saved) }

end

/-! ## Loading the pins -/

/-- The loop over the stored records; `storedKeys` are the keys that they keep. -/
def adopt (storedKeys : List Str) :
    NotificationLog → List Record → List Str → Option (NotificationLog × List Str)
  | l, [], draws => some (l, draws)
  | l, record :: stored, draws => do
    let (l, draws) ←
      if record.key ∈ l.entries.keys then do
        let (fresh, draws) ← l.uniqueKey storedKeys draws
        some (l.rekey record.key fresh, draws)
      else some (l, draws)
    adopt storedKeys
      { l with
        entries := l.entries.set record.key record
        sessions := l.sessions.set record.key none }
      stored draws

section

variable (l : NotificationLog)

/-- `_load_pins`: the log after it, or the exception. -/
def loadPins (a : Loading) (draws : List Str) :
    Option (Except LoadError NotificationLog × List Str) :=
  if l.pinsLoaded || !l.hasStore || !a.readable then some (.ok l, draws)
  else
    match a.document with
    | .error e => some (.error e, draws)
    | .ok document =>
      if !a.stillReadable then some (.ok l, draws)
      else do
        let (stored, rewrite) := load l.showContent document
        let loaded := stored.map Record.key
        let (l, draws) ←
          adopt loaded { l with pinsLoaded := true, pinsLoadFailed := false } stored draws
        let l := { l with pinned := loaded ++ l.pinned.filter (· ∉ loaded) }
        some (.ok (if rewrite then l.persist a.rewriting else l), draws)

/-- `_pins_unreadable` -/
def pinsUnreadable : NotificationLog := { l with pinsLoadFailed := true }

/-- `_ensure_pins_loaded` -/
def ensurePinsLoaded (a : Loading) (draws : List Str) :
    Option (NotificationLog × List Str) := do
  match ← l.loadPins a draws with
  | (.ok l, draws) => some (l, draws)
  | (.error _, draws) => some (l.pinsUnreadable, draws)

/-- `if self._pins_dirty: self._persist()` -/
def persistDirty (saving : Saving) : NotificationLog :=
  if l.pinsDirty then l.persist saving else l

/-! ## iPhone events -/

/-- The record of an event, under a key. -/
def recordOf (e : AncsEvent) (key : Str) : Record :=
  let content := fun text => if l.showContent then some (bounded text) else none
  ⟨key, e.notificationId, bounded e.appId, bounded e.appName, e.time, content e.title,
    content e.subtitle, content e.body, false⟩

/-- The pinned records with the one under `key` replaced. -/
def candidate (key : Str) (record : Record) : List Record :=
  l.pinned.filterMap (fun item => if item = key then some record else l.entries.get? item)

/-- The end of `handle_ancs`: the record is listed last, under its key. -/
def place (record : Record) (saving : Saving) : NotificationLog :=
  let l := { l with
    entries := l.entries.set record.key record
    sessions := l.sessions.set record.key (some l.session) }
  let l := l.ringAppend record.key
  if record.key ∈ l.pinned then l.persist saving else l

/-- A record that no live one makes way for: it gets a key of its own. -/
def placeNew (e : AncsEvent) (draws : List Str) (saving : Saving) :
    Option NotificationLog := do
  let (key, _) ← l.uniqueKey [] draws
  some (l.place (l.recordOf e key) saving)

/-- `handle_ancs` after the pins are loaded. -/
def receive (e : AncsEvent) (draws : List Str) (saving : Saving) : Option NotificationLog :=
  match l.liveMatch e.notificationId (bounded e.appId) with
  | none => l.placeNew e draws saving
  | some key =>
    if key ∈ l.pinned ∧ fits (l.candidate key (l.recordOf e key)) = false then
      -- the pinned version is kept as it was, the update is listed separately
      { l with sessions := l.sessions.set key none }.placeNew e draws saving
    else some ({ l with ring := l.ring.erase key }.place (l.recordOf e key) saving)

def handleAncs (e : AncsEvent) (a : Answers) : Option NotificationLog :=
  if e.appId = [] ∨ e.appId = MESSAGES_APP_ID then some l
  else do
    let (l, draws) ← l.ensurePinsLoaded a.loading a.draws
    l.receive e draws a.saving

/-- `mark_removed` -/
def markRemoved (id : Int) (saving : Saving) : NotificationLog :=
  let hit := fun key (r : Record) => l.liveRecord key r && decide (r.id = id)
  let marked := { l with
    entries := l.entries.mapValues (fun key r => if hit key r then { r with removed := true } else r) }
  if l.entries.items.any (fun e => hit e.1 e.2 && decide (e.1 ∈ l.pinned)) then marked.persist saving
  else marked

def sessionReset : NotificationLog := { l with session := l.session + 1 }

/-! ## Pins -/

/-- How `set_pinned` fails. -/
inductive PinError where
  | unreadableSettings
  | locked
  | unknownKey
  | tooMany
  | tooLong
  | notSaved
deriving DecidableEq

/-- The end of `set_pinned`, with the pins as they are to be: a save that fails rolls them back. -/
def savePins (pins : List Str) (saving : Saving) : Except PinError NotificationLog :=
  if !l.hasStore then .ok { l with pinned := pins }
  else if saving.saved then .ok { l with pinned := pins, pinsDirty := false }
  else .error .notSaved

/-- `set_pinned` after the pins are loaded; its result says whether the record is pinned now. -/
def changePin (key : Str) (pinned : Bool) (saving : Saving) :
    Except PinError (NotificationLog × Bool) :=
  if !l.pinsLoaded then .error .locked
  else if !validKey key || decide (key ∉ l.entries.keys) then .error .unknownKey
  else if pinned then
    if key ∈ l.pinned then .ok (l, true)
    else if MAX_PINNED_NOTIFICATIONS ≤ l.pinned.length then .error .tooMany
    else if !fits ((l.pinned ++ [key]).filterMap l.entries.get?) then .error .tooLong
    else (l.savePins (l.pinned ++ [key]) saving).map (fun l => (l, true))
  else if key ∉ l.pinned then .ok (l, false)
  else
    (l.savePins (l.pinned.erase key) saving).map
      (fun l => (if key ∈ l.ring then l else l.drop key, false))

/-- `set_pinned`: the log after it, and the exception or whether the record is pinned now. -/
def setPinned (key : Str) (pinned : Bool) (a : Answers) :
    Option (NotificationLog × Except PinError Bool) := do
  match ← l.loadPins a.loading a.draws with
  | (.error .unreadableSettings, _) => some (l, .error .unreadableSettings)
  | (.error .other, _) =>
    match l.pinsUnreadable.changePin key pinned a.saving with
    | .ok (l', now) => some (l', .ok now)
    | .error e => some (l.pinsUnreadable, .error e)
  | (.ok l, _) =>
    match l.changePin key pinned a.saving with
    | .ok (l', now) => some (l', .ok now)
    | .error e => some (l, .error e)

/-- The loop of `forget_pins`. -/
def dropUnlisted (l : NotificationLog) : List Str → NotificationLog
  | [] => l
  | key :: pinned => (if key ∈ l.ring then l else l.drop key).dropUnlisted pinned

/-- `forget_pins`; `cleared` says whether `store.clear()` returned. -/
def forgetPins (cleared : Bool) : NotificationLog :=
  if l.hasStore && !cleared then l
  else { l.dropUnlisted l.pinned with pinned := [], pinsDirty := false }

/-- `clear` -/
def clear (cleared : Bool) : NotificationLog :=
  if l.hasStore && !cleared then l
  else
    { l with entries := .empty, sessions := .empty, ring := [], pinned := [], pinsDirty := false }

/-- `storage_changed` -/
def storageChanged (a : Answers) : Option NotificationLog := do
  let (l, _) ← l.ensurePinsLoaded a.loading a.draws
  some (l.persistDirty a.saving)

/-! ## The list -/

/-- The keys in the order of the list: the newest pin first, then the rest, newest first. -/
def order : List Str :=
  l.pinned.reverse ++ l.ring.reverse.filter (· ∉ l.pinned)

/-- One line of the list. -/
structure Shown where
  record : Record
  pinned : Bool
  actionable : Bool

/-- `_public` -/
def shown (key : Str) : Option Shown :=
  (l.entries.get? key).map (fun r => ⟨r, decide (key ∈ l.pinned), l.liveRecord key r⟩)

/-- `snapshot`: the log after it, and the list. -/
def snapshot (limit : Int) (a : Answers) :
    Option (NotificationLog × List Shown) := do
  let (l, _) ← l.ensurePinsLoaded a.loading a.draws
  let l := l.persistDirty a.saving
  some (l, (l.order.take limit.toNat).filterMap l.shown)

/-! ## Runs -/

/-- A log as it is built; `capacity` is bounded below as `__init__` does it. -/
def start (showContent : Bool) (capacity : Nat) (hasStore : Bool) : NotificationLog :=
  ⟨showContent, max 1 capacity, .empty, .empty, [], [], 0, hasStore, !hasStore, false, false⟩

inductive Operation where
  | handleAncs (e : AncsEvent)
  | markRemoved (id : Int)
  | sessionReset
  | setPinned (key : Str) (pinned : Bool)
  | forgetPins
  | storageChanged
  | clear
  | snapshot (limit : Int)

/-- The log after one call. -/
def perform (a : Answers) : Operation → Option NotificationLog
  | .handleAncs e => l.handleAncs e a
  | .markRemoved id => some (l.markRemoved id a.saving)
  | .sessionReset => some l.sessionReset
  | .setPinned key pinned => (l.setPinned key pinned a).map Prod.fst
  | .forgetPins => some (l.forgetPins a.cleared)
  | .storageChanged => l.storageChanged a
  | .clear => some (l.clear a.cleared)
  | .snapshot limit => (l.snapshot limit a).map Prod.fst

/-- One call of the daemon; one that has not returned has changed nothing yet. -/
def step (call : Operation × Answers) : NotificationLog :=
  (l.perform call.2 call.1).getD l

end

end NotificationLog

end BlueFerry.Notifications
