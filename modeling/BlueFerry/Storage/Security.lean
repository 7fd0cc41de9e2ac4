import BlueFerry.Lib.Machine
import BlueFerry.Text.CaseMapping

/-! # Storage protection

`StorageSecurity` (`storage_security.py`) holds the policy for retained data and the key it is sealed
with. Its `revision` changes with either, and a background writer seals with a copy of the object that
follows it: `ensure_current` refuses once the revision of the source is another.

The settings file, the desktop keyring and the worker of an asynchronous change are answers: what a
read of the file returned, what `_load_key` returned or raised, what a request ended with. The file
models every operation that changes the object (`Op`, `apply`), the objects that exist side by side
(`World`), and the two ways to seal.
-/

namespace BlueFerry.Storage

open BlueFerry.Text

/-! ## Data -/

abbrev Key := List UInt8

/-- `_KEY_BYTES` -/
def keyBytes : Nat := 32

inductive Policy where
  | encrypted
  | plaintext
  /-- `NO_STORAGE` -/
  | noStorage
  deriving DecidableEq

/-- `_state` -/
inductive State where
  | locked
  | ready
  | disabled
  | error
  deriving DecidableEq

/-- The policy of a name, if it is one of `STORAGE_POLICIES`. -/
def policyNamed (name : Str) : Option Policy :=
  if name = "encrypted".toList then some .encrypted
  else if name = "plaintext".toList then some .plaintext
  else if name = "none".toList then some .noStorage
  else none

/-- A pending request of `change_async`: its own `cancel`, and what its closures captured. -/
structure Request where
  id : Nat
  deleting : Bool
  selected : Policy
  generation : Nat
  /-- `_preparing` -/
  preparing : Bool := false
  /-- `_passive_request` -/
  passive : Bool
  deriving DecidableEq

structure Security where
  policy : Policy := .encrypted
  policyKnown : Bool := false
  key : Option Key := none
  keyChecked : Bool := false
  request : Option Request := none
  failureGeneration : Nat := 0
  revision : Nat := 0
  /-- the source, by its position among the objects, and its revision -/
  followed : Option (Nat × Nat) := none
  state : State := .locked
  detail : Str := []
  /-- the name of the settings file -/
  fileName : Str := "settings.json".toList
  deriving DecidableEq

/-- What a read of the settings file returned: the saved `local_data`, if there is one. -/
inductive Loaded where
  | unreadable
  | saved (localData : Option Str)
  deriving DecidableEq

/-- What `_load_key` returned, the key and whether it opened the key check, or raised. -/
abbrev KeyAnswer := Except Str (Key × Bool)

/-! ## Texts -/

def keptNoData : Str := "Local data is not retained".toList

def keptPlain : Str := "Local data is retained without encryption".toList

def keptEncrypted : Str := "Local data is encrypted with the desktop keyring".toList

def unlockDetail : Str := "Unlock the desktop keyring to retain encrypted local data".toList

def removeKeyDetail : Str :=
  "Local data is not retained; remove the old BlueFerry key through the desktop wallet if desired".toList

def preparingDetail : Str := "Preparing local storage".toList

def damagedDatabaseDetail : Str :=
  ("Local storage could not be prepared because a database is damaged. " ++
    "Reset local storage to discard the unreadable data").toList

def resetText : Str := "Reset local storage to discard the unreadable data".toList

def otherKeyText : Str :=
  ("The desktop keyring may hold a different key than the one that saved it: open the wallet that " ++
    "holds the original key and unlock again, or reset local storage to start over").toList

def unreadableDetail (fileName : Str) : Str :=
  "Local data is not retained while ".toList ++ fileName
    ++ " cannot be read; repair or remove the file".toList

/-! ## The parts of the operations -/

section

variable (s : Security)

/-- `_forget_key` -/
def forgetKey : Security :=
  { s with
    key := none
    keyChecked := false
    revision := if s.key.isSome then s.revision + 1 else s.revision }

def withStatus (state : State) (detail : Str) : Security :=
  { s with
    state := state
    detail := detail }

/-- `_fail` -/
def fail (detail : Str) : Security :=
  withStatus (forgetKey { s with failureGeneration := s.failureGeneration + 1 }) .error detail

/-- `fail_closed` -/
def failClosed (detail : Str) : Security :=
  fail s <|
    if "reset local storage".toList <:+: casefold detail then detail
    else detail ++ ". ".toList ++ (if s.keyChecked then resetText else otherKeyText)

/-- `_policy_unreadable` -/
def policyUnreadable : Security :=
  withStatus
    (forgetKey { s with
      revision := if s.policyKnown then s.revision + 1 else s.revision
      policyKnown := false })
    .locked (unreadableDetail s.fileName)

/-- `self._policy = selected`, with the new revision if it is another one. -/
def withPolicy (selected : Policy) : Security :=
  { s with
    policy := selected
    policyKnown := true
    revision := if s.policy = selected then s.revision else s.revision + 1 }

/-- `_load_policy`: the object, and whether the file could be read. -/
def loadPolicy : Loaded → Security × Bool
  | .unreadable => (policyUnreadable s, false)
  | .saved localData =>
    let selected := (policyNamed (localData.getD "encrypted".toList)).getD .encrypted
    let s := withPolicy s selected
    match selected with
    | .noStorage => (withStatus s .disabled keptNoData, true)
    | .plaintext => (withStatus s .ready keptPlain, true)
    | .encrypted => (withStatus s .locked unlockDetail, true)

/-- `_policy_readable` -/
def policyReadable (loaded : Loaded) : Security × Bool :=
  if s.policyKnown then
    match loaded with
    | .unreadable => (policyUnreadable s, false)
    | .saved _ => (s, true)
  else loadPolicy s loaded

/-- `_accept_key` -/
def acceptKey (key : Key) (checked : Bool) : Security :=
  let s :=
    if s.key = some key then s
    else
      let forgotten := forgetKey s
      { forgotten with
        key := some key
        revision := forgotten.revision + 1 }
  withStatus { s with keyChecked := checked } .ready keptEncrypted

/-- The key is forgotten and the storage locked. -/
def lock (detail : Str) : Security := withStatus (forgetKey s) .locked detail

/-- `refresh` -/
def refresh (loaded : Loaded) (answer : KeyAnswer) : Security :=
  let (s, known) := if s.policyKnown then (s, true) else loadPolicy s loaded
  if known then
    match s.policy with
    | .noStorage => s
    | .plaintext => withStatus (forgetKey s) .ready keptPlain
    | .encrypted =>
      match answer with
      | .error detail => lock s detail
      | .ok (key, checked) => acceptKey s key checked
  else s

/-- `_select_policy`, from the selected policy on: `saved` says that the settings were updated. -/
def selectPolicy (value : Str) (loaded : Loaded) (saved : Bool) : Security × Option Policy :=
  match policyNamed (casefold (strip value)) with
  | none => (s, none)
  | some selected =>
    let (s, known) := policyReadable s loaded
    if known && saved then
      let previous := s.policy
      let s := withPolicy s selected
      match selected with
      | .noStorage => (withStatus (forgetKey s) .disabled keptNoData, some selected)
      | .plaintext => (withStatus (forgetKey s) .ready keptPlain, some selected)
      | .encrypted =>
        if previous = selected then (s, some selected)
        else (lock s unlockDetail, some selected)
    else (s, none)

/-- `set_policy`: `deleted` says that the keyring removed the key. -/
def setPolicy (value : Str) (loaded : Loaded) (saved deleted : Bool)
    (answer : KeyAnswer) : Security :=
  match selectPolicy s value loaded saved with
  | (s, none) => s
  | (s, some .noStorage) => { s with detail := if deleted then keptNoData else removeKeyDetail }
  | (s, some .plaintext) => s
  | (s, some .encrypted) => refresh s loaded answer

/-! ## The asynchronous change -/

/-- The check of the settings file by `change_async`. -/
def checkFile (policy : Option Str) (reset : Bool) (checking : Loaded) : Security × Bool :=
  if reset || policy.isNone then policyReadable s checking else (s, true)

/-- The policy that `change_async` is asked for, and whether it could be selected. -/
def choosePolicy (policy : Option Str) (selecting : Loaded) (saved : Bool) : Security × Bool :=
  match policy with
  | none => (s, true)
  | some value =>
    let (s, selected) := selectPolicy s value selecting saved
    (s, selected.isSome)

/-- A reset forgets the key and is a new revision in any case. -/
def resetKey (reset : Bool) : Security :=
  if reset then
    let forgotten := forgetKey s
    { forgotten with revision := forgotten.revision + 1 }
  else s

/-- `change_async` from the test of `prepare` on; `submitted` says that the worker took the request. -/
def submitRequest (id : Nat) (policy : Option Str) (prompts prepares submitted : Bool) : Security :=
  if !prepares && (decide (s.policy = .plaintext) ||
      decide (s.policy = .noStorage) && policy.isNone) then s
  else
    let deleting := decide (s.policy = .noStorage)
    let s := if prepares && !deleting then withStatus s .locked preparingDetail else s
    if submitted then
      { s with
        request := some {
          id := id
          deleting := deleting
          selected := s.policy
          generation := s.failureGeneration
          passive := !prompts && policy.isNone } }
    else s

/-- `change_async` up to the submission of its request, whose own `cancel` is `id`. The answers are
the reads of the settings file by the checks and by `_select_policy`, and whether the policy was
saved, the key check cleared and the request submitted. -/
def changeAsync (id : Nat) (policy : Option Str) (prompts prepares reset : Bool)
    (checking selecting : Loaded) (saved cleared submitted : Bool) : Security :=
  if s.request.isSome then s
  else
    let checked := checkFile s policy reset checking
    if checked.2 = false then checked.1
    else
      let chosen := choosePolicy checked.1 policy selecting saved
      if chosen.2 = false then chosen.1
      else if reset && !cleared then resetKey chosen.1 reset
      else submitRequest (resetKey chosen.1 reset) id policy prompts prepares submitted

/-- What went wrong in a request, as `finish` tells it apart. -/
inductive Failure where
  /-- an `UnreadableSettingsError` -/
  | unreadableSettings
  /-- a `StorageUnavailableError` -/
  | unavailable (detail : Str)
  /-- one for which `_retryable_preparation_error` holds -/
  | retryable (detail : Str)
  /-- a `CorruptStorageError` -/
  | corrupt (detail : Str)
  /-- a damaged database -/
  | damaged (detail : Str)
  | other (detail : Str)
  deriving DecidableEq

/-- `str(error)`; that of an unreadable settings file is not used. -/
def Failure.detail : Failure → Str
  | .unreadableSettings => []
  | .unavailable detail => detail
  | .retryable detail => detail
  | .corrupt detail => detail
  | .damaged detail => detail
  | .other detail => detail

/-- The failure is one of preparation itself, and not one that a retry may get past. -/
def Failure.lasting : Failure → Bool
  | .corrupt _ => true
  | .damaged _ => true
  | .other _ => true
  | .unreadableSettings => false
  | .unavailable _ => false
  | .retryable _ => false

/-- What a request ended with: a key, or a flag, or the value that came with prepared data. -/
inductive Result where
  | value (key : Option Key)
  | failed (failure : Failure)
  deriving DecidableEq

def retryingDetail : Str := "Local storage is temporarily unavailable; retrying".toList

def notPreparedDetail : Str := "Local storage could not be prepared".toList

def invalidKeyDetail : Str := "the desktop keyring returned an invalid BlueFerry key".toList

def timedOutDetail : Str := "desktop wallet request timed out; try again".toList

def notActivatedDetail : Str := "Prepared storage could not be activated".toList

/-- `cancel` of the pending request -/
def cancelPending : Security := { s with request := none }

/-- The branches of `finish` for a request that is the pending one. -/
def settle (request : Request) (result : Result) (checked : Bool) : Security :=
  if s.failureGeneration ≠ request.generation then s
  else
    match result with
    | .failed .unreadableSettings => policyUnreadable s
    | .failed failure =>
      match failure, request.deleting, request.preparing with
      | .unavailable detail, false, _ => lock s detail
      | .unavailable _, true, _ => withStatus s .disabled removeKeyDetail
      | .retryable _, _, true => lock s retryingDetail
      | .corrupt detail, _, true => failClosed { s with keyChecked := checked } detail
      | .damaged _, _, true => fail s damagedDatabaseDetail
      | .other _, _, true => fail s notPreparedDetail
      | _, true, false => withStatus s .disabled removeKeyDetail
      | _, _, _ => lock s failure.detail
    | .value key =>
      if request.deleting then withStatus s .disabled keptNoData
      else if request.selected = .plaintext then withStatus (forgetKey s) .ready keptPlain
      else
        match key with
        | some key =>
          if key.length = keyBytes then acceptKey s key checked else lock s invalidKeyDetail
        | none => lock s invalidKeyDetail

/-- `finish` of the request `id`, ignored unless it is the pending one. -/
def finish (id : Nat) (result : Result) (checked : Bool) : Security :=
  match s.request with
  | none => s
  | some request =>
    if request.id = id then settle (cancelPending s) request result checked else s

/-! ## Operations -/

inductive Op where
  | refresh (loaded : Loaded) (answer : KeyAnswer)
  | setPolicy (value : Str) (loaded : Loaded) (saved deleted : Bool) (answer : KeyAnswer)
  | requireKnownPolicy (loaded : Loaded)
  | requirePreparation
  | changeAsync (id : Nat) (policy : Option Str) (prompts prepares reset : Bool)
      (checking selecting : Loaded) (saved cleared submitted : Bool)
  /-- the worker of a request enters its preparation -/
  | beginPreparing (id : Nat)
  | finish (id : Nat) (result : Result) (checked : Bool)
  /-- the `on_prepared` of a request raised -/
  | activationFailed
  | timedOut (id : Nat)
  | cancelPending
  | cancelPassiveRequest
  | failClosed (detail : Str)
  | close

def apply : Op → Security
  | .refresh loaded answer => refresh s loaded answer
  | .setPolicy value loaded saved deleted answer => setPolicy s value loaded saved deleted answer
  | .requireKnownPolicy loaded => (policyReadable s loaded).1
  | .requirePreparation =>
    if s.policy = .noStorage then s else withStatus (forgetKey s) .locked preparingDetail
  | .changeAsync id policy prompts prepares reset checking selecting saved cleared submitted =>
    changeAsync s id policy prompts prepares reset checking selecting saved cleared submitted
  | .beginPreparing id =>
    match s.request with
    | none => s
    | some request =>
      if request.id = id then
        { s with
          request := some { request with
            preparing := true
            passive := false } }
      else s
  | .finish id result checked => finish s id result checked
  | .activationFailed => fail s notActivatedDetail
  | .timedOut id =>
    match s.request with
    | none => s
    | some request =>
      if request.preparing then s else finish s id (.failed (.unavailable timedOutDetail)) false
  | .cancelPending => cancelPending s
  | .cancelPassiveRequest =>
    match s.request with
    | none => s
    | some request => if request.passive then cancelPending s else s
  | .failClosed detail => failClosed s detail
  | .close => forgetKey (cancelPending s)

/-! ## Objects side by side -/

/-- The objects that there are: a daemon's own, and the snapshots taken. -/
abbrev World := List Security

/-- `snapshot` of the object at `i`. -/
def snapshotOf (i : Nat) (follow : Bool) : Security :=
  { s with
    followed := if follow then some (i, s.revision) else none
    request := none }

/-- `status.can_write` -/
def Security.canWrite : Bool := decide (s.policy ≠ .noStorage ∧ s.state = .ready)

end

/-- What sealing returns: the text itself, or its ciphertext, given by what it was made of. -/
inductive Sealed (α : Type) where
  | plain (text : α)
  | sealed (key : Key) (purpose : Str) (text : α)
  deriving DecidableEq

inductive StorageError where
  | unavailable (detail : Str)
  | superseded
  deriving DecidableEq

/-- `encrypt_bytes`, and `encrypt` after `ensure_current`. -/
def Security.sealText {α : Type} (s : Security) (text : α) (purpose : Str) :
    Except StorageError (Sealed α) :=
  if s.canWrite then
    match s.policy, s.key with
    | .plaintext, _ => .ok (.plain text)
    | _, some key => .ok (.sealed key purpose text)
    | _, none => .error (.unavailable s.detail)
  else .error (.unavailable s.detail)

/-- `ensure_current` passes. -/
def World.current (w : World) (s : Security) : Bool :=
  match s.followed with
  | none => true
  | some (source, revision) => w[source]?.all fun s => decide (s.revision = revision)

/-- `encrypt` on the object at `i`. -/
def World.encrypt (w : World) (i : Nat) (text purpose : Str) : Except StorageError (Sealed Str) :=
  match w[i]? with
  | none => .error (.unavailable [])
  | some s => if w.current s then s.sealText text purpose else .error .superseded

/-- `encrypt_bytes` on the object at `i`. -/
def World.encryptBytes (w : World) (i : Nat) (data : List UInt8) (purpose : Str) :
    Except StorageError (Sealed (List UInt8)) :=
  match w[i]? with
  | none => .error (.unavailable [])
  | some s => s.sealText data purpose

inductive Step where
  | call (i : Nat) (op : Op)
  | snapshot (i : Nat) (follow : Bool)
  | encrypt (i : Nat) (text purpose : Str)
  | encryptBytes (i : Nat) (data : List UInt8) (purpose : Str)

/-- Sealing changes no object. -/
def World.step (w : World) : Step → World
  | .call i op => w.modify i fun s => apply s op
  | .snapshot i follow => w ++ (w[i]?.map fun s => snapshotOf s i follow).toList
  | .encrypt _ _ _ => w
  | .encryptBytes _ _ _ => w

end BlueFerry.Storage
