import BlueFerry.Lib.Dict
import BlueFerry.Text.Json
import BlueFerry.Text.Utf8

/-! # Pinned notifications in the settings document

The records of the notification list, as `notification_pins.py` stores and loads them. A stored
list comes from a file: each item may be any JSON value, and an item that is not a well formed
record is dropped. `load` keeps the records with distinct keys, without the oldest ones that the
bounds leave no room for (`load_nodup`, `load_length`).
-/

namespace BlueFerry.Notifications

open BlueFerry.Text

def MAX_PINNED_NOTIFICATIONS : Nat := 20

def MAX_PINNED_NOTIFICATION_BYTES : Nat := 64 * 1024

def MAX_FIELD_CHARS : Nat := 512

/-- One line of the list; the content fields are there when content is shown. -/
structure Record where
  key : Str
  id : Int
  appId : Str
  appName : Str
  time : Str
  title : Option Str
  subtitle : Option Str
  body : Option Str
  removed : Bool
deriving DecidableEq

/-- `[A-Za-z0-9_-]` -/
def isKeyChar (c : Char) : Bool := isLetter c || isDigit c || c == '_' || c == '-'

def validKey (key : Str) : Bool :=
  decide (1 ≤ key.length) && decide (key.length ≤ 64) && key.all isKeyChar

/-- A JSON value, as far as a stored record looks into it; `other` is any further kind. -/
inductive Value where
  | text (s : Str)
  | number (n : Int)
  | flag (b : Bool)
  | other
deriving DecidableEq

/-- `==` of two values: Python's `False` and `True` are the integers 0 and 1. -/
def Value.eq : Value → Value → Bool
  | .flag b, .number n => n == (if b then 1 else 0)
  | .number n, .flag b => n == (if b then 1 else 0)
  | .other, .other => false
  | v, w => v == w

/-- An item of the stored list: an object, or anything else. -/
abbrev Item := Option (Dict Str Value)

/-- The fields of `stored_form`, in its order. -/
def storedForm (r : Record) : List (Str × Value) :=
  [("key".toList, .text r.key), ("id".toList, .number r.id), ("app_id".toList, .text r.appId),
    ("app_name".toList, .text r.appName), ("time".toList, .text r.time),
    ("removed".toList, .flag r.removed)]
  ++ [("title".toList, r.title), ("subtitle".toList, r.subtitle), ("body".toList, r.body)].filterMap
      (fun e => e.2.map (fun text => (e.1, .text text)))

def Value.dumps : Value → Str
  | .text s => dumpsPlain s
  | .number n => dumpsInt n
  | .flag b => dumpsBool b
  | .other => []

/-- UTF-8 size of the records as they are stored. -/
def serializedSize (records : List Record) : Nat :=
  (encode (dumpsList
    (fun r => dumpsObject ((storedForm r).map (fun e => (e.1, e.2.dumps)))) records)).length

def fits (records : List Record) : Bool :=
  decide (records.length ≤ MAX_PINNED_NOTIFICATIONS)
    && decide (serializedSize records ≤ MAX_PINNED_NOTIFICATION_BYTES)

/-! ## Loading -/

/-- A text of at most `MAX_FIELD_CHARS` characters. -/
def textField (item : Dict Str Value) (name : String) : Option Str :=
  match item.get? name.toList with
  | some (.text s) => if s.length ≤ MAX_FIELD_CHARS then some s else none
  | _ => none

/-- A key that is valid. -/
def keyField (item : Dict Str Value) : Option Str :=
  match item.get? "key".toList with
  | some (.text s) => if validKey s then some s else none
  | _ => none

/-- An integer of 32 bits. -/
def uidField (item : Dict Str Value) : Option Int :=
  match item.get? "id".toList with
  | some (.number n) => if 0 ≤ n ∧ n ≤ 0xFFFFFFFF then some n else none
  | _ => none

section

variable (showContent : Bool)

def normalized (item : Item) : Option Record := do
  let item ← item
  let key ← keyField item
  let id ← uidField item
  let appId ← textField item "app_id"
  let appName ← textField item "app_name"
  let time ← textField item "time"
  if appId = [] then none
  else
    let content := fun name => if showContent then textField item name else none
    some ⟨key, id, appId, appName, time, content "title", content "subtitle", content "body",
      item.get? "removed".toList == some (.flag true)⟩

/-- The loop over the stored items; `seen` are the keys of the records before. -/
def distinct (showContent : Bool) : List Str → List Item → List Record
  | _, [] => []
  | seen, item :: items =>
    match normalized showContent item with
    | none => distinct showContent seen items
    | some r =>
      if r.key ∈ seen then distinct showContent seen items
      else r :: distinct showContent (r.key :: seen) items

/-- `while records and not fits(records): records.pop(0)` -/
def trimmed : List Record → List Record
  | [] => []
  | r :: records => if fits (r :: records) then r :: records else trimmed records

/-- A record equals the object it was read from. -/
def sameObject (r : Record) : Item → Bool
  | none => false
  | some item =>
    decide ((storedForm r).length = item.items.length)
      && (storedForm r).all (fun e => (item.get? e.1).any (Value.eq e.2))

/-- `records == raw` -/
def sameList : List Record → List Item → Bool
  | [], [] => true
  | r :: records, item :: raw => sameObject r item && sameList records raw
  | _, _ => false

/-- What `PrivatePreference.load` gives: no value, a value that is no list, or the items. -/
inductive Document where
  | absent
  | notAList
  | items (raw : List Item)

/-- `PinnedNotificationsStore.load`: the records, oldest pin first, and whether to rewrite them. -/
def load : Document → List Record × Bool
  | .absent => ([], false)
  | .notAList => ([], true)
  | .items raw =>
    let records := trimmed (distinct showContent [] raw)
    (records, !sameList records raw)

theorem distinct_keys (seen : List Str) (items : List Item) :
    ((distinct showContent seen items).map Record.key).Nodup ∧
      ∀ r ∈ distinct showContent seen items, r.key ∉ seen := by
  induction items generalizing seen with
  | nil => exact ⟨List.nodup_nil, fun _ h => absurd h (by simp [distinct])⟩
  | cons item items ih =>
    rw [distinct]
    cases normalized showContent item with
    | none => exact ih seen
    | some r =>
      show ((if r.key ∈ seen then distinct showContent seen items
        else r :: distinct showContent (r.key :: seen) items).map Record.key).Nodup ∧ _
      by_cases hseen : r.key ∈ seen
      · rw [if_pos hseen]
        exact (ih seen).imp id (fun h => by simpa [hseen] using h)
      obtain ⟨hnodup, hnew⟩ := ih (r.key :: seen)
      simp only [if_neg hseen]
      constructor
      · rw [List.map_cons, List.nodup_cons]
        refine ⟨fun hmem => ?_, hnodup⟩
        obtain ⟨r', hr', hkey⟩ := List.mem_map.mp hmem
        exact hnew r' hr' (by simp [hkey])
      intro r' hr'
      rcases List.mem_cons.mp hr' with heq | hr'
      · rw [heq]
        exact hseen
      · exact fun hmem => hnew r' hr' (List.mem_cons_of_mem _ hmem)

theorem trimmed_suffix (records : List Record) : trimmed records <:+ records := by
  induction records with
  | nil => exact List.suffix_refl _
  | cons r records ih =>
    rw [trimmed]
    split
    · exact List.suffix_refl _
    · exact ih.trans (List.suffix_cons r records)

theorem trimmed_fits (records : List Record) :
    (trimmed records).length ≤ MAX_PINNED_NOTIFICATIONS := by
  induction records with
  | nil => exact Nat.zero_le _
  | cons r records ih =>
    rw [trimmed]
    split
    · rename_i hfits
      simp only [fits, Bool.and_eq_true, decide_eq_true_eq] at hfits
      exact hfits.1
    · exact ih

/-- No two loaded records have one key. -/
theorem load_nodup (document : Document) :
    ((load showContent document).1.map Record.key).Nodup := by
  cases document with
  | absent | notAList => exact List.nodup_nil
  | items raw =>
    exact (distinct_keys showContent [] raw).1.sublist ((trimmed_suffix _).sublist.map _)

/-- There are at most as many loaded records as there may be pins. -/
theorem load_length (document : Document) :
    (load showContent document).1.length ≤ MAX_PINNED_NOTIFICATIONS := by
  cases document with
  | absent | notAList => exact Nat.zero_le _
  | items raw => exact trimmed_fits _

end

end BlueFerry.Notifications
