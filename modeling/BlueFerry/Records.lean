import BlueFerry.Text.Basic

/-! # Event records

An event record is the JSON object of one stored event. The code reads a few fields by name and
compares or prints their values; `Value` keeps of a JSON value what these reads can tell apart.
-/

namespace BlueFerry

open BlueFerry.Text

/-- `MESSAGES_APP_ID`: the bundle identifier of Apple's Messages app. -/
def messagesAppId : Str := "com.apple.MobileSMS".toList

/-- A JSON value. Numbers, lists and objects are kept as their text under `str()` and their truth
value. -/
inductive Value where
  | null
  | bool (b : Bool)
  | str (s : Str)
  | other (text : Str) (truthy : Bool)
  deriving DecidableEq

namespace Value

/-- `bool(value)`. -/
def truthy : Value → Bool
  | null => false
  | bool b => b
  | str s => !s.isEmpty
  | other _ t => t

/-- `str(value)`. -/
def text : Value → Str
  | null => "None".toList
  | bool b => if b then "True".toList else "False".toList
  | str s => s
  | other t _ => t

/-- `value or other`. -/
def orElse (v w : Value) : Value := if v.truthy then v else w

end Value

/-- `EventRecord`: a JSON object, with its keys in order. -/
abbrev Record := List (Str × Value)

namespace Record

/-- `event.get(key)`. -/
def get (r : Record) (key : Str) : Value := (r.lookup key).getD .null

/-- `str(event.get(key) or "")`. -/
def textOf (r : Record) (key : Str) : Str := ((r.get key).orElse (.str [])).text

/-- `event[key] = value`. -/
def set : Record → Str → Value → Record
  | [], key, value => [(key, value)]
  | (k, v) :: r, key, value => if k = key then (k, value) :: r else (k, v) :: set r key value

def keys (r : Record) : List Str := r.map Prod.fst

theorem get_set (r : Record) (key other : Str) (value : Value) :
    (r.set key value).get other = if other = key then value else r.get other := by
  unfold get
  induction r with
  | nil =>
    rw [set, List.lookup_cons]
    by_cases h : other = key
    · rw [h, beq_self_eq_true, if_pos rfl]
      rfl
    · rw [beq_false_of_ne h, if_neg h]
  | cons e r ih =>
    obtain ⟨k, v⟩ := e
    rw [set]
    by_cases hk : k = key
    · rw [if_pos hk, List.lookup_cons, List.lookup_cons, hk]
      by_cases h : other = key
      · rw [h, beq_self_eq_true, if_pos rfl]
        rfl
      · rw [beq_false_of_ne h, if_neg h]
    rw [if_neg hk, List.lookup_cons, List.lookup_cons]
    by_cases h : other = k
    · have hne : ¬ other = key := by
        rw [h]
        exact hk
      rw [h, beq_self_eq_true, ← h, if_neg hne]
    · rw [beq_false_of_ne h]
      exact ih

end Record

end BlueFerry
