import BlueFerry.Lib.Dict
import BlueFerry.Text.Json

/-! # JSON values and what they take

`json.dumps` of a value, with `ensure_ascii=False` and the separators `","` and `":"`, and the bytes
that its text takes in UTF-8. A list takes its items, a comma between two of them and its brackets
(`jsonSize_list`), and a dictionary in which one value changes takes as much more or less as that
value does (`jsonSize_set`).
-/

namespace BlueFerry.Text

/-- What `json.dumps` takes. Strings are of whole characters. -/
inductive Json where
  | null
  | bool (b : Bool)
  | int (n : Int)
  /-- a float, as `float.__repr__` writes it -/
  | float (repr : Str)
  | str (s : Str)
  | list (items : List Json)
  | object (items : List (Str × Json))

mutual

/-- `json.dumps` -/
def Json.dumps : Json → Str
  | .null => "null".toList
  | .bool b => dumpsBool b
  | .int n => dumpsInt n
  | .float repr => repr
  | .str s => dumpsPlain s
  | .list items => dumpsList id (dumpsItems items)
  | .object items => dumpsObject (dumpsFields items)

/-- The texts of the items of a list. -/
def dumpsItems : List Json → List Str
  | [] => []
  | item :: items => item.dumps :: dumpsItems items

/-- The keys and the texts of the values of a dictionary. -/
def dumpsFields : List (Str × Json) → List (Str × Str)
  | [] => []
  | (key, value) :: items => (key, value.dumps) :: dumpsFields items

end

/-- `bool(value)` -/
def Json.truthy : Json → Bool
  | .null => false
  | .bool b => b
  | .int n => decide (n ≠ 0)
  | .float repr => decide (repr ≠ "0.0".toList ∧ repr ≠ "-0.0".toList)
  | .str s => !s.isEmpty
  | .list items => !items.isEmpty
  | .object items => !items.isEmpty

/-- `len(json.dumps(value).encode("utf-8"))` -/
def jsonSize (value : Json) : Nat := utf8Size value.dumps

theorem utf8Size_append (s t : Str) : utf8Size (s ++ t) = utf8Size s + utf8Size t := by
  unfold utf8Size
  rw [List.map_append, List.sum_append]

theorem utf8Size_cons (c : Char) (s : Str) : utf8Size (c :: s) = c.utf8Size + utf8Size s := rfl

/-! ## Lists -/

/-- The bytes of the values of a list, without what separates them. -/
def jsonSizes (items : List Json) : Nat := (items.map jsonSize).sum

theorem dumpsItems_eq (items : List Json) : dumpsItems items = items.map Json.dumps := by
  induction items with
  | nil => rfl
  | cons item items ih => rw [dumpsItems, ih, List.map_cons]

theorem utf8Size_dumpsTail (texts : List Str) :
    utf8Size (dumpsTail id texts) = (texts.map utf8Size).sum + texts.length + 1 := by
  unfold dumpsTail
  induction texts with
  | nil => rfl
  | cons text texts ih =>
    have hcomma : (',' : Char).utf8Size = 1 := rfl
    rw [List.flatMap_cons, List.append_assoc, utf8Size_append, ih, id_eq, utf8Size_cons, hcomma,
      List.map_cons, List.sum_cons, List.length_cons]
    omega

/-- A list takes its items, the commas and two brackets. -/
theorem jsonSize_list (items : List Json) :
    jsonSize (.list items) = 2 + jsonSizes items + (items.length - 1) := by
  unfold jsonSize jsonSizes
  rw [Json.dumps, dumpsItems_eq]
  cases items with
  | nil => rfl
  | cons item items =>
    have hbracket : ('[' : Char).utf8Size = 1 := rfl
    have hsizes : (items.map Json.dumps).map utf8Size = items.map jsonSize := List.map_map
    rw [List.map_cons, dumpsList, utf8Size_cons, utf8Size_append, utf8Size_dumpsTail, hbracket, hsizes,
      List.length_map, id_eq, List.map_cons, List.sum_cons, List.length_cons]
    show 1 + (jsonSize item + _) = _
    omega

theorem jsonSizes_append (items more : List Json) :
    jsonSizes (items ++ more) = jsonSizes items + jsonSizes more := by
  unfold jsonSizes
  rw [List.map_append, List.sum_append]

theorem jsonSizes_perm {items items' : List Json} (h : items.Perm items') :
    jsonSizes items = jsonSizes items' := (h.map jsonSize).sum_eq

/-! ## Dictionaries -/

/-- The bytes of the entries of a dictionary, without what separates them. -/
def fieldSizes (items : List (Str × Json)) : Nat :=
  (items.map (fun e => utf8Size (dumpsPlain e.1) + 1 + jsonSize e.2)).sum

theorem dumpsFields_eq (items : List (Str × Json)) :
    dumpsFields items = items.map (fun e => (e.1, e.2.dumps)) := by
  induction items with
  | nil => rfl
  | cons e items ih => rw [dumpsFields, ih, List.map_cons]

theorem utf8Size_intersperse (texts : List Str) :
    utf8Size ((texts.intersperse [',']).flatten) = (texts.map utf8Size).sum + (texts.length - 1) := by
  induction texts with
  | nil => rfl
  | cons text texts ih =>
    cases texts with
    | nil =>
      rw [List.intersperse_singleton, List.flatten_cons, List.flatten_nil, List.append_nil]
      rfl
    | cons text' texts =>
      have hcomma : utf8Size [','] = 1 := rfl
      rw [List.intersperse_cons_cons, List.flatten_cons, List.flatten_cons, utf8Size_append,
        utf8Size_append, ih, hcomma]
      simp only [List.map_cons, List.sum_cons, List.length_cons]
      omega

theorem jsonSize_object (items : List (Str × Json)) :
    jsonSize (.object items) = 2 + fieldSizes items + (items.length - 1) := by
  unfold jsonSize fieldSizes
  have hopen : ('\x7b' : Char).utf8Size = 1 := rfl
  have hclose : utf8Size ['\x7d'] = 1 := rfl
  have hsizes : ((items.map (fun e => (e.1, e.2.dumps))).map
      (fun e => dumpsPlain e.1 ++ ':' :: e.2)).map utf8Size =
        items.map (fun e => utf8Size (dumpsPlain e.1) + 1 + jsonSize e.2) := by
    rw [List.map_map, List.map_map]
    apply List.map_congr_left
    intro e _
    have hcolon : (':' : Char).utf8Size = 1 := rfl
    show utf8Size (dumpsPlain e.1 ++ ':' :: e.2.dumps) = _
    rw [utf8Size_append, utf8Size_cons, hcolon]
    unfold jsonSize
    omega
  rw [Json.dumps, dumpsFields_eq]
  unfold dumpsObject
  rw [List.cons_append, utf8Size_cons, utf8Size_append, utf8Size_intersperse, hopen, hclose, hsizes,
    List.length_map, List.length_map]
  omega

/-- The value under one key is another one. -/
theorem fieldSizes_replace {items : List (Str × Json)} (hnodup : (items.map Prod.fst).Nodup)
    {key : Str} {old : Json} (hmem : (key, old) ∈ items) (value : Json) :
    fieldSizes (items.map (fun e => if e.1 = key then (key, value) else e)) + jsonSize old =
      fieldSizes items + jsonSize value := by
  unfold fieldSizes
  induction items with
  | nil => exact absurd hmem List.not_mem_nil
  | cons e items ih =>
    obtain ⟨hfresh, hnodup⟩ := List.nodup_cons.mp hnodup
    rw [List.map_cons, List.map_cons, List.map_cons, List.sum_cons, List.sum_cons]
    rcases List.mem_cons.mp hmem with rfl | hmem
    · -- the key does not come again
      have hrest : items.map (fun e => if e.1 = key then (key, value) else e) = items := by
        refine (List.map_congr_left (fun e he => ?_)).trans (List.map_id items)
        rw [if_neg]
        · rfl
        · rintro rfl
          exact hfresh (List.mem_map.mpr ⟨e, he, rfl⟩)
      rw [hrest, if_pos rfl]
      dsimp only
      omega
    have hne : e.1 ≠ key := by
      rintro rfl
      exact hfresh (List.mem_map.mpr ⟨_, hmem, rfl⟩)
    have := ih hnodup hmem
    rw [if_neg hne]
    omega

/-- **A dictionary in which one value changes.** -/
theorem jsonSize_set {d : Dict Str Json} {key : Str} {old : Json} (h : d.get? key = some old)
    (value : Json) :
    jsonSize (.object (d.set key value).items) + jsonSize old =
      jsonSize (.object d.items) + jsonSize value := by
  have hmem := Dict.mem_items_iff.mpr h
  have hkey : key ∈ d.items.map Prod.fst := List.mem_map.mpr ⟨_, hmem, rfl⟩
  have hset : (d.set key value).items =
      d.items.map (fun e => if e.1 = key then (key, value) else e) := if_pos hkey
  have hsizes := fieldSizes_replace d.nodup hmem value
  rw [jsonSize_object, jsonSize_object, hset, List.length_map]
  omega

end BlueFerry.Text
