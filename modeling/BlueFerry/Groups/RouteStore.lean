import BlueFerry.Groups.Names
import BlueFerry.Text.JsonValue

/-! # The saved rosters

`GroupRoutesStore` (`group_routes.py`) with the preference it is kept in (`PrivatePreference`,
`SettingsStore.update`, `atomic_write_private_text`): one roster for each group key, `MAX_GROUP_ROUTES`
at most. A call reads what is saved, works on a copy, and writes the copy as a whole, so that what is
held afterwards is the copy (`mapping_toJson`) or what was held before.

A call that raises changes nothing, unless the new file has replaced the old one already and only the
directory could not be synced.
-/

namespace BlueFerry.GroupRoutes

open BlueFerry.Text
open BlueFerry.Groups (Library isLegacyUnnamedGroupKey storedNamedGroupKey sortedBy)

/-! ## Records -/

/-- `MAX_GROUP_ROUTES` -/
def maxGroupRoutes : Nat := 200

/-- `MAX_THREAD_KEY_CHARS` -/
def maxThreadKeyChars : Nat := 1024

/-- `_MAX_TEXT_CHARS` -/
def maxTextChars : Nat := 1024

/-- `_MAX_RECIPIENTS` -/
def maxRecipients : Nat := 20

/-- `str(value)`; `repr` writes what is no string. -/
def strOf (repr : Json → Str) : Json → Str
  | .str s => s
  | value => repr value

/-- `_text` -/
def text (repr : Json → Str) (value : Option Json) : Str :=
  let s := strip (match value with
    | some value => if value.truthy then strOf repr value else []
    | none => [])
  if s.length ≤ maxTextChars then s else []

/-- `_strings` -/
def strings (repr : Json → Str) : Option Json → Option (List Str)
  | some (.list items) =>
    if maxRecipients < items.length then none
    else
      let texts := items.map (fun item => text repr (some item))
      if texts.all (fun s => !s.isEmpty) then some texts else none
  | _ => none

/-- A record of the store. -/
structure Route where
  groupKey : Str
  groupName : Str
  groupMembers : List Str
  groupRecipients : List Str
  seenAt : Str
  /-- `group_roster_warning_id` and `group_unexpected_sender`, which come together -/
  warning : Option (Str × Str)
  deriving DecidableEq

/-- `value.get("group_members") or []` -/
def orEmpty : Option Json → Option Json
  | some value => if value.truthy then some value else some (.list [])
  | none => some (.list [])

/-- `_route` -/
def route (repr : Json → Str) : Json → Option Route
  | .object items =>
    let get := fun key : String => items.lookup key.toList
    let key := text repr (get "group_key")
    let name := text repr (get "group_name")
    let members := strings repr (orEmpty (get "group_members"))
    match strings repr (get "group_recipients") with
    | none => none
    | some recipients =>
      if key = [] ∨ maxThreadKeyChars < key.length ∨ name = [] ∨ recipients = [] then none
      else if isLegacyUnnamedGroupKey key then none
      else
        let warningId := text repr (get "group_roster_warning_id")
        some {
          groupKey := key
          groupName := name
          groupMembers := members.getD []
          groupRecipients := recipients
          seenAt := text repr (get "seen_at")
          warning :=
            if warningId = [] then none
            else some (warningId, text repr (get "group_unexpected_sender")) }
  | _ => none

/-- The record as it is saved. -/
def Route.toJson (r : Route) : Json :=
  .object ([("kind".toList, .str "group_route".toList),
    ("group_key".toList, .str r.groupKey),
    ("group_name".toList, .str r.groupName),
    ("group_members".toList, .list (r.groupMembers.map .str)),
    ("group_recipients".toList, .list (r.groupRecipients.map .str)),
    ("seen_at".toList, .str r.seenAt)] ++
    match r.warning with
    | some (id, sender) => [("group_roster_warning_id".toList, .str id),
        ("group_unexpected_sender".toList, .str sender)]
    | none => [])

/-- `_belongs` -/
def belongs (lib : Library) (r : Route) (threadKeys : List Str) : Bool :=
  decide (r.groupKey ∈ threadKeys) ||
    decide (storedNamedGroupKey lib
      { kind := .groupRoute, groupKey := r.groupKey, groupName := r.groupName } ∈ threadKeys)

/-! ## What is held -/

/-- The loop of `_mapping`. -/
def collect (repr : Json → Str) (selected : Dict Str Route) : List Json → Dict Str Route
  | [] => selected
  | value :: values =>
    match route repr value with
    | none => collect repr selected values
    | some r =>
      if r.groupKey ∈ selected.keys then collect repr selected values
      else if maxGroupRoutes ≤ (selected.set r.groupKey r).items.length then
        selected.set r.groupKey r
      else collect repr (selected.set r.groupKey r) values

/-- `_mapping`, of what is saved -/
def mapping (repr : Json → Str) : Json → Dict Str Route
  | .object items => collect repr Dict.empty (items.map Prod.snd)
  | _ => Dict.empty

/-- The dictionary as it is saved. -/
def toJson (routes : Dict Str Route) : Json :=
  .object (routes.items.map (fun e => (e.1, e.2.toJson)))

/-! ## The preference -/

inductive Problem where
  | invalidRoute
  /-- "at most 200 group rosters can be saved" -/
  | full
  /-- the storage policy, the settings file or the file system -/
  | unsaved
  deriving DecidableEq

/-- What becomes of a write. -/
inductive Write where
  | done
  /-- it fails before the new file is in place -/
  | refused
  /-- the new file has replaced the old one, and then the directory cannot be synced -/
  | unsynced
  deriving DecidableEq

/-- What is saved under the key, `null` where nothing is. -/
structure Saved where
  /-- the settings document can be read, and the policy gives access to its records -/
  readable : Bool
  value : Json

/-- `PrivatePreference.read` -/
def Saved.read (s : Saved) : Json := if s.readable then s.value else .null

/-- `PrivatePreference.write` -/
def Saved.write (s : Saved) (value : Json) (write : Write) : Except Problem Unit × Saved :=
  if s.readable then
    match write with
    | .done => (.ok (), { s with value })
    | .refused => (.error .unsaved, s)
    | .unsynced => (.error .unsaved, { s with value })
  else (.error .unsaved, s)

/-- The rosters that are held. -/
def Saved.routes (repr : Json → Str) (s : Saved) : Dict Str Route := mapping repr s.read

/-! ## `save` -/

/-- The records under these keys are dropped. -/
def dropAll (routes : Dict Str Route) (keys : List Str) : Dict Str Route := keys.foldl Dict.erase routes

/-- A full store makes room, at the cost of the oldest rosters that are not in use. -/
def makeRoom (lib : Library) (inUse : Option (List Str)) (routes : Dict Str Route) :
    Dict Str Route :=
  match inUse with
  | some kept =>
    if maxGroupRoutes ≤ routes.items.length then
      let orphans := sortedBy Route.seenAt
        ((routes.items.map Prod.snd).filter (fun r => !belongs lib r kept))
      dropAll routes ((orphans.take (routes.items.length - maxGroupRoutes + 1)).map Route.groupKey)
    else routes
  | none => routes

/-- What `save` writes. -/
def planSave (lib : Library) (repr : Json → Str) (held : Dict Str Route) (value : Json)
    (replacing : List Str) (inUse : Option (List Str)) : Except Problem (Dict Str Route) :=
  match route repr value with
  | none => .error .invalidRoute
  | some selected =>
    let current := makeRoom lib inUse (dropAll held (replacing ++ [selected.groupKey]))
    if maxGroupRoutes ≤ current.items.length then .error .full
    else .ok (current.set selected.groupKey selected)

/-- `save` -/
def save (lib : Library) (repr : Json → Str) (s : Saved) (value : Json) (replacing : List Str)
    (inUse : Option (List Str)) (write : Write) : Except Problem Unit × Saved :=
  match planSave lib repr (s.routes repr) value replacing inUse with
  | .error e => (.error e, s)
  | .ok current => s.write (toJson current) write

/-! ## `add_missing` -/

/-- The records for keys that are not held; of one key, the last. -/
def missing (repr : Json → Str) (held : Dict Str Route) (values : List Json) : Dict Str Route :=
  values.foldl (fun legacy value =>
    match route repr value with
    | some r => if r.groupKey ∈ held.keys then legacy else legacy.set r.groupKey r
    | none => legacy) Dict.empty

/-- The loop over them, with the number that were added. -/
def addAll (current : Dict Str Route) (added : Nat) : List (Str × Route) → Dict Str Route × Nat
  | [] => (current, added)
  | (key, r) :: legacy =>
    if maxGroupRoutes ≤ current.items.length then (current, added)
    else addAll (current.set key r) (added + 1) legacy

/-- `add_missing` -/
def addMissing (repr : Json → Str) (s : Saved) (values : List Json) (write : Write) :
    Except Problem Nat × Saved :=
  let plan := addAll (s.routes repr) 0 (missing repr (s.routes repr) values).items
  if plan.2 = 0 then (.ok 0, s)
  else
    match s.write (toJson plan.1) write with
    | (.ok (), s) => (.ok plan.2, s)
    | (.error e, s) => (.error e, s)

/-! ## A record that was saved reads back as it was -/

section Records

variable {repr : Json → Str}

/-- The strings `_text` gives. -/
def IsText (s : Str) : Prop := strip s = s ∧ s.length ≤ maxTextChars

theorem isText_text (value : Option Json) : IsText (text repr value) := by
  unfold text
  generalize (match value with
    | some value => if value.truthy then strOf repr value else []
    | none => []) = s
  by_cases h : (strip s).length ≤ maxTextChars
  · rw [if_pos h]
    exact ⟨stripOf_stripOf isSpace s, h⟩
  rw [if_neg h]
  exact ⟨rfl, Nat.zero_le _⟩

theorem text_str {s : Str} (h : IsText s) : text repr (some (.str s)) = s := by
  have hstr : (if (Json.str s).truthy then strOf repr (.str s) else []) = s := by
    cases s with
    | nil => rfl
    | cons c s => rfl
  unfold text
  dsimp only
  rw [hstr, h.1, if_pos h.2]

/-- The lists `_strings` gives. -/
def AreTexts (texts : List Str) : Prop :=
  texts.length ≤ maxRecipients ∧ ∀ s ∈ texts, IsText s ∧ s ≠ []

theorem areTexts_strings {value : Option Json} {texts : List Str}
    (h : strings repr value = some texts) : AreTexts texts := by
  unfold strings at h
  split at h
  · rename_i items
    by_cases hlong : maxRecipients < items.length
    · rw [if_pos hlong] at h
      nomatch h
    rw [if_neg hlong] at h
    by_cases hall : (items.map (fun item => text repr (some item))).all (fun s => !s.isEmpty) = true
    · rw [if_pos hall] at h
      have heq := Option.some.inj h
      subst heq
      constructor
      · rw [List.length_map]
        omega
      intro s hs
      obtain ⟨item, -, rfl⟩ := List.mem_map.mp hs
      have hne := List.all_eq_true.mp hall _ hs
      exact ⟨isText_text _, by simpa using hne⟩
    · rw [if_neg hall] at h
      nomatch h
  · nomatch h

theorem strings_list {texts : List Str} (h : AreTexts texts) :
    strings repr (some (.list (texts.map .str))) = some texts := by
  have hmap : (texts.map Json.str).map (fun item => text repr (some item)) = texts := by
    rw [List.map_map]
    calc texts.map ((fun item => text repr (some item)) ∘ Json.str)
        = texts.map id := List.map_congr_left (fun s hs => text_str (h.2 s hs).1)
      _ = texts := List.map_id _
  have hall : texts.all (fun s => !s.isEmpty) = true := by
    rw [List.all_eq_true]
    intro s hs
    simpa using (h.2 s hs).2
  unfold strings
  dsimp only
  rw [List.length_map, if_neg (by have := h.1; omega), hmap, if_pos hall]

theorem orEmpty_list (items : List Json) : orEmpty (some (.list items)) = some (.list items) := by
  cases items with
  | nil => rfl
  | cons item items => rfl

/-- The records `_route` gives. -/
structure Route.Checked (r : Route) : Prop where
  groupKey : IsText r.groupKey ∧ r.groupKey ≠ []
  known : isLegacyUnnamedGroupKey r.groupKey = false
  groupName : IsText r.groupName ∧ r.groupName ≠ []
  groupMembers : AreTexts r.groupMembers
  groupRecipients : AreTexts r.groupRecipients ∧ r.groupRecipients ≠ []
  seenAt : IsText r.seenAt
  warning : ∀ id sender, r.warning = some (id, sender) → (IsText id ∧ id ≠ []) ∧ IsText sender

theorem checked_route {value : Json} {r : Route} (h : route repr value = some r) : r.Checked := by
  cases value with
  | object items =>
    rw [route] at h
    split at h
    · nomatch h
    rename_i recipients hrecipients
    split at h
    · nomatch h
    rename_i hfields
    simp only [not_or] at hfields
    obtain ⟨hkey, -, hname, hsome⟩ := hfields
    split at h
    · nomatch h
    rename_i hlegacy
    have heq := Option.some.inj h
    subst heq
    refine ⟨⟨isText_text _, hkey⟩, by simpa using hlegacy, ⟨isText_text _, hname⟩, ?_,
      ⟨areTexts_strings hrecipients, hsome⟩, isText_text _, ?_⟩
    · cases hmembers : strings repr (orEmpty (items.lookup "group_members".toList)) with
      | none => exact ⟨Nat.zero_le _, fun s hs => nomatch hs⟩
      | some members => exact areTexts_strings hmembers
    intro id sender hw
    split at hw
    · nomatch hw
    rename_i hid
    obtain ⟨rfl, rfl⟩ := Prod.mk.inj (Option.some.inj hw)
    exact ⟨⟨isText_text _, hid⟩, isText_text _⟩
  | _ => nomatch h

/-- The fields of a saved record, as `_route` looks them up. -/
theorem lookup_toJson (r : Route) :
    ∃ items, r.toJson = .object items ∧
      items.lookup "group_key".toList = some (.str r.groupKey) ∧
      items.lookup "group_name".toList = some (.str r.groupName) ∧
      items.lookup "group_members".toList = some (.list (r.groupMembers.map .str)) ∧
      items.lookup "group_recipients".toList = some (.list (r.groupRecipients.map .str)) ∧
      items.lookup "seen_at".toList = some (.str r.seenAt) ∧
      items.lookup "group_roster_warning_id".toList = r.warning.map (fun w => .str w.1) ∧
      items.lookup "group_unexpected_sender".toList = r.warning.map (fun w => .str w.2) := by
  refine ⟨_, rfl, rfl, rfl, rfl, rfl, rfl, ?_⟩
  cases r.warning with
  | none | some w => exact ⟨rfl, rfl⟩

/-- **A checked record is read as it was written.** -/
theorem route_toJson {r : Route} (h : r.Checked) : route repr r.toJson = some r := by
  obtain ⟨items, hjson, hkey, hname, hmembers, hrecipients, hseen, hid, hsender⟩ := lookup_toJson r
  have hlen : ¬ maxThreadKeyChars < r.groupKey.length := not_lt.mpr h.groupKey.1.2
  rw [hjson, route]
  simp only [hkey, hname, hmembers, hrecipients, hseen, hid, hsender, orEmpty_list,
    text_str h.groupKey.1, text_str h.groupName.1, strings_list h.groupMembers,
    strings_list h.groupRecipients.1, text_str h.seenAt]
  rw [if_neg (by simp [h.groupKey.2, hlen, h.groupName.2, h.groupRecipients.2]), h.known]
  have hwarning : (if text repr (r.warning.map (fun w => .str w.1)) = [] then none
      else some (text repr (r.warning.map (fun w => .str w.1)),
        text repr (r.warning.map (fun w => .str w.2)))) = r.warning := by
    cases hw : r.warning with
    | none => rfl
    | some w =>
      obtain ⟨⟨hid, hne⟩, hsender⟩ := h.warning w.1 w.2 hw
      rw [Option.map_some, Option.map_some, text_str hid, text_str hsender, if_neg hne]
  rw [if_neg Bool.false_ne_true, hwarning]
  rfl

end Records

/-! ## What is held reads back as it was -/

variable {routes : Dict Str Route}

section Held

variable {lib : Library} {repr : Json → Str}

/-- What the store may hold: checked records, each under its key, `MAX_GROUP_ROUTES` at most. -/
structure Held (routes : Dict Str Route) : Prop where
  checked : ∀ e ∈ routes.items, e.2.groupKey = e.1 ∧ e.2.Checked
  few : routes.items.length ≤ maxGroupRoutes

theorem items_set_new {key : Str} (r : Route) (h : key ∉ routes.keys) :
    (routes.set key r).items = routes.items ++ [(key, r)] := if_neg h

theorem length_set_le (routes : Dict Str Route) (key : Str) (r : Route) :
    (routes.set key r).items.length ≤ routes.items.length + 1 := by
  by_cases h : key ∈ routes.keys
  · have hset : (routes.set key r).items =
        routes.items.map (fun e => if e.1 = key then (key, r) else e) := if_pos h
    rw [hset, List.length_map]
    omega
  · rw [items_set_new r h, List.length_append]
    simp

theorem held_set {r : Route} (h : Held routes) (hr : r.Checked)
    (hroom : routes.items.length < maxGroupRoutes) : Held (routes.set r.groupKey r) := by
  constructor
  · intro e he
    have hget := Dict.mem_items_iff.mp (show (e.1, e.2) ∈ (routes.set r.groupKey r).items from he)
    rw [Dict.get?_set] at hget
    by_cases hkey : e.1 = r.groupKey
    · rw [if_pos hkey] at hget
      rw [← Option.some.inj hget]
      exact ⟨hkey.symm, hr⟩
    · rw [if_neg hkey] at hget
      exact h.checked e (Dict.mem_items_iff.mpr hget)
  · have hle := length_set_le routes r.groupKey r
    omega

theorem held_collect (values : List Json) {selected : Dict Str Route} (h : Held selected)
    (hroom : selected.items.length < maxGroupRoutes) : Held (collect repr selected values) := by
  induction values generalizing selected with
  | nil => exact h
  | cons value values ih =>
    rw [collect]
    split
    · exact ih h hroom
    rename_i r hr
    by_cases hkey : r.groupKey ∈ selected.keys
    · rw [if_pos hkey]
      exact ih h hroom
    rw [if_neg hkey]
    have hset := held_set h (checked_route hr) hroom
    by_cases hfull : maxGroupRoutes ≤ (selected.set r.groupKey r).items.length
    · rw [if_pos hfull]
      exact hset
    rw [if_neg hfull]
    exact ih hset (not_le.mp hfull)

theorem held_empty : Held Dict.empty := ⟨fun _ he => absurd he List.not_mem_nil, Nat.zero_le _⟩

/-- Whatever is saved, what is read from it is of this form. -/
theorem held_mapping (saved : Json) : Held (mapping repr saved) := by
  cases saved with
  | object items => exact held_collect _ held_empty (by decide)
  | _ => exact held_empty

theorem held_routes (s : Saved) : Held (s.routes repr) := held_mapping s.read

/-- Reading the rest of what was written, from the records before it on. -/
theorem collect_written (h : Held routes) (rest : List (Str × Route)) :
    ∀ selected : Dict Str Route, routes.items = selected.items ++ rest →
      collect repr selected (rest.map (fun e => e.2.toJson)) = routes := by
  induction rest with
  | nil =>
    intro selected heq
    obtain ⟨items, hnodup⟩ := selected
    obtain ⟨items', hnodup'⟩ := routes
    rw [List.append_nil] at heq
    subst heq
    rfl
  | cons e rest ih =>
    intro selected heq
    obtain ⟨hkey, hchecked⟩ := h.checked e (heq ▸ List.mem_append_right _ (.head _))
    have hnew : e.2.groupKey ∉ selected.keys := by
      have hnodup := routes.nodup
      rw [heq, List.map_append, List.map_cons] at hnodup
      intro hmem
      exact (List.nodup_append.mp hnodup).2.2 _ hmem _ (.head _) hkey
    have hset : routes.items = (selected.set e.2.groupKey e.2).items ++ rest := by
      rw [items_set_new e.2 hnew, hkey, heq, List.append_assoc]
      rfl
    rw [List.map_cons, collect, route_toJson hchecked]
    dsimp only
    rw [if_neg hnew]
    by_cases hfull : maxGroupRoutes ≤ (selected.set e.2.groupKey e.2).items.length
    · -- the limit is reached by the last one
      rw [if_pos hfull]
      have hlen := congrArg List.length hset
      rw [List.length_append] at hlen
      have hfew := h.few
      have hrest : rest = [] := List.length_eq_zero_iff.mp (by omega)
      subst hrest
      exact ih _ hset
    · rw [if_neg hfull]
      exact ih _ hset

/-- **What is written reads back as it was.** -/
theorem mapping_toJson (h : Held routes) : mapping repr (toJson routes) = routes := by
  have hvalues : (routes.items.map (fun e => (e.1, e.2.toJson))).map Prod.snd =
      routes.items.map (fun e => e.2.toJson) := by
    rw [List.map_map]
    rfl
  show collect repr Dict.empty ((routes.items.map (fun e => (e.1, e.2.toJson))).map Prod.snd) = routes
  rw [hvalues]
  exact collect_written h routes.items Dict.empty rfl

variable (repr) in
/-- What a write leaves: what was saved, or what was to be written. -/
theorem write_cases (s : Saved) (h : Held routes) (write : Write) :
    ((s.write (toJson routes) write).1 = .ok () ∧
      (s.write (toJson routes) write).2.routes repr = routes) ∨
    (∃ e, (s.write (toJson routes) write).1 = .error e ∧
      ((s.write (toJson routes) write).2 = s ∨
        (write = .unsynced ∧ (s.write (toJson routes) write).2.routes repr = routes))) := by
  unfold Saved.write Saved.routes Saved.read
  cases hreadable : s.readable with
  | false => exact .inr ⟨_, rfl, .inl rfl⟩
  | true =>
    rw [if_pos rfl]
    cases write with
    | done =>
      left
      rw [if_pos rfl]
      exact ⟨rfl, mapping_toJson h⟩
    | refused => exact .inr ⟨_, rfl, .inl rfl⟩
    | unsynced =>
      right
      rw [if_pos rfl]
      exact ⟨_, rfl, .inr ⟨rfl, mapping_toJson h⟩⟩

end Held

/-! ## Saving -/

section Saving

variable {lib : Library} {repr : Json → Str}

theorem get?_dropAll (keys : List Str) (routes : Dict Str Route) (key : Str) :
    (dropAll routes keys).get? key = if key ∈ keys then none else routes.get? key := by
  induction keys generalizing routes with
  | nil => simp [dropAll]
  | cons first keys ih =>
    show (dropAll (routes.erase first) keys).get? key = _
    rw [ih, Dict.get?_erase]
    by_cases hkeys : key ∈ keys
    · rw [if_pos hkeys, if_pos (.tail _ hkeys)]
    rw [if_neg hkeys]
    by_cases hfirst : key = first
    · rw [if_pos hfirst, if_pos (hfirst ▸ List.mem_cons_self)]
    · rw [if_neg hfirst, if_neg (by simp [hfirst, hkeys])]

theorem held_dropAll (keys : List Str) (h : Held routes) : Held (dropAll routes keys) := by
  induction keys generalizing routes with
  | nil => exact h
  | cons first keys ih =>
    apply ih
    exact ⟨fun e he => h.checked e (List.mem_of_mem_filter he),
      le_trans (List.length_filter_le _ _) h.few⟩

theorem held_makeRoom (lib : Library) (inUse : Option (List Str)) (h : Held routes) :
    Held (makeRoom lib inUse routes) := by
  cases inUse with
  | none => exact h
  | some kept =>
    rw [makeRoom]
    split_ifs with hfull
    · exact held_dropAll _ h
    · exact h

/-- Only rosters that are not in use make room. -/
theorem get?_makeRoom {inUse : Option (List Str)} (h : Held routes) {key : Str} {r : Route}
    (hget : routes.get? key = some r)
    (huse : ∀ kept, inUse = some kept → belongs lib r kept = true) :
    (makeRoom lib inUse routes).get? key = some r := by
  cases inUse with
  | none => exact hget
  | some kept =>
    rw [makeRoom]
    by_cases hfull : maxGroupRoutes ≤ routes.items.length
    · rw [if_pos hfull, get?_dropAll, if_neg ?_]
      · exact hget
      · intro hmem
        obtain ⟨orphan, horphan, hkey⟩ := List.mem_map.mp hmem
        have hstored := List.mem_filter.mp (Groups.mem_sortedBy.mp (List.mem_of_mem_take horphan))
        obtain ⟨e, he, heq⟩ := List.mem_map.mp hstored.1
        have hown : e.1 = key := by rw [← (h.checked e he).1, heq, hkey]
        -- the orphan is the roster that is held under the key
        have hsame : routes.get? key = some orphan := by
          rw [← hown, ← heq]
          exact Dict.mem_items_iff.mp he
        have hr : orphan = r := Option.some.inj (hsame.symm.trans hget)
        have hnot := hstored.2
        rw [hr, huse kept rfl] at hnot
        nomatch hnot
    · rw [if_neg hfull]
      exact hget

/-- What `save` writes holds the saved roster, and every other one that the call does not name and
that is in use. -/
theorem planSave_spec {held current : Dict Str Route} {value : Json} {replacing : List Str}
    {inUse : Option (List Str)} (h : Held held)
    (hplan : planSave lib repr held value replacing inUse = .ok current) :
    ∃ selected, route repr value = some selected ∧ Held current ∧
      current.get? selected.groupKey = some selected ∧
      ∀ key r, held.get? key = some r → key ∉ replacing → key ≠ selected.groupKey →
        (∀ kept, inUse = some kept → belongs lib r kept = true) → current.get? key = some r := by
  unfold planSave at hplan
  split at hplan
  · nomatch hplan
  rename_i selected hselected
  have hdrop := held_dropAll (replacing ++ [selected.groupKey]) h
  have hroom := held_makeRoom lib inUse hdrop
  generalize hleft : makeRoom lib inUse (dropAll held (replacing ++ [selected.groupKey])) = left'
    at hplan hroom
  by_cases hfull : maxGroupRoutes ≤ left'.items.length
  · rw [if_pos hfull] at hplan
    nomatch hplan
  rw [if_neg hfull] at hplan
  have heq := Except.ok.inj hplan
  subst heq
  refine ⟨selected, hselected, held_set hroom (checked_route hselected) (not_le.mp hfull), ?_, ?_⟩
  · rw [Dict.get?_set, if_pos rfl]
  intro key r hget hnot hne huse
  rw [Dict.get?_set, if_neg hne, ← hleft]
  apply get?_makeRoom hdrop _ huse
  rw [get?_dropAll, if_neg (by simp [hnot, hne]), hget]

end Saving

/-! ## Adding -/

section Adding

variable {repr : Json → Str}

theorem held_missing_aux {held : Dict Str Route} (values : List Json) {legacy : Dict Str Route}
    (h : ∀ e ∈ legacy.items, e.1 ∉ held.keys ∧ e.2.groupKey = e.1 ∧ e.2.Checked) :
    ∀ e ∈ (values.foldl (fun legacy value =>
      match route repr value with
      | some r => if r.groupKey ∈ held.keys then legacy else legacy.set r.groupKey r
      | none => legacy) legacy).items, e.1 ∉ held.keys ∧ e.2.groupKey = e.1 ∧ e.2.Checked := by
  induction values generalizing legacy with
  | nil => exact h
  | cons value values ih =>
    rw [List.foldl_cons]
    apply ih
    cases hr : route repr value with
    | none => exact h
    | some r =>
      dsimp only
      by_cases hheld : r.groupKey ∈ held.keys
      · rw [if_pos hheld]
        exact h
      rw [if_neg hheld]
      intro e he
      have hget := Dict.mem_items_iff.mp (show (e.1, e.2) ∈ (legacy.set r.groupKey r).items from he)
      rw [Dict.get?_set] at hget
      by_cases hkey : e.1 = r.groupKey
      · rw [if_pos hkey] at hget
        rw [← Option.some.inj hget, hkey]
        exact ⟨hheld, rfl, checked_route hr⟩
      · rw [if_neg hkey] at hget
        exact h e (Dict.mem_items_iff.mpr hget)

/-- What is missing: checked records, each under its key, none of which is held. -/
theorem held_missing (held : Dict Str Route) (values : List Json) :
    ∀ e ∈ (missing repr held values).items,
      e.1 ∉ held.keys ∧ e.2.groupKey = e.1 ∧ e.2.Checked :=
  held_missing_aux values (fun _ he => absurd he List.not_mem_nil)

/-- Adding keeps what is held, and counts what it adds. -/
theorem addAll_spec (legacy : List (Str × Route)) :
    ∀ (current : Dict Str Route) (added : Nat), Held current → (legacy.map Prod.fst).Nodup →
      (∀ e ∈ legacy, e.1 ∉ current.keys ∧ e.2.groupKey = e.1 ∧ e.2.Checked) →
      Held (addAll current added legacy).1 ∧
      (addAll current added legacy).1.items.length + added =
        current.items.length + (addAll current added legacy).2 ∧
      ∀ key r, current.get? key = some r → (addAll current added legacy).1.get? key = some r := by
  induction legacy with
  | nil => exact fun current added h _ _ => ⟨h, rfl, fun _ _ hget => hget⟩
  | cons e legacy ih =>
    intro current added h hnodup hnew
    obtain ⟨key, r⟩ := e
    rw [List.map_cons, List.nodup_cons] at hnodup
    obtain ⟨hfresh, hown, hchecked⟩ := hnew _ (.head _)
    dsimp only at hfresh hown hchecked hnodup
    rw [addAll]
    by_cases hfull : maxGroupRoutes ≤ current.items.length
    · rw [if_pos hfull]
      exact ⟨h, rfl, fun _ _ hget => hget⟩
    rw [if_neg hfull]
    have hset : Held (current.set key r) := by
      rw [← hown]
      exact held_set h hchecked (not_le.mp hfull)
    have hrest : ∀ e ∈ legacy, e.1 ∉ (current.set key r).keys ∧ e.2.groupKey = e.1 ∧
        e.2.Checked := by
      intro e he
      obtain ⟨hnot, hvalue⟩ := hnew e (.tail _ he)
      refine ⟨fun hmem => ?_, hvalue⟩
      rcases Dict.mem_keys_set.mp hmem with heq | hmem
      · exact hnodup.1 (heq ▸ List.mem_map_of_mem he)
      · exact hnot hmem
    obtain ⟨hheld, hcount, hkept⟩ := ih (current.set key r) (added + 1) hset hnodup.2 hrest
    refine ⟨hheld, ?_, fun j r' hget => hkept j r' ?_⟩
    · have hlen : (current.set key r).items.length = current.items.length + 1 := by
        rw [items_set_new r hfresh, List.length_append]
        rfl
      omega
    · rw [Dict.get?_set, if_neg ?_, hget]
      intro heq
      exact hfresh (Dict.mem_keys_iff.mpr ⟨r', heq ▸ hget⟩)

end Adding

/-! ## What a call leaves -/

/-- `MAX_GROUP_ROUTES` rosters at most, no two of them of one key. -/
def WithinLimits (routes : Dict Str Route) : Prop :=
  routes.items.length ≤ maxGroupRoutes ∧
    (routes.items.map (fun e => e.2.groupKey)).Nodup

/-- What a call leaves saved: what was, or the rosters that are then held and nothing else. -/
def Settled (repr : Json → Str) (s s' : Saved) : Prop :=
  s' = s ∨ s'.value = toJson (s'.routes repr)

theorem withinLimits_routes (repr : Json → Str) (s : Saved) : WithinLimits (s.routes repr) := by
  have h : Held (s.routes repr) := held_routes s
  refine ⟨h.few, ?_⟩
  have hkeys : (s.routes repr).items.map (fun e => e.2.groupKey) = (s.routes repr).keys :=
    List.map_congr_left (fun e he => (h.checked e he).1)
  rw [hkeys]
  exact (s.routes repr).nodup

theorem settled_write (repr : Json → Str) (s : Saved) (h : Held routes) (write : Write) :
    Settled repr s (s.write (toJson routes) write).2 := by
  have hvalue : (s.write (toJson routes) write).2 = s ∨
      (s.write (toJson routes) write).2.value = toJson routes := by
    unfold Saved.write
    cases s.readable with
    | false => exact .inl rfl
    | true => cases write with
      | refused => exact .inl rfl
      | done | unsynced => exact .inr rfl
  rcases write_cases repr s h write with ⟨-, heq⟩ | ⟨e, -, hsame | ⟨-, heq⟩⟩
  · rcases hvalue with hsame | hvalue
    · exact .inl hsame
    · exact .inr (hvalue.trans (congrArg toJson heq.symm))
  · exact .inl hsame
  · rcases hvalue with hsame | hvalue
    · exact .inl hsame
    · exact .inr (hvalue.trans (congrArg toJson heq.symm))

/-- A roster for one group of one member. -/
def familyRoute : Route where
  groupKey := "family".toList
  groupName := "Family".toList
  groupMembers := []
  groupRecipients := ["+15550001".toList]
  seenAt := []
  warning := none

end BlueFerry.GroupRoutes
