import BlueFerry.Lib.Machine
import BlueFerry.Lib.Dict
import BlueFerry.Text.Basic

/-! # Disabled plugins

`plugins.json` holds which plugins the user has disabled (`plugin_prefs.py`). The operations of
`PluginManager` read it, put their change into what they have read, and write it again; each is
atomic under the manager's lock. The popup bridge and the clients read it before they let a plugin
through.

The reader turns every failure into an empty document. So disabling is a kill switch as long as
every read tells what is saved (`Tells`); a read that does not is taken for "none is disabled", and
written back (`lost_read_enables`).

Installing and updating do not touch the file. The records of the installed plugins are in another
one; whether `remove` finds its plugin there is part of the input.
-/

namespace BlueFerry.PluginPrefs

open BlueFerry.Text

/-! ## The file -/

/-- A JSON value: of a list, the `str()` of its items. -/
inductive Value where
  | list (items : List Str)
  | other (text : Str)
  deriving DecidableEq

/-- A JSON object. -/
abbrev Document := Dict Str Value

inductive File where
  | absent
  | document (d : Document)
  /-- not a JSON object -/
  | damaged

/-- What a reader meets: the file as it is, or an error of opening or reading it. -/
inductive Reading where
  | seen
  | lost
  deriving DecidableEq

/-- `MAX_SETTINGS_BYTES` -/
def maxSettingsBytes : Nat := 1024 * 1024

section Reader

variable (size : Document → Nat)

/-- `read_json`. `size` is the length of the text of a document; a text that is too long is cut, and
what is left of it is none. -/
def readJson (reading : Reading) (file : File) : Document :=
  match reading, file with
  | .lost, _ => Dict.empty
  | .seen, .absent => Dict.empty
  | .seen, .damaged => Dict.empty
  | .seen, .document d => if size d ≤ maxSettingsBytes then d else Dict.empty

/-- `disabled_from` -/
def disabledFrom (settings : Document) : List Str :=
  match settings.get? "disabled".toList with
  | some (.list items) => items
  | _ => []

/-! ## The manager -/

/-- `sorted` of a set. -/
def sortedIds (ids : List Str) : List Str := ids.dedup.insertionSort (· ≤ ·)

/-- `current.update(values)` -/
def updateWith (current : Document) (values : List (Str × Value)) : Document :=
  values.foldl (fun d e => d.set e.1 e.2) current

/-- The settings that other callers than `set_enabled` change (the indexes of plugins). -/
structure OtherValues where
  values : List (Str × Value)
  not_disabled : "disabled".toList ∉ values.map Prod.fst

/-- `update_settings`: the document it writes. -/
def updateSettings (current : Reading) (values : List (Str × Value)) (file : File) : Document :=
  updateWith (readJson size current file) values

/-- `set_enabled`: the document it writes. It reads the file twice. -/
def setEnabled (pluginId : Str) (enabled : Bool) (before current : Reading) (file : File) :
    Document :=
  let disabled := disabledFrom (readJson size before file)
  let changed := if enabled then disabled.filter (· ≠ pluginId) else pluginId :: disabled
  updateSettings size current [("disabled".toList, .list (sortedIds changed))] file

/-! ## The readers -/

/-- `PluginPopups._candidates`, of the plugins with `notify` -/
def candidates (plugins : List Str) (reading : Reading) (file : File) : List Str :=
  plugins.filter (fun id => !(disabledFrom (readJson size reading file)).contains id)

/-- `_enabled_client` gives a client, and does not raise. -/
def enabledClient (pluginId : Str) (reading : Reading) (file : File) : Bool :=
  !(disabledFrom (readJson size reading file)).contains pluginId

/-! ## Runs -/

/-- What the clients, the popup bridge and the file system do. `saves` says that the write
succeeds; otherwise the operation raises, and the old file stays. -/
inductive Input where
  /-- `prepare` and `commit`, of an install or an update -/
  | install (pluginId : Str)
  | updateSettings (values : OtherValues) (current : Reading) (saves : Bool)
  | setEnabled (pluginId : Str) (enabled : Bool) (before current : Reading) (saves : Bool)
  /-- `found`: the plugin is in the records; `listed`: the reading that looks for it among the
  disabled ones -/
  | remove (pluginId : Str) (found : Bool) (listed before current : Reading) (saves : Bool)
  | popupReads (plugins : List Str) (reading : Reading)
  | clientReads (pluginId : Str) (reading : Reading)
  /-- the file is deleted, or gets other contents -/
  | damage

/-- The file, and the plugins that were disabled and neither enabled nor removed since. -/
structure State where
  file : File := .absent
  off : List Str := []

/-- The document that the operation writes. -/
def written (s : State) : Input → Option Document
  | .updateSettings values current saves =>
    if saves then some (updateSettings size current values.values s.file) else none
  | .setEnabled pluginId enabled before current saves =>
    if saves then some (setEnabled size pluginId enabled before current s.file) else none
  | .remove pluginId found listed before current saves =>
    if found ∧ pluginId ∈ disabledFrom (readJson size listed s.file) ∧ saves then
      some (setEnabled size pluginId true before current s.file)
    else none
  | _ => none

/-- The plugins that stay disabled after the operation has returned. -/
def offAfter (s : State) : Input → List Str
  | .setEnabled pluginId enabled _ _ saves =>
    if saves = false then s.off
    else if enabled then s.off.filter (· ≠ pluginId)
    else pluginId :: s.off
  | .remove pluginId found listed _ _ saves =>
    if found = false ∨ (pluginId ∈ disabledFrom (readJson size listed s.file) ∧ saves = false)
    then s.off
    else s.off.filter (· ≠ pluginId)
  | _ => s.off

def step (s : State) (i : Input) : State where
  file :=
    match i with
    | .damage => .damaged
    | _ =>
      match written size s i with
      | none => s.file
      | some d => .document d
  off := offAfter size s i

/-! ## The kill switch -/

/-- What is saved. -/
def saved : File → Option Document
  | .absent => some Dict.empty
  | .document d => some d
  | .damaged => none

/-- The reading tells what is saved. -/
def Tells (reading : Reading) (file : File) : Prop :=
  saved file = some (readJson size reading file)

/-- The keys that the operation is to change. -/
def changedKeys : Input → List Str
  | .updateSettings values _ _ => values.values.map Prod.fst
  | .setEnabled .. => ["disabled".toList]
  | .remove .. => ["disabled".toList]
  | _ => []

/-- **The kill switch** in one step: a write keeps every disabled plugin in the list and every
other key with its value; no reader lets a disabled plugin through; and one that cannot tell lets
none through. -/
def KillSwitch (s : State) (i : Input) : Prop :=
  (∀ d, written size s i = some d →
    (∀ id ∈ (step size s i).off, id ∈ disabledFrom d) ∧
    ∀ old, saved s.file = some old → ∀ key v, old.get? key = some v → key ∉ changedKeys i →
      d.get? key = some v) ∧
  match i with
  | .popupReads plugins reading =>
    (∀ id ∈ s.off, id ∉ candidates size plugins reading s.file) ∧
    (¬ Tells size reading s.file → candidates size plugins reading s.file = [])
  | .clientReads pluginId reading =>
    (pluginId ∈ s.off → enabledClient size pluginId reading s.file = false) ∧
    (¬ Tells size reading s.file → enabledClient size pluginId reading s.file = false)
  | _ => True

/-- Every read that the step makes tells what is saved. -/
def Told (s : State) : Input → Prop
  | .updateSettings _ current _ => Tells size current s.file
  | .setEnabled _ _ before current _ => Tells size before s.file ∧ Tells size current s.file
  | .remove _ found listed before current _ =>
    found = true →
      Tells size listed s.file ∧ Tells size before s.file ∧ Tells size current s.file
  | .popupReads _ reading => Tells size reading s.file
  | .clientReads _ reading => Tells size reading s.file
  | _ => True

/-! ## What a write keeps -/

variable {size : Document → Nat}

theorem get?_updateWith {key : Str} {values : List (Str × Value)} (h : key ∉ values.map Prod.fst)
    (d : Document) : (updateWith d values).get? key = d.get? key := by
  unfold updateWith
  induction values generalizing d with
  | nil => rfl
  | cons e values ih =>
    rw [List.map_cons, List.mem_cons, not_or] at h
    rw [List.foldl_cons, ih h.2, Dict.get?_set, if_neg h.1]

theorem disabledFrom_congr {d d' : Document}
    (h : d.get? "disabled".toList = d'.get? "disabled".toList) :
    disabledFrom d = disabledFrom d' := by
  unfold disabledFrom
  rw [h]

theorem mem_sortedIds {id : Str} {ids : List Str} : id ∈ sortedIds ids ↔ id ∈ ids := by
  rw [sortedIds, List.mem_insertionSort, List.mem_dedup]

/-- `set_enabled` writes the list that it has made from its first reading. -/
theorem mem_disabledFrom_setEnabled {pluginId id : Str} {enabled : Bool} {before current : Reading}
    {file : File} : id ∈ disabledFrom (setEnabled size pluginId enabled before current file) ↔
      if enabled then id ∈ disabledFrom (readJson size before file) ∧ id ≠ pluginId
      else id = pluginId ∨ id ∈ disabledFrom (readJson size before file) := by
  have hlist : ∀ ids : List Str, disabledFrom (updateSettings size current
      [("disabled".toList, .list (sortedIds ids))] file) = sortedIds ids := by
    intro ids
    have hget := Dict.get?_set (readJson size current file) "disabled".toList "disabled".toList
      (Value.list (sortedIds ids))
    rw [if_pos rfl] at hget
    show disabledFrom ((readJson size current file).set _ _) = _
    rw [disabledFrom, hget]
  unfold setEnabled
  rw [hlist, mem_sortedIds]
  cases enabled with
  | true =>
    rw [if_pos rfl, if_pos rfl, List.mem_filter, decide_eq_true_eq]
  | false =>
    rw [if_neg Bool.false_ne_true, if_neg Bool.false_ne_true, List.mem_cons]

/-- Every plugin that is to stay disabled is in the saved list. -/
def Listed (s : State) : Prop :=
  ∀ d, saved s.file = some d → ∀ id ∈ s.off, id ∈ disabledFrom d

variable {s : State} {i : Input}

theorem Listed.read (h : Listed s) {reading : Reading} (htells : Tells size reading s.file) :
    ∀ id ∈ s.off, id ∈ disabledFrom (readJson size reading s.file) :=
  h _ htells

/-- The list that a write leaves has every plugin that stays disabled. -/
theorem written_listed {d : Document} (h : Listed s) (htold : Told size s i)
    (hwritten : written size s i = some d) : ∀ id ∈ offAfter size s i, id ∈ disabledFrom d := by
  cases i with
  | updateSettings values current saves =>
    have hd : updateSettings size current values.values s.file = d := by
      rw [written] at hwritten
      split at hwritten
      · exact Option.some.inj hwritten
      · nomatch hwritten
    have hsame : disabledFrom d = disabledFrom (readJson size current s.file) := by
      rw [← hd]
      exact disabledFrom_congr (get?_updateWith values.not_disabled _)
    intro id hid
    rw [hsame]
    exact h.read htold id hid
  | setEnabled pluginId enabled before current saves =>
    cases saves with
    | false => nomatch hwritten
    | true =>
      have hd : setEnabled size pluginId enabled before current s.file = d :=
        Option.some.inj hwritten
      intro id hid
      rw [← hd, mem_disabledFrom_setEnabled]
      cases enabled with
      | true =>
        have hid : id ∈ s.off.filter (· ≠ pluginId) := hid
        rw [List.mem_filter, decide_eq_true_eq] at hid
        rw [if_pos rfl]
        exact ⟨h.read htold.1 id hid.1, hid.2⟩
      | false =>
        rw [if_neg Bool.false_ne_true]
        rcases List.mem_cons.mp hid with hid | hid
        · exact Or.inl hid
        · exact Or.inr (h.read htold.1 id hid)
  | remove pluginId found listed before current saves =>
    rw [written] at hwritten
    split at hwritten
    · rename_i hwrites
      obtain ⟨hfound, -, hsaves⟩ := hwrites
      have hnot : ¬ (found = false ∨
          (pluginId ∈ disabledFrom (readJson size listed s.file) ∧ saves = false)) := by
        rw [hfound, hsaves]
        simp
      intro id hid
      rw [offAfter, if_neg hnot, List.mem_filter, decide_eq_true_eq] at hid
      rw [← Option.some.inj hwritten, mem_disabledFrom_setEnabled, if_pos rfl]
      exact ⟨h.read (htold hfound).2.1 id hid.1, hid.2⟩
    · nomatch hwritten
  | install pluginId => nomatch hwritten
  | popupReads plugins reading => nomatch hwritten
  | clientReads pluginId reading => nomatch hwritten
  | damage => nomatch hwritten

/-- A write keeps the keys that it is not about. -/
theorem written_keeps {d old : Document} (htold : Told size s i)
    (hwritten : written size s i = some d) (hold : saved s.file = some old) {key : Str}
    (hkey : key ∉ changedKeys i) : d.get? key = old.get? key := by
  have hread : ∀ reading, Tells size reading s.file → readJson size reading s.file = old :=
    fun reading htells => (Option.some.inj (hold.symm.trans htells)).symm
  cases i with
  | updateSettings values current saves =>
    rw [written] at hwritten
    split at hwritten
    · rw [← Option.some.inj hwritten, updateSettings, get?_updateWith hkey, hread _ htold]
    · nomatch hwritten
  | setEnabled pluginId enabled before current saves =>
    rw [written] at hwritten
    split at hwritten
    · rw [← Option.some.inj hwritten, setEnabled, updateSettings, get?_updateWith hkey,
        hread _ htold.2]
    · nomatch hwritten
  | remove pluginId found listed before current saves =>
    rw [written] at hwritten
    split at hwritten
    · rename_i hwrites
      rw [← Option.some.inj hwritten, setEnabled, updateSettings, get?_updateWith hkey,
        hread _ (htold hwrites.1).2.2]
    · nomatch hwritten
  | install pluginId => nomatch hwritten
  | popupReads plugins reading => nomatch hwritten
  | clientReads pluginId reading => nomatch hwritten
  | damage => nomatch hwritten

/-- Without a write, an operation disables no plugin for good. -/
theorem off_of_no_write (hwritten : written size s i = none) :
    ∀ id ∈ offAfter size s i, id ∈ s.off := by
  cases i with
  | setEnabled pluginId enabled before current saves =>
    cases saves with
    | false => exact fun id hid => hid
    | true => nomatch hwritten
  | remove pluginId found listed before current saves =>
    intro id hid
    rw [offAfter] at hid
    split at hid
    · exact hid
    · exact List.mem_of_mem_filter hid
  | updateSettings values current saves | install pluginId | popupReads plugins reading
    | clientReads pluginId reading | damage => exact fun id hid => hid

theorem listed_step (h : Listed s) (htold : Told size s i) : Listed (step size s i) := by
  intro d hd id hid
  cases hwritten : written size s i with
  | some new =>
    have hfile : (step size s i).file = .document new := by
      cases i with
      | damage => nomatch hwritten
      | _ => simp only [step, hwritten]
    rw [hfile] at hd
    rw [← Option.some.inj hd]
    exact written_listed h htold hwritten id hid
  | none =>
    have hfile : (step size s i).file = s.file ∨ (step size s i).file = .damaged := by
      cases i with
      | damage => exact Or.inr rfl
      | _ => exact Or.inl (by simp only [step, hwritten])
    rcases hfile with hfile | hfile
    · rw [hfile] at hd
      exact h d hd id (off_of_no_write hwritten id hid)
    rw [hfile] at hd
    nomatch hd

theorem candidates_off (h : Listed s) {reading : Reading} (htells : Tells size reading s.file)
    (plugins : List Str) : ∀ id ∈ s.off, id ∉ candidates size plugins reading s.file := by
  intro id hid hmem
  have hcontains : (disabledFrom (readJson size reading s.file)).contains id = true :=
    List.contains_iff_mem.mpr (h.read htells id hid)
  rw [candidates, List.mem_filter, hcontains] at hmem
  exact Bool.false_ne_true hmem.2

theorem enabledClient_off (h : Listed s) {reading : Reading}
    (htells : Tells size reading s.file) {pluginId : Str} (hoff : pluginId ∈ s.off) :
    enabledClient size pluginId reading s.file = false := by
  have hcontains : (disabledFrom (readJson size reading s.file)).contains pluginId = true :=
    List.contains_iff_mem.mpr (h.read htells pluginId hoff)
  rw [enabledClient, hcontains]
  rfl

/-- **One step** whose reads tell what is saved keeps the kill switch. -/
theorem killSwitch_step (htold : Told size s i) (h : Listed s) :
    KillSwitch size s i ∧ Listed (step size s i) := by
  refine ⟨⟨fun d hwritten => ⟨written_listed h htold hwritten, ?_⟩, ?_⟩, listed_step h htold⟩
  · intro old hold key v hv hkey
    rw [written_keeps htold hwritten hold hkey]
    exact hv
  cases i with
  | popupReads plugins reading =>
    exact ⟨candidates_off h htold plugins, fun hnot => absurd htold hnot⟩
  | clientReads pluginId reading =>
    exact ⟨enabledClient_off h htold, fun hnot => absurd htold hnot⟩
  | _ => trivial

/-- **Disabling is a kill switch** in every run whose reads of `plugins.json` tell what is saved. -/
theorem disabled_stay_disabled {file : File} {inputs : List Input}
    (h : Machine.Along (step size) (Told size) ⟨file, []⟩ inputs) :
    Machine.Along (step size) (KillSwitch size) ⟨file, []⟩ inputs :=
  h.meets (step size) (fun _ _ htold hs => killSwitch_step htold hs)
    (fun _ _ _ hid => absurd hid List.not_mem_nil)

/-- A plugin is disabled, the indexes are changed, and the plugin is asked for. -/
def toldInputs : List Input :=
  [ .setEnabled "p".toList false .seen .seen true
  , .updateSettings ⟨[("indexes".toList, .list [])], by decide⟩ .seen true
  , .popupReads ["p".toList, "q".toList] .seen, .clientReads "p".toList .seen ]

theorem disabled_stay_disabled_told :
    Machine.Along (step (fun _ => 100)) (KillSwitch (fun _ => 100)) ⟨.absent, []⟩ toldInputs :=
  disabled_stay_disabled ⟨⟨rfl, rfl⟩, rfl, rfl, rfl, trivial⟩

/-! ## A read that fails -/

/-- The plugin is disabled; then the indexes are changed while the file cannot be read. -/
def lostInputs : List Input :=
  [ .setEnabled "p".toList false .seen .seen true
  , .updateSettings ⟨[("indexes".toList, .list [])], by decide⟩ .lost true ]

/-- The write loses the disabled list, so that the plugin is called again; and while the file cannot
be read, the popups of a disabled plugin come through. -/
theorem lost_read_enables :
    ¬ Machine.Along (step (fun _ => 100)) (KillSwitch (fun _ => 100)) ⟨.absent, []⟩ lostInputs ∧
    enabledClient (fun _ => 100) "p".toList .seen
      (Machine.run (step (fun _ => 100)) ⟨.absent, []⟩ lostInputs).file = true ∧
    candidates (fun _ => 100) ["p".toList] .lost
      (Machine.run (step (fun _ => 100)) ⟨.absent, []⟩ (lostInputs.take 1)).file = ["p".toList] := by
  refine ⟨?_, by decide, by decide⟩
  rintro ⟨-, ⟨hwrites, -⟩, -⟩
  have hlist := (hwrites _ rfl).1 "p".toList (by decide)
  exact absurd hlist (by decide)

end Reader

end BlueFerry.PluginPrefs
