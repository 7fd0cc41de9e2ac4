import BlueFerry.Lib.Machine
import BlueFerry.History.Store

/-! # The handle index against a full scan

`markEventHandlesRead` looks the rows of a handle up in an index that goes on from the last row it
has seen. `fullScan` says what a scan of all stored rows would mark. The index stands for a scan as
long as its rows read as they did when it passed them (`Faithful`), and the file is the one it was
made for.

The index counts a row that it could not read as passed. `Steady` keeps this out: a marking reads a
stored row as every other one does.
-/

namespace BlueFerry.History

open BlueFerry.Text

/-! ## What a full scan marks -/

/-- The row holds a received message of this handle. -/
def Decoded.Receives (d : Decoded) (handle : Str) : Prop :=
  ∃ event, d = .event event ∧ event.textOf "kind".toList = "sms_received".toList ∧
    event.textOf "handle".toList = handle

/-- The row is the received message of this handle. -/
def isMessage (env : Env) (handle : Str) (payload : Str) : Bool :=
  match env.deserialize payload with
  | .event event =>
    event.textOf "kind".toList = "sms_received".toList ∧ event.textOf "handle".toList = handle
  | _ => false

/-- The row is not marked yet. -/
def isUnread (env : Env) (payload : Str) : Bool :=
  match env.deserialize payload with
  | .event event => event.get "is_read".toList ≠ .bool true
  | _ => false

/-- The row is an unread message of one of the handles. -/
def toMark (env : Env) (handles : List Str) (payload : Str) : Bool :=
  (handles.filter (· ≠ [])).any (fun handle => isMessage env handle payload) && isUnread env payload

/-- The ids of the rows that a scan of all of them marks; it fails closed at a corrupt one. -/
def fullScan (env : Env) (handles : List Str) (t : Table Str) : Option (List Nat) :=
  if t.rows.any (fun r => env.deserialize r.2 = .corrupt) then none
  else some ((t.rows.filter (fun r => toMark env handles r.2)).map Prod.fst)

/-! ## The index -/

/-- `rows.get(handle, ())` -/
def HandleIndex.ids (index : HandleIndex) (handle : Str) : List Nat :=
  (index.rows.lookup handle).getD []

theorem lookup_addHandle (handle h : Str) (eventId : Nat) (rows : List (Str × List Nat)) :
    ((addHandle handle eventId rows).lookup h).getD []
      = (rows.lookup h).getD [] ++ if h = handle then [eventId] else [] := by
  induction rows with
  | nil =>
    by_cases hh : h = handle
    · simp [addHandle, hh]
    rw [addHandle, List.lookup_cons, beq_false_of_ne hh, if_neg hh]
    rfl
  | cons row rows ih =>
    obtain ⟨k, ids⟩ := row
    rw [addHandle]
    by_cases hk : k = handle
    · rw [if_pos hk]
      by_cases hh : h = handle
      · rw [if_pos hh]
        simp [hh, hk]
      have hne : h ≠ k := by
        rw [hk]
        exact hh
      rw [if_neg hh, List.append_nil, List.lookup_cons, List.lookup_cons, beq_false_of_ne hne]
    rw [if_neg hk]
    by_cases hhk : h = k
    · have hh : ¬ h = handle := by
        rw [hhk]
        exact hk
      rw [if_neg hh, List.append_nil]
      simp [hhk]
    · rw [List.lookup_cons, List.lookup_cons, beq_false_of_ne hhk]
      exact ih

section

variable (env : Env) (index : HandleIndex) (row : Nat × Str)

/-- The index after a row that is not corrupt. -/
def HandleIndex.pass : HandleIndex :=
  match env.deserialize row.2 with
  | .event event =>
    let handle := event.textOf "handle".toList
    if event.textOf "kind".toList ≠ "sms_received".toList ∨ handle = [] then
      { index with scannedThrough := row.1 }
    else { index with scannedThrough := row.1, rows := addHandle handle row.1 index.rows }
  | _ => { index with scannedThrough := row.1 }

theorem scanRows_cons (env : Env) (row : Nat × Str) (rows : List (Nat × Str))
    (index : HandleIndex) : scanRows env (row :: rows) index =
      if env.deserialize row.2 = .corrupt then none else scanRows env rows (index.pass env row) := by
  obtain ⟨eventId, payload⟩ := row
  rw [scanRows]
  unfold HandleIndex.pass
  cases hdec : env.deserialize payload with
  | corrupt | missing | failed => simp
  | event event =>
    have hfine : ¬ Decoded.event event = .corrupt := by simp
    dsimp only
    rw [if_neg hfine]
    by_cases hother : event.textOf "kind".toList ≠ "sms_received".toList ∨
        event.textOf "handle".toList = []
    · rw [if_pos hother, if_pos hother]
    · rw [if_neg hother, if_neg hother]

theorem pass_scannedThrough : (index.pass env row).scannedThrough = row.1 := by
  unfold HandleIndex.pass
  split
  · dsimp only
    split <;> rfl
  · rfl

theorem pass_identity : (index.pass env row).identity = index.identity := by
  unfold HandleIndex.pass
  split
  · dsimp only
    split <;> rfl
  · rfl

end

variable {env : Env} {handle payload : Str} {index : HandleIndex} {t : Table Str}
  {list : List (Str × Nat)}

theorem isMessage_iff :
    isMessage env handle payload = true ↔ (env.deserialize payload).Receives handle := by
  unfold isMessage Decoded.Receives
  cases env.deserialize payload with
  | corrupt | missing | failed => simp
  | event event =>
    rw [decide_eq_true_eq]
    constructor
    · exact fun h => ⟨event, rfl, h⟩
    · rintro ⟨_, heq, h⟩
      rw [Decoded.event.inj heq]
      exact h

/-- Only the messages of a handle come into its list. -/
theorem pass_ids (env : Env) (index : HandleIndex) (row : Nat × Str)
    (hne : handle ≠ []) : (index.pass env row).ids handle
      = index.ids handle ++ if isMessage env handle row.2 then [row.1] else [] := by
  have hiff : isMessage env handle row.2 = true ↔ _ := isMessage_iff
  unfold Decoded.Receives at hiff
  cases hdec : env.deserialize row.2 with
  | event event =>
    have hiff : isMessage env handle row.2 = true ↔
        event.textOf "kind".toList = "sms_received".toList ∧
          event.textOf "handle".toList = handle := by
      rw [hiff, hdec]
      constructor
      · rintro ⟨_, heq, h⟩
        rw [Decoded.event.inj heq]
        exact h
      · exact fun h => ⟨event, rfl, h⟩
    unfold HandleIndex.pass
    rw [hdec]
    dsimp only
    by_cases hother : event.textOf "kind".toList ≠ "sms_received".toList ∨
        event.textOf "handle".toList = []
    · have hnot : ¬ isMessage env handle row.2 = true := by
        rw [hiff]
        rintro ⟨hkind, hhandle⟩
        rcases hother with h | h
        · exact h hkind
        · exact hne (hhandle.symm.trans h)
      rw [if_pos hother, if_neg hnot]
      exact (List.append_nil _).symm
    rw [if_neg hother]
    rw [not_or, not_not] at hother
    show ((addHandle (event.textOf "handle".toList) row.1 index.rows).lookup handle).getD [] = _
    rw [lookup_addHandle]
    by_cases hsame : handle = event.textOf "handle".toList
    · rw [if_pos hsame, if_pos (hiff.mpr ⟨hother.1, hsame.symm⟩)]
      rfl
    rw [if_neg hsame, if_neg (fun h => hsame (hiff.mp h).2.symm)]
    rfl
  | corrupt | missing | failed =>
    rw [hdec] at hiff
    unfold HandleIndex.pass
    rw [hdec, if_neg (by simp [hiff]), List.append_nil]
    rfl

/-- The scan stops at a corrupt row only. -/
theorem scanRows_eq_none {rows : List (Nat × Str)} :
    scanRows env rows index = none ↔ ∃ r ∈ rows, env.deserialize r.2 = .corrupt := by
  induction rows generalizing index with
  | nil => simp [scanRows]
  | cons row rows ih =>
    rw [scanRows_cons]
    by_cases hcorrupt : env.deserialize row.2 = .corrupt
    · rw [if_pos hcorrupt]
      exact ⟨fun _ => ⟨row, .head _, hcorrupt⟩, fun _ => rfl⟩
    rw [if_neg hcorrupt, ih]
    constructor
    · rintro ⟨r, hr, hdec⟩
      exact ⟨r, .tail _ hr, hdec⟩
    rintro ⟨r, hr, hdec⟩
    rcases List.mem_cons.mp hr with rfl | hr
    · exact absurd hdec hcorrupt
    · exact ⟨r, hr, hdec⟩

/-- What a scan adds to the index. -/
structure Extends (env : Env) (rows : List (Nat × Str)) (index index' : HandleIndex) : Prop where
  identity : index'.identity = index.identity
  ids : ∀ handle, handle ≠ [] → index'.ids handle
    = index.ids handle ++ (rows.filter (fun r => isMessage env handle r.2)).map Prod.fst
  passed : ∀ r ∈ rows, r.1 ≤ index'.scannedThrough
  ahead : index.scannedThrough ≤ index'.scannedThrough
  reached : index'.scannedThrough = index.scannedThrough ∨
    ∃ r ∈ rows, r.1 = index'.scannedThrough

theorem scanRows_extends {rows : List (Nat × Str)} {index' : HandleIndex}
    (h : scanRows env rows index = some index') (hsorted : rows.Pairwise (fun r s => r.1 < s.1))
    (habove : ∀ r ∈ rows, index.scannedThrough < r.1) : Extends env rows index index' := by
  induction rows generalizing index with
  | nil =>
    rw [scanRows, Option.some.injEq] at h
    subst h
    exact ⟨rfl, fun _ _ => (List.append_nil _).symm, fun r hr => absurd hr List.not_mem_nil,
      le_rfl, .inl rfl⟩
  | cons row rows ih =>
    rw [scanRows_cons] at h
    split at h
    · exact absurd h (by simp)
    rw [List.pairwise_cons] at hsorted
    have hrow : index.scannedThrough < row.1 := habove row (.head _)
    have hpass := pass_scannedThrough env index row
    have hrest := ih h hsorted.2 (fun r hr => by rw [hpass]; exact hsorted.1 r hr)
    have hle : row.1 ≤ index'.scannedThrough := by
      have hahead := hrest.ahead
      omega
    constructor
    · rw [hrest.identity, pass_identity]
    · intro handle hne
      rw [hrest.ids handle hne, pass_ids env index row hne, List.append_assoc]
      by_cases hmessage : isMessage env handle row.2 = true
      · rw [if_pos hmessage, List.filter_cons_of_pos
          (p := fun r : Nat × Str => isMessage env handle r.2) hmessage]
        rfl
      · rw [if_neg hmessage, List.filter_cons_of_neg
          (p := fun r : Nat × Str => isMessage env handle r.2) hmessage]
        rfl
    · intro r hr
      rcases List.mem_cons.mp hr with rfl | hr
      · exact hle
      · exact hrest.passed r hr
    · omega
    · right
      rcases hrest.reached with heq | ⟨r, hr, heq⟩
      · exact ⟨row, .head _, by omega⟩
      · exact ⟨r, .tail _ hr, heq⟩

/-! ## An index that stands for a scan -/

/-- Every row that the index has passed is not corrupt, and is in the list of its handle only. -/
structure Faithful (dec : Str → Decoded) (t : Table Str) (index : HandleIndex) : Prop where
  through : index.scannedThrough ≤ t.seq
  sound : ∀ r ∈ t.rows, r.1 ≤ index.scannedThrough → dec r.2 ≠ .corrupt
  listed : ∀ r ∈ t.rows, r.1 ≤ index.scannedThrough → ∀ handle, handle ≠ [] →
    (r.1 ∈ index.ids handle ↔ (dec r.2).Receives handle)
  below : ∀ handle, handle ≠ [] → ∀ id ∈ index.ids handle, id ≤ index.scannedThrough

/-- The new index of the file. -/
theorem faithful_new (dec : Str → Decoded) (hpositive : ∀ r ∈ t.rows, 0 < r.1)
    (identity : Int) : Faithful dec t { identity } where
  through := Nat.zero_le _
  sound := by
    intro r hr hle
    have hpos := hpositive r hr
    have hle : r.1 ≤ 0 := hle
    omega
  listed := by
    intro r hr hle
    have hpos := hpositive r hr
    have hle : r.1 ≤ 0 := hle
    omega
  below := fun _ _ _ hid => absurd hid List.not_mem_nil

/-- A scan that ends extends a faithful index to all rows, and none of them is corrupt. -/
theorem Faithful.extend {dec : Str → Decoded} {index' : HandleIndex} (h : Faithful dec t index)
    (hdec : ∀ r ∈ t.rows, env.deserialize r.2 = dec r.2)
    (hscan : scanRows env (t.rows.filter (fun r => index.scannedThrough < r.1)) index
      = some index') : Faithful dec t index' ∧ ∀ r ∈ t.rows, r.1 ≤ index'.scannedThrough := by
  have hmem : ∀ r, r ∈ t.rows.filter (fun r => index.scannedThrough < r.1) ↔
      r ∈ t.rows ∧ index.scannedThrough < r.1 := by
    intro r
    rw [List.mem_filter, decide_eq_true_eq]
  have hext := scanRows_extends hscan (t.sorted.filter _) (fun r hr => ((hmem r).mp hr).2)
  have hclean : ∀ r ∈ t.rows, index.scannedThrough < r.1 → env.deserialize r.2 ≠ .corrupt := by
    intro r hr hlt hcorrupt
    rw [scanRows_eq_none.mpr ⟨r, (hmem r).mpr ⟨hr, hlt⟩, hcorrupt⟩] at hscan
    exact absurd hscan (by simp)
  have hall : ∀ r ∈ t.rows, r.1 ≤ index'.scannedThrough := by
    intro r hr
    by_cases hlt : index.scannedThrough < r.1
    · exact hext.passed r ((hmem r).mpr ⟨hr, hlt⟩)
    have hahead := hext.ahead
    omega
  refine ⟨⟨?_, ?_, ?_, ?_⟩, hall⟩
  · rcases hext.reached with heq | ⟨r, hr, heq⟩
    · rw [heq]
      exact h.through
    rw [← heq]
    exact t.bounded r ((hmem r).mp hr).1
  · intro r hr _
    rw [← hdec r hr]
    by_cases hlt : index.scannedThrough < r.1
    · exact hclean r hr hlt
    rw [hdec r hr]
    exact h.sound r hr (by omega)
  · intro r hr _ handle hne
    rw [hext.ids handle hne, List.mem_append, ← hdec r hr, ← isMessage_iff]
    by_cases hlt : index.scannedThrough < r.1
    · constructor
      · rintro (hold | hnew)
        · have hbelow := h.below handle hne r.1 hold
          omega
        · obtain ⟨x, hx, hid⟩ := List.mem_map.mp hnew
          obtain ⟨hx, hmessage⟩ := List.mem_filter.mp hx
          have hsame : x = r := Table.eq_of_id ((hmem x).mp hx).1 hr hid
          rw [← hsame]
          exact hmessage
      · intro hmessage
        right
        exact List.mem_map.mpr ⟨r, List.mem_filter.mpr ⟨(hmem r).mpr ⟨hr, hlt⟩, hmessage⟩, rfl⟩
    · have hold := h.listed r hr (by omega) handle hne
      rw [← hdec r hr, ← isMessage_iff] at hold
      rw [← hold]
      constructor
      · rintro (h' | hnew)
        · exact h'
        · obtain ⟨x, hx, hid⟩ := List.mem_map.mp hnew
          have hlt' := ((hmem x).mp (List.mem_of_mem_filter hx)).2
          omega
      · exact .inl
  · intro handle hne id hid
    rw [hext.ids handle hne] at hid
    rcases List.mem_append.mp hid with hold | hnew
    · exact le_trans (h.below handle hne id hold) hext.ahead
    obtain ⟨r, hr, rfl⟩ := List.mem_map.mp hnew
    exact hext.passed r (List.mem_of_mem_filter hr)

/-! ## The marking loop -/

/-- A sealed event reads back as itself. -/
def ReadsBack (env : Env) : Prop :=
  ∀ n event sealed, env.serialize n event = some sealed → env.deserialize sealed = .event event

/-- The row is to be marked for this handle. -/
def wants (env : Env) (handle payload : Str) : Bool :=
  isMessage env handle payload && isUnread env payload

/-- The rows of the list are to be marked. -/
def hit (env : Env) (list : List (Str × Nat)) (row : Nat × Str) : Bool :=
  list.any (fun e => decide (e.2 = row.1) && wants env e.1 row.2)

theorem hit_iff {row : Nat × Str} :
    hit env list row = true ↔ ∃ handle, (handle, row.1) ∈ list ∧ wants env handle row.2 = true := by
  unfold hit
  rw [List.any_eq_true]
  constructor
  · rintro ⟨⟨handle, id⟩, he, h⟩
    rw [Bool.and_eq_true, decide_eq_true_eq] at h
    obtain ⟨hid, hwants⟩ := h
    exact ⟨handle, by rw [← hid]; exact he, hwants⟩
  · rintro ⟨handle, he, hwants⟩
    exact ⟨(handle, row.1), he, by rw [Bool.and_eq_true, decide_eq_true_eq]; exact ⟨rfl, hwants⟩⟩

theorem wants_iff {event : Record} (handle : Str) (hdec : env.deserialize payload = .event event) :
    wants env handle payload = true ↔
      ¬ (event.textOf "kind".toList ≠ "sms_received".toList ∨
        event.textOf "handle".toList ≠ handle ∨ event.get "is_read".toList = .bool true) := by
  unfold wants isUnread
  rw [Bool.and_eq_true, isMessage_iff, Decoded.Receives, hdec, decide_eq_true_eq, not_or, not_or,
    not_not, not_not]
  constructor
  · rintro ⟨⟨_, heq, hkind, hhandle⟩, hunread⟩
    rw [← Decoded.event.inj heq] at hkind hhandle
    exact ⟨hkind, hhandle, hunread⟩
  · rintro ⟨hkind, hhandle, hunread⟩
    exact ⟨⟨event, rfl, hkind, hhandle⟩, hunread⟩

theorem wants_event (h : wants env handle payload = true) :
    ∃ event, env.deserialize payload = .event event := by
  unfold wants at h
  rw [Bool.and_eq_true, isMessage_iff] at h
  obtain ⟨⟨event, hdec, -⟩, -⟩ := h
  exact ⟨event, hdec⟩

/-- One turn of the loop, for a row that is there and not corrupt. -/
theorem markRows_cons (env : Env) (handle : Str) (eventId : Nat) (rest : List (Str × Nat))
    (updated : Nat) (t : Table Str)
    (hclean : ∀ payload, t.find eventId = some payload → env.deserialize payload ≠ .corrupt) :
    (∃ payload event, t.find eventId = some payload ∧ env.deserialize payload = .event event ∧
      wants env handle payload = true ∧
      markRows env ((handle, eventId) :: rest) updated t =
        match env.serialize updated (event.set "is_read".toList (.bool true)) with
        | none => (t, updated, .raised)
        | some sealed => markRows env rest (updated + 1) (t.update eventId sealed)) ∨
    ((∀ payload, t.find eventId = some payload → wants env handle payload = false) ∧
      markRows env ((handle, eventId) :: rest) updated t = markRows env rest updated t) := by
  rw [markRows]
  cases hfind : t.find eventId with
  | none => exact .inr ⟨nofun, rfl⟩
  | some payload =>
    have hnot : (∀ event, env.deserialize payload ≠ .event event) →
        ∀ x, some payload = some x → wants env handle x = false := by
      intro hother x hx
      rw [← Option.some.inj hx, ← Bool.not_eq_true]
      intro hwants
      obtain ⟨event, hdec⟩ := wants_event hwants
      exact hother event hdec
    cases hdec : env.deserialize payload with
    | corrupt => exact absurd hdec (hclean payload hfind)
    | missing | failed => exact .inr ⟨hnot (by simp [hdec]), by simp [hdec]⟩
    | event event =>
      have hiff := wants_iff handle hdec
      dsimp only
      rw [hdec]
      dsimp only
      by_cases hskip : event.textOf "kind".toList ≠ "sms_received".toList ∨
          event.textOf "handle".toList ≠ handle ∨ event.get "is_read".toList = .bool true
      · right
        refine ⟨?_, by rw [if_pos hskip]⟩
        intro x hx
        rw [← Option.some.inj hx, ← Bool.not_eq_true, hiff]
        exact not_not_intro hskip
      · left
        exact ⟨payload, event, rfl, hdec, hiff.mpr hskip, (if_neg hskip).trans rfl⟩

/-- What the loop does to the table, when it ends. -/
structure Marked (env : Env) (list : List (Str × Nat)) (t t' : Table Str) (updated n : Nat) :
    Prop where
  count : n = updated + t.rows.countP (hit env list)
  rows : ∃ sealed : Nat → Str,
    t'.rows = t.rows.map (fun r => if hit env list r then (r.1, sealed r.1) else r) ∧
    ∀ r ∈ t.rows, hit env list r = true → ∃ n event, env.deserialize r.2 = .event event ∧
      env.serialize n (event.set "is_read".toList (.bool true)) = some (sealed r.1)

/-- One of the rows to be marked cannot be sealed. -/
def SealFails (env : Env) (list : List (Str × Nat)) (t : Table Str) : Prop :=
  ∃ r ∈ t.rows, hit env list r = true ∧ ∃ n event, env.deserialize r.2 = .event event ∧
    env.serialize n (event.set "is_read".toList (.bool true)) = none

/-- The count of a predicate that holds of one element more. -/
theorem countP_one_more {α : Type} {l : List α} {p q : α → Bool} {a : α} (hnodup : l.Nodup)
    (ha : a ∈ l) (hp : p a = true) (hq : q a = false) (hsame : ∀ b ∈ l, b ≠ a → p b = q b) :
    l.countP p = l.countP q + 1 := by
  induction l with
  | nil => exact absurd ha List.not_mem_nil
  | cons b l ih =>
    rw [List.nodup_cons] at hnodup
    rw [List.countP_cons, List.countP_cons]
    rcases List.mem_cons.mp ha with rfl | ha
    · have hrest : l.countP p = l.countP q := by
        refine List.countP_congr (fun x hx => ?_)
        rw [hsame x (.tail _ hx) (fun h => hnodup.1 (by rw [← h]; exact hx))]
      rw [hp, hq, hrest]
      rfl
    have hne : b ≠ a := fun h => hnodup.1 (by rw [h]; exact ha)
    rw [ih hnodup.2 ha (fun x hx => hsame x (.tail _ hx)), hsame b (.head _) hne]
    omega

theorem hit_cons (env : Env) (handle : Str) (eventId : Nat) (rest : List (Str × Nat))
    (row : Nat × Str) : hit env ((handle, eventId) :: rest) row
      = (decide (eventId = row.1) && wants env handle row.2 || hit env rest row) := rfl

/-- A marked row is not to be marked again. -/
theorem hit_sealed {row : Nat × Str} {event : Record}
    (h : env.deserialize row.2 = .event (event.set "is_read".toList (.bool true))) :
    hit env list row = false := by
  rw [← Bool.not_eq_true, hit_iff]
  rintro ⟨handle, -, hwants⟩
  rw [wants_iff handle h] at hwants
  refine hwants (.inr (.inr ?_))
  rw [Record.get_set, if_pos rfl]

theorem Marked.congr {list' : List (Str × Nat)} {t' : Table Str}
    {updated n : Nat} (h : Marked env list t t' updated n)
    (hsame : ∀ r ∈ t.rows, hit env list' r = hit env list r) : Marked env list' t t' updated n := by
  constructor
  · have hcount : t.rows.countP (hit env list') = t.rows.countP (hit env list) :=
      List.countP_congr (fun r hr => by rw [hsame r hr])
    rw [hcount]
    exact h.count
  obtain ⟨sealed, hrows, hdec⟩ := h.rows
  refine ⟨sealed, ?_, fun r hr hhit => hdec r hr (by rw [← hsame r hr]; exact hhit)⟩
  rw [hrows]
  exact List.map_congr_left (fun r hr => by rw [hsame r hr])

section Turn

variable {env : Env} {handle : Str} {eventId : Nat} {rest : List (Str × Nat)} {updated n : Nat}
  {t t' : Table Str} {payload sealed : Str} {event : Record}

theorem hit_other {r : Nat × Str} (h : r.1 ≠ eventId) :
    hit env ((handle, eventId) :: rest) r = hit env rest r := by
  rw [hit_cons, decide_eq_false (Ne.symm h)]
  rfl

/-- One turn that marks a row, and the turns after it. -/
theorem Marked.cons (hrow : (eventId, payload) ∈ t.rows)
    (hhit : hit env ((handle, eventId) :: rest) (eventId, payload) = true)
    (hdec : env.deserialize payload = .event event)
    (hseal : env.serialize updated (event.set "is_read".toList (.bool true)) = some sealed)
    (hsealed : env.deserialize sealed = .event (event.set "is_read".toList (.bool true)))
    (h : Marked env rest (t.update eventId sealed) t' (updated + 1) n) :
    Marked env ((handle, eventId) :: rest) t t' updated n := by
  have hunhit : hit env rest (eventId, sealed) = false := hit_sealed hsealed
  constructor
  · have hcount : t.rows.countP (hit env ((handle, eventId) :: rest))
        = t.rows.countP (fun r => hit env rest
            (if r.1 = eventId then (eventId, sealed) else r)) + 1 := by
      refine countP_one_more t.nodup_rows hrow hhit ?_ ?_
      · rw [if_pos rfl]
        exact hunhit
      intro r hr hne
      have hid : r.1 ≠ eventId := fun h => hne (Table.eq_of_id hr hrow h)
      rw [if_neg hid]
      exact hit_other hid
    have hmapped : (t.update eventId sealed).rows.countP (hit env rest)
        = t.rows.countP (fun r => hit env rest
            (if r.1 = eventId then (eventId, sealed) else r)) := List.countP_map
    have hn := h.count
    omega
  · obtain ⟨later, hrows, hlater⟩ := h.rows
    refine ⟨fun id => if id = eventId then sealed else later id, ?_, ?_⟩
    · rw [hrows]
      show (t.rows.map _).map _ = _
      rw [List.map_map]
      refine List.map_congr_left (fun r hr => ?_)
      dsimp only [Function.comp_apply]
      by_cases hid : r.1 = eventId
      · have hsame : r = (eventId, payload) := Table.eq_of_id hr hrow hid
        rw [if_pos hid, hunhit, hsame, hhit]
        show (eventId, sealed) = (eventId, if eventId = eventId then sealed else _)
        rw [if_pos rfl]
      · rw [if_neg hid, hit_other hid, if_neg hid]
    · intro r hr hrhit
      dsimp only
      by_cases hid : r.1 = eventId
      · have hsame : r = (eventId, payload) := Table.eq_of_id hr hrow hid
        rw [if_pos hid, hsame]
        exact ⟨updated, event, hdec, hseal⟩
      · rw [if_neg hid]
        rw [hit_other hid] at hrhit
        exact hlater r ((Table.mem_update hrow).mpr (.inr ⟨hr, hid⟩)) hrhit

theorem SealFails.cons (hrow : (eventId, payload) ∈ t.rows)
    (hsealed : env.deserialize sealed = .event (event.set "is_read".toList (.bool true)))
    (h : SealFails env rest (t.update eventId sealed)) :
    SealFails env ((handle, eventId) :: rest) t := by
  obtain ⟨r, hr, hhit, hfails⟩ := h
  rcases (Table.mem_update hrow).mp hr with rfl | ⟨hr, hid⟩
  · rw [hit_sealed hsealed] at hhit
    exact absurd hhit (by simp)
  · exact ⟨r, hr, by rw [hit_other hid]; exact hhit, hfails⟩

end Turn

/-- **The loop marks the rows of its list, once each**, unless one of them cannot be sealed. -/
theorem markRows_spec {env : Env} (hback : ReadsBack env) {list : List (Str × Nat)} {updated : Nat}
    {t : Table Str} (hclean : ∀ r ∈ t.rows, env.deserialize r.2 ≠ .corrupt) :
    (∃ t' n, markRows env list updated t = (t', n, .done) ∧ Marked env list t t' updated n) ∨
    (∃ t' n, markRows env list updated t = (t', n, .raised) ∧ SealFails env list t) := by
  revert updated t
  induction list with
  | nil =>
    intro updated t _
    refine .inl ⟨t, updated, rfl, ?_, fun _ => [], ?_, ?_⟩
    · have hnone : t.rows.countP (hit env []) = 0 :=
        List.countP_eq_zero.mpr (fun _ _ => by simp [hit])
      omega
    · exact (List.map_id _).symm
    · exact fun r _ h => absurd h (by simp [hit])
  | cons entry rest ih =>
    intro updated t hclean
    obtain ⟨handle, eventId⟩ := entry
    rcases markRows_cons env handle eventId rest updated t
      (fun payload hfind => hclean (eventId, payload) (Table.mem_rows_iff.mpr hfind)) with
      ⟨payload, event, hfind, hdec, hwants, hturn⟩ | ⟨hskip, hturn⟩
    · have hrow : (eventId, payload) ∈ t.rows := Table.mem_rows_iff.mpr hfind
      have hhit : hit env ((handle, eventId) :: rest) (eventId, payload) = true :=
        hit_iff.mpr ⟨handle, .head _, hwants⟩
      rw [hturn]
      cases hseal : env.serialize updated (event.set "is_read".toList (.bool true)) with
      | none =>
        exact .inr ⟨t, updated, rfl, _, hrow, hhit, updated, event, hdec, hseal⟩
      | some sealed =>
        have hsealed := hback _ _ _ hseal
        have hclean' : ∀ r ∈ (t.update eventId sealed).rows,
            env.deserialize r.2 ≠ .corrupt := by
          intro r hr
          rcases (Table.mem_update hrow).mp hr with rfl | ⟨hr, -⟩
          · rw [hsealed]
            simp
          · exact hclean r hr
        rcases @ih (updated + 1) _ hclean' with
          ⟨t', n, hrest, hmarked⟩ | ⟨t', n, hrest, hfails⟩
        · exact .inl ⟨t', n, hrest, hmarked.cons hrow hhit hdec hseal hsealed⟩
        · exact .inr ⟨t', n, hrest, hfails.cons hrow hsealed⟩
    · have hsame : ∀ r ∈ t.rows,
          hit env ((handle, eventId) :: rest) r = hit env rest r := by
        intro r hr
        rw [hit_cons]
        by_cases hid : eventId = r.1
        · rw [hskip r.2 (Table.mem_rows_iff.mp (by rw [hid]; exact hr)), Bool.and_false,
            Bool.false_or]
        · rw [decide_eq_false hid, Bool.false_and, Bool.false_or]
      rw [hturn]
      rcases @ih updated _ hclean with
        ⟨t', n, hrest, hmarked⟩ | ⟨t', n, hrest, r, hr, hrhit, hfails⟩
      · exact .inl ⟨t', n, hrest, hmarked.congr hsame⟩
      · exact .inr ⟨t', n, hrest, r, hr, by rw [hsame r hr]; exact hrhit, hfails⟩

/-- The loop gives out no ids. -/
theorem markRows_seq (env : Env) (list : List (Str × Nat)) (updated : Nat) (t : Table Str) :
    (markRows env list updated t).1.seq = t.seq := by
  induction list generalizing updated t with
  | nil => rfl
  | cons entry rest ih =>
    obtain ⟨handle, eventId⟩ := entry
    rw [markRows]
    split
    · exact ih updated t
    split
    · rfl
    · exact ih updated t
    · exact ih updated t
    split_ifs
    · exact ih updated t
    split
    · rfl
    · exact ih _ _

/-! ## The selected rows are those of the scan -/

theorem mem_selectedRows {handles : List Str} {rows : List (Str × List Nat)}
    {id : Nat} : (handle, id) ∈ selectedRows handles rows ↔
      (handle ∈ handles ∧ handle ≠ []) ∧ id ∈ (rows.lookup handle).getD [] := by
  have hselected : ∀ h, h ∈ (handles.filter (· ≠ [])).dedup.insertionSort (· ≤ ·) ↔
      h ∈ handles ∧ h ≠ [] := by
    intro h
    rw [List.mem_insertionSort, List.mem_dedup, List.mem_filter, decide_eq_true_eq]
  unfold selectedRows
  rw [List.mem_flatMap]
  constructor
  · rintro ⟨h, hh, hpair⟩
    obtain ⟨x, hx, heq⟩ := List.mem_map.mp hpair
    obtain ⟨rfl, rfl⟩ := Prod.mk.inj heq
    exact ⟨(hselected h).mp hh, hx⟩
  · rintro ⟨hh, hid⟩
    exact ⟨handle, (hselected handle).mpr hh, List.mem_map.mpr ⟨id, hid, rfl⟩⟩

theorem toMark_iff {handles : List Str} : toMark env handles payload = true ↔
      ∃ handle, (handle ∈ handles ∧ handle ≠ []) ∧ wants env handle payload = true := by
  unfold toMark wants
  rw [Bool.and_eq_true, List.any_eq_true]
  constructor
  · rintro ⟨⟨handle, hmem, hmessage⟩, hunread⟩
    rw [List.mem_filter, decide_eq_true_eq] at hmem
    exact ⟨handle, hmem, by rw [Bool.and_eq_true]; exact ⟨hmessage, hunread⟩⟩
  rintro ⟨handle, hmem, hwants⟩
  rw [Bool.and_eq_true] at hwants
  refine ⟨⟨handle, ?_, hwants.1⟩, hwants.2⟩
  rw [List.mem_filter, decide_eq_true_eq]
  exact hmem

/-- **A faithful index that has passed all rows selects those that a scan marks.** -/
theorem Faithful.hit_selected {dec : Str → Decoded} (h : Faithful dec t index)
    (hdec : ∀ r ∈ t.rows, env.deserialize r.2 = dec r.2)
    (hall : ∀ r ∈ t.rows, r.1 ≤ index.scannedThrough) (handles : List Str) :
    ∀ r ∈ t.rows, hit env (selectedRows handles index.rows) r = toMark env handles r.2 := by
  intro r hr
  rw [Bool.eq_iff_iff, hit_iff, toMark_iff]
  constructor
  · rintro ⟨handle, hmem, hwants⟩
    exact ⟨handle, (mem_selectedRows.mp hmem).1, hwants⟩
  rintro ⟨handle, hselected, hwants⟩
  refine ⟨handle, mem_selectedRows.mpr ⟨hselected, ?_⟩, hwants⟩
  have hmessage : (env.deserialize r.2).Receives handle := by
    rw [wants, Bool.and_eq_true] at hwants
    exact isMessage_iff.mp hwants.1
  rw [hdec r hr] at hmessage
  exact (h.listed r hr (hall r hr) handle hselected.2).mpr hmessage

end BlueFerry.History
