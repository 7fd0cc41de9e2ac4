import BlueFerry.Groups.Names
import BlueFerry.Lib.Interleaved
import BlueFerry.Lib.Matching

/-! # Planning a backfill

`message_backfill.py` lists the inbox of the phone after a reconnect and stores the messages that
history does not have. `match_listing` pairs the listed messages with the stored ones, the same handle
first, then the closest time within a window, each message and each row once. `plan_backfill` reports
the messages left over, and `history_payload` is the row that one of them is stored as.

Times are microseconds since the epoch. What `datetime` makes of a text is a parameter (`Times`); a
time near the end of the calendar raises when it is converted, and so does the plan (`none`).

`matchIndices` is a greedy matching over the sorted candidates (`Matching.greedy`). From what that
matching is follow `match_listing`'s promises (`matched`) and that a backfill that was stored leaves
nothing to be stored (`missing_again`).
-/

namespace BlueFerry.Backfill

open BlueFerry.Text
open BlueFerry.Groups (canonicalAddress canonicalAddress_strip normalizePhone safeEventAddress spelledOnKeypad words)

/-! ## Times -/

structure Times where
  /-- `_parse_time` of a text: `none` where it raises, `some none` where it finds no time -/
  parse : Str → Option (Option Int)
  /-- `isoformat()` of a time in UTC -/
  isoformat : Int → Str
  /-- `parse_map_timestamp`, and whether the time has a UTC form -/
  mapStamp : Str → Option (Int × Bool)

section

variable (times : Times)

/-- The time is read back from its own text, which is not empty. -/
def Times.ReadsBack (t : Int) : Prop :=
  times.isoformat t ≠ [] ∧ times.parse (times.isoformat t) = some (some t)

/-- `_parse_time` -/
def parseTime (value : Str) : Option (Option Int) :=
  if value = [] then some none else times.parse value

/-- `DEDUP_WINDOW` -/
def dedupWindow : Int := 3 * 3600 * 1000000

/-- `MIN_PREFIX_CHARS` -/
def minPrefixChars : Nat := 32

/-- `FUTURE_TOLERANCE` -/
def futureTolerance : Int := 24 * 3600 * 1000000

/-! ## Messages and rows -/

/-- `ListedMessage`: one validated inbox entry. -/
structure ListedMessage where
  handle : Str
  senderAddress : Str
  senderAlphanumeric : Option Str
  body : Str
  timestamp : Int
  read : Bool
  named : handle ≠ []
  identified : (canonicalAddress senderAddress).isSome = true
  deriving DecidableEq

/-- The fields of a raw listing entry. -/
structure Entry where
  type : Str := []
  handle : Str := []
  senderAddress : Str := []
  senderName : Str := []
  body : Str := []
  timestamp : Str := []
  read : Option Bool := none
  deriving DecidableEq

/-- One round of `parse_listing`: `none` where it raises, `some none` where the entry is dropped. -/
def parseEntry (now : Int) (entry : Entry) : Option (Option ListedMessage) :=
  if casefold entry.type = "email".toList then some none
  else
    let address := strip entry.senderAddress
    match if entry.timestamp = [] then none else times.mapStamp entry.timestamp with
    | none => some none
    | some (stamp, convertible) =>
      if h : entry.handle ≠ [] ∧ strip entry.body ≠ [] ∧
          (canonicalAddress address).isSome = true ∧ stamp ≤ now + futureTolerance then
        if convertible then
          some (some {
            handle := entry.handle
            senderAddress := address
            senderAlphanumeric :=
              if entry.senderName ≠ [] ∧ spelledOnKeypad entry.senderName address = true then
                some entry.senderName
              else none
            body := entry.body
            timestamp := stamp
            read := decide (entry.read = some true)
            named := h.1
            identified := h.2.2.1 })
        else none
      else some none

/-- `parse_listing` -/
def parseListing (now : Int) (entries : List Entry) : Option (List ListedMessage) :=
  (entries.mapM (parseEntry times now)).map (List.filterMap id)

/-- A history row, with the keys that only `history_payload` sets. -/
structure Row extends Groups.Stored where
  groupAmbiguous : Bool := false
  backfilled : Bool := false
  deriving DecidableEq

/-- `_stored_time` -/
def storedTime (row : Row) : Option (Option Int) :=
  match parseTime times row.timestamp with
  | none => none
  | some (some t) => some (some t)
  | some none => parseTime times row.seenAt

/-- `history_payload`; the keys that are `None` there are empty. -/
def historyPayload (contactName : Str) (message : ListedMessage) : Row where
  kind := .smsReceived
  handle := message.handle
  senderAddress := message.senderAddress
  senderPhoneNorm := (normalizePhone message.senderAddress).getD []
  contactName := if (message.senderAlphanumeric.getD []) ≠ [] then [] else contactName
  body := message.body
  timestamp := times.isoformat message.timestamp
  isRead := some message.read
  senderAlphanumeric := message.senderAlphanumeric.getD []
  seenAt := times.isoformat message.timestamp
  groupAmbiguous := true
  backfilled := true

/-! ## Matching -/

/-- `_normalized_body` -/
def normalizedBody (text : Str) : Str := join ' ' (words text)

/-- `_bodies_match` -/
def bodiesMatch (listed stored : Str) : Bool :=
  if listed = stored then true
  else
    let beginning := rstrip isSpace (rstrip (· == '.') (rstrip (· == '…') listed))
    decide (minPrefixChars ≤ beginning.length) && startsWith stored beginning

/-- What `match_listing` keeps of a stored row. -/
structure StoredKey where
  identity : Option Str
  text : Str
  handle : Str
  time : Option Int
  deriving DecidableEq

def storedKey (row : Row) : Option StoredKey :=
  (storedTime times row).map fun time =>
    { identity := (safeEventAddress row.toStored).bind canonicalAddress
      text := normalizedBody row.body
      handle := row.handle
      time := time }

/-- The distance of a listed message and a stored row, none where they make no candidate; that of the
same handle is -1. -/
def distanceOf (message : ListedMessage) (key : StoredKey) : Option Int :=
  if canonicalAddress message.senderAddress = none ∨
      canonicalAddress message.senderAddress ≠ key.identity ∨
      bodiesMatch (normalizedBody message.body) key.text = false then none
  else if key.handle ≠ [] ∧ key.handle = message.handle then some (-1)
  else
    match key.time with
    | none => none
    | some time =>
      let distance : Int := (time - message.timestamp).natAbs
      if dedupWindow < distance then none else some distance

structure Candidate where
  distance : Int
  listed : Nat
  stored : Nat
  deriving DecidableEq

/-- The order of the tuples. -/
def Candidate.le (a b : Candidate) : Prop :=
  a.distance < b.distance ∨
    a.distance = b.distance ∧ (a.listed < b.listed ∨ a.listed = b.listed ∧ a.stored ≤ b.stored)

instance (a b : Candidate) : Decidable (a.le b) := inferInstanceAs (Decidable (_ ∨ _))

/-- The two loops of `match_listing` that collect the candidates. -/
def candidatesOf (listed : List ListedMessage) (keys : List StoredKey) : List Candidate :=
  listed.zipIdx.flatMap fun entry =>
    keys.zipIdx.filterMap fun stored =>
      (distanceOf entry.1 stored.1).map fun distance => ⟨distance, entry.2, stored.2⟩

/-- `paired_listed`, `paired_stored` and `pairs`, the pairs by their positions. -/
structure Paired where
  listed : List Nat := []
  stored : List Nat := []
  pairs : List (Nat × Nat) := []

/-- One round of the last loop of `match_listing`. -/
def Paired.add (paired : Paired) (c : Candidate) : Paired :=
  if c.listed ∈ paired.listed ∨ c.stored ∈ paired.stored then paired
  else
    { listed := paired.listed ++ [c.listed]
      stored := paired.stored ++ [c.stored]
      pairs := paired.pairs ++ [(c.listed, c.stored)] }

section

variable (listed : List ListedMessage)

/-- The sorted candidates. -/
def edges (keys : List StoredKey) : List Candidate :=
  (candidatesOf listed keys).insertionSort Candidate.le

/-- The pairs of `match_listing`, by their positions. -/
def matchIndices (keys : List StoredKey) : List (Nat × Nat) :=
  ((edges listed keys).foldl Paired.add {}).pairs

/-- The listed messages at the positions that no pair has. -/
def unmatchedOf (pairs : List (Nat × Nat)) : List ListedMessage :=
  (listed.zipIdx.filter fun entry => decide (entry.2 ∉ pairs.map Prod.fst)).map Prod.fst

/-- The messages and rows at the positions of the pairs. -/
def pairsAt (stored : List Row) (pairs : List (Nat × Nat)) : List (ListedMessage × Row) :=
  pairs.filterMap fun pair =>
    match listed[pair.1]?, stored[pair.2]? with
    | some message, some row => some (message, row)
    | _, _ => none

/-- `match_listing`: the unmatched messages and the pairs. -/
def matchListing (stored : List Row) : Option (List ListedMessage × List (ListedMessage × Row)) :=
  (stored.mapM (storedKey times)).map fun keys =>
    let pairs := matchIndices listed keys
    (unmatchedOf listed pairs, pairsAt listed stored pairs)

end

/-! ## Planning -/

structure BackfillPlan where
  missing : List ListedMessage
  readHandles : List Str
  listed : Nat
  floor : Option Int

/-- Whether `plan_backfill` compares the row with the listing. -/
def comparable (windowStart : Int) (row : Row) : Option Bool :=
  if row.kind = .smsReceived then
    (storedTime times row).map fun time => time.all (fun t => decide (windowStart ≤ t))
  else some false

/-- `stored` of `plan_backfill` -/
def storedRows (times : Times) (windowStart : Int) : List Row → Option (List Row)
  | [] => some []
  | row :: history =>
    match comparable times windowStart row with
    | none => none
    | some kept =>
      (storedRows times windowStart history).map fun rows => if kept then row :: rows else rows

/-- The last `limit` of a list, none of it for a limit of 0 or less. -/
def lastOf {α : Type} (limit : Int) (items : List α) : List α :=
  if 0 < limit then items.drop (items.length - limit.toNat) else []

/-- `recent` of `plan_backfill` -/
def recentOf (since : Int) (listed : List ListedMessage) : List ListedMessage :=
  listed.filter fun message => decide (since ≤ message.timestamp)

/-- The plan for what `match_listing` returned. -/
def planOf (listed : List ListedMessage) (limit : Int) (floor : Option Int)
    (found : List ListedMessage × List (ListedMessage × Row)) : BackfillPlan where
  missing := lastOf limit (found.1.insertionSort fun a b => a.timestamp ≤ b.timestamp)
  readHandles := Groups.sorted ((found.2.filter fun pair =>
    pair.1.read && decide (pair.2.isRead ≠ some true) && decide (pair.2.handle ≠ [])).map
      fun pair => pair.2.handle).dedup
  listed := listed.length
  floor := floor

/-- `plan_backfill` -/
def planBackfill (listed : List ListedMessage) (history : List Row) (since limit : Int)
    (floor : Option Int) : Option BackfillPlan :=
  match storedRows times (since - dedupWindow) history with
  | none => none
  | some stored =>
    (matchListing times (recentOf since listed) stored).map (planOf listed limit floor)

end

/-! ## The matching -/

variable {message : ListedMessage}

section Matched

theorem Candidate.le_refl (a : Candidate) : a.le a := by
  unfold Candidate.le
  omega

instance : Std.Total Candidate.le where
  total := by
    intro a b
    unfold Candidate.le
    omega

instance : IsTrans Candidate Candidate.le where
  trans := by
    intro a b c hab hbc
    unfold Candidate.le at *
    omega

variable {listed : List ListedMessage} {keys : List StoredKey}

theorem pairwise_edges : (edges listed keys).Pairwise Candidate.le :=
  List.pairwise_insertionSort _ _

/-- The candidate is of a message and a row that stand at its positions. -/
theorem mem_edges {c : Candidate} :
    c ∈ edges listed keys ↔ ∃ message key, listed[c.listed]? = some message ∧
      keys[c.stored]? = some key ∧ distanceOf message key = some c.distance := by
  rw [edges, (List.perm_insertionSort _ _).mem_iff, candidatesOf, List.mem_flatMap]
  constructor
  · rintro ⟨⟨message, i⟩, hmessage, hmem⟩
    obtain ⟨⟨key, j⟩, hkey, hdistance⟩ := List.mem_filterMap.mp hmem
    obtain ⟨d, hd, rfl⟩ := Option.map_eq_some_iff.mp hdistance
    exact ⟨message, key, List.mem_zipIdx_iff_getElem?.mp hmessage,
      List.mem_zipIdx_iff_getElem?.mp hkey, hd⟩
  rintro ⟨message, key, hmessage, hkey, hdistance⟩
  refine ⟨(message, c.listed), List.mem_zipIdx_iff_getElem?.mpr hmessage, List.mem_filterMap.mpr ?_⟩
  exact ⟨(key, c.stored), List.mem_zipIdx_iff_getElem?.mpr hkey,
    Option.map_eq_some_iff.mpr ⟨_, hdistance, rfl⟩⟩

/-- What the loop has made of the candidates it took. -/
def Paired.of (taken : List Candidate) : Paired where
  listed := taken.map Candidate.listed
  stored := taken.map Candidate.stored
  pairs := taken.map fun c => (c.listed, c.stored)

theorem foldl_add (taken rest : List Candidate) :
    rest.foldl Paired.add (.of taken)
      = .of (Matching.takeFrom Candidate.listed Candidate.stored taken rest) := by
  induction rest generalizing taken with
  | nil => rfl
  | cons c rest ih =>
    have hmeets : (c.listed ∈ (Paired.of taken).listed ∨ c.stored ∈ (Paired.of taken).stored) ↔
        ∃ p ∈ taken, Matching.Meets Candidate.listed Candidate.stored p c := by
      simp only [Paired.of, List.mem_map, Matching.Meets]
      constructor
      · rintro (⟨p, hp, heq⟩ | ⟨p, hp, heq⟩)
        · exact ⟨p, hp, .inl heq⟩
        · exact ⟨p, hp, .inr heq⟩
      · rintro ⟨p, hp, heq | heq⟩
        · exact .inl ⟨p, hp, heq⟩
        · exact .inr ⟨p, hp, heq⟩
    rw [List.foldl_cons, Matching.takeFrom, Paired.add]
    by_cases hmet : ∃ p ∈ taken, Matching.Meets Candidate.listed Candidate.stored p c
    · rw [if_pos (hmeets.mpr hmet), if_pos hmet, ih]
    rw [if_neg (fun h => hmet (hmeets.mp h)), if_neg hmet, ← ih]
    simp only [Paired.of, List.map_append, List.map_cons, List.map_nil]

/-- The candidates that `match_listing` takes. -/
def taken (listed : List ListedMessage) (keys : List StoredKey) : List Candidate :=
  Matching.greedy Candidate.listed Candidate.stored (edges listed keys)

theorem matchIndices_eq :
    matchIndices listed keys = (taken listed keys).map fun c => (c.listed, c.stored) := by
  have h := foldl_add [] (edges listed keys)
  exact congrArg Paired.pairs h

theorem settled_taken : Matching.Settled Candidate.listed Candidate.stored (edges listed keys)
    (· ∈ taken listed keys) := Matching.settled_greedy

theorem mem_edges_of_taken {c : Candidate} (h : c ∈ taken listed keys) : c ∈ edges listed keys :=
  Matching.mem_of_mem_greedy h

theorem mem_matchIndices {i j : Nat} :
    (i, j) ∈ matchIndices listed keys ↔ ∃ d, ⟨d, i, j⟩ ∈ taken listed keys := by
  rw [matchIndices_eq, List.mem_map]
  constructor
  · rintro ⟨⟨d, i', j'⟩, hc, heq⟩
    obtain ⟨rfl, rfl⟩ := Prod.mk.inj heq
    exact ⟨d, hc⟩
  · rintro ⟨d, hc⟩
    exact ⟨_, hc, rfl⟩

/-- The distance is -1 for the same handle and none less otherwise. -/
theorem distanceOf_eq {key : StoredKey} {d : Int} (h : distanceOf message key = some d) :
    (d = -1 ∧ key.handle = message.handle) ∨ (0 ≤ d ∧ key.handle ≠ message.handle) := by
  unfold distanceOf at h
  split at h
  · nomatch h
  by_cases hsame : key.handle ≠ [] ∧ key.handle = message.handle
  · rw [if_pos hsame] at h
    exact .inl ⟨(Option.some.inj h).symm, hsame.2⟩
  rw [if_neg hsame] at h
  refine .inr ⟨?_, ?_⟩
  · cases htime : key.time with
    | none =>
      rw [htime] at h
      nomatch h
    | some time =>
      rw [htime] at h
      dsimp only at h
      split at h
      · nomatch h
      rw [← Option.some.inj h]
      exact Int.natCast_nonneg _
  · intro heq
    exact hsame ⟨heq ▸ message.named, heq⟩

/-- The row and the message are the same message for `match_listing`. -/
def Compatible (times : Times) (message : ListedMessage) (row : Row) : Prop :=
  ∃ key d, storedKey times row = some key ∧ distanceOf message key = some d

/-- The row was stored under the handle of the message. -/
def SameHandle (message : ListedMessage) (row : Row) : Prop := row.handle = message.handle

/-- What `match_listing` promises of its pairs, given by their positions: they are of compatible
messages and rows, each message and each row is in at most one, of a compatible message and row at
least one is in a pair, and if they have the same handle, in a pair of the same handle. -/
structure Matched (times : Times) (listed : List ListedMessage) (stored : List Row)
    (pairs : List (Nat × Nat)) : Prop where
  compatible : ∀ i j, (i, j) ∈ pairs → ∃ message row, listed[i]? = some message ∧
    stored[j]? = some row ∧ Compatible times message row
  listed_once : (pairs.map Prod.fst).Nodup
  stored_once : (pairs.map Prod.snd).Nodup
  none_left : ∀ i j message row, listed[i]? = some message → stored[j]? = some row →
    Compatible times message row → i ∈ pairs.map Prod.fst ∨ j ∈ pairs.map Prod.snd
  same_handle_first : ∀ i j message row, listed[i]? = some message → stored[j]? = some row →
    Compatible times message row → SameHandle message row →
    ∃ i' j' message' row', (i', j') ∈ pairs ∧ (i' = i ∨ j' = j) ∧ listed[i']? = some message' ∧
      stored[j']? = some row' ∧ SameHandle message' row'

theorem mapM_getElem? {α β : Type} {f : α → Option β} {items : List α} {images : List β}
    (h : items.mapM f = some images) (j : Nat) : images[j]? = items[j]?.bind f := by
  induction items generalizing images j with
  | nil =>
    rw [List.mapM_nil] at h
    rw [← Option.some.inj h]
    rfl
  | cons a items ih =>
    rw [List.mapM_cons] at h
    obtain ⟨b, hb, h⟩ := Option.bind_eq_some_iff.mp h
    obtain ⟨rest, hrest, h⟩ := Option.bind_eq_some_iff.mp h
    rw [← Option.some.inj h]
    cases j with
    | zero => simp [hb]
    | succ j => simpa using ih hrest j

theorem storedKey_handle {times : Times} {row : Row} {key : StoredKey}
    (h : storedKey times row = some key) : key.handle = row.handle := by
  obtain ⟨time, -, rfl⟩ := Option.map_eq_some_iff.mp h
  rfl

/-- **The pairs of `match_listing` are a matching that leaves nothing compatible and prefers the same
handle.** -/
theorem matched {times : Times} {listed : List ListedMessage} {stored : List Row}
    {keys : List StoredKey} (hkeys : stored.mapM (storedKey times) = some keys) :
    Matched times listed stored (matchIndices listed keys) := by
  have hrow : ∀ {j : Nat} {row : Row}, stored[j]? = some row → keys[j]? = storedKey times row := by
    intro j row hj
    rw [mapM_getElem? hkeys, hj, Option.bind_some]
  have hcandidate : ∀ {i j : Nat} {message : ListedMessage} {row : Row}, listed[i]? = some message → stored[j]? = some row →
      Compatible times message row → ∃ key d, storedKey times row = some key ∧
        distanceOf message key = some d ∧ (⟨d, i, j⟩ : Candidate) ∈ edges listed keys := by
    rintro i j message row hi hj ⟨key, d, hkey, hd⟩
    exact ⟨key, d, hkey, hd, mem_edges.mpr ⟨message, key, hi, (hrow hj).trans hkey, hd⟩⟩
  -- the message and the row at the positions of a candidate that was taken
  have hrows : ∀ c ∈ taken listed keys, ∃ message row key, listed[c.listed]? = some message ∧
      stored[c.stored]? = some row ∧ storedKey times row = some key ∧
      distanceOf message key = some c.distance := by
    intro c hc
    obtain ⟨message, key, hmessage, hkey, hd⟩ := mem_edges.mp (mem_edges_of_taken hc)
    rw [mapM_getElem? hkeys, Option.bind_eq_some_iff] at hkey
    obtain ⟨row, hstored, hkey⟩ := hkey
    exact ⟨message, row, key, hmessage, hstored, hkey, hd⟩
  refine ⟨?_, ?_, ?_, ?_, ?_⟩
  · intro i j hmem
    obtain ⟨d, hc⟩ := mem_matchIndices.mp hmem
    obtain ⟨message, row, key, hmessage, hstored, hkey, hd⟩ := hrows _ hc
    exact ⟨message, row, hmessage, hstored, key, d, hkey, hd⟩
  · rw [matchIndices_eq, List.map_map]
    exact (Matching.nodup_greedy _).1
  · rw [matchIndices_eq, List.map_map]
    exact (Matching.nodup_greedy _).2
  · intro i j message row hi hj hcompatible
    obtain ⟨key, d, -, -, hedge⟩ := hcandidate hi hj hcompatible
    by_cases hc : (⟨d, i, j⟩ : Candidate) ∈ taken listed keys
    · exact .inl (List.mem_map.mpr ⟨(i, j), mem_matchIndices.mpr ⟨d, hc⟩, rfl⟩)
    obtain ⟨p, -, -, hp, hmeets⟩ := settled_taken.exists_le pairwise_edges hedge hc
    have hpair := mem_matchIndices.mpr ⟨p.distance, hp⟩
    rcases hmeets with heq | heq
    · exact .inl (List.mem_map.mpr ⟨_, hpair, heq⟩)
    · exact .inr (List.mem_map.mpr ⟨_, hpair, heq⟩)
  intro i j message row hi hj hcompatible hsame
  obtain ⟨key, d, hkey, hd, hedge⟩ := hcandidate hi hj hcompatible
  -- a candidate of the same handle has the distance -1, and so has what stands before it
  have hdistance : d = -1 := by
    rcases distanceOf_eq hd with ⟨h, -⟩ | ⟨-, h⟩
    · exact h
    · exact absurd ((storedKey_handle hkey).trans hsame) h
  by_cases hc : (⟨d, i, j⟩ : Candidate) ∈ taken listed keys
  · exact ⟨i, j, message, row, mem_matchIndices.mpr ⟨d, hc⟩, .inl rfl, hi, hj, hsame⟩
  obtain ⟨p, -, hle, hp, hmeets⟩ := settled_taken.exists_le pairwise_edges hedge hc
  obtain ⟨message', row', key', hmessage', hrow', hkey', hd'⟩ := hrows p hp
  refine ⟨p.listed, p.stored, message', row', mem_matchIndices.mpr ⟨_, hp⟩, hmeets, hmessage',
    hrow', ?_⟩
  rcases distanceOf_eq hd' with ⟨-, h⟩ | ⟨h, -⟩
  · exact (storedKey_handle hkey').symm.trans h
  exfalso
  unfold Candidate.le at hle
  dsimp only at hle
  omega

end Matched

/-! ## Planning again -/

section Again

/-- The key of the row that a message is stored as. -/
def ownKey (message : ListedMessage) : StoredKey where
  identity := canonicalAddress message.senderAddress
  text := normalizedBody message.body
  handle := message.handle
  time := some message.timestamp

theorem distanceOf_ownKey (message : ListedMessage) :
    distanceOf message (ownKey message) = some (-1) := by
  have hsome : canonicalAddress message.senderAddress ≠ none :=
    Option.isSome_iff_ne_none.mp message.identified
  have hsame : bodiesMatch (normalizedBody message.body) (normalizedBody message.body) = true := by
    rw [bodiesMatch, if_pos rfl]
  rw [distanceOf, if_neg, if_pos ⟨message.named, rfl⟩]
  rintro (h | h | h)
  · exact hsome h
  · exact h rfl
  · rw [ownKey, hsame] at h
    exact Bool.noConfusion h

theorem mem_unmatchedOf {listed : List ListedMessage} {pairs : List (Nat × Nat)} :
    message ∈ unmatchedOf listed pairs ↔ ∃ i, listed[i]? = some message ∧ i ∉ pairs.map Prod.fst := by
  rw [unmatchedOf, List.mem_map]
  constructor
  · rintro ⟨⟨message', i⟩, hmem, rfl⟩
    obtain ⟨hat, hfree⟩ := List.mem_filter.mp hmem
    exact ⟨i, List.mem_zipIdx_iff_getElem?.mp hat, of_decide_eq_true hfree⟩
  · rintro ⟨i, hat, hfree⟩
    exact ⟨(message, i), List.mem_filter.mpr ⟨List.mem_zipIdx_iff_getElem?.mpr hat,
      decide_eq_true hfree⟩, rfl⟩

theorem unmatchedOf_sublist (listed : List ListedMessage) (pairs : List (Nat × Nat)) :
    (unmatchedOf listed pairs).Sublist listed := by
  have h := (List.filter_sublist (p := fun entry : ListedMessage × Nat =>
    decide (entry.2 ∉ pairs.map Prod.fst)) (l := listed.zipIdx)).map Prod.fst
  rwa [List.zipIdx_map_fst] at h

/-- Where the labels of a list are different, a label has one position. -/
theorem position_eq {α β : Type} {label : α → β} {items : List α} (h : (items.map label).Nodup)
    {i i' : Nat} {a a' : α} (hi : items[i]? = some a) (hi' : items[i']? = some a')
    (heq : label a = label a') : i = i' := by
  have hat : (items.map label)[i]? = some (label a) := by rw [List.getElem?_map, hi]; rfl
  have hat' : (items.map label)[i']? = some (label a) := by rw [List.getElem?_map, hi', heq]; rfl
  obtain ⟨hlt, hget⟩ := List.getElem?_eq_some_iff.mp hat
  obtain ⟨hlt', hget'⟩ := List.getElem?_eq_some_iff.mp hat'
  exact (h.getElem_inj_iff).mp (hget.trans hget'.symm)

variable {recent : List ListedMessage} {old new all : List StoredKey}

/-- An unmatched message has no candidate of its own handle. -/
theorem matched_of_same_handle (hhandles : (recent.map ListedMessage.handle).Nodup) {i j : Nat}
    (hedge : (⟨-1, i, j⟩ : Candidate) ∈ edges recent old) :
    i ∈ (matchIndices recent old).map Prod.fst := by
  by_cases hc : (⟨-1, i, j⟩ : Candidate) ∈ taken recent old
  · exact List.mem_map.mpr ⟨(i, j), mem_matchIndices.mpr ⟨_, hc⟩, rfl⟩
  obtain ⟨⟨d, i', j'⟩, hp, hle, htaken, hmeets⟩ := settled_taken.exists_le pairwise_edges hedge hc
  have hpair := mem_matchIndices.mpr ⟨d, htaken⟩
  obtain ⟨message, key, hmessage, hkey, hd⟩ := mem_edges.mp hedge
  obtain ⟨message', key', hmessage', hkey', hd'⟩ := mem_edges.mp hp
  have hsame : i' = i := by
    rcases hmeets with heq | heq
    · exact heq
    -- the row was taken by a message of its handle, and the handles are different
    subst heq
    obtain rfl : key = key' := Option.some.inj (hkey.symm.trans hkey')
    have hown : key.handle = message.handle := by
      rcases distanceOf_eq hd with ⟨-, h⟩ | ⟨h, -⟩
      · exact h
      · exact absurd h (Int.not_le.mpr (Int.negSucc_lt_zero 0))
    have hown' : key.handle = message'.handle := by
      rcases distanceOf_eq hd' with ⟨-, h⟩ | ⟨h, -⟩
      · exact h
      unfold Candidate.le at hle
      dsimp only at hle h
      omega
    exact position_eq hhandles hmessage' hmessage (hown'.symm.trans hown)
  exact List.mem_map.mpr ⟨_, hpair, hsame⟩

/-- The positions of the messages in a pair. -/
def matchedAt (recent : List ListedMessage) (old : List StoredKey) : List Nat :=
  (matchIndices recent old).map Prod.fst

/-- `all` holds the old rows and the new ones, at the places `f` and `g`, and the new ones are the
unmatched messages. -/
structure Places (recent : List ListedMessage) (old new all : List StoredKey) (f g : Nat → Nat) :
    Prop where
  old_at : ∀ (j : Nat) (key : StoredKey), old[j]? = some key → all[f j]? = some key
  new_at : ∀ (k : Nat) (key : StoredKey), new[k]? = some key → all[g k]? = some key
  cover : ∀ (i : Nat) (key : StoredKey), all[i]? = some key →
    (∃ j, i = f j ∧ old[j]? = some key) ∨ ∃ k, i = g k ∧ new[k]? = some key
  mono : ∀ j j', j < j' → f j < f j'
  inj : ∀ k k', g k = g k' → k = k'
  stored : ∀ (i : Nat) (message : ListedMessage), recent[i]? = some message →
    i ∉ matchedAt recent old → ∃ k : Nat, new[k]? = some (ownKey message)
  own : ∀ (k : Nat) (key : StoredKey), new[k]? = some key → ∃ (i : Nat) (message : ListedMessage),
    recent[i]? = some message ∧ i ∉ matchedAt recent old ∧ key = ownKey message
  one : ∀ (k k' : Nat) (key key' : StoredKey), new[k]? = some key → new[k']? = some key' →
    key.handle = key'.handle → k = k'
  handles : (recent.map ListedMessage.handle).Nodup

theorem exists_places (hhandles : (recent.map ListedMessage.handle).Nodup)
    (hnew : new.Perm ((unmatchedOf recent (matchIndices recent old)).map ownKey))
    (hall : Interleaved old new all) : ∃ f g, Places recent old new all f g := by
  obtain ⟨f, g, hf, hg, hcover, hmono, hinj⟩ := hall.exists_positions
  have hown : (new.map StoredKey.handle).Nodup := by
    rw [(hnew.map StoredKey.handle).nodup_iff, List.map_map]
    exact ((unmatchedOf_sublist recent _).map ListedMessage.handle).nodup hhandles
  refine ⟨f, g, hf, hg, hcover, hmono, hinj, ?_, ?_,
    fun k k' key key' hk hk' heq => position_eq hown hk hk' heq, hhandles⟩
  · intro i message hat hfree
    exact List.getElem?_of_mem
      (hnew.mem_iff.mpr (List.mem_map.mpr ⟨message, mem_unmatchedOf.mpr ⟨i, hat, hfree⟩, rfl⟩))
  intro k key hk
  obtain ⟨message, hmessage, heq⟩ := List.mem_map.mp (hnew.mem_iff.mp (List.mem_of_getElem? hk))
  obtain ⟨i, hat, hfree⟩ := mem_unmatchedOf.mp hmessage
  exact ⟨i, message, hat, hfree, heq.symm⟩

/-- The second matching: the pairs of the first one, and every unmatched message with its own row. -/
def Again (recent : List ListedMessage) (old : List StoredKey) (f : Nat → Nat) (c : Candidate) : Prop :=
  (∃ j, c.stored = f j ∧ (c.listed, j) ∈ matchIndices recent old) ∨
    (c.listed ∉ matchedAt recent old ∧ c.distance = -1)

theorem edge_ext {keys : List StoredKey} {p c : Candidate} (hp : p ∈ edges recent keys)
    (hc : c ∈ edges recent keys) (hlisted : p.listed = c.listed) (hstored : p.stored = c.stored) :
    p = c := by
  obtain ⟨message, key, hmessage, hkey, hd⟩ := mem_edges.mp hp
  obtain ⟨message', key', hmessage', hkey', hd'⟩ := mem_edges.mp hc
  rw [hlisted, hmessage'] at hmessage
  rw [hstored, hkey'] at hkey
  obtain rfl := Option.some.inj hmessage
  obtain rfl := Option.some.inj hkey
  cases p
  cases c
  simp_all

section Places

variable {f g : Nat → Nat}

section

variable (h : Places recent old new all f g)
include h

theorem Places.old_eq {j j' : Nat} (heq : f j = f j') : j = j' := by
  rcases Nat.lt_trichotomy j j' with hlt | heq | hlt
  · have := h.mono j j' hlt
    omega
  · exact heq
  have := h.mono j' j hlt
  omega

/-- A candidate among the old rows is one among all rows. -/
theorem Places.edge_old {d : Int} {i j : Nat} (hc : (⟨d, i, j⟩ : Candidate) ∈ edges recent old) :
    (⟨d, i, f j⟩ : Candidate) ∈ edges recent all := by
  obtain ⟨message, key, hmessage, hkey, hd⟩ := mem_edges.mp hc
  exact mem_edges.mpr ⟨message, key, hmessage, h.old_at j key hkey, hd⟩

/-- An unmatched message and its own row. -/
theorem Places.edge_own {i k : Nat} (hmessage : recent[i]? = some message)
    (hk : new[k]? = some (ownKey message)) : (⟨-1, i, g k⟩ : Candidate) ∈ edges recent all :=
  mem_edges.mpr ⟨message, _, hmessage, h.new_at k _ hk, distanceOf_ownKey message⟩

/-- The row of an unmatched message's handle is its own. -/
theorem Places.same_handle {c : Candidate}
    (hc : c ∈ edges recent all) (hfree : c.listed ∉ matchedAt recent old) (hd : c.distance = -1) :
    ∃ k key message, c.stored = g k ∧ new[k]? = some key ∧ recent[c.listed]? = some message ∧
      key.handle = message.handle := by
  obtain ⟨message, key, hmessage, hkey, hdistance⟩ := mem_edges.mp hc
  rcases h.cover _ key hkey with ⟨j, -, hold⟩ | ⟨k, hk, hnew⟩
  · rw [hd] at hdistance
    exact absurd (matched_of_same_handle h.handles
      (mem_edges.mpr ⟨message, key, hmessage, hold, hdistance⟩)) hfree
  refine ⟨k, key, message, hk, hnew, hmessage, ?_⟩
  rcases distanceOf_eq hdistance with ⟨-, hsame⟩ | ⟨hpos, -⟩
  · exact hsame
  · omega

/-- A pair of the first matching does not meet an unmatched message with its own row. -/
theorem Places.not_meets {p c : Candidate} {j : Nat}
    (hc : c ∈ edges recent all) (hstored : p.stored = f j) (hpair : (p.listed, j) ∈ matchIndices recent old)
    (hfree : c.listed ∉ matchedAt recent old) (hd : c.distance = -1) :
    ¬ Matching.Meets Candidate.listed Candidate.stored p c := by
  rintro (heq | heq)
  · exact hfree (heq ▸ List.mem_map.mpr ⟨_, hpair, rfl⟩)
  · -- the row is an old one, and the message has its handle
    obtain ⟨d, htaken⟩ := mem_matchIndices.mp hpair
    obtain ⟨-, key, -, hkey, -⟩ := mem_edges.mp (mem_edges_of_taken htaken)
    obtain ⟨message, key', hmessage, hkey', hdistance⟩ := mem_edges.mp hc
    rw [← heq, hstored, h.old_at j key hkey] at hkey'
    obtain rfl := Option.some.inj hkey'
    rw [hd] at hdistance
    exact hfree (matched_of_same_handle h.handles (mem_edges.mpr ⟨message, key, hmessage, hkey, hdistance⟩))

theorem Places.apart :
    ∀ p ∈ edges recent all, ∀ c ∈ edges recent all, Again recent old f p → Again recent old f c →
      Matching.Meets Candidate.listed Candidate.stored p c → p = c := by
  intro p hp c hc hMp hMc hmeets
  have honce : ((taken recent old).map Candidate.listed).Nodup ∧
      ((taken recent old).map Candidate.stored).Nodup := Matching.nodup_greedy (edges recent old)
  have hfst : ((matchIndices recent old).map Prod.fst).Nodup := by
    rw [matchIndices_eq, List.map_map]
    exact honce.1
  have hsnd : ((matchIndices recent old).map Prod.snd).Nodup := by
    rw [matchIndices_eq, List.map_map]
    exact honce.2
  rcases hMp with ⟨j, hj, hpair⟩ | ⟨hfree, hd⟩
  · rcases hMc with ⟨j', hj', hpair'⟩ | ⟨hfree', hd'⟩
    · have hsame : (p.listed, j) = (c.listed, j') := by
        rcases hmeets with heq | heq
        · exact List.inj_on_of_nodup_map hfst hpair hpair' heq
        · exact List.inj_on_of_nodup_map hsnd hpair hpair' (h.old_eq (hj.symm.trans (heq.trans hj')))
      obtain ⟨hlisted, rfl⟩ := Prod.mk.inj hsame
      exact edge_ext hp hc hlisted (hj.trans hj'.symm)
    · exact absurd hmeets (h.not_meets hc hj hpair hfree' hd')
  rcases hMc with ⟨j', hj', hpair'⟩ | ⟨hfree', hd'⟩
  · exact absurd hmeets.symm (h.not_meets hp hj' hpair' hfree hd)
  obtain ⟨k, key, message, hk, hnew, hmessage, hown⟩ := h.same_handle hp hfree hd
  obtain ⟨k', key', message', hk', hnew', hmessage', hown'⟩ := h.same_handle hc hfree' hd'
  rcases hmeets with heq | heq
  · rw [heq, hmessage'] at hmessage
    obtain rfl := Option.some.inj hmessage
    obtain rfl := h.one k k' key key' hnew hnew' (hown.trans hown'.symm)
    exact edge_ext hp hc heq (hk.trans hk'.symm)
  · obtain rfl := h.inj k k' (hk.symm.trans (heq.trans hk'))
    obtain rfl := Option.some.inj (hnew.symm.trans hnew')
    exact edge_ext hp hc (position_eq h.handles hmessage hmessage' (hown.symm.trans hown')) heq

theorem Places.blocked :
    ∀ c ∈ edges recent all, ¬ Again recent old f c → ∃ p ∈ edges recent all, ¬ c.le p ∧
      Again recent old f p ∧ Matching.Meets Candidate.listed Candidate.stored p c := by
  intro c hc hM
  obtain ⟨message, key, hmessage, hkey, hdistance⟩ := mem_edges.mp hc
  by_cases hfree : c.listed ∉ matchedAt recent old
  · -- the message has a row of its own, which is nearer
    obtain ⟨k, hk⟩ := h.stored c.listed message hmessage hfree
    refine ⟨⟨-1, c.listed, g k⟩, h.edge_own hmessage hk, ?_, .inr ⟨hfree, rfl⟩, .inl rfl⟩
    have hne : c.distance ≠ -1 := fun hd => hM (.inr ⟨hfree, hd⟩)
    unfold Candidate.le
    dsimp only
    rcases distanceOf_eq hdistance with ⟨hd, -⟩ | ⟨hd, -⟩
    · exact absurd hd hne
    · omega
  rcases h.cover c.stored key hkey with ⟨j, hj, hold⟩ | ⟨k, hk, hnew⟩
  · -- an old candidate, met by a pair of the first matching
    have hedge : (⟨c.distance, c.listed, j⟩ : Candidate) ∈ edges recent old :=
      mem_edges.mpr ⟨message, key, hmessage, hold, hdistance⟩
    have hout : (⟨c.distance, c.listed, j⟩ : Candidate) ∉ taken recent old := fun hin =>
      hM (.inl ⟨j, hj, mem_matchIndices.mpr ⟨_, hin⟩⟩)
    obtain ⟨⟨d, i, j'⟩, hp, hle, hin, hmeets⟩ := settled_taken.exists_le pairwise_edges hedge hout
    refine ⟨⟨d, i, f j'⟩, h.edge_old hp, ?_, Or.inl ⟨j', rfl, mem_matchIndices.mpr ⟨_, hin⟩⟩, ?_⟩
    · unfold Candidate.le at hle ⊢
      dsimp only at hle ⊢
      rcases Nat.lt_trichotomy j' j with hlt | rfl | hlt
      · have := h.mono j' j hlt
        omega
      · have hne : ¬ (d = c.distance ∧ i = c.listed) := by
          rintro ⟨rfl, rfl⟩
          exact hout hin
        omega
      · have := h.mono j j' hlt
        omega
    · rcases hmeets with heq | heq
      · exact .inl heq
      have heq : j' = j := heq
      exact .inr (by rw [heq]; exact hj.symm)
  · -- the row of another message, which is nearer to it
    obtain ⟨i, message', hmessage', hfree', rfl⟩ := h.own k key hnew
    refine ⟨⟨-1, i, g k⟩, h.edge_own hmessage' hnew, ?_, .inr ⟨hfree', rfl⟩, .inr hk.symm⟩
    unfold Candidate.le
    dsimp only
    rcases distanceOf_eq hdistance with ⟨-, hsame⟩ | ⟨hd, -⟩
    · have heq := position_eq h.handles hmessage' hmessage hsame
      exact absurd (heq ▸ hfree') hfree
    · omega

end

end Places

/-- **Once the unmatched messages are stored, every message is matched.** -/
theorem unmatchedOf_again (hhandles : (recent.map ListedMessage.handle).Nodup)
    (hnew : new.Perm ((unmatchedOf recent (matchIndices recent old)).map ownKey))
    (hall : Interleaved old new all) : unmatchedOf recent (matchIndices recent all) = [] := by
  obtain ⟨f, g, h⟩ := exists_places hhandles hnew hall
  have hsettled := Matching.settled_of_sorted pairwise_edges Candidate.le_refl h.apart h.blocked
  have htaken : ∀ {c : Candidate}, c ∈ edges recent all → Again recent old f c →
      c.listed ∈ (matchIndices recent all).map Prod.fst := fun hc hM =>
    List.mem_map.mpr ⟨_, mem_matchIndices.mpr ⟨_, (Matching.mem_greedy_iff hsettled _).mpr ⟨hc, hM⟩⟩, rfl⟩
  refine List.eq_nil_iff_forall_not_mem.mpr fun message hmem => ?_
  obtain ⟨i, hat, hfree⟩ := mem_unmatchedOf.mp hmem
  by_cases hold : i ∈ matchedAt recent old
  · obtain ⟨⟨i', j⟩, hpair, rfl⟩ := List.mem_map.mp hold
    obtain ⟨d, hin⟩ := mem_matchIndices.mp hpair
    exact hfree (htaken (h.edge_old (mem_edges_of_taken hin)) (.inl ⟨j, rfl, hpair⟩))
  · obtain ⟨k, hk⟩ := h.stored i message hat hold
    exact hfree (htaken (h.edge_own hat hk) (.inr ⟨hold, rfl⟩))

/-! ### The rows -/

variable {times : Times}

theorem storedTime_payload (h : times.ReadsBack message.timestamp) (contactName : Str) :
    storedTime times (historyPayload times contactName message) = some (some message.timestamp) := by
  unfold storedTime historyPayload parseTime
  rw [if_neg h.1, h.2]

/-- A stored message has the key of its row. -/
theorem storedKey_payload (h : times.ReadsBack message.timestamp) (contactName : Str) :
    storedKey times (historyPayload times contactName message) = some (ownKey message) := by
  have hsafe : safeEventAddress (historyPayload times contactName message).toStored
      = some (strip message.senderAddress) := by
    have hidentified : (canonicalAddress (strip message.senderAddress)).isSome = true := by
      rw [canonicalAddress_strip]
      exact message.identified
    unfold safeEventAddress historyPayload
    rw [if_pos hidentified]
  rw [storedKey, storedTime_payload h, hsafe, Option.map_some, Option.bind_some, canonicalAddress_strip]
  rfl

theorem comparable_payload (h : times.ReadsBack message.timestamp) (contactName : Str)
    {windowStart : Int} (hstart : windowStart ≤ message.timestamp) :
    comparable times windowStart (historyPayload times contactName message) = some true := by
  have hkind : (historyPayload times contactName message).kind = .smsReceived := rfl
  rw [comparable, if_pos hkind, storedTime_payload h]
  exact congrArg some (decide_eq_true hstart)

/-- The rows that are compared, when rows are added that are. -/
theorem storedRows_interleaved {windowStart : Int} {history rows history' stored : List Row}
    (h : Interleaved history rows history')
    (hrows : ∀ row ∈ rows, comparable times windowStart row = some true)
    (hstored : storedRows times windowStart history = some stored) :
    ∃ stored', storedRows times windowStart history' = some stored' ∧
      Interleaved stored rows stored' := by
  induction h generalizing stored with
  | nil =>
    rw [← Option.some.inj hstored]
    exact ⟨[], rfl, .nil⟩
  | @left row history rows history' _ ih =>
    rw [storedRows] at hstored
    cases hkept : comparable times windowStart row with
    | none =>
      rw [hkept] at hstored
      nomatch hstored
    | some kept =>
      rw [hkept] at hstored
      obtain ⟨rest, hrest, rfl⟩ := Option.map_eq_some_iff.mp hstored
      obtain ⟨rest', hrest', hmix⟩ := ih hrows hrest
      refine ⟨_, by rw [storedRows, hkept, hrest']; rfl, ?_⟩
      cases kept with
      | true => exact .left hmix
      | false => exact hmix
  | @right row history rows history' _ ih =>
    obtain ⟨rest', hrest', hmix⟩ := ih (fun r hr => hrows r (.tail _ hr)) hstored
    refine ⟨row :: rest', ?_, .right hmix⟩
    rw [storedRows, hrows row (.head _), hrest']
    rfl

theorem mapM_interleaved {α β : Type} {f : α → Option β} {as bs cs : List α} {as' bs' : List β}
    (h : Interleaved as bs cs) (ha : as.mapM f = some as') (hb : bs.mapM f = some bs') :
    ∃ cs', cs.mapM f = some cs' ∧ Interleaved as' bs' cs' := by
  induction h generalizing as' bs' with
  | nil =>
    rw [List.mapM_nil] at ha hb
    rw [← Option.some.inj ha, ← Option.some.inj hb]
    exact ⟨[], List.mapM_nil, .nil⟩
  | @left a as bs cs _ ih =>
    rw [List.mapM_cons] at ha
    obtain ⟨a', ha', ha⟩ := Option.bind_eq_some_iff.mp ha
    obtain ⟨rest, hrest, ha⟩ := Option.bind_eq_some_iff.mp ha
    obtain ⟨cs', hcs', hmix⟩ := ih hrest hb
    rw [← Option.some.inj ha]
    exact ⟨a' :: cs', by rw [List.mapM_cons, ha', hcs']; rfl, .left hmix⟩
  | @right b as bs cs _ ih =>
    rw [List.mapM_cons] at hb
    obtain ⟨b', hb', hb⟩ := Option.bind_eq_some_iff.mp hb
    obtain ⟨rest, hrest, hb⟩ := Option.bind_eq_some_iff.mp hb
    obtain ⟨cs', hcs', hmix⟩ := ih ha hrest
    rw [← Option.some.inj hb]
    exact ⟨b' :: cs', by rw [List.mapM_cons, hb', hcs']; rfl, .right hmix⟩

theorem mapM_payload {names : ListedMessage → Str} {added : List ListedMessage}
    (h : ∀ message ∈ added, times.ReadsBack message.timestamp) :
    (added.map fun message => historyPayload times (names message) message).mapM (storedKey times)
      = some (added.map ownKey) := by
  induction added with
  | nil => rfl
  | cons message added ih =>
    rw [List.map_cons, List.mapM_cons, storedKey_payload (h message (.head _)),
      ih fun m hm => h m (.tail _ hm)]
    rfl

theorem lastOf_eq {α : Type} {limit : Int} {items : List α} (h : (items.length : Int) ≤ limit) :
    lastOf limit items = items := by
  unfold lastOf
  split
  · have hzero : items.length - limit.toNat = 0 := by omega
    rw [hzero, List.drop_zero]
  have hnil : items.length = 0 := by omega
  exact (List.length_eq_zero_iff.mp hnil).symm

/-- **What a backfill has stored is not missing any more.** -/
theorem missing_again {listed : List ListedMessage} {history history' : List Row}
    {since limit : Int} {floor : Option Int} {plan : BackfillPlan}
    (hhandles : (listed.map ListedMessage.handle).Nodup) (hlimit : (listed.length : Int) ≤ limit)
    (hreads : ∀ message ∈ listed, times.ReadsBack message.timestamp)
    (hplan : planBackfill times listed history since limit floor = some plan)
    {names : ListedMessage → Str} {added : List ListedMessage} (hadded : added.Perm plan.missing)
    (hmix : Interleaved history
      (added.map fun message => historyPayload times (names message) message) history')
    (floor' : Option Int) :
    ∃ plan', planBackfill times listed history' since limit floor' = some plan' ∧
      plan'.missing = [] := by
  unfold planBackfill at hplan
  cases hstored : storedRows times (since - dedupWindow) history with
  | none =>
    rw [hstored] at hplan
    nomatch hplan
  | some stored =>
    rw [hstored] at hplan
    obtain ⟨found, hmatch, rfl⟩ := Option.map_eq_some_iff.mp hplan
    obtain ⟨old, hold, rfl⟩ := Option.map_eq_some_iff.mp hmatch
    have hrecent : (recentOf since listed).Sublist listed := List.filter_sublist
    -- everything unmatched is reported, since there is no more than the limit
    have hperm : added.Perm (unmatchedOf (recentOf since listed)
        (matchIndices (recentOf since listed) old)) := by
      refine hadded.trans ?_
      rw [planOf, lastOf_eq]
      · exact List.perm_insertionSort _ _
      · rw [List.length_insertionSort]
        have hle := ((unmatchedOf_sublist (recentOf since listed)
          (matchIndices (recentOf since listed) old)).trans hrecent).length_le
        dsimp only
        omega
    have hmember : ∀ message ∈ added, message ∈ listed ∧ since ≤ message.timestamp := by
      intro message hmessage
      have hin := (unmatchedOf_sublist _ _).subset (hperm.mem_iff.mp hmessage)
      obtain ⟨hlisted, hsince⟩ := List.mem_filter.mp hin
      exact ⟨hlisted, of_decide_eq_true hsince⟩
    have hwindow : 0 ≤ dedupWindow := by decide
    have hcomparable : ∀ row ∈ added.map fun message => historyPayload times (names message) message,
        comparable times (since - dedupWindow) row = some true := by
      intro row hrow
      obtain ⟨message, hmessage, rfl⟩ := List.mem_map.mp hrow
      obtain ⟨hlisted, hsince⟩ := hmember message hmessage
      exact comparable_payload (hreads message hlisted) _ (by omega)
    obtain ⟨stored', hstored', hmix'⟩ := storedRows_interleaved hmix hcomparable hstored
    obtain ⟨all, hall, hkeys⟩ := mapM_interleaved hmix' hold
      (mapM_payload fun message hmessage => hreads message (hmember message hmessage).1)
    have hnone := unmatchedOf_again ((hrecent.map ListedMessage.handle).nodup hhandles)
      (hperm.map ownKey) hkeys
    refine ⟨planOf listed limit floor' (unmatchedOf (recentOf since listed)
      (matchIndices (recentOf since listed) all), pairsAt (recentOf since listed) stored'
      (matchIndices (recentOf since listed) all)), ?_, ?_⟩
    · rw [planBackfill, hstored']
      dsimp only
      rw [matchListing, hall]
      rfl
    · rw [planOf, hnone]
      exact lastOf_eq (by rw [List.insertionSort_nil, List.length_nil]; omega)

end Again

/-- **Backfill is idempotent.** `match_listing` pairs each listed message and each row at most once,
the same handle first, and leaves nothing compatible. So after the missing messages of a listing that
is no longer than the limit are stored, among the old rows in their order, planning the same listing
again with the same `since` reports nothing missing. -/
theorem backfill_idempotent (times : Times) :
    (∀ listed stored unmatched pairs, matchListing times listed stored = some (unmatched, pairs) →
      ∃ positions, Matched times listed stored positions ∧
        unmatched = unmatchedOf listed positions ∧ pairs = pairsAt listed stored positions) ∧
    ∀ (listed : List ListedMessage) (history history' : List Row) (since limit : Int)
      (floor floor' : Option Int) (plan : BackfillPlan) (names : ListedMessage → Str)
      (added : List ListedMessage),
      (listed.map ListedMessage.handle).Nodup → (listed.length : Int) ≤ limit →
      (∀ message ∈ listed, times.ReadsBack message.timestamp) →
      planBackfill times listed history since limit floor = some plan →
      added.Perm plan.missing →
      Interleaved history (added.map fun message => historyPayload times (names message) message)
        history' →
      ∃ plan', planBackfill times listed history' since limit floor' = some plan' ∧
        plan'.missing = [] := by
  constructor
  · intro listed stored unmatched pairs h
    obtain ⟨keys, hkeys, heq⟩ := Option.map_eq_some_iff.mp h
    obtain ⟨rfl, rfl⟩ := Prod.mk.inj heq
    exact ⟨matchIndices listed keys, matched hkeys, rfl, rfl⟩
  · intro listed history history' since limit floor floor' plan names added hhandles hlimit hreads
      hplan hadded hmix
    exact missing_again hhandles hlimit hreads hplan hadded hmix floor'

/-- Times written in UTC, of which one is ever written. -/
def plainTimes : Times where
  parse := fun text => some (Groups.utcInstant text)
  isoformat := fun t => if t = 1714557600000000 then "2024-05-01T10:00:00+00:00".toList else []
  mapStamp := fun text => (Groups.utcInstant text).map fun t => (t, true)

theorem backfill_idempotent_hello :
    let hello : ListedMessage := ⟨"message1".toList, "+15551234567".toList, none, "hello".toList,
      1714557600000000, false, by decide, by decide +kernel⟩
    ∃ plan', planBackfill plainTimes [hello] [historyPayload plainTimes [] hello] 0 200 none
      = some plan' ∧ plan'.missing = [] := by
  intro hello
  have hreads : ∀ message ∈ [hello], plainTimes.ReadsBack message.timestamp := by
    have hone : plainTimes.ReadsBack 1714557600000000 := ⟨by decide +kernel, by decide +kernel⟩
    intro message hmessage
    rw [List.mem_singleton.mp hmessage]
    exact hone
  refine (backfill_idempotent plainTimes).2 [hello] [] _ 0 200 none none
    (planOf [hello] 200 none ([hello], [])) (fun _ => []) [hello] (List.nodup_singleton _) (by decide)
    ?_ rfl ?_ (.right .nil)
  · exact hreads
  · rw [planOf, lastOf_eq (by decide)]
    rfl

end BlueFerry.Backfill
