import BlueFerry.Backfill.Plan

/-! # The pair of a handle

`match_listing` pairs a listed message with the stored row of its handle before it looks at any time.
But `plan_backfill` compares only rows whose stored time is not too long before `since`, so the row of a
handle may not get there.
-/

namespace BlueFerry.Backfill

open BlueFerry.Groups (canonicalAddress safeEventAddress)

/-- The row has the sender of the message, and its text. -/
def Alike (message : ListedMessage) (row : Row) : Prop :=
  (safeEventAddress row.toStored).bind canonicalAddress = canonicalAddress message.senderAddress ∧
    bodiesMatch (normalizedBody message.body) (normalizedBody row.body) = true

/-- The row was stored of the message. -/
def Copy (message : ListedMessage) (row : Row) : Prop :=
  row.kind = .smsReceived ∧ row.handle = message.handle ∧ Alike message row

/-- The handle is listed once, its row is stored once, and no other listed message matches the row. -/
structure Sole (message : ListedMessage) (row : Row) (listed : List ListedMessage) (history : List Row) :
    Prop where
  listed : ∃ before after, listed = before ++ message :: after ∧
    ∀ other ∈ before ++ after, other.handle ≠ message.handle ∧ ¬ Alike other row
  stored : ∃ before after, history = before ++ row :: after ∧
    ∀ other ∈ before ++ after, ¬ Copy message other

variable {times : Times} {message : ListedMessage} {row : Row}

/-- Where no other item has the label of this one, the label has one position. -/
theorem position_of_label {α β : Type} {label : α → β} {before after : List α} {a b : α} {i : Nat}
    (hothers : ∀ x ∈ before ++ after, label x ≠ label a) (hi : (before ++ a :: after)[i]? = some b)
    (hb : label b = label a) : i = before.length := by
  rcases Nat.lt_trichotomy i before.length with hlt | heq | hgt
  · rw [List.getElem?_append_left hlt] at hi
    exact absurd hb (hothers b (List.mem_append_left _ (List.mem_of_getElem? hi)))
  · exact heq
  rw [List.getElem?_append_right hgt.le] at hi
  obtain ⟨k, hk⟩ : ∃ k, i - before.length = k + 1 := ⟨i - before.length - 1, by omega⟩
  rw [hk, List.getElem?_cons_succ] at hi
  exact absurd hb (hothers b (List.mem_append_right _ (List.mem_of_getElem? hi)))

/-- What is compared is kept. -/
theorem mem_storedRows {windowStart : Int} {history stored : List Row}
    (h : storedRows times windowStart history = some stored) (hrow : row ∈ history) :
    comparable times windowStart row = some false ∨
      comparable times windowStart row = some true ∧ row ∈ stored := by
  induction history generalizing stored with
  | nil => cases hrow
  | cons head history ih =>
    rw [storedRows] at h
    cases hkept : comparable times windowStart head with
    | none =>
      rw [hkept] at h
      cases h
    | some kept =>
      rw [hkept] at h
      obtain ⟨rows, hrows, rfl⟩ := Option.map_eq_some_iff.mp h
      rcases List.mem_cons.mp hrow with rfl | hrow
      · cases kept with
        | false => exact .inl hkept
        | true => exact .inr ⟨hkept, .head _⟩
      refine (ih hrows hrow).imp_right fun hkept => ⟨hkept.1, ?_⟩
      split
      · exact List.mem_cons_of_mem head hkept.2
      · exact hkept.2

/-- A row of the message that is compared makes a candidate. -/
theorem compatible_of_copy {windowStart : Int} (h : Copy message row)
    (hcompared : comparable times windowStart row = some true) : Compatible times message row := by
  obtain ⟨hkind, hhandle, hidentity, htext⟩ := h
  rw [comparable, if_pos hkind] at hcompared
  obtain ⟨time, htime, -⟩ := Option.map_eq_some_iff.mp hcompared
  have hkey : storedKey times row = some ⟨canonicalAddress message.senderAddress,
      normalizedBody row.body, message.handle, time⟩ := by
    rw [storedKey, htime, hidentity, hhandle]
    rfl
  refine ⟨_, -1, hkey, ?_⟩
  have hsome : canonicalAddress message.senderAddress ≠ none :=
    Option.isSome_iff_ne_none.mp message.identified
  rw [distanceOf, if_neg, if_pos ⟨message.named, rfl⟩]
  rintro (hnone | hother | hdifferent)
  · exact hsome hnone
  · exact hother rfl
  · rw [htext] at hdifferent
    exact Bool.noConfusion hdifferent

/-- **The same handle is paired.** -/
theorem not_unmatched {stored : List Row} {keys : List StoredKey}
    {before after : List ListedMessage} (hkeys : stored.mapM (storedKey times) = some keys)
    (hrow : row ∈ stored) (hsame : SameHandle message row) (hcompatible : Compatible times message row)
    (hothers : ∀ other ∈ before ++ after, other.handle ≠ message.handle) :
    message ∉ unmatchedOf (before ++ message :: after)
      (matchIndices (before ++ message :: after) keys) := by
  intro hunmatched
  obtain ⟨i, hi, hfree⟩ := mem_unmatchedOf.mp hunmatched
  obtain ⟨j, hj⟩ := List.getElem?_of_mem hrow
  obtain ⟨i', j', message', row', hpair, hmeets, hi', hj', hsame'⟩ :=
    (matched hkeys).same_handle_first i j message row hi hj hcompatible hsame
  have hposition : i' = i := by
    rcases hmeets with heq | rfl
    · exact heq
    -- the row was taken, and the handles are different
    obtain rfl : row = row' := Option.some.inj (hj.symm.trans hj')
    have hhandle : message'.handle = message.handle := hsame'.symm.trans hsame
    exact (position_of_label hothers hi' hhandle).trans (position_of_label hothers hi rfl).symm
  exact hfree (hposition ▸ List.mem_map.mpr ⟨(i', j'), hpair, rfl⟩)

theorem mem_missing {listed : List ListedMessage} {limit : Int} {floor : Option Int}
    {found : List ListedMessage × List (ListedMessage × Row)}
    (h : message ∈ (planOf listed limit floor found).missing) : message ∈ found.1 := by
  have h : message ∈ lastOf limit (found.1.insertionSort fun a b => a.timestamp ≤ b.timestamp) := h
  unfold lastOf at h
  split at h
  · exact (List.perm_insertionSort _ _).mem_iff.mp (List.mem_of_mem_drop h)
  · nomatch h

/-- A row that is not compared is of no use. -/
theorem missing_of_not_compared {since : Int} (hsince : since ≤ message.timestamp)
    (hcompared : comparable times (since - dedupWindow) row = some false) :
    ∃ plan, planBackfill times [message] [row] since 1 none = some plan ∧ message ∈ plan.missing := by
  have hstored : storedRows times (since - dedupWindow) [row] = some [] := by
    rw [storedRows, hcompared]
    rfl
  have hrecent : recentOf since [message] = [message] := by simp [recentOf, hsince]
  refine ⟨planOf [message] 1 none ([message], []), ?_, List.mem_singleton.mpr rfl⟩
  rw [planBackfill, hstored, hrecent]
  rfl

/-- **The pair of a handle wins where its row is compared.** `plan_backfill` never reports a listed
message of which the history holds the row, if and only if the message is older than `since` or the
stored time of the row is not more than three hours before it. -/
theorem handle_pair_wins_iff (since : Int) (h : Copy message row) :
    (∀ listed history limit floor plan, Sole message row listed history →
      planBackfill times listed history since limit floor = some plan → message ∉ plan.missing) ↔
    message.timestamp < since ∨ comparable times (since - dedupWindow) row ≠ some false := by
  constructor
  · intro hwins
    by_contra hnot
    push Not at hnot
    obtain ⟨hsince, hcompared⟩ := hnot
    obtain ⟨plan, hplan, hmissing⟩ := missing_of_not_compared hsince hcompared
    refine hwins [message] [row] 1 none plan ⟨⟨[], [], rfl, ?_⟩, ⟨[], [], rfl, ?_⟩⟩ hplan hmissing
    · simp
    · simp
  rintro hcondition listed history limit floor plan ⟨⟨before, after, rfl, hothers⟩, ⟨rows, rows', rfl, -⟩⟩
    hplan hmissing
  rw [planBackfill] at hplan
  cases hstored : storedRows times (since - dedupWindow) (rows ++ row :: rows') with
  | none =>
    rw [hstored] at hplan
    cases hplan
  | some stored =>
    rw [hstored] at hplan
    obtain ⟨found, hmatch, rfl⟩ := Option.map_eq_some_iff.mp hplan
    obtain ⟨keys, hkeys, rfl⟩ := Option.map_eq_some_iff.mp hmatch
    have hunmatched := mem_missing hmissing
    -- the message is recent
    have hrecent := (List.mem_filter.mp ((unmatchedOf_sublist _ _).subset hunmatched)).2
    have hlate : since ≤ message.timestamp := of_decide_eq_true hrecent
    obtain ⟨hcompared, hmem⟩ := (mem_storedRows hstored
      (List.mem_append_right rows (.head _))).resolve_left
        (hcondition.resolve_left (Int.not_lt.mpr hlate))
    have hsplit : recentOf since (before ++ message :: after)
        = recentOf since before ++ message :: recentOf since after := by
      simp [recentOf, hlate]
    rw [hsplit] at hunmatched
    refine not_unmatched hkeys hmem h.2.1 (compatible_of_copy h hcompared) (fun other hother => ?_)
      hunmatched
    refine (hothers other ?_).1
    rcases List.mem_append.mp hother with hother | hother
    · exact List.mem_append_left _ (List.mem_of_mem_filter hother)
    · exact List.mem_append_right _ (List.mem_of_mem_filter hother)

theorem message1_ne_nil : "message1".toList ≠ [] := by decide

theorem plain_identified : (canonicalAddress "+15551234567".toList).isSome = true := by decide +kernel

/-- A message of the evening. -/
def evening : ListedMessage :=
  ⟨"message1".toList, "+15551234567".toList, none, "hello".toList, 1714593600000000, false,
    message1_ne_nil, plain_identified⟩

/-- The row that was stored of it, at this time. -/
def storedAt (time : String) : Row where
  kind := .smsReceived
  handle := "message1".toList
  senderAddress := "+15551234567".toList
  body := "hello".toList
  timestamp := time.toList
  seenAt := time.toList

theorem copy_storedAt (time : String) : Copy evening (storedAt time) :=
  ⟨rfl, rfl, show Alike evening (storedAt "") from ⟨by decide +kernel, by decide +kernel⟩⟩

theorem handle_pair_wins_evening :
    let row := storedAt "2024-05-01T10:00:00+00:00"
    ((∀ listed history limit floor plan, Sole evening row listed history →
      planBackfill plainTimes listed history 1714550400000000 limit floor = some plan →
      evening ∉ plan.missing) ↔ evening.timestamp < 1714550400000000 ∨
        comparable plainTimes (1714550400000000 - dedupWindow) row ≠ some false) ∧
    comparable plainTimes (1714550400000000 - dedupWindow) row = some true :=
  ⟨handle_pair_wins_iff 1714550400000000 (copy_storedAt "2024-05-01T10:00:00+00:00"), by decide +kernel⟩

/-- **A stored message is imported again.** Its row was stored with a time of that morning, for which the
phone now tells one of the evening; a row that is compared no longer is all that there is of it. -/
theorem handle_pair_lost :
    ¬ ∀ (times : Times) (message : ListedMessage) (row : Row) (listed : List ListedMessage)
      (history : List Row) (since limit : Int) (floor : Option Int) (plan : BackfillPlan),
      Copy message row → Sole message row listed history →
      planBackfill times listed history since limit floor = some plan → message ∉ plan.missing := by
  intro hall
  obtain ⟨plan, hplan, hmissing⟩ := @missing_of_not_compared plainTimes evening
    (storedAt "2024-05-01T03:00:00+00:00") 1714550400000000 (by decide) (by decide +kernel)
  refine hall plainTimes evening _ [evening] _ _ 1 none plan (copy_storedAt _)
    ⟨⟨[], [], rfl, ?_⟩, ⟨[], [], rfl, ?_⟩⟩ hplan hmissing
  · nofun
  · nofun

end BlueFerry.Backfill
