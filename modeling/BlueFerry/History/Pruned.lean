import BlueFerry.History.Store

/-! # What retention leaves

`prune_events` applies its limits one after the other: the number of rows, the age of those that are
left, and the size of those that are left then, counted from the newest on. So the rows that remain
are the longest newest part of the unexpired rows among the newest ones that fits (`pruned_rows`).

A payload that fails authentication stops the sweep and everything is rolled back. One that cannot be
read for another reason has no age, and its row stays.
-/

namespace BlueFerry.History

open BlueFerry.Text

/-! ## The limits of a call -/

/-- The limits of the configuration: `HISTORY_RETENTION_DAYS`, `HISTORY_MAX_EVENTS` and
`HISTORY_MAX_PAYLOAD_BYTES`. -/
structure Config where
  retentionDays : Nat
  maxEvents : Nat
  maxPayloadBytes : Nat

/-- `selected or default` -/
def orDefault (selected : Option Nat) (default : Nat) : Nat :=
  match selected with
  | some n => if n = 0 then default else n
  | none => default

/-- The microseconds of a day. -/
def dayMicros : Int := 86400000000

/-- The limits that `prune_events` works with. -/
def limitsOf (config : Config) (now : Int) (retentionDays maxEvents maxPayloadBytes : Option Nat)
    (expireByAge : Bool) : Limits where
  maxEvents := orDefault maxEvents config.maxEvents
  maxPayloadBytes := orDefault maxPayloadBytes config.maxPayloadBytes
  cutoff := now - orDefault retentionDays config.retentionDays * dayMicros
  expireByAge := expireByAge

/-! ## The longest part at the end of a list -/

section Suffix

variable {α : Type} {size : α → Nat} {limit : Nat}

/-- The longest suffix of `l` whose sizes add up to `limit` at most. -/
structure LongestSuffix (size : α → Nat) (limit : Nat) (l s : List α) : Prop where
  suffix : s <:+ l
  fits : (s.map size).sum ≤ limit
  longest : ∀ s', s' <:+ l → (s'.map size).sum ≤ limit → s' <:+ s

theorem longestSuffix_self {l : List α} (h : (l.map size).sum ≤ limit) :
    LongestSuffix size limit l l :=
  ⟨List.suffix_rfl, h, fun _ hs _ => hs⟩

/-- The part that fits ends before the first element, from the end, that does not. -/
theorem longestSuffix_append (front : List α) {a : α} {s : List α} (hfits : (s.map size).sum ≤ limit)
    (hover : limit < ((a :: s).map size).sum) : LongestSuffix size limit (front ++ a :: s) s := by
  have hs : s <:+ front ++ a :: s := (List.suffix_cons a s).trans (List.suffix_append front (a :: s))
  refine ⟨hs, hfits, fun s' hs' hfit => ?_⟩
  rcases List.suffix_or_suffix_of_suffix hs' (List.suffix_append front (a :: s)) with hle | hle
  · rcases List.suffix_cons_iff.mp hle with heq | hle
    · rw [heq] at hfit
      omega
    · exact hle
  · obtain ⟨more, rfl⟩ := hle
    rw [List.map_append, List.sum_append] at hfit
    omega

end Suffix

/-! ## The limits, one by one -/

/-- The newest `n` rows. -/
def newestRows (n : Nat) (rows : List (Nat × Str)) : List (Nat × Str) := rows.drop (rows.length - n)

section

variable (env : Env) (limits : Limits)

/-- The age sweep expires the row. -/
def expired (r : Nat × Str) : Bool :=
  limits.expireByAge &&
    match env.deserialize r.2 with
    | .event event => (eventDatetime env event).any (· < limits.cutoff)
    | _ => false

/-- The count limit keeps the newest rows. -/
theorem rows_counted (n : Nat) (t : Table Str) :
    (t.deleteWhere (fun r => !((t.rows.reverse.take n).map Prod.fst).contains r.1)).rows =
      newestRows n t.rows := by
  have hids : (t.rows.reverse.take n).map Prod.fst =
      ((newestRows n t.rows).map Prod.fst).reverse := by
    rw [newestRows, List.take_reverse, List.map_reverse]
  show t.rows.filter (fun r => !!((t.rows.reverse.take n).map Prod.fst).contains r.1) = _
  have hnodup := t.nodup_ids
  rw [hids]
  unfold newestRows
  have hsplit := (List.take_append_drop (t.rows.length - n) t.rows).symm
  generalize t.rows.take (t.rows.length - n) = older at hsplit
  generalize t.rows.drop (t.rows.length - n) = newer at hsplit ⊢
  rw [hsplit, List.map_append] at hnodup
  rw [hsplit, List.filter_append]
  have holder : older.filter (fun r => !!(newer.map Prod.fst).reverse.contains r.1) = [] := by
    rw [List.filter_eq_nil_iff]
    intro r hr hin
    have hmem : r.1 ∈ newer.map Prod.fst := by simpa using hin
    exact (List.nodup_append.mp hnodup).2.2 _ (List.mem_map_of_mem hr) _ hmem rfl
  have hnewer : newer.filter (fun r => !!(newer.map Prod.fst).reverse.contains r.1) = newer := by
    rw [List.filter_eq_self]
    intro r hr
    have hmem : r.1 ∈ newer.map Prod.fst := List.mem_map_of_mem hr
    simpa using hmem
  rw [holder, hnewer, List.nil_append]

/-- The sweep stops at a payload that fails authentication, and lists the rows to expire
otherwise. -/
theorem expiredIds_eq (hage : limits.expireByAge = true)
    (rows : List (Nat × Str)) :
    expiredIds env limits.cutoff rows =
      if ∃ r ∈ rows, env.deserialize r.2 = .corrupt then none
      else some ((rows.filter (expired env limits)).map Prod.fst) := by
  induction rows with
  | nil => simp [expiredIds]
  | cons r rows ih =>
    obtain ⟨eventId, payload⟩ := r
    have hexists : (∃ r ∈ (eventId, payload) :: rows, env.deserialize r.2 = .corrupt) ↔
        env.deserialize payload = .corrupt ∨ ∃ r ∈ rows, env.deserialize r.2 = .corrupt := by
      simp
    have hexpired : expired env limits (eventId, payload) =
        match env.deserialize payload with
        | .event event => (eventDatetime env event).any (· < limits.cutoff)
        | _ => false := by
      rw [expired, hage, Bool.true_and]
    rw [expiredIds]
    simp only [hexists]
    cases hp : env.deserialize payload with
    | corrupt => simp
    | failed | missing =>
      rw [hp] at hexpired
      rw [ih, List.filter_cons, hexpired, if_neg Bool.false_ne_true]
      simp only [reduceCtorEq, false_or]
    | event event =>
      rw [hp] at hexpired
      dsimp only at hexpired ⊢
      by_cases hold : (eventDatetime env event).any (· < limits.cutoff) = true
      · rw [if_pos hold, ih, List.filter_cons, hexpired, if_pos hold]
        by_cases hcorrupt : ∃ r ∈ rows, env.deserialize r.2 = .corrupt <;> simp [hcorrupt]
      rw [if_neg hold, ih, List.filter_cons, hexpired, if_neg hold]
      by_cases hcorrupt : ∃ r ∈ rows, env.deserialize r.2 = .corrupt <;> simp [hcorrupt]

/-- The rows are taken from the newest on, up to the first one that does not fit. -/
theorem deleteThrough_spec (limit : Nat) (rows : List (Nat × Str)) (total : Nat) :
    (deleteThrough limit total rows = none →
      rows = [] ∨ total + (rows.map (fun r => utf8Size r.2)).sum ≤ limit) ∧
    ∀ through, deleteThrough limit total rows = some through →
      ∃ kept r rest, rows = kept ++ r :: rest ∧ r.1 = through ∧
        (kept = [] ∨ total + (kept.map (fun r => utf8Size r.2)).sum ≤ limit) ∧
        limit < total + (kept.map (fun r => utf8Size r.2)).sum + utf8Size r.2 := by
  induction rows generalizing total with
  | nil => exact ⟨fun _ => Or.inl rfl, fun _ h => nomatch h⟩
  | cons r rows ih =>
    obtain ⟨eventId, payload⟩ := r
    rw [deleteThrough]
    by_cases hover : limit < total + utf8Size payload
    · rw [if_pos hover]
      refine ⟨fun h => (nomatch h), fun through h => ?_⟩
      exact ⟨[], (eventId, payload), rows, rfl, Option.some.inj h, Or.inl rfl, by simpa using hover⟩
    rw [if_neg hover]
    obtain ⟨hnone, hsome⟩ := ih (total + utf8Size payload)
    constructor
    · intro h
      right
      rcases hnone h with rfl | hfits
      · simpa using not_lt.mp hover
      rw [List.map_cons, List.sum_cons]
      dsimp only
      omega
    intro through h
    obtain ⟨kept, r, rest, rfl, hid, hfits, hlimit⟩ := hsome through h
    refine ⟨(eventId, payload) :: kept, r, rest, rfl, hid, Or.inr ?_, ?_⟩
    · rcases hfits with rfl | hfits
      · simpa using not_lt.mp hover
      rw [List.map_cons, List.sum_cons]
      dsimp only
      omega
    · rw [List.map_cons, List.sum_cons]
      dsimp only
      omega

/-- The size limit keeps the longest newest part that fits. -/
theorem longestSuffix_fitted (limit : Nat) (t : Table Str) :
    LongestSuffix (fun r => utf8Size r.2) limit t.rows
      (match deleteThrough limit 0 t.rows.reverse with
        | none => t
        | some through => t.deleteWhere (fun r => r.1 ≤ through)).rows := by
  obtain ⟨hnone, hsome⟩ := deleteThrough_spec limit t.rows.reverse 0
  cases hthrough : deleteThrough limit 0 t.rows.reverse with
  | none =>
    apply longestSuffix_self
    rcases hnone hthrough with hnil | hfits
    · rw [List.reverse_eq_nil_iff.mp hnil]
      exact Nat.zero_le _
    · rwa [List.map_reverse, List.sum_reverse, Nat.zero_add] at hfits
  | some through =>
    obtain ⟨kept, r, rest, hrows, hid, hfits, hover⟩ := hsome through hthrough
    have hrows' : t.rows = rest.reverse ++ r :: kept.reverse := by
      rw [← List.reverse_reverse t.rows, hrows]
      simp
    have hsorted := t.sorted
    have hkept : t.rows.filter (fun r => !decide (r.1 ≤ through)) = kept.reverse := by
      rw [hrows', List.pairwise_append, List.pairwise_cons] at hsorted
      rw [hrows', List.filter_append, List.filter_cons]
      have hfront : rest.reverse.filter (fun r => !decide (r.1 ≤ through)) = [] := by
        rw [List.filter_eq_nil_iff]
        intro s hs
        have hlt := hsorted.2.2 s hs r (.head _)
        simp
        omega
      have hback : kept.reverse.filter (fun r => !decide (r.1 ≤ through)) = kept.reverse := by
        rw [List.filter_eq_self]
        intro s hs
        have hlt := hsorted.2.1.1 s hs
        simp
        omega
      rw [hfront, hback, if_neg (by simp [hid]), List.nil_append]
    show LongestSuffix _ limit t.rows (t.rows.filter (fun r => !decide (r.1 ≤ through)))
    rw [hkept, hrows']
    apply longestSuffix_append
    · rw [List.map_reverse, List.sum_reverse]
      rcases hfits with rfl | hfits
      · exact Nat.zero_le _
      · omega
    · rw [List.map_cons, List.sum_cons, List.map_reverse, List.sum_reverse]
      omega

/-! ## All of them -/

/-- The call leaves the archive alone: it cannot be read, its newest payload cannot, or the age sweep
meets one that fails authentication. -/
def LeftAlone (rows : List (Nat × Str)) : Prop :=
  env.readable = false ∨
    (env.managed = true ∧ ∃ r, rows.getLast? = some r ∧
      (env.deserialize r.2 = .corrupt ∨ env.deserialize r.2 = .failed)) ∨
    (limits.expireByAge = true ∧
      ∃ r ∈ newestRows limits.maxEvents rows, env.deserialize r.2 = .corrupt)

/-- The first two reasons to refuse, as they are checked before the transaction. -/
theorem newest_unreadable_iff (env : Env) (rows : List (Nat × Str)) :
    ((if env.managed then (rows.getLast?.map (fun r => env.deserialize r.2)) else none) =
          some .corrupt ∨
        (if env.managed then (rows.getLast?.map (fun r => env.deserialize r.2)) else none) =
          some .failed) ↔
      env.managed = true ∧ ∃ r, rows.getLast? = some r ∧
        (env.deserialize r.2 = .corrupt ∨ env.deserialize r.2 = .failed) := by
  cases env.managed with
  | false => simp
  | true =>
    cases rows.getLast? with
    | none => simp
    | some r => simp

/-- The sweep of the rows that the count limit leaves. -/
theorem swept_eq (t : Table Str) :
    (if limits.expireByAge then expiredIds env limits.cutoff (newestRows limits.maxEvents t.rows)
      else some []) =
      if limits.expireByAge = true ∧
          ∃ r ∈ newestRows limits.maxEvents t.rows, env.deserialize r.2 = .corrupt then none
      else some (((newestRows limits.maxEvents t.rows).filter (expired env limits)).map Prod.fst) := by
  by_cases hage : limits.expireByAge = true
  · rw [if_pos hage, expiredIds_eq env limits hage]
    simp only [hage, true_and]
  have hnone : (newestRows limits.maxEvents t.rows).filter (expired env limits) = [] := by
    rw [List.filter_eq_nil_iff]
    intro r _
    simp [expired, hage]
  rw [if_neg hage, if_neg (fun h => hage h.1), hnone, List.map_nil]

/-- A table without the rows of some of its ids. -/
theorem rows_deleteIds (t : Table Str) (p : Nat × Str → Bool) :
    (t.deleteWhere (fun r => ((t.rows.filter p).map Prod.fst).contains r.1)).rows =
      t.rows.filter (fun r => !p r) := by
  apply List.filter_congr
  intro r hr
  rw [Bool.not_inj_iff, Bool.eq_iff_iff, List.contains_iff_mem, List.mem_map]
  constructor
  · rintro ⟨s, hs, hid⟩
    rw [← Table.eq_of_id (List.mem_of_mem_filter hs) hr hid]
    exact (List.mem_filter.mp hs).2
  · exact fun hp => ⟨r, List.mem_filter.mpr ⟨hr, hp⟩, rfl⟩

/-- The rows after a sweep that is not stopped. -/
theorem prunedEvents_spec (t : Table Str) :
    (limits.expireByAge = true ∧
        (∃ r ∈ newestRows limits.maxEvents t.rows, env.deserialize r.2 = .corrupt) →
      prunedEvents env limits t = t) ∧
    (¬ (limits.expireByAge = true ∧
        ∃ r ∈ newestRows limits.maxEvents t.rows, env.deserialize r.2 = .corrupt) →
      (prunedEvents env limits t).seq = t.seq ∧
        LongestSuffix (fun r => utf8Size r.2) limits.maxPayloadBytes
          ((newestRows limits.maxEvents t.rows).filter (fun r => !expired env limits r))
          (prunedEvents env limits t).rows) := by
  unfold prunedEvents
  dsimp only
  have hrows := rows_counted limits.maxEvents t
  generalize hcounted :
    t.deleteWhere (fun r => !((t.rows.reverse.take limits.maxEvents).map Prod.fst).contains r.1) =
      counted at hrows ⊢
  have hseq : counted.seq = t.seq := by rw [← hcounted]; rfl
  rw [hrows, swept_eq]
  constructor
  · intro hstop
    rw [if_pos hstop]
  intro hgo
  rw [if_neg hgo]
  dsimp only
  rw [← hrows]
  have haged := rows_deleteIds counted (expired env limits)
  generalize hage :
    counted.deleteWhere (fun r => ((counted.rows.filter (expired env limits)).map
      Prod.fst).contains r.1) = aged at haged ⊢
  have hseq' : aged.seq = t.seq := by rw [← hage, ← hseq]; rfl
  rw [← haged]
  have hfitted := longestSuffix_fitted limits.maxPayloadBytes aged
  cases hthrough : deleteThrough limits.maxPayloadBytes 0 aged.rows.reverse with
  | none | some through =>
    rw [hthrough] at hfitted
    exact ⟨hseq', hfitted⟩

end

/-- **What retention leaves**, for every history and every limits. Nothing else of the database
changes, the rows that remain are the longest newest part that fits of the unexpired rows among the
newest ones, and the count that is returned is that of the rows that went. -/
theorem pruned_rows (env : Env) (config : Config)
    (retentionDays maxEvents maxPayloadBytes : Option Nat) (expireByAge : Bool) (w : World) :
    let limits := limitsOf config env.now retentionDays maxEvents maxPayloadBytes expireByAge
    let after := pruneEvents env limits w
    (LeftAlone env limits w.db.events.rows → after = (w, 0)) ∧
      (¬ LeftAlone env limits w.db.events.rows →
        (∃ t : Table Str, after.1 = { w with db := { w.db with events := t } } ∧
          t.seq = w.db.events.seq) ∧
        LongestSuffix (fun r => utf8Size r.2) limits.maxPayloadBytes
          ((newestRows limits.maxEvents w.db.events.rows).filter (fun r => !expired env limits r))
          after.1.db.events.rows) ∧
      after.1.db.events.rows.Sublist w.db.events.rows ∧
      after.2 + after.1.db.events.count = w.db.events.count := by
  dsimp only
  generalize limitsOf config env.now retentionDays maxEvents maxPayloadBytes expireByAge = limits
  obtain ⟨hstop, hgo⟩ := prunedEvents_spec env limits w.db.events
  have hnewest := newest_unreadable_iff env w.db.events.rows
  unfold pruneEvents
  by_cases hreadable : env.readable = false
  · rw [if_pos hreadable]
    exact ⟨fun _ => rfl, fun h => absurd (Or.inl hreadable) h, List.Sublist.refl _, Nat.zero_add _⟩
  rw [if_neg hreadable]
  by_cases harchive : env.managed = true ∧ ∃ r, w.db.events.rows.getLast? = some r ∧
      (env.deserialize r.2 = .corrupt ∨ env.deserialize r.2 = .failed)
  · rw [if_pos (hnewest.mpr harchive)]
    exact ⟨fun _ => rfl, fun h => absurd (Or.inr (Or.inl harchive)) h, List.Sublist.refl _,
      Nat.zero_add _⟩
  rw [if_neg (fun h => harchive (hnewest.mp h))]
  dsimp only
  by_cases hcorrupt : limits.expireByAge = true ∧
      ∃ r ∈ newestRows limits.maxEvents w.db.events.rows, env.deserialize r.2 = .corrupt
  · rw [hstop hcorrupt, Nat.sub_self]
    exact ⟨fun _ => rfl, fun h => absurd (Or.inr (Or.inr hcorrupt)) h, List.Sublist.refl _,
      Nat.zero_add _⟩
  obtain ⟨hseq, hrows⟩ := hgo hcorrupt
  have hsub : (prunedEvents env limits w.db.events).rows.Sublist w.db.events.rows :=
    hrows.suffix.sublist.trans (List.filter_sublist.trans (List.drop_sublist _ _))
  refine ⟨fun h => ?_, fun _ => ⟨⟨_, rfl, hseq⟩, hrows⟩, hsub, ?_⟩
  · rcases h with h | h | h
    · exact absurd h hreadable
    · exact absurd h harchive
    · exact absurd h hcorrupt
  · have hle : (prunedEvents env limits w.db.events).count ≤ w.db.events.count := hsub.length_le
    omega

/-- The payloads `old`, `odd` and `new` are an event of long ago, one that cannot be parsed, and one
without a date. -/
def oddEnv : Env where
  managed := true
  canRead := true
  canWrite := true
  encrypted := false
  deserialize payload :=
    if payload = "old".toList then .event [("seen_at".toList, .str "1970-01-01".toList)]
    else if payload = "odd".toList then .failed
    else .event []
  serialize _ _ := none
  fromIsoFormat s := if s = "1970-01-01".toList then some 0 else none
  now := 1714557600000000
  random := 0

/-- The history of these three. -/
def oddWorld : World where
  db := { Db.fresh with
    events := ((Table.empty.insert "old".toList).insert "odd".toList).insert "new".toList }

/-- **A payload that cannot be parsed does not stop the sweep**: the first row goes, although the
second one cannot be read. -/
theorem unparsed_row_does_not_stop :
    (∃ r ∈ oddWorld.db.events.rows, oddEnv.deserialize r.2 = .failed) ∧
      (pruneEvents oddEnv (limitsOf ⟨30, 10000, 1000000⟩ oddEnv.now none none none true)
        oddWorld).1.db.events.rows = [(2, "odd".toList), (3, "new".toList)] := by
  decide +kernel

end BlueFerry.History
