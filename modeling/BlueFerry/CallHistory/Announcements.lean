import BlueFerry.CallHistory.Repository

/-! # Which missed calls are announced

Sequences of `replace` for one phone. `after` keeps, with the store, the results of the syncs that
did not raise, and `Consistent` relates the two: an announced key belongs to a missed call that an
earlier result held, and a store with calls is seeded.

The statements are `Seeds`, `ReportsOnce` and `ReportsFirst`. An announced key is lost in two ways
only: it falls out of the retention window (`Expires`), or it is not one of the newest
`MAX_CALL_HISTORY_SEEN_KEYS` (`Evicts`).
-/

namespace BlueFerry.CallHistory

open BlueFerry.Text

/-! ## Keys -/

theorem append_bar_inj {a b x y : Str} (ha : '|' ∉ a) (hb : '|' ∉ b)
    (h : a ++ '|' :: x = b ++ '|' :: y) : a = b ∧ x = y := by
  induction a generalizing b with
  | nil =>
    cases b with
    | nil => exact ⟨rfl, (List.cons.inj h).2⟩
    | cons c b =>
      have hc : '|' = c := (List.cons.inj h).1
      exact absurd (by rw [← hc]; exact .head _) hb
  | cons d a ih =>
    cases b with
    | nil =>
      have hd : d = '|' := (List.cons.inj h).1
      exact absurd (by rw [hd]; exact .head _) ha
    | cons c b =>
      obtain ⟨hcd, hrest⟩ := List.cons.inj h
      have hab := ih (fun hm => ha (.tail _ hm)) (fun hm => hb (.tail _ hm)) hrest
      exact ⟨by rw [hcd, hab.1], hab.2⟩

theorem Direction.bar_not_mem (d : Direction) : '|' ∉ d.text := by
  cases d with
  | missed | incoming | outgoing => decide

theorem Direction.text_inj {d e : Direction} (h : d.text = e.text) : d = e := by
  revert h
  cases d with
  | missed | incoming | outgoing => cases e <;> decide

variable {r : CallRecord} {k : Str} {known : Dict Str Int} {result : ReplaceResult}
  {syncs earlier : List Sync}

/-- Two records with one key are two records of one call, when no timestamp holds a bar. -/
theorem CallRecord.mergeKey_eq_of_key_eq {r' : CallRecord} (h : r.key = r'.key)
    (hr : '|' ∉ r.rawTime) (hr' : '|' ∉ r'.rawTime) : r.mergeKey = r'.mergeKey := by
  have h : r.direction.text ++ '|' :: (r.rawTime ++ '|' :: r.numberIdentity)
      = r'.direction.text ++ '|' :: (r'.rawTime ++ '|' :: r'.numberIdentity) := by
    unfold CallRecord.key at h
    rw [List.append_assoc, List.append_assoc, List.cons_append, List.cons_append] at h
    exact h
  obtain ⟨hdirection, hrest⟩ := append_bar_inj r.direction.bar_not_mem r'.direction.bar_not_mem h
  obtain ⟨htime, hnumber⟩ := append_bar_inj hr hr' hrest
  unfold CallRecord.mergeKey
  rw [htime, hnumber, Direction.text_inj hdirection]

theorem readBack_bar (h : '|' ∉ r.rawTime) : '|' ∉ r.readBack.rawTime :=
  fun hmem => h (List.mem_of_mem_take hmem)

/-! ## Merged lists -/

/-- What `merge_call_history` and the parser of the phone's lists promise: one record a call, and
no bar in a timestamp. -/
structure Merged (records : List CallRecord) : Prop where
  apart : (records.map CallRecord.mergeKey).Nodup
  bars : ∀ r ∈ records, '|' ∉ r.rawTime

/-- Every record is filed under its own key. -/
def Filed (d : Dict (Str × Str × Bool) CallRecord) : Prop :=
  ∀ e ∈ d.items, e.2.mergeKey = e.1 ∧ '|' ∉ e.2.rawTime

theorem preferred_mem (existing record : CallRecord) :
    preferred existing record = existing ∨ preferred existing record = record := by
  unfold preferred
  split
  · exact .inr rfl
  · exact .inl rfl

theorem combined_filed {existing record : CallRecord}
    (hkey : existing.mergeKey = record.mergeKey) (he : '|' ∉ existing.rawTime)
    (hr : '|' ∉ record.rawTime) :
    (combined existing record).mergeKey = record.mergeKey ∧
      '|' ∉ (combined existing record).rawTime := by
  have hbest : (preferred existing record).mergeKey = record.mergeKey ∧
      '|' ∉ (preferred existing record).rawTime := by
    rcases preferred_mem existing record with h | h
    · rw [h]
      exact ⟨hkey, he⟩
    rw [h]
    exact ⟨rfl, hr⟩
  unfold combined
  dsimp only
  split <;> exact hbest

variable {d : Dict (Str × Str × Bool) CallRecord}

theorem Filed.set (hd : Filed d) {k : Str × Str × Bool}
    (hr : r.mergeKey = k ∧ '|' ∉ r.rawTime) : Filed (d.set k r) := by
  rintro ⟨k', r'⟩ he
  rw [Dict.mem_items_iff, Dict.get?_set] at he
  by_cases hk : k' = k
  · rw [if_pos hk] at he
    rw [← Option.some.inj he, hk]
    exact hr
  · rw [if_neg hk] at he
    exact hd (k', r') (Dict.mem_items_iff.mpr he)

variable {records : List CallRecord}

theorem filed_collect (hbars : ∀ r ∈ records, '|' ∉ r.rawTime) (hd : Filed d) :
    Filed (collect d records) := by
  induction records generalizing d with
  | nil => exact hd
  | cons r records ih =>
    have hr : '|' ∉ r.rawTime := hbars r (.head _)
    refine ih (fun x hx => hbars x (.tail _ hx)) (hd.set ?_)
    cases hexisting : d.get? r.mergeKey with
    | none => exact ⟨rfl, hr⟩
    | some existing =>
      have h := hd (r.mergeKey, existing) (Dict.mem_items_iff.mpr hexisting)
      exact combined_filed h.1 h.2 hr

theorem Filed.merged (hd : Filed d) : Merged (d.items.map Prod.snd) := by
  constructor
  · have hkeys : (d.items.map Prod.snd).map CallRecord.mergeKey = d.items.map Prod.fst := by
      rw [List.map_map]
      exact List.map_congr_left (fun e he => (hd e he).1)
    rw [hkeys]
    exact d.nodup
  · intro r hr
    obtain ⟨e, he, rfl⟩ := List.mem_map.mp hr
    exact (hd e he).2

theorem Merged.sublist {xs ys : List CallRecord} (h : Merged ys) (hsub : List.Sublist xs ys) :
    Merged xs :=
  ⟨h.apart.sublist (hsub.map _), fun r hr => h.bars r (hsub.subset hr)⟩

theorem Merged.newestFirst (h : Merged records) : Merged (newestFirst records) := by
  have hperm : (CallHistory.newestFirst records).Perm records := List.perm_insertionSort _ _
  exact ⟨(hperm.map _).nodup_iff.mpr h.apart, fun r hr => h.bars r (hperm.mem_iff.mp hr)⟩

theorem merged_mergeCallHistory (hbars : ∀ r ∈ records, '|' ∉ r.rawTime) :
    Merged (mergeCallHistory records) :=
  have hfiled : Filed (collect .empty records) :=
    filed_collect hbars (fun _ he => absurd he List.not_mem_nil)
  hfiled.merged.newestFirst.sublist (List.take_sublist _ _)

/-- In a merged list no key is there twice. -/
theorem Merged.keys_nodup (h : Merged records) : (records.map CallRecord.key).Nodup := by
  refine List.Nodup.map_on ?_ (List.Nodup.of_map _ h.apart)
  intro r hr r' hr' hkey
  exact List.inj_on_of_nodup_map h.apart hr hr'
    (CallRecord.mergeKey_eq_of_key_eq hkey (h.bars r hr) (h.bars r' hr'))

/-! ## What a sync keeps -/

variable {p : Platform} {s : CallStore} {sync : Sync}

theorem bars_previous (hrows : ∀ r ∈ s.rows, '|' ∉ r.rawTime) :
    ∀ r ∈ previous p s sync, '|' ∉ r.rawTime := by
  intro r hr
  unfold previous at hr
  split at hr
  · exact absurd hr List.not_mem_nil
  obtain ⟨e, he, rfl⟩ := List.mem_map.mp hr
  have hmem : e.1 ∈ s.rows.take MAX_CALL_HISTORY_RECORDS :=
    (List.mem_zipIdx' (List.mem_of_mem_filter he)).2 ▸ List.getElem_mem _
  exact readBack_bar (hrows e.1 (List.mem_of_mem_take hmem))

theorem merged_kept (hrows : ∀ r ∈ s.rows, '|' ∉ r.rawTime) (hlisted : Merged sync.records) :
    Merged (kept p s sync) := by
  have hincoming : Merged (incoming p s sync) := by
    unfold incoming
    split
    · exact hlisted
    refine merged_mergeCallHistory (fun r hr => ?_)
    rcases List.mem_append.mp hr with h | h
    · exact bars_previous hrows r (List.mem_of_mem_filter h)
    · exact hlisted.bars r h
  exact (hincoming.sublist List.filter_sublist).newestFirst.sublist (List.take_sublist _ _)

theorem unexplained_sublist (p : Platform) (options : Dict Str (List Int)) (shift : Int)
    (remaining : List Rendering) (fresh : List CallRecord) :
    List.Sublist (unexplained p options shift remaining fresh) fresh := by
  induction fresh generalizing remaining with
  | nil => exact List.Sublist.refl _
  | cons r fresh ih =>
    unfold unexplained
    cases wallClock p r.rawTime with
    | none => exact (ih remaining).cons_cons r
    | some clock =>
      dsimp only
      split
      · exact (ih _).cons r
      · exact (ih remaining).cons_cons r

theorem unseen_sublist (p : Platform) (missed : List CallRecord) (known : Dict Str Int)
    (current : List CallRecord) (rerendered : Bool) :
    List.Sublist (unseen p missed known current rerendered)
      (missed.filter (fun r => r.key ∉ known.keys)) := by
  unfold unseen
  dsimp only
  split
  · exact List.Sublist.refl _
  cases common (support _).items with
  | none => exact List.Sublist.refl _
  | some shift => exact unexplained_sublist _ _ _ _ _

theorem newMissed_sublist (p : Platform) (s : CallStore) (sync : Sync) :
    List.Sublist (newMissed p s sync) (missed p s sync) := by
  unfold newMissed
  cases seenBefore p s sync with
  | none => exact List.nil_sublist _
  | some known => exact (unseen_sublist p _ known _ _).trans List.filter_sublist

theorem mem_missed : r ∈ missed p s sync ↔ r ∈ kept p s sync ∧ r.direction = .missed := by
  unfold missed
  rw [List.mem_filter, decide_eq_true_eq]

/-! ## The announced keys -/

/-- The announced keys. -/
def CallStore.announcedKeys (s : CallStore) : List Str := (s.seen.getD .empty).keys

theorem mem_keys_announce {missed : List CallRecord} :
    k ∈ (announce known missed).keys ↔ k ∈ known.keys ∨ k ∈ missed.map CallRecord.key := by
  induction missed generalizing known with
  | nil => simp [announce]
  | cons r missed ih =>
    have h : k ∈ (announce (known.set r.key r.occurredAt) missed).keys ↔ _ := ih
    show k ∈ (announce (known.set r.key r.occurredAt) missed).keys ↔ _
    rw [h, Dict.mem_keys_set, List.map_cons, List.mem_cons]
    constructor
    · rintro ((h | h) | h)
      · exact .inr (.inl h)
      · exact .inl h
      · exact .inr (.inr h)
    rintro (h | h | h)
    · exact .inl (.inr h)
    · exact .inl (.inl h)
    · exact .inr h

/-- The announced key falls out of the retention window at this sync. -/
def Expires (p : Platform) (s : CallStore) (sync : Sync) (k : Str) : Prop :=
  ∃ stamp, (announced p s sync).get? k = some stamp ∧ stamp < sync.cutoff

/-- The announced key is inside the window, but not one of the newest that are kept. -/
def Evicts (p : Platform) (s : CallStore) (sync : Sync) (k : Str) : Prop :=
  k ∈ ((inWindow (announced p s sync) sync.cutoff).drop MAX_CALL_HISTORY_SEEN_KEYS).map Prod.fst

theorem mem_inWindow {cutoff : Int} {e : Str × Int} :
    e ∈ inWindow known cutoff ↔ e ∈ known.items ∧ cutoff ≤ e.2 := by
  unfold inWindow
  rw [List.mem_insertionSort, List.mem_filter, decide_eq_true_eq]

theorem retained_subset {cutoff : Int}
    (h : k ∈ (retainedSeen known cutoff).keys) : k ∈ known.keys := by
  obtain ⟨e, he, rfl⟩ := List.mem_map.mp h
  exact List.mem_map.mpr ⟨e, (mem_inWindow.mp (List.mem_of_mem_take he)).1, rfl⟩

/-- An announced key is retained unless it expires or is evicted. -/
theorem mem_retained (h : k ∈ (announced p s sync).keys) (hexpires : ¬ Expires p s sync k)
    (hevicts : ¬ Evicts p s sync k) : k ∈ (retainedSeen (announced p s sync) sync.cutoff).keys := by
  obtain ⟨stamp, hstamp⟩ := Dict.mem_keys_iff.mp h
  have hfresh : sync.cutoff ≤ stamp := by
    by_contra hlt
    exact hexpires ⟨stamp, hstamp, by omega⟩
  have hmem : (k, stamp) ∈ inWindow (announced p s sync) sync.cutoff :=
    mem_inWindow.mpr ⟨Dict.mem_items_iff.mpr hstamp, hfresh⟩
  rw [← List.take_append_drop MAX_CALL_HISTORY_SEEN_KEYS (inWindow _ _)] at hmem
  rcases List.mem_append.mp hmem with htake | hdrop
  · exact List.mem_map.mpr ⟨_, htake, rfl⟩
  · exact absurd (List.mem_map.mpr ⟨_, hdrop, rfl⟩) hevicts

/-! ## Runs -/

/-- The store, and the results of the syncs so far. -/
structure Mirror where
  store : CallStore
  results : List ReplaceResult

def Mirror.new : Mirror := ⟨.empty, []⟩

section

variable (p : Platform)

/-- A sync that raises leaves everything as it was. -/
def Mirror.step (m : Mirror) (sync : Sync) : Mirror :=
  match replace p m.store sync with
  | none => m
  | some (store, result) => ⟨store, m.results ++ [result]⟩

section

variable (syncs : List Sync)

/-- The mirror after a sequence of syncs. -/
def after : Mirror := Machine.run (Mirror.step p) .new syncs

/-- What the next sync returns, if it does not raise. -/
def answer (earlier : List Sync) (sync : Sync) : Option ReplaceResult :=
  (replace p (after p earlier).store sync).map Prod.snd

/-- The keys that a sync reports. -/
def ReplaceResult.reported (result : ReplaceResult) : List Str :=
  result.newMissed.map CallRecord.key

/-- A missed call with this key is in the mirror after the sync. -/
def ReplaceResult.Holds (result : ReplaceResult) (k : Str) : Prop :=
  ∃ r ∈ result.records, r.direction = .missed ∧ r.key = k

/-- A call of the pulled lists that was retained is listed as it was. -/
def ListsUnchanged (s : CallStore) (sync : Sync) : Prop :=
  ∃ r ∈ previous p s sync, r.direction ∈ sync.pulled ∧ r.key ∈ sync.records.map CallRecord.key

/-- All syncs that name a phone name the same one. -/
def OnePhone (phone : Str) (sync : Sync) : Prop :=
  ∀ named, normalizePhoneId p sync.phone = some named → named = phone

/-- The first sync reports nothing. -/
def Seeds : Prop :=
  ∀ earlier sync later result, syncs = earlier ++ sync :: later →
    answer p earlier sync = some result → (after p earlier).results = [] →
    result.newMissed = []

/-- A key is reported again only after its entry has expired or was evicted in between. -/
def ReportsOnce : Prop :=
  (∀ earlier sync later result, syncs = earlier ++ sync :: later →
    answer p earlier sync = some result → result.reported.Nodup) ∧
  ∀ earlier first between second later k result result',
    syncs = earlier ++ first :: between ++ second :: later →
    answer p earlier first = some result →
    answer p (earlier ++ first :: between) second = some result' →
    k ∈ result.reported → k ∈ result'.reported →
    ∃ before sync rest, first :: between = before ++ sync :: rest ∧
      (Expires p (after p (earlier ++ before)).store sync k ∨
        Evicts p (after p (earlier ++ before)).store sync k)

/-- A missed call that no earlier sync kept is reported by the first one that keeps it and lists a
retained call of the pulled lists unchanged. -/
def ReportsFirst : Prop :=
  ∀ earlier sync later k result, syncs = earlier ++ sync :: later →
    answer p earlier sync = some result →
    (∀ r ∈ (after p earlier).results, ¬ r.Holds k) → result.Holds k →
    ListsUnchanged p (after p earlier).store sync → k ∈ result.reported

end

end

/-- What the store says of the results. -/
structure Consistent (phone : Str) (m : Mirror) : Prop where
  new : m.results = [] → m.store.seen = none
  seeded : m.store.rows ≠ [] → m.store.seen.isSome
  held : ∀ k ∈ m.store.announcedKeys, ∃ r ∈ m.results, r.Holds k
  phone : m.store.phone = none ∨ m.store.phone = some phone
  bars : ∀ r ∈ m.store.rows, '|' ∉ r.rawTime

variable {phone : Str}

theorem same_phone (hstored : s.phone = none ∨ s.phone = some phone)
    (hone : OnePhone p phone sync) : otherPhone p s sync = false := by
  unfold otherPhone
  cases hnamed : normalizePhoneId p sync.phone with
  | none => rfl
  | some named =>
    rcases hstored with h | h
    · rw [h]
    rw [h, hone named hnamed]
    simp

theorem seenBefore_same (h : otherPhone p s sync = false) : seenBefore p s sync = s.seen := by
  unfold seenBefore
  rw [h]
  rfl

/-- What `replace` returns, and the store after it. -/
theorem replace_cases {s' : CallStore} (h : replace p s sync = some (s', result)) :
    (s'.rows = (kept p s sync).reverse ∨ s'.rows = s.rows) ∧ s'.seen = seenAfter p s sync ∧
      (s'.phone = s.phone ∨ s'.phone = normalizePhoneId p sync.phone) ∧
      result.records = kept p s sync ∧ result.newMissed = newMissed p s sync := by
  unfold replace at h
  dsimp only at h
  split at h
  · exact absurd h (by simp)
  split at h
  · exact absurd h (by simp)
  obtain ⟨rfl, rfl⟩ := Prod.mk.inj (Option.some.inj h)
  refine ⟨?_, rfl, ?_, rfl, rfl⟩
  · split
    · exact .inl rfl
    · exact .inr rfl
  dsimp only
  split
  · exact .inr rfl
  · exact .inl rfl

theorem seenAfter_isSome (h : (seenBefore p s sync).isSome ∨ kept p s sync ≠ []) :
    seenAfter p s sync = some (retainedSeen (announced p s sync) sync.cutoff) := by
  unfold seenAfter
  rw [if_neg]
  rw [Bool.and_eq_true, Option.isNone_iff_eq_none, List.isEmpty_iff]
  rintro ⟨hnone, hnil⟩
  rcases h with h | h
  · rw [hnone] at h
    exact absurd h (by simp)
  · exact h hnil

/-- An announced key after a sync was announced before it, or is one of a missed call it keeps. -/
theorem mem_seenAfter (h : k ∈ ((seenAfter p s sync).getD .empty).keys) :
    k ∈ s.announcedKeys ∨ k ∈ (missed p s sync).map CallRecord.key := by
  unfold seenAfter at h
  split at h
  · exact absurd h List.not_mem_nil
  have hannounced : k ∈ (announced p s sync).keys := retained_subset h
  unfold announced seenBefore at hannounced
  rcases mem_keys_announce.mp hannounced with hbefore | hmissed
  · left
    split at hbefore
    · exact absurd hbefore List.not_mem_nil
    · exact hbefore
  · exact .inr hmissed

theorem Consistent.step {m : Mirror} (hm : Consistent phone m) (hone : OnePhone p phone sync)
    (hlisted : Merged sync.records) : Consistent phone (m.step p sync) := by
  unfold Mirror.step
  cases hreplace : replace p m.store sync with
  | none => exact hm
  | some pair =>
    obtain ⟨s', result⟩ := pair
    obtain ⟨hrows, hseen, hphone, hrecords, -⟩ := replace_cases hreplace
    have hsame : otherPhone p m.store sync = false := same_phone hm.phone hone
    have hbefore : seenBefore p m.store sync = m.store.seen := seenBefore_same hsame
    constructor
    · intro hnil
      exact absurd hnil (by simp)
    · intro hne
      rw [hseen, seenAfter_isSome]
      · rfl
      · rcases hrows with h | h
        · refine .inr (fun hnil => hne ?_)
          rw [h, hnil]
          rfl
        · rw [hbefore]
          exact .inl (hm.seeded (by rw [← h]; exact hne))
    · intro k hk
      have hk : k ∈ ((seenAfter p m.store sync).getD .empty).keys := by
        rw [← hseen]
        exact hk
      rcases mem_seenAfter hk with h | h
      · obtain ⟨r, hr, hholds⟩ := hm.held k h
        exact ⟨r, List.mem_append_left _ hr, hholds⟩
      obtain ⟨r, hr, hkey⟩ := List.mem_map.mp h
      obtain ⟨hkept, hdirection⟩ := mem_missed.mp hr
      refine ⟨result, List.mem_append_right _ (List.mem_singleton_self _), r, ?_, hdirection, hkey⟩
      rw [hrecords]
      exact hkept
    · rcases hphone with h | h
      · rw [h]
        exact hm.phone
      rw [h]
      cases hnamed : normalizePhoneId p sync.phone with
      | none => exact .inl rfl
      | some named => exact .inr (by rw [hone named hnamed])
    · intro r hr
      rcases hrows with h | h
      · have hkept : r ∈ kept p m.store sync := by
          rw [← List.mem_reverse, ← h]
          exact hr
        exact (merged_kept hm.bars hlisted).bars r hkept
      have hold : r ∈ m.store.rows := by
        rw [← h]
        exact hr
      exact hm.bars r hold

theorem along_of_mem {ok : Sync → Prop} (h : ∀ sync ∈ syncs, ok sync)
    (m : Mirror) : Machine.Along (Mirror.step p) (fun _ sync => ok sync) m syncs := by
  induction syncs generalizing m with
  | nil => trivial
  | cons sync syncs ih =>
    exact ⟨h sync (.head _), ih (fun x hx => h x (.tail _ hx)) (m.step p sync)⟩

/-- Every run for one phone leaves a consistent mirror. -/
theorem consistent_after (hone : ∀ sync ∈ syncs, OnePhone p phone sync)
    (hlisted : ∀ sync ∈ syncs, Merged sync.records) : Consistent phone (after p syncs) := by
  have hok : Machine.Along (Mirror.step p)
      (fun _ sync => OnePhone p phone sync ∧ Merged sync.records) .new syncs :=
    along_of_mem (fun sync h => ⟨hone sync h, hlisted sync h⟩) _
  refine Machine.invariant _ (fun m sync h hm => hm.step h.1 h.2) hok ?_
  refine ⟨fun _ => rfl, fun h => absurd rfl h, fun k hk => ?_, .inl rfl, fun r hr => ?_⟩
  · exact absurd hk List.not_mem_nil
  · exact absurd hr List.not_mem_nil

theorem answer_eq_some (h : answer p earlier sync = some result) :
    ∃ s', replace p (after p earlier).store sync = some (s', result) := by
  obtain ⟨pair, hpair, rfl⟩ := Option.map_eq_some_iff.mp h
  exact ⟨pair.1, hpair⟩

/-- What is reported is not announced yet, and is a missed call of the new mirror. -/
theorem mem_reported (h : answer p earlier sync = some result) (hk : k ∈ result.reported) :
    ∃ known, seenBefore p (after p earlier).store sync = some known ∧ k ∉ known.keys ∧
      k ∈ (missed p (after p earlier).store sync).map CallRecord.key := by
  obtain ⟨s', hreplace⟩ := answer_eq_some h
  obtain ⟨-, -, -, -, hnew⟩ := replace_cases hreplace
  obtain ⟨r, hr, rfl⟩ := List.mem_map.mp hk
  rw [hnew] at hr
  have hmissed := (newMissed_sublist p _ sync).subset hr
  unfold newMissed at hr
  cases hbefore : seenBefore p (after p earlier).store sync with
  | none =>
    rw [hbefore] at hr
    exact absurd hr List.not_mem_nil
  | some known =>
    rw [hbefore] at hr
    have hfresh := (unseen_sublist p _ known _ _).subset hr
    rw [List.mem_filter, decide_eq_true_eq] at hfresh
    exact ⟨known, rfl, hfresh.2, List.mem_map.mpr ⟨r, hmissed, rfl⟩⟩

/-- A key that is announced, or of a missed call that a sync keeps, is announced after the sync,
unless it is lost at it. -/
theorem announced_step {m : Mirror} (hm : Consistent phone m) (hone : OnePhone p phone sync)
    (hk : k ∈ m.store.announcedKeys ∨
      replace p m.store sync ≠ none ∧ k ∈ (missed p m.store sync).map CallRecord.key)
    (hexpires : ¬ Expires p m.store sync k) (hevicts : ¬ Evicts p m.store sync k) :
    k ∈ (m.step p sync).store.announcedKeys := by
  unfold Mirror.step
  cases hreplace : replace p m.store sync with
  | none =>
    rcases hk with h | h
    · exact h
    · exact absurd hreplace h.1
  | some pair =>
    obtain ⟨s', result⟩ := pair
    obtain ⟨-, hseen, -, -, -⟩ := replace_cases hreplace
    have hbefore : seenBefore p m.store sync = m.store.seen :=
      seenBefore_same (same_phone hm.phone hone)
    have hannounced : k ∈ (announced p m.store sync).keys := by
      unfold announced
      rw [hbefore]
      exact mem_keys_announce.mpr (hk.imp id And.right)
    have hsome : (seenBefore p m.store sync).isSome ∨ kept p m.store sync ≠ [] := by
      rcases hk with h | h
      · rw [hbefore]
        unfold CallStore.announcedKeys at h
        cases hnone : m.store.seen with
        | none =>
          rw [hnone] at h
          exact absurd h List.not_mem_nil
        | some known => exact .inl rfl
      · obtain ⟨r, hr, -⟩ := List.mem_map.mp h.2
        exact .inr (List.ne_nil_of_mem (mem_missed.mp hr).1)
    show k ∈ (s'.seen.getD .empty).keys
    rw [hseen, seenAfter_isSome hsome]
    exact mem_retained hannounced hexpires hevicts

/-! ## The announcements of a run -/

theorem after_append (p : Platform) (xs ys : List Sync) :
    after p (xs ++ ys) = Machine.run (Mirror.step p) (after p xs) ys := Machine.run_append _ _ _ _

theorem consistent_before {earlier later : List Sync} (hone : ∀ sync ∈ syncs, OnePhone p phone sync)
    (hlisted : ∀ sync ∈ syncs, Merged sync.records) (hsyncs : syncs = earlier ++ sync :: later) :
    Consistent phone (after p earlier) ∧ OnePhone p phone sync := by
  subst hsyncs
  exact ⟨consistent_after (fun x hx => hone x (List.mem_append_left _ hx))
    (fun x hx => hlisted x (List.mem_append_left _ hx)), hone sync (by simp)⟩

theorem seeds (p : Platform) (hone : ∀ sync ∈ syncs, OnePhone p phone sync)
    (hlisted : ∀ sync ∈ syncs, Merged sync.records) : Seeds p syncs := by
  intro earlier sync later result hsyncs hanswer hfirst
  obtain ⟨hm, hsync⟩ := consistent_before hone hlisted hsyncs
  obtain ⟨s', hreplace⟩ := answer_eq_some hanswer
  obtain ⟨-, -, -, -, hnew⟩ := replace_cases hreplace
  have hbefore : seenBefore p (after p earlier).store sync = none := by
    rw [seenBefore_same (same_phone hm.phone hsync)]
    exact hm.new hfirst
  rw [hnew]
  unfold newMissed
  rw [hbefore]

/-- An announced key stays announced as long as no sync loses it. -/
theorem stays_announced {between : List Sync} {m : Mirror} (hm : Consistent phone m)
    (hone : ∀ sync ∈ between, OnePhone p phone sync)
    (hlisted : ∀ sync ∈ between, Merged sync.records) (hk : k ∈ m.store.announcedKeys)
    (hlost : ∀ before sync rest, between = before ++ sync :: rest →
      ¬ Expires p (Machine.run (Mirror.step p) m before).store sync k ∧
        ¬ Evicts p (Machine.run (Mirror.step p) m before).store sync k) :
    k ∈ (Machine.run (Mirror.step p) m between).store.announcedKeys := by
  induction between generalizing m with
  | nil => exact hk
  | cons sync between ih =>
    have hsync : OnePhone p phone sync := hone sync (.head _)
    have hrecords : Merged sync.records := hlisted sync (.head _)
    obtain ⟨hexpires, hevicts⟩ := hlost [] sync between rfl
    refine ih (hm.step hsync hrecords) (fun x hx => hone x (.tail _ hx))
      (fun x hx => hlisted x (.tail _ hx))
      (announced_step hm hsync (.inl hk) hexpires hevicts) ?_
    intro before x rest hbetween
    exact hlost (sync :: before) x rest (by rw [hbetween, List.cons_append])

theorem reported_nodup (hm : Consistent phone (after p earlier)) (hlisted : Merged sync.records)
    (h : answer p earlier sync = some result) : result.reported.Nodup := by
  obtain ⟨s', hreplace⟩ := answer_eq_some h
  obtain ⟨-, -, -, -, hnew⟩ := replace_cases hreplace
  unfold ReplaceResult.reported
  rw [hnew]
  have hkept : Merged (kept p (after p earlier).store sync) := merged_kept hm.bars hlisted
  exact (hkept.sublist ((newMissed_sublist p _ sync).trans List.filter_sublist)).keys_nodup

theorem reports_once (p : Platform) (hone : ∀ sync ∈ syncs, OnePhone p phone sync)
    (hlisted : ∀ sync ∈ syncs, Merged sync.records) : ReportsOnce p syncs := by
  constructor
  · intro earlier sync later result hsyncs hanswer
    have hm : Consistent phone (after p earlier) :=
      consistent_after (fun x hx => hone x (by rw [hsyncs]; exact List.mem_append_left _ hx))
        (fun x hx => hlisted x (by rw [hsyncs]; exact List.mem_append_left _ hx))
    exact reported_nodup hm (hlisted sync (by rw [hsyncs]; simp)) hanswer
  intro earlier first between second later k result result' hsyncs hfirst hsecond hk hk'
  by_contra hlost
  have hmem : ∀ x ∈ earlier ++ first :: between ++ [second], x ∈ syncs := by
    intro x hx
    rw [hsyncs]
    rw [List.mem_append] at hx ⊢
    exact hx.imp id (fun h => by rw [List.mem_singleton.mp h]; exact .head _)
  have hm : Consistent phone (after p earlier) :=
    consistent_after (fun x hx => hone x (hmem x (by simp [hx])))
      (fun x hx => hlisted x (hmem x (by simp [hx])))
  have honeFirst : OnePhone p phone first := hone first (hmem first (by simp))
  -- no sync from the first one on loses the key
  have hkeeps : ∀ before sync rest, first :: between = before ++ sync :: rest →
      ¬ Expires p (Machine.run (Mirror.step p) (after p earlier) before).store sync k ∧
        ¬ Evicts p (Machine.run (Mirror.step p) (after p earlier) before).store sync k := by
    intro before sync rest hsplit
    rw [← after_append]
    constructor
    · exact fun h => hlost ⟨before, sync, rest, hsplit, .inl h⟩
    · exact fun h => hlost ⟨before, sync, rest, hsplit, .inr h⟩
  have hannounced : k ∈ ((after p earlier).step p first).store.announcedKeys := by
    obtain ⟨-, -, -, hmissed⟩ := mem_reported hfirst hk
    obtain ⟨s', hreplace⟩ := answer_eq_some hfirst
    have hreturned : replace p (after p earlier).store first ≠ none := by
      rw [hreplace]
      exact Option.some_ne_none _
    obtain ⟨hexpires, hevicts⟩ := hkeeps [] first between rfl
    exact announced_step hm honeFirst (.inr ⟨hreturned, hmissed⟩) hexpires hevicts
  have hstays : k ∈ (after p (earlier ++ first :: between)).store.announcedKeys := by
    rw [after_append, Machine.run_cons]
    refine stays_announced (hm.step honeFirst (hlisted first (hmem first (by simp))))
      (fun x hx => hone x (hmem x (by simp [hx])))
      (fun x hx => hlisted x (hmem x (by simp [hx]))) hannounced ?_
    intro before sync rest hbetween
    exact hkeeps (first :: before) sync rest (by rw [hbetween, List.cons_append])
  have hm' : Consistent phone (after p (earlier ++ first :: between)) :=
    consistent_after (fun x hx => hone x (hmem x (List.mem_append_left _ hx)))
      (fun x hx => hlisted x (hmem x (List.mem_append_left _ hx)))
  obtain ⟨known, hknown, hnot, -⟩ := mem_reported hsecond hk'
  rw [seenBefore_same (same_phone hm'.phone (hone second (hmem second (by simp))))] at hknown
  unfold CallStore.announcedKeys at hstays
  rw [hknown] at hstays
  exact hnot hstays

theorem unseen_of_not_rerendered (p : Platform) (missed : List CallRecord) (known : Dict Str Int)
    (current : List CallRecord) :
    unseen p missed known current false = missed.filter (fun r => r.key ∉ known.keys) := by
  unfold unseen
  rw [if_pos (.inr rfl)]

theorem not_rerendered (h : ListsUnchanged p s sync) :
    rerendered ((previous p s sync).filter (fun r => r.direction ∈ sync.pulled)) sync.records
      = false := by
  obtain ⟨r, hr, hpulled, hkey⟩ := h
  unfold rerendered
  rw [Bool.not_eq_false', List.any_eq_true]
  exact ⟨r, List.mem_filter.mpr ⟨hr, decide_eq_true hpulled⟩, decide_eq_true hkey⟩

theorem rows_ne_nil_of_previous (h : r ∈ previous p s sync) : s.rows ≠ [] := by
  intro hnil
  unfold previous readRecords at h
  rw [hnil] at h
  split at h <;> exact absurd h List.not_mem_nil

theorem reports_first (p : Platform) (hone : ∀ sync ∈ syncs, OnePhone p phone sync)
    (hlisted : ∀ sync ∈ syncs, Merged sync.records) : ReportsFirst p syncs := by
  intro earlier sync later k result hsyncs hanswer hnever hholds hunchanged
  obtain ⟨hm, hsync⟩ := consistent_before hone hlisted hsyncs
  obtain ⟨s', hreplace⟩ := answer_eq_some hanswer
  obtain ⟨-, -, -, hrecords, hnew⟩ := replace_cases hreplace
  -- a store with a retained call is seeded
  obtain ⟨r₀, hr₀, -⟩ := id hunchanged
  have hseeded := hm.seeded (rows_ne_nil_of_previous hr₀)
  obtain ⟨known, hknown⟩ := Option.isSome_iff_exists.mp hseeded
  have hbefore : seenBefore p (after p earlier).store sync = some known := by
    rw [seenBefore_same (same_phone hm.phone hsync), hknown]
  obtain ⟨r, hr, hmissed, rfl⟩ := hholds
  have hfresh : r.key ∉ known.keys := by
    intro hmem
    have hannounced : r.key ∈ (after p earlier).store.announcedKeys := by
      unfold CallStore.announcedKeys
      rw [hknown]
      exact hmem
    obtain ⟨x, hx, hxk⟩ := hm.held _ hannounced
    exact hnever x hx hxk
  rw [hrecords] at hr
  refine List.mem_map.mpr ⟨r, ?_, rfl⟩
  rw [hnew]
  unfold newMissed
  rw [hbefore]
  show r ∈ unseen p _ known _ _
  rw [not_rerendered hunchanged, unseen_of_not_rerendered, List.mem_filter]
  exact ⟨mem_missed.mpr ⟨hr, hmissed⟩, decide_eq_true hfresh⟩

/-- **Missed calls are announced once.** Over every sequence of syncs for one phone, the first one
reports nothing, no key is reported twice unless its entry expired or was evicted in between, and a
missed call that was never kept is reported by the first sync that keeps it, if that one lists a
retained call of the pulled lists unchanged. -/
theorem missed_calls_are_announced (p : Platform) (phone : Str) (syncs : List Sync)
    (hone : ∀ sync ∈ syncs, OnePhone p phone sync) (hlisted : ∀ sync ∈ syncs, Merged sync.records) :
    Seeds p syncs ∧ ReportsOnce p syncs ∧ ReportsFirst p syncs :=
  ⟨seeds p hone hlisted, reports_once p hone hlisted, reports_first p hone hlisted⟩

/-! ## Where a call is announced twice, or never -/

/-- Python's tables for plain characters. -/
def plain : Platform where
  digit c := if '0' ≤ c ∧ c ≤ '9' then some (c.toNat - '0'.toNat) else none
  upper s := s.map Char.toUpper
  arrange shifts := shifts

/-- A call, by quarters of an hour since the epoch. -/
def callAt (direction : Direction) (quarters : Int) (rawTime address : String) : CallRecord :=
  ⟨direction, 900000000 * quarters, rawTime.toList, address.toList, some address.toList, none⟩

/-- A sync that reads and writes without an error, by days since the epoch. -/
def syncAt (records : List CallRecord) (days retentionDays : Int)
    (directions : Option (List Direction)) : Sync :=
  ⟨records, dayLength * days, retentionDays, some "aa:bb".toList, directions, true, fun _ => true,
    true, true⟩

/-- A received call. -/
def received : CallRecord := callAt .incoming 1960 "19700121T100000" "101"

/-- A missed call of the day after. -/
def unanswered : CallRecord := callAt .missed 2060 "19700122T110000" "102"

/-- A later call of the same number, a quarter of an hour later by the clock. -/
def unansweredLater : CallRecord := callAt .missed 2061 "19700122T111500" "102"

/-- The missed call is announced; the retention window is made shorter, and longer again. -/
def shortened : List Sync :=
  [syncAt [received] 22 30 none, syncAt [unanswered, received] 22 30 none,
    syncAt [unanswered, received] 25 1 none]

/-- The missed call list holds the received call too, as the phone labels it. -/
def partly : Sync := syncAt [unansweredLater, received] 22 30 (some [.missed])

theorem missed_calls_are_announced_shortened :
    Seeds plain shortened ∧ ReportsOnce plain shortened ∧ ReportsFirst plain shortened :=
  missed_calls_are_announced plain "AA:BB".toList shortened
    (by
      intro sync hsync named hnamed
      have h : ∀ x ∈ shortened, normalizePhoneId plain x.phone = some "AA:BB".toList := by
        decide +kernel
      rw [h sync hsync] at hnamed
      exact (Option.some.inj hnamed).symm)
    (by
      intro sync hsync
      have h : ∀ x ∈ shortened, (x.records.map CallRecord.mergeKey).Nodup ∧
          ∀ r ∈ x.records, '|' ∉ r.rawTime := by decide +kernel
      exact ⟨(h sync hsync).1, (h sync hsync).2⟩)

/-- An entry that expired is announced again when the window is long enough for the call; a missed
call outside the window is not announced by the sync that lists it beside a call that did not
change; nor is one whose sync lists only a call of a list that was not pulled unchanged. -/
theorem announced_twice_or_never :
    ((answer plain (shortened.take 1) (syncAt [unanswered, received] 22 30 none)).map
        ReplaceResult.reported = some [unanswered.key] ∧
      (answer plain shortened (syncAt [unanswered, received] 25 30 none)).map
        ReplaceResult.reported = some [unanswered.key]) ∧
    ((answer plain [syncAt [received] 21 30 none]
        (syncAt [callAt .missed 8 "19700101T020000" "103", received] 22 3 none)).map
        ReplaceResult.reported = some [] ∧
      received.key ∈ (after plain [syncAt [received] 21 30 none]).store.rows.map CallRecord.key) ∧
    ((answer plain [syncAt [unanswered, received] 22 30 none] partly).map
        ReplaceResult.reported = some [] ∧
      (answer plain [syncAt [unanswered, received] 22 30 none] partly).map
        (fun result => decide (unansweredLater ∈ result.records)) = some true ∧
      received.key ∈
        (after plain [syncAt [unanswered, received] 22 30 none]).store.rows.map CallRecord.key) := by
  decide +kernel

end BlueFerry.CallHistory
