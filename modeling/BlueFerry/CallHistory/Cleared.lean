import BlueFerry.CallHistory.Announcements
import BlueFerry.CallHistory.Answers

/-! # Nothing comes back after a clear

A record that is stored or shown is one that the phone listed, read back from the store, or merged
with another one of these (`Derived`). `Clean` says of everything that is kept, shown or on its way
that it comes from what was pulled since the last clear; of the pull in flight only as long as its
generation is the current one. It is kept by every step for each notion of where a record comes from
(`Origin`). Most steps leave the data alone and at most begin a pull (`Sends`).
-/

namespace BlueFerry.CallHistory

open BlueFerry.Text

/-! ## Where a record comes from -/

/-- The record comes from the listed ones. -/
inductive Derived (listed : List CallRecord) : CallRecord → Prop where
  | listed {r : CallRecord} (h : r ∈ listed) : Derived listed r
  | readBack {r : CallRecord} (h : Derived listed r) : Derived listed r.readBack
  | combined {a b : CallRecord} (ha : Derived listed a) (hb : Derived listed b) :
      Derived listed (combined a b)

theorem Derived.mono {xs ys : List CallRecord} (hsub : ∀ r ∈ xs, r ∈ ys) {r : CallRecord}
    (h : Derived xs r) : Derived ys r := by
  induction h with
  | listed hmem => exact .listed (hsub _ hmem)
  | readBack _ ih => exact .readBack ih
  | combined _ _ iha ihb => exact .combined iha ihb

/-- Which records and keys come from the listed records; what the object does with records and keys
does not lead out of them. -/
structure Origin where
  good : List CallRecord → CallRecord → Prop
  goodKey : List CallRecord → Str → Prop
  mono {xs ys : List CallRecord} (h : ∀ r ∈ xs, r ∈ ys) {r : CallRecord} : good xs r → good ys r
  key_mono {xs ys : List CallRecord} (h : ∀ r ∈ xs, r ∈ ys) {k : Str} : goodKey xs k → goodKey ys k
  listed {xs : List CallRecord} {r : CallRecord} : r ∈ xs → good xs r
  readBack {xs : List CallRecord} {r : CallRecord} : good xs r → good xs r.readBack
  combined {xs : List CallRecord} {a b : CallRecord} : good xs a → good xs b → good xs (combined a b)
  key {xs : List CallRecord} {r : CallRecord} : good xs r → goodKey xs r.key

def Origin.derived : Origin where
  good := Derived
  goodKey xs k := ∃ r, Derived xs r ∧ r.key = k
  mono h _ hr := hr.mono h
  key_mono := fun h _ ⟨r, hr, hkey⟩ => ⟨r, hr.mono h, hkey⟩
  listed := .listed
  readBack := .readBack
  combined := .combined
  key hr := ⟨_, hr, rfl⟩

/-- Anything goes. -/
def Origin.any : Origin :=
  ⟨fun _ _ => True, fun _ _ => True, fun _ _ _ => trivial, fun _ _ _ => trivial, fun _ => trivial,
    fun _ => trivial, fun _ _ => trivial, fun _ => trivial⟩

variable {o : Origin}

variable {records : List CallRecord}

section Replace

variable {listed : List CallRecord} {p : Platform} {s : CallStore} {sync : Sync}

theorem derived_collect (hrecords : ∀ r ∈ records, o.good listed r)
    {d : Dict (Str × Str × Bool) CallRecord} (hd : ∀ e ∈ d.items, o.good listed e.2) :
    ∀ e ∈ (collect d records).items, o.good listed e.2 := by
  induction records generalizing d with
  | nil => exact hd
  | cons r records ih =>
    refine ih (fun x hx => hrecords x (List.mem_cons_of_mem _ hx)) ?_
    have hr : o.good listed r := hrecords r (.head _)
    rintro ⟨k, x⟩ he
    rw [Dict.mem_items_iff, Dict.get?_set] at he
    by_cases hk : k = r.mergeKey
    · rw [if_pos hk] at he
      rw [← Option.some.inj he]
      cases hexisting : d.get? r.mergeKey with
      | none => exact hr
      | some existing =>
        have h := hd (r.mergeKey, existing) (Dict.mem_items_iff.mpr hexisting)
        exact o.combined h hr
    · rw [if_neg hk] at he
      exact hd (k, x) (Dict.mem_items_iff.mpr he)

theorem mem_newestFirst {r : CallRecord} :
    r ∈ newestFirst records ↔ r ∈ records := List.mem_insertionSort _

theorem derived_mergeCallHistory (hrecords : ∀ r ∈ records, o.good listed r) :
    ∀ r ∈ mergeCallHistory records, o.good listed r := by
  intro r hr
  obtain ⟨e, he, rfl⟩ := List.mem_map.mp (mem_newestFirst.mp (List.mem_of_mem_take hr))
  exact derived_collect hrecords (fun _ he => absurd he List.not_mem_nil) e he

theorem derived_previous (hrows : ∀ r ∈ s.rows, o.good listed r) :
    ∀ r ∈ previous p s sync, o.good listed r := by
  intro r hr
  unfold previous at hr
  split at hr
  · exact absurd hr List.not_mem_nil
  obtain ⟨e, he, rfl⟩ := List.mem_map.mp hr
  have hmem : e.1 ∈ s.rows.take MAX_CALL_HISTORY_RECORDS :=
    (List.mem_zipIdx' (List.mem_of_mem_filter he)).2 ▸ List.getElem_mem _
  exact o.readBack (hrows e.1 (List.mem_of_mem_take hmem))

/-- What a sync keeps comes from the rows and from what it lists. -/
theorem derived_kept (hrows : ∀ r ∈ s.rows, o.good listed r)
    (hrecords : ∀ r ∈ sync.records, o.good listed r) : ∀ r ∈ kept p s sync, o.good listed r := by
  intro r hr
  have hin : r ∈ incoming p s sync :=
    List.mem_of_mem_filter (mem_newestFirst.mp (List.mem_of_mem_take hr))
  unfold incoming at hin
  split at hin
  · exact hrecords r hin
  refine derived_mergeCallHistory (fun x hx => ?_) r hin
  rcases List.mem_append.mp hx with h | h
  · exact derived_previous hrows x (List.mem_of_mem_filter h)
  · exact hrecords x h

/-- What a sync writes and returns comes from the rows and from what it lists. -/
theorem derived_replace {s' : CallStore} {result : ReplaceResult}
    (h : replace p s sync = some (s', result)) (hrows : ∀ r ∈ s.rows, o.good listed r)
    (hkeys : ∀ k ∈ s.announcedKeys, o.goodKey listed k)
    (hrecords : ∀ r ∈ sync.records, o.good listed r) :
    (∀ r ∈ s'.rows, o.good listed r) ∧
      (∀ k ∈ s'.announcedKeys, o.goodKey listed k) ∧
      ∀ r ∈ result.records ++ result.newMissed, o.good listed r := by
  obtain ⟨hrows', hseen, -, hresult, hnew⟩ := replace_cases h
  have hkept := derived_kept (p := p) hrows hrecords
  refine ⟨?_, ?_, ?_⟩
  · intro r hr
    rcases hrows' with h | h
    · rw [h, List.mem_reverse] at hr
      exact hkept r hr
    rw [h] at hr
    exact hrows r hr
  · intro k hk
    unfold CallStore.announcedKeys at hk
    rw [hseen] at hk
    rcases mem_seenAfter hk with h | h
    · exact hkeys k h
    obtain ⟨r, hr, rfl⟩ := List.mem_map.mp h
    exact o.key (hkept r (mem_missed.mp hr).1)
  · intro r hr
    rw [hresult, hnew] at hr
    rcases List.mem_append.mp hr with h | h
    · exact hkept r h
    · exact hkept r (mem_missed.mp ((newMissed_sublist p s sync).subset h)).1

end Replace

/-! ## What is kept and on its way -/

/-- What the pull has on its way comes from what was pulled since the clear, as long as it is
current. -/
structure Current (o : Origin) (d : Data) (pull : Pull) : Prop where
  cache : pull.cacheGeneration ≤ d.cacheGeneration
  clear : pull.clearGeneration ≤ d.clearGeneration
  collected : pull.cacheGeneration = d.cacheGeneration →
    ∀ r ∈ pull.collected.flatten, o.good d.fresh r
  listed : ∀ records, pull.job = .listed records → pull.cacheGeneration = d.cacheGeneration →
    ∀ r ∈ records, o.good d.fresh r
  replaced : ∀ result, pull.job = .replaced result → pull.clearGeneration = d.clearGeneration →
    ∀ r ∈ result.records ++ result.newMissed, o.good d.fresh r

variable {pull : Pull}

variable {d : Data} {s' : State} {job : Job} {p : Platform}

/-- Only the generations and what was pulled matter for the pull in flight. -/
theorem Current.congr {d' : Data} (h : Current o d pull)
    (heq : (d'.fresh, d'.cacheGeneration, d'.clearGeneration) =
      (d.fresh, d.cacheGeneration, d.clearGeneration)) : Current o d' pull := by
  simp only [Prod.mk.injEq] at heq
  obtain ⟨hfresh, hcache, hclear⟩ := heq
  constructor
  · rw [hcache]
    exact h.cache
  · rw [hclear]
    exact h.clear
  · rw [hcache, hfresh]
    exact h.collected
  · rw [hcache, hfresh]
    exact h.listed
  · rw [hclear, hfresh]
    exact h.replaced

/-- What is kept and shown comes from what was pulled since the clear. -/
structure Sound (o : Origin) (d : Data) : Prop where
  rows : ∀ r ∈ d.store.rows, o.good d.fresh r
  keys : ∀ k ∈ d.store.announcedKeys, o.goodKey d.fresh k
  records : ∀ r ∈ d.records, o.good d.fresh r
  shows : ∀ e ∈ d.shows, ∀ r ∈ e.records, o.good e.fresh r

structure Clean (o : Origin) (s : State) : Prop where
  sound : Sound o s.data
  current : ∀ pull, s.pull = some pull → Current o s.data pull

/-- A pull that has only begun. -/
structure Begun (d : Data) (pull : Pull) : Prop where
  cache : pull.cacheGeneration = d.cacheGeneration
  clear : pull.clearGeneration = d.clearGeneration
  collected : pull.collected = []
  job : pull.job = .list

theorem Begun.current (h : Begun d pull) : Current o d pull where
  cache := le_of_eq h.cache
  clear := le_of_eq h.clear
  collected := by
    intro _ r hr
    rw [h.collected] at hr
    exact absurd hr List.not_mem_nil
  listed := by
    intro records hjob
    rw [h.job] at hjob
    exact absurd hjob (by simp)
  replaced := by
    intro result hjob
    rw [h.job] at hjob
    exact absurd hjob (by simp)

/-- A step that leaves the data alone and at most begins a pull. -/
structure Sends (s s' : State) : Prop where
  data : s'.data = s.data
  pull : ∀ pull, s'.pull = some pull → s.pull = some pull ∨ Begun s.data pull

theorem Sends.refl (s : State) : Sends s s := ⟨rfl, fun _ h => Or.inl h⟩

variable {s : State} {env : Env}

/-- Flags only. -/
theorem Sends.of_eq (hdata : s'.data = s.data) (hpull : s'.pull = s.pull) :
    Sends s s' := ⟨hdata, fun _ h => Or.inl (by rw [← hpull]; exact h)⟩

theorem Sends.trans {t u : State} (h : Sends s t) (h' : Sends t u) : Sends s u := by
  refine ⟨h'.data.trans h.data, fun pull hpull => ?_⟩
  rcases h'.pull pull hpull with hold | hbegun
  · exact h.pull pull hold
  rw [h.data] at hbegun
  exact Or.inr hbegun

theorem Sends.clean (h : Sends s s') (hs : Clean o s) : Clean o s' := by
  constructor
  · rw [h.data]
    exact hs.sound
  intro pull hpull
  rw [h.data]
  rcases h.pull pull hpull with hold | hbegun
  · exact hs.current pull hold
  · exact hbegun.current

theorem settle_sends (s : State) (answer : Answer) (transport : Bool) :
    Sends s (settle s answer transport) := ⟨rfl, fun _ h => nomatch h⟩

section

variable (env : Env)

theorem begin_sends (accepts : Bool) (s : State) (full : Bool) :
    Sends s (begin env accepts s full).1 := by
  unfold begin
  split
  · exact Sends.refl s
  split
  · exact Sends.refl s
  split
  · exact Sends.of_eq rfl rfl
  refine ⟨rfl, fun pull hpull => Or.inr ?_⟩
  rw [← Option.some.inj hpull]
  exact ⟨rfl, rfl, rfl, rfl⟩

theorem startOnce_sends (accepts : Bool) (s : State) (full : Bool) :
    Sends s (startOnce env accepts s full) := by
  have h := begin_sends env accepts s full
  unfold startOnce
  cases hbegin : begin env accepts s full with
  | mk s' error =>
    rw [hbegin] at h
    cases error with
    | none => exact h
    | some error => exact h.trans (settle_sends s' _ _)

theorem Flags.sends (h : Flags s s') : Sends s s' := Sends.of_eq h.data (congrArg Core.pull h.alike)

theorem gate_sends (s : State) (reason : Reason) (full : Bool) :
    Sends s (gate env s reason full).1 := (gate_flags env s reason full).sends

theorem finished_sends (accepts : Bool) (s : State) (answer : Answer)
    (transport : Bool) : Sends s (finished env accepts s answer transport) := by
  have hsettled := settle_sends s answer transport
  rw [finished_eq]
  split
  · have hdequeue : Sends (settle s answer transport) (settle s answer transport).dequeue :=
      Sends.of_eq rfl rfl
    exact (hsettled.trans hdequeue).trans (startOnce_sends env accepts _ true)
  split
  · have hgated := gate_sends env (settle s answer transport).resynced .request s.resyncFull
    have hflags : Sends (settle s answer transport) (settle s answer transport).resynced :=
      Sends.of_eq rfl rfl
    cases hgate : gate env (settle s answer transport).resynced .request s.resyncFull with
    | mk s' full =>
      rw [hgate] at hgated
      have h : Sends s s' := (hsettled.trans hflags).trans hgated
      cases full with
      | none => exact h
      | some full => exact h.trans (startOnce_sends env accepts s' full)
  · exact hsettled

theorem start_sends (s : State) (full : Bool) : Sends s (start env s full) := by
  have hbegun := begin_sends env env.accepts s full
  unfold start
  cases hbegin : begin env env.accepts s full with
  | mk s' error =>
    rw [hbegin] at hbegun
    cases error with
    | none => exact hbegun
    | some error => exact hbegun.trans (finished_sends _ _ _ _ _)

theorem sync_sends (s : State) (callbacks : Bool) : Sends s (sync env s callbacks) := by
  unfold sync
  dsimp only
  split
  · split
    · exact Sends.of_eq rfl rfl
    split
    · exact Sends.of_eq rfl rfl
    split
    · exact Sends.of_eq rfl rfl
    refine Sends.trans ?_ (start_sends env _ true)
    exact Sends.of_eq rfl rfl
  · split
    · exact Sends.refl s
    · exact start_sends env s true

end

/-! ## The steps that touch the data -/

/-- More was pulled. -/
theorem Sound.pulled (h : Clean o s) (records : List CallRecord) :
    Clean o { s with fresh := s.fresh ++ records } := by
  have hsub : ∀ r ∈ s.fresh, r ∈ s.fresh ++ records := fun r hr => List.mem_append_left _ hr
  constructor
  · refine ⟨?_, ?_, ?_, h.sound.shows⟩
    · exact fun r hr => o.mono hsub (h.sound.rows r hr)
    · exact fun k hk => o.key_mono hsub (h.sound.keys k hk)
    · exact fun r hr => o.mono hsub (h.sound.records r hr)
  intro pull hpull
  have hcurrent := h.current pull hpull
  refine ⟨hcurrent.cache, hcurrent.clear, ?_, ?_, ?_⟩
  · exact fun hgen r hr => o.mono hsub (hcurrent.collected hgen r hr)
  · exact fun listed hjob hgen r hr => o.mono hsub (hcurrent.listed listed hjob hgen r hr)
  · exact fun result hjob hgen r hr => o.mono hsub (hcurrent.replaced result hjob hgen r hr)

/-- The pull in flight has another job. -/
theorem run_clean (h : Clean o s)
    (hcurrent : Current o s.data { pull with job := job }) : Clean o (s.run pull job) := by
  constructor
  · exact h.sound
  · intro x hx
    rw [← Option.some.inj hx]
    exact hcurrent

theorem failed_current (h : Current o d pull)
    (hlisted : ∀ records, job ≠ .listed records) (hreplaced : ∀ result, job ≠ .replaced result) :
    Current o d { pull with job := job } where
  cache := h.cache
  clear := h.clear
  collected := h.collected
  listed := fun records hjob => absurd hjob (hlisted records)
  replaced := fun result hjob => absurd hjob (hreplaced result)

section

variable (h : Clean o s)
include h

theorem submit_clean
    (hcurrent : Current o s.data { pull with job := job }) : Clean o (submit env s pull job) := by
  unfold submit
  split
  · exact run_clean h hcurrent
  · exact (finished_sends _ _ _ _ _).clean h

theorem list_clean {records : Option (List CallRecord)}
    (hpull : s.pull = some pull) : Clean o (list s pull records) := by
  have hcurrent := h.current pull hpull
  unfold list
  split
  · exact run_clean h (failed_current hcurrent (fun _ => by simp) (fun _ => by simp))
  · rename_i records _
    have hpulled := Sound.pulled h records
    have hlater := hpulled.current pull hpull
    refine run_clean hpulled { hlater with listed := ?_, replaced := ?_ }
    · intro listed hjob _ r hr
      rw [← Job.listed.inj hjob] at hr
      exact o.listed (List.mem_append_right _ hr)
    · exact fun result hjob => absurd hjob (by simp)
  · exact h

theorem write_clean {disk : Disk} (hpull : s.pull = some pull) : Clean o (write p s pull disk) := by
  have hcurrent := h.current pull hpull
  unfold write
  split
  · exact run_clean h (failed_current hcurrent (fun _ => by simp) (fun _ => by simp))
  rename_i hgen
  have hgen : pull.cacheGeneration = s.cacheGeneration := not_not.mp hgen
  cases hreplace : replace p s.store (pull.replacing s.phone disk) with
  | none => exact run_clean h (failed_current hcurrent (fun _ => by simp) (fun _ => by simp))
  | some pair =>
    obtain ⟨store, result⟩ := pair
    have hmerged : ∀ r ∈ (pull.replacing s.phone disk).records, o.good s.fresh r :=
      derived_mergeCallHistory (hcurrent.collected hgen)
    obtain ⟨hrows, hkeys, hresult⟩ := derived_replace hreplace h.sound.rows h.sound.keys hmerged
    have hwritten : Clean o { s with store := store } :=
      ⟨⟨hrows, hkeys, h.sound.records, h.sound.shows⟩,
        fun x hx => (h.current x hx).congr rfl⟩
    refine run_clean hwritten { hcurrent with listed := ?_, replaced := ?_ }
    · exact fun listed hjob => absurd hjob (by simp)
    · intro result' hjob _
      rw [← Job.replaced.inj hjob]
      exact hresult

theorem discardCache_clean : Clean o (discardCache s) := by
  constructor
  · exact ⟨h.sound.rows, h.sound.keys, fun r hr => absurd hr List.not_mem_nil, h.sound.shows⟩
  intro pull hpull
  have hcurrent := h.current pull hpull
  have hcache : pull.cacheGeneration ≤ s.cacheGeneration := hcurrent.cache
  have hstale : ¬ pull.cacheGeneration = s.cacheGeneration + 1 := by omega
  refine ⟨Nat.le_succ_of_le hcache, hcurrent.clear, ?_, ?_, hcurrent.replaced⟩
  · exact fun hgen => absurd hgen hstale
  · exact fun listed _ hgen => absurd hgen hstale

theorem erased_clean : Clean o { s with store := .empty } := by
  constructor
  · exact ⟨fun r hr => absurd hr List.not_mem_nil, fun k hk => absurd hk List.not_mem_nil,
      h.sound.records, h.sound.shows⟩
  · exact fun pull hpull => (h.current pull hpull).congr rfl

theorem eraseLate_clean {error : SyncError} : Clean o (eraseLate env s error).1 := by
  unfold eraseLate clearCallHistory
  cases env.erasure with
  | erased => exact discardCache_clean (erased_clean h)
  | raisedLate => exact erased_clean h
  | raised => exact h

/-- A result of the current generation is shown. -/
theorem stored_clean {result : ReplaceResult}
    (hresult : ∀ r ∈ result.records ++ result.newMissed, o.good s.fresh r) :
    Clean o (stored env s pull result).1 := by
  unfold stored
  split
  · exact eraseLate_clean h
  split
  · split
    · exact eraseLate_clean h
    · exact discardCache_clean h
  split
  · exact h
  refine ⟨⟨h.sound.rows, h.sound.keys, ?_, ?_⟩, fun pull hpull => (h.current pull hpull).congr rfl⟩
  · exact fun r hr => hresult r (List.mem_append_left _ hr)
  intro e he r hr
  rcases List.mem_append.mp he with hold | hnew
  · exact h.sound.shows e hold r hr
  rw [List.mem_singleton.mp hnew] at hr ⊢
  exact hresult r hr

theorem pulled_clean (hcurrent : Current o s.data pull)
    (hjob : pull.job = .listed records) : Clean o (pulled env s pull records) := by
  have hcollected : pull.cacheGeneration = s.cacheGeneration →
      ∀ r ∈ (pull.collected ++ [records]).flatten, o.good s.fresh r := by
    intro hgen r hr
    rw [List.flatten_append, List.mem_append, List.flatten_cons, List.flatten_nil,
      List.append_nil] at hr
    rcases hr with hold | hnew
    · exact hcurrent.collected hgen r hold
    · exact hcurrent.listed records hjob hgen r hnew
  have hnext : ∀ job : Job, (∀ records, job ≠ .listed records) → (∀ result, job ≠ .replaced result) →
      Current o s.data { pull with collected := pull.collected ++ [records], job := job } :=
    fun job hlisted hreplaced =>
      ⟨hcurrent.cache, hcurrent.clear, hcollected, fun x hx => absurd hx (hlisted x),
        fun x hx => absurd hx (hreplaced x)⟩
  unfold pulled pullNext
  dsimp only
  split
  · split
    · exact (finished_sends _ _ _ _ _).clean h
    split
    · exact (finished_sends _ _ _ _ _).clean h
    · exact submit_clean h (hnext .list (fun _ => by simp) (fun _ => by simp))
  · split
    · exact (finished_sends _ _ _ _ _).clean h
    · exact submit_clean h (hnext .store (fun _ => by simp) (fun _ => by simp))

theorem completed_clean (hpull : s.pull = some pull) : Clean o (completed env s pull) := by
  have hcounted : Clean o s.counted := ⟨h.sound, h.current⟩
  have hcurrent := h.current pull hpull
  unfold completed
  cases hjob : pull.job with
  | list => exact h
  | store => exact h
  | failed error => exact (finished_sends _ _ _ _ _).clean hcounted
  | listed records => exact pulled_clean hcounted hcurrent hjob
  | replaced result =>
    dsimp only
    unfold storedDone
    split
    · exact (finished_sends _ _ _ _ _).clean hcounted
    rename_i hgen
    have hgen : pull.clearGeneration = s.clearGeneration := not_not.mp hgen
    exact (finished_sends _ _ _ _ _).clean
      (stored_clean hcounted (hcurrent.replaced result hjob hgen))

end

/-! ## The steps -/

/-- A clear makes the pull in flight stale, whatever it leaves. -/
theorem stale_clean {any : Origin} (h : Clean any s) (hsound : Sound o s'.data)
    (hpull : s'.pull = s.pull) (hcache : s'.cacheGeneration = s.cacheGeneration + 1)
    (hclear : s'.clearGeneration = s.clearGeneration + 1) : Clean o s' := by
  refine ⟨hsound, fun pull hp => ?_⟩
  obtain ⟨hle, hle', -, -, -⟩ := h.current pull (hpull.symm.trans hp)
  have hle : pull.cacheGeneration ≤ s.cacheGeneration := hle
  have hle' : pull.clearGeneration ≤ s.clearGeneration := hle'
  have hstale : pull.cacheGeneration ≠ s'.cacheGeneration := by omega
  have hstale' : pull.clearGeneration ≠ s'.clearGeneration := by omega
  refine ⟨show _ ≤ s'.cacheGeneration by omega, show _ ≤ s'.clearGeneration by omega, ?_, ?_, ?_⟩
  · exact fun hgen => absurd hgen hstale
  · exact fun listed _ hgen => absurd hgen hstale
  · exact fun result _ hgen => absurd hgen hstale'

/-- A clear that returns leaves nothing, and no pull in flight is current. -/
theorem cleared_clean {any : Origin} (h : Clean any s) (herased : env.erasure = .erased) :
    Clean o (clear env s) := by
  unfold clear clearCallHistory
  rw [herased]
  exact stale_clean h ⟨fun r hr => absurd hr List.not_mem_nil, fun k hk => absurd hk List.not_mem_nil,
    fun r hr => absurd hr List.not_mem_nil, fun e he => absurd he List.not_mem_nil⟩ rfl rfl rfl

/-- A clear that raises has made the pull in flight stale all the same. -/
theorem bumped_clean (h : Clean o s) : Clean o { s with
    cacheGeneration := s.cacheGeneration + 1, clearGeneration := s.clearGeneration + 1 } :=
  stale_clean h ⟨h.sound.rows, h.sound.keys, h.sound.records, h.sound.shows⟩ rfl rfl rfl

theorem clear_clean (h : Clean o s) : Clean o (clear env s) := by
  cases herasure : env.erasure with
  | erased => exact cleared_clean h herasure
  | raisedLate =>
    unfold clear clearCallHistory
    rw [herasure]
    exact erased_clean (bumped_clean h)
  | raised =>
    unfold clear clearCallHistory
    rw [herasure]
    exact bumped_clean h

theorem forgotten_clean (h : Clean o s) :
    Clean o { s with store := { s.store with seen := none } } :=
  ⟨⟨h.sound.rows, fun _ hk => absurd hk List.not_mem_nil, h.sound.records, h.sound.shows⟩,
    fun pull hpull => (h.current pull hpull).congr rfl⟩

theorem storing_clean {disk : Disk} (h : Clean o s)
    (hpull : s.pull = some pull) : Clean o (storing p s pull disk) := by
  unfold storing
  split
  · exact write_clean h hpull
  · exact h

theorem step_clean (input : Env × Input) (h : Clean o s) : Clean o (step p s input) := by
  have hturn := turn_step p s input
  generalize step p s input = s' at hturn ⊢
  cases hturn with
  | flags hflags => exact hflags.sends.clean h
  | started full hflags _ => exact (hflags.sends.trans (start_sends _ _ full)).clean h
  | asked => exact (sync_sends _ s true).clean h
  | worked hpull hworked =>
    rcases hworked with ⟨records, rfl⟩ | ⟨disk, rfl⟩
    · exact list_clean h hpull
    · exact storing_clean h hpull
  | completed hpull => exact completed_clean h hpull
  | cleared => exact clear_clean h
  | forgot => exact forgotten_clean h
  | discarded => exact discardCache_clean h

/-! ## Every run -/

/-- Each request is in one place; it has one answer, or waits for a pull in flight, and six
deliveries are enough to answer it. -/
structure EachAnsweredOnce (p : Platform) (s : State) : Prop where
  once : s.requests.Perm (List.range s.next)
  waits : ∀ n, s.Waiting n → s.pull.isSome
  answered : ∀ n, s.Waiting n → ∀ inputs, s.delivered + 6 ≤ (runFrom p s inputs).delivered →
    (runFrom p s inputs).Answered n

/-- Everything that is stored, and everything that was shown since the last clear that returned,
comes from what was pulled since then. -/
structure NothingFromBefore (s : State) : Prop where
  rows : ∀ r ∈ s.store.rows, Derived s.fresh r
  keys : ∀ k ∈ s.store.announcedKeys, ∃ r, Derived s.fresh r ∧ r.key = k
  records : ∀ r ∈ s.records, Derived s.fresh r
  shows : ∀ e ∈ s.shows, ∀ r ∈ e.records, Derived e.fresh r

/-- **Requests and clears.** After every run, each request has one of its callbacks called once, or
waits for a pull in flight and is answered by it or the next one; and after a clear that returned,
nothing that was pulled before it is stored or shown. -/
theorem requests_answered_and_clears_final (p : Platform) (store : CallStore) (phone : Str)
    (inputs : List (Env × Input)) :
    EachAnsweredOnce p (runFrom p (State.new store phone) inputs) ∧
    ∀ earlier env later, inputs = earlier ++ (env, .clear) :: later → env.erasure = .erased →
      NothingFromBefore (runFrom p (State.new store phone) inputs) := by
  constructor
  · have htracked : Tracked (runFrom p (State.new store phone) inputs) :=
      run_tracked_from inputs (new_tracked store phone)
    constructor
    · exact htracked.ids
    · intro n hn
      obtain ⟨pull, hpull⟩ := htracked.pull_of_waiting hn
      rw [hpull]
      rfl
    · exact fun n hn later hsix => answered_after_six htracked hn hsix
  intro earlier env later hinputs herased
  have hnew : Clean .any (State.new store phone) :=
    ⟨⟨fun _ _ => trivial, fun _ _ => trivial, fun _ _ => trivial, fun _ _ _ _ => trivial⟩,
      fun _ h => nomatch h⟩
  have hany : Clean .any (runFrom p (State.new store phone) earlier) :=
    Machine.always (step p) (fun _ input hs => step_clean input hs) earlier hnew
  have hcleared : Clean .derived (clear env (runFrom p (State.new store phone) earlier)) :=
    cleared_clean hany herased
  have hclean : Clean .derived (runFrom p (State.new store phone) inputs) := by
    rw [hinputs]
    unfold runFrom
    rw [Machine.run_append, Machine.run_cons]
    exact Machine.always (step p) (fun _ input hs => step_clean input hs) later hcleared
  exact ⟨hclean.sound.rows, hclean.sound.keys, hclean.sound.records, hclean.sound.shows⟩

/-- Everything is there, and nothing fails. -/
def ready : Env := ⟨true, true, true, 0, dayLength * 22, true, true, .erased⟩

/-- A request, the first list of its pull, and a clear before that list is delivered. -/
def midway : List (Env × Input) :=
  [(ready, .sync true), (ready, .list (some [unanswered, received])), (ready, .clear),
    (ready, .deliver)]

theorem requests_answered_and_clears_final_midway :
    (runFrom plain (State.new .empty []) midway).answers = [(0, .failure .storageChanged)] ∧
      NothingFromBefore (runFrom plain (State.new .empty []) midway) :=
  ⟨by decide +kernel,
    (requests_answered_and_clears_final plain .empty [] midway).2
      [(ready, .sync true), (ready, .list (some [unanswered, received]))] ready
      [(ready, .deliver)] rfl rfl⟩

end BlueFerry.CallHistory
