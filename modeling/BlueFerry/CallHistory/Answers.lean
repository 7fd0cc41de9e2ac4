import BlueFerry.CallHistory.Sync

/-! # Every request is answered once

`Tracked` says where each request is: answered, among the waiters of the pull in flight, or queued
behind one of the missed calls only. No number is in two places or twice in one, since all of them
together are a permutation of the numbers given out.

`left` counts the jobs that are still to be delivered before a waiting request is answered. It never
grows, and every delivery makes it smaller (`Nearer`), so six deliveries are enough.
-/

namespace BlueFerry.CallHistory

open BlueFerry.Text

/-- The numbers of the requests, by where they are. -/
def State.requests (s : State) : List Nat := s.answers.map Prod.fst ++ (s.waiters ++ s.queued)

/-- Every request is in one place. -/
def State.Ids (s : State) : Prop := s.requests.Perm (List.range s.next)

/-- A pull that lists has a list to get still. -/
def Pull.Lists (pull : Pull) : Prop :=
  match pull.job with
  | .list => pull.collected.length < pull.plan.length
  | .listed _ => pull.collected.length < pull.plan.length
  | _ => True

theorem Pull.plan_pos (pull : Pull) : 0 < pull.plan.length := by
  unfold Pull.plan
  split <;> exact Nat.succ_pos _

structure Tracked (s : State) : Prop where
  ids : s.Ids
  pending : s.pending = s.pull.isSome
  full : ∀ pull, s.pull = some pull → s.pendingFull = pull.full
  waits : s.waiters ≠ [] → s.pull.isSome
  queues : s.queued ≠ [] → ∃ pull, s.pull = some pull ∧ pull.full = false
  lists : ∀ pull, s.pull = some pull → pull.Lists

/-- The requests and the pull. -/
structure Core where
  answers : List (Nat × Answer)
  waiters : List Nat
  queued : List Nat
  next : Nat
  pending : Bool
  pendingFull : Bool
  pull : Option Pull
  delivered : Nat

def State.core (s : State) : Core :=
  { s with }

/-- What is kept and shown, and the generations. -/
structure Data where
  store : CallStore
  records : List CallRecord
  fresh : List CallRecord
  shows : List Show
  cacheGeneration : Nat
  clearGeneration : Nat

def State.data (s : State) : Data :=
  { s with }

/-- A step that leaves the requests and the pull alone. -/
def Alike (s s' : State) : Prop := s'.core = s.core

variable {s s' : State}

theorem Alike.ids (h : Alike s s') (hs : s.Ids) : s'.Ids := by
  have hanswers : s'.answers = s.answers := congrArg Core.answers h
  have hwaiters : s'.waiters = s.waiters := congrArg Core.waiters h
  have hqueued : s'.queued = s.queued := congrArg Core.queued h
  have hnext : s'.next = s.next := congrArg Core.next h
  unfold State.Ids State.requests at hs ⊢
  rw [hanswers, hwaiters, hqueued, hnext]
  exact hs

theorem Alike.tracked (h : Alike s s') (hs : Tracked s) : Tracked s' := by
  have hwaiters : s'.waiters = s.waiters := congrArg Core.waiters h
  have hqueued : s'.queued = s.queued := congrArg Core.queued h
  have hpending : s'.pending = s.pending := congrArg Core.pending h
  have hfull : s'.pendingFull = s.pendingFull := congrArg Core.pendingFull h
  have hpull : s'.pull = s.pull := congrArg Core.pull h
  constructor
  · exact h.ids hs.ids
  · rw [hpending, hpull]
    exact hs.pending
  · rw [hfull, hpull]
    exact hs.full
  · rw [hwaiters, hpull]
    exact hs.waits
  · rw [hqueued, hpull]
    exact hs.queues
  · rw [hpull]
    exact hs.lists

/-- Between pulls nobody is queued. -/
theorem Tracked.idle (h : Tracked s) (hpending : s.pending = false) :
    s.pull = none ∧ s.queued = [] := by
  have hnone : s.pull = none := by
    cases hpull : s.pull with
    | none => rfl
    | some pull =>
      have hsome := h.pending
      rw [hpull, hpending] at hsome
      exact absurd hsome (by simp)
  refine ⟨hnone, ?_⟩
  by_contra hne
  obtain ⟨pull, hpull, -⟩ := h.queues hne
  rw [hnone] at hpull
  exact absurd hpull (by simp)

/-! ## Finishing and starting -/

variable {answer : Answer} {transport : Bool} {p : Platform} {job : Job} {pull' : Pull}

theorem settle_ids (h : s.Ids) : (settle s answer transport).Ids := by
  show (((s.answers ++ s.waiters.map (fun n => (n, answer))).map Prod.fst) ++
    ([] ++ s.queued)).Perm (List.range s.next)
  rw [List.map_append, List.map_map, List.nil_append, List.append_assoc]
  have hid : s.waiters.map (Prod.fst ∘ fun n => (n, answer)) = s.waiters := List.map_id _
  rw [hid]
  exact h

theorem settle_tracked (h : s.Ids) (hqueued : s.queued = []) :
    Tracked (settle s answer transport) where
  ids := settle_ids h
  pending := rfl
  full := nofun
  lists := nofun
  waits := fun hne => absurd rfl hne
  queues := fun hne => absurd hqueued hne

section

variable (env : Env) (accepts : Bool)

theorem begin_ids (full : Bool) (h : s.Ids) :
    (begin env accepts s full).1.Ids ∧ (begin env accepts s full).1.queued = s.queued := by
  unfold begin
  split
  · exact ⟨h, rfl⟩
  split
  · exact ⟨h, rfl⟩
  · split <;> exact ⟨h, rfl⟩

/-- A pull that was begun is there, and its waiters wait for it. -/
theorem begin_tracked (full : Bool) (h : s.Ids) (hqueued : s.queued = [])
    (hbegun : (begin env accepts s full).2 = none) : Tracked (begin env accepts s full).1 := by
  unfold begin at hbegun ⊢
  split at hbegun
  · exact absurd hbegun (by simp)
  rename_i hstopped
  rw [if_neg hstopped]
  split at hbegun
  · exact absurd hbegun (by simp)
  rename_i hwrite
  rw [if_neg hwrite]
  split at hbegun
  · exact absurd hbegun (by simp)
  rename_i haccepts
  rw [if_neg haccepts]
  constructor
  · exact h
  · rfl
  · intro pull hpull
    rw [← Option.some.inj hpull]
  · exact fun _ => rfl
  · exact fun hne => absurd hqueued hne
  · intro pull hpull
    rw [← Option.some.inj hpull]
    exact Pull.plan_pos _

/-- A start whose error only has the waiters answered. -/
def startOnce (s : State) (full : Bool) : State :=
  match begin env accepts s full with
  | (s, none) => s
  | (s, some error) => settle s (.failure error) false

end

variable {env : Env}

variable {accepts full : Bool}

theorem startOnce_tracked (h : s.Ids) (hqueued : s.queued = []) :
    Tracked (startOnce env accepts s full) := by
  unfold startOnce
  cases hbegin : begin env accepts s full with
  | mk s' error =>
    cases error with
    | none =>
      have h' := begin_tracked env accepts full h hqueued
      rw [hbegin] at h'
      exact h' rfl
    | some error =>
      have h' := begin_ids env accepts full h
      rw [hbegin] at h'
      exact settle_tracked h'.1 (h'.2.trans hqueued)

/-- Only flags change: neither the requests and the pull nor the data. -/
structure Flags (s s' : State) : Prop where
  alike : Alike s s'
  data : s'.data = s.data

theorem Flags.refl (s : State) : Flags s s := ⟨rfl, rfl⟩

variable {t u : State}

theorem Flags.trans (h : Flags s t) (h' : Flags t u) : Flags s u :=
  ⟨h'.alike.trans h.alike, h'.data.trans h.data⟩

theorem gate_flags (env : Env) (s : State) (reason : Reason) (full : Bool) :
    Flags s (gate env s reason full).1 := by
  unfold gate
  repeat' split
  all_goals exact ⟨rfl, rfl⟩

theorem gate_alike (env : Env) (s : State) (reason : Reason) (full : Bool) :
    Alike s (gate env s reason full).1 := (gate_flags env s reason full).alike

theorem gate_some {reason : Reason} {full' : Bool}
    (h : gate env s reason full = (s', some full')) : s.pending = false := by
  unfold gate at h
  split at h
  · exact absurd h (by simp)
  split at h
  · split at h <;> exact absurd h (by simp)
  rename_i hpending
  exact Bool.not_eq_true _ ▸ hpending

/-- `_finished`, by its parts. -/
theorem finished_eq (env : Env) (accepts : Bool) (s : State) (answer : Answer) (transport : Bool) :
    finished env accepts s answer transport =
      if s.queued ≠ [] then startOnce env accepts (settle s answer transport).dequeue true
      else if s.resync then
        match gate env (settle s answer transport).resynced .request s.resyncFull with
        | (s, none) => s
        | (s, some full) => startOnce env accepts s full
      else settle s answer transport := rfl

theorem dequeue_ids (h : s.Ids) : s.dequeue.Ids := by
  show (s.answers.map Prod.fst ++ ((s.waiters ++ s.queued) ++ [])).Perm _
  rw [List.append_nil]
  exact h

theorem resynced_alike (s : State) : Alike s s.resynced := rfl

theorem finished_tracked (h : s.Ids) : Tracked (finished env accepts s answer transport) := by
  rw [finished_eq]
  have hsettled : (settle s answer transport).Ids := settle_ids h
  by_cases hqueued : s.queued = []
  · rw [if_neg (not_not_intro hqueued)]
    have hbase : Tracked (settle s answer transport) := settle_tracked h hqueued
    split
    · have hflags : Tracked (settle s answer transport).resynced := (resynced_alike _).tracked hbase
      have halike := gate_alike env (settle s answer transport).resynced .request s.resyncFull
      cases hgate : gate env (settle s answer transport).resynced .request s.resyncFull with
      | mk s' full =>
        rw [hgate] at halike
        cases full with
        | none => exact halike.tracked hflags
        | some full =>
          exact startOnce_tracked (halike.ids hflags.ids)
            ((congrArg Core.queued halike).trans hqueued)
    · exact hbase
  · rw [if_pos hqueued]
    exact startOnce_tracked (dequeue_ids hsettled) rfl

theorem start_tracked (h : s.Ids) (hqueued : s.queued = []) : Tracked (start env s full) := by
  unfold start
  cases hbegin : begin env env.accepts s full with
  | mk s' error =>
    cases error with
    | none =>
      have h' := begin_tracked env env.accepts full h hqueued
      rw [hbegin] at h'
      exact h' rfl
    | some error =>
      have h' := begin_ids env env.accepts full h
      rw [hbegin] at h'
      exact finished_tracked h'.1

/-- How many jobs of the pull are still to be delivered. -/
def Pull.remaining (pull : Pull) : Nat :=
  match pull.job with
  | .list => pull.plan.length - pull.collected.length + 1
  | .listed _ => pull.plan.length - pull.collected.length + 1
  | _ => 1

theorem Pull.remaining_pos (pull : Pull) : 0 < pull.remaining := by
  unfold Pull.remaining
  split
  · exact Nat.succ_pos _
  · exact Nat.succ_pos _
  · exact Nat.one_pos

/-! ## What a step comes to -/

/-- The method that a step runs, after a change of flags where it begins with one. -/
inductive Turn (p : Platform) (env : Env) (s : State) : State → Prop
  | flags {t : State} (h : Flags s t) : Turn p env s t
  | started {t : State} (full : Bool) (h : Flags s t) (hpending : s.pending = false) :
      Turn p env s (start env t full)
  | asked : Turn p env s (sync env s true)
  | worked {pull : Pull} {t : State} (hpull : s.pull = some pull)
      (h : (∃ records, t = list s pull records) ∨ ∃ disk, t = storing p s pull disk) : Turn p env s t
  | completed {pull : Pull} (hpull : s.pull = some pull) : Turn p env s (completed env s pull)
  | cleared : Turn p env s (clear env s)
  | forgot : Turn p env s { s with store := { s.store with seen := none } }
  | discarded : Turn p env s (discardCache s)

theorem turn_refresh (p : Platform) (env : Env) (reason : Reason) (full : Bool) (ht : Flags s t) :
    Turn p env s (refresh env t reason full) := by
  have hgated := ht.trans (gate_flags env t reason full)
  have hpending : t.pending = s.pending := congrArg Core.pending ht.alike
  unfold refresh
  cases hgate : gate env t reason full with
  | mk s' full' =>
    rw [hgate] at hgated
    cases full' with
    | none => exact .flags hgated
    | some full' => exact .started full' hgated (hpending.symm.trans (gate_some hgate))

/-- **Each step is one turn.** -/
theorem turn_step (p : Platform) (s : State) (input : Env × Input) :
    Turn p input.1 s (step p s input) := by
  obtain ⟨env, input⟩ := input
  have hflags : ∀ {t : State}, Flags s t → ∀ (b : Bool) reason full,
      Turn p env s (if b = true then refresh env t reason full else t) := by
    intro t ht b reason full
    split
    · exact turn_refresh p env reason full ht
    · exact .flags ht
  cases input with
  | sync callbacks =>
    cases callbacks with
    | true => exact .asked
    | false =>
      show Turn p env s (if s.pending then s else start env s true)
      split
      · exact .flags (.refl s)
      rename_i hpending
      exact .started true (.refl s) (Bool.eq_false_of_not_eq_true hpending)
  | list records =>
    show Turn p env s (work s fun s pull => list s pull records)
    unfold work
    split
    · exact .flags (.refl s)
    · exact .worked ‹_› (.inl ⟨records, rfl⟩)
  | write disk =>
    show Turn p env s (work s fun s pull => storing p s pull disk)
    unfold work
    split
    · exact .flags (.refl s)
    · exact .worked ‹_› (.inr ⟨disk, rfl⟩)
  | deliver =>
    show Turn p env s (deliver env s)
    unfold deliver
    split
    · exact .flags (.refl s)
    · exact .completed ‹_›
  | clear => exact .cleared
  | forgetPhone => exact .forgot
  | profilesAvailable =>
    show Turn p env s (profilesAvailable env s)
    unfold profilesAvailable
    split
    · exact .flags (.refl s)
    exact hflags (t := { s with
      mapSeen := s.mapSeen || env.map, periodicId := true, initialId := true }) ⟨rfl, rfl⟩ _ _ _
  | storageChanged canRead =>
    show Turn p env s (storageChanged env s canRead)
    unfold storageChanged
    split
    · exact .discarded
    · exact hflags (.refl s) _ _ _
  | requestSync full =>
    show Turn p env s (requestSync s full)
    unfold requestSync
    split
    · exact .flags (.refl s)
    · exact .flags ⟨rfl, rfl⟩
  | phone phone | stop | disable => exact .flags ⟨rfl, rfl⟩
  | initial =>
    show Turn p env s (initial env s)
    unfold initial
    split
    · exact turn_refresh p env _ _ ⟨rfl, rfl⟩
    · exact .flags (.refl s)
  | mapWaitExpired =>
    show Turn p env s (mapWaitExpired env s)
    unfold mapWaitExpired
    split
    · exact hflags (t := { s with mapWaitId := false, mapWaitFinished := true }) ⟨rfl, rfl⟩ _ _ _
    · exact .flags (.refl s)
  | requested =>
    show Turn p env s (requested env s)
    unfold requested
    split
    · exact turn_refresh p env _ _ ⟨rfl, rfl⟩
    · exact .flags (.refl s)
  | periodic =>
    show Turn p env s (periodic env s)
    unfold periodic
    split
    · split
      · exact .flags ⟨rfl, rfl⟩
      · exact turn_refresh p env _ _ (.refl s)
    · exact .flags (.refl s)

/-- The worker leaves the object alone, or gives the pull another job of it. -/
structure Works (s : State) (pull : Pull) (t : State) (job : Job) : Prop where
  alike : Alike s t
  generations : t.cacheGeneration = s.cacheGeneration ∧ t.clearGeneration = s.clearGeneration
  lists : pull.Lists → Pull.Lists { pull with job := job }
  remaining : Pull.remaining { pull with job := job } ≤ pull.remaining

theorem works_list (s : State) (pull : Pull) (records : Option (List CallRecord)) :
    list s pull records = s ∨ ∃ t job, list s pull records = t.run pull job ∧ Works s pull t job := by
  have hpos := pull.remaining_pos
  unfold list
  cases hjob : pull.job with
  | list =>
    have hremaining : pull.remaining = pull.plan.length - pull.collected.length + 1 := by
      rw [Pull.remaining, hjob]
    right
    cases records with
    | none => exact ⟨s, .failed .other, rfl, rfl, ⟨rfl, rfl⟩, fun _ => trivial, hpos⟩
    | some records =>
      refine ⟨{ s with fresh := s.fresh ++ records }, .listed records, rfl, rfl, ⟨rfl, rfl⟩, ?_,
        le_of_eq hremaining.symm⟩
      intro hlists
      rw [Pull.Lists, hjob] at hlists
      exact hlists
  | listed records | store | replaced result | failed error => exact .inl rfl

theorem works_storing (p : Platform) (s : State) (pull : Pull) (disk : Disk) :
    storing p s pull disk = s ∨
      ∃ t job, storing p s pull disk = t.run pull job ∧ Works s pull t job := by
  have hpos := pull.remaining_pos
  unfold storing
  split
  · right
    unfold write
    split
    · exact ⟨s, _, rfl, rfl, ⟨rfl, rfl⟩, fun _ => trivial, hpos⟩
    cases replace p s.store (pull.replacing s.phone disk) with
    | none => exact ⟨s, _, rfl, rfl, ⟨rfl, rfl⟩, fun _ => trivial, hpos⟩
    | some pair =>
      exact ⟨{ s with store := pair.1 }, _, rfl, rfl, ⟨rfl, rfl⟩, fun _ => trivial, hpos⟩
  · exact .inl rfl

variable {pull : Pull}

theorem works_of_worked
    (h : (∃ records, t = list s pull records) ∨ ∃ disk, t = storing p s pull disk) :
    t = s ∨ ∃ u job, t = u.run pull job ∧ Works s pull u job := by
  rcases h with ⟨records, rfl⟩ | ⟨disk, rfl⟩
  · exact works_list s pull records
  · exact works_storing p s pull disk

/-! ## The steps -/

theorem discardCache_alike (s : State) : Alike s (discardCache s) := rfl

theorem clearCallHistory_alike (env : Env) (s : State) : Alike s (clearCallHistory env s).1 := by
  unfold clearCallHistory
  cases env.erasure with
  | erased | raisedLate | raised => rfl

theorem eraseLate_alike (env : Env) (s : State) (error : SyncError) :
    Alike s (eraseLate env s error).1 := by
  unfold eraseLate clearCallHistory
  cases env.erasure with
  | erased | raisedLate | raised => rfl

theorem stored_alike (env : Env) (s : State) (pull : Pull) (result : ReplaceResult) :
    Alike s (stored env s pull result).1 := by
  unfold stored
  split
  · exact eraseLate_alike env s .storageChanged
  split
  · split
    · exact eraseLate_alike env s .stopped
    · rfl
  · split <;> rfl

section

variable (h : Tracked s)
include h

/-- The pull has another job, of the same pull. -/
theorem run_tracked (hpull : s.pull = some pull)
    (hfull : pull'.full = pull.full) (hlists : Pull.Lists { pull' with job := job }) :
    Tracked (s.run pull' job) where
  ids := h.ids
  pending := by
    show s.pending = true
    rw [h.pending, hpull]
    rfl
  full := by
    intro x hx
    rw [← Option.some.inj hx]
    show s.pendingFull = pull'.full
    rw [hfull]
    exact h.full pull hpull
  waits := fun _ => rfl
  queues := by
    intro hne
    obtain ⟨x, hx, hxfull⟩ := h.queues hne
    refine ⟨_, rfl, ?_⟩
    rw [hpull] at hx
    show pull'.full = false
    rw [hfull, Option.some.inj hx]
    exact hxfull
  lists := by
    intro x hx
    rw [← Option.some.inj hx]
    exact hlists

theorem submit_tracked (hpull : s.pull = some pull) (hfull : pull'.full = pull.full)
    (hlists : Pull.Lists { pull' with job := job }) : Tracked (submit env s pull' job) := by
  unfold submit
  split
  · exact run_tracked h hpull hfull hlists
  · exact finished_tracked h.ids

theorem pulled_tracked {records : List CallRecord} (hpull : s.pull = some pull) :
    Tracked (pulled env s pull records) := by
  unfold pulled pullNext
  dsimp only
  split
  · rename_i hlists
    split
    · exact finished_tracked h.ids
    split
    · exact finished_tracked h.ids
    · exact submit_tracked h hpull rfl hlists
  · split
    · exact finished_tracked h.ids
    · exact submit_tracked h hpull rfl trivial

theorem counted_tracked : Tracked s.counted := { h with }

theorem storedDone_tracked {result : ReplaceResult} : Tracked (storedDone env s pull result) := by
  unfold storedDone
  split
  · exact finished_tracked h.ids
  · exact finished_tracked ((stored_alike env s pull result).ids h.ids)

theorem completed_tracked (hpull : s.pull = some pull) : Tracked (completed env s pull) := by
  unfold completed
  cases pull.job with
  | list => exact h
  | store => exact h
  | failed error => exact finished_tracked (counted_tracked h).ids
  | listed records => exact pulled_tracked (counted_tracked h) hpull
  | replaced result => exact storedDone_tracked (counted_tracked h)

theorem sync_tracked {callbacks : Bool} : Tracked (sync env s callbacks) := by
  have hidle : ∀ {s' : State}, s'.pending = s.pending → s'.queued = s.queued → s'.Ids →
      ¬ s'.pending = true → Tracked (start env s' true) := by
    intro s' hpending hqueued hids hnot
    refine start_tracked hids (hqueued.trans (h.idle ?_).2)
    rw [← hpending]
    exact Bool.not_eq_true _ ▸ hnot
  -- the new request takes the next number
  have hnext : (s.requests ++ [s.next]).Perm (List.range (s.next + 1)) := by
    rw [List.range_succ]
    exact h.ids.append_right _
  unfold sync
  split
  · dsimp only
    split
    · refine { h with ids := ?_ }
      refine List.Perm.trans ?_ hnext
      show ((s.answers ++ [(s.next, Answer.failure .other)]).map Prod.fst ++
        (s.waiters ++ s.queued)).Perm (s.requests ++ [s.next])
      unfold State.requests
      rw [List.map_append, List.append_assoc, List.append_assoc]
      exact List.Perm.append_left _ List.perm_append_comm
    split
    · rename_i hqueue
      rw [Bool.and_eq_true, Bool.not_eq_true'] at hqueue
      refine { h with ids := ?_, queues := ?_ }
      · refine List.Perm.trans ?_ hnext
        show (s.answers.map Prod.fst ++ (s.waiters ++ (s.queued ++ [s.next]))).Perm
          (s.requests ++ [s.next])
        unfold State.requests
        rw [List.append_assoc, List.append_assoc]
      intro _
      have hsome : s.pull.isSome := by
        rw [← h.pending]
        exact hqueue.1
      obtain ⟨pull, hpull⟩ := Option.isSome_iff_exists.mp hsome
      exact ⟨pull, hpull, by rw [← h.full pull hpull]; exact hqueue.2⟩
    · have hids : State.Ids { s with next := s.next + 1, waiters := s.waiters ++ [s.next] } := by
        refine List.Perm.trans ?_ hnext
        show (s.answers.map Prod.fst ++ ((s.waiters ++ [s.next]) ++ s.queued)).Perm
          (s.requests ++ [s.next])
        unfold State.requests
        rw [List.append_assoc, List.append_assoc, List.append_assoc]
        exact List.Perm.append_left _ (List.Perm.append_left _ List.perm_append_comm)
      split
      · rename_i hpending
        refine { h with ids := hids, waits := ?_ }
        intro _
        rw [← h.pending]
        exact hpending
      · rename_i hpending
        exact hidle rfl rfl hids hpending
  · split
    · exact h
    rename_i hpending
    exact hidle rfl rfl h.ids hpending

theorem clear_tracked : Tracked (clear env s) := by
  unfold clear
  have hbumped : Tracked { s with
      cacheGeneration := s.cacheGeneration + 1, clearGeneration := s.clearGeneration + 1 } := by
    have halike : Alike s { s with
      cacheGeneration := s.cacheGeneration + 1, clearGeneration := s.clearGeneration + 1 } := rfl
    exact halike.tracked h
  have halike := clearCallHistory_alike env { s with
    cacheGeneration := s.cacheGeneration + 1, clearGeneration := s.clearGeneration + 1 }
  dsimp only
  cases hclear : clearCallHistory env { s with
      cacheGeneration := s.cacheGeneration + 1, clearGeneration := s.clearGeneration + 1 } with
  | mk s' returned =>
    rw [hclear] at halike
    have h' : Tracked s' := halike.tracked hbumped
    cases returned with
    | false => exact h'
    | true =>
      refine { h' with ids := ?_, queues := fun hne => absurd rfl hne }
      refine List.Perm.trans ?_ h'.ids
      show ((s'.answers ++ s'.queued.map (fun n => (n, Answer.failure .storageChanged))).map
        Prod.fst ++ (s'.waiters ++ [])).Perm s'.requests
      have hid : s'.queued.map (Prod.fst ∘ fun n => (n, Answer.failure .storageChanged))
          = s'.queued := List.map_id _
      rw [List.map_append, List.map_map, hid, List.append_nil, List.append_assoc]
      exact List.Perm.append_left _ List.perm_append_comm

end

theorem Works.tracked (hworks : Works s pull t job) (h : Tracked s)
    (hpull : s.pull = some pull) : Tracked (t.run pull job) := by
  have hpull' : t.pull = some pull := (congrArg Core.pull hworks.alike).trans hpull
  exact run_tracked (hworks.alike.tracked h) hpull' rfl (hworks.lists (h.lists pull hpull))

theorem step_tracked (input : Env × Input) (h : Tracked s) : Tracked (step p s input) := by
  have hturn := turn_step p s input
  generalize step p s input = s' at hturn ⊢
  cases hturn with
  | flags hflags => exact hflags.alike.tracked h
  | started full hflags hpending =>
    exact start_tracked (hflags.alike.ids h.ids)
      ((congrArg Core.queued hflags.alike).trans (h.idle hpending).2)
  | asked => exact sync_tracked h
  | worked hpull hworked =>
    rcases works_of_worked hworked with rfl | ⟨t, job, rfl, hworks⟩
    · exact h
    · exact hworks.tracked h hpull
  | completed hpull => exact completed_tracked h hpull
  | cleared => exact clear_tracked h
  | forgot => exact Alike.tracked (s := s) rfl h
  | discarded => exact (discardCache_alike s).tracked h

/-! ## How long a request waits -/

def State.Answered (s : State) (n : Nat) : Prop := n ∈ s.answers.map Prod.fst

def State.Waiting (s : State) (n : Nat) : Prop := n ∈ s.waiters ∨ n ∈ s.queued

/-- How many jobs are to be delivered before the request is answered: a queued one waits for a whole
pull after this one. -/
def State.left (s : State) (n : Nat) : Nat :=
  match s.pull with
  | none => 0
  | some pull => if n ∈ s.waiters then pull.remaining else pull.remaining + 4

/-- The request is answered, or nearer to it by what was delivered. -/
def Nearer (n : Nat) (s s' : State) : Prop :=
  s'.Answered n ∨ s'.Waiting n ∧ s'.left n + s'.delivered ≤ s.left n + s.delivered

variable {n : Nat}

theorem Nearer.trans (hst : Nearer n s t) (htu : Nearer n t u)
    (hkeep : t.Answered n → u.Answered n) : Nearer n s u := by
  rcases hst with h | ⟨-, h⟩
  · exact .inl (hkeep h)
  rcases htu with h' | ⟨hwaiting, h'⟩
  · exact .inl h'
  · exact .inr ⟨hwaiting, by omega⟩

theorem Pull.plan_le (pull : Pull) : pull.plan.length ≤ 3 := by
  unfold Pull.plan
  split
  · exact le_rfl
  · exact Nat.succ_le_of_lt (by decide)

theorem Pull.remaining_le (pull : Pull) : pull.remaining ≤ 4 := by
  have hplan := pull.plan_le
  unfold Pull.remaining
  split <;> omega

/-- A pull of the missed calls only has two jobs. -/
theorem Pull.remaining_le_missed (h : pull.full = false) : pull.remaining ≤ 2 := by
  have hplan : pull.plan.length = 1 := by
    unfold Pull.plan
    rw [h]
    rfl
  unfold Pull.remaining
  split <;> omega

/-- Nobody waits for more than six jobs. -/
theorem left_le (h : Tracked s) (hn : s.Waiting n) : s.left n ≤ 6 := by
  unfold State.left
  cases hpull : s.pull with
  | none => exact Nat.zero_le _
  | some pull =>
    have hle := pull.remaining_le
    by_cases hwaits : n ∈ s.waiters
    · show (if n ∈ s.waiters then pull.remaining else pull.remaining + 4) ≤ 6
      rw [if_pos hwaits]
      omega
    show (if n ∈ s.waiters then pull.remaining else pull.remaining + 4) ≤ 6
    rw [if_neg hwaits]
    have hqueued : n ∈ s.queued := hn.resolve_left hwaits
    obtain ⟨x, hx, hfull⟩ := h.queues (List.ne_nil_of_mem hqueued)
    have hle' := Pull.remaining_le_missed hfull
    rw [hpull] at hx
    rw [← Option.some.inj hx] at hle'
    omega

theorem Tracked.pull_of_waiting (h : Tracked s) (hn : s.Waiting n) :
    ∃ pull, s.pull = some pull := by
  rcases hn with hwaits | hqueued
  · exact Option.isSome_iff_exists.mp (h.waits (List.ne_nil_of_mem hwaits))
  obtain ⟨pull, hpull, -⟩ := h.queues (List.ne_nil_of_mem hqueued)
  exact ⟨pull, hpull⟩

theorem left_pos (h : Tracked s) (hn : s.Waiting n) : 0 < s.left n := by
  obtain ⟨pull, hpull⟩ := h.pull_of_waiting hn
  have hpos := pull.remaining_pos
  unfold State.left
  rw [hpull]
  dsimp only
  split
  · exact hpos
  · omega

theorem left_eq (n : Nat) (h : s.pull = some pull) :
    s.left n = if n ∈ s.waiters then pull.remaining else pull.remaining + 4 := by
  unfold State.left
  rw [h]

/-- What was answered stays answered, and nothing is delivered. -/
structure Onward (s s' : State) : Prop where
  answers : ∃ more, s'.answers = s.answers ++ more
  delivered : s'.delivered = s.delivered

theorem Onward.trans (h : Onward s t) (h' : Onward t u) : Onward s u := by
  obtain ⟨more, hmore⟩ := h.answers
  obtain ⟨more', hmore'⟩ := h'.answers
  refine ⟨⟨more ++ more', ?_⟩, h'.delivered.trans h.delivered⟩
  rw [hmore', hmore, List.append_assoc]

theorem Onward.answered (h : Onward s s') (hn : s.Answered n) : s'.Answered n := by
  obtain ⟨more, hmore⟩ := h.answers
  unfold State.Answered at hn ⊢
  rw [hmore, List.map_append]
  exact List.mem_append_left _ hn

theorem Alike.onward (h : Alike s s') : Onward s s' :=
  ⟨⟨[], by rw [List.append_nil]; exact congrArg Core.answers h⟩, congrArg Core.delivered h⟩

theorem settle_onward (s : State) (answer : Answer) (transport : Bool) :
    Onward s (settle s answer transport) := ⟨⟨_, rfl⟩, rfl⟩

theorem settle_answers (answer : Answer) (transport : Bool) (hn : n ∈ s.waiters) :
    (settle s answer transport).Answered n := by
  show n ∈ (s.answers ++ s.waiters.map (fun n => (n, answer))).map Prod.fst
  rw [List.map_append, List.map_map]
  exact List.mem_append_right _ (List.mem_map.mpr ⟨n, hn, rfl⟩)

section

variable (env : Env) (accepts : Bool)

theorem begin_onward (s : State) (full : Bool) : Onward s (begin env accepts s full).1 := by
  have h : (begin env accepts s full).1.answers = s.answers ∧
      (begin env accepts s full).1.delivered = s.delivered := by
    unfold begin
    repeat' split
    all_goals exact ⟨rfl, rfl⟩
  exact ⟨⟨[], by rw [List.append_nil]; exact h.1⟩, h.2⟩

theorem startOnce_onward (s : State) (full : Bool) : Onward s (startOnce env accepts s full) := by
  have h := begin_onward env accepts s full
  unfold startOnce
  cases hbegin : begin env accepts s full with
  | mk s' error =>
    rw [hbegin] at h
    cases error with
    | none => exact h
    | some error => exact h.trans (settle_onward s' _ _)

theorem finished_onward (s : State) (answer : Answer)
    (transport : Bool) : Onward (settle s answer transport)
      (finished env accepts s answer transport) := by
  have hdequeue : Onward (settle s answer transport) (settle s answer transport).dequeue :=
    ⟨⟨[], (List.append_nil _).symm⟩, rfl⟩
  rw [finished_eq]
  split
  · exact hdequeue.trans (startOnce_onward env accepts _ true)
  split
  · have hgated := (gate_alike env (settle s answer transport).resynced .request
      s.resyncFull).onward
    cases hgate : gate env (settle s answer transport).resynced .request s.resyncFull with
    | mk s' full =>
      rw [hgate] at hgated
      have h : Onward (settle s answer transport) s' := (resynced_alike _).onward.trans hgated
      cases full with
      | none => exact h
      | some full => exact h.trans (startOnce_onward env accepts s' full)
  · exact ⟨⟨[], (List.append_nil _).symm⟩, rfl⟩

/-- The waiters of a pull that begins are answered at once, or wait for its four jobs. -/
theorem startOnce_waits (full : Bool) (hn : n ∈ s.waiters) :
    (startOnce env accepts s full).Answered n ∨
      (startOnce env accepts s full).Waiting n ∧ (startOnce env accepts s full).left n ≤ 4 := by
  have hsame : (begin env accepts s full).1.waiters = s.waiters := by
    unfold begin
    repeat' split
    all_goals rfl
  unfold startOnce
  cases hbegin : begin env accepts s full with
  | mk s' error =>
    rw [hbegin] at hsame
    have hn' : n ∈ s'.waiters := by
      rw [hsame]
      exact hn
    cases error with
    | some error => exact .inl (settle_answers _ _ hn')
    | none =>
      refine .inr ⟨.inl hn', ?_⟩
      unfold State.left
      cases s'.pull with
      | none => exact Nat.zero_le _
      | some pull =>
        dsimp only
        rw [if_pos hn']
        exact pull.remaining_le

/-- The end of a pull answers its waiters; the queued requests wait for the next one. -/
theorem finished_waits (answer : Answer) (transport : Bool)
    (hn : s.Waiting n) : (finished env accepts s answer transport).Answered n ∨
      n ∉ s.waiters ∧ (finished env accepts s answer transport).Waiting n ∧
        (finished env accepts s answer transport).left n ≤ 4 := by
  by_cases hwaits : n ∈ s.waiters
  · exact .inl ((finished_onward env accepts s answer transport).answered
      (settle_answers answer transport hwaits))
  have hqueued : n ∈ s.queued := hn.resolve_left hwaits
  have hmem : n ∈ (settle s answer transport).dequeue.waiters := by
    exact hqueued
  rw [finished_eq, if_pos (List.ne_nil_of_mem hqueued)]
  rcases startOnce_waits env accepts true hmem with h | h
  · exact .inl h
  · exact .inr ⟨hwaits, h⟩

end

/-- The end of a pull, after one of its jobs was delivered. -/
theorem finished_nearer (hpull : s.pull = some pull)
    (hsame : s'.waiters = s.waiters ∧ s'.queued = s.queued ∧ s'.delivered = s.delivered + 1)
    (hn : s.Waiting n) : Nearer n s (finished env accepts s' answer transport) := by
  obtain ⟨hwaiters, hqueued, hdelivered⟩ := hsame
  have hn' : s'.Waiting n := by
    unfold State.Waiting at hn ⊢
    rw [hwaiters, hqueued]
    exact hn
  rcases finished_waits env accepts answer transport hn' with h | ⟨hnot, hwaiting, hleft⟩
  · exact .inl h
  refine .inr ⟨hwaiting, ?_⟩
  have hcount : (finished env accepts s' answer transport).delivered = s.delivered + 1 := by
    rw [(finished_onward env accepts s' answer transport).delivered]
    exact hdelivered
  have hpos := pull.remaining_pos
  rw [hwaiters] at hnot
  rw [hcount, left_eq n hpull, if_neg hnot]
  omega

theorem Alike.nearer (h : Alike s s') (hn : s.Waiting n) : Nearer n s s' := by
  have hwaiters : s'.waiters = s.waiters := congrArg Core.waiters h
  have hqueued : s'.queued = s.queued := congrArg Core.queued h
  have hpull : s'.pull = s.pull := congrArg Core.pull h
  have hdelivered : s'.delivered = s.delivered := congrArg Core.delivered h
  right
  constructor
  · unfold State.Waiting
    rw [hwaiters, hqueued]
    exact hn
  · unfold State.left
    rw [hpull, hwaiters, hdelivered]

/-- The pull has another job, after `k` of its jobs were delivered. -/
theorem run_nearer (k : Nat) (job : Job) (hpull : s.pull = some pull)
    (ht : t.waiters = s.waiters ∧ t.queued = s.queued ∧ t.delivered = s.delivered + k)
    (hle : Pull.remaining { pull' with job := job } + k ≤ pull.remaining) (hn : s.Waiting n) :
    Nearer n s (t.run pull' job) := by
  obtain ⟨hwaiters, hqueued, hdelivered⟩ := ht
  right
  constructor
  · show n ∈ t.waiters ∨ n ∈ t.queued
    rw [hwaiters, hqueued]
    exact hn
  rw [left_eq n hpull, left_eq (s := t.run pull' job) n rfl]
  show (if n ∈ t.waiters then _ else _) + t.delivered ≤ _
  rw [hwaiters, hdelivered]
  split <;> omega

theorem submit_nearer (hpull : s.pull = some pull)
    (ht : t.waiters = s.waiters ∧ t.queued = s.queued ∧ t.delivered = s.delivered + 1)
    (hle : Pull.remaining { pull' with job := job } + 1 ≤ pull.remaining) (hn : s.Waiting n) :
    Nearer n s (submit env t pull' job) := by
  unfold submit
  split
  · exact run_nearer 1 job hpull ht hle hn
  · exact finished_nearer hpull ht hn

theorem pulled_nearer {listed : List CallRecord} {records : List CallRecord}
    (hpull : s.pull = some pull) (hlists : pull.Lists) (hjob : pull.job = .listed listed)
    (ht : t.waiters = s.waiters ∧ t.queued = s.queued ∧ t.delivered = s.delivered + 1)
    (hn : s.Waiting n) : Nearer n s (pulled env t pull records) := by
  have hremaining : pull.remaining = pull.plan.length - pull.collected.length + 1 := by
    unfold Pull.remaining
    rw [hjob]
  have hlt : pull.collected.length < pull.plan.length := by
    unfold Pull.Lists at hlists
    rw [hjob] at hlists
    exact hlists
  have hlength : (pull.collected ++ [records]).length = pull.collected.length + 1 := by
    rw [List.length_append, List.length_singleton]
  unfold pulled pullNext
  dsimp only
  split
  · split
    · exact finished_nearer hpull ht hn
    split
    · exact finished_nearer hpull ht hn
    refine submit_nearer hpull ht ?_ hn
    show pull.plan.length - (pull.collected ++ [records]).length + 1 + 1 ≤ pull.remaining
    omega
  split
  · exact finished_nearer hpull ht hn
  refine submit_nearer hpull ht ?_ hn
  show 1 + 1 ≤ pull.remaining
  omega

theorem stored_same (env : Env) (s : State) (pull : Pull) (result : ReplaceResult) :
    (stored env s pull result).1.waiters = s.waiters ∧
      (stored env s pull result).1.queued = s.queued ∧
      (stored env s pull result).1.delivered = s.delivered :=
  have h := stored_alike env s pull result
  ⟨congrArg Core.waiters h, congrArg Core.queued h, congrArg Core.delivered h⟩

theorem completed_nearer (hs : Tracked s) (hpull : s.pull = some pull) (hn : s.Waiting n) :
    Nearer n s (completed env s pull) := by
  have hcounted : s.counted.waiters = s.waiters ∧ s.counted.queued = s.queued ∧
      s.counted.delivered = s.delivered + 1 := ⟨rfl, rfl, rfl⟩
  unfold completed
  cases hjob : pull.job with
  | list | store => exact Alike.nearer rfl hn
  | failed error => exact finished_nearer hpull hcounted hn
  | listed records => exact pulled_nearer hpull (hs.lists pull hpull) hjob hcounted hn
  | replaced result =>
    dsimp only
    unfold storedDone
    split
    · exact finished_nearer hpull hcounted hn
    obtain ⟨hwaiters, hqueued, hdelivered⟩ := stored_same env s.counted pull result
    exact finished_nearer hpull ⟨hwaiters, hqueued, hdelivered⟩ hn

/-- While a request waits, nothing else starts a pull. -/
theorem Tracked.busy (h : Tracked s) (hn : s.Waiting n) : s.pending = true := by
  obtain ⟨pull, hpull⟩ := h.pull_of_waiting hn
  rw [h.pending, hpull]
  rfl

theorem Works.nearer (hworks : Works s pull t job) (hpull : s.pull = some pull)
    (hn : s.Waiting n) : Nearer n s (t.run pull job) := by
  have hwaiters : t.waiters = s.waiters := congrArg Core.waiters hworks.alike
  have hqueued : t.queued = s.queued := congrArg Core.queued hworks.alike
  have hdelivered : t.delivered = s.delivered := congrArg Core.delivered hworks.alike
  exact run_nearer 0 job hpull ⟨hwaiters, hqueued, hdelivered⟩ hworks.remaining hn

/-- More waiters for the same pull leave the others where they are. -/
theorem joined_nearer {more more' : List Nat} (hn : s.Waiting n)
    (hwaiters : s'.waiters = s.waiters ++ more) (hqueued : s'.queued = s.queued ++ more')
    (hpull : s'.pull = s.pull) (hdelivered : s'.delivered = s.delivered) : Nearer n s s' := by
  right
  constructor
  · unfold State.Waiting
    rw [hwaiters, hqueued]
    exact hn.imp (List.mem_append_left _) (List.mem_append_left _)
  unfold State.left
  rw [hpull, hdelivered]
  cases s.pull with
  | none => exact le_rfl
  | some pull =>
    dsimp only
    by_cases hwaits : n ∈ s.waiters
    · rw [if_pos hwaits, if_pos (by rw [hwaiters]; exact List.mem_append_left _ hwaits)]
    rw [if_neg hwaits]
    split <;> omega

theorem sync_nearer {callbacks : Bool} (h : Tracked s) (hn : s.Waiting n) :
    Nearer n s (sync env s callbacks) := by
  have hbusy : s.pending = true := h.busy hn
  unfold sync
  cases callbacks with
  | false =>
    rw [if_neg Bool.false_ne_true, if_pos hbusy]
    exact Alike.nearer rfl hn
  | true =>
    rw [if_pos rfl]
    dsimp only
    split
    · exact joined_nearer hn (List.append_nil _).symm (List.append_nil _).symm rfl rfl
    split
    · exact joined_nearer hn (List.append_nil _).symm rfl rfl rfl
    · exact joined_nearer hn rfl (List.append_nil _).symm rfl rfl

theorem clear_nearer (hn : s.Waiting n) : Nearer n s (clear env s) := by
  unfold clear clearCallHistory
  cases env.erasure with
  | raised | raisedLate => exact Alike.nearer rfl hn
  | erased =>
    by_cases hqueued : n ∈ s.queued
    · left
      show n ∈ (s.answers ++ s.queued.map (fun n => (n, Answer.failure .storageChanged))).map
        Prod.fst
      rw [List.map_append, List.map_map]
      exact List.mem_append_right _ (List.mem_map.mpr ⟨n, hqueued, rfl⟩)
    · right
      have hwaits : n ∈ s.waiters := hn.resolve_right hqueued
      exact ⟨.inl hwaits, le_rfl⟩

/-- **Step lemma.** Every step leaves a waiting request answered, or nearer by what it delivers. -/
theorem step_nearer (input : Env × Input) (h : Tracked s) (hn : s.Waiting n) :
    Nearer n s (step p s input) := by
  have hturn := turn_step p s input
  generalize step p s input = s' at hturn ⊢
  cases hturn with
  | flags hflags => exact hflags.alike.nearer hn
  | started full hflags hpending =>
    rw [h.busy hn] at hpending
    nomatch hpending
  | asked => exact sync_nearer h hn
  | worked hpull hworked =>
    rcases works_of_worked hworked with rfl | ⟨t, job, rfl, hworks⟩
    · exact Alike.nearer rfl hn
    · exact hworks.nearer hpull hn
  | completed hpull => exact completed_nearer h hpull hn
  | cleared => exact clear_nearer hn
  | forgot => exact Alike.nearer rfl hn
  | discarded => exact (discardCache_alike s).nearer hn

/-! ## Answers stay -/

/-- No answer is taken back. -/
def Grows (s s' : State) : Prop := ∃ more, s'.answers = s.answers ++ more

theorem Grows.trans (h : Grows s t) (h' : Grows t u) : Grows s u := by
  obtain ⟨more, hmore⟩ := h
  obtain ⟨more', hmore'⟩ := h'
  exact ⟨more ++ more', by rw [hmore', hmore, List.append_assoc]⟩

theorem Grows.of_eq (h : s'.answers = s.answers) : Grows s s' := ⟨[], by rw [h, List.append_nil]⟩

theorem Alike.grows (h : Alike s s') : Grows s s' := Grows.of_eq (congrArg Core.answers h)

theorem finished_grows (env : Env) (accepts : Bool) (s : State) (answer : Answer)
    (transport : Bool) : Grows s (finished env accepts s answer transport) :=
  Grows.trans (settle_onward s answer transport).answers
    (finished_onward env accepts s answer transport).answers

section

variable (env : Env) (s : State)

theorem start_grows (full : Bool) : Grows s (start env s full) := by
  have hbegun : Grows s (begin env env.accepts s full).1 :=
    (begin_onward env env.accepts s full).answers
  unfold start
  cases hbegin : begin env env.accepts s full with
  | mk s' error =>
    rw [hbegin] at hbegun
    cases error with
    | none => exact hbegun
    | some error => exact hbegun.trans (finished_grows _ _ _ _ _)

theorem sync_grows (callbacks : Bool) : Grows s (sync env s callbacks) := by
  unfold sync
  dsimp only
  split
  · split
    · exact ⟨_, rfl⟩
    split
    · exact Grows.of_eq rfl
    split
    · exact Grows.of_eq rfl
    · exact Grows.trans (Grows.of_eq rfl) (start_grows env _ true)
  · split
    · exact Grows.of_eq rfl
    · exact start_grows env s true

theorem submit_grows (pull : Pull) (job : Job) : Grows s (submit env s pull job) := by
  unfold submit
  split
  · exact Grows.of_eq rfl
  · exact finished_grows _ _ _ _ _

theorem completed_grows (pull : Pull) : Grows s (completed env s pull) := by
  have hcounted : Grows s s.counted := Grows.of_eq rfl
  unfold completed
  cases pull.job with
  | list | store => exact Grows.of_eq rfl
  | failed error => exact hcounted.trans (finished_grows _ _ _ _ _)
  | listed records =>
    refine hcounted.trans ?_
    unfold pulled pullNext
    dsimp only
    repeat' split
    all_goals first | exact finished_grows _ _ _ _ _ | exact submit_grows _ _ _ _
  | replaced result =>
    refine hcounted.trans ?_
    dsimp only
    unfold storedDone
    split
    · exact finished_grows _ _ _ _ _
    · exact (stored_alike env s.counted pull result).grows.trans (finished_grows _ _ _ _ _)

theorem clear_grows : Grows s (clear env s) := by
  unfold clear clearCallHistory
  cases env.erasure with
  | erased => exact ⟨_, rfl⟩
  | raisedLate | raised => exact Grows.of_eq rfl

end

theorem step_grows (p : Platform) (s : State) (input : Env × Input) : Grows s (step p s input) := by
  have hturn := turn_step p s input
  generalize step p s input = s' at hturn ⊢
  cases hturn with
  | flags hflags => exact hflags.alike.grows
  | started full hflags _ => exact hflags.alike.grows.trans (start_grows _ _ full)
  | asked => exact sync_grows _ s true
  | worked _ hworked =>
    rcases works_of_worked hworked with rfl | ⟨t, job, rfl, hworks⟩
    · exact Grows.of_eq rfl
    · exact hworks.alike.grows
  | completed _ => exact completed_grows _ s _
  | cleared => exact clear_grows _ s
  | forgot => exact Grows.of_eq rfl
  | discarded => exact (discardCache_alike s).grows

/-! ## Runs -/

/-- The object as it is made, on a database with calls of earlier runs. -/
def State.new (store : CallStore) (phone : Str) : State := { store := store, phone := phone }

theorem new_tracked (store : CallStore) (phone : Str) : Tracked (State.new store phone) where
  ids := List.Perm.refl _
  pending := rfl
  full := nofun
  waits := fun h => absurd rfl h
  queues := fun h => absurd rfl h
  lists := nofun

theorem run_tracked_from (inputs : List (Env × Input)) (h : Tracked s) :
    Tracked (runFrom p s inputs) :=
  Machine.always (step p) (fun _ input hs => step_tracked input hs) inputs h

/-- **Run lemma.** After every run a waiting request is answered, or nearer by what was delivered. -/
theorem run_nearer_from (p : Platform) (inputs : List (Env × Input)) (h : Tracked s)
    (hn : s.Waiting n) : Nearer n s (runFrom p s inputs) := by
  induction inputs generalizing s with
  | nil => exact .inr ⟨hn, le_rfl⟩
  | cons input inputs ih =>
    have hstep := step_nearer (p := p) input h hn
    have hkeep : (step p s input).Answered n →
        (runFrom p (step p s input) inputs).Answered n := by
      intro hanswered
      have halong : Machine.Along (step p) (fun _ _ => True) (step p s input) inputs :=
        Machine.along_of_forall (step p) (fun _ _ => trivial) _ inputs
      have hgrows : Grows (step p s input) (runFrom p (step p s input) inputs) :=
        Machine.relates (step p) (fun _ => Grows.of_eq rfl) (fun _ _ _ => Grows.trans)
          (fun t i _ => step_grows p t i) halong
      obtain ⟨more, hmore⟩ := hgrows
      unfold State.Answered at hanswered ⊢
      rw [hmore, List.map_append]
      exact List.mem_append_left _ hanswered
    rcases hstep with hanswered | ⟨hwaiting, hle⟩
    · exact .inl (hkeep hanswered)
    · exact Nearer.trans (.inr ⟨hwaiting, hle⟩) (ih (step_tracked input h) hwaiting) hkeep

/-- Six more deliveries answer every waiting request. -/
theorem answered_after_six {inputs : List (Env × Input)} (h : Tracked s)
    (hn : s.Waiting n) (hsix : s.delivered + 6 ≤ (runFrom p s inputs).delivered) :
    (runFrom p s inputs).Answered n := by
  rcases run_nearer_from p inputs h hn with hanswered | ⟨hwaiting, hle⟩
  · exact hanswered
  have hpos := left_pos (run_tracked_from inputs h) hwaiting
  have hmost := left_le h hn
  omega

end BlueFerry.CallHistory
