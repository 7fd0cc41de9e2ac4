import BlueFerry.Lib.Machine
import BlueFerry.Lib.Slots
import BlueFerry.Lib.Trace
import BlueFerry.Text.Basic

/-! # Read receipts

The phone is told that a message was read only some seconds later, so that its notification is not
removed before ANCS has fetched it (`read_receipts.py`). A message handle means something only
within the MAP session that gave it, so the queue remembers under which session object and which
session path its handles were deferred, and drops them when either has changed.

`step` is one callback of the main loop, or one message of a write on the OBEX worker, which checks
the session again before each message. A session object is a number; the queue keeps the one it
works for alive, so no other object can have its identity meanwhile.
-/

namespace BlueFerry.ReadReceipts

open BlueFerry.Text

/-! ## The queue -/

/-- `READ_RECEIPT_DELAY_SECONDS` -/
def readReceiptDelaySeconds : ℚ := 5

/-- `MAX_PENDING_READ_RECEIPTS` -/
def maxPendingReadReceipts : Nat := 2000

/-- What the session manager shows of MAP. -/
structure Sessions where
  map : Option Nat
  mapPath : Str
deriving DecidableEq

/-- `ReadReceiptQueue`; `pending` has a handle and its deadline, in the order of the `dict`. -/
structure ReadReceiptQueue where
  pending : List (Str × ℚ)
  session : Option Nat
  sessionPath : Str
  timer : Option Nat
  closed : Bool

/-- The session that the handles belong to. -/
def ReadReceiptQueue.under (q : ReadReceiptQueue) : Sessions := ⟨q.session, q.sessionPath⟩

def ReadReceiptQueue.handles (q : ReadReceiptQueue) : List Str := q.pending.map Prod.fst

/-- The handles whose deadline has passed. -/
def ReadReceiptQueue.due (q : ReadReceiptQueue) (now : ℚ) : List Str :=
  (q.pending.filter (fun p => decide (p.2 ≤ now))).map Prod.fst

/-- The handles that a `write` on the worker still has to do. -/
structure Job where
  under : Sessions
  handles : List Str

/-- What happened to a handle, each time with the sessions of that moment. -/
inductive Entry where
  | deferred (handle : Str) (sessions : Sessions) (time : ℚ)
  | submitted (handle : Str) (sessions : Sessions) (time : ℚ) (accepted : Bool)
  | dropped (handle : Str) (sessions : Sessions) (closed : Bool)
  | marked (handle : Str) (sessions : Sessions) (path : Str)

structure World where
  queue : ReadReceiptQueue
  sessions : Sessions
  timers : Slots ℤ
  jobs : Slots Job
  log : List Entry

def World.start (sessions : Sessions) : World where
  queue := ⟨[], none, [], none, false⟩
  sessions := sessions
  timers := Slots.empty
  jobs := Slots.empty
  log := []

/-! ## The methods -/

/-- `_HANDLE_RE`, one character of it. -/
def isHandleChar (c : Char) : Bool := isLetter c || isDigit c || c == '.' || c == '_' || c == '-'

/-- The object that `set_session_messages_read` sets, where it does. -/
def messagePath (sessionPath handle : Str) : Option Str :=
  let root := rstrip (· == '/') sessionPath
  if root = [] then none
  else if handle = ['.', '.'] ∨ handle = ['.'] ∨ handle = [] ∨ ¬ handle.all isHandleChar then none
  else some (root ++ '/' :: handle)

/-- The delay that `_arm` asks for, in whole seconds. -/
def armDelay (pending : List (Str × ℚ)) (now : ℚ) : ℤ :=
  max 1 ⌈(pending.map Prod.snd).min?.getD 0 - now⌉

/-- `_arm` -/
def World.arm (w : World) (now : ℚ) : World :=
  if w.queue.closed = false ∧ w.queue.pending ≠ [] ∧ w.queue.timer = none then
    { w with
      timers := w.timers.put (armDelay w.queue.pending now)
      queue := { w.queue with timer := some w.timers.next } }
  else w

/-- `self._timer = None` -/
def World.forgetTimer (w : World) : World := { w with queue := { w.queue with timer := none } }

/-- `self._pending.clear()` -/
def World.clear (w : World) : World :=
  { w with
    queue := { w.queue with pending := [] }
    log := w.queue.handles.map (fun h => .dropped h w.sessions w.queue.closed) ++ w.log }

/-- The queue now belongs to these sessions. -/
def World.adopt (w : World) : World :=
  { w with queue := { w.queue with session := w.sessions.map, sessionPath := w.sessions.mapPath } }

/-- `self._pending[handle] = deadline` -/
def World.add (w : World) (now : ℚ) (handle : Str) : World :=
  { w with
    queue := { w.queue with
      pending := w.queue.pending ++ [(handle, now + readReceiptDelaySeconds)] }
    log := .deferred handle w.sessions now :: w.log }

/-- The loop of `defer`. -/
def World.addAll (now : ℚ) : World → List Str → World
  | w, [] => w
  | w, handle :: handles =>
    if handle = [] ∨ handle ∈ w.queue.handles then World.addAll now w handles
    else if maxPendingReadReceipts ≤ w.queue.pending.length then w
    else World.addAll now (w.add now handle) handles

section

variable (w : World)

/-- `defer` -/
def World.defer (sessionPath : Str) (handles : List Str) (now later : ℚ) : World :=
  if w.queue.closed = true ∨ w.sessions.map = none ∨ sessionPath ≠ w.sessions.mapPath then w
  else
    let w := if w.queue.under = w.sessions then w else w.clear.adopt
    (World.addAll now w handles).arm later

/-- `str.rpartition("/")`, without the separator. -/
def rpartitionSlash (s : Str) : Str × Str :=
  ((s.rdropWhile (· != '/')).dropLast, s.rtakeWhile (· != '/'))

/-- `defer_path` -/
def World.deferPath (path : Str) (now later : ℚ) : World :=
  w.defer (rpartitionSlash path).1 [(rpartitionSlash path).2] now later

/-- The worker is given the handles; only acceptance takes them out of the queue. -/
def World.submit (handles : List Str) (accepts : Bool) (now : ℚ) : World :=
  let w := { w with log := handles.map (fun h => .submitted h w.sessions now accepts) ++ w.log }
  if accepts then
    { w with
      jobs := w.jobs.put ⟨w.queue.under, handles⟩
      queue := { w.queue with pending := w.queue.pending.filter (·.1 ∉ handles) } }
  else w

/-- `_flush`; the worker may refuse the work. -/
def World.flush (accepts : Bool) (now later : ℚ) : World :=
  let w := w.forgetTimer
  if w.queue.closed = true ∨ w.sessions ≠ w.queue.under then w.clear
  else
    let handles := w.queue.due now
    if handles = [] then w.arm later
    else (w.submit handles accepts now).arm later

/-- One round of `write`; only an error that is not a D-Bus error ends the others. -/
def World.write (n : Nat) (raises : Bool) : World :=
  match w.jobs.get n with
  | none => w
  | some ⟨_, []⟩ => { w with jobs := w.jobs.take n }
  | some ⟨under, handle :: handles⟩ =>
    let w := { w with jobs := w.jobs.take n }
    if w.queue.closed = true ∨ w.sessions ≠ under then w
    else
      match messagePath under.mapPath handle with
      | none => { w with jobs := w.jobs.put ⟨under, handles⟩ }
      | some path =>
        let w := { w with log := .marked handle w.sessions path :: w.log }
        if raises then w else { w with jobs := w.jobs.put ⟨under, handles⟩ }

/-- `close` -/
def World.close : World :=
  let w := World.clear { w with queue := { w.queue with closed := true } }
  match w.queue.timer with
  | none => w
  | some n => World.forgetTimer { w with timers := w.timers.take n }

/-- What can happen next. -/
inductive Input where
  | sessions (sessions : Sessions)
  | defer (sessionPath : Str) (handles : List Str)
  | deferPath (path : Str)
  | fired (n : Nat) (accepts : Bool)
  | write (n : Nat) (raises : Bool)
  | close

/-- The two times that a callback may read off the clock. -/
structure Reading where
  now : ℚ
  later : ℚ

def step (i : Input × Reading) : World :=
  match i.1 with
  | .sessions sessions => { w with sessions := sessions }
  | .defer sessionPath handles => w.defer sessionPath handles i.2.now i.2.later
  | .deferPath path => w.deferPath path i.2.now i.2.later
  | .fired n accepts =>
    match w.timers.get n with
    | none => w
    | some _ => World.flush { w with timers := w.timers.take n } accepts i.2.now i.2.later
  | .write n raises => w.write n raises
  | .close => w.close

end

/-! ## What the queue holds -/

/-- The handle leaves the queue. -/
def Leaves (h : Str) : Entry → Prop
  | .submitted h' _ _ accepted => h' = h ∧ accepted = true
  | .dropped h' _ _ => h' = h
  | _ => False

/-- The handle was deferred and has not left the queue since. -/
def Waits (h : Str) (p : Sessions → ℚ → Prop) (log : List Entry) : Prop :=
  Trace.Since (Leaves h) (fun e _ => ∃ s t, e = .deferred h s t ∧ p s t) log

/-- A submitted handle was deferred under the sessions of this moment, at least the delay ago; a
handle is dropped only when the queue is closed or the sessions are others than it was deferred
under; and a message is marked read only under the sessions that its handle was accepted under. -/
def Rightful : Entry → List Entry → Prop
  | .deferred _ s _, _ => s.map ≠ none
  | .submitted h s t _, earlier =>
    Waits h (fun s' t' => s' = s ∧ t' + readReceiptDelaySeconds ≤ t) earlier
  | .dropped h s closed, earlier => closed = true ∨ Waits h (fun s' _ => s' ≠ s) earlier
  | .marked h s path, earlier =>
    messagePath s.mapPath h = some path ∧ ∃ t, .submitted h s t true ∈ earlier

/-- The invariant of the queue. -/
structure Sound (w : World) : Prop where
  rightful : Trace.Each Rightful w.log
  nodup : w.queue.handles.Nodup
  waits : ∀ h d, (h, d) ∈ w.queue.pending →
    Waits h (fun s t => s = w.queue.under ∧ d = t + readReceiptDelaySeconds) w.log
  waiting : ∀ h, Waits h (fun _ _ => True) w.log → h ∈ w.queue.handles
  closed : w.queue.closed = true → w.queue.pending = []
  timer : ∀ n, w.queue.timer = some n → ∃ delay, w.timers.Holds n delay
  jobs : ∀ n job, w.jobs.Holds n job →
    ∀ h ∈ job.handles, ∃ t, .submitted h job.under t true ∈ w.log

/-- A timer is armed while there is something to wait for. -/
def Armed (w : World) : Prop :=
  w.queue.closed = false → w.queue.pending ≠ [] →
    ∃ n delay, w.queue.timer = some n ∧ w.timers.Holds n delay

variable {h : Str} {log : List Entry} {p : Sessions → ℚ → Prop}

theorem Waits.mono {q : Sessions → ℚ → Prop}
    (hpq : ∀ s t, p s t → q s t) (hw : Waits h p log) : Waits h q log := by
  refine Trace.Since.mono ?_ hw
  intro e _ he
  obtain ⟨s, t, rfl, hp⟩ := he
  exact ⟨s, t, rfl, hpq s t hp⟩

/-- What came later neither lets the handle go nor defers it. -/
theorem Waits.of_append :
    ∀ {new : List Entry}, (∀ s t, .deferred h s t ∉ new) → Waits h p (new ++ log) →
      (∀ e ∈ new, ¬ Leaves h e) ∧ Waits h p log
  | [], _, hw => ⟨by simp, hw⟩
  | e :: new, hnew, hw => by
      rcases hw with hhere | ⟨hblocks, hlater⟩
      · obtain ⟨s, t, rfl, _⟩ := hhere
        exact absurd (List.mem_cons_self ..) (hnew s t)
      have hnone : ∀ s t, .deferred h s t ∉ new := fun s t ht => hnew s t (.tail _ ht)
      have hrest := Waits.of_append hnone hlater
      refine ⟨?_, hrest.2⟩
      intro x hx
      rcases List.mem_cons.mp hx with rfl | hx
      · exact hblocks
      · exact hrest.1 x hx

/-- One entry for each of several handles, none of them twice. -/
theorem each_batch {f : Str → Entry} (hlog : Trace.Each Rightful log) :
    ∀ {hs : List Str}, hs.Nodup →
      (∀ h ∈ hs, ∀ others : List Str, h ∉ others → Rightful (f h) (others.map f ++ log)) →
      Trace.Each Rightful (hs.map f ++ log)
  | [], _, _ => hlog
  | h :: hs, hnodup, hf => by
      rw [List.nodup_cons] at hnodup
      have hrest := each_batch hlog hnodup.2
        (fun h' hh' others ho => hf h' (List.mem_cons_of_mem _ hh') others ho)
      exact ⟨hf h (by simp) hs hnodup.1, hrest⟩

/-- The entries of other handles do not matter. -/
theorem waits_batch {f : Str → Entry} (hf : ∀ h h', Leaves h (f h') → h' = h) {others : List Str} (ho : h ∉ others)
    (hw : Waits h p log) : Waits h p (others.map f ++ log) := by
  refine Trace.Since.append hw ?_
  intro e he hleaves
  obtain ⟨h', hh', rfl⟩ := List.mem_map.mp he
  exact ho (hf h h' hleaves ▸ hh')

/-! ## Each method keeps it -/

variable {w : World}

theorem Sound.arm (hw : Sound w) (now : ℚ) : Sound (w.arm now) := by
  unfold World.arm
  split
  · refine { hw with timer := ?_ }
    intro n hn
    cases hn
    exact ⟨_, Slots.holds_put.mpr (.inl ⟨rfl, rfl⟩)⟩
  · exact hw

theorem Sound.armed_arm (hw : Sound w) (now : ℚ) : Armed (w.arm now) := by
  unfold World.arm
  split
  · intro _ _
    exact ⟨_, _, rfl, Slots.holds_put.mpr (.inl ⟨rfl, rfl⟩)⟩
  rename_i hnot
  intro hclosed hpending
  cases htimer : w.queue.timer with
  | none => exact absurd ⟨hclosed, hpending, htimer⟩ hnot
  | some n =>
    obtain ⟨delay, hholds⟩ := hw.timer n htimer
    exact ⟨n, delay, rfl, hholds⟩

/-- The timer of the queue has fired, or was called off. -/
theorem Sound.forgetTimer (hw : Sound w) (timers : Slots ℤ) :
    Sound (World.forgetTimer { w with timers := timers }) :=
  { hw with timer := nofun }

/-- The queue is emptied because it is closed now, or because the sessions are others. -/
theorem Sound.clear (hw : Sound w) (closed : Bool)
    (hwhy : closed = true ∨ w.queue.under ≠ w.sessions) :
    Sound (World.clear { w with queue := { w.queue with closed := closed } }) := by
  have hdrop : ∀ h h', Leaves h (.dropped h' w.sessions closed) → h' = h := fun _ _ h => h
  refine ⟨?_, List.nodup_nil, by simp [World.clear], ?_, fun _ => rfl, hw.timer, ?_⟩
  · refine each_batch hw.rightful hw.nodup ?_
    intro h hh others ho
    rcases hwhy with hclosed | hother
    · exact .inl hclosed
    obtain ⟨⟨h', d⟩, hmem, rfl⟩ := List.mem_map.mp hh
    refine .inr (waits_batch hdrop ho ((hw.waits h' d hmem).mono ?_))
    intro s t hs
    rw [hs.1]
    exact hother
  · intro h hwaits
    have hsplit := Waits.of_append (by simp) hwaits
    have hmem := hw.waiting h hsplit.2
    exact absurd rfl (hsplit.1 _ (List.mem_map_of_mem hmem))
  · intro n job hjob h hh
    obtain ⟨t, ht⟩ := hw.jobs n job hjob h hh
    exact ⟨t, List.mem_append_right _ ht⟩

/-- An empty queue may belong to any sessions. -/
theorem Sound.adopt (hw : Sound w) (hempty : w.queue.pending = []) : Sound w.adopt := by
  refine { hw with waits := ?_ }
  intro h d hmem
  rw [show w.adopt.queue.pending = [] from hempty] at hmem
  cases hmem

theorem Sound.add (hw : Sound w) (now : ℚ) {handle : Str} (hopen : w.queue.closed = false)
    (hunder : w.queue.under = w.sessions) (hmap : w.sessions.map ≠ none)
    (hnew : handle ∉ w.queue.handles) : Sound (w.add now handle) := by
  have hdefer : ∀ h, ¬ Leaves h (.deferred handle w.sessions now) := fun _ h => h
  have hhandles : (w.add now handle).queue.handles = w.queue.handles ++ [handle] := by
    simp [World.add, ReadReceiptQueue.handles]
  refine ⟨⟨hmap, hw.rightful⟩, ?_, ?_, ?_, ?_, hw.timer, ?_⟩
  · rw [hhandles]
    exact List.nodup_append.mpr ⟨hw.nodup, by simp, by
      intro a ha b hb
      rw [List.mem_singleton.mp hb]
      exact fun hab => hnew (hab ▸ ha)⟩
  · intro h d hmem
    rcases List.mem_append.mp hmem with hold | hadded
    · exact (hw.waits h d hold).later (hdefer h)
    cases List.mem_singleton.mp hadded
    exact .here ⟨w.sessions, now, rfl, hunder.symm, rfl⟩
  · intro h hwaits
    rw [hhandles]
    rcases hwaits with ⟨s, t, heq, _⟩ | ⟨_, hwaits⟩
    · cases heq
      simp
    · exact List.mem_append_left _ (hw.waiting h hwaits)
  · intro hclosed
    rw [show (w.add now handle).queue.closed = w.queue.closed from rfl, hopen] at hclosed
    cases hclosed
  · intro n job hjob h hh
    obtain ⟨t, ht⟩ := hw.jobs n job hjob h hh
    exact ⟨t, .tail _ ht⟩

theorem Sound.addAll (now : ℚ) : ∀ (handles : List Str) {w : World}, Sound w →
    w.queue.closed = false → w.queue.under = w.sessions → w.sessions.map ≠ none →
      Sound (World.addAll now w handles)
  | [], _, hw, _, _, _ => hw
  | handle :: handles, w, hw, hopen, hunder, hmap => by
      unfold World.addAll
      split
      · exact Sound.addAll now handles hw hopen hunder hmap
      rename_i hnew
      split
      · exact hw
      exact Sound.addAll now handles
        (hw.add now hopen hunder hmap (fun h => hnew (Or.inr h))) hopen hunder hmap

theorem Sound.defer (hw : Sound w) (harmed : Armed w) (sessionPath : Str) (handles : List Str)
    (now later : ℚ) :
    Sound (w.defer sessionPath handles now later) ∧ Armed (w.defer sessionPath handles now later) := by
  unfold World.defer
  split
  · exact ⟨hw, harmed⟩
  rename_i hcond
  push Not at hcond
  obtain ⟨hopen, hmap, _⟩ := hcond
  have hclosed : w.queue.closed = false := by simpa using hopen
  have hadded : Sound (World.addAll now
      (if w.queue.under = w.sessions then w else w.clear.adopt) handles) := by
    split
    · rename_i hunder
      exact hw.addAll now handles hclosed hunder hmap
    rename_i hunder
    exact Sound.addAll now handles ((hw.clear _ (.inr hunder)).adopt rfl) hclosed rfl hmap
  exact ⟨hadded.arm later, hadded.armed_arm later⟩

/-- The handles that are due were deferred long enough ago, under the sessions of the queue. -/
theorem Sound.due (hw : Sound w) {now : ℚ} (hh : h ∈ w.queue.due now) :
    Waits h (fun s t => s = w.queue.under ∧ t + readReceiptDelaySeconds ≤ now) w.log := by
  obtain ⟨⟨h', d⟩, hmem, rfl⟩ := List.mem_map.mp hh
  obtain ⟨hmem, hd⟩ := List.mem_filter.mp hmem
  refine (hw.waits h' d hmem).mono ?_
  intro s t hs
  refine ⟨hs.1, ?_⟩
  rw [← hs.2]
  simpa using hd

theorem Sound.submit (hw : Sound w) (accepts : Bool) {now : ℚ} {handles : List Str}
    (hunder : w.queue.under = w.sessions) (hnodup : handles.Nodup)
    (hdue : ∀ h ∈ handles,
      Waits h (fun s t => s = w.queue.under ∧ t + readReceiptDelaySeconds ≤ now) w.log) :
    Sound (w.submit handles accepts now) := by
  have hsub : ∀ h h', Leaves h (.submitted h' w.sessions now accepts) → h' = h := fun _ _ h => h.1
  have hrightful : Trace.Each Rightful
      (handles.map (fun h => .submitted h w.sessions now accepts) ++ w.log) := by
    refine each_batch hw.rightful hnodup ?_
    intro h hh others ho
    refine waits_batch hsub ho ((hdue h hh).mono ?_)
    intro s t hs
    exact ⟨hs.1.trans hunder, hs.2⟩
  have hjobs : ∀ n job, w.jobs.Holds n job → ∀ h ∈ job.handles, ∃ t, .submitted h job.under t true ∈
      handles.map (fun h => .submitted h w.sessions now accepts) ++ w.log := by
    intro n job hjob h hh
    obtain ⟨t, ht⟩ := hw.jobs n job hjob h hh
    exact ⟨t, List.mem_append_right _ ht⟩
  cases accepts with
  | false =>
    refine ⟨hrightful, hw.nodup, ?_, ?_, hw.closed, hw.timer, hjobs⟩
    · intro h d hmem
      refine Trace.Since.append (hw.waits h d hmem) ?_
      intro e he hleaves
      obtain ⟨h', _, rfl⟩ := List.mem_map.mp he
      cases hleaves.2
    · intro h hwaits
      exact hw.waiting h (Waits.of_append (by simp) hwaits).2
  | true =>
    refine ⟨hrightful, ?_, ?_, ?_, ?_, hw.timer, ?_⟩
    · exact hw.nodup.sublist (List.filter_sublist.map _)
    · intro h d hmem
      obtain ⟨hmem, hnot⟩ := List.mem_filter.mp hmem
      exact waits_batch hsub (by simpa using hnot) (hw.waits h d hmem)
    · intro h hwaits
      have hsplit := Waits.of_append (by simp) hwaits
      have hnot : h ∉ handles := fun hh => hsplit.1 _ (List.mem_map_of_mem hh) ⟨rfl, rfl⟩
      obtain ⟨⟨h', d⟩, hmem, rfl⟩ := List.mem_map.mp (hw.waiting h hsplit.2)
      exact List.mem_map_of_mem (List.mem_filter.mpr ⟨hmem, by simpa using hnot⟩)
    · intro hclosed
      have hempty := hw.closed hclosed
      simp [World.submit, hempty]
    intro n job hjob h hh
    rcases Slots.holds_put.mp hjob with ⟨_, rfl⟩ | hold
    · refine ⟨now, List.mem_append_left _ (List.mem_map.mpr ⟨h, hh, ?_⟩)⟩
      rw [show (w.queue.under : Sessions) = w.sessions from hunder]
    · exact hjobs n job hold h hh

theorem Sound.flush (hw : Sound w) (timers : Slots ℤ) (accepts : Bool) (now later : ℚ) :
    Sound (World.flush { w with timers := timers } accepts now later) ∧
      Armed (World.flush { w with timers := timers } accepts now later) := by
  unfold World.flush
  extract_lets w₁ handles
  have hw₁ : Sound w₁ := hw.forgetTimer timers
  split
  · rename_i hleft
    refine ⟨hw₁.clear _ (hleft.imp id Ne.symm), ?_⟩
    exact fun _ hpending => absurd rfl hpending
  rename_i hleft
  push Not at hleft
  split
  · exact ⟨hw₁.arm later, hw₁.armed_arm later⟩
  have hnodup : handles.Nodup := hw₁.nodup.sublist (List.filter_sublist.map _)
  have hsubmit := hw₁.submit accepts hleft.2.symm hnodup (fun h hh => hw₁.due hh)
  exact ⟨hsubmit.arm later, hsubmit.armed_arm later⟩

theorem Sound.close (hw : Sound w) : Sound w.close ∧ Armed w.close := by
  have hclear := hw.clear true (.inl rfl)
  unfold World.close
  extract_lets w₁
  split
  · exact ⟨hclear, nofun⟩
  · exact ⟨hclear.forgetTimer _, nofun⟩

/-- Nothing of what the queue holds changes when a job does. -/
theorem Sound.worked (hw : Sound w) {jobs : Slots Job}
    (hlog : Trace.Each Rightful log) (hwaits : ∀ h p, Waits h p log ↔ Waits h p w.log)
    (hjobs : ∀ n job, jobs.Holds n job →
      ∀ h ∈ job.handles, ∃ t, .submitted h job.under t true ∈ log) :
    Sound { w with jobs := jobs, log := log } :=
  ⟨hlog, hw.nodup, fun h d hmem => (hwaits _ _).mpr (hw.waits h d hmem),
    fun h hwait => hw.waiting h ((hwaits _ _).mp hwait), hw.closed, hw.timer, hjobs⟩

/-- One message of a write. -/
theorem Sound.write (hw : Sound w) (n : Nat) (raises : Bool) : Sound (w.write n raises) := by
  have htake : ∀ m job, (w.jobs.take n).Holds m job →
      ∀ h ∈ job.handles, ∃ t, .submitted h job.under t true ∈ w.log :=
    fun m job hm => hw.jobs m job (Slots.holds_take.mp hm).2
  unfold World.write
  split
  · exact hw
  · exact hw.worked hw.rightful (fun _ _ => Iff.rfl) htake
  rename_i under handle handles hget
  have hjob := hw.jobs n _ hget
  have hrest : ∀ h ∈ handles, ∃ t, .submitted h under t true ∈ w.log :=
    fun h hh => hjob h (.tail _ hh)
  have hput : ∀ m job, ((w.jobs.take n).put ⟨under, handles⟩).Holds m job →
      ∀ h ∈ job.handles, ∃ t, .submitted h job.under t true ∈ w.log := by
    intro m job hm
    rcases Slots.holds_put.mp hm with ⟨_, rfl⟩ | hold
    · exact hrest
    · exact htake m job hold
  extract_lets w₁
  split
  · exact hw.worked hw.rightful (fun _ _ => Iff.rfl) htake
  rename_i hleft
  push Not at hleft
  split
  · exact hw.worked hw.rightful (fun _ _ => Iff.rfl) hput
  rename_i path hpath
  have hunder : w.sessions = under := hleft.2
  obtain ⟨t, ht⟩ := hjob handle (by simp)
  have hlog : Trace.Each Rightful (.marked handle w.sessions path :: w.log) := by
    refine ⟨⟨?_, t, ?_⟩, hw.rightful⟩
    · rw [hunder]
      exact hpath
    · rw [hunder]
      exact ht
  have hwaits : ∀ h p, Waits h p (.marked handle w.sessions path :: w.log) ↔
      Waits h p w.log := by
    intro h p
    constructor
    · intro hwait
      rcases hwait with ⟨_, _, heq, _⟩ | ⟨_, hwait⟩
      · cases heq
      · exact hwait
    · exact fun hwait => .later id hwait
  have hlater : ∀ jobs : Slots Job, (∀ m job, jobs.Holds m job →
      ∀ h ∈ job.handles, ∃ t, .submitted h job.under t true ∈ w.log) →
      ∀ m job, jobs.Holds m job → ∀ h ∈ job.handles, ∃ t, .submitted h job.under t true ∈
        .marked handle w.sessions path :: w.log := by
    intro jobs hjobs m job hm h hh
    obtain ⟨t', ht'⟩ := hjobs m job hm h hh
    exact ⟨t', .tail _ ht'⟩
  extract_lets w₂
  split
  · exact hw.worked hlog hwaits (hlater _ htake)
  · exact hw.worked hlog hwaits (hlater _ hput)

theorem queue_write (w : World) (n : Nat) (raises : Bool) :
    (w.write n raises).queue = w.queue ∧ (w.write n raises).timers = w.timers := by
  unfold World.write
  split
  · exact ⟨rfl, rfl⟩
  · exact ⟨rfl, rfl⟩
  extract_lets w₁
  split
  · exact ⟨rfl, rfl⟩
  split
  · exact ⟨rfl, rfl⟩
  extract_lets w₂
  split <;> exact ⟨rfl, rfl⟩

theorem pending_arm (w : World) (now : ℚ) : (w.arm now).queue.pending = w.queue.pending := by
  unfold World.arm
  split <;> rfl

/-- A submit that the worker refuses takes nothing out of the queue. -/
theorem pending_refused (hopen : w.queue.closed = false) (hunder : w.sessions = w.queue.under)
    (n : Nat) (r : Reading) : (step w (.fired n false, r)).queue.pending = w.queue.pending := by
  show (match w.timers.get n with
    | none => w
    | some _ => World.flush { w with timers := w.timers.take n } false r.now r.later).queue.pending = _
  cases hget : w.timers.get n with
  | none => rfl
  | some delay =>
    show (World.flush { w with timers := w.timers.take n } false r.now r.later).queue.pending = _
    unfold World.flush
    extract_lets w₁ handles
    rw [if_neg (by
      push Not
      exact ⟨by rw [show w₁.queue.closed = w.queue.closed from rfl, hopen]; simp, hunder⟩)]
    split
    · exact pending_arm w₁ r.later
    · exact pending_arm (w₁.submit handles false r.now) r.later

/-! ## Whole runs -/

theorem sound_step (w : World) (i : Input × Reading) (hw : Sound w) (harmed : Armed w) :
    Sound (step w i) ∧ Armed (step w i) := by
  obtain ⟨i, r⟩ := i
  cases i with
  | sessions sessions =>
    exact ⟨⟨hw.rightful, hw.nodup, hw.waits, hw.waiting, hw.closed, hw.timer, hw.jobs⟩, harmed⟩
  | defer sessionPath handles => exact hw.defer harmed sessionPath handles r.now r.later
  | deferPath path => exact hw.defer harmed _ _ r.now r.later
  | fired n accepts =>
    show Sound (match w.timers.get n with
        | none => w
        | some _ => World.flush { w with timers := w.timers.take n } accepts r.now r.later) ∧
      Armed (match w.timers.get n with
        | none => w
        | some _ => World.flush { w with timers := w.timers.take n } accepts r.now r.later)
    cases hget : w.timers.get n with
    | none => exact ⟨hw, harmed⟩
    | some delay => exact hw.flush (w.timers.take n) accepts r.now r.later
  | write n raises =>
    refine ⟨hw.write n raises, ?_⟩
    obtain ⟨hqueue, htimers⟩ := queue_write w n raises
    show Armed (w.write n raises)
    unfold Armed
    rw [hqueue, htimers]
    exact harmed
  | close => exact hw.close

theorem sound_start (sessions : Sessions) : Sound (World.start sessions) :=
  ⟨trivial, List.nodup_nil, by simp [World.start], fun _ h => h.elim, fun _ => rfl,
    nofun, by simp [World.start]⟩

theorem sound_run (sessions : Sessions) (inputs : List (Input × Reading)) :
    Sound (Machine.run step (World.start sessions) inputs) ∧
      Armed (Machine.run step (World.start sessions) inputs) := by
  refine Machine.always (P := fun w => Sound w ∧ Armed w) step
    (fun w i h => sound_step w i h.1 h.2) inputs ?_
  exact ⟨sound_start sessions, fun _ h => absurd rfl h⟩

/-- **Receipts wait.** In every run a handle is submitted only under the session object and path of
its deferral and once the delay has passed; it stays in the queue exactly until the worker accepts
it or the queue is closed or belongs to other sessions; a refused submit takes nothing out; and
while the open queue is not empty its timer is armed. -/
theorem receipts_wait (sessions : Sessions) (inputs : List (Input × Reading)) :
    let w := Machine.run step (World.start sessions) inputs
    Trace.Each Rightful w.log ∧
      (∀ h, h ∈ w.queue.handles ↔ Waits h (fun _ _ => True) w.log) ∧
      (∀ n r, w.queue.closed = false → w.sessions = w.queue.under →
        (step w (.fired n false, r)).queue.pending = w.queue.pending) ∧
      Armed w := by
  obtain ⟨hw, harmed⟩ := sound_run sessions inputs
  refine ⟨hw.rightful, ?_, ?_, harmed⟩
  · intro h
    refine ⟨?_, hw.waiting h⟩
    intro hh
    obtain ⟨⟨h', d⟩, hmem, rfl⟩ := List.mem_map.mp hh
    exact (hw.waits h' d hmem).mono (fun _ _ _ => trivial)
  · intro n r hopen hunder
    exact pending_refused hopen hunder n r

end BlueFerry.ReadReceipts
