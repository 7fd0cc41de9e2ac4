import BlueFerry.Lib.Machine
import BlueFerry.Lib.Slots
import BlueFerry.Lib.Trace

set_option linter.unusedSectionVars false

/-! # The conversation index

`ConversationIndex` (`threads.py`) keeps the projection of the history into conversations, and
builds it anew when the history or anything else it depends on has changed. Callers wait for one
build together; a build that has become stale is not published, and its callers ask again.

The callbacks of the callers run in the middle of it and may come back into the index, so the
machine keeps what Python keeps on its call stack: a `Frame` for each call that is not over, the
innermost first. One step is what runs from one point where other code has a say to the next: a
callback does something or returns, `submit` returns or raises, a worker's answer is delivered, a
loop goes on to its next caller. The history may change between any two steps. What the index sees
of it is its revision, a value of any type.
-/

namespace BlueFerry.Conversations

variable {κ : Type} [DecidableEq κ]

/-- An accepted call of `prepare_async`; `retry` says whether it brought a predicate. -/
structure Waiter where
  id : Nat
  retry : Bool

/-- What `_threads` may hold: the result of a read, or the empty list. -/
inductive Projection where
  | of (read : Nat)
  | empty
deriving DecidableEq

structure ConversationIndex (κ : Type) where
  signature : Option κ
  threads : Option Projection
  generation : Nat
  loading : Bool
  waiting : List Waiter

/-- What a build was started from. -/
structure Read (κ : Type) where
  generation : Nat
  signature : κ

/-- A call that is not over. -/
inductive Frame (κ : Type) where
  /-- an `on_ready` or `on_error` -/
  | callback
  /-- the `retry` of a caller, asked from the loop of `loaded` -/
  | asking (waiter : Waiter)
  /-- `submit(job_factory(), …)` -/
  | submitting (read : Read κ)
  /-- the loop of `loaded` -/
  | delivering (current : Bool) (rest : List Waiter)
  /-- the loop of `reject` -/
  | rejecting (rest : List Waiter)

inductive Entry (κ : Type) where
  /-- a call was accepted -/
  | called (id : Nat)
  /-- its `on_ready`, and what was cached, the generation and the revision then -/
  | ready (id : Nat) (threads : Projection) (generation : Nat) (revision : κ)
  /-- its `on_error` -/
  | failed (id : Nat)
  /-- a build was started in this generation, at this revision -/
  | began (read : Nat) (generation : Nat) (revision : κ)
  /-- `_threads` was set, and the generation and the revision then -/
  | published (threads : Projection) (generation : Nat) (revision : κ)

structure World (κ : Type) where
  index : ConversationIndex κ
  revision : κ
  reads : Slots (Read κ)
  stack : List (Frame κ)
  callers : Nat
  log : List (Entry κ)

def World.start (revision : κ) : World κ where
  index := ⟨none, none, 0, false, []⟩
  revision := revision
  reads := Slots.empty
  stack := []
  callers := 0
  log := []

/-! ## The methods -/

section

variable (w : World κ)

def World.record (entry : Entry κ) : World κ := { w with log := entry :: w.log }

def World.push (frame : Frame κ) : World κ := { w with stack := frame :: w.stack }

/-- `on_error`, up to the call of it. -/
def World.fail (waiter : Waiter) : World κ :=
  (w.record (.failed waiter.id)).push .callback

/-- `on_ready`, up to the call of it. -/
def World.ready (w : World κ) (waiter : Waiter) (threads : Projection) : World κ :=
  (w.record (.ready waiter.id threads w.index.generation w.revision)).push .callback

/-- `invalidate` -/
def World.invalidate : World κ :=
  { w with index := { w.index with
      generation := w.index.generation + 1, signature := none, threads := none } }

/-- The cached projection, where its signature is the revision. -/
def World.cached : Option Projection :=
  if w.index.signature = some w.revision then w.index.threads else none

/-- `prepare_async` once `_revision` has returned, up to the first call of other code. -/
def World.prepareAsync (waiter : Waiter) : World κ :=
  match w.cached with
  | some threads => w.ready waiter threads
  | none =>
    if 64 ≤ w.index.waiting.length then w.fail waiter
    else if w.index.loading then
      { w with index := { w.index with waiting := w.index.waiting ++ [waiter] } }
    else
      World.push { w with index := { w.index with
          waiting := w.index.waiting ++ [waiter], loading := true } }
        (.submitting ⟨w.index.generation, w.revision⟩)

/-- The call of `prepare_async` in the loop of `loaded`. -/
def World.prepareAgain (waiter : Waiter) (raises : Bool) : World κ :=
  if raises then w.fail waiter else w.prepareAsync waiter

/-- `reject` -/
def World.reject : World κ :=
  World.push { w with index := { w.index with loading := false, waiting := [] } }
    (.rejecting w.index.waiting)

/-- The build was started from what is current. -/
def World.Current (read : Read κ) : Prop :=
  read.generation = w.index.generation ∧ read.signature = w.revision

end

instance (w : World κ) (read : Read κ) : Decidable (w.Current read) :=
  inferInstanceAs (Decidable (_ ∧ _))

section

variable (w : World κ)

/-- `self._threads = threads`, `self._signature = signature` -/
def World.publish (threads : Projection) (signature : κ) : World κ :=
  World.record { w with index := { w.index with
      threads := some threads, signature := some signature } }
    (.published threads w.index.generation w.revision)

/-- `loaded`; `raises` is whether `_revision` does. -/
def World.loaded (read : Read κ) (threads : Projection) (raises : Bool) : World κ :=
  if raises then w.reject
  else
    let waiting := w.index.waiting
    let current := decide (w.Current read)
    let w := if current then w.publish threads read.signature else w
    World.push { w with index := { w.index with loading := false, waiting := [] } }
      (.delivering current waiting)

/-- `failed`; `raises` and `again` are whether `_revision` does in it and in `loaded`. -/
def World.failed (read : Read κ) (raises again : Bool) : World κ :=
  if raises then w.reject
  else if w.Current read then w.reject
  else w.loaded read .empty again

/-- `threads`, the synchronous read; `builds` is whether loader and builder return. -/
def World.readThreads (builds : Bool) : World κ :=
  match w.cached with
  | some _ => w
  | none =>
    if builds then
      let n := w.reads.next
      World.publish { w with
          reads := (w.reads.put ⟨w.index.generation, w.revision⟩).take n
          log := .began n w.index.generation w.revision :: w.log }
        (.of n) w.revision
    else w

/-! ## The steps -/

/-- Other code has the main loop: nothing runs, or a callback does. -/
def World.listens : Bool :=
  match w.stack with
  | [] => true
  | .callback :: _ => true
  | .asking _ :: _ => true
  | _ => false

inductive Input (κ : Type) where
  | prepareAsync (retry : Bool)
  | invalidate
  | threads (builds : Bool)
  /-- the callback returns, a `retry` with this answer -/
  | returns (answer : Bool)
  /-- `submit` returns, or raises -/
  | submit (accepted : Bool)
  /-- the answer of a worker is delivered -/
  | complete (n : Nat) (succeeded : Bool)
  /-- a loop goes on -/
  | proceed
  /-- the history changes -/
  | change (revision : κ)

/-- Whether `_revision` raises, the first and the second time it is called in the step. -/
structure Answers where
  raises : Bool
  again : Bool

/-- Other code calls `prepare_async`; where `_revision` raises, so does the call. -/
def World.call (retry raises : Bool) : World κ :=
  if raises then w
  else
    let waiter : Waiter := ⟨w.callers, retry⟩
    World.prepareAsync { w with callers := w.callers + 1, log := .called w.callers :: w.log } waiter

/-- The innermost call returns. -/
def World.returns (answer raises : Bool) : World κ :=
  match w.stack with
  | .callback :: rest => { w with stack := rest }
  | .asking waiter :: rest =>
    if answer then World.prepareAgain { w with stack := rest } waiter raises
    else World.fail { w with stack := rest } waiter
  | _ => w

def World.submitted (accepted : Bool) (a : Answers) : World κ :=
  match w.stack with
  | .submitting read :: rest =>
    if accepted then
      { w with
        stack := rest
        reads := w.reads.put read
        log := .began w.reads.next read.generation read.signature :: w.log }
    else World.failed { w with stack := rest } read a.raises a.again
  | _ => w

def World.completed (n : Nat) (succeeded : Bool) (a : Answers) : World κ :=
  match w.reads.get n with
  | none => w
  | some read =>
    let w := { w with reads := w.reads.take n }
    if succeeded then w.loaded read (.of n) a.raises else w.failed read a.raises a.again

/-- The next round of a loop. -/
def World.proceed (raises : Bool) : World κ :=
  match w.stack with
  | .delivering _ [] :: rest => { w with stack := rest }
  | .delivering current (waiter :: waiters) :: rest =>
    let w := { w with stack := .delivering current waiters :: rest }
    if current = false ∧ waiter.retry = true then w.push (.asking waiter)
    else w.prepareAgain waiter raises
  | .rejecting [] :: rest => { w with stack := rest }
  | .rejecting (waiter :: waiters) :: rest =>
    World.fail { w with stack := .rejecting waiters :: rest } waiter
  | _ => w

def step (i : Input κ × Answers) : World κ :=
  match i.1 with
  | .prepareAsync retry => if w.listens then w.call retry i.2.raises else w
  | .invalidate => if w.listens then w.invalidate else w
  | .threads builds => if w.listens ∧ i.2.raises = false then w.readThreads builds else w
  | .returns answer => w.returns answer i.2.raises
  | .submit accepted => w.submitted accepted i.2
  | .complete n succeeded => if w.listens then w.completed n succeeded i.2 else w
  | .proceed => w.proceed i.2.raises
  | .change revision => { w with revision := revision }

/-! ## What is kept -/

/-- The callers that a call still has to deal with. -/
def Frame.waiters : Frame κ → List Waiter
  | .asking waiter => [waiter]
  | .delivering _ rest => rest
  | .rejecting rest => rest
  | _ => []

/-- The callers that were accepted and not called back. -/
def World.pending : List Waiter := w.index.waiting ++ w.stack.flatMap Frame.waiters

end

def Entry.isAnswer (id : Nat) : Entry κ → Bool
  | .ready i _ _ _ => i == id
  | .failed i => i == id
  | _ => false

def Entry.isCall (id : Nat) : Entry κ → Bool
  | .called i => i == id
  | _ => false

/-- How often a caller was called back. -/
def answers (id : Nat) (log : List (Entry κ)) : Nat := log.countP (Entry.isAnswer id)

/-- How often a call was accepted under this number. -/
def calls (id : Nat) (log : List (Entry κ)) : Nat := log.countP (Entry.isCall id)

def occurrences (id : Nat) (waiters : List Waiter) : Nat :=
  waiters.countP (fun waiter => waiter.id == id)

/-- The projection is the result of a build that was started in this generation, at this revision. -/
def BuiltFrom (threads : Projection) (generation : Nat) (revision : κ) (log : List (Entry κ)) :
    Prop :=
  ∃ n, threads = .of n ∧ .began n generation revision ∈ log

/-- A caller is told that the projection is ready only while what is cached was built from what is
current, and nothing else is published. -/
def Rightful : Entry κ → List (Entry κ) → Prop
  | .ready _ threads generation revision, earlier => BuiltFrom threads generation revision earlier
  | .published threads generation revision, earlier => BuiltFrom threads generation revision earlier
  | _, _ => True

/-- What holds also while a build is being dealt with; `hand` are the callers that the running
method has taken out of the lists. -/
structure Base (hand : List Waiter) (w : World κ) : Prop where
  rightful : Trace.Each Rightful w.log
  cached : ∀ threads signature, w.index.threads = some threads →
    w.index.signature = some signature → BuiltFrom threads w.index.generation signature w.log
  started : ∀ n read, w.reads.Holds n read → .began n read.generation read.signature ∈ w.log
  balance : ∀ id, answers id w.log + occurrences id (hand ++ w.pending) = calls id w.log
  once : ∀ id, calls id w.log = if id < w.callers then 1 else 0

/-- A caller in the list waits for a build, and a build is on its way. -/
structure Sound (hand : List Waiter) (w : World κ) : Prop extends Base hand w where
  waits : w.index.waiting ≠ [] → w.index.loading = true
  loads : w.index.loading = true →
    (∃ n read, w.reads.Holds n read) ∨ ∃ read, .submitting read ∈ w.stack

variable {threads : Projection} {hand : List Waiter} {waiter : Waiter}

theorem BuiltFrom.later {generation : Nat} {revision : κ}
    {log : List (Entry κ)} (h : BuiltFrom threads generation revision log) (entry : Entry κ) :
    BuiltFrom threads generation revision (entry :: log) := by
  obtain ⟨n, hn, hmem⟩ := h
  exact ⟨n, hn, .tail _ hmem⟩

theorem occurrences_append (id : Nat) (xs ys : List Waiter) :
    occurrences id (xs ++ ys) = occurrences id xs + occurrences id ys := List.countP_append

theorem occurrences_cons (id : Nat) (waiter : Waiter) (waiters : List Waiter) :
    occurrences id (waiter :: waiters)
      = occurrences id [waiter] + occurrences id waiters := by
  rw [← List.singleton_append, occurrences_append]

variable {w : World κ}

/-- The same callers may be kept elsewhere. -/
theorem Base.move {hand' : List Waiter} (h : Base hand w) {waiting : List Waiter}
    {loading : Bool} {stack : List (Frame κ)}
    (hcount : ∀ id, occurrences id (hand' ++ (waiting ++ stack.flatMap Frame.waiters))
      = occurrences id (hand ++ w.pending)) : Base hand' { w with
      index := { w.index with waiting := waiting, loading := loading }, stack := stack } := by
  refine { h with balance := ?_ }
  intro id
  rw [World.pending, hcount id]
  exact h.balance id

theorem Sound.restack {hand' : List Waiter} (h : Sound hand w) {stack : List (Frame κ)}
    (hcount : ∀ id, occurrences id (hand' ++ (w.index.waiting ++ stack.flatMap Frame.waiters))
      = occurrences id (hand ++ w.pending))
    (hsubmitting : ∀ read, .submitting read ∈ w.stack → .submitting read ∈ stack) :
    Sound hand' { w with stack := stack } := by
  refine ⟨h.toBase.move hcount, h.waits, ?_⟩
  intro hloading
  exact (h.loads hloading).imp id (fun ⟨read, hread⟩ => ⟨read, hsubmitting read hread⟩)

/-- A frame without callers. -/
theorem Sound.push (h : Sound hand w) {frame : Frame κ}
    (hframe : frame.waiters = []) : Sound hand (w.push frame) := by
  refine h.restack ?_ (fun read hread => .tail _ hread)
  intro id
  rw [List.flatMap_cons, hframe, List.nil_append]
  rfl

/-- An entry that is neither a call nor an answer. -/
theorem Base.record (h : Base hand w) (entry : Entry κ)
    (hentry : Rightful entry w.log) (hanswer : ∀ id, entry.isAnswer id = false)
    (hcall : ∀ id, entry.isCall id = false) : Base hand (w.record entry) := by
  have hanswers : ∀ id, answers id (entry :: w.log) = answers id w.log :=
    fun id => List.countP_cons_of_neg (by simp [hanswer id])
  have hcalls : ∀ id, calls id (entry :: w.log) = calls id w.log :=
    fun id => List.countP_cons_of_neg (by simp [hcall id])
  refine ⟨⟨hentry, h.rightful⟩, ?_, ?_, ?_, ?_⟩
  · exact fun threads signature ht hs => (h.cached threads signature ht hs).later entry
  · exact fun n read hn => .tail _ (h.started n read hn)
  · intro id
    show answers id (entry :: w.log) + _ = calls id (entry :: w.log)
    rw [hanswers, hcalls]
    exact h.balance id
  intro id
  show calls id (entry :: w.log) = _
  rw [hcalls]
  exact h.once id

/-- The caller in hand is called back. -/
theorem Sound.answer (h : Sound [waiter] w) (entry : Entry κ)
    (hentry : Rightful entry w.log) (hanswer : ∀ id, entry.isAnswer id = (waiter.id == id))
    (hcall : ∀ id, entry.isCall id = false) : Sound [] ((w.record entry).push .callback) := by
  have hcalls : ∀ id, calls id (entry :: w.log) = calls id w.log :=
    fun id => List.countP_cons_of_neg (by simp [hcall id])
  have hanswers : ∀ id, answers id (entry :: w.log)
      = answers id w.log + occurrences id [waiter] := by
    intro id
    show (entry :: w.log).countP (Entry.isAnswer id) = _
    rw [List.countP_cons, hanswer id]
    simp only [occurrences, List.countP_cons, List.countP_nil, Nat.zero_add]
    rfl
  have hbase : Base [] (w.record entry) := by
    refine ⟨⟨hentry, h.rightful⟩, ?_, ?_, ?_, ?_⟩
    · exact fun threads signature ht hs => (h.cached threads signature ht hs).later entry
    · exact fun n read hn => .tail _ (h.started n read hn)
    · intro id
      show answers id (entry :: w.log) + occurrences id ([] ++ w.pending) = calls id (entry :: w.log)
      have hbalance := h.balance id
      rw [occurrences_append] at hbalance
      rw [hanswers, hcalls, List.nil_append]
      omega
    intro id
    show calls id (entry :: w.log) = _
    rw [hcalls]
    exact h.once id
  exact Sound.push ⟨hbase, h.waits, h.loads⟩ rfl

theorem Sound.fail (h : Sound [waiter] w) : Sound [] (w.fail waiter) :=
  h.answer (.failed waiter.id) trivial (fun _ => rfl) (fun _ => rfl)

theorem cached_eq_some (h : w.cached = some threads) :
    w.index.signature = some w.revision ∧ w.index.threads = some threads := by
  unfold World.cached at h
  split at h
  · exact ⟨by assumption, h⟩
  · cases h

/-! ## Each method keeps it -/

theorem Sound.prepareAsync (h : Sound [waiter] w) : Sound [] (w.prepareAsync waiter) := by
  have hadded : ∀ id (stack : List (Frame κ)), stack.flatMap Frame.waiters
        = w.stack.flatMap Frame.waiters →
      occurrences id ([] ++ ((w.index.waiting ++ [waiter]) ++ stack.flatMap Frame.waiters))
        = occurrences id ([waiter] ++ w.pending) := by
    intro id stack hstack
    rw [hstack, World.pending]
    simp only [occurrences_append, List.nil_append]
    omega
  unfold World.prepareAsync
  split
  · rename_i threads hcached
    obtain ⟨hsignature, hthreads⟩ := cached_eq_some hcached
    exact h.answer (.ready waiter.id threads w.index.generation w.revision)
      (h.cached threads w.revision hthreads hsignature) (fun _ => rfl) (fun _ => rfl)
  split
  · exact h.fail
  split
  · rename_i hloading
    exact ⟨h.toBase.move (fun id => hadded id w.stack rfl), fun _ => hloading, h.loads⟩
  refine ⟨h.toBase.move (fun id => hadded id _ rfl), fun _ => rfl, ?_⟩
  exact fun _ => .inr ⟨_, List.mem_cons_self ..⟩

theorem Sound.prepareAgain (h : Sound [waiter] w) (raises : Bool) :
    Sound [] (w.prepareAgain waiter raises) := by
  unfold World.prepareAgain
  split
  · exact h.fail
  · exact h.prepareAsync

/-- The callers of a build are handed to a loop, and no build is on its way. -/
theorem Base.handOver (h : Base [] w) {frame : Frame κ} (hframe : frame.waiters = w.index.waiting) :
    Sound [] (World.push { w with index := { w.index with loading := false, waiting := [] } }
      frame) := by
  refine ⟨h.move ?_, fun hwaiting => absurd rfl hwaiting, nofun⟩
  intro id
  rw [List.flatMap_cons, hframe]
  rfl

theorem Base.publish (h : Base hand w) {signature : κ} (hsignature : signature = w.revision)
    (hbuilt : BuiltFrom threads w.index.generation w.revision w.log) :
    Base hand (w.publish threads signature) := by
  have hset : Base hand { w with index := { w.index with
      threads := some threads, signature := some signature } } := by
    refine { h with cached := ?_ }
    intro threads' signature' ht hs
    cases ht
    cases hs
    rw [hsignature]
    exact hbuilt
  exact hset.record _ hbuilt (fun _ => rfl) (fun _ => rfl)

theorem Base.loaded (h : Base [] w) {read : Read κ} (raises : Bool)
    (hbuilt : w.Current read → BuiltFrom threads w.index.generation w.revision w.log) :
    Sound [] (w.loaded read threads raises) := by
  unfold World.loaded
  split
  · exact h.handOver rfl
  extract_lets waiting current w₁
  have hw₁ : Base [] w₁ ∧ w₁.index.waiting = waiting := by
    show Base [] (if current then w.publish threads read.signature else w) ∧
      (if current then w.publish threads read.signature else w).index.waiting = waiting
    split
    · rename_i hcurrent
      have hc : w.Current read := of_decide_eq_true hcurrent
      exact ⟨h.publish hc.2 (hbuilt hc), rfl⟩
    · exact ⟨h, rfl⟩
  exact hw₁.1.handOver hw₁.2.symm

theorem Base.failed (h : Base [] w) (read : Read κ) (raises again : Bool) :
    Sound [] (w.failed read raises again) := by
  unfold World.failed
  split
  · exact h.handOver rfl
  split
  · exact h.handOver rfl
  rename_i hstale
  exact h.loaded again (fun hcurrent => absurd hcurrent hstale)

section

variable (h : Sound [] w)
include h

theorem Sound.invalidate : Sound [] w.invalidate :=
  ⟨⟨h.rightful, nofun, h.started, h.balance, h.once⟩, h.waits, h.loads⟩

theorem Sound.readThreads (builds : Bool) : Sound [] (w.readThreads builds) := by
  unfold World.readThreads
  split
  · exact h
  split
  · extract_lets n
    have hholds : ∀ m read, ((w.reads.put ⟨w.index.generation, w.revision⟩).take n).Holds m read ↔
        w.reads.Holds m read := by
      intro m read
      rw [Slots.holds_take, Slots.holds_put]
      constructor
      · rintro ⟨hne, ⟨heq, _⟩ | hold⟩
        · exact absurd heq hne
        · exact hold
      · exact fun hold => ⟨Nat.ne_of_lt hold.lt, .inr hold⟩
    have hbegan : Base [] (World.record w (.began n w.index.generation w.revision)) :=
      h.toBase.record _ trivial (fun _ => rfl) (fun _ => rfl)
    have hreads : Base [] { w with
        reads := (w.reads.put ⟨w.index.generation, w.revision⟩).take n
        log := .began n w.index.generation w.revision :: w.log } :=
      { hbegan with started := fun m read hm => hbegan.started m read ((hholds m read).mp hm) }
    refine ⟨hreads.publish rfl ⟨n, rfl, List.mem_cons_self ..⟩, h.waits, ?_⟩
    intro hloading
    rcases h.loads hloading with ⟨m, read, hm⟩ | hsubmitting
    · exact .inl ⟨m, read, (hholds m read).mpr hm⟩
    · exact .inr hsubmitting
  · exact h

theorem Sound.call (retry raises : Bool) : Sound [] (w.call retry raises) := by
  unfold World.call
  split
  · exact h
  extract_lets waiter
  refine Sound.prepareAsync (w := { w with
    callers := w.callers + 1, log := .called w.callers :: w.log }) ?_
  have hcalls : ∀ id, calls id (.called w.callers :: w.log)
      = calls id w.log + occurrences id [waiter] := by
    intro id
    show (Entry.called w.callers :: w.log).countP (Entry.isCall id) = _
    rw [List.countP_cons]
    simp only [occurrences, List.countP_cons, List.countP_nil, Nat.zero_add]
    rfl
  have hanswers : ∀ id, answers id (.called w.callers :: w.log) = answers id w.log :=
    fun id => List.countP_cons_of_neg (by simp [Entry.isAnswer])
  refine ⟨⟨⟨trivial, h.rightful⟩, ?_, ?_, ?_, ?_⟩, h.waits, h.loads⟩
  · exact fun threads signature ht hs => (h.cached threads signature ht hs).later _
  · exact fun n read hn => .tail _ (h.started n read hn)
  · intro id
    have hbalance := h.balance id
    show answers id (.called w.callers :: w.log) + occurrences id ([waiter] ++ w.pending)
      = calls id (.called w.callers :: w.log)
    rw [hanswers, hcalls, occurrences_append]
    rw [List.nil_append] at hbalance
    omega
  intro id
  show calls id (.called w.callers :: w.log) = if id < w.callers + 1 then 1 else 0
  have honce := h.once id
  have hone : occurrences id [waiter] = if w.callers = id then 1 else 0 := by
    simp [occurrences, List.countP_cons, waiter]
  rw [hcalls, honce, hone]
  split_ifs <;> omega

theorem Sound.returns (answer raises : Bool) : Sound [] (w.returns answer raises) := by
  unfold World.returns
  split
  · rename_i rest hstack
    refine h.restack ?_ ?_
    · intro id
      rw [World.pending, hstack]
      rfl
    · intro read hread
      rw [hstack] at hread
      exact (List.mem_cons.mp hread).resolve_left nofun
  · rename_i waiter rest hstack
    have hhand : Sound [waiter] { w with stack := rest } := by
      refine h.restack ?_ ?_
      · intro id
        rw [World.pending, hstack, List.flatMap_cons]
        simp only [occurrences_append, List.nil_append, Frame.waiters]
        omega
      · intro read hread
        rw [hstack] at hread
        exact (List.mem_cons.mp hread).resolve_left nofun
    split
    · exact hhand.prepareAgain raises
    · exact hhand.fail
  · exact h

theorem Sound.submitted (accepted : Bool) (a : Answers) : Sound [] (w.submitted accepted a) := by
  unfold World.submitted
  split
  · rename_i read rest hstack
    have hpopped : Base [] { w with stack := rest } := by
      refine h.toBase.move ?_
      intro id
      rw [World.pending, hstack]
      rfl
    split
    · have hbegan := hpopped.record (.began w.reads.next read.generation read.signature)
        trivial (fun _ => rfl) (fun _ => rfl)
      refine ⟨⟨hbegan.rightful, hbegan.cached, ?_, hbegan.balance, hbegan.once⟩, h.waits, ?_⟩
      · intro n read' hn
        rcases Slots.holds_put.mp hn with ⟨rfl, rfl⟩ | hold
        · exact .head _ ..
        · exact .tail _ (h.started n read' hold)
      · exact fun _ => .inl ⟨_, read, Slots.holds_put.mpr (.inl ⟨rfl, rfl⟩)⟩
    · exact hpopped.failed read a.raises a.again
  · exact h

theorem Sound.completed (n : Nat) (succeeded : Bool) (a : Answers) :
    Sound [] (w.completed n succeeded a) := by
  unfold World.completed
  split
  · exact h
  rename_i read hread
  have htaken : Base [] { w with reads := w.reads.take n } :=
    { h with started := fun m read' hm => h.started m read' (Slots.holds_take.mp hm).2 }
  extract_lets w₁
  split
  · refine htaken.loaded a.raises ?_
    rintro ⟨hgeneration, hsignature⟩
    refine ⟨n, rfl, ?_⟩
    have hbegan := h.started n read hread
    rw [hgeneration, hsignature] at hbegan
    exact hbegan
  · exact htaken.failed read a.raises a.again

theorem Sound.proceed (raises : Bool) : Sound [] (w.proceed raises) := by
  have hsame : ∀ {frame : Frame κ} {rest stack : List (Frame κ)}, w.stack = frame :: rest →
      (∀ read, frame ≠ .submitting read) → rest ⊆ stack →
      ∀ read, .submitting read ∈ w.stack → .submitting read ∈ stack := by
    intro frame rest stack hstack hframe hsub read hread
    rw [hstack] at hread
    exact hsub ((List.mem_cons.mp hread).resolve_left (fun heq => hframe read heq.symm))
  unfold World.proceed
  split
  · rename_i current rest hstack
    refine h.restack ?_ (hsame hstack (fun _ => nofun) (List.Subset.refl _))
    intro id
    rw [World.pending, hstack]
    rfl
  · rename_i current waiter waiters rest hstack
    have hhand : Sound [waiter] { w with stack := .delivering current waiters :: rest } := by
      refine h.restack ?_ (hsame hstack (fun _ => nofun) (List.subset_cons_self _ _))
      intro id
      rw [World.pending, hstack, List.flatMap_cons, List.flatMap_cons]
      simp only [occurrences_append, List.nil_append, Frame.waiters]
      rw [occurrences_cons id waiter waiters]
      omega
    extract_lets w₁
    split
    · refine hhand.restack ?_ (fun read hread => .tail _ hread)
      intro id
      show occurrences id ([] ++ (w.index.waiting ++
          List.flatMap Frame.waiters (.asking waiter :: .delivering current waiters :: rest)))
        = occurrences id ([waiter] ++ (w.index.waiting ++
          List.flatMap Frame.waiters (.delivering current waiters :: rest)))
      rw [List.flatMap_cons]
      simp only [occurrences_append, List.nil_append, Frame.waiters]
      omega
    · exact hhand.prepareAgain raises
  · rename_i rest hstack
    refine h.restack ?_ (hsame hstack (fun _ => nofun) (List.Subset.refl _))
    intro id
    rw [World.pending, hstack]
    rfl
  · rename_i waiter waiters rest hstack
    refine Sound.fail ?_
    refine h.restack ?_ (hsame hstack (fun _ => nofun) (List.subset_cons_self _ _))
    intro id
    rw [World.pending, hstack, List.flatMap_cons, List.flatMap_cons]
    simp only [occurrences_append, List.nil_append, Frame.waiters]
    rw [occurrences_cons id waiter waiters]
    omega
  · exact h

end

/-! ## Whole runs -/

theorem sound_step (w : World κ) (i : Input κ × Answers) (h : Sound [] w) :
    Sound [] (step w i) := by
  obtain ⟨i, a⟩ := i
  cases i with
  | prepareAsync retry =>
    show Sound [] (if w.listens then w.call retry a.raises else w)
    split
    · exact h.call retry a.raises
    · exact h
  | invalidate =>
    show Sound [] (if w.listens then w.invalidate else w)
    split
    · exact h.invalidate
    · exact h
  | threads builds =>
    show Sound [] (if w.listens ∧ a.raises = false then w.readThreads builds else w)
    split
    · exact h.readThreads builds
    · exact h
  | returns answer => exact h.returns answer a.raises
  | submit accepted => exact h.submitted accepted a
  | complete n succeeded =>
    show Sound [] (if w.listens then w.completed n succeeded a else w)
    split
    · exact h.completed n succeeded a
    · exact h
  | proceed => exact h.proceed a.raises
  | change revision => exact ⟨⟨h.rightful, h.cached, h.started, h.balance, h.once⟩, h.waits, h.loads⟩

theorem sound_run (revision : κ) (inputs : List (Input κ × Answers)) :
    Sound [] (Machine.run step (World.start revision) inputs) := by
  refine Machine.always (P := Sound []) step sound_step inputs ?_
  exact ⟨⟨trivial, nofun,
    fun n read hn => absurd hn (Slots.not_holds_empty n read), fun _ => rfl, fun _ => rfl⟩,
    fun hwaiting => absurd rfl hwaiting, nofun⟩

/-- **Every caller is called back once.** In every run an accepted caller is called back at most
once, and it was once it is neither in the lists nor on the stack; in the lists it is only while a
build is on its way, so when no call runs and no worker has a build, all of them were. `on_ready`
is called only while what is cached was built in the current generation and from the current
revision, and nothing else is ever published. -/
theorem callers_called_back (revision : κ) (inputs : List (Input κ × Answers)) :
    let w := Machine.run step (World.start revision) inputs
    Trace.Each Rightful w.log ∧
      (∀ id, answers id w.log ≤ 1 ∧ calls id w.log ≤ 1) ∧
      (∀ id, answers id w.log + occurrences id w.pending = calls id w.log) ∧
      (w.stack = [] → w.pending ≠ [] → ∃ n read, w.reads.Holds n read) ∧
      (w.stack = [] → (∀ n read, ¬ w.reads.Holds n read) →
        ∀ id, answers id w.log = calls id w.log) := by
  intro w
  have h : Sound [] w := sound_run revision inputs
  have hcalls : ∀ id, calls id w.log ≤ 1 := by
    intro id
    rw [h.once id]
    split <;> omega
  have hwaits : w.stack = [] → w.pending ≠ [] → ∃ n read, w.reads.Holds n read := by
    intro hstack hpending
    have hwaiting : w.index.waiting ≠ [] := by
      rw [World.pending, hstack] at hpending
      simpa using hpending
    rcases h.loads (h.waits hwaiting) with hread | ⟨read, hread⟩
    · exact hread
    rw [hstack] at hread
    cases hread
  refine ⟨h.rightful, ?_, h.balance, hwaits, ?_⟩
  · intro id
    have hbalance := h.balance id
    have hcall := hcalls id
    exact ⟨by omega, hcall⟩
  intro hstack hidle id
  have hempty : w.pending = [] := by
    by_contra hpending
    obtain ⟨n, read, hread⟩ := hwaits hstack hpending
    exact hidle n read hread
  have hbalance := h.balance id
  rw [hempty] at hbalance
  exact hbalance

end BlueFerry.Conversations
