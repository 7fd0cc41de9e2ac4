import BlueFerry.Lib.Machine
import BlueFerry.Threads.Send

/-! # What leaves for the phone

Whatever happens between a request and its turn in the queue, a message leaves only for the
recipients that the conversation had at both moments (`replies_checked`). The step lemmas say
where a waiting reply and a transfer come from; the run lemma follows a transfer back through the
event that ran `send` for it to the request that was taken.
-/

namespace BlueFerry.Threads

open BlueFerry.Text
open BlueFerry.Groups
open BlueFerry.Recipients (validateRecipient)

/-! ## Where replies come from -/

/-- The reply that a job holds the place of. -/
def Job.reply : Job → Option Accepted
  | .turn a => some a
  | .push _ => none

/-- The transfer that a job runs. -/
def Job.transfer : Job → Option Push
  | .turn _ => none
  | .push p => some p

/-- The reply whose turn a callback announces. -/
def Callback.reply : Callback → Option Accepted
  | .dequeued a => some a
  | .succeeded _ | .failed _ => none

/-- The replies that were taken and have not run `send` yet. -/
def waiting (s : Sender) : List Accepted :=
  s.queue.filterMap Job.reply ++ s.callbacks.filterMap Callback.reply ++ s.refreshing

/-- The transfers that are queued or have run. -/
def transfers (s : Sender) : List Push := s.queue.filterMap Job.transfer ++ s.pushed

theorem mem_waiting {s : Sender} {a : Accepted} :
    a ∈ waiting s ↔ Job.turn a ∈ s.queue ∨ Callback.dequeued a ∈ s.callbacks
      ∨ a ∈ s.refreshing := by
  have hjob : a ∈ s.queue.filterMap Job.reply ↔ Job.turn a ∈ s.queue := by
    rw [List.mem_filterMap]
    constructor
    · rintro ⟨job, hjob, ha⟩
      cases job with
      | turn b =>
        rw [Job.reply, Option.some.injEq] at ha
        exact ha ▸ hjob
      | push p => cases ha
    · intro h
      exact ⟨_, h, rfl⟩
  have hcallback : a ∈ s.callbacks.filterMap Callback.reply
      ↔ Callback.dequeued a ∈ s.callbacks := by
    rw [List.mem_filterMap]
    constructor
    · rintro ⟨callback, hcallback, ha⟩
      cases callback with
      | dequeued b =>
        rw [Callback.reply, Option.some.injEq] at ha
        exact ha ▸ hcallback
      | succeeded p => cases ha
      | failed p => cases ha
    · intro h
      exact ⟨_, h, rfl⟩
  rw [waiting, List.mem_append, List.mem_append, hjob, hcallback, or_assoc]

theorem mem_transfers {s : Sender} {p : Push} :
    p ∈ transfers s ↔ Job.push p ∈ s.queue ∨ p ∈ s.pushed := by
  rw [transfers, List.mem_append, List.mem_filterMap]
  constructor
  · rintro (⟨job, hjob, hp⟩ | h)
    · cases job with
      | turn a => cases hp
      | push q =>
        rw [Job.transfer, Option.some.injEq] at hp
        exact .inl (hp ▸ hjob)
    · exact .inr h
  · rintro (h | h)
    · exact .inl ⟨_, h, rfl⟩
    · exact .inr h

section Steps

variable {lib : Library} {refresh : Bool}

@[simp]
theorem waiting_fail (s : Sender) (r : Request) (e : SendError) :
    waiting (s.fail r e) = waiting s := rfl

variable {a : Accepted} {s : Sender}

theorem mem_waiting_submit {r : Request} {job : Job}
    (h : a ∈ waiting (s.submit r job)) : a ∈ waiting s ∨ job = .turn a := by
  unfold Sender.submit at h
  split at h
  · rcases mem_waiting.mp h with h | h | h
    · rcases List.mem_append.mp h with h | h
      · exact .inl (mem_waiting.mpr (.inl h))
      · exact .inr (List.mem_singleton.mp h).symm
    · exact .inl (mem_waiting.mpr (.inr (.inl h)))
    · exact .inl (mem_waiting.mpr (.inr (.inr h)))
  · exact .inl h

theorem mem_transfers_submit {r : Request} {job : Job} {p : Push}
    (h : p ∈ transfers (s.submit r job)) : p ∈ transfers s ∨ job = .push p := by
  unfold Sender.submit at h
  split at h
  · rcases mem_transfers.mp h with h | h
    · rcases List.mem_append.mp h with h | h
      · exact .inl (mem_transfers.mpr (.inl h))
      · exact .inr (List.mem_singleton.mp h).symm
    · exact .inl (mem_transfers.mpr (.inr h))
  · exact .inl h

theorem waiting_runSend {b : Accepted} (h : b ∈ waiting (s.runSend lib a)) : b ∈ waiting s := by
  unfold Sender.runSend at h
  split at h
  · exact h
  rcases mem_waiting_submit h with h | h
  · exact h
  · cases h

theorem transfers_runSend {p : Push}
    (h : p ∈ transfers (s.runSend lib a)) : p ∈ transfers s ∨ send lib s.world a = .ok p := by
  unfold Sender.runSend at h
  split at h
  · exact .inl h
  · next q hq =>
    rcases mem_transfers_submit h with h | h
    · exact .inl h
    rw [Job.push.injEq] at h
    exact .inr (h ▸ hq)

theorem waiting_remember (s : Sender) (p : Push) : waiting (s.remember p) = waiting s := by
  unfold Sender.remember
  split <;> rfl

theorem transfers_remember (s : Sender) (p : Push) : transfers (s.remember p) = transfers s := by
  unfold Sender.remember
  split <;> rfl

/-- **A waiting reply was taken by a request.** -/
theorem waiting_step {i : Input} (h : a ∈ waiting (step lib refresh s i)) :
    a ∈ waiting s ∨ ∃ r, i = .request r ∧ accept lib s.world r = .ok a := by
  cases i with
  | change w => exact .inl h
  | request r =>
    unfold step at h
    dsimp only at h
    split at h
    · exact .inl h
    · next b hb =>
      rcases mem_waiting_submit h with h | h
      · exact .inl h
      rw [Job.turn.injEq] at h
      exact .inr ⟨r, rfl, h ▸ hb⟩
  | work ok =>
    refine .inl ?_
    unfold step at h
    dsimp only at h
    split at h
    · exact h
    · next b queue hqueue =>
      rw [mem_waiting] at h ⊢
      rw [hqueue]
      rcases h with h | h | h
      · exact .inl (.tail _ h)
      · rcases List.mem_append.mp h with h | h
        · exact .inr (.inl h)
        rw [List.mem_singleton, Callback.dequeued.injEq] at h
        exact .inl (h ▸ List.mem_cons_self)
      · exact .inr (.inr h)
    · next p queue hqueue =>
      rw [mem_waiting] at h ⊢
      rw [hqueue]
      rcases h with h | h | h
      · exact .inl (.tail _ h)
      · rcases List.mem_append.mp h with h | h
        · exact .inr (.inl h)
        rw [List.mem_singleton] at h
        split at h <;> cases h
      · exact .inr (.inr h)
  | deliver =>
    refine .inl ?_
    unfold step at h
    dsimp only at h
    split at h
    · exact h
    · next b callbacks hcallbacks =>
      have hrest : ∀ c, c ∈ waiting { s with callbacks := callbacks } → c ∈ waiting s := by
        intro c hc
        rw [mem_waiting] at hc ⊢
        rw [hcallbacks]
        rcases hc with hc | hc | hc
        · exact .inl hc
        · exact .inr (.inl (.tail _ hc))
        · exact .inr (.inr hc)
      split at h
      · rcases mem_waiting.mp h with h | h | h
        · exact mem_waiting.mpr (.inl h)
        · rw [mem_waiting, hcallbacks]
          exact .inr (.inl (.tail _ h))
        rcases List.mem_append.mp h with h | h
        · exact mem_waiting.mpr (.inr (.inr h))
        rw [List.mem_singleton] at h
        rw [mem_waiting, hcallbacks, h]
        exact .inr (.inl (.head _))
      · exact hrest a (waiting_runSend h)
    · next p callbacks hcallbacks =>
      rw [waiting_remember, mem_waiting] at h
      rw [mem_waiting, hcallbacks]
      rcases h with h | h | h
      · exact .inl h
      · exact .inr (.inl (.tail _ h))
      · exact .inr (.inr h)
    · next p callbacks hcallbacks =>
      rw [waiting_fail, mem_waiting] at h
      rw [mem_waiting, hcallbacks]
      rcases h with h | h | h
      · exact .inl h
      · exact .inr (.inl (.tail _ h))
      · exact .inr (.inr h)
  | refreshed index ok =>
    refine .inl ?_
    unfold step at h
    dsimp only at h
    split at h
    · exact h
    · next b hb =>
      have hrest : ∀ c, c ∈ waiting { s with refreshing := s.refreshing.eraseIdx index } →
          c ∈ waiting s := by
        intro c hc
        rw [mem_waiting] at hc ⊢
        rcases hc with hc | hc | hc
        · exact .inl hc
        · exact .inr (.inl hc)
        · exact .inr (.inr (List.mem_of_mem_eraseIdx hc))
      split at h
      · exact hrest a (waiting_runSend h)
      · exact hrest a h

/-- **A transfer was sent off by the turn of its reply.** -/
theorem transfers_step {i : Input} {p : Push} (h : p ∈ transfers (step lib refresh s i)) :
    p ∈ transfers s ∨ ∃ a, executed refresh s i = some a ∧ send lib s.world a = .ok p := by
  cases i with
  | change w => exact .inl h
  | request r =>
    refine .inl ?_
    unfold step at h
    dsimp only at h
    split at h
    · exact h
    rcases mem_transfers_submit h with h | h
    · exact h
    · cases h
  | work ok =>
    refine .inl ?_
    unfold step at h
    dsimp only at h
    split at h
    · exact h
    · next b queue hqueue =>
      rw [mem_transfers] at h ⊢
      rw [hqueue]
      rcases h with h | h
      · exact .inl (.tail _ h)
      · exact .inr h
    · next q queue hqueue =>
      rw [mem_transfers] at h ⊢
      rw [hqueue]
      rcases h with h | h
      · exact .inl (.tail _ h)
      rcases List.mem_append.mp h with h | h
      · exact .inr h
      rw [List.mem_singleton] at h
      exact .inl (h ▸ List.mem_cons_self)
  | deliver =>
    unfold step at h
    dsimp only at h
    split at h
    · exact .inl h
    · next b callbacks hcallbacks =>
      split at h
      · exact .inl h
      · next hrefresh =>
        rcases transfers_runSend h with h | h
        · exact .inl h
        refine .inr ⟨b, ?_, h⟩
        rw [executed, hcallbacks]
        exact if_neg hrefresh
    · rw [transfers_remember] at h
      exact .inl h
    · exact .inl h
  | refreshed index ok =>
    unfold step at h
    dsimp only at h
    split at h
    · exact .inl h
    · next b hb =>
      split at h
      · next hok =>
        rcases transfers_runSend h with h | h
        · exact .inl h
        refine .inr ⟨b, ?_, h⟩
        rw [hok, executed]
        exact hb
      · exact .inl h

theorem executed_waiting {i : Input} (h : executed refresh s i = some a) : a ∈ waiting s := by
  unfold executed at h
  split at h
  · split at h
    · next b callbacks hcallbacks =>
      split at h
      · cases h
      rw [Option.some.injEq] at h
      rw [mem_waiting, hcallbacks, h]
      exact .inr (.inl (.head _))
    · cases h
  · exact mem_waiting.mpr (.inr (.inr (List.mem_of_getElem? h)))
  · cases h

end Steps

/-! ## Runs -/

section Runs

variable (lib : Library) (refresh : Bool) (w : World)

section

variable (inputs : List Input)

/-- The state after a list of events, from one in which nothing is queued. -/
def after : Sender := Machine.run (step lib refresh) { world := w } inputs

/-- The conversation that approves a reply after a list of events. -/
def ApprovedAfter (r : Request) (recipients : List Str) : Prop :=
  ∃ thread ∈ project lib (after lib refresh w inputs).world,
    Approves (after lib refresh w inputs).world thread r recipients

/-- A reply that a request of the run took, approved at that moment. -/
def TakenIn (a : Accepted) : Prop :=
  ∃ before rest, inputs = before ++ .request a.request :: rest
    ∧ ApprovedAfter lib refresh w before a.request a.recipients

/-- A transfer whose reply was taken, and approved again when its queued job was executed. -/
def CheckedIn (p : Push) : Prop :=
  ∃ before i rest, inputs = before ++ i :: rest ∧ TakenIn lib refresh w before p.accepted
    ∧ executed refresh (after lib refresh w before) i = some p.accepted
    ∧ ApprovedAfter lib refresh w before p.accepted.request p.recipients
    ∧ p.recipients = p.accepted.recipients

end

variable {lib refresh w}

theorem TakenIn.append {inputs : List Input} {a : Accepted} (h : TakenIn lib refresh w inputs a)
    (i : Input) : TakenIn lib refresh w (inputs ++ [i]) a := by
  rcases h with ⟨before, rest, rfl, happroved⟩
  exact ⟨before, rest ++ [i], by simp, happroved⟩

theorem CheckedIn.append {inputs : List Input} {p : Push} (h : CheckedIn lib refresh w inputs p)
    (i : Input) : CheckedIn lib refresh w (inputs ++ [i]) p := by
  rcases h with ⟨before, j, rest, rfl, hrest⟩
  exact ⟨before, j, rest ++ [i], by simp, hrest⟩

theorem after_append (inputs : List Input) (i : Input) :
    after lib refresh w (inputs ++ [i]) = step lib refresh (after lib refresh w inputs) i := by
  unfold after
  rw [Machine.run_append]
  rfl

/-- **What waits was taken and what is transferred was checked**, after every run. -/
theorem origins (inputs : List Input) :
    (∀ a ∈ waiting (after lib refresh w inputs), TakenIn lib refresh w inputs a)
      ∧ ∀ p ∈ transfers (after lib refresh w inputs), CheckedIn lib refresh w inputs p := by
  induction inputs using List.reverseRecOn with
  | nil =>
    constructor
    · intro a ha
      cases ha
    · intro p hp
      cases hp
  | append_singleton inputs i ih =>
    rw [after_append]
    constructor
    · intro a ha
      rcases waiting_step ha with ha | ⟨r, rfl, haccept⟩
      · exact (ih.1 a ha).append i
      rcases accept_ok haccept with ⟨rfl, happroved⟩
      exact ⟨inputs, [], rfl, happroved⟩
    intro p hp
    rcases transfers_step hp with hp | ⟨a, hexecuted, hsend⟩
    · exact (ih.2 p hp).append i
    rcases send_ok hsend with ⟨rfl, hsame, happroved⟩
    exact ⟨inputs, i, [], rfl, ih.1 _ (executed_waiting hexecuted), hexecuted, happroved, hsame⟩

end Runs

/-- The digests of the name of a group and of its folded name. -/
def replyDigests : List (Str × Str) :=
  [("Alex, Sam".toList, "909a7820b4d75debbb24bdced92c58eb431e6c3aa76dbaf1bf4a1bb62b02ef88".toList),
    ("alex, sam".toList, "61851bd19ef5108e9f5f026ec3ba707f48c8eeeaf1df11174d76e0b56a52960d".toList)]

/-- A history with one message that was sent to a group. -/
def replyWorld : World where
  events := [{ kind := .smsSent, handle := "sent-1".toList, senderAddress := "+15551230001".toList
               body := "Dinner at eight".toList, timestamp := "2024-05-01T10:00:00+00:00".toList
               groupKey := "group:addresses:phone:15551230001|phone:15551230002".toList
               groupName := "Alex, Sam".toList, groupMembers := ["Alex".toList, "Sam".toList]
               groupRecipients := ["+15551230001".toList, "+15551230002".toList]
               groupReplyReady := true }]
  routes := []
  resolver := Resolver.none
  stars := []
  connected := true
  confirmed := fun _ _ => false
  workerAccepts := true

/-- A confirmed reply to the group. -/
def groupReply : Request where
  threadKey := "group:addresses:phone:15551230001|phone:15551230002".toList
  body := "On my way".toList
  confirmGroup := true
  expectedGroupToken := "\n+15551230001\n+15551230002".toList

/-- The transfer to both members. -/
def groupPush : Push where
  accepted := ⟨groupReply, ["+15551230001".toList, "+15551230002".toList]⟩
  recipients := ["+15551230001".toList, "+15551230002".toList]
  confirms := some (groupReply.threadKey, groupReply.expectedGroupToken)

end BlueFerry.Threads
