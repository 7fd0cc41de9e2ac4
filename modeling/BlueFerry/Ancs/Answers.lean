import BlueFerry.Ancs.Actions
import BlueFerry.Ancs.Pumping

/-! # The callers of actions are answered

Every call of `perform_notification_action` is on the books (`Books`) until it is answered: refused
at once, or queued, written and then answered by the reply to the write, by the drop of the queued
action or by the loss of the session. The books balance in every state, so that no call is answered
twice and none is forgotten; and once nothing is under way any more, every call has its answer.

An offer is used once. While its action is on the books the offer is marked as in flight, and it is
unmarked only when the phone refused that very action (`Ledger`).
-/

namespace BlueFerry.Ancs

open BlueFerry.Text

/-! ## The books -/

/-- The entry answers the call. -/
def Entry.tells (call : Nat) : Entry → Bool
  | .called (.actionResult n _) => n == call
  | _ => false

/-- The entry tells a call that used the token that its action was sent. -/
def Entry.confirms (tokenOf : Nat → Nat) (token : Nat) : Entry → Bool
  | .called (.actionResult n .sent) => tokenOf n == token
  | _ => false

/-- The number of answers to a call. -/
def told (call : Nat) (log : List Entry) : Nat := log.countP (·.tells call)

/-- The number of calls with this token that were told that the action was sent. -/
def sentWith (tokenOf : Nat → Nat) (token : Nat) (log : List Entry) : Nat :=
  log.countP (·.confirms tokenOf token)

/-- The actions whose callers wait. -/
def Core.waiting (c : Core) : List ActionRequest :=
  c.queue.filterMap (·.action) ++ c.writes.filterMap (·.action)

/-- Every call that was made is answered or waits, and a token is confirmed or waited for once. -/
structure Books (tokenOf calls : Nat → Nat) (log : List Entry) (waiting : List ActionRequest) :
    Prop where
  balance : ∀ call, told call log + waiting.countP (fun a => a.call == call) = calls call
  tokens : ∀ a ∈ waiting, tokenOf a.call = a.token
  once : ∀ token, sentWith tokenOf token log + waiting.countP (fun a => a.token == token) ≤ 1

theorem told_cons_of_not {e : Entry} (he : e.isResult = false) (call : Nat) (log : List Entry) :
    told call (e :: log) = told call log := by
  refine List.countP_cons_of_neg ?_
  intro htells
  cases e with
  | called c =>
    cases c with
    | actionResult n result => cases he
    | _ => cases htells
  | _ => cases htells

theorem sentWith_cons_of_not {tokenOf : Nat → Nat} {e : Entry} (he : e.isResult = false)
    (token : Nat) (log : List Entry) :
    sentWith tokenOf token (e :: log) = sentWith tokenOf token log := by
  refine List.countP_cons_of_neg ?_
  intro hconfirms
  cases e with
  | called c =>
    cases c with
    | actionResult n result => cases he
    | _ => cases hconfirms
  | _ => cases hconfirms

theorem told_result (call n : Nat) (result : ActionResult) (log : List Entry) :
    told call (.called (.actionResult n result) :: log)
      = told call log + if n = call then 1 else 0 := by
  by_cases h : n = call
  · rw [if_pos h]
    exact List.countP_cons_of_pos (by simp [Entry.tells, h])
  rw [if_neg h]
  exact List.countP_cons_of_neg (by simp [Entry.tells, h])

theorem sentWith_result (tokenOf : Nat → Nat) (token n : Nat) (result : ActionResult)
    (log : List Entry) :
    sentWith tokenOf token (.called (.actionResult n result) :: log)
      = sentWith tokenOf token log + if result = .sent ∧ tokenOf n = token then 1 else 0 := by
  by_cases h : result = .sent ∧ tokenOf n = token
  · rw [if_pos h]
    refine List.countP_cons_of_pos ?_
    rw [h.1]
    simp [Entry.confirms, h.2]
  rw [if_neg h]
  refine List.countP_cons_of_neg ?_
  cases result with
  | sent =>
    have hne : tokenOf n ≠ token := fun heq => h ⟨rfl, heq⟩
    simp [Entry.confirms, hne]
  | _ => simp [Entry.confirms]

variable {a : ActionRequest}

namespace Books

variable {tokenOf calls : Nat → Nat} {log : List Entry} {waiting waiting' : List ActionRequest}

theorem perm (h : Books tokenOf calls log waiting) (hperm : waiting'.Perm waiting) :
    Books tokenOf calls log waiting' := by
  refine ⟨fun call => ?_, fun a ha => h.tokens a (hperm.mem_iff.mp ha), fun token => ?_⟩
  · rw [hperm.countP_eq]
    exact h.balance call
  · rw [hperm.countP_eq]
    exact h.once token

/-- Something else is noted. -/
theorem noted (h : Books tokenOf calls log waiting) {e : Entry} (he : e.isResult = false) :
    Books tokenOf calls (e :: log) waiting := by
  refine ⟨fun call => ?_, h.tokens, fun token => ?_⟩
  · rw [told_cons_of_not he]
    exact h.balance call
  · rw [sentWith_cons_of_not he]
    exact h.once token

/-- A caller is answered. -/
theorem answered (h : Books tokenOf calls log (a :: waiting)) (result : ActionResult) :
    Books tokenOf calls (.called (.actionResult a.call result) :: log) waiting := by
  refine ⟨fun call => ?_, fun x hx => h.tokens x (.tail _ hx), fun token => ?_⟩
  · have := h.balance call
    rw [List.countP_cons] at this
    rw [told_result]
    simp only [beq_iff_eq] at this
    omega
  have := h.once token
  have htoken := h.tokens a (.head _)
  rw [List.countP_cons] at this
  rw [sentWith_result, htoken]
  simp only [beq_iff_eq] at this
  split
  · rename_i hsent
    rw [if_pos hsent.2] at this
    omega
  · omega

/-- Several callers are answered in turn. -/
theorem answeredAll {actions : List ActionRequest}
    (h : Books tokenOf calls log (actions ++ waiting)) (result : ActionResult) :
    Books tokenOf calls
      ((actions.map (fun a => Entry.called (.actionResult a.call result))).reverse ++ log) waiting := by
  induction actions generalizing log with
  | nil => exact h
  | cons a actions ih =>
    rw [List.map_cons, List.reverse_cons, List.append_assoc, List.singleton_append]
    exact ih (h.answered result)

/-- A call is made and answered at once. -/
theorem refused (h : Books tokenOf calls log waiting) {result : ActionResult}
    (hresult : result ≠ .sent) (call : Nat) :
    Books tokenOf (fun n => calls n + if n = call then 1 else 0)
      (.called (.actionResult call result) :: log) waiting := by
  refine ⟨fun n => ?_, h.tokens, fun token => ?_⟩
  · have := h.balance n
    rw [told_result]
    by_cases hn : call = n
    · rw [if_pos hn, if_pos hn.symm]
      omega
    rw [if_neg hn, if_neg (fun hc => hn hc.symm)]
    omega
  · rw [sentWith_result, if_neg (fun hs => hresult hs.1)]
    exact h.once token

/-- A call is made and waits. -/
theorem taken (h : Books tokenOf calls log waiting) (htoken : tokenOf a.call = a.token)
    (hsent : sentWith tokenOf a.token log = 0) (hfree : ∀ x ∈ waiting, x.token ≠ a.token) :
    Books tokenOf (fun n => calls n + if n = a.call then 1 else 0) log (a :: waiting) := by
  refine ⟨fun n => ?_, fun x hx => ?_, fun token => ?_⟩
  · have := h.balance n
    rw [List.countP_cons]
    simp only [beq_iff_eq]
    by_cases hn : a.call = n
    · rw [if_pos hn, if_pos hn.symm]
      omega
    rw [if_neg hn, if_neg (fun hc => hn hc.symm)]
    omega
  · rcases List.mem_cons.mp hx with rfl | hx
    · exact htoken
    · exact h.tokens x hx
  have := h.once token
  rw [List.countP_cons]
  simp only [beq_iff_eq]
  by_cases ht : a.token = token
  · have hnone : waiting.countP (fun x => x.token == token) = 0 := by
      rw [List.countP_eq_zero]
      intro x hx
      simpa [← ht] using hfree x hx
    rw [if_pos ht, hnone, ← ht, hsent]
  · rw [if_neg ht]
    omega

/-- Two waiting actions with one token are one. -/
theorem not_twice {b : ActionRequest} (h : Books tokenOf calls log (a :: waiting))
    (hb : b ∈ waiting) : b.token ≠ a.token := by
  intro htoken
  have honce := h.once a.token
  have hpos : 0 < waiting.countP (fun x => x.token == a.token) :=
    List.countP_pos_iff.mpr ⟨b, hb, by simp [htoken]⟩
  rw [List.countP_cons_of_pos (by simp)] at honce
  omega

/-- An action that waits has not been confirmed. -/
theorem unsent (h : Books tokenOf calls log waiting) (ha : a ∈ waiting) :
    sentWith tokenOf a.token log = 0 := by
  have honce := h.once a.token
  have hpos : 0 < waiting.countP (fun x => x.token == a.token) :=
    List.countP_pos_iff.mpr ⟨a, ha, by simp⟩
  omega

end Books

/-! ## The offers -/

/-- A request for an action awaits no response, is never retired, and is reserved under its UID. -/
def PendingRequest.Shaped (r : PendingRequest) : Prop :=
  ∀ a, r.action = some a →
    r.assembler = none ∧ r.notification = none ∧ r.discarded = false ∧ r.key = .action a.uid

variable {r : PendingRequest}

theorem shaped_of_none (h : r.action = none) : r.Shaped := by
  intro a ha
  rw [h] at ha
  cases ha

/-- The books, and what the offers have to do with them. -/
structure Ledger (tokenOf calls : Nat → Nat) (c : Core) : Prop where
  books : Books tokenOf calls c.log c.waiting
  shaped : ∀ r, c.Holds r → r.Shaped
  below : (∀ a ∈ c.waiting, a.token < c.nextToken) ∧ ∀ e ∈ c.actionable, e.token < c.nextToken
  unsent : ∀ token, c.nextToken ≤ token → sentWith tokenOf token c.log = 0
  offers : (c.actionable.map (·.token)).Nodup
  uids : ∀ e ∈ c.actionable, ∀ a ∈ c.waiting, a.token = e.token → a.uid = e.uid
  /-- the open write of an action that is still offered is that of the active request -/
  carried : ∀ e ∈ c.actionable, ∀ w ∈ c.writes, ∀ a, w.action = some a → a.token = e.token →
    ∃ r, c.active = some r ∧ r.action = some a
  unused : ∀ e ∈ c.actionable, e.inFlight = false →
    sentWith tokenOf e.token c.log = 0 ∧ ∀ a ∈ c.waiting, a.token ≠ e.token
  spent : ∀ e ∈ c.actionable, sentWith tokenOf e.token c.log ≠ 0 →
    ∃ r a, c.active = some r ∧ r.action = some a ∧ a.token = e.token

variable {rest : List Write}

namespace Core

variable {c : Core}

theorem mem_waiting :
    a ∈ c.waiting ↔ (∃ r ∈ c.queue, r.action = some a) ∨ ∃ w ∈ c.writes, w.action = some a := by
  unfold waiting
  rw [List.mem_append, List.mem_filterMap, List.mem_filterMap]

/-- The answered write's action no longer waits. -/
theorem waiting_settle {w : Write} (hw : c.writes.Perm (w :: rest))
    (ha : w.action = some a) : c.waiting.Perm (a :: (c.settle w rest).waiting) := by
  have hwrites : (c.writes.filterMap (·.action)).Perm (a :: rest.filterMap (·.action)) := by
    have := hw.filterMap (·.action)
    rwa [List.filterMap_cons_some ha] at this
  exact (hwrites.append_left _).trans List.perm_middle

theorem waiting_settle_none {w : Write} (hw : c.writes.Perm (w :: rest))
    (ha : w.action = none) : c.waiting.Perm (c.settle w rest).waiting := by
  have hwrites : (c.writes.filterMap (·.action)).Perm (rest.filterMap (·.action)) := by
    have := hw.filterMap (·.action)
    rwa [List.filterMap_cons_none ha] at this
  exact hwrites.append_left _

end Core

namespace Ledger

variable {tokenOf calls : Nat → Nat} {c c' : Core}

section

variable (h : Ledger tokenOf calls c)
include h

/-- No offer is made, used or confirmed. -/
theorem keep (hbooks : Books tokenOf calls c'.log c'.waiting)
    (hsent : ∀ token, sentWith tokenOf token c'.log = sentWith tokenOf token c.log)
    (hwaiting : ∀ a ∈ c'.waiting, a ∈ c.waiting) (hshaped : ∀ r, c'.Holds r → r.Shaped)
    (hoffers : c'.actionable.Sublist c.actionable) (hnext : c'.nextToken = c.nextToken)
    (hcarried : ∀ e ∈ c'.actionable, ∀ w ∈ c'.writes, ∀ a, w.action = some a → a.token = e.token →
      ∃ r, c'.active = some r ∧ r.action = some a)
    (hspent : ∀ e ∈ c'.actionable, sentWith tokenOf e.token c.log ≠ 0 →
      ∃ r a, c'.active = some r ∧ r.action = some a ∧ a.token = e.token) :
    Ledger tokenOf calls c' := by
  refine ⟨hbooks, hshaped, ⟨fun a ha => ?_, fun e he => ?_⟩, fun token ht => ?_, ?_, ?_, hcarried,
    fun e he hfree => ?_, fun e he hs => ?_⟩
  · rw [hnext]
    exact h.below.1 a (hwaiting a ha)
  · rw [hnext]
    exact h.below.2 e (hoffers.subset he)
  · rw [hsent]
    exact h.unsent token (by rw [← hnext]; exact ht)
  · exact (List.Sublist.map _ hoffers).nodup h.offers
  · exact fun e he a ha => h.uids e (hoffers.subset he) a (hwaiting a ha)
  · obtain ⟨hzero, hnone⟩ := h.unused e (hoffers.subset he) hfree
    exact ⟨by rw [hsent]; exact hzero, fun a ha => hnone a (hwaiting a ha)⟩
  · exact hspent e he (by rw [← hsent]; exact hs)

/-- The same, while the active request keeps its action. -/
theorem keepActive (hbooks : Books tokenOf calls c'.log c'.waiting)
    (hsent : ∀ token, sentWith tokenOf token c'.log = sentWith tokenOf token c.log)
    (hwaiting : ∀ a ∈ c'.waiting, a ∈ c.waiting) (hshaped : ∀ r, c'.Holds r → r.Shaped)
    (hoffers : c'.actionable.Sublist c.actionable) (hnext : c'.nextToken = c.nextToken)
    (hwrites : ∀ w ∈ c'.writes, w ∈ c.writes)
    (hactive : ∀ r a, c.active = some r → r.action = some a →
      ∃ r', c'.active = some r' ∧ r'.action = some a) : Ledger tokenOf calls c' := by
  refine h.keep hbooks hsent hwaiting hshaped hoffers hnext ?_ ?_
  · intro e he w hw a ha htoken
    obtain ⟨r, hr, hra⟩ := h.carried e (hoffers.subset he) w (hwrites w hw) a ha htoken
    exact hactive r a hr hra
  intro e he hs
  obtain ⟨r, a, hr, hra, htoken⟩ := h.spent e (hoffers.subset he) hs
  obtain ⟨r', hr', hra'⟩ := hactive r a hr hra
  exact ⟨r', a, hr', hra', htoken⟩

/-- Nothing that the books are about changes. -/
theorem same (hlog : ∃ e, e.isResult = false ∧ (c'.log = c.log ∨ c'.log = e :: c.log))
    (hqueue : c'.queue = c.queue) (hwrites : c'.writes = c.writes)
    (hoffers : c'.actionable.Sublist c.actionable) (hnext : c'.nextToken = c.nextToken)
    (hactive : c'.active = c.active) : Ledger tokenOf calls c' := by
  have hwaiting : c'.waiting = c.waiting := by
    unfold Core.waiting
    rw [hqueue, hwrites]
  have hsent : ∀ token, sentWith tokenOf token c'.log = sentWith tokenOf token c.log := by
    intro token
    obtain ⟨e, he, hlog | hlog⟩ := hlog
    · rw [hlog]
    · rw [hlog, sentWith_cons_of_not he]
  refine h.keepActive ?_ hsent (by rw [hwaiting]; exact fun a ha => ha) ?_ hoffers hnext
    (by rw [hwrites]; exact fun w hw => hw) (fun r a hr hra => ⟨r, by rw [hactive]; exact hr, hra⟩)
  · rw [hwaiting]
    obtain ⟨e, he, hlog | hlog⟩ := hlog
    · rw [hlog]
      exact h.books
    rw [hlog]
    exact h.books.noted he
  intro r hr
  unfold Core.Holds at hr
  rw [hqueue, hactive] at hr
  exact h.shaped r hr

/-- All offers are withdrawn. -/
theorem cleared (hbooks : Books tokenOf calls c'.log c'.waiting)
    (hsent : ∀ token, sentWith tokenOf token c'.log = sentWith tokenOf token c.log)
    (hwaiting : ∀ a ∈ c'.waiting, a ∈ c.waiting) (hshaped : ∀ r, c'.Holds r → r.Shaped)
    (hoffers : c'.actionable = []) (hnext : c'.nextToken = c.nextToken) :
    Ledger tokenOf calls c' := by
  refine h.keep hbooks hsent hwaiting hshaped ?_ hnext ?_ ?_
  · rw [hoffers]
    exact List.nil_sublist _
  · rw [hoffers]
    exact fun e he => by cases he
  · rw [hoffers]
    exact fun e he => by cases he

/-- An offer is made under a new token. -/
theorem offered (event : AncsEvent) (serial : Nat) :
    Ledger tokenOf calls (c.rememberActionable event serial) := by
  have hnote : (Entry.offered c.nextToken event.notificationId serial).isResult = false := rfl
  have hlog : (c.rememberActionable event serial).log
    = .offered c.nextToken event.notificationId serial :: c.log := rfl
  have hwaiting : (c.rememberActionable event serial).waiting = c.waiting := rfl
  have hnext : (c.rememberActionable event serial).nextToken = c.nextToken + 1 := rfl
  have hsent : ∀ token, sentWith tokenOf token (c.rememberActionable event serial).log
      = sentWith tokenOf token c.log := by
    intro token
    rw [hlog, sentWith_cons_of_not hnote]
  obtain ⟨entry, hentry, hsub⟩ : ∃ entry : Actionable, entry.token = c.nextToken
      ∧ (c.rememberActionable event serial).actionable.Sublist
        (c.actionable.filter (fun a => a.uid ≠ event.notificationId) ++ [entry]) :=
    ⟨_, rfl, List.drop_sublist _ _⟩
  -- every entry is an old one, or the new one whose token nobody has seen
  have hmem : ∀ e ∈ (c.rememberActionable event serial).actionable,
      e ∈ c.actionable ∨ e.token = c.nextToken := by
    intro e he
    rcases List.mem_append.mp (hsub.subset he) with he | he
    · exact .inl (List.mem_of_mem_filter he)
    · exact .inr (by rw [List.mem_singleton.mp he, hentry])
  have hfresh : ∀ a ∈ c.waiting, a.token ≠ c.nextToken := by
    intro a ha
    have := h.below.1 a ha
    omega
  refine ⟨?_, h.shaped, ⟨?_, ?_⟩, ?_, ?_, ?_, ?_, ?_, ?_⟩
  · rw [hlog, hwaiting]
    exact h.books.noted hnote
  · intro a ha
    have := h.below.1 a (by rw [← hwaiting]; exact ha)
    omega
  · intro e he
    rcases hmem e he with he | he
    · have := h.below.2 e he
      omega
    · omega
  · intro token ht
    rw [hsent]
    exact h.unsent token (by omega)
  · refine (List.Sublist.map _ hsub).nodup ?_
    rw [List.map_append, List.nodup_append']
    refine ⟨(List.Sublist.map _ List.filter_sublist).nodup h.offers, List.nodup_singleton _, ?_⟩
    intro t ht hlast
    obtain ⟨e, he, rfl⟩ := List.mem_map.mp ht
    have hlast : e.token = entry.token := by simpa using hlast
    have := h.below.2 e (List.mem_of_mem_filter he)
    omega
  · intro e he a ha htoken
    rcases hmem e he with he | he
    · exact h.uids e he a ha htoken
    · exact absurd (htoken.trans he) (hfresh a ha)
  · intro e he w hw a ha htoken
    rcases hmem e he with he | he
    · exact h.carried e he w hw a ha htoken
    · exact absurd (htoken.trans he) (hfresh a (Core.mem_waiting.mpr (.inr ⟨w, hw, ha⟩)))
  · intro e he hfree
    rw [hsent]
    rcases hmem e he with he | he
    · exact h.unused e he hfree
    refine ⟨h.unsent _ (by omega), fun a ha => ?_⟩
    rw [he]
    exact hfresh a ha
  · intro e he hs
    rw [hsent] at hs
    rcases hmem e he with he | he
    · exact h.spent e he hs
    · exact absurd (h.unsent _ (by omega)) hs

end

end Ledger

/-! ## Drops -/

namespace Core

/-- The answers to the callers of several actions. -/
def answers (result : ActionResult) (actions : List ActionRequest) : List Entry :=
  (actions.map (fun a => Entry.called (.actionResult a.call result))).reverse

theorem foldl_reportAction_eq (actions : List ActionRequest) (result : ActionResult) (c : Core) :
    actions.foldl (fun c a => c.reportAction a result) c
      = { c with log := answers result actions ++ c.log } := by
  induction actions generalizing c with
  | nil => rfl
  | cons a actions ih =>
    rw [List.foldl_cons, ih]
    simp [answers, reportAction, note]

theorem dropQueuedActions_log (c : Core) (p : ActionRequest → Bool) (result : ActionResult) :
    c.dropQueuedActions p result = { c.removeIf (isAction p) with
      log := answers result ((c.queue.filter (isAction p)).filterMap (·.action)) ++ c.log } :=
  foldl_reportAction_eq _ _ _

/-- The dropped actions and the others. -/
theorem waiting_removeIf (c : Core) (p : PendingRequest → Bool) :
    c.waiting.Perm ((c.queue.filter p).filterMap (·.action) ++ (c.removeIf p).waiting) := by
  have hsplit : (c.queue.filterMap (·.action)).Perm
      ((c.queue.filter p).filterMap (·.action)
        ++ (c.queue.filter (fun r => !p r)).filterMap (·.action)) := by
    rw [← List.filterMap_append]
    exact (List.filter_append_perm p c.queue).symm.filterMap _
  have hall := hsplit.append_right (c.writes.filterMap (·.action))
  rw [List.append_assoc] at hall
  exact hall

theorem resetRequests_log (c : Core) :
    c.resetRequests.log = answers .disconnected (c.queue.filterMap (·.action)) ++ c.log := by
  have hall : c.queue.filter (isAction (fun _ => true))
      = c.queue.filter (fun r => r.action.isSome) := by
    refine List.filter_congr (fun r _ => ?_)
    cases h : r.action <;> simp [isAction, h]
  have hactions : (c.queue.filter (isAction (fun _ => true))).filterMap (·.action)
      = c.queue.filterMap (·.action) := by
    rw [hall, List.filterMap_filter]
    refine List.filterMap_congr (fun r _ => ?_)
    cases r.action <;> rfl
  unfold resetRequests
  rw [dropQueuedActions_log, finishActive_log]
  show answers .disconnected ((c.queue.filter (isAction (fun _ => true))).filterMap (·.action))
    ++ c.log = _
  rw [hactions]

theorem resetRequests_waiting (c : Core) :
    c.resetRequests.waiting = c.writes.filterMap (·.action) := by
  unfold waiting
  rw [resetRequests_queue, c.resetRequests_wires.1]
  rfl

theorem sentWith_answers {result : ActionResult} (hresult : result ≠ .sent) (tokenOf : Nat → Nat)
    (token : Nat) (actions : List ActionRequest) (log : List Entry) :
    sentWith tokenOf token (answers result actions ++ log) = sentWith tokenOf token log := by
  unfold sentWith answers
  rw [List.countP_append, List.countP_eq_zero.mpr, Nat.zero_add]
  intro e he
  obtain ⟨a, -, rfl⟩ := List.mem_map.mp (List.mem_reverse.mp he)
  cases result with
  | sent => exact absurd rfl hresult
  | _ => simp [Entry.confirms]

end Core

namespace Ledger

variable {tokenOf calls : Nat → Nat} {c c' : Core}

theorem dropped (h : Ledger tokenOf calls c) (p : ActionRequest → Bool) {result : ActionResult}
    (hresult : result ≠ .sent) : Ledger tokenOf calls (c.dropQueuedActions p result) := by
  rw [Core.dropQueuedActions_log]
  refine h.keepActive ?_ (fun token => Core.sentWith_answers hresult tokenOf token _ _) ?_ ?_
    (List.Sublist.refl _) rfl (fun w hw => hw) (fun r a hr hra => ⟨r, hr, hra⟩)
  · exact (h.books.perm (c.waiting_removeIf _).symm).answeredAll result
  · intro a ha
    exact (c.waiting_removeIf (Core.isAction p)).mem_iff.mpr (List.mem_append_right _ ha)
  · rintro r (hr | hr)
    · exact h.shaped r (.inl (Core.mem_removeIf hr).1)
    · exact h.shaped r (.inr hr)

/-- The requests are given up, whatever was just settled. -/
theorem giveUpAll (h : Ledger tokenOf calls c) (hlog : c'.log = c.log)
    (hwaiting : c.waiting.Perm c'.waiting) (hnext : c'.nextToken = c.nextToken) :
    Ledger tokenOf calls c'.giveUpAll := by
  have hlog' : c'.giveUpAll.log
      = Core.answers .disconnected (c'.queue.filterMap (·.action)) ++ c'.log := c'.resetRequests_log
  have hwaiting' : c'.giveUpAll.waiting = c'.writes.filterMap (·.action) := c'.resetRequests_waiting
  have hnext' : c'.giveUpAll.nextToken = c'.nextToken := (Core.resetRequests_offers c').2.1
  refine h.cleared ?_ (fun token => ?_) ?_ ?_ rfl (by rw [hnext', hnext])
  · rw [hlog', hwaiting', hlog]
    exact (h.books.perm hwaiting.symm).answeredAll .disconnected
  · rw [hlog', Core.sentWith_answers (by decide), hlog]
  · intro a ha
    rw [hwaiting'] at ha
    exact hwaiting.mem_iff.mpr (List.mem_append_right _ ha)
  rintro r (hr | hr)
  · have hr : r ∈ c'.resetRequests.queue := hr
    rw [Core.resetRequests_queue] at hr
    cases hr
  · have hr : c'.resetRequests.active = some r := hr
    rw [Core.resetRequests_active] at hr
    cases hr

/-! ## Replies -/

section

variable (h : Ledger tokenOf calls c)
include h

/-- A caller is answered about an action whose request is gone. -/
theorem reported {w : Write} (hw : c.writes.Perm (w :: rest)) (ha : w.action = some a)
    (result : ActionResult) : Ledger tokenOf calls ((c.settle w rest).reportAction a result) := by
  have hperm := Core.waiting_settle hw ha
  have hbooks := h.books.perm hperm.symm
  have hin : w ∈ c.writes := hw.mem_iff.mpr (.head _)
  have hmem : a ∈ c.waiting := hperm.mem_iff.mpr (.head _)
  have hlog : ((c.settle w rest).reportAction a result).log
    = .called (.actionResult a.call result) :: c.log := rfl
  have hwaiting : ∀ x ∈ ((c.settle w rest).reportAction a result).waiting, x ∈ c.waiting :=
    fun x hx => hperm.mem_iff.mpr (.tail _ hx)
  -- only the token of this action can become confirmed
  have hother : ∀ token, token ≠ a.token →
      sentWith tokenOf token (.called (.actionResult a.call result) :: c.log)
        = sentWith tokenOf token c.log := by
    intro token hne
    rw [sentWith_result, if_neg, Nat.add_zero]
    rintro ⟨-, htoken⟩
    exact hne (htoken.symm.trans (h.books.tokens a hmem))
  refine ⟨hbooks.answered result, ?_, ⟨fun x hx => h.below.1 x (hwaiting x hx), h.below.2⟩, ?_,
    h.offers, fun e he x hx => h.uids e he x (hwaiting x hx), ?_, ?_, ?_⟩
  · exact fun r hr => h.shaped r hr
  · intro token ht
    have := h.below.1 a hmem
    have ht : c.nextToken ≤ token := ht
    rw [hlog, hother token (by omega)]
    exact h.unsent token ht
  · intro e he x hx b hb htoken
    exact h.carried e he x (hw.mem_iff.mpr (.tail _ hx)) b hb htoken
  · intro e he hfree
    obtain ⟨hzero, hnone⟩ := h.unused e he hfree
    refine ⟨?_, fun x hx => hnone x (hwaiting x hx)⟩
    rw [hlog, hother e.token (hnone a hmem).symm]
    exact hzero
  intro e he hs
  by_cases htoken : a.token = e.token
  · obtain ⟨r, hr, hra⟩ := h.carried e he w hin a ha htoken
    exact ⟨r, a, hr, hra, htoken⟩
  rw [hlog, hother e.token (fun hc => htoken hc.symm)] at hs
  exact h.spent e he hs

/-- The active request ends or goes back, and it is no action. -/
theorem idle (hr : c.active = some r) (hno : r.action = none) (hlog : c'.log = c.log)
    (hwaiting : c'.waiting.Perm c.waiting) (hshaped : ∀ r, c'.Holds r → r.Shaped)
    (hoffers : c'.actionable = c.actionable) (hnext : c'.nextToken = c.nextToken)
    (hwrites : ∀ w ∈ c'.writes, w ∈ c.writes) : Ledger tokenOf calls c' := by
  refine h.keepActive ?_ (fun token => by rw [hlog]) (fun a ha => hwaiting.mem_iff.mp ha) hshaped ?_
    hnext hwrites (fun r' a hr' hra => ?_)
  · rw [hlog]
    exact h.books.perm hwaiting
  · rw [hoffers]
  rw [hr] at hr'
  cases hr'
  rw [hno] at hra
  cases hra

/-- The active request, an action, ends or goes back to the queue: its own write is answered, so no
other open write can be about it. -/
theorem endAction (hr : c.active = some r) (hra : r.action = some a)
    (hbooks : Books tokenOf calls c'.log c'.waiting)
    (hsent : ∀ token, sentWith tokenOf token c'.log = sentWith tokenOf token c.log)
    (hwaiting : ∀ x ∈ c'.waiting, x ∈ c.waiting) (hshaped : ∀ r, c'.Holds r → r.Shaped)
    (hoffers : c'.actionable.Sublist c.actionable) (hnext : c'.nextToken = c.nextToken)
    (hwrites : ∀ w ∈ c'.writes, w ∈ c.writes)
    (hclosed : ∀ w ∈ c'.writes, ∀ b, w.action = some b → b.token ≠ a.token)
    (hopen : ∀ e ∈ c'.actionable, e.token = a.token → sentWith tokenOf a.token c.log = 0) :
    Ledger tokenOf calls c' := by
  refine h.keep hbooks hsent hwaiting hshaped hoffers hnext ?_ ?_
  · intro e he w hw b hb htoken
    obtain ⟨r', hr', hrb⟩ := h.carried e (hoffers.subset he) w (hwrites w hw) b hb htoken
    rw [hr] at hr'
    cases hr'
    rw [hra] at hrb
    cases hrb
    exact absurd rfl (hclosed w hw _ hb)
  intro e he hs
  obtain ⟨r', b, hr', hrb, htoken⟩ := h.spent e (hoffers.subset he) hs
  rw [hr] at hr'
  cases hr'
  rw [hra] at hrb
  cases hrb
  rw [← htoken, hopen e he htoken.symm] at hs
  exact absurd rfl hs

/-- Offers that are neither confirmed nor waited for can be used again. -/
theorem unflag (uid : Nat) (hfree : ∀ e ∈ c.actionable, e.uid = uid →
      sentWith tokenOf e.token c.log = 0 ∧ ∀ a ∈ c.waiting, a.token ≠ e.token) :
    Ledger tokenOf calls (c.flagOffer uid false) := by
  have hmem : ∀ e' ∈ (c.flagOffer uid false).actionable, ∃ e ∈ c.actionable, e'.token = e.token
      ∧ e'.uid = e.uid ∧ (e.uid = uid ∨ e'.inFlight = e.inFlight) := by
    intro e' he'
    obtain ⟨e, he, rfl⟩ := List.mem_map.mp he'
    refine ⟨e, he, ?_⟩
    split
    · exact ⟨rfl, rfl, .inl ‹_›⟩
    · exact ⟨rfl, rfl, .inr rfl⟩
  have htokens : (c.flagOffer uid false).actionable.map (·.token) = c.actionable.map (·.token) := by
    unfold Core.flagOffer
    rw [List.map_map]
    refine List.map_congr_left (fun e _ => ?_)
    show (if e.uid = uid then { e with inFlight := false } else e).token = e.token
    split <;> rfl
  refine ⟨h.books, h.shaped, ⟨h.below.1, fun e' he' => ?_⟩, h.unsent, by rw [htokens]; exact h.offers,
    fun e' he' a ha htoken => ?_, fun e' he' w hw a ha htoken => ?_, fun e' he' hf => ?_,
    fun e' he' hs => ?_⟩
  · obtain ⟨e, he, ht, -⟩ := hmem e' he'
    rw [ht]
    exact h.below.2 e he
  · obtain ⟨e, he, ht, hu, -⟩ := hmem e' he'
    rw [hu]
    exact h.uids e he a ha (by rw [← ht]; exact htoken)
  · obtain ⟨e, he, ht, -⟩ := hmem e' he'
    exact h.carried e he w hw a ha (by rw [← ht]; exact htoken)
  · obtain ⟨e, he, ht, -, hflag⟩ := hmem e' he'
    rw [ht]
    rcases hflag with hu | hflag
    · exact hfree e he hu
    · exact h.unused e he (by rw [← hflag]; exact hf)
  · obtain ⟨e, he, ht, -⟩ := hmem e' he'
    rw [ht] at hs ⊢
    exact h.spent e he hs

/-- A call is taken: its action waits, and the offer is marked. -/
theorem taken {rid : Nat} {entry : Actionable}
    (hentry : c.actionable.find? (fun e => e.uid == a.uid) = some entry)
    (ha : a.token = entry.token) (hfree : entry.inFlight = false)
    (htokenOf : tokenOf a.call = a.token)
    (hc : c.enqueue (Client.actionRequest rid a) true = some c') :
    Ledger tokenOf (fun n => calls n + if n = a.call then 1 else 0) (c'.flagOffer a.uid true) := by
  have hin : entry ∈ c.actionable := List.mem_of_find?_eq_some hentry
  have huid : entry.uid = a.uid := by simpa using List.find?_some hentry
  obtain ⟨hzero, hnone⟩ := h.unused entry hin hfree
  have hsame : ∀ e ∈ c.actionable, e.token = a.token → e = entry :=
    fun e he htoken => List.inj_on_of_nodup_map h.offers he hin (htoken.trans ha)
  rw [Core.enqueue_eq hc]
  have hwaiting : ∀ x, x = a ∨ x ∈ c.waiting ↔ x ∈ a :: c.waiting := fun x => List.mem_cons.symm
  have hmem : ∀ e' ∈ c.actionable.map (fun e => if e.uid = a.uid then { e with inFlight := true }
      else e), ∃ e ∈ c.actionable, e'.token = e.token ∧ e'.uid = e.uid
        ∧ (e'.inFlight = false → e.uid ≠ a.uid ∧ e.inFlight = false) := by
    intro e' he'
    obtain ⟨e, he, rfl⟩ := List.mem_map.mp he'
    refine ⟨e, he, ?_⟩
    split
    · exact ⟨rfl, rfl, fun hf => by cases hf⟩
    · exact ⟨rfl, rfl, fun hf => ⟨‹_›, hf⟩⟩
  have htokens : (c.actionable.map (fun e => if e.uid = a.uid then { e with inFlight := true }
      else e)).map (·.token) = c.actionable.map (·.token) := by
    rw [List.map_map]
    refine List.map_congr_left (fun e _ => ?_)
    show (if e.uid = a.uid then { e with inFlight := true } else e).token = e.token
    split <;> rfl
  refine ⟨h.books.taken htokenOf (by rw [ha]; exact hzero) (by rw [ha]; exact hnone), ?_,
    ⟨fun x hx => ?_, fun e' he' => ?_⟩, h.unsent, by exact htokens ▸ h.offers, ?_, ?_, ?_, ?_⟩
  · rintro r (hr | hr)
    · rcases List.mem_cons.mp hr with rfl | hr
      · intro b hb
        cases hb
        exact ⟨rfl, rfl, rfl, rfl⟩
      · exact h.shaped r (.inl hr)
    · exact h.shaped r (.inr hr)
  · rcases List.mem_cons.mp hx with rfl | hx
    · rw [ha]
      exact h.below.2 entry hin
    · exact h.below.1 x hx
  · obtain ⟨e, he, ht, -⟩ := hmem e' he'
    rw [ht]
    exact h.below.2 e he
  · intro e' he' x hx htoken
    obtain ⟨e, he, ht, hu, -⟩ := hmem e' he'
    rw [ht] at htoken
    rw [hu]
    rcases List.mem_cons.mp hx with rfl | hx
    · rw [hsame e he htoken.symm, huid]
    · exact h.uids e he x hx htoken
  · intro e' he' w hw b hb htoken
    obtain ⟨e, he, ht, -⟩ := hmem e' he'
    exact h.carried e he w hw b hb (by rw [← ht]; exact htoken)
  · intro e' he' hf
    obtain ⟨e, he, ht, -, hflag⟩ := hmem e' he'
    obtain ⟨hne, hef⟩ := hflag hf
    obtain ⟨hz, hn⟩ := h.unused e he hef
    rw [ht]
    refine ⟨hz, fun x hx htoken => ?_⟩
    rcases List.mem_cons.mp hx with rfl | hx
    · exact hne (by rw [hsame e he htoken.symm, huid])
    · exact hn x hx htoken
  · intro e' he' hs
    obtain ⟨e, he, ht, -⟩ := hmem e' he'
    rw [ht] at hs ⊢
    exact h.spent e he hs

end

end Ledger

/-! ## One act -/

theorem actionErrorResult_ne_sent (e : DBusError) : actionErrorResult e ≠ .sent := by
  unfold actionErrorResult
  repeat' split
  all_goals nofun

namespace Core

/-- A request that ends leaves the waiting actions alone. -/
theorem waiting_finishActive (c : Core) : c.finishActive.waiting = c.waiting := by
  unfold waiting
  rw [finishActive_queue, c.finishActive_wires.1]

variable {c : Core}

theorem finishActive_holds (h : c.finishActive.Holds r) : c.Holds r := by
  rcases h with h | h
  · rw [finishActive_queue] at h
    exact .inl h
  rw [finishActive_active] at h
  cases h

/-- No action is retired with the requests about a notification. -/
theorem waiting_retire (h : ∀ r, c.Holds r → r.Shaped) (uid : Option Nat) :
    c.waiting.Perm (c.removeIf (isAbout uid)).waiting := by
  have hnone : (c.queue.filter (isAbout uid)).filterMap (·.action) = [] := by
    rw [List.filterMap_eq_nil_iff]
    intro r hr
    obtain ⟨hr, habout⟩ := List.mem_filter.mp hr
    cases haction : r.action with
    | none => rfl
    | some a =>
      rw [isAbout, (h r (.inl hr) a haction).2.1] at habout
      cases habout
  have hperm := c.waiting_removeIf (isAbout uid)
  rw [hnone] at hperm
  exact hperm

theorem waiting_enqueue {c' : Core} {front : Bool} (hr : r.action = none)
    (h : c.enqueue r front = some c') : c'.waiting = c.waiting := by
  rw [enqueue_eq h]
  unfold waiting
  split
  · rw [List.filterMap_cons_none hr]
  · rw [List.filterMap_append, List.filterMap_cons_none hr, List.filterMap_nil, List.append_nil]

end Core

/-- A request that awaits a response is no action. -/
theorem PendingRequest.Shaped.no_action (h : r.Shaped)
    (hr : r.assembler.isSome = true ∨ r.discarded = true) : r.action = none := by
  cases ha : r.action with
  | none => rfl
  | some a =>
    obtain ⟨hnone, -, hkept, -⟩ := h a ha
    rw [hnone, hkept] at hr
    rcases hr with hr | hr <;> cases hr

section

variable {tokenOf calls : Nat → Nat} {s : Client}

variable {w : Write} {env : Env} {s' : Client}

/-- The answered write of the active request carries its action. -/
theorem Sound.action_eq (hs : Sound s) (hw : s.core.writes.Perm (w :: rest))
    (hcurrent : s.isCurrent w = true) (hactive : s.core.active = some r) : r.action = w.action :=
  (hs.wired.carried w (hw.mem_iff.mpr (.head _))
    (Client.generation_of_isCurrent hcurrent) r hactive).2

section

variable (h : Ledger tokenOf calls s.core)
include h

/-- The active request, which is no action, has ended together with its write. -/
theorem Ledger.finishSettled (hs : Sound s) (hw : s.core.writes.Perm (w :: rest))
    (hcurrent : s.isCurrent w = true) (hactive : s.core.active = some r) (hno : r.action = none) :
    Ledger tokenOf calls (s.core.settle w rest).finishActive := by
  have haction : w.action = none := by rw [← hs.action_eq hw hcurrent hactive, hno]
  refine h.idle hactive hno (by rw [Core.finishActive_log]; rfl) ?_ ?_
    (by rw [Core.finishActive_actionable]; rfl) (by rw [Core.finishActive_nextToken]; rfl) ?_
  · rw [Core.waiting_finishActive]
    exact (Core.waiting_settle_none hw haction).symm
  · intro x hx
    have hx : (s.core.settle w rest).Holds x := Core.finishActive_holds hx
    exact h.shaped x hx
  · rw [(Core.finishActive_wires _).1]
    exact fun x hx => hw.mem_iff.mpr (.tail _ hx)

/-- The active request, an action, has been answered and ends; the offers for its notification that
remain were not confirmed. -/
theorem Ledger.finishReported {offers : List Actionable}
    (hw : s.core.writes.Perm (w :: rest)) (hactive : s.core.active = some r)
    (hra : r.action = some a) (ha : w.action = some a) (result : ActionResult)
    (hoffers : offers.Sublist s.core.actionable)
    (hopen : result = .sent → ∀ e ∈ offers, e.uid ≠ a.uid) : Ledger tokenOf calls
      { (s.core.settle w rest).finishActive.reportAction a result with actionable := offers } := by
  generalize hc : ({ (s.core.settle w rest).finishActive.reportAction a result with
    actionable := offers } : Core) = c'
  have hlog : c'.log = .called (.actionResult a.call result) :: s.core.log := by
    rw [← hc]
    show _ :: (s.core.settle w rest).finishActive.log = _
    rw [Core.finishActive_log]
    rfl
  have hwaiting : c'.waiting = (s.core.settle w rest).waiting := hc ▸ Core.waiting_finishActive _
  have hwrites : c'.writes = rest := hc ▸ (Core.finishActive_wires _).1
  have hnext : c'.nextToken = s.core.nextToken := by
    rw [← hc]
    show (s.core.settle w rest).finishActive.nextToken = _
    rw [Core.finishActive_nextToken]
    rfl
  have hholds (x : PendingRequest) (hx : c'.Holds x) : s.core.Holds x := by
    rw [← hc] at hx
    have hx : (s.core.settle w rest).Holds x := Core.finishActive_holds hx
    exact hx
  have hactionable : c'.actionable = offers := by rw [← hc]
  rw [← hactionable] at hoffers hopen
  have hreported := h.reported hw ha result
  have hperm := Core.waiting_settle hw ha
  have hmem : a ∈ s.core.waiting := hperm.mem_iff.mpr (.head _)
  have hbooks := h.books.perm hperm.symm
  refine hreported.endAction hactive hra ?_ (fun token => by rw [hlog]; rfl) ?_
    (fun x hx => h.shaped x (hholds x hx)) hoffers hnext (by rw [hwrites]; exact fun x hx => hx) ?_ ?_
  · rw [hlog, hwaiting]
    exact hreported.books
  · rw [hwaiting]
    exact fun x hx => hx
  · -- the answered write was the only one about this action
    rw [hwrites]
    intro x hx b hb
    exact hbooks.not_twice (Core.mem_waiting.mpr (.inr ⟨x, hx, hb⟩))
  intro e he htoken
  show sentWith tokenOf a.token (.called (.actionResult a.call result) :: s.core.log) = 0
  rw [sentWith_result, if_neg, Nat.add_zero]
  · exact h.books.unsent hmem
  · rintro ⟨hsent, -⟩
    exact hopen hsent e he (h.uids e (hoffers.subset he) a hmem htoken.symm).symm

/-- The phone took the action: its offer is gone. -/
theorem Ledger.actionWritten (hw : s.core.writes.Perm (w :: rest))
    (hactive : s.core.active = some r) (hra : r.action = some a) (ha : w.action = some a) :
    Ledger tokenOf calls (Client.actionWritten a (s.core.settle w rest).finishActive) := by
  refine h.finishReported hw hactive hra ha .sent ?_ (fun _ e he => ?_)
  · rw [Core.finishActive_actionable]
    exact List.filter_sublist
  · simpa using (List.mem_filter.mp he).2

/-- The phone refused the action: its offer is gone, or can be used again. -/
theorem Ledger.actionFailed (hs : Sound s)
    (hw : s.core.writes.Perm (w :: rest)) (hactive : s.core.active = some r)
    (hra : r.action = some a) (ha : w.action = some a) (e : DBusError) :
    Ledger tokenOf calls (Client.actionFailed a e (s.core.settle w rest).finishActive) := by
  have hne := actionErrorResult_ne_sent e
  -- first the caller is answered and the request ends
  have hended : Ledger tokenOf calls
      ((s.core.settle w rest).finishActive.reportAction a (actionErrorResult e)) := by
    refine h.finishReported hw hactive hra ha (actionErrorResult e) ?_
      (fun hsent => absurd hsent hne)
    rw [Core.finishActive_actionable]
    exact List.Sublist.refl _
  unfold Client.actionFailed
  dsimp only
  split
  · exact hended.same ⟨.actionsReset, rfl, .inl rfl⟩ rfl rfl List.filter_sublist rfl rfl
  -- no other action is on the books for this notification
  have hnone : ((s.core.settle w rest).finishActive.reportAction a
      (actionErrorResult e)).active = none := Core.finishActive_active _
  refine hended.unflag a.uid (fun x hx huid => ⟨?_, fun b hb htoken => ?_⟩)
  · by_contra hsent
    obtain ⟨r', -, hr', -⟩ := hended.spent x hx hsent
    rw [hnone] at hr'
    cases hr'
  have hbuid : b.uid = a.uid := (hended.uids x hx b hb htoken).trans huid
  rcases Core.mem_waiting.mp hb with ⟨q, hq, hqb⟩ | ⟨x', hx', hxb⟩
  · have hq : q ∈ (s.core.settle w rest).finishActive.queue := hq
    rw [Core.finishActive_queue] at hq
    obtain ⟨-, -, hwanted, hkey⟩ := h.shaped r (.inr hactive) a hra
    obtain ⟨-, -, -, hqkey⟩ := h.shaped q (.inl hq) b hqb
    refine hs.backlog.key_ne hactive hwanted hq ?_
    rw [hqkey, hkey, hbuid]
  · obtain ⟨r', hr', -⟩ := hended.carried x hx x' hx' b hxb htoken
    rw [hnone] at hr'
    cases hr'

/-- The active request goes back to the queue. -/
theorem Ledger.pushFront (hs : Sound s)
    (hw : s.core.writes.Perm (w :: rest)) (hcurrent : s.isCurrent w = true)
    (hactive : s.core.active = some r) (hr : r.discarded = false) (n : Nat) :
    Ledger tokenOf calls (Client.pushFront { r with busyRetries := n }
      { s.core.settle w rest with active := none }) := by
  have hbacklog : (s.core.settle w rest).Backlog := hs.backlog.congr rfl
  have haction := hs.action_eq hw hcurrent hactive
  rw [(hbacklog.pushFront hactive hr n).1]
  have hshaped : ∀ x, ({ s.core.settle w rest with
      active := none, queue := { r with busyRetries := n } :: s.core.queue, busyRetry := true }
      : Core).Holds x → x.Shaped := by
    rintro x (hx | hx)
    · rcases List.mem_cons.mp hx with rfl | hx
      · exact h.shaped r (.inr hactive)
      · exact h.shaped x (.inl hx)
    · cases hx
  have hwrites : ∀ x ∈ rest, x ∈ s.core.writes := fun x hx => hw.mem_iff.mpr (.tail _ hx)
  rcases Option.eq_none_or_eq_some r.action with ha | ⟨a, ha⟩
  · refine h.idle hactive ha rfl ?_ hshaped rfl rfl hwrites
    have hsame := (Core.waiting_settle_none hw (by rw [← haction, ha])).symm
    show (({ r with busyRetries := n } :: s.core.queue).filterMap (·.action)
      ++ rest.filterMap (·.action)).Perm _
    rw [List.filterMap_cons_none (show ({ r with busyRetries := n } : PendingRequest).action
      = none from ha)]
    exact hsame
  have hperm := Core.waiting_settle hw (show w.action = some a by rw [← haction, ha])
  have hwaiting : (({ s.core.settle w rest with
      active := none, queue := { r with busyRetries := n } :: s.core.queue, busyRetry := true }
      : Core).waiting).Perm s.core.waiting := by
    show (({ r with busyRetries := n } :: s.core.queue).filterMap (·.action)
      ++ rest.filterMap (·.action)).Perm _
    rw [List.filterMap_cons_some (show ({ r with busyRetries := n } : PendingRequest).action
      = some a from ha)]
    exact hperm.symm
  refine h.endAction hactive ha (h.books.perm hwaiting) (fun _ => rfl)
    (fun x hx => hwaiting.mem_iff.mp hx) hshaped (List.Sublist.refl _) rfl hwrites ?_ ?_
  · intro x hx b hb
    exact (h.books.perm hperm.symm).not_twice (Core.mem_waiting.mpr (.inr ⟨x, hx, hb⟩))
  · exact fun _ _ _ => h.books.unsent (hperm.mem_iff.mpr (.head _))

/-- The head of the queue is written. -/
theorem Ledger.wrote {rest : List PendingRequest}
    (hqueue : s.core.queue = r :: rest) (hnone : s.core.active = none) :
    Ledger tokenOf calls ((s.startWrite env r rest).onCore fun c =>
      { c with writes := c.writes ++ [s.writeOf r] }).core := by
  have hwaiting : (((s.startWrite env r rest).onCore fun c =>
      { c with writes := c.writes ++ [s.writeOf r] }).core.waiting).Perm s.core.waiting := by
    show (rest.filterMap (·.action) ++ (s.core.writes ++ [s.writeOf r]).filterMap (·.action)).Perm
      (s.core.queue.filterMap (·.action) ++ _)
    rw [hqueue, List.filterMap_append]
    cases ha : r.action with
    | none =>
      rw [List.filterMap_cons_none ha, List.filterMap_cons_none (show (s.writeOf r).action = none
        from ha), List.filterMap_nil, List.append_nil]
    | some a =>
      rw [List.filterMap_cons_some ha, List.filterMap_cons_some (show (s.writeOf r).action = some a
        from ha), List.filterMap_nil, ← List.append_assoc]
      exact List.perm_append_singleton a _
  have hnote : (Entry.wrote r.packet r.action env.notificationActions).isResult = false := rfl
  refine h.keep ?_ (fun token => sentWith_cons_of_not hnote token _)
    (fun x hx => hwaiting.mem_iff.mp hx) ?_ (List.Sublist.refl _) rfl ?_ ?_
  · exact (h.books.perm hwaiting).noted hnote
  · rintro x (hx | hx)
    · exact h.shaped x (.inl (by rw [hqueue]; exact .tail _ hx))
    · cases hx
      exact h.shaped r (.inl (by rw [hqueue]; exact .head _))
  · intro e he x hx a ha htoken
    rcases List.mem_append.mp hx with hx | hx
    · obtain ⟨r', hr', -⟩ := h.carried e he x hx a ha htoken
      rw [hnone] at hr'
      cases hr'
    · cases List.mem_singleton.mp hx
      exact ⟨r, rfl, ha⟩
  · intro e he hsent
    obtain ⟨r', -, hr', -⟩ := h.spent e he hsent
    rw [hnone] at hr'
    cases hr'

end

/-- **One act** keeps the books. -/
theorem ledger_act {fresh : Client → Prop} {s : Client} (hact : Act env fresh s s')
    (hs : Sound s) (h : Ledger tokenOf calls s.core) : Ledger tokenOf calls s'.core := by
  cases hact with
  | transport tr hk => exact h
  | noted e he => exact h.same ⟨e, he, .inr rfl⟩ rfl rfl (List.Sublist.refl _) rfl rfl
  | book c hc =>
    simp only [Core.stock, Prod.mk.injEq] at hc
    obtain ⟨hqueue, -, hactive, -, -, hwrites, -, hoffers, hnext, hlog⟩ := hc
    exact h.same ⟨.actionsReset, rfl, .inl hlog⟩ hqueue hwrites (by rw [hoffers]) hnext hactive
  | offered event serial => exact h.offered event serial
  | withdrawn entries hentries =>
    exact h.same ⟨.actionsReset, rfl, .inl rfl⟩ rfl rfl hentries rfl rfl
  | dropped p result hresult => exact h.dropped p hresult
  | retired uid =>
    have hwaiting := Core.waiting_retire h.shaped uid
    have hqueue : ∀ r ∈ (s.core.removeIf (Core.isAbout uid)).queue, r.Shaped :=
      fun r hr => h.shaped r (.inl (Core.mem_removeIf hr).1)
    unfold Client.onCore
    dsimp only
    rcases (s.core.removeIf (Core.isAbout uid)).retireActive_cases uid with heq | ⟨r, hr, habout, heq⟩
    · rw [heq]
      refine h.keepActive (h.books.perm hwaiting.symm) (fun _ => rfl)
        (fun a ha => hwaiting.mem_iff.mpr ha) ?_ (List.Sublist.refl _) rfl (fun w hw => hw)
        (fun r a hr hra => ⟨r, hr, hra⟩)
      rintro r (hr | hr)
      · exact hqueue r hr
      · exact h.shaped r (.inr hr)
    have hno : r.action = none := by
      cases ha : r.action with
      | none => rfl
      | some a =>
        rw [Core.isAbout, (h.shaped r (.inr hr) a ha).2.1] at habout
        cases habout
    rw [heq]
    refine h.idle hr hno rfl hwaiting.symm ?_ rfl rfl (fun w hw => hw)
    rintro x (hx | hx)
    · exact hqueue x hx
    · cases hx
      exact shaped_of_none hno
  | cleared tr requestTimer htr => exact h.giveUpAll rfl (List.Perm.refl _) rfl
  | ownerLost tr hfine hnumbered hgeneration => exact h.giveUpAll rfl (List.Perm.refl _) rfl
  | ownerFound available hfresh =>
    exact h.same ⟨.actionsReset, rfl, .inl rfl⟩ rfl rfl (List.Sublist.refl _) rfl rfl
  | finished hr =>
    unfold Client.onCore
    dsimp only
    cases hactive : s.core.active with
    | none =>
      rw [Core.finishActive_none hactive]
      exact h.same ⟨.actionsReset, rfl, .inl rfl⟩ rfl rfl (List.Sublist.refl _) rfl rfl
    | some r =>
      have hno : r.action = none := by
        rcases hr r hactive with hsome | htimer
        · exact (h.shaped r (.inr hactive)).no_action (.inl hsome)
        obtain ⟨-, r', hr', hno⟩ := hs.wired.timer htimer
        rw [hactive] at hr'
        cases hr'
        exact hno
      refine h.idle hactive hno (Core.finishActive_log _) ?_ ?_ (Core.finishActive_actionable _)
        (Core.finishActive_nextToken _) ?_
      · rw [Core.waiting_finishActive]
      · exact fun x hx => h.shaped x (Core.finishActive_holds hx)
      · rw [(Core.finishActive_wires _).1]
        exact fun w hw => hw
  | fed r assembler assembler' hactive hr =>
    have hno : r.action = none := (h.shaped r (.inr hactive)).no_action (.inl (by rw [hr]; rfl))
    refine h.idle hactive hno rfl (List.Perm.refl _) ?_ rfl rfl (fun w hw => hw)
    rintro x (hx | hx)
    · exact h.shaped x (.inl hx)
    · cases hx
      exact shaped_of_none hno
  | queued r front c hr hon hc =>
    have hwaiting := Core.waiting_enqueue hr.noAction hc
    refine h.keepActive ?_ (fun token => by rw [Core.enqueue_eq hc])
      (by rw [hwaiting]; exact fun a ha => ha) ?_ (by rw [Core.enqueue_eq hc])
      (by rw [Core.enqueue_eq hc]) (by rw [Core.enqueue_eq hc]; exact fun w hw => hw)
      (fun x a hx hxa => ⟨x, by rw [Core.enqueue_eq hc]; exact hx, hxa⟩)
    · rw [hwaiting, Core.enqueue_eq hc]
      exact h.books
    rintro x (hx | hx)
    · rcases Core.enqueue_mem hc hx with rfl | hx
      · exact shaped_of_none hr.noAction
      · exact h.shaped x (.inl hx)
    · rw [Core.enqueue_eq hc] at hx
      exact h.shaped x (.inr hx)
  | wrote r rest hqueue hfree => exact h.wrote hqueue (Client.free_of_isBlocked hfree).1
  | stale w rest result hw hstale =>
    unfold Client.onCore
    cases ha : w.action with
    | none =>
      have hperm := Core.waiting_settle_none hw ha
      refine h.keepActive (h.books.perm hperm.symm) (fun _ => rfl)
        (fun a ha => hperm.mem_iff.mpr ha) h.shaped (List.Sublist.refl _) rfl ?_
        (fun r a hr hra => ⟨r, hr, hra⟩)
      exact fun x hx => hw.mem_iff.mpr (.tail _ hx)
    | some a => exact h.reported hw ha result
  | sent w rest a hw hcurrent ha =>
    obtain ⟨r, hr, -⟩ := Client.exists_active_of_isCurrent hcurrent
    exact h.actionWritten hw hr (by rw [hs.action_eq hw hcurrent hr, ha]) ha
  | awaited w rest hw hcurrent ha =>
    have hperm := Core.waiting_settle_none hw ha
    refine h.keepActive (h.books.perm hperm.symm) (fun _ => rfl)
      (fun a ha => hperm.mem_iff.mpr ha) h.shaped (List.Sublist.refl _) rfl ?_
      (fun r a hr hra => ⟨r, hr, hra⟩)
    exact fun x hx => hw.mem_iff.mpr (.tail _ hx)
  | drained w rest r hw hcurrent hactive hr =>
    exact h.finishSettled hs hw hcurrent hactive ((h.shaped r (.inr hactive)).no_action (.inr hr))
  | retried w rest r n hw hcurrent hactive hr => exact h.pushFront hs hw hcurrent hactive hr n
  | refused w rest r a e hw hcurrent hactive ha =>
    exact h.actionFailed hs hw hactive ha (by rw [← hs.action_eq hw hcurrent hactive, ha]) e
  | abandoned w rest r hw hcurrent hactive ha =>
    have hperm := Core.waiting_settle_none hw (show w.action = none by
      rw [← hs.action_eq hw hcurrent hactive, ha])
    refine h.idle hactive ha rfl hperm.symm ?_ rfl rfl (fun x hx => hw.mem_iff.mpr (.tail _ hx))
    rintro x (hx | hx)
    · exact h.shaped x (.inl hx)
    · cases hx
  | lost w rest r tr hw hcurrent hactive ha htr =>
    have hno : w.action = none := by rw [← hs.action_eq hw hcurrent hactive, ha]
    exact h.giveUpAll rfl (Core.waiting_settle_none hw hno) rfl

theorem ledger_acts {fresh : Client → Prop} {s : Client} (hacts : Acts env fresh s s')
    (hs : Sound s) (h : Ledger tokenOf calls s.core) : Ledger tokenOf calls s'.core := by
  induction hacts with
  | refl => exact h
  | tail hbefore hact ih => exact ledger_act hact (sound_acts hbefore hs) ih

/-- A call enters the books. -/
theorem ledger_taken {token call : Nat} {s : Client} (htaken : Taken token call s s')
    (htokenOf : tokenOf call = token) (h : Ledger tokenOf calls s.core) :
    Ledger tokenOf (fun n => calls n + if n = call then 1 else 0) s'.core := by
  cases htaken with
  | queued rid nextRid a entry c hentry ha hoffer hs hc =>
    obtain ⟨htoken, hcall⟩ := ha
    have h' : Ledger tokenOf calls ({ s.core with nextRid } : Core) :=
      h.same ⟨.actionsReset, rfl, .inl rfl⟩ rfl rfl (List.Sublist.refl _) rfl rfl
    rw [← hcall]
    exact h'.taken hentry (by rw [htoken, hoffer.1]) hoffer.2 (by rw [hcall, htoken, htokenOf]) hc
  | refused result hresult =>
    have hbooks := h.books.refused hresult call
    have hsent : ∀ t, sentWith tokenOf t (.called (.actionResult call result) :: s.core.log)
        = sentWith tokenOf t s.core.log := by
      intro t
      rw [sentWith_result, if_neg (fun hs => hresult hs.1), Nat.add_zero]
    refine ⟨hbooks, h.shaped, h.below, fun t ht => ?_, h.offers, h.uids, h.carried,
      fun e he hfree => ?_, fun e he hs => ?_⟩
    · exact (hsent t).trans (h.unsent t ht)
    · exact ⟨(hsent e.token).trans (h.unused e he hfree).1, (h.unused e he hfree).2⟩
    · exact h.spent e he (fun hzero => hs ((hsent e.token).trans hzero))

end

/-! ## Every run -/

section

variable (inputs : List (Env × Input))

/-- The calls of `perform_notification_action` with their tokens, in turn. -/
def callsMade : List (Nat × Nat) :=
  inputs.filterMap (fun input =>
    match input.2 with
    | .perform _ _ token call => some (call, token)
    | _ => none)

/-- The token of a call. -/
def tokenUsed (call : Nat) : Nat :=
  ((callsMade inputs).lookup call).getD 0

/-- The number of times that a call was made. -/
def timesMade (call : Nat) : Nat :=
  (callsMade inputs).countP (fun p => p.1 == call)

end

/-- Nothing is under way: no reply is owed, and no timer runs that the requests wait for. -/
def Client.Quiet (s : Client) : Prop :=
  s.core.writes = [] ∧ s.tr.toggles = [] ∧ s.core.requestTimer = false ∧ s.core.busyRetry = false

instance (s : Client) : Decidable s.Quiet :=
  inferInstanceAs (Decidable (_ ∧ _ ∧ _ ∧ _))

theorem callsMade_cons (input : Env × Input) (inputs : List (Env × Input)) :
    callsMade (input :: inputs) = callsMade [input] ++ callsMade inputs := by
  unfold callsMade
  rw [← List.filterMap_append]
  rfl

theorem timesMade_cons (input : Env × Input) (inputs : List (Env × Input)) (call : Nat) :
    timesMade (input :: inputs) call = timesMade [input] call + timesMade inputs call := by
  unfold timesMade
  rw [callsMade_cons, List.countP_append]

section

variable {tokenOf calls : Nat → Nat} {s : Client}

/-- **One step** keeps the books, with the call that it makes. -/
theorem ledger_step (input : Env × Input) (htokenOf : ∀ p ∈ callsMade [input], tokenOf p.1 = p.2)
    (hs : Sound s) (h : Ledger tokenOf calls s.core) :
    Ledger tokenOf (fun n => calls n + timesMade [input] n) (s.step input).core := by
  obtain ⟨env, i⟩ := input
  by_cases hperform : ∃ uid positive token call, i = .perform uid positive token call
  · obtain ⟨uid, positive, token, call, rfl⟩ := hperform
    have hcalls : ∀ n, timesMade [(env, .perform uid positive token call)] n
        = if n = call then 1 else 0 := by
      intro n
      by_cases hn : n = call
      · simp [timesMade, callsMade, hn]
      rw [if_neg hn]
      simp [timesMade, callsMade, show call ≠ n from fun hc => hn hc.symm]
    have htoken : tokenOf call = token := htokenOf (call, token) (by simp [callsMade])
    obtain ⟨s₁, htaken, hacts⟩ := @acts_performNotificationAction env (fun _ => True) s uid
      positive token call
    simp only [hcalls]
    exact ledger_acts hacts (sound_taken htaken hs) (ledger_taken htaken htoken h)
  · have hnone : callsMade [(env, i)] = [] := by
      unfold callsMade
      rw [List.filterMap_eq_nil_iff]
      intro input hinput
      cases List.mem_singleton.mp hinput
      cases i with
      | perform uid positive token call => exact absurd ⟨uid, positive, token, call, rfl⟩ hperform
      | _ => rfl
    have hcalls : ∀ n, timesMade [(env, i)] n = 0 := fun n => by rw [timesMade, hnone]; rfl
    simp only [hcalls, Nat.add_zero]
    rcases acts_step (fun _ => True) s (env, i) hs.fine hs.numbered hs.wired.tokens
      (fun _ _ => trivial) with hacts | ⟨uid, positive, token, call, s₁, hinput, -⟩
    · exact ledger_acts hacts hs h
    · exact absurd ⟨uid, positive, token, call, hinput⟩ hperform

/-- **Every run** keeps the books. -/
theorem ledger_run (inputs : List (Env × Input))
    (htokenOf : ∀ p ∈ callsMade inputs, tokenOf p.1 = p.2) (hs : Sound s)
    (h : Ledger tokenOf calls s.core) :
    Ledger tokenOf (fun n => calls n + timesMade inputs n) (Machine.run Client.step s inputs).core := by
  induction inputs generalizing s calls with
  | nil => exact h
  | cons input inputs ih =>
    rw [callsMade_cons] at htokenOf
    have hstep := ledger_step input (fun p hp => htokenOf p (List.mem_append_left _ hp)) hs h
    have hrun := ih (fun p hp => htokenOf p (List.mem_append_right _ hp))
      (sound_step s input hs) hstep
    have hcalls : (fun n => calls n + timesMade (input :: inputs) n)
        = fun n => calls n + timesMade [input] n + timesMade inputs n := by
      funext n
      rw [timesMade_cons, Nat.add_assoc]
    rw [hcalls]
    exact hrun

end

theorem ledger_initial (tokenOf : Nat → Nat) (previouslyAuthorized : Bool) :
    Ledger tokenOf (fun _ => 0) (Client.initial previouslyAuthorized).core := by
  refine ⟨⟨fun _ => rfl, fun a ha => ?_, fun _ => Nat.zero_le _⟩, fun r hr => ?_,
    ⟨fun a ha => ?_, fun e he => ?_⟩, fun _ _ => rfl, List.nodup_nil, fun e he => ?_, fun e he => ?_,
    fun e he => ?_, fun e he => ?_⟩
  · cases ha
  · rcases hr with hr | hr <;> cases hr
  · cases ha
  · cases he
  · cases he
  · cases he
  · cases he
  · cases he

/-- The token of a call is the one that it was made with. -/
theorem tokenUsed_eq {inputs : List (Env × Input)} (hcalls : ((callsMade inputs).map (·.1)).Nodup) :
    ∀ p ∈ callsMade inputs, tokenUsed inputs p.1 = p.2 := by
  rintro ⟨call, token⟩ hp
  have hlookup : (callsMade inputs).lookup call = some token := by
    generalize callsMade inputs = l at hcalls hp
    induction l with
    | nil => cases hp
    | cons q l ih =>
      rw [List.map_cons, List.nodup_cons] at hcalls
      rcases List.mem_cons.mp hp with rfl | hp
      · simp
      have hne : call ≠ q.1 := by
        intro heq
        rw [← heq] at hcalls
        exact hcalls.1 (List.mem_map_of_mem hp)
      rw [List.lookup_cons, show (call == q.1) = false by simpa using hne]
      exact ih hcalls.2 hp
  rw [tokenUsed, hlookup]
  rfl

/-- A quiet client has no request queued. -/
theorem Client.Quiet.queue_eq_nil {s : Client} (h : s.Quiet) (hs : Sound s) (hlively : Lively s)
    (hsettled : s.Settled) : s.core.queue = [] := by
  obtain ⟨hwrites, htoggles, htimer, hretry⟩ := h
  have htoken : s.core.cpWriteToken.isSome ≠ true := by
    intro hsome
    obtain ⟨t, ht⟩ := Option.isSome_iff_exists.mp hsome
    obtain ⟨w, hw, -⟩ := hs.wired.owed t ht
    rw [hwrites] at hw
    cases hw
  by_contra hqueue
  rcases hsettled hqueue with hactive | hsome | hbusy | hrefresh
  · rcases hlively.attended hactive with hsome | hon
    · exact htoken hsome
    rw [htimer] at hon
    cases hon
  · exact htoken hsome
  · rw [hretry] at hbusy
    cases hbusy
  obtain ⟨f, hf⟩ := Option.isSome_iff_exists.mp hrefresh
  obtain ⟨-, x, hx, -⟩ := hlively.toggling f hf
  rw [htoggles] at hx
  cases hx

/-- **Every caller is answered once.** Give each call of `perform_notification_action` a number of
its own. After every run a call has had one answer, or none while its action is queued or written
and not answered; only calls that were made are answered, and for each token one call at most was
told that its action was sent. And where bluetoothd comes and goes in order, every call has had its
answer as soon as nothing is under way any more. -/
theorem callers_answered_once (previouslyAuthorized : Bool) (inputs : List (Env × Input))
    (hcalls : ((callsMade inputs).map (·.1)).Nodup) :
    let s := Machine.run Client.step (Client.initial previouslyAuthorized) inputs
    (∀ call ∈ (callsMade inputs).map (·.1), told call s.core.log = 1
        ∨ told call s.core.log = 0 ∧ ((∃ r ∈ s.core.queue, ∃ a, r.action = some a ∧ a.call = call)
          ∨ ∃ w ∈ s.core.writes, ∃ a, w.action = some a ∧ a.call = call))
      ∧ (∀ call, call ∉ (callsMade inputs).map (·.1) → told call s.core.log = 0)
      ∧ (∀ token, sentWith (tokenUsed inputs) token s.core.log ≤ 1)
      ∧ (Machine.Along Client.step OwnersInOrder (Client.initial previouslyAuthorized) inputs →
        s.Quiet → ∀ call ∈ (callsMade inputs).map (·.1), told call s.core.log = 1) := by
  intro s
  have hs : Sound s := sound_run previouslyAuthorized inputs
  have hledger : Ledger (tokenUsed inputs) (fun n => 0 + timesMade inputs n) s.core :=
    ledger_run inputs (tokenUsed_eq hcalls) (sound_initial _) (ledger_initial _ _)
  have hbalance : ∀ call, told call s.core.log + s.core.waiting.countP (fun a => a.call == call)
      = ((callsMade inputs).map (·.1)).count call := by
    intro call
    have := hledger.books.balance call
    rw [this, Nat.zero_add, timesMade, List.count, List.countP_map]
    rfl
  have hone : ∀ call ∈ (callsMade inputs).map (·.1),
      ((callsMade inputs).map (·.1)).count call = 1 :=
    fun call hcall => List.count_eq_one_of_mem hcalls hcall
  refine ⟨fun call hcall => ?_, fun call hcall => ?_, fun token => ?_, fun hok hquiet call hcall => ?_⟩
  · have := hbalance call
    rw [hone call hcall] at this
    by_cases hwaits : s.core.waiting.countP (fun a => a.call == call) = 0
    · exact .inl (by omega)
    obtain ⟨a, ha, hcalled⟩ := List.countP_pos_iff.mp (Nat.pos_of_ne_zero hwaits)
    have hcalled : a.call = call := by simpa using hcalled
    refine .inr ⟨by omega, ?_⟩
    rcases Core.mem_waiting.mp ha with ⟨r, hr, hra⟩ | ⟨w, hw, hwa⟩
    · exact .inl ⟨r, hr, a, hra, hcalled⟩
    · exact .inr ⟨w, hw, a, hwa, hcalled⟩
  · have := hbalance call
    rw [List.count_eq_zero_of_not_mem hcall] at this
    omega
  · have := hledger.books.once token
    omega
  obtain ⟨hlively, hsettled⟩ := lively_run previouslyAuthorized inputs hok
  have hqueue := hquiet.queue_eq_nil hs hlively hsettled
  have hnone : s.core.waiting = [] := by
    unfold Core.waiting
    rw [hqueue, hquiet.1]
    rfl
  have := hbalance call
  rw [hone call hcall, hnone] at this
  exact this

/-- A second call for the same offer comes while the first one is being written again; then BlueZ
answers. -/
def answering : List (Env × Input) :=
  retrying ++ [.perform 7 true 1 1, .writeReply 5].map (Prod.mk (friendly true))

theorem callers_answered_once_retry :
    told 0 (Machine.run Client.step (Client.initial false) answering).core.log = 1
      ∧ told 1 (Machine.run Client.step (Client.initial false) answering).core.log = 1
      ∧ Entry.called (.actionResult 0 .sent)
        ∈ (Machine.run Client.step (Client.initial false) answering).core.log := by
  have h := callers_answered_once false answering (by decide +kernel)
  have hall := h.2.2.2 (by decide +kernel) (by decide +kernel)
  refine ⟨hall 0 (by decide +kernel), hall 1 (by decide +kernel), by decide +kernel⟩

end BlueFerry.Ancs
