import BlueFerry.Ancs.Acts
import BlueFerry.Ancs.Requests

/-! # The backlog and the Control Point

Three things hold in every state of the client. The reserved keys are those of the queued requests
and of the active one, each once (`Core.Backlog`). Every open write of the current bluetoothd is the
one that the marker `cpWriteToken` names, and it is the active request's if there is one
(`Client.Wired`). And a queue that is not empty is waited for: something is under way that pumps it
again (`Client.isBlocked`).

A request that is retired while it is active gives its key back at once, so that a new request for
the same notification is not refused; it is drained under a key of its own.
-/

namespace BlueFerry.Ancs

open BlueFerry.Text

/-! ## The keys -/

variable {c : Core} {r : PendingRequest}

namespace Core

/-- The requests that hold a key: the active one, unless it is retired, and the queued ones. -/
def held (c : Core) : List PendingRequest :=
  (c.active.filter (fun r => !r.discarded)).toList ++ c.queue

/-- The keys are those of the requests that hold one. -/
structure Backlog (c : Core) : Prop where
  keys : c.reserved.Perm (c.held.map (·.key))
  nodup : (c.held.map (·.key)).Nodup
  bound : c.reserved.length ≤ maxAncsRequests
  wanted : ∀ r ∈ c.queue, r.discarded = false
  plain : ∀ r ∈ c.held, r.key.isPlain = true
  retired : ∀ r, c.active = some r → r.discarded = true → r.key.isPlain = false

theorem held_of_active (h : c.active = some r) (hr : r.discarded = false) :
    c.held = r :: c.queue := by
  simp [held, h, Option.filter, hr]

theorem held_of_retired (h : c.active = some r) (hr : r.discarded = true) : c.held = c.queue := by
  simp [held, h, Option.filter, hr]

theorem held_of_none (h : c.active = none) : c.held = c.queue := by
  simp [held, h]

variable {c' : Core}

theorem held_congr (hactive : c'.active = c.active) (hqueue : c'.queue = c.queue) :
    c'.held = c.held := by
  rw [held, held, hactive, hqueue]

/-- The facts are about three fields only. -/
theorem Backlog.congr (h : c.Backlog)
    (heq : (c'.active, c'.queue, c'.reserved) = (c.active, c.queue, c.reserved)) : c'.Backlog := by
  simp only [Prod.mk.injEq] at heq
  obtain ⟨hactive, hqueue, hreserved⟩ := heq
  have hheld := held_congr hactive hqueue
  exact ⟨by rw [hreserved, hheld]; exact h.keys, by rw [hheld]; exact h.nodup,
    by rw [hreserved]; exact h.bound, by rw [hqueue]; exact h.wanted,
    by rw [hheld]; exact h.plain, by rw [hactive]; exact h.retired⟩

/-- Some keys are given up together with the requests that hold them. -/
theorem Backlog.shrink (h : c.Backlog) (kept : Key → Bool)
    (hreserved : c'.reserved = c.reserved.filter kept)
    (hheld : c'.held = c.held.filter (fun r => kept r.key)) (hqueue : ∀ r ∈ c'.queue, r ∈ c.queue)
    (hretired : ∀ r, c'.active = some r → r.discarded = true → r.key.isPlain = false) :
    c'.Backlog := by
  have hmap : c'.held.map (·.key) = (c.held.map (·.key)).filter kept := by
    rw [hheld, List.filter_map]
    rfl
  refine ⟨?_, ?_, ?_, fun r hr => h.wanted r (hqueue r hr), ?_, hretired⟩
  · rw [hreserved, hmap]
    exact h.keys.filter kept
  · rw [hmap]
    exact h.nodup.filter kept
  · rw [hreserved]
    exact (List.length_filter_le _ _).trans h.bound
  · intro r hr
    rw [hheld] at hr
    exact h.plain r (List.mem_of_mem_filter hr)

/-- The key of a held request is its own. -/
theorem Backlog.key_inj (h : c.Backlog) {r' : PendingRequest} (hr : r ∈ c.held) (hr' : r' ∈ c.held)
    (hkey : r.key = r'.key) : r = r' :=
  List.inj_on_of_nodup_map h.nodup hr hr' hkey

theorem Backlog.key_mem (h : c.Backlog) (hr : r ∈ c.held) :
    r.key ∈ c.reserved := h.keys.mem_iff.mpr (List.mem_map_of_mem hr)

theorem queue_subset_held (c : Core) : c.queue ⊆ c.held := List.subset_append_right _ _

theorem mem_held_of_active (h : c.active = some r) (hr : r.discarded = false) : r ∈ c.held := by
  rw [held_of_active h hr]
  exact .head _

/-- The key of the active request is no queued one's. -/
theorem Backlog.key_ne (h : c.Backlog) {x : PendingRequest} (hr : c.active = some r)
    (hwanted : r.discarded = false) (hx : x ∈ c.queue) : x.key ≠ r.key := by
  have hnodup := h.nodup
  rw [held_of_active hr hwanted, List.map_cons, List.nodup_cons] at hnodup
  intro hkey
  rw [← hkey] at hnodup
  exact hnodup.1 (List.mem_map_of_mem hx)

theorem Backlog.removeIf (h : c.Backlog) (p : PendingRequest → Bool) : (c.removeIf p).Backlog := by
  refine h.shrink (fun key => !c.queue.any (fun r => p r && r.key == key)) rfl ?_
    (fun r hr => (mem_removeIf hr).1) h.retired
  -- a held request keeps its key unless it is queued and the predicate picks it
  have hqueue : (c.removeIf p).queue
      = c.queue.filter (fun r => !c.queue.any (fun x => p x && x.key == r.key)) := by
    refine List.filter_congr (fun r hr => ?_)
    congr 1
    rw [Bool.eq_iff_iff, List.any_eq_true]
    constructor
    · exact fun hp => ⟨r, hr, by simp [hp]⟩
    rintro ⟨x, hx, hpx⟩
    simp only [Bool.and_eq_true, beq_iff_eq] at hpx
    have := h.key_inj (c.queue_subset_held hx) (c.queue_subset_held hr) hpx.2
    rw [← this]
    exact hpx.1
  have hactive : (c.active.filter (fun r => !r.discarded)).toList
      = (c.active.filter (fun r => !r.discarded)).toList.filter
        (fun r => !c.queue.any (fun x => p x && x.key == r.key)) := by
    refine (List.filter_eq_self.mpr (fun r hr => ?_)).symm
    simp only [Option.mem_toList, Option.filter_eq_some_iff, Bool.not_eq_true'] at hr
    simp only [Bool.not_eq_true', List.any_eq_false, Bool.and_eq_true, beq_iff_eq, not_and]
    exact fun x hx _ => h.key_ne hr.1 hr.2 hx
  unfold held
  rw [List.filter_append, ← hactive, ← hqueue]
  rfl

/-- The active request gives up its key and is no longer held. -/
theorem Backlog.release (h : c.Backlog) (hr : c.active = some r)
    (hreserved : c'.reserved = c.reserved.filter (· ≠ r.key)) (hheld : c'.held = c.queue)
    (hqueue : c'.queue = c.queue)
    (hretired : ∀ r, c'.active = some r → r.discarded = true → r.key.isPlain = false) :
    c'.Backlog := by
  refine h.shrink (fun key => decide (key ≠ r.key)) hreserved ?_
    (fun x hx => by rw [← hqueue]; exact hx) hretired
  rw [hheld]
  cases hdiscarded : r.discarded with
  | false =>
    rw [held_of_active hr hdiscarded, List.filter_cons_of_neg (by simp)]
    refine (List.filter_eq_self.mpr (fun x hx => ?_)).symm
    exact decide_eq_true (h.key_ne hr hdiscarded hx)
  | true =>
    rw [held_of_retired hr hdiscarded]
    refine (List.filter_eq_self.mpr (fun x hx => ?_)).symm
    rw [decide_eq_true_eq]
    intro hkey
    have hplain := h.plain x (c.queue_subset_held hx)
    rw [hkey, h.retired r hr hdiscarded] at hplain
    cases hplain

/-- Retiring the active request changes it and its key, or nothing. -/
theorem retireActive_cases (uid : Option Nat) (c : Core) :
    c.retireActive uid = c ∨ ∃ r, c.active = some r ∧ isAbout uid r = true
      ∧ c.retireActive uid = { c with
        active := some { r with discarded := true, key := .retired r.key }
        reserved := c.reserved.filter (· ≠ r.key) } := by
  unfold retireActive
  split
  · exact .inl rfl
  rename_i r hr
  split
  · rename_i habout
    simp only [Bool.and_eq_true] at habout
    exact .inr ⟨r, hr, habout.1, rfl⟩
  · exact .inl rfl

theorem Backlog.retireActive (h : c.Backlog) (uid : Option Nat) : (c.retireActive uid).Backlog := by
  rcases c.retireActive_cases uid with heq | ⟨r, hr, -, heq⟩
  · rw [heq]
    exact h
  rw [heq]
  refine h.release hr rfl ?_ rfl ?_
  · exact held_of_retired rfl rfl
  · intro r' hr' _
    cases hr'
    rfl

theorem Backlog.finishActive (h : c.Backlog) : c.finishActive.Backlog := by
  cases hr : c.active with
  | none =>
    rw [finishActive_none hr]
    exact h.congr rfl
  | some r =>
    rw [finishActive_some hr]
    exact h.release hr rfl (held_of_none rfl) rfl (fun _ hr' => by cases hr')

theorem resetRequests_reserved (c : Core) : c.resetRequests.reserved = [] := by
  unfold resetRequests finishActive
  dsimp only
  split <;> rfl

theorem backlog_empty (hqueue : c.queue = []) (hreserved : c.reserved = [])
    (hactive : c.active = none) : c.Backlog := by
  have hheld : c.held = [] := by rw [held_of_none hactive, hqueue]
  refine ⟨by rw [hreserved, hheld]; exact List.Perm.nil, by rw [hheld]; exact List.nodup_nil,
    by rw [hreserved]; exact Nat.zero_le _, ?_, ?_, ?_⟩
  · rw [hqueue]
    exact fun r hr => by cases hr
  · rw [hheld]
    exact fun r hr => by cases hr
  · rw [hactive]
    exact fun r hr => by cases hr

theorem backlog_giveUpAll (c : Core) : c.giveUpAll.Backlog :=
  backlog_empty (resetRequests_queue c) (resetRequests_reserved c) (resetRequests_active c)

theorem Backlog.enqueue (h : c.Backlog) {front : Bool} (hwanted : r.discarded = false)
    (hplain : r.key.isPlain = true) (hc : c.enqueue r front = some c') : c'.Backlog := by
  have hfree : r.key ∉ c.reserved ∧ c.reserved.length < maxAncsRequests := by
    unfold Core.enqueue at hc
    split at hc
    · cases hc
    split at hc
    · cases hc
    · exact ⟨‹_›, by omega⟩
  have hqueue : c'.queue.Perm (r :: c.queue) := by
    rw [enqueue_eq hc]
    split
    · exact List.Perm.refl _
    · exact List.perm_append_singleton _ _
  have hactive : c'.active = c.active := by rw [enqueue_eq hc]
  have hreserved : c'.reserved = r.key :: c.reserved := by rw [enqueue_eq hc]
  have hheld : c'.held.Perm (r :: c.held) := by
    unfold held
    rw [hactive]
    exact (hqueue.append_left _).trans List.perm_middle
  have hkeys : (c'.held.map (·.key)).Perm (r.key :: c.held.map (·.key)) := hheld.map _
  refine ⟨?_, ?_, ?_, ?_, ?_, by rw [hactive]; exact h.retired⟩
  · rw [hreserved]
    exact (h.keys.cons _).trans hkeys.symm
  · rw [hkeys.nodup_iff, List.nodup_cons]
    exact ⟨fun hmem => hfree.1 (h.keys.mem_iff.mpr hmem), h.nodup⟩
  · rw [hreserved, List.length_cons]
    exact hfree.2
  · intro x hx
    rcases enqueue_mem hc hx with rfl | hx
    · exact hwanted
    · exact h.wanted x hx
  intro x hx
  rcases List.mem_cons.mp (hheld.mem_iff.mp hx) with rfl | hx
  · exact hplain
  · exact h.plain x hx

/-- The active request changes and keeps its key. -/
theorem Backlog.rename (h : c.Backlog) {assembler : Option DataSourceAssembler}
    (hr : c.active = some r) (hactive : c'.active = some { r with assembler })
    (hsame : c'.queue = c.queue ∧ c'.reserved = c.reserved) : c'.Backlog := by
  obtain ⟨hqueue, hreserved⟩ := hsame
  cases hdiscarded : r.discarded with
  | false =>
    have hold : c.held = r :: c.queue := held_of_active hr hdiscarded
    have hnew : c'.held = { r with assembler } :: c.queue := by
      rw [← hqueue]
      exact held_of_active hactive hdiscarded
    have hkeys : c'.held.map (·.key) = c.held.map (·.key) := by rw [hold, hnew]; rfl
    refine ⟨by rw [hreserved, hkeys]; exact h.keys, by rw [hkeys]; exact h.nodup,
      by rw [hreserved]; exact h.bound, by rw [hqueue]; exact h.wanted, ?_, ?_⟩
    · rw [hnew]
      intro x hx
      rcases List.mem_cons.mp hx with rfl | hx
      · exact h.plain r (mem_held_of_active hr hdiscarded)
      · exact h.plain x (c.queue_subset_held hx)
    intro r' hr' hgone
    rw [hactive] at hr'
    cases hr'
    rw [hdiscarded] at hgone
    cases hgone
  | true =>
    have hold : c.held = c.queue := held_of_retired hr hdiscarded
    have hnew : c'.held = c.held := by
      rw [hold, ← hqueue]
      exact held_of_retired hactive hdiscarded
    refine ⟨by rw [hreserved, hnew]; exact h.keys, by rw [hnew]; exact h.nodup,
      by rw [hreserved]; exact h.bound, by rw [hqueue]; exact h.wanted,
      by rw [hnew]; exact h.plain, ?_⟩
    intro r' hr' _
    rw [hactive] at hr'
    cases hr'
    exact h.retired r hr hdiscarded

/-- The head of the queue becomes the active request. -/
theorem Backlog.popped (h : c.Backlog) {rest : List PendingRequest} (hnone : c.active = none)
    (hqueue : c.queue = r :: rest)
    (hc : c'.active = some r ∧ c'.queue = rest ∧ c'.reserved = c.reserved) : c'.Backlog := by
  obtain ⟨hactive, hrest, hreserved⟩ := hc
  have hwanted : r.discarded = false := h.wanted r (by rw [hqueue]; exact .head _)
  have hheld : c'.held = c.held := by
    rw [held_of_active hactive hwanted, held_of_none hnone, hqueue, hrest]
  refine ⟨by rw [hreserved, hheld]; exact h.keys, by rw [hheld]; exact h.nodup,
    by rw [hreserved]; exact h.bound, ?_, by rw [hheld]; exact h.plain, ?_⟩
  · intro x hx
    rw [hrest] at hx
    exact h.wanted x (by rw [hqueue]; exact .tail _ hx)
  intro r' hr' hgone
  rw [hactive] at hr'
  cases hr'
  rw [hwanted] at hgone
  cases hgone

/-- The active request goes back to the queue and keeps its key. -/
theorem Backlog.pushFront (h : c.Backlog) (hr : c.active = some r) (hwanted : r.discarded = false)
    (n : Nat) : Client.pushFront { r with busyRetries := n } { c with active := none }
        = { c with active := none, queue := { r with busyRetries := n } :: c.queue
                   busyRetry := true }
      ∧ (Client.pushFront { r with busyRetries := n } { c with active := none }).Backlog := by
  have heq : Client.pushFront { r with busyRetries := n } { c with active := none }
      = { c with active := none, queue := { r with busyRetries := n } :: c.queue
                 busyRetry := true } := by
    exact if_pos (h.key_mem (mem_held_of_active hr hwanted))
  have hold := held_of_active hr hwanted
  refine ⟨heq, ?_⟩
  rw [heq]
  refine ⟨?_, ?_, h.bound, ?_, ?_, fun _ hr' => by cases hr'⟩
  · rw [held_of_none rfl]
    have := h.keys
    rw [hold] at this
    exact this
  · rw [held_of_none rfl]
    have := h.nodup
    rw [hold] at this
    exact this
  · intro x hx
    rcases List.mem_cons.mp hx with rfl | hx
    · exact hwanted
    · exact h.wanted x hx
  rw [held_of_none rfl]
  intro x hx
  rcases List.mem_cons.mp hx with rfl | hx
  · exact h.plain r (mem_held_of_active hr hwanted)
  · exact h.plain x (c.queue_subset_held hx)

/-! ## The writes -/

/-- The open writes, seen by a client that has counted `g` owner changes. -/
structure Wired (g : Nat) (c : Core) : Prop where
  tokens : (c.writes.map (·.token)).Nodup
  below : ∀ w ∈ c.writes, w.token < c.nextWrite
  generations : (c.writes.map (·.generation)).Nodup
  past : ∀ w ∈ c.writes, w.generation ≤ g
  marked : ∀ w ∈ c.writes, w.generation = g → c.cpWriteToken = some w.token
  carried : ∀ w ∈ c.writes, w.generation = g → ∀ r, c.active = some r →
    r.rid = w.rid ∧ r.action = w.action
  owed : ∀ t, c.cpWriteToken = some t → ∃ w ∈ c.writes, w.token = t ∧ w.generation = g
  timer : c.requestTimer = true → c.cpWriteToken = none ∧ ∃ r, c.active = some r ∧ r.action = none

variable {g : Nat} {w : Write}

/-- The writes stay, and the active request keeps its number and its action or is gone. -/
theorem Wired.follow (h : c.Wired g)
    (hsame : c'.writes = c.writes ∧ c'.nextWrite = c.nextWrite ∧ c'.cpWriteToken = c.cpWriteToken)
    (hactive : ∀ r', c'.active = some r' →
      ∃ r, c.active = some r ∧ r'.rid = r.rid ∧ r'.action = r.action)
    (htimer : c'.requestTimer = true → c.requestTimer = true ∧ c'.active.isSome = true) :
    c'.Wired g := by
  obtain ⟨hwrites, hnext, htoken⟩ := hsame
  refine ⟨by rw [hwrites]; exact h.tokens, by rw [hwrites, hnext]; exact h.below,
    by rw [hwrites]; exact h.generations, by rw [hwrites]; exact h.past,
    by rw [hwrites, htoken]; exact h.marked, ?_, by rw [hwrites, htoken]; exact h.owed, ?_⟩
  · rw [hwrites]
    intro w hw hg r' hr'
    obtain ⟨r, hr, hrid, haction⟩ := hactive r' hr'
    rw [hrid, haction]
    exact h.carried w hw hg r hr
  intro ht
  obtain ⟨ht, hsome⟩ := htimer ht
  obtain ⟨hnone, r, hr, hno⟩ := h.timer ht
  obtain ⟨r', hr'⟩ := Option.isSome_iff_exists.mp hsome
  obtain ⟨r₁, hr₁, -, haction⟩ := hactive r' hr'
  rw [hr] at hr₁
  cases hr₁
  exact ⟨by rw [htoken]; exact hnone, r', hr', by rw [haction]; exact hno⟩

theorem Wired.congr (h : c.Wired g)
    (hsame : c'.writes = c.writes ∧ c'.nextWrite = c.nextWrite ∧ c'.cpWriteToken = c.cpWriteToken)
    (hactive : c'.active = c.active) (htimer : c'.requestTimer = c.requestTimer) : c'.Wired g := by
  refine h.follow hsame (fun r' hr' => ⟨r', by rw [← hactive]; exact hr', rfl, rfl⟩) (fun ht => ?_)
  rw [htimer] at ht
  obtain ⟨-, r, hr, -⟩ := h.timer ht
  exact ⟨ht, by rw [hactive, hr]; rfl⟩

/-- The active request ends, and its timer with it. -/
theorem Wired.ended (h : c.Wired g)
    (hsame : c'.writes = c.writes ∧ c'.nextWrite = c.nextWrite ∧ c'.cpWriteToken = c.cpWriteToken)
    (hactive : c'.active = none) (htimer : c'.requestTimer = false) : c'.Wired g := by
  refine h.follow hsame (fun r' hr' => ?_) (fun ht => ?_)
  · rw [hactive] at hr'
    cases hr'
  · rw [htimer] at ht
    cases ht

theorem finishActive_wires (c : Core) :
    c.finishActive.writes = c.writes ∧ c.finishActive.nextWrite = c.nextWrite
      ∧ c.finishActive.cpWriteToken = c.cpWriteToken ∧ c.finishActive.requestTimer = false := by
  unfold finishActive
  split <;> exact ⟨rfl, rfl, rfl, rfl⟩

theorem Wired.finishActive (h : c.Wired g) : c.finishActive.Wired g := by
  obtain ⟨hwrites, hnext, htoken, htimer⟩ := c.finishActive_wires
  exact h.ended ⟨hwrites, hnext, htoken⟩ (finishActive_active c) htimer

theorem resetRequests_wires (c : Core) :
    c.resetRequests.writes = c.writes ∧ c.resetRequests.nextWrite = c.nextWrite
      ∧ c.resetRequests.cpWriteToken = c.cpWriteToken ∧ c.resetRequests.requestTimer = false := by
  obtain ⟨calls, -, heq⟩ := ({ c with busyRetry := false } : Core).dropQueuedActions_eq
    (fun _ => true) .disconnected
  unfold resetRequests
  rw [heq]
  exact finishActive_wires _

theorem Wired.giveUpAll (h : c.Wired g) : c.giveUpAll.Wired g := by
  obtain ⟨hwrites, hnext, htoken, htimer⟩ := c.resetRequests_wires
  exact h.ended ⟨hwrites, hnext, htoken⟩ (resetRequests_active c) htimer

/-- The bluetoothd of the open writes is gone. -/
theorem Wired.nextOwner (h : c.Wired g) (hwrites : c'.writes = c.writes)
    (hnext : c'.nextWrite = c.nextWrite) (htoken : c'.cpWriteToken = none)
    (htimer : c'.requestTimer = true → ∃ r, c'.active = some r ∧ r.action = none) :
    c'.Wired (g + 1) := by
  have hold : ∀ w ∈ c'.writes, w.generation ≠ g + 1 := by
    intro w hw
    rw [hwrites] at hw
    have := h.past w hw
    omega
  refine ⟨by rw [hwrites]; exact h.tokens, by rw [hwrites, hnext]; exact h.below,
    by rw [hwrites]; exact h.generations, ?_, fun w hw hg => absurd hg (hold w hw),
    fun w hw hg => absurd hg (hold w hw), ?_, fun ht => ⟨htoken, htimer ht⟩⟩
  · intro w hw
    rw [hwrites] at hw
    have := h.past w hw
    omega
  · rw [htoken]
    exact fun t ht => by cases ht

/-- An answered write is gone, and the marker with it if it was its own. -/
theorem Wired.settle (h : c.Wired g) {rest : List Write}
    (hw : c.writes.Perm (w :: rest)) : (c.settle w rest).Wired g := by
  have hin : ∀ x ∈ rest, x ∈ c.writes := fun x hx => hw.mem_iff.mpr (.tail _ hx)
  have htokens : (w.token :: rest.map (·.token)).Nodup :=
    (List.Perm.map Write.token hw).nodup_iff.mp h.tokens
  have hgenerations : (w.generation :: rest.map (·.generation)).Nodup :=
    (List.Perm.map Write.generation hw).nodup_iff.mp h.generations
  refine ⟨(List.nodup_cons.mp htokens).2, fun x hx => h.below x (hin x hx),
    (List.nodup_cons.mp hgenerations).2, fun x hx => h.past x (hin x hx), ?_,
    fun x hx => h.carried x (hin x hx), ?_, ?_⟩
  · intro x hx hg
    have hmarked := h.marked x (hin x hx) hg
    have hne : ¬ c.cpWriteToken = some w.token := by
      rw [hmarked]
      intro heq
      have heq : x.token = w.token := Option.some.inj heq
      refine (List.nodup_cons.mp htokens).1 ?_
      rw [← heq]
      exact List.mem_map_of_mem hx
    show (if c.cpWriteToken = some w.token then none else c.cpWriteToken) = some x.token
    rw [if_neg hne, hmarked]
  · intro t ht
    have hkept : (if c.cpWriteToken = some w.token then none else c.cpWriteToken) = some t := ht
    split at hkept
    · cases hkept
    rename_i hne
    obtain ⟨x, hx, htoken, hg⟩ := h.owed t hkept
    refine ⟨x, ?_, htoken, hg⟩
    rcases List.mem_cons.mp (hw.mem_iff.mp hx) with rfl | hx
    · rw [htoken] at hne
      exact absurd hkept hne
    · exact hx
  · intro ht
    obtain ⟨hnone, hactive⟩ := h.timer ht
    refine ⟨?_, hactive⟩
    show (if c.cpWriteToken = some w.token then none else c.cpWriteToken) = none
    rw [hnone]
    rfl

/-- The reply of the current bluetoothd takes the marker away. -/
theorem Wired.settle_token (h : c.Wired g) {rest : List Write} (hw : c.writes.Perm (w :: rest))
    (hg : w.generation = g) : (c.settle w rest).cpWriteToken = none :=
  if_pos (h.marked w (hw.mem_iff.mpr (.head _)) hg)

/-- While the current bluetoothd owes a reply no response is timed. -/
theorem Wired.timer_off (h : c.Wired g) (hw : w ∈ c.writes)
    (hg : w.generation = g) : c.requestTimer = false := by
  by_contra ht
  have hnone := (h.timer (by simpa using ht)).1
  rw [h.marked w hw hg] at hnone
  cases hnone

/-- The head of the queue is written. -/
theorem Wired.write (h : c.Wired g)
    (hw : w.token = c.nextWrite ∧ w.rid = r.rid ∧ w.generation = g ∧ w.action = r.action)
    (hactive : c.active = none) (htoken : c.cpWriteToken = none)
    (hwrites : c'.writes = c.writes ++ [w]) (hnext : c'.nextWrite = c.nextWrite + 1)
    (hactive' : c'.active = some r) (htoken' : c'.cpWriteToken = some w.token)
    (htimer' : c'.requestTimer = c.requestTimer) : c'.Wired g := by
  obtain ⟨hwtoken, hwrid, hwg, hwaction⟩ := hw
  have hnone : ∀ x ∈ c.writes, x.generation ≠ g := by
    intro x hx hg
    have := h.marked x hx hg
    rw [htoken] at this
    cases this
  have hmem : ∀ x ∈ c'.writes, x ∈ c.writes ∨ x = w := by
    intro x hx
    rw [hwrites] at hx
    exact (List.mem_append.mp hx).imp_right List.mem_singleton.mp
  refine ⟨?_, ?_, ?_, ?_, ?_, ?_, ?_, ?_⟩
  · rw [hwrites, List.map_append, List.nodup_append']
    refine ⟨h.tokens, List.nodup_singleton _, fun t ht hlast => ?_⟩
    obtain ⟨x, hx, rfl⟩ := List.mem_map.mp ht
    have hlast : x.token = w.token := by simpa using hlast
    have := h.below x hx
    omega
  · intro x hx
    rcases hmem x hx with hx | rfl
    · have := h.below x hx
      omega
    · omega
  · rw [hwrites, List.map_append, List.nodup_append']
    refine ⟨h.generations, List.nodup_singleton _, fun n hn hlast => ?_⟩
    obtain ⟨x, hx, rfl⟩ := List.mem_map.mp hn
    have hlast : x.generation = w.generation := by simpa using hlast
    exact hnone x hx (hlast.trans hwg)
  · intro x hx
    rcases hmem x hx with hx | rfl
    · exact h.past x hx
    · exact hwg.le
  · intro x hx hg
    rcases hmem x hx with hx | rfl
    · exact absurd hg (hnone x hx)
    · exact htoken'
  · intro x hx hg r' hr'
    rcases hmem x hx with hx | rfl
    · exact absurd hg (hnone x hx)
    rw [hactive'] at hr'
    cases hr'
    exact ⟨hwrid.symm, hwaction.symm⟩
  · intro t ht
    rw [htoken'] at ht
    refine ⟨w, ?_, Option.some.inj ht, hwg⟩
    rw [hwrites]
    exact List.mem_append_right _ (List.mem_singleton_self _)
  intro ht
  rw [htimer'] at ht
  obtain ⟨-, r', hr', -⟩ := h.timer ht
  rw [hactive] at hr'
  cases hr'

end Core

/-! ## Every reachable state -/

/-- What holds of the client in every state, in the middle of a step too. -/
structure Sound (s : Client) : Prop where
  backlog : s.core.Backlog
  wired : s.core.Wired s.tr.ownerGeneration
  fine : s.tr.Fine
  numbered : s.tr.Numbered
  subscribed : s.core.queue ≠ [] ∨ s.core.active.isSome = true → s.tr.notifyStarted = true

variable {s : Client}

theorem Client.generation_of_isCurrent {w : Write} (h : s.isCurrent w = true) :
    w.generation = s.tr.ownerGeneration := by
  unfold isCurrent at h
  simp only [Bool.and_eq_true, beq_iff_eq] at h
  exact h.1.2

theorem Client.free_of_isBlocked (h : s.isBlocked = false) :
    s.core.active = none ∧ s.core.cpWriteToken = none := by
  unfold isBlocked at h
  simp only [Bool.or_eq_false_iff, Option.isSome_eq_false_iff, Option.isNone_iff_eq_none] at h
  exact ⟨h.1.1.1.1, h.1.1.1.2⟩

/-- The requests change and the transport does not. -/
theorem Sound.onCore (h : Sound s) (hbacklog : c.Backlog) (hwired : c.Wired s.tr.ownerGeneration)
    (hbusy : c.queue ≠ [] ∨ c.active.isSome = true →
      s.core.queue ≠ [] ∨ s.core.active.isSome = true) : Sound ⟨s.tr, c⟩ :=
  ⟨hbacklog, hwired, h.fine, h.numbered, fun hc => h.subscribed (hbusy hc)⟩

/-- Nothing that the facts are about changes. -/
theorem Sound.same (h : Sound s) (heq : (c.queue, c.reserved, c.active, c.writes, c.nextWrite,
      c.cpWriteToken, c.requestTimer) =
    (s.core.queue, s.core.reserved, s.core.active, s.core.writes, s.core.nextWrite,
      s.core.cpWriteToken, s.core.requestTimer)) : Sound ⟨s.tr, c⟩ := by
  simp only [Prod.mk.injEq] at heq
  obtain ⟨hqueue, hreserved, hactive, hwrites, hnext, htoken, htimer⟩ := heq
  refine h.onCore (h.backlog.congr (by rw [hactive, hqueue, hreserved]))
    (h.wired.congr ⟨hwrites, hnext, htoken⟩ hactive htimer) ?_
  rw [hqueue, hactive]
  exact id

/-- The requests are given up. -/
theorem Sound.reset {tr : Transport} (h : Sound s) (hwired : c.giveUpAll.Wired tr.ownerGeneration)
    (hfine : tr.Fine) (hnumbered : s.tr.Numbered → tr.Numbered) : Sound ⟨tr, c.giveUpAll⟩ := by
  refine ⟨c.backlog_giveUpAll, hwired, hfine, hnumbered h.numbered, fun hbusy => ?_⟩
  rcases hbusy with hbusy | hbusy
  · exact absurd (Core.resetRequests_queue c) hbusy
  have hbusy : c.resetRequests.active.isSome = true := hbusy
  rw [Core.resetRequests_active] at hbusy
  cases hbusy

/-- The timer does not count when the requests are given up. -/
theorem Core.Wired.giveUpTimed {g : Nat} (h : c.Wired g) (requestTimer : Bool) :
    ({ c with requestTimer } : Core).giveUpAll.Wired g := by
  obtain ⟨hwrites, hnext, htoken, htimer⟩ := ({ c with requestTimer } : Core).resetRequests_wires
  exact h.ended ⟨hwrites, hnext, htoken⟩ (Core.resetRequests_active _) htimer

/-- The active request of an answered write ends. -/
theorem Sound.finishSettled (h : Sound s) {w : Write} {rest : List Write}
    (hw : s.core.writes.Perm (w :: rest)) : Sound ⟨s.tr, (s.core.settle w rest).finishActive⟩ := by
  have hbacklog : (s.core.settle w rest).Backlog := h.backlog.congr rfl
  refine h.onCore hbacklog.finishActive (h.wired.settle hw).finishActive (fun hbusy => ?_)
  rw [Core.finishActive_queue, Core.finishActive_active] at hbusy
  exact .inl (hbusy.resolve_right (by simp))

theorem Core.reportAny_same (a : Option ActionRequest) (result : ActionResult) (c : Core) :
    ∃ log, c.reportAny a result = { c with log } := by
  cases a with
  | none => exact ⟨c.log, rfl⟩
  | some a => exact ⟨_, rfl⟩

variable {env : Env} {s' : Client}

/-- **Every act** leaves the client sound. -/
theorem sound_act {fresh : Client → Prop} (hact : Act env fresh s s') (h : Sound s) : Sound s' := by
  cases hact with
  | transport tr hk =>
    refine ⟨h.backlog, ?_, hk.fine h.fine, hk.numbered h.numbered,
      fun hb => hk.subscribed (h.subscribed hb)⟩
    rw [hk.generation]
    exact h.wired
  | book c hc =>
    simp only [Core.stock, Prod.mk.injEq] at hc
    obtain ⟨hqueue, hreserved, hactive, htimer, htoken, hwrites, hnext, -⟩ := hc
    exact h.same (by rw [hqueue, hreserved, hactive, hwrites, hnext, htoken, htimer])
  | noted e he | offered event serial | withdrawn entries hentries => exact h.same rfl
  | dropped p result hresult =>
    obtain ⟨calls, -, heq⟩ := s.core.dropQueuedActions_eq p result
    unfold Client.onCore
    dsimp only
    rw [heq]
    refine h.onCore ((h.backlog.removeIf _).congr rfl)
      (h.wired.congr ⟨rfl, rfl, rfl⟩ rfl rfl) (fun hbusy => hbusy.imp_left (fun hq hnil => ?_))
    exact hq (by simp [Core.removeIf, hnil])
  | retired uid =>
    have hbacklog := (h.backlog.removeIf (Core.isAbout uid)).retireActive uid
    rcases (s.core.removeIf (Core.isAbout uid)).retireActive_cases uid with heq | ⟨r, hr, -, heq⟩
    · unfold Client.onCore
      dsimp only
      rw [heq] at hbacklog ⊢
      refine h.onCore hbacklog (h.wired.congr ⟨rfl, rfl, rfl⟩ rfl rfl) (fun hbusy => ?_)
      exact hbusy.imp_left (fun hq hnil => hq (by simp [Core.removeIf, hnil]))
    have hr : s.core.active = some r := hr
    unfold Client.onCore
    dsimp only
    rw [heq] at hbacklog ⊢
    refine h.onCore hbacklog (h.wired.follow ⟨rfl, rfl, rfl⟩ ?_ (fun ht => ⟨ht, rfl⟩)) ?_
    · intro r' hr'
      cases hr'
      exact ⟨r, hr, rfl, rfl⟩
    · exact fun _ => .inr (by rw [hr]; rfl)
  | cleared tr requestTimer htr =>
    refine h.reset ?_ htr.fine htr.numbered
    rw [htr.generation]
    exact h.wired.giveUpTimed requestTimer
  | ownerLost tr hfine hnumbered hgeneration =>
    refine h.reset ?_ hfine.1 hnumbered
    rw [hgeneration]
    obtain ⟨hwrites, hnext, htoken, htimer⟩ :=
      ({ s.core with cpWriteToken := none } : Core).resetRequests_wires
    refine h.wired.nextOwner hwrites hnext htoken (fun ht => ?_)
    have hoff : ({ s.core with cpWriteToken := none } : Core).giveUpAll.requestTimer = false := htimer
    rw [hoff] at ht
    cases ht
  | ownerFound available hfresh =>
    refine ⟨h.backlog.congr rfl, ?_, ⟨h.fine.subscribed, h.fine.received, h.fine.refreshed⟩,
      ⟨h.numbered.below, h.numbered.nodup⟩, h.subscribed⟩
    exact h.wired.nextOwner rfl rfl rfl (fun ht => (h.wired.timer ht).2)
  | finished hr =>
    refine h.onCore h.backlog.finishActive h.wired.finishActive (fun hbusy => ?_)
    rw [Core.finishActive_queue, Core.finishActive_active] at hbusy
    exact .inl (hbusy.resolve_right (by simp))
  | fed r assembler assembler' hactive hr =>
    refine h.onCore (h.backlog.rename hactive rfl ⟨rfl, rfl⟩)
      (h.wired.follow ⟨rfl, rfl, rfl⟩ ?_ (fun ht => ⟨ht, rfl⟩)) ?_
    · intro r' hr'
      cases hr'
      exact ⟨r, hactive, rfl, rfl⟩
    · exact fun _ => .inr (by rw [hactive]; rfl)
  | queued r front c hr hs hc =>
    refine ⟨h.backlog.enqueue hr.wanted hr.plain hc, ?_, h.fine, h.numbered, fun _ => hs⟩
    rw [Core.enqueue_eq hc]
    exact h.wired.congr ⟨rfl, rfl, rfl⟩ rfl rfl
  | wrote r rest hqueue hfree =>
    obtain ⟨hactive, htoken⟩ := Client.free_of_isBlocked hfree
    refine h.onCore (h.backlog.popped hactive hqueue ⟨rfl, rfl, rfl⟩) ?_ (fun _ => .inl (by simp [hqueue]))
    exact h.wired.write ⟨rfl, rfl, rfl, rfl⟩ hactive htoken rfl rfl rfl rfl rfl
  | stale w rest result hw hstale =>
    obtain ⟨log, heq⟩ := (s.core.settle w rest).reportAny_same w.action result
    unfold Client.onCore
    dsimp only
    rw [heq]
    exact h.onCore (h.backlog.congr rfl) ((h.wired.settle hw).congr ⟨rfl, rfl, rfl⟩ rfl rfl) id
  | awaited w rest hw hcurrent ha =>
    have hsettled := h.wired.settle hw
    have hg := Client.generation_of_isCurrent hcurrent
    obtain ⟨r, hr, -⟩ := Client.exists_active_of_isCurrent hcurrent
    refine h.onCore (h.backlog.congr rfl) ?_ id
    refine { hsettled with timer := fun _ => ⟨h.wired.settle_token hw hg, r, hr, ?_⟩ }
    rw [(h.wired.carried w (hw.mem_iff.mpr (.head _)) hg r hr).2, ha]
  | drained w rest r hw hcurrent hactive hr => exact h.finishSettled hw
  | retried w rest r n hw hcurrent hactive hr =>
    have hbacklog : (s.core.settle w rest).Backlog := h.backlog.congr rfl
    obtain ⟨heq, hback⟩ := hbacklog.pushFront hactive hr n
    have htimer := h.wired.timer_off (hw.mem_iff.mpr (.head _))
      (Client.generation_of_isCurrent hcurrent)
    unfold Client.onCore
    dsimp only
    rw [heq] at hback ⊢
    refine h.onCore hback ((h.wired.settle hw).ended ⟨rfl, rfl, rfl⟩ rfl htimer) (fun _ => ?_)
    exact .inr (by rw [hactive]; rfl)
  | sent w rest a hw hcurrent ha | refused w rest r a e hw hcurrent hactive ha =>
    exact (h.finishSettled hw).same rfl
  | abandoned w rest r hw hcurrent hactive ha =>
    have hbacklog : (s.core.settle w rest).Backlog := h.backlog.congr rfl
    have htimer := h.wired.timer_off (hw.mem_iff.mpr (.head _))
      (Client.generation_of_isCurrent hcurrent)
    refine h.onCore (hbacklog.release hactive rfl (Core.held_of_none rfl) rfl
      (fun _ hr' => by cases hr')) ((h.wired.settle hw).ended ⟨rfl, rfl, rfl⟩ rfl htimer) ?_
    exact fun _ => .inr (by rw [hactive]; rfl)
  | lost w rest r tr hw hcurrent hactive ha htr =>
    refine h.reset ?_ htr.fine htr.numbered
    rw [htr.generation]
    exact (h.wired.settle hw).giveUpAll

theorem sound_acts {fresh : Client → Prop} (hacts : Acts env fresh s s')
    (h : Sound s) : Sound s' := by
  induction hacts with
  | refl => exact h
  | tail _ hact ih => exact sound_act hact ih

theorem sound_taken {token call : Nat} (htaken : Taken token call s s')
    (h : Sound s) : Sound s' := by
  cases htaken with
  | queued rid nextRid a entry c hentry ha hoffer hs hc =>
    have hbacklog : ({ s.core with nextRid } : Core).Backlog := h.backlog.congr rfl
    refine ⟨(hbacklog.enqueue rfl rfl hc).congr rfl, ?_, h.fine, h.numbered, fun _ => hs⟩
    rw [Core.enqueue_eq hc]
    exact h.wired.congr ⟨rfl, rfl, rfl⟩ rfl rfl
  | refused result hresult => exact h.same rfl

theorem sound_step (s : Client) (input : Env × Input) (h : Sound s) : Sound (s.step input) := by
  rcases acts_step (fun _ => True) s input h.fine h.numbered h.wired.tokens (fun _ _ => trivial) with
    hacts | ⟨_, _, _, _, s₁, -, htaken, hacts⟩
  · exact sound_acts hacts h
  · exact sound_acts hacts (sound_taken htaken h)

theorem sound_initial (previouslyAuthorized : Bool) : Sound (Client.initial previouslyAuthorized) := by
  refine ⟨Core.backlog_empty rfl rfl rfl, ?_, ?_, ?_, ?_⟩
  · refine ⟨List.nodup_nil, ?_, List.nodup_nil, ?_, ?_, ?_, ?_, ?_⟩
    · exact fun w hw => by cases hw
    · exact fun w hw => by cases hw
    · exact fun w hw => by cases hw
    · exact fun w hw => by cases hw
    · exact fun t ht => by cases ht
    · nofun
  · exact ⟨nofun, nofun, nofun⟩
  · exact ⟨fun x hx => (by cases hx), List.nodup_nil⟩
  · rintro (h | h)
    · exact absurd rfl h
    · cases h

/-- **Every run** leaves the client sound. -/
theorem sound_run (previouslyAuthorized : Bool) (inputs : List (Env × Input)) :
    Sound (Machine.run Client.step (Client.initial previouslyAuthorized) inputs) := by
  have hall : Machine.Along Client.step (fun _ _ => True) (Client.initial previouslyAuthorized)
    inputs := Machine.along_of_forall _ (fun _ _ => trivial) _ _
  exact Machine.invariant _ (fun s i _ hs => sound_step s i hs) hall
    (sound_initial previouslyAuthorized)

/-- **Requests wait only where they can be answered**: on a started client with a Control Point whose
notifications are subscribed. -/
theorem busy_only_subscribed (previouslyAuthorized : Bool) (inputs : List (Env × Input)) :
    let s := Machine.run Client.step (Client.initial previouslyAuthorized) inputs
    (s.core.queue ≠ [] ∨ s.core.active.isSome = true ∨ s.tr.notifyRefresh.isSome = true ∨
        s.tr.receivers.isSome = true → s.tr.notifyStarted = true) ∧
      (s.tr.notifyStarted = true → s.tr.started = true ∧ s.tr.cpPath.isSome = true) := by
  intro s
  have h : Sound s := sound_run previouslyAuthorized inputs
  refine ⟨?_, h.fine.subscribed⟩
  rintro (hqueue | hactive | hrefresh | hreceivers)
  · exact h.subscribed (.inl hqueue)
  · exact h.subscribed (.inr hactive)
  · exact h.fine.refreshed hrefresh
  · exact h.fine.received hreceivers

/-! ## Nothing is forgotten -/

/-- The bluetoothd of this generation owes no reply. -/
def Unowed (s : Client) : Prop :=
  (∀ w ∈ s.core.writes, w.generation ≠ s.tr.ownerGeneration)
    ∧ ∀ x ∈ s.tr.toggles, x.generation ≠ s.tr.ownerGeneration

instance (s : Client) : Decidable (Unowed s) :=
  inferInstanceAs (Decidable ((∀ w ∈ s.core.writes, _) ∧ ∀ x ∈ s.tr.toggles, _))

/-- A bluetoothd that appears where none was owes nothing: what was called before it came went to
nobody, and the bus has said so. -/
def OwnersInOrder (s : Client) (input : Env × Input) : Prop :=
  match input.2 with
  | .owner false _ => Unowed s
  | _ => True

instance (s : Client) (input : Env × Input) : Decidable (OwnersInOrder s input) := by
  unfold OwnersInOrder
  split <;> infer_instance

/-- Whatever the client waits for is on its way. -/
structure Lively (s : Client) : Prop where
  attended : s.core.active.isSome = true →
    s.core.cpWriteToken.isSome = true ∨ s.core.requestTimer = true
  toggling : s.tr.Toggling

theorem Lively.idle (hactive : s.core.active = none) (htoggling : s.tr.Toggling) : Lively s := by
  refine ⟨fun h => ?_, htoggling⟩
  rw [hactive] at h
  cases h

theorem Lively.same (h : Lively s) (hactive : c.active.isSome = s.core.active.isSome)
    (htoken : c.cpWriteToken = s.core.cpWriteToken)
    (htimer : c.requestTimer = s.core.requestTimer) : Lively ⟨s.tr, c⟩ := by
  refine ⟨fun hsome => ?_, h.toggling⟩
  rw [hactive] at hsome
  rw [htoken, htimer]
  exact h.attended hsome

/-- A reply to a write that is not current cannot be the one that the active request waits for. -/
theorem Sound.unmarked (h : Sound s) {w : Write} {rest : List Write}
    (hw : s.core.writes.Perm (w :: rest)) (hstale : s.isCurrent w = false)
    (hr : s.core.active = some r) : s.core.cpWriteToken ≠ some w.token := by
  intro htoken
  have hmem : w ∈ s.core.writes := hw.mem_iff.mpr (.head _)
  obtain ⟨x, hx, hxtoken, hg⟩ := h.wired.owed _ htoken
  have hsame : x = w := List.inj_on_of_nodup_map h.wired.tokens hx hmem hxtoken
  rw [hsame] at hg
  have hrid := (h.wired.carried w hmem hg r hr).1
  have hstarted := (h.fine.subscribed (h.subscribed (.inr (by rw [hr]; rfl)))).1
  simp [Client.isCurrent, hstarted, hg, hr, hrid] at hstale

theorem lively_act (hact : Act env Unowed s s') (hs : Sound s) (h : Lively s) : Lively s' := by
  cases hact with
  | transport tr hk => exact ⟨h.attended, hk.toggling h.toggling⟩
  | book c hc =>
    simp only [Core.stock, Prod.mk.injEq] at hc
    exact h.same (by rw [hc.2.2.1]) hc.2.2.2.2.1 hc.2.2.2.1
  | noted e he | offered event serial | withdrawn entries hentries => exact h.same rfl rfl rfl
  | dropped p result hresult =>
    obtain ⟨calls, -, heq⟩ := s.core.dropQueuedActions_eq p result
    unfold Client.onCore
    dsimp only
    rw [heq]
    exact h.same rfl rfl rfl
  | retired uid =>
    rcases (s.core.removeIf (Core.isAbout uid)).retireActive_cases uid with heq | ⟨r, hr, -, heq⟩
    · unfold Client.onCore
      dsimp only
      rw [heq]
      exact h.same rfl rfl rfl
    have hr : s.core.active = some r := hr
    unfold Client.onCore
    dsimp only
    rw [heq]
    exact h.same (by rw [hr]; rfl) rfl rfl
  | cleared tr requestTimer htr => exact .idle (Core.resetRequests_active _) htr.toggling
  | ownerLost tr hfine hnumbered hgeneration =>
    exact .idle (Core.resetRequests_active _) hfine.2
  | ownerFound available hunowed =>
    refine ⟨fun hsome => ?_, fun f hf => ?_⟩
    · refine .inr ((h.attended hsome).resolve_left (fun htoken => ?_))
      obtain ⟨t, ht⟩ := Option.isSome_iff_exists.mp htoken
      obtain ⟨w, hw, -, hg⟩ := hs.wired.owed t ht
      exact hunowed.1 w hw hg
    · obtain ⟨-, x, hx, -, hg⟩ := h.toggling f hf
      exact absurd hg (hunowed.2 x hx)
  | finished hr => exact .idle (Core.finishActive_active _) h.toggling
  | fed r assembler assembler' hactive hr =>
    refine h.same ?_ rfl rfl
    rw [hactive]
    rfl
  | queued r front c hr hon hc =>
    refine h.same ?_ ?_ ?_ <;> rw [Core.enqueue_eq hc]
  | wrote r rest hqueue hfree => exact ⟨fun _ => .inl rfl, h.toggling⟩
  | stale w rest result hw hstale =>
    obtain ⟨log, heq⟩ := (s.core.settle w rest).reportAny_same w.action result
    unfold Client.onCore
    dsimp only
    rw [heq]
    refine ⟨fun hsome => ?_, h.toggling⟩
    obtain ⟨r, hr⟩ := Option.isSome_iff_exists.mp hsome
    have hkept : (s.core.settle w rest).cpWriteToken = s.core.cpWriteToken :=
      if_neg (hs.unmarked hw hstale hr)
    rw [hkept]
    exact h.attended hsome
  | sent w rest a hw hcurrent ha => exact .idle (Core.finishActive_active _) h.toggling
  | awaited w rest hw hcurrent ha => exact ⟨fun _ => .inr rfl, h.toggling⟩
  | drained w rest r hw hcurrent hactive hr => exact .idle (Core.finishActive_active _) h.toggling
  | retried w rest r n hw hcurrent hactive hr =>
    refine .idle ?_ h.toggling
    unfold Client.onCore Client.pushFront
    dsimp only
    split <;> rfl
  | refused w rest r a e hw hcurrent hactive ha =>
    exact .idle (Core.finishActive_active _) h.toggling
  | abandoned w rest r hw hcurrent hactive ha => exact .idle rfl h.toggling
  | lost w rest r tr hw hcurrent hactive ha htr =>
    exact .idle (Core.resetRequests_active _) htr.toggling

theorem lively_acts (hacts : Acts env Unowed s s') (hs : Sound s) (h : Lively s) : Lively s' := by
  induction hacts with
  | refl => exact h
  | tail hbefore hact ih => exact lively_act hact (sound_acts hbefore hs) ih

theorem lively_taken {token call : Nat} (htaken : Taken token call s s')
    (h : Lively s) : Lively s' := by
  cases htaken with
  | queued rid nextRid a entry c hentry ha hoffer hs hc =>
    refine h.same ?_ ?_ ?_ <;> rw [Core.enqueue_eq hc] <;> rfl
  | refused result hresult => exact h.same rfl rfl rfl

theorem lively_step (s : Client) (input : Env × Input) (hok : OwnersInOrder s input) (hs : Sound s)
    (h : Lively s) : Lively (s.step input) := by
  have hfresh : ∀ newOwner, input.2 = .owner false newOwner → Unowed s := by
    intro newOwner howner
    unfold OwnersInOrder at hok
    rw [howner] at hok
    exact hok
  rcases acts_step Unowed s input hs.fine hs.numbered hs.wired.tokens hfresh with
    hacts | ⟨_, _, _, _, s₁, -, htaken, hacts⟩
  · exact lively_acts hacts hs h
  · exact lively_acts hacts (sound_taken htaken hs) (lively_taken htaken h)

end BlueFerry.Ancs
