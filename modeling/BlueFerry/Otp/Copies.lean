import BlueFerry.Otp.Watch

/-! # What the sink copies

Each part of a step keeps `Sound` and adds to `handed` only codes of messages that are pending, so
of none that is marked (`Moved`). Checking, waiting and pruning change nothing that `Sound` looks
at (`Sound.frame`); the two places that hand out a code are `copyNow` and `fallBack`.
-/

namespace BlueFerry.Otp

open BlueFerry.Text BlueFerry.Groups

variable {requests : List Candidate} {evidence : List Nat} {now : Int} {s s' : OtpSink}

/-! ## Changes that copy nothing -/

/-- The parts of a sink that `Sound` looks at have shrunk, or stayed. -/
structure Shrunk (now : Int) (s s' : OtpSink) : Prop where
  requestSequence : s'.requestSequence = s.requestSequence
  lastCopied : s'.lastCopiedSequence = s.lastCopiedSequence
  handed : s'.handed = s.handed
  pending : ∀ p ∈ s'.pendingCandidates, p ∈ s.pendingCandidates
  checks : ∀ id job, s'.checks.Holds id job → s.checks.Holds id job
  confirms : ∀ id c, s'.confirms.Holds id c → s.confirms.Holds id c
  tickets : s'.writer.tickets = s.writer.tickets
  owner : ∀ o, s'.writer.owner = some o → ∃ o', s.writer.owner = some o' ∧ o'.id = o.id
  recent : s'.recentCopies = s.recentCopies ∨
    s'.recentCopies = OtpSink.withinWindow now s.recentCopies
  shut : s'.closed = true → s.closed = true ∨ s'.pendingCandidates = []

theorem withinWindow_eq (now : Int) (times : List Int) :
    OtpSink.withinWindow now times = Window.prune (COPY_WINDOW + 1) now times := by
  unfold OtpSink.withinWindow Window.prune
  congr 1
  funext x
  rw [decide_eq_decide]
  omega

theorem Sound.frame (h : Sound requests evidence now s) (hs : Shrunk now s s')
    (hlookups : ∀ id job, s'.lookups.Holds id job → Known requests job)
    (hready : ∀ e ∈ s'.writer.ready, Known requests e.2.job) :
    Sound requests evidence now s' where
  numbered := by
    rw [hs.requestSequence]
    exact h.numbered
  distinct := h.distinct
  live := h.live
  marked := by
    rw [hs.requestSequence]
    exact h.marked
  pending := fun p hp => h.pending p (hs.pending p hp)
  checks := fun id job hjob => h.checks id job (hs.checks id job hjob)
  lookups := hlookups
  ready := hready
  confirms := fun id c hc => h.confirms id c (hs.confirms id c hc)
  handed := by
    rw [hs.handed]
    exact h.handed
  times := by
    rw [hs.handed]
    exact h.times
  ages := by
    rw [hs.handed]
    exact h.ages
  copied := by
    rw [hs.handed, hs.lastCopied]
    exact h.copied
  ordered := by
    rw [hs.handed]
    exact h.ordered
  tickets := by
    intro id c hc
    rw [hs.tickets]
    exact h.tickets id c (hs.confirms id c hc)
  owned := by
    intro id c o hc ho hid
    obtain ⟨o', ho', hid'⟩ := hs.owner o ho
    rw [hs.lastCopied]
    exact h.owned id c o' (hs.confirms id c hc) ho' (hid'.trans hid)
  limited := by
    rw [hs.handed]
    exact h.limited
  kept := by
    rw [hs.handed]
    rcases hs.recent with heq | heq
    · rw [heq]
      exact h.kept
    rw [heq, withinWindow_eq]
    exact h.kept.prune
  anchored := by
    unfold OtpSink.FirstWithin
    rw [hs.handed]
    exact h.anchored

/-- What is true of a sink stays true while time goes on. -/
theorem Sound.later {now' : Int} (h : Sound requests evidence now s) (hnow : now ≤ now') :
    Sound requests evidence now' s :=
  { h with
    times := fun c hc => (h.times c hc).trans hnow
    kept := h.kept.later hnow }

theorem shrunk_context (now : Int) (s : OtpSink) (c : OtpContext) :
    Shrunk now s { s with context := c } :=
  ⟨rfl, rfl, rfl, fun _ h => h, fun _ _ h => h, fun _ _ h => h, rfl, fun o h => ⟨o, h, rfl⟩,
    Or.inl rfl, .inl⟩

theorem Sound.context (h : Sound requests evidence now s) (c : OtpContext) :
    Sound requests evidence now { s with context := c } :=
  h.frame (shrunk_context now s c) h.lookups h.ready

theorem asked_eq (s : OtpSink) (now : Int) (job : Job) :
    ∃ c, s.asked now job = { s with context := c } := by
  unfold OtpSink.asked
  split
  · exact ⟨_, rfl⟩
  · exact ⟨s.context, rfl⟩

variable {job : Job} {p : Prepared} {c : Handed}

/-- What `_eligible` lets through is pending, and newer than the last copy. -/
theorem open_of_eligible {cfg : Config} (h : s.eligible cfg now job = true) : s.Open job := by
  unfold OtpSink.eligible OtpSink.mayAsk at h
  simp only [Bool.and_eq_true, decide_eq_true_eq] at h
  exact ⟨h.1.1.1.1.2, h.1.1.1.2⟩

/-- A pending message is not marked. -/
theorem Sound.unmarked (h : Sound requests evidence now s) {sequence : Nat}
    (hpending : s.isPending sequence = true) : sequence ∉ evidence := by
  obtain ⟨p, hp, hseq⟩ := List.any_eq_true.mp hpending
  rw [← eq_of_beq hseq]
  exact (h.pending p hp).2

/-! ## The writer -/

/-- What a call of the writer leaves of its state: either nothing was started, or the ticket that it
gives is new and owns the clipboard. -/
theorem copy_spec {α : Type} (w : ClipboardWriter α) (excluded : Bool) (desktop : Desktop) :
    (∀ e ∈ (w.copy excluded desktop).1.ready, e ∈ w.ready) ∧
      ((w.copy excluded desktop).2 = none ∧
          (w.copy excluded desktop).1.tickets = w.tickets ∧
          (∀ o, (w.copy excluded desktop).1.owner = some o → w.owner = some o) ∨
        ∃ ticket, (w.copy excluded desktop).2 = some ticket ∧ ticket.id = w.tickets ∧
          (w.copy excluded desktop).1.owner = some ticket ∧
          (w.copy excluded desktop).1.tickets = w.tickets + 1) := by
  unfold ClipboardWriter.copy
  by_cases hclosed : w.closed = true
  · rw [if_pos hclosed]
    exact ⟨fun _ h => h, .inl ⟨rfl, rfl, fun _ h => h⟩⟩
  rw [if_neg hclosed]
  cases desktop.session.find excluded with
  | none => exact ⟨fun _ h => h, .inl ⟨rfl, rfl, fun _ h => h⟩⟩
  | some target =>
    simp only
    split
    · unfold ClipboardWriter.probe
      split
      · exact ⟨fun _ h => h, .inl ⟨rfl, rfl, fun _ h => h⟩⟩
      split
      · exact ⟨fun _ h => h, .inl ⟨rfl, rfl, fun _ h => h⟩⟩
      · exact ⟨fun e h => (List.mem_filter.mp h).1, .inl ⟨rfl, rfl, fun _ h => h⟩⟩
    · cases desktop.started with
      | true => exact ⟨fun _ h => h, .inr ⟨_, rfl, rfl, rfl, rfl⟩⟩
      | false => exact ⟨fun _ h => h, .inl ⟨rfl, rfl, fun o h => by cases h⟩⟩

/-! ## A code is handed out -/

/-- The step from `s` to `s'` hands out `c`, and waits for its confirmation if a helper started. -/
structure Hands (now : Int) (c : Handed) (s s' : OtpSink) : Prop where
  requestSequence : s'.requestSequence = s.requestSequence
  pending : s'.pendingCandidates = s.pendingCandidates
  closed : s'.closed = s.closed
  checks : s'.checks = s.checks
  lookups : s'.lookups = s.lookups
  ready : ∀ e ∈ s'.writer.ready, e ∈ s.writer.ready
  handed : s'.handed = s.handed ++ [c]
  recent : s'.recentCopies = if c.fallback = true then s.recentCopies
    else OtpSink.withinWindow now s.recentCopies ++ [now]
  started :
    (c.ticket = none ∧ s'.confirms = s.confirms ∧ s'.lastCopiedSequence = s.lastCopiedSequence ∧
      s'.writer.tickets = s.writer.tickets ∧
      ∀ o, s'.writer.owner = some o → s.writer.owner = some o) ∨
    ∃ ticket : ClipboardTicket, c.ticket = some ticket.id ∧ ticket.id = s.writer.tickets ∧
      s'.confirms = s.confirms.put ⟨c.prepared, ticket.id, ticket.tool, c.fallback⟩ ∧
      s'.lastCopiedSequence = c.sequence ∧ s'.writer.tickets = s.writer.tickets + 1 ∧
      s'.writer.owner = some ticket

theorem hands_copyNow (s : OtpSink) (now : Int) (p : Prepared) (desktop : Desktop) :
    ∃ ticket, Hands now ⟨p, now, false, ticket⟩ s (s.copyNow now p desktop) := by
  obtain ⟨hready, hcopy⟩ := copy_spec s.writer false desktop
  unfold OtpSink.copyNow
  rcases hcopy with ⟨hnone, htickets, howner⟩ | ⟨ticket, hsome, hid, howner, htickets⟩
  · refine ⟨none, ?_⟩
    simp only [hnone]
    exact ⟨rfl, rfl, rfl, rfl, rfl, hready, rfl, rfl, .inl ⟨rfl, rfl, rfl, htickets, howner⟩⟩
  refine ⟨some ticket.id, ?_⟩
  simp only [hsome]
  exact ⟨rfl, rfl, rfl, rfl, rfl, hready, rfl, rfl,
    Or.inr ⟨ticket, rfl, hid, rfl, rfl, htickets, howner⟩⟩

theorem hands_fallBack {s : OtpSink} (now : Int) (desktop : Desktop)
    (hlast : p.job.sequence = s.lastCopiedSequence) :
    ∃ ticket, Hands now ⟨p, now, true, ticket⟩ s (s.fallBack now p desktop) := by
  obtain ⟨hready, hcopy⟩ := copy_spec s.writer true desktop
  unfold OtpSink.fallBack
  rcases hcopy with ⟨hnone, htickets, howner⟩ | ⟨ticket, hsome, hid, howner, htickets⟩
  · refine ⟨none, ?_⟩
    simp only [hnone]
    exact ⟨rfl, rfl, rfl, rfl, rfl, hready, rfl, rfl, .inl ⟨rfl, rfl, rfl, htickets, howner⟩⟩
  refine ⟨some ticket.id, ?_⟩
  simp only [hsome]
  exact ⟨rfl, rfl, rfl, rfl, rfl, hready, rfl, rfl,
    Or.inr ⟨ticket, rfl, hid, rfl, hlast.symm, htickets, howner⟩⟩

theorem firstTimes_append (handed : List Handed) (c : Handed) :
    firstTimes (handed ++ [c]) =
      firstTimes handed ++ (if c.fallback = true then [] else [c.time]) := by
  unfold firstTimes
  rw [List.filter_append, List.map_append]
  cases hc : c.fallback with
  | true => simp [hc]
  | false => simp [hc]

theorem OtpSink.FirstWithin.mono {now : Int} {s s' : OtpSink} {sequence : Nat} {e : Handed}
    (hsub : ∀ c ∈ s.handed, c ∈ s'.handed) (h : s.FirstWithin now sequence e) :
    s'.FirstWithin now sequence e :=
  ⟨hsub e h.1, h.2⟩

/-- **Handing out a code keeps the sink sound**, when it is as recent as it should be, no newer one
was copied, and the rate limit has room and has forgotten nothing. -/
theorem Sound.hand (h : Sound requests evidence now s) (hs : Hands now c s s')
    (hknown : Known requests c.prepared.job) (htime : c.time = now)
    (hage : OtpSink.isRecent now c.prepared.timestamp = true)
    (hseq : s.lastCopiedSequence ≤ c.sequence) (hroom : c.fallback = false →
      (OtpSink.withinWindow now s.recentCopies).length < MAX_COPIES_PER_WINDOW)
    (hcounted : s.Counted now) (hfirst : c.fallback = true → ∃ e, s.FirstWithin now c.sequence e) :
    Sound requests evidence now s' := by
  have hmem : ∀ d ∈ s'.handed, d ∈ s.handed ∨ d = c := by
    intro d hd
    rw [hs.handed, List.mem_append, List.mem_singleton] at hd
    exact hd
  have hsub : ∀ d ∈ s.handed, d ∈ s'.handed := by
    intro d hd
    rw [hs.handed]
    exact List.mem_append_left _ hd
  have hlast : s.lastCopiedSequence ≤ s'.lastCopiedSequence ∧
      (c.ticket ≠ none → s'.lastCopiedSequence = c.sequence) := by
    rcases hs.started with ⟨hnone, -, heq, -⟩ | ⟨ticket, -, -, -, heq, -⟩
    · exact ⟨heq.ge, fun hne => absurd hnone hne⟩
    · exact ⟨heq ▸ hseq, fun _ => heq⟩
  exact
    { numbered := by
        rw [hs.requestSequence]
        exact h.numbered
      distinct := h.distinct
      live := h.live
      marked := by
        rw [hs.requestSequence]
        exact h.marked
      pending := by
        rw [hs.pending]
        exact h.pending
      checks := by
        rw [hs.checks]
        exact h.checks
      lookups := by
        rw [hs.lookups]
        exact h.lookups
      ready := fun e he => h.ready e (hs.ready e he)
      confirms := by
        intro id d hd
        rcases hs.started with ⟨-, heq, -⟩ | ⟨ticket, -, -, heq, -⟩
        · rw [heq] at hd
          exact h.confirms id d hd
        rw [heq] at hd
        rcases Slots.holds_put.mp hd with ⟨-, rfl⟩ | hd
        · exact hknown
        · exact h.confirms id d hd
      handed := by
        intro d hd
        rcases hmem d hd with hd | rfl
        · exact h.handed d hd
        · exact hknown
      times := by
        intro d hd
        rcases hmem d hd with hd | rfl
        · exact h.times d hd
        · exact htime.le
      ages := by
        intro d hd
        rcases hmem d hd with hd | rfl
        · exact h.ages d hd
        rw [htime]
        exact hage
      copied := by
        intro d hd hticket
        rcases hmem d hd with hd | rfl
        · exact (h.copied d hd hticket).trans hlast.1
        · exact (hlast.2 hticket).ge
      ordered := by
        rw [hs.handed, List.pairwise_append]
        refine ⟨h.ordered, List.pairwise_singleton _ _, ?_⟩
        intro a ha b hb hta _
        rw [List.mem_singleton.mp hb]
        exact (h.copied a ha hta).trans hseq
      tickets := by
        intro id d hd
        rcases hs.started with ⟨-, heq, -, htickets, -⟩ | ⟨ticket, -, hid, heq, -, htickets, -⟩
        · rw [heq] at hd
          rw [htickets]
          exact h.tickets id d hd
        rw [heq] at hd
        rw [htickets]
        rcases Slots.holds_put.mp hd with ⟨-, rfl⟩ | hd
        · show ticket.id < _
          omega
        · exact Nat.lt_succ_of_lt (h.tickets id d hd)
      owned := by
        intro id d o hd ho hoid
        rcases hs.started with ⟨-, heq, hsame, -, howner⟩ | ⟨ticket, -, hid, heq, hnew, -, howner⟩
        · rw [heq] at hd
          rw [hsame]
          exact h.owned id d o hd (howner o ho) hoid
        rw [heq] at hd
        rw [hnew]
        rcases Slots.holds_put.mp hd with ⟨-, rfl⟩ | hd
        · rfl
        -- the ticket of an older confirmation is not the new one
        have hlt := h.tickets id d hd
        rw [howner] at ho
        have heq := Option.some.inj ho
        rw [← hoid, ← heq, hid] at hlt
        omega
      limited := by
        rw [hs.handed, firstTimes_append]
        cases hc : c.fallback with
        | true =>
          rw [if_pos rfl, List.append_nil]
          exact h.limited
        | false =>
          rw [if_neg (by simp), htime]
          have hprune := h.kept.prune
          rw [← withinWindow_eq] at hprune
          exact h.limited.add hprune (hroom hc)
      kept := by
        rw [hs.handed, firstTimes_append, hs.recent]
        cases hc : c.fallback with
        | true =>
          rw [if_pos rfl, if_pos rfl, List.append_nil]
          exact h.kept
        | false =>
          rw [if_neg (by simp), if_neg (by simp), htime, withinWindow_eq]
          exact h.kept.prune.add now
      anchored := by
        intro b hb d hd hfallback hwithin
        have hdtime : d.time ≤ now := by
          rcases hmem d hd with hd | rfl
          · exact h.times d hd
          · exact htime.le
        rcases hmem b hb with hb | rfl
        · rcases hmem d hd with hd | rfl
          · obtain ⟨e, he, hle⟩ := h.anchored b hb d hd hfallback hwithin
            exact ⟨e, he.mono hsub, hle⟩
          rw [htime] at hwithin ⊢
          obtain ⟨e, he, hle⟩ := hcounted b hb hfallback hwithin
          exact ⟨e, he.mono hsub, hle⟩
        -- the first copy of a code that falls back lies before now
        obtain ⟨e, hmem, hkind, hsequence, hnew⟩ := hfirst hfallback
        refine ⟨e, ⟨hsub e hmem, hkind, hsequence, ?_⟩, ?_⟩
        · omega
        · rw [htime]
          exact h.times e hmem }

/-! ## What a step leaves of the sink -/

/-- A step has added codes of messages that are not marked, and has no new messages. -/
structure Moved (evidence : List Nat) (s s' : OtpSink) : Prop where
  requestSequence : s'.requestSequence = s.requestSequence
  pending : ∀ p ∈ s'.pendingCandidates, p ∈ s.pendingCandidates
  last : s.lastCopiedSequence ≤ s'.lastCopiedSequence
  handed : ∃ codes, s'.handed = s.handed ++ codes ∧ ∀ c ∈ codes, c.sequence ∉ evidence
  shut : s'.closed = true → s.closed = true ∨ s'.pendingCandidates = []

theorem Moved.refl (evidence : List Nat) (s : OtpSink) : Moved evidence s s :=
  ⟨rfl, fun _ h => h, le_rfl, ⟨[], (List.append_nil _).symm, by simp⟩, .inl⟩

theorem Moved.trans {t : OtpSink} (h : Moved evidence s s') (h' : Moved evidence s' t) :
    Moved evidence s t := by
  obtain ⟨codes, hcodes, hnot⟩ := h.handed
  obtain ⟨codes', hcodes', hnot'⟩ := h'.handed
  refine ⟨h'.requestSequence.trans h.requestSequence, fun p hp => h.pending p (h'.pending p hp),
    h.last.trans h'.last, ⟨codes ++ codes', ?_, ?_⟩, fun hclosed => ?_⟩
  · rw [hcodes', hcodes, List.append_assoc]
  · intro c hc
    rcases List.mem_append.mp hc with hc | hc
    · exact hnot c hc
    · exact hnot' c hc
  rcases h'.shut hclosed with hbefore | hempty
  · refine (h.shut hbefore).imp_right (fun hnil => ?_)
    refine List.eq_nil_iff_forall_not_mem.mpr (fun p hp => ?_)
    have hmem := h'.pending p hp
    rw [hnil] at hmem
    exact absurd hmem List.not_mem_nil
  · exact .inr hempty

theorem Shrunk.moved (h : Shrunk now s s') : Moved evidence s s' :=
  { h with last := h.lastCopied.ge, handed := ⟨[], by rw [h.handed, List.append_nil], by simp⟩ }

/-- What may still be copied later may be copied now. -/
theorem Moved.open (h : Moved evidence s s') (hopen : s'.Open job) : s.Open job := by
  obtain ⟨hpending, hlast⟩ := hopen
  refine ⟨?_, h.last.trans_lt hlast⟩
  obtain ⟨p, hp, hseq⟩ := List.any_eq_true.mp hpending
  exact List.any_eq_true.mpr ⟨p, h.pending p hp, hseq⟩

theorem Hands.moved (h : Hands now c s s') (hseq : s.lastCopiedSequence ≤ c.sequence)
    (hnot : c.sequence ∉ evidence) : Moved evidence s s' := by
  refine ⟨h.requestSequence, fun p hp => by rwa [h.pending] at hp, ?_,
    ⟨[c], h.handed, by simpa⟩, fun hclosed => .inl (h.closed ▸ hclosed)⟩
  rcases h.started with ⟨-, -, heq, -⟩ | ⟨ticket, -, -, -, heq, -⟩
  · exact heq.ge
  · exact heq ▸ hseq

/-- A first copy leaves nothing uncounted. -/
theorem Hands.counted (h : Hands now c s s') (hfirst : c.fallback = false)
    (hcounted : s.Counted now) : s'.Counted now := by
  intro b hb hfallback hwithin
  rw [h.handed, List.mem_append, List.mem_singleton] at hb
  rcases hb with hb | rfl
  · obtain ⟨e, he, hle⟩ := hcounted b hb hfallback hwithin
    refine ⟨e, he.mono (fun d hd => ?_), hle⟩
    rw [h.handed]
    exact List.mem_append_left _ hd
  · rw [hfirst] at hfallback
    cases hfallback

/-- What a part of a step does that may make first copies. -/
def Advances (requests : List Candidate) (evidence : List Nat) (now : Int) (s s' : OtpSink) : Prop :=
  Sound requests evidence now s' ∧ Moved evidence s s' ∧ (s.Counted now → s'.Counted now)

theorem Sound.stays (h : Sound requests evidence now s) : Advances requests evidence now s s :=
  ⟨h, Moved.refl evidence s, id⟩

theorem Sound.advances_context (h : Sound requests evidence now s) (c : OtpContext) :
    Advances requests evidence now s { s with context := c } :=
  ⟨h.context c, (shrunk_context now s c).moved, id⟩

theorem Advances.trans {t : OtpSink} (h : Advances requests evidence now s s')
    (h' : Advances requests evidence now s' t) : Advances requests evidence now s t :=
  ⟨h'.1, h.2.1.trans h'.2.1, fun hcounted => h'.2.2 (h.2.2 hcounted)⟩

/-! ## First copies -/

variable {cfg : Config}

theorem Sound.copyPrepared (h : Sound requests evidence now s) (desktop : Desktop)
    (hknown : Known requests p.job) (hcounted : s.Open p.job → s.Counted now) :
    Advances requests evidence now s (s.copyPrepared cfg now p desktop) := by
  unfold OtpSink.copyPrepared
  extract_lets fit s₁
  obtain ⟨c, hs₁ : s₁ = { s with context := c }⟩ := asked_eq s now p.job
  rw [hs₁]
  have hasked := h.advances_context c
  split
  · exact hasked
  rename_i hfit
  simp only [Bool.or_eq_true, Bool.not_eq_true', not_or, Bool.not_eq_false] at hfit
  have hopen : s.Open p.job := open_of_eligible hfit.1
  split
  · have hshrunk : Shrunk now { s with context := c }
        { s with context := c, recentCopies := OtpSink.withinWindow now s.recentCopies } :=
      ⟨rfl, rfl, rfl, fun _ h => h, fun _ _ h => h, fun _ _ h => h, rfl,
        fun o h => ⟨o, h, rfl⟩, .inr rfl, .inl⟩
    exact hasked.trans ⟨hasked.1.frame hshrunk hasked.1.lookups hasked.1.ready, hshrunk.moved, id⟩
  rename_i hroom
  obtain ⟨ticket, hhands⟩ := hands_copyNow { s with context := c } now p desktop
  have hlt : s.lastCopiedSequence < p.job.sequence := hopen.2
  refine hasked.trans ⟨hasked.1.hand hhands hknown rfl hfit.2 hlt.le (fun _ => ?_)
    (hcounted hopen) (fun hfalse => by cases hfalse), hhands.moved hlt.le ?_,
    hhands.counted rfl⟩
  · exact not_le.mp hroom
  · exact h.unmarked hopen.1

/-- Waiting for a probe hands out nothing. -/
theorem prepare_spec {α : Type} (w : ClipboardWriter α) (job : α) (desktop : Desktop) :
    (w.prepare job desktop).1.tickets = w.tickets ∧ (w.prepare job desktop).1.owner = w.owner ∧
      ∀ e ∈ (w.prepare job desktop).1.ready, e ∈ w.ready ∨ e.2 = job := by
  unfold ClipboardWriter.prepare
  by_cases hclosed : w.closed = true
  · rw [if_pos hclosed]
    exact ⟨rfl, rfl, fun _ h => .inl h⟩
  rw [if_neg hclosed]
  cases desktop.session.find false with
  | none => exact ⟨rfl, rfl, fun _ h => .inl h⟩
  | some target =>
    simp only
    split
    · exact ⟨rfl, rfl, fun _ h => .inl h⟩
    have hnew : ∀ e ∈ w.ready ++ [(target.executable, job)], e ∈ w.ready ∨ e.2 = job := by
      intro e he
      rcases List.mem_append.mp he with he | he
      · exact .inl he
      rw [List.mem_singleton.mp he]
      exact .inr rfl
    unfold ClipboardWriter.probe
    split
    · exact ⟨rfl, rfl, hnew⟩
    split
    · exact ⟨rfl, rfl, hnew⟩
    · exact ⟨rfl, rfl, fun e he => hnew e (List.mem_filter.mp he).1⟩

theorem Sound.copyRecent (h : Sound requests evidence now s) (preparing copying : Desktop)
    (hknown : Known requests p.job) (hcounted : s.Open p.job → s.Counted now) :
    Advances requests evidence now s (s.copyRecent cfg now p preparing copying) := by
  unfold OtpSink.copyRecent
  extract_lets fit s₁
  obtain ⟨c, hs₁ : s₁ = { s with context := c }⟩ := asked_eq s now p.job
  rw [hs₁]
  have hasked := h.advances_context c
  split
  · exact hasked
  obtain ⟨htickets, howner, hready⟩ := prepare_spec s.writer p preparing
  have hshrunk : Shrunk now { s with context := c }
      { s with context := c, writer := (s.writer.prepare p preparing).1 } :=
    ⟨rfl, rfl, rfl, fun _ h => h, fun _ _ h => h, fun _ _ h => h, htickets,
      fun o ho => ⟨o, howner ▸ ho, rfl⟩, .inl rfl, .inl⟩
  have hwaiting : Advances requests evidence now { s with context := c }
      { s with context := c, writer := (s.writer.prepare p preparing).1 } := by
    refine ⟨hasked.1.frame hshrunk hasked.1.lookups ?_, hshrunk.moved, id⟩
    intro e he
    rcases hready e he with he | rfl
    · exact h.ready e he
    · exact hknown
  show Advances requests evidence now s (if (s.writer.prepare p preparing).2 = true then _ else _)
  split
  · exact (hasked.trans hwaiting).trans (hwaiting.1.copyPrepared copying hknown hcounted)
  · exact hasked.trans hwaiting

theorem Sound.metadataReady (h : Sound requests evidence now s)
    (metadata : Option OtpMetadata) (preparing copying : Desktop) (hknown : Known requests job)
    (hcounted : s.Open job → s.Counted now) : Advances requests evidence now s
      (s.metadataReady cfg now job metadata preparing copying) := by
  unfold OtpSink.metadataReady
  cases metadata with
  | none => exact h.stays
  | some metadata =>
    simp only
    split
    · exact h.stays
    obtain ⟨c, hc⟩ := asked_eq s now job
    rw [hc]
    have hasked := h.advances_context c
    split
    · exact hasked.trans (hasked.1.copyRecent preparing copying hknown hcounted)
    · exact hasked

theorem Sound.checkMetadata (h : Sound requests evidence now s) (lookup : Lookup)
    (preparing copying : Desktop) (hknown : Known requests job)
    (hcounted : s.Open job → s.Counted now) : Advances requests evidence now s
      (s.checkMetadata cfg now job lookup preparing copying) := by
  unfold OtpSink.checkMetadata
  extract_lets fit s₁
  obtain ⟨c, hs₁ : s₁ = { s with context := c }⟩ := asked_eq s now job
  rw [hs₁]
  have hasked := h.advances_context c
  split
  · exact hasked
  split
  · cases lookup with
    | raised => exact hasked
    | answered metadata =>
      exact hasked.trans (hasked.1.metadataReady metadata preparing copying hknown hcounted)
    | waiting =>
      have hshrunk : Shrunk now { s with context := c }
          { s with context := c, lookups := s.lookups.put job } :=
        ⟨rfl, rfl, rfl, fun _ h => h, fun _ _ h => h, fun _ _ h => h, rfl,
          fun o ho => ⟨o, ho, rfl⟩, .inl rfl, .inl⟩
      refine hasked.trans ⟨hasked.1.frame hshrunk ?_ h.ready, hshrunk.moved, id⟩
      intro id j hj
      rcases Slots.holds_put.mp hj with ⟨-, rfl⟩ | hj
      · exact hknown
      · exact h.lookups id j hj
  · exact hasked.trans (hasked.1.copyRecent preparing copying hknown hcounted)

/-- The loop over what was waiting for a probe. -/
theorem Sound.copyAll (copying : Nat → Desktop) (waiting : List Prepared) :
    ∀ {s : OtpSink} (n : Nat), Sound requests evidence now s →
      (∀ p ∈ waiting, Known requests p.job) → (∀ p ∈ waiting, s.Open p.job → s.Counted now) →
      Advances requests evidence now s (OtpSink.copyAll cfg now copying s n waiting) := by
  induction waiting with
  | nil => exact fun n h _ _ => h.stays
  | cons p waiting ih =>
    intro s n h hknown hcounted
    rw [OtpSink.copyAll]
    have hfirst : Advances requests evidence now s (s.copyPrepared cfg now p (copying n)) :=
      h.copyPrepared (copying n) (hknown p (.head _)) (hcounted p (.head _))
    refine hfirst.trans (ih (n + 1) hfirst.1 (fun q hq => hknown q (.tail _ hq))
      (fun q hq hopen => hfirst.2.2 ?_))
    exact hcounted q (.tail _ hq) (hfirst.2.1.open hopen)

/-! ## Fallbacks -/

/-- The confirmation of a helper that failed is that of the last copy. -/
theorem Sound.last_of_failed (h : Sound requests evidence now s) {id : Nat} {c : Confirm}
    (hc : s.confirms.Holds id c) (hwants : s.wantsFallback c = true) :
    c.prepared.job.sequence = s.lastCopiedSequence := by
  unfold OtpSink.wantsFallback at hwants
  simp only [Bool.and_eq_true, decide_eq_true_eq] at hwants
  have hstate := hwants.1.1
  unfold ClipboardWriter.state at hstate
  cases ho : s.writer.owner with
  | none => simp [ho] at hstate
  | some o =>
    by_cases hid : o.id = c.ticket
    · exact h.owned id c o hc ho hid
    · simp [ho, hid] at hstate

theorem Sound.confirm (h : Sound requests evidence now s) {c : Confirm} (desktop : Desktop)
    (hknown : Known requests c.prepared.job)
    (hlast : s.wantsFallback c = true → c.prepared.job.sequence = s.lastCopiedSequence)
    (hback : s.fallsBack cfg now c = true → s.isPending c.prepared.job.sequence = true ∧
      s.Counted now ∧ ∃ e, s.FirstWithin now c.prepared.job.sequence e) :
    Sound requests evidence now (s.confirm cfg now c desktop) ∧
      Moved evidence s (s.confirm cfg now c desktop) := by
  unfold OtpSink.confirm
  split
  · rename_i hwants
    split
    · rename_i hmay
      have hasked := h.advances_context (s.context.asked now c.prepared.job.event)
      simp only
      split
      · exact ⟨hasked.1, hasked.2.1⟩
      rename_i hfit
      simp only [Bool.or_eq_true, Bool.not_eq_true', not_or, Bool.not_eq_false,
        Bool.not_eq_true] at hfit
      have hfalls : s.fallsBack cfg now c = true := by
        unfold OtpSink.fallsBack
        rw [hwants, hmay, hfit.1, hfit.2]
        rfl
      obtain ⟨hpending, hcounted, hfirst⟩ := hback hfalls
      have hseq := hlast hwants
      obtain ⟨ticket, hhands⟩ := hands_fallBack
        (s := { s with context := s.context.asked now c.prepared.job.event }) now desktop hseq
      refine ⟨hasked.1.hand hhands hknown rfl hfit.2 hseq.ge (fun hfalse => by cases hfalse)
        hcounted (fun _ => hfirst), hasked.2.1.trans (hhands.moved hseq.ge ?_)⟩
      exact h.unmarked hpending
    · exact ⟨h, Moved.refl evidence s⟩
  · exact ⟨h, Moved.refl evidence s⟩

end BlueFerry.Otp
