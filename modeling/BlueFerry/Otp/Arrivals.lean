import BlueFerry.Otp.Copies

/-! # What the sink is told

A message, a notification or a read report changes the context, and takes the candidates that it
shows to be read or of a group off the pending ones, in the same callback (`Arrives`). So a message
that is still pending is one that nothing has marked (`Sound.arrives`).
-/

namespace BlueFerry.Otp

open BlueFerry.Text BlueFerry.Groups

variable {cfg : Config} {requests : List Candidate} {evidence : List Nat} {now : Int}
  {s s' : OtpSink}

/-! ## Pruned contexts -/

/-- The context is `c`, or what pruning leaves of it. -/
def Pruned (now : Int) (c c' : OtpContext) : Prop := c' = c ∨ c' = c.prune now

theorem Pruned.refl (now : Int) (c : OtpContext) : Pruned now c c := Or.inl rfl

theorem Pruned.trans {c c' c'' : OtpContext} (h : Pruned now c c') (h' : Pruned now c' c'') :
    Pruned now c c'' := by
  rcases h' with rfl | rfl
  · exact h
  right
  rcases h with rfl | rfl
  · rfl
  · exact OtpContext.prune_prune c now

theorem pruned_asked (now : Int) (c : OtpContext) (e : SmsEvent) :
    Pruned now c (c.asked now e) := by
  unfold OtpContext.asked
  split
  · exact Pruned.refl now c
  · exact .inr rfl

/-- Pruning changes no answer about groups. -/
theorem Pruned.isGroup {c c' : OtpContext} (h : Pruned now c c') (lib : Library) (e : SmsEvent) :
    c'.isGroup lib now e = c.isGroup lib now e := by
  rcases h with rfl | rfl
  · rfl
  · exact OtpContext.isGroup_prune lib c now e

/-! ## Candidates that are dropped -/

/-- The context does not show the candidate to be read or of a group. -/
structure Quiet (cfg : Config) (now : Int) (c : OtpContext) (p : Candidate) : Prop where
  deadline : now ≤ p.deadline
  unread : ∃ c', Pruned now c c' ∧ c'.isRead p.event = false
  direct : c.isGroup cfg.lib now p.event = false

theorem Quiet.of_pruned {c c' : OtpContext} {p : Candidate} (h : Quiet cfg now c' p)
    (hc : Pruned now c c') : Quiet cfg now c p := by
  obtain ⟨d, hd, hunread⟩ := h.unread
  exact ⟨h.deadline, ⟨d, hc.trans hd, hunread⟩, (hc.isGroup cfg.lib p.event).symm.trans h.direct⟩

/-- The loop of `_invalidate_candidates` leaves the quiet candidates. -/
theorem invalidated_spec (cfg : Config) (now : Int) (pending : List Candidate) :
    ∀ c : OtpContext, Pruned now c (OtpSink.invalidated cfg now c pending).1 ∧
      ∀ p ∈ (OtpSink.invalidated cfg now c pending).2, p ∈ pending ∧ Quiet cfg now c p := by
  induction pending with
  | nil => exact fun c => ⟨Pruned.refl now c, fun p hp => absurd hp (by simp [OtpSink.invalidated])⟩
  | cons p pending ih =>
    intro c
    rw [OtpSink.invalidated]
    by_cases hgone : p.deadline < now ∨ c.isRead p.event = true
    · rw [if_pos hgone]
      obtain ⟨hc, hkept⟩ := ih c
      exact ⟨hc, fun q hq => ⟨.tail _ (hkept q hq).1, (hkept q hq).2⟩⟩
    rw [if_neg hgone]
    rw [not_or, not_lt, Bool.not_eq_true] at hgone
    have hasked := pruned_asked now c p.event
    obtain ⟨hc, hkept⟩ := ih (c.asked now p.event)
    have hrest : ∀ q ∈ (OtpSink.invalidated cfg now (c.asked now p.event) pending).2,
        q ∈ p :: pending ∧ Quiet cfg now c q :=
      fun q hq => ⟨.tail _ (hkept q hq).1, (hkept q hq).2.of_pruned hasked⟩
    cases hgroup : c.isGroup cfg.lib now p.event with
    | true => exact ⟨hasked.trans hc, hrest⟩
    | false =>
      refine ⟨hasked.trans hc, fun q hq => ?_⟩
      rcases List.mem_cons.mp hq with rfl | hq
      · exact ⟨.head _, hgone.1, ⟨c, Pruned.refl now c, hgone.2⟩, hgroup⟩
      · exact hrest q hq

/-! ## Arrivals -/

/-- The step from `s` to `s'` has told the sink something, and `c` is the context with it: the
pending candidates are quiet, and there may be a new one. -/
structure Arrives (cfg : Config) (now : Int) (c : OtpContext) (s s' : OtpSink) : Prop where
  context : Pruned now c s'.context
  closed : s'.closed = s.closed
  lastCopied : s'.lastCopiedSequence = s.lastCopiedSequence
  recent : s'.recentCopies = s.recentCopies
  lookups : s'.lookups = s.lookups
  confirms : s'.confirms = s.confirms
  writer : s'.writer = s.writer
  handed : s'.handed = s.handed
  pending : ∃ kept, (∀ p ∈ kept, p ∈ s.pendingCandidates ∧ Quiet cfg now c p) ∧
    (s'.pendingCandidates = kept ∧ s'.requestSequence = s.requestSequence ∧ s'.checks = s.checks ∨
      ∃ e code deadline, s'.pendingCandidates = kept ++ [⟨s.requestSequence + 1, e, deadline⟩] ∧
        s'.requestSequence = s.requestSequence + 1 ∧
        s'.checks = s.checks.put ⟨s.requestSequence + 1, e, code⟩ ∧ e.Live ∧
        c.isGroup cfg.lib now e = false)

/-- There is no new candidate. -/
def Told (cfg : Config) (now : Int) (c : OtpContext) (s s' : OtpSink) : Prop :=
  Arrives cfg now c s s' ∧ s'.requestSequence = s.requestSequence

theorem told_invalidate (cfg : Config) (now : Int) (s : OtpSink) (c : OtpContext) :
    Told cfg now c s ({ s with context := c }.invalidateCandidates cfg now) := by
  obtain ⟨hc, hkept⟩ := invalidated_spec cfg now s.pendingCandidates c
  exact ⟨⟨hc, rfl, rfl, rfl, rfl, rfl, rfl, rfl, _, hkept, .inl ⟨rfl, rfl, rfl⟩⟩, rfl⟩

/-- A message that `_is_new_incoming` lets through is live. -/
theorem live_of_new {e : SmsEvent} (h : s.isNewIncoming e = true) : e.Live := by
  unfold OtpSink.isNewIncoming at h
  simp only [Bool.and_eq_true, decide_eq_true_eq, Bool.not_eq_true'] at h
  exact ⟨h.1.1.1.1.1.1, h.1.1.1.1.1.2, h.1.1.1.1.2, h.1.1.1.2⟩

theorem arrives_incoming {c : OtpContext} {e : SmsEvent} (h : Told cfg now c s s')
    (hlive : e.Live) : Arrives cfg now c s (s'.incoming cfg now e) := by
  obtain ⟨⟨hcontext, hclosed, hlast, hrecent, hlookups, hconfirms, hwriter, hhanded, kept, hkept,
    hpending⟩, hseq⟩ := h
  have hsame : s'.pendingCandidates = kept ∧ s'.checks = s.checks := by
    rcases hpending with ⟨hpending, -, hchecks⟩ | ⟨e, code, deadline, -, hnext, -⟩
    · exact ⟨hpending, hchecks⟩
    · omega
  -- nothing is asked for, and the context is `c'`
  have hstays : ∀ c' attempts, Pruned now c c' →
      Arrives cfg now c s { s' with context := c', recentAttempts := attempts } :=
    fun c' attempts hc' => ⟨hc', hclosed, hlast, hrecent, hlookups, hconfirms, hwriter, hhanded, kept,
      hkept,
      Or.inl ⟨hsame.1, hseq, hsame.2⟩⟩
  unfold OtpSink.incoming
  cases cfg.extractOtp e.row.body with
  | none => exact hstays s'.context s'.recentAttempts hcontext
  | some code =>
    simp only
    split
    · exact hstays s'.context s'.recentAttempts hcontext
    have hasked := hcontext.trans (pruned_asked now s'.context e)
    split
    · exact hstays _ s'.recentAttempts hasked
    rename_i hgroup
    unfold OtpSink.request
    extract_lets attempts
    split
    · exact hstays _ attempts hasked
    rw [Bool.not_eq_true, hcontext.isGroup] at hgroup
    refine ⟨hasked, hclosed, hlast, hrecent, hlookups, hconfirms, hwriter, hhanded, kept,
      hkept, Or.inr ⟨e, code, now + MAX_CODE_AGE, ?_, ?_, ?_, hlive, hgroup⟩⟩
    · rw [hsame.1, hseq]
    · rw [hseq]
    · rw [hsame.2, hseq]

theorem arrives_handle (cfg : Config) (now : Int) {s : OtpSink} (e : SmsEvent)
    (hclosed : s.closed = false) :
    Arrives cfg now (s.context.message now e) s (s.handle cfg now e) := by
  unfold OtpSink.handle
  rw [if_neg (by simp [hclosed])]
  extract_lets s₁
  have htold : Told cfg now (s.context.message now e) s s₁ := told_invalidate cfg now s _
  split
  · rename_i hnew
    have hseen : Told cfg now (s.context.message now e) s (s₁.see e.row.handle) :=
      ⟨⟨htold.1.context, htold.1.closed, htold.1.lastCopied, htold.1.recent, htold.1.lookups,
        htold.1.confirms, htold.1.writer, htold.1.handed, htold.1.pending⟩, htold.2⟩
    exact arrives_incoming hseen (live_of_new hnew)
  · exact htold.1

/-! ## The invariant -/

/-- The requests after a step: those of before, and a new one. -/
def withNew (requests : List Candidate) (s s' : OtpSink) : List Candidate :=
  requests ++ s'.pendingCandidates.filter (fun p => s.requestSequence < p.sequence)

theorem withNew_same (h : ∀ p ∈ s'.pendingCandidates, p.sequence ≤ s.requestSequence) :
    withNew requests s s' = requests := by
  unfold withNew
  rw [List.filter_eq_nil_iff.mpr, List.append_nil]
  intro p hp
  have hle := h p hp
  simpa using hle

theorem Known.mono {requests' : List Candidate} {job : Job} (h : Known requests job)
    (hsub : ∀ p ∈ requests, p ∈ requests') : Known requests' job := by
  obtain ⟨p, hp, hjob⟩ := h
  exact ⟨p, hsub p hp, hjob⟩

/-- **What the sink is told keeps it sound**, when everything that is marked by it is of a group, or
is no longer pending. -/
theorem Sound.arrives {c : OtpContext} {marks : List Nat} (h : Sound requests evidence now s)
    (ha : Arrives cfg now c s s')
    (hmarks : ∀ q ∈ marks, ∃ r ∈ withNew requests s s', r.sequence = q ∧
      (c.isGroup cfg.lib now r.event = true ∨ r ∉ s'.pendingCandidates)) :
    Sound (withNew requests s s') (evidence ++ marks) now s' := by
  obtain ⟨kept, hkept, hpending⟩ := ha.pending
  have hold : ∀ p ∈ kept, p ∈ requests := fun p hp => (h.pending p (hkept p hp).1).1
  have hle : s.requestSequence ≤ s'.requestSequence := by
    rcases hpending with ⟨-, heq, -⟩ | ⟨e, code, deadline, -, heq, -⟩
    · exact heq.ge
    · omega
  -- the requests, with the new one if there is one
  have hrequests : (∀ p ∈ withNew requests s s', p.sequence ≤ s'.requestSequence ∧ p.event.Live) ∧
      ((withNew requests s s').map Candidate.sequence).Nodup ∧
      (∀ p ∈ s'.pendingCandidates, p ∈ withNew requests s s' ∧
        c.isGroup cfg.lib now p.event = false ∧ p.sequence ∉ evidence) ∧
      ∀ id job, s'.checks.Holds id job → Known (withNew requests s s') job := by
    rcases hpending with ⟨hsame, hseq, hchecks⟩ |
      ⟨e, code, deadline, hnew, hseq, hchecks, hlive, hdirect⟩
    · have heq : withNew requests s s' = requests := by
        refine withNew_same (fun p hp => ?_)
        rw [hsame] at hp
        exact h.numbered p (hold p hp)
      rw [heq]
      refine ⟨fun p hp => ⟨hseq ▸ h.numbered p hp, h.live p hp⟩, h.distinct, fun p hp => ?_, ?_⟩
      · rw [hsame] at hp
        exact ⟨hold p hp, (hkept p hp).2.direct, (h.pending p (hkept p hp).1).2⟩
      · rw [hchecks]
        exact h.checks
    have heq : withNew requests s s' = requests ++ [⟨s.requestSequence + 1, e, deadline⟩] := by
      unfold withNew
      rw [hnew, List.filter_append, List.filter_eq_nil_iff.mpr, List.nil_append]
      · simp
      · intro p hp
        have hnum := h.numbered p (hold p hp)
        simpa using hnum
    rw [heq]
    refine ⟨fun p hp => ?_, ?_, fun p hp => ?_, fun id job hjob => ?_⟩
    · rcases List.mem_append.mp hp with hp | hp
      · have hnum := h.numbered p hp
        exact ⟨by omega, h.live p hp⟩
      rw [List.mem_singleton.mp hp]
      exact ⟨hseq.ge, hlive⟩
    · rw [List.map_append, List.nodup_append]
      refine ⟨h.distinct, List.nodup_singleton _, ?_⟩
      intro a ha b hb hab
      obtain ⟨p, hp, rfl⟩ := List.mem_map.mp ha
      have hnum := h.numbered p hp
      rw [List.map_singleton, List.mem_singleton] at hb
      simp only at hb
      omega
    · rw [hnew] at hp
      rcases List.mem_append.mp hp with hp | hp
      · exact ⟨List.mem_append_left _ (hold p hp), (hkept p hp).2.direct,
          (h.pending p (hkept p hp).1).2⟩
      rw [List.mem_singleton.mp hp]
      refine ⟨List.mem_append_right _ (List.mem_singleton_self _), hdirect, fun hmem => ?_⟩
      have hnum := h.marked _ hmem
      simp only at hnum
      omega
    · rw [hchecks] at hjob
      rcases Slots.holds_put.mp hjob with ⟨-, rfl⟩ | hjob
      · exact ⟨_, List.mem_append_right _ (List.mem_singleton_self _), rfl, rfl⟩
      · exact (h.checks id job hjob).mono (fun p hp => List.mem_append_left _ hp)
  obtain ⟨hall, hdistinct, hquiet, hchecks⟩ := hrequests
  have hsub : ∀ p ∈ requests, p ∈ withNew requests s s' := fun p hp => List.mem_append_left _ hp
  exact
    { numbered := fun p hp => (hall p hp).1
      distinct := hdistinct
      live := fun p hp => (hall p hp).2
      marked := by
        intro q hq
        rcases List.mem_append.mp hq with hq | hq
        · exact (h.marked q hq).trans hle
        obtain ⟨r, hr, rfl, -⟩ := hmarks q hq
        exact (hall r hr).1
      pending := by
        intro p hp
        obtain ⟨hmem, hdirect, hnot⟩ := hquiet p hp
        refine ⟨hmem, fun hmark => ?_⟩
        rcases List.mem_append.mp hmark with hmark | hmark
        · exact hnot hmark
        -- the mark is about this very candidate
        obtain ⟨r, hr, hseq, hwhy⟩ := hmarks _ hmark
        have heq : r = p := List.inj_on_of_nodup_map hdistinct hr hmem hseq
        rw [heq] at hwhy
        rcases hwhy with hgroup | hgone
        · rw [hdirect] at hgroup
          cases hgroup
        · exact hgone hp
      checks := hchecks
      lookups := by
        rw [ha.lookups]
        exact fun id job hjob => (h.lookups id job hjob).mono hsub
      ready := by
        rw [ha.writer]
        exact fun e he => (h.ready e he).mono hsub
      confirms := by
        rw [ha.confirms]
        exact fun id c hc => (h.confirms id c hc).mono hsub
      handed := by
        rw [ha.handed]
        exact fun c hc => (h.handed c hc).mono hsub
      times := by
        rw [ha.handed]
        exact h.times
      ages := by
        rw [ha.handed]
        exact h.ages
      copied := by
        rw [ha.handed, ha.lastCopied]
        exact h.copied
      ordered := by
        rw [ha.handed]
        exact h.ordered
      tickets := by
        rw [ha.confirms, ha.writer]
        exact h.tickets
      owned := by
        rw [ha.confirms, ha.writer, ha.lastCopied]
        exact h.owned
      limited := by
        rw [ha.handed]
        exact h.limited
      kept := by
        rw [ha.recent, ha.handed]
        exact h.kept
      anchored := by
        unfold OtpSink.FirstWithin
        rw [ha.handed]
        exact h.anchored }

end BlueFerry.Otp
