import BlueFerry.Otp.Arrivals

/-! # The sink over its runs

Every step that meets its condition keeps the sink sound and adds no late copy (`Fine.step`), so
after every such run the codes that were copied are the ones that the sink may copy
(`copies_are_fit`). Without the condition it is not so: a read report can come when the record of
its message is gone, and a fallback does not ask whether its message is still pending
(`forgotten_evidence`).
-/

namespace BlueFerry.Otp

open BlueFerry.Text BlueFerry.Groups

variable {cfg : Config}

/-- What holds of an onlooker between two steps. -/
structure Fine (w : Watch) : Prop where
  sound : Sound w.requests w.evidence w.clock w.sink
  late : w.late = []
  shut : w.sink.closed = true → w.sink.pendingCandidates = []

/-- A step that brings no new message, where the sink has moved. -/
theorem fine_of_moved {w : Watch} {i : Input} (h : Fine w)
    (hnoted : ∀ requests, Watch.noted cfg (w.sink.step cfg i) i requests = [])
    (hs : Sound w.requests w.evidence i.now (w.sink.step cfg i))
    (hmoved : Moved w.evidence w.sink (w.sink.step cfg i)) : Fine (w.step cfg i) := by
  have hrequests : withNew w.requests w.sink (w.sink.step cfg i) = w.requests :=
    withNew_same (fun p hp =>
      h.sound.numbered p (h.sound.pending p (hmoved.pending p hp)).1)
  obtain ⟨codes, hcodes, hnot⟩ := hmoved.handed
  constructor
  · show Sound (withNew w.requests w.sink (w.sink.step cfg i)) (w.evidence ++ _) i.now _
    rw [hrequests, hnoted, List.append_nil]
    exact hs
  · show w.late ++ _ = []
    rw [h.late, hcodes, List.drop_left, List.nil_append, List.filter_eq_nil_iff]
    intro c hc
    simpa using hnot c hc
  intro hclosed
  rcases hmoved.shut hclosed with hbefore | hempty
  · refine List.eq_nil_iff_forall_not_mem.mpr (fun p hp => ?_)
    have hmem := hmoved.pending p hp
    rw [h.shut hbefore] at hmem
    exact absurd hmem List.not_mem_nil
  · exact hempty

/-- A step that tells the sink something. -/
theorem fine_of_arrives {w : Watch} {i : Input} {c : OtpContext} (h : Fine w)
    (hclock : w.clock ≤ i.now)
    (hshut : (w.sink.step cfg i).closed = true → (w.sink.step cfg i).pendingCandidates = [])
    (ha : Arrives cfg i.now c w.sink (w.sink.step cfg i))
    (hmarks : ∀ q ∈ Watch.noted cfg (w.sink.step cfg i) i
        (withNew w.requests w.sink (w.sink.step cfg i)),
      ∃ r ∈ withNew w.requests w.sink (w.sink.step cfg i), r.sequence = q ∧
        (c.isGroup cfg.lib i.now r.event = true ∨
          r ∉ (w.sink.step cfg i).pendingCandidates)) : Fine (w.step cfg i) := by
  constructor
  · exact (h.sound.later hclock).arrives ha hmarks
  · show w.late ++ _ = []
    rw [h.late, ha.handed, List.drop_length]
    rfl
  · exact hshut

/-- Whatever is marked as one of a group is that in the context that the step began with. -/
theorem marked_groups {c : OtpContext} {now : Int} {s : OtpSink} (hc : Pruned now c s.context)
    {requests : List Candidate} {q : Nat}
    (hq : q ∈ (requests.filter (fun p => s.context.isGroup cfg.lib now p.event)).map
      Candidate.sequence) :
    ∃ r ∈ requests, r.sequence = q ∧
      (c.isGroup cfg.lib now r.event = true ∨ r ∉ s.pendingCandidates) := by
  obtain ⟨r, hr, hseq⟩ := List.mem_map.mp hq
  rw [List.mem_filter, hc.isGroup] at hr
  exact ⟨r, hr.1, hseq, .inl hr.2⟩

/-- A sink with nothing pending that is told nothing. -/
theorem arrives_closed (cfg : Config) (now : Int) {s : OtpSink} (h : s.pendingCandidates = []) :
    Arrives cfg now s.context s s :=
  ⟨Pruned.refl now s.context, rfl, rfl, rfl, rfl, rfl, rfl, rfl, [], by simp,
    Or.inl ⟨h, rfl, rfl⟩⟩

/-! ## One step -/

variable {w : Watch} {i : Input}

/-- An event is heard, unless the sink is closed. -/
theorem Fine.heard {c : OtpContext} (h : Fine w) (hclock : w.clock ≤ i.now)
    (hnoted : ∀ s requests, Watch.noted cfg s i requests =
      (requests.filter (fun p => s.context.isGroup cfg.lib i.now p.event)).map Candidate.sequence)
    (hsame : w.sink.closed = true → w.sink.step cfg i = w.sink)
    (harrives : w.sink.closed = false → Arrives cfg i.now c w.sink (w.sink.step cfg i)) :
    Fine (w.step cfg i) := by
  cases hclosed : w.sink.closed with
  | true =>
    have hsame := hsame hclosed
    refine fine_of_arrives (c := w.sink.context) h hclock ?_ ?_ ?_
    · rw [hsame]
      exact h.shut
    · rw [hsame]
      exact arrives_closed cfg i.now (h.shut hclosed)
    intro q hq
    rw [hnoted] at hq
    rw [hsame] at hq ⊢
    exact marked_groups (Pruned.refl i.now _) hq
  | false =>
    have ha := harrives hclosed
    refine fine_of_arrives h hclock (fun hshut => ?_) ha (fun q hq => ?_)
    · rw [ha.closed, hclosed] at hshut
      cases hshut
    · rw [hnoted] at hq
      exact marked_groups ha.context hq

theorem Fine.message (h : Fine w) (hclock : w.clock ≤ i.now) {e : SmsEvent}
    (hi : i.action = .message e) : Fine (w.step cfg i) := by
  have hstep : w.sink.step cfg i = w.sink.handle cfg i.now e := by
    unfold OtpSink.step
    rw [hi]
  refine h.heard hclock (fun s requests => by unfold Watch.noted; rw [hi]) (fun hclosed => ?_)
    (fun hclosed => hstep ▸ arrives_handle cfg i.now e hclosed)
  rw [hstep, OtpSink.handle, if_pos hclosed]

theorem Fine.ancs (h : Fine w) (hclock : w.clock ≤ i.now) {e : AncsEvent}
    (hi : i.action = .ancs e) : Fine (w.step cfg i) := by
  have hstep : w.sink.step cfg i = w.sink.handleAncs cfg i.now e := by
    unfold OtpSink.step
    rw [hi]
  refine h.heard (c := w.sink.context.ancs i.now e) hclock
    (fun s requests => by unfold Watch.noted; rw [hi]) (fun hclosed => ?_) (fun hclosed => ?_)
  · rw [hstep, OtpSink.handleAncs, if_pos hclosed]
  · rw [hstep, OtpSink.handleAncs, if_neg (by simp [hclosed])]
    exact (told_invalidate cfg i.now w.sink _).1

theorem Fine.read (h : Fine w) (hclock : w.clock ≤ i.now) {handle : Str}
    (hi : i.action = .read handle) (hok : Holds cfg w.sink i) : Fine (w.step cfg i) := by
  have hstep : w.sink.step cfg i = w.sink.messageRead cfg i.now handle := by
    unfold OtpSink.step
    rw [hi]
  obtain ⟨ha, hseq⟩ := told_invalidate cfg i.now w.sink (w.sink.context.read handle)
  have ha : Arrives cfg i.now (w.sink.context.read handle) w.sink (w.sink.step cfg i) := by
    rw [hstep]
    exact ha
  have hquiet : ∀ p ∈ (w.sink.step cfg i).pendingCandidates, p ∈ w.sink.pendingCandidates ∧
      Quiet cfg i.now (w.sink.context.read handle) p := by
    obtain ⟨kept, hkept, ⟨hpending, -⟩ | ⟨e, code, deadline, -, hnext, -⟩⟩ := ha.pending
    · rw [hpending]
      exact hkept
    rw [hstep] at hnext
    have heq : (w.sink.messageRead cfg i.now handle).requestSequence
        = w.sink.requestSequence := hseq
    omega
  refine fine_of_arrives h hclock (fun hclosed => ?_) ha (fun q hq => ?_)
  · rw [ha.closed] at hclosed
    refine List.eq_nil_iff_forall_not_mem.mpr (fun p hp => ?_)
    have hmem := (hquiet p hp).1
    rw [h.shut hclosed] at hmem
    exact absurd hmem List.not_mem_nil
  unfold Watch.noted at hq
  rw [hi] at hq
  obtain ⟨r, hr, hrseq⟩ := List.mem_map.mp hq
  rw [List.mem_filter, Bool.or_eq_true, decide_eq_true_eq] at hr
  refine ⟨r, hr.1, hrseq, ?_⟩
  rcases hr.2 with hhandle | hgroup
  · right
    intro hp
    -- its record was kept, so the report has marked it as read
    obtain ⟨hbefore, hdeadline, ⟨c, hc, hunread⟩, -⟩ := hquiet r hp
    obtain ⟨hread, hpruned⟩ := (hok.heard handle hi r hbefore hhandle hdeadline).isRead_read
    rw [hhandle] at hread hpruned
    rcases hc with rfl | rfl
    · rw [hunread] at hread
      cases hread
    rw [hunread] at hpruned
    cases hpruned
  · exact .inl ((ha.context.isGroup cfg.lib r.event).symm.trans hgroup)

/-- What waited for a probe goes on with the writer that knows its result. -/
theorem probed_spec {α : Type} (w : ClipboardWriter α) (executable : Str) (sensitive : Option Bool) :
    (w.probed executable sensitive).1.tickets = w.tickets ∧
      (w.probed executable sensitive).1.owner = w.owner ∧
      (∀ e ∈ (w.probed executable sensitive).1.ready, e ∈ w.ready) ∧
      ∀ job ∈ (w.probed executable sensitive).2, ∃ e ∈ w.ready, e.1 = executable ∧ e.2 = job := by
  cases sensitive with
  | none =>
    refine ⟨rfl, rfl, fun e he => ?_, by simp [ClipboardWriter.probed]⟩
    exact (List.mem_filter.mp (show e ∈ w.ready.filter _ from he)).1
  | some sensitive =>
    by_cases hclosed : w.closed = true
    · simp [ClipboardWriter.probed, hclosed]
    have heq : (w.probed executable (some sensitive)).1.tickets = w.tickets ∧
        (w.probed executable (some sensitive)).1.owner = w.owner ∧
        (w.probed executable (some sensitive)).1.ready =
          w.ready.filter (fun e => e.1 ≠ executable) ∧
        (w.probed executable (some sensitive)).2 =
          (w.ready.filter (fun e => e.1 = executable)).map Prod.snd := by
      simp [ClipboardWriter.probed, hclosed]
    refine ⟨heq.1, heq.2.1, fun e he => ?_, fun job hjob => ?_⟩
    · rw [heq.2.2.1] at he
      exact (List.mem_filter.mp he).1
    rw [heq.2.2.2] at hjob
    obtain ⟨e, he, rfl⟩ := List.mem_map.mp hjob
    have hfilter := List.mem_filter.mp he
    exact ⟨e, hfilter.1, of_decide_eq_true hfilter.2, rfl⟩

theorem shrunk_checks (now : Int) (s : OtpSink) (id : Nat) :
    Shrunk now s { s with checks := s.checks.take id } :=
  ⟨rfl, rfl, rfl, fun _ h => h, fun _ _ h => (Slots.holds_take.mp h).2, fun _ _ h => h, rfl,
    fun o h => ⟨o, h, rfl⟩, .inl rfl, .inl⟩

theorem shrunk_lookups (now : Int) (s : OtpSink) (id : Nat) :
    Shrunk now s { s with lookups := s.lookups.take id } :=
  ⟨rfl, rfl, rfl, fun _ h => h, fun _ _ h => h, fun _ _ h => h, rfl, fun o h => ⟨o, h, rfl⟩,
    Or.inl rfl, .inl⟩

theorem shrunk_confirms (now : Int) (s : OtpSink) (id : Nat) :
    Shrunk now s { s with confirms := s.confirms.take id } :=
  ⟨rfl, rfl, rfl, fun _ h => h, fun _ _ h => h, fun _ _ h => (Slots.holds_take.mp h).2, rfl,
    fun o h => ⟨o, h, rfl⟩, .inl rfl, .inl⟩

/-- A step of a timer, a reply, a probe or a helper. -/
theorem Fine.moves (h : Fine w) (hclock : w.clock ≤ i.now) (hok : Holds cfg w.sink i)
    (hi : ∀ e, i.action ≠ .message e) (hi' : ∀ e, i.action ≠ .ancs e)
    (hi'' : ∀ handle, i.action ≠ .read handle) : Fine (w.step cfg i) := by
  have hs := h.sound.later hclock
  have hnoted : ∀ requests, Watch.noted cfg (w.sink.step cfg i) i requests = [] := by
    intro requests
    unfold Watch.noted
    cases haction : i.action with
    | message e => exact absurd haction (hi e)
    | ancs e => exact absurd haction (hi' e)
    | read handle => exact absurd haction (hi'' handle)
    | _ => rfl
  have hcounted := hok.counted
  suffices hboth : Sound w.requests w.evidence i.now (w.sink.step cfg i) ∧
      Moved w.evidence w.sink (w.sink.step cfg i) from fine_of_moved h hnoted hboth.1 hboth.2
  unfold OtpSink.step
  unfold OtpSink.jobs at hcounted
  cases haction : i.action with
  | message e => exact absurd haction (hi e)
  | ancs e => exact absurd haction (hi' e)
  | read handle => exact absurd haction (hi'' handle)
  | check id lookup =>
    rw [haction] at hcounted
    cases hjob : w.sink.checks.get id with
    | none =>
      simp only [hjob]
      exact ⟨hs, Moved.refl _ _⟩
    | some job =>
      simp only [hjob] at hcounted ⊢
      have htake := shrunk_checks i.now w.sink id
      have htaken := hs.frame htake hs.lookups hs.ready
      have hdone : Advances w.requests w.evidence i.now _ (OtpSink.checkMetadata cfg
          { w.sink with checks := w.sink.checks.take id } i.now job lookup i.preparing
          (i.copying 0)) :=
        htaken.checkMetadata lookup i.preparing (i.copying 0) (hs.checks id job hjob)
          (hcounted job (by simp))
      exact ⟨hdone.1, htake.moved.trans hdone.2.1⟩
  | reply id metadata =>
    rw [haction] at hcounted
    cases hjob : w.sink.lookups.get id with
    | none =>
      simp only [hjob]
      exact ⟨hs, Moved.refl _ _⟩
    | some job =>
      simp only [hjob] at hcounted ⊢
      have htake := shrunk_lookups i.now w.sink id
      have htaken := hs.frame htake
        (fun id' job' hjob' => hs.lookups id' job' (Slots.holds_take.mp hjob').2) hs.ready
      have hdone : Advances w.requests w.evidence i.now _ (OtpSink.metadataReady cfg
          { w.sink with lookups := w.sink.lookups.take id } i.now job metadata i.preparing
          (i.copying 0)) :=
        htaken.metadataReady metadata i.preparing (i.copying 0) (hs.lookups id job hjob)
          (hcounted job (by simp))
      exact ⟨hdone.1, htake.moved.trans hdone.2.1⟩
  | probed executable sensitive =>
    rw [haction] at hcounted
    obtain ⟨htickets, howner, hready, hwaiting⟩ := probed_spec w.sink.writer executable sensitive
    have hshrunk : Shrunk i.now w.sink
        { w.sink with writer := (w.sink.writer.probed executable sensitive).1 } :=
      ⟨rfl, rfl, rfl, fun _ h => h, fun _ _ h => h, fun _ _ h => h, htickets,
        fun o ho => ⟨o, howner ▸ ho, rfl⟩, .inl rfl, .inl⟩
    have hframe := hs.frame hshrunk hs.lookups (fun e he => hs.ready e (hready e he))
    have hdone : Advances w.requests w.evidence i.now _ (OtpSink.copyAll cfg i.now i.copying
        { w.sink with writer := (w.sink.writer.probed executable sensitive).1 } 0
        (w.sink.writer.probed executable sensitive).2) := hframe.copyAll i.copying
      (w.sink.writer.probed executable sensitive).2 0
      (fun p hp => by
        obtain ⟨e, he, -, rfl⟩ := hwaiting p hp
        exact hs.ready e he)
      (fun p hp => by
        obtain ⟨e, he, hexe, rfl⟩ := hwaiting p hp
        refine hcounted e.2.job (List.mem_map.mpr ⟨e, List.mem_filter.mpr ⟨he, ?_⟩, rfl⟩)
        exact decide_eq_true hexe)
    exact ⟨hdone.1, hshrunk.moved.trans hdone.2.1⟩
  | confirm id =>
    cases hc : w.sink.confirms.get id with
    | none =>
      simp only [hc]
      exact ⟨hs, Moved.refl _ _⟩
    | some c =>
      simp only [hc]
      have htake := shrunk_confirms i.now w.sink id
      have htaken := hs.frame htake hs.lookups hs.ready
      have hdone : Sound w.requests w.evidence i.now (OtpSink.confirm cfg
            { w.sink with confirms := w.sink.confirms.take id } i.now c (i.copying 0)) ∧
          Moved w.evidence _ (OtpSink.confirm cfg
            { w.sink with confirms := w.sink.confirms.take id } i.now c (i.copying 0)) :=
        htaken.confirm (i.copying 0) (hs.confirms id c hc)
          (fun hwants => hs.last_of_failed hc hwants)
          (fun hback => hok.pending id c haction hc hback)
      exact ⟨hdone.1, htake.moved.trans hdone.2⟩
  | exited ticket code =>
    have hshrunk : Shrunk i.now w.sink
        { w.sink with writer := w.sink.writer.exited ticket code } := by
      refine ⟨rfl, rfl, rfl, fun _ h => h, fun _ _ h => h, fun _ _ h => h, rfl, fun o ho => ?_,
        Or.inl rfl, .inl⟩
      obtain ⟨o', ho', rfl⟩ := Option.map_eq_some_iff.mp ho
      refine ⟨o', ho', ?_⟩
      split <;> rfl
    exact ⟨hs.frame hshrunk hs.lookups hs.ready, hshrunk.moved⟩
  | expired ticket =>
    have hshrunk : Shrunk i.now w.sink
        { w.sink with writer := w.sink.writer.expire ticket } := by
      unfold ClipboardWriter.expire
      split
      · exact ⟨rfl, rfl, rfl, fun _ h => h, fun _ _ h => h, fun _ _ h => h, rfl,
          fun o ho => (by cases ho), .inl rfl, .inl⟩
      exact ⟨rfl, rfl, rfl, fun _ h => h, fun _ _ h => h, fun _ _ h => h, rfl,
        fun o ho => ⟨o, ho, rfl⟩, .inl rfl, .inl⟩
    refine ⟨hs.frame hshrunk hs.lookups (fun e he => hs.ready e ?_), hshrunk.moved⟩
    have he' : e ∈ (w.sink.writer.expire ticket).ready := he
    unfold ClipboardWriter.expire at he'
    split at he' <;> exact he'
  | close =>
    have hshrunk : Shrunk i.now w.sink w.sink.close :=
      ⟨rfl, rfl, rfl, fun p hp => absurd hp List.not_mem_nil,
        fun id job hjob => absurd hjob (Slots.not_holds_clear _ _ _),
        fun id c hc => absurd hc (Slots.not_holds_clear _ _ _), rfl,
        fun o ho => (by cases ho), .inl rfl, fun _ => .inr rfl⟩
    exact ⟨hs.frame hshrunk hs.lookups (fun e he => absurd he List.not_mem_nil), hshrunk.moved⟩

theorem Fine.step (h : Fine w) (hclock : w.clock ≤ i.now) (hok : Holds cfg w.sink i) :
    Fine (w.step cfg i) := by
  have hmoves := h.moves hclock hok
  cases haction : i.action with
  | message e => exact h.message hclock haction
  | ancs e => exact h.ancs hclock haction
  | read handle => exact h.read hclock haction hok
  | probed executable sensitive =>
    exact hmoves (by simp [haction]) (by simp [haction]) (by simp [haction])
  | check id lookup | reply id metadata | confirm id | exited ticket code | expired ticket
    | close => exact hmoves (by simp [haction]) (by simp [haction]) (by simp [haction])

theorem fine_start (now : Int) (desktop : Desktop) : Fine (Watch.start now desktop) where
  sound :=
    { numbered := by simp [Watch.start]
      distinct := List.nodup_nil
      live := by simp [Watch.start]
      marked := by simp [Watch.start]
      pending := by simp [Watch.start, OtpSink.start]
      checks := by simp [Watch.start, OtpSink.start]
      lookups := by simp [Watch.start, OtpSink.start]
      ready := by
        intro e he
        have hnone : (ClipboardWriter.start (α := Prepared) desktop).ready = [] := by
          unfold ClipboardWriter.start ClipboardWriter.probe ClipboardWriter.probeFailed
          extract_lets w₀
          cases desktop.session.find false with
          | none => rfl
          | some target =>
            simp only
            split
            · split
              · rfl
              · split <;> rfl
            · rfl
        have he' : e ∈ (ClipboardWriter.start (α := Prepared) desktop).ready := he
        rw [hnone] at he'
        exact absurd he' List.not_mem_nil
      confirms := by simp [Watch.start, OtpSink.start]
      handed := by simp [Watch.start, OtpSink.start]
      times := by simp [Watch.start, OtpSink.start]
      ages := by simp [Watch.start, OtpSink.start]
      copied := by simp [Watch.start, OtpSink.start]
      ordered := List.Pairwise.nil
      tickets := by simp [Watch.start, OtpSink.start]
      owned := by simp [Watch.start, OtpSink.start]
      limited := Window.limited_nil _ _
      kept := Window.keeps_self _ _ _
      anchored := by simp [Watch.start, OtpSink.start] }
  late := rfl
  shut := fun _ => rfl

/-! ## What was copied -/

/-- The codes that were handed out in the minute from `t` on. -/
def codesWithin (handed : List Handed) (t : Int) : List Nat :=
  ((handed.filter (fun c => decide (t ≤ c.time ∧ c.time ≤ t + COPY_WINDOW))).map
    Handed.sequence).dedup

/-- Every code of a minute was copied for the first time within the minute before its last copy. -/
theorem Sound.codesWithin_le {requests : List Candidate} {evidence : List Nat} {now : Int}
    {s : OtpSink} (h : Sound requests evidence now s) (t : Int) :
    (codesWithin s.handed t).length ≤ MAX_COPIES_PER_WINDOW := by
  unfold codesWithin
  generalize hin : s.handed.filter (fun c => decide (t ≤ c.time ∧ c.time ≤ t + COPY_WINDOW)) = inside
  have hinside : ∀ c ∈ inside, c ∈ s.handed ∧ t ≤ c.time ∧ c.time ≤ t + COPY_WINDOW := by
    intro c hc
    rw [← hin, List.mem_filter, decide_eq_true_eq] at hc
    exact hc
  by_cases hnil : inside = []
  · rw [hnil]
    exact Nat.zero_le _
  obtain ⟨d, hd, hlast⟩ : ∃ d ∈ inside, ∀ c ∈ inside, c.time ≤ d.time := by
    obtain ⟨d, hd⟩ := Option.ne_none_iff_exists'.mp
      (fun hnone => hnil (List.argmax_eq_none.mp hnone) :
        List.argmax Handed.time inside ≠ none)
    exact ⟨d, List.argmax_mem hd, fun c hc => List.le_of_mem_argmax hc hd⟩
  obtain ⟨hdmem, -, hdle⟩ := hinside d hd
  have hfirsts : ∀ q ∈ (inside.map Handed.sequence).dedup,
      q ∈ ((s.handed.filter (fun c => !c.fallback)).filter
        (fun e => decide (d.time - (COPY_WINDOW + 1) < e.time ∧ e.time ≤ d.time))).map
          Handed.sequence := by
    intro q hq
    obtain ⟨c, hc, rfl⟩ := List.mem_map.mp (List.mem_dedup.mp hq)
    obtain ⟨hcmem, hcge, -⟩ := hinside c hc
    have hcle := hlast c hc
    -- the first copy of this code
    have hfirst : ∃ e ∈ s.handed, e.fallback = false ∧ e.sequence = c.sequence ∧
        d.time - COPY_WINDOW ≤ e.time ∧ e.time ≤ d.time := by
      cases hback : c.fallback with
      | false => exact ⟨c, hcmem, hback, rfl, by omega, hcle⟩
      | true =>
        obtain ⟨e, ⟨hemem, hefirst, heseq, hege⟩, hele⟩ :=
          h.anchored c hcmem d hdmem hback (by omega)
        exact ⟨e, hemem, hefirst, heseq, hege, hele.trans hcle⟩
    obtain ⟨e, hemem, hefirst, heseq, hege, hele⟩ := hfirst
    refine List.mem_map.mpr ⟨e, List.mem_filter.mpr ⟨List.mem_filter.mpr ⟨hemem, ?_⟩, ?_⟩, heseq⟩
    · rw [hefirst]
      rfl
    · rw [decide_eq_true_eq]
      omega
  have hsub := (List.nodup_dedup (inside.map Handed.sequence)).subperm hfirsts
  have hcount := h.limited d.time
  unfold Window.count firstTimes at hcount
  rw [List.countP_map, List.countP_eq_length_filter] at hcount
  calc (inside.map Handed.sequence).dedup.length
      ≤ (((s.handed.filter (fun c => !c.fallback)).filter
        (fun e => decide (d.time - (COPY_WINDOW + 1) < e.time ∧ e.time ≤ d.time))).map
          Handed.sequence).length := hsub.length_le
    _ ≤ MAX_COPIES_PER_WINDOW := by
        rw [List.length_map]
        exact hcount

/-- The clock does not go back, and the condition on the step is met. -/
def Meets (cfg : Config) (w : Watch) (i : Input) : Prop := w.clock ≤ i.now ∧ Holds cfg w.sink i

/-- **Only codes that may be copied are copied**, in every run whose steps meet their condition. No
code is handed to the writer after its message was marked as read or as one of a group; its message
was a live unread push from no contact, sent at most five minutes before; of at most three messages
within a minute; and never, when a code was copied, one of an older message after it. -/
theorem copies_are_fit (cfg : Config) (now : Int) (desktop : Desktop) (inputs : List Input)
    (hok : Machine.Along (Watch.step cfg) (Meets cfg) (Watch.start now desktop) inputs) :
    let w := Machine.run (Watch.step cfg) (Watch.start now desktop) inputs
    w.late = [] ∧ (w.requests.map Candidate.sequence).Nodup ∧
    (∀ c ∈ w.sink.handed,
      (∃ p ∈ w.requests, p.sequence = c.sequence ∧ p.event = c.prepared.job.event ∧
        p.event.Live) ∧
      ∃ timestamp, c.prepared.timestamp = some timestamp ∧ timestamp ≤ c.time ∧
        c.time ≤ timestamp + MAX_CODE_AGE) ∧
    (∀ t, (codesWithin w.sink.handed t).length ≤ MAX_COPIES_PER_WINDOW) ∧
    w.sink.handed.Pairwise
      (fun a b => a.ticket ≠ none → b.ticket ≠ none → a.sequence ≤ b.sequence) := by
  intro w
  have h : Fine w := Machine.invariant (P := Fine) (Watch.step cfg)
    (fun w i hi hw => hw.step hi.1 hi.2) hok (fine_start now desktop)
  refine ⟨h.late, h.sound.distinct, fun c hc => ⟨?_, ?_⟩, h.sound.codesWithin_le, h.sound.ordered⟩
  · obtain ⟨p, hp, hseq, hevent⟩ := h.sound.handed c hc
    exact ⟨p, hp, hseq, hevent, h.sound.live p hp⟩
  have hage := h.sound.ages c hc
  cases htimestamp : c.prepared.timestamp with
  | none =>
    rw [htimestamp] at hage
    cases hage
  | some timestamp =>
    rw [htimestamp] at hage
    simp only [OtpSink.isRecent, Bool.and_eq_true, decide_eq_true_eq] at hage
    exact ⟨timestamp, rfl, by omega, by omega⟩

/-- A sink that asks the phone, with the codes of the texts below. -/
def phoneConfig : Config :=
  ⟨plainLibrary [], fun body => if body = "Your code is 123456".toList then some "123456".toList
    else none, true⟩

/-- A push of a message, from a number that is no contact. -/
def push (name : String) (body : String) (timestamp : Int) : SmsEvent where
  row :=
    { kind := .smsReceived, handle := name.toList, senderAddress := "+15550100".toList,
      body := body.toList, seenAt := "2024-05-01T10:00:00+00:00".toList, isRead := some false }
  messagePath := "/message/".toList ++ name.toList
  timestamp := some timestamp

/-- A session with `wl-copy` and an X11 helper. -/
def session : Desktop := ⟨⟨some "wl-copy".toList, some (.xclip, "xclip".toList)⟩, true, true⟩

/-- A callback, so many milliseconds after the first one. -/
def after (milliseconds : Int) (action : Action) : Input :=
  ⟨1000 * milliseconds, action, session, fun _ => session⟩

/-- The code of a message is copied by `wl-copy`, when the phone has answered. -/
def copying : List Input :=
  [after 0 (.probed "wl-copy".toList (some true)),
    after 0 (.message (push "a" "Your code is 123456" 0)), after 5000 (.check 0 .waiting)]

/-- A step that is neither a read report nor a confirmation, before anything was copied. -/
theorem holds_before_copies {s : OtpSink} {i : Input} (hread : ∀ handle, i.action ≠ .read handle)
    (hconfirm : ∀ id, i.action ≠ .confirm id) (hnone : s.handed = []) : Holds cfg s i where
  heard := fun handle hi => absurd hi (hread handle)
  counted := by
    intro job _ _ c hc
    rw [hnone] at hc
    exact absurd hc List.not_mem_nil
  pending := fun id c hi => absurd hi (hconfirm id)

/-- A code that is copied. -/
theorem copies_are_fit_once :
    (Machine.run (Watch.step phoneConfig) (Watch.start 0 session)
      (copying ++ [after 5000 (.reply 0 (some ⟨some 0, false⟩))])).sink.handed.length = 1 ∧
    (Machine.run (Watch.step phoneConfig) (Watch.start 0 session)
      (copying ++ [after 5000 (.reply 0 (some ⟨some 0, false⟩))])).late = [] := by
  refine ⟨by decide +kernel, (copies_are_fit phoneConfig 0 session _ ?_).1⟩
  refine ⟨⟨by decide, ?_⟩, ⟨by decide +kernel, ?_⟩, ⟨by decide +kernel, ?_⟩, ⟨by decide +kernel, ?_⟩,
    trivial⟩
  all_goals exact holds_before_copies (by simp [after]) (by simp [after]) (by rfl)

/-! ## Evidence that is forgotten -/

/-- The report that the message is read comes when its record has left the context. -/
def reportTooLate : List Input :=
  copying ++ [after 62000 (.message (push "b" "hello" 62000)), after 63000 (.read "a".toList),
    after 64000 (.reply 0 (some ⟨some 0, false⟩))]

/-- The message is read before its fallback, which comes when its record has left the context. -/
def fallbackTooLate : List Input :=
  copying ++ [after 5000 (.reply 0 (some ⟨some 0, false⟩)), after 5100 (.exited 0 1),
    after 5200 (.read "a".toList), after 70000 (.message (push "b" "hello" 70000)),
    after 70100 (.confirm 0)]

/-- A fallback, and three further codes within the minute. -/
def fourCodes : List Input :=
  copying ++ [after 5000 (.reply 0 (some ⟨some 0, false⟩)), after 5100 (.exited 0 1),
    after 5400 (.confirm 0),
    after 60100 (.message (push "b" "Your code is 123456" 60100)),
    after 60100 (.message (push "c" "Your code is 123456" 60100)),
    after 60100 (.message (push "d" "Your code is 123456" 60100)),
    after 65100 (.check 1 (.answered (some ⟨some 60100000, false⟩))),
    after 65100 (.check 2 (.answered (some ⟨some 60100000, false⟩))),
    after 65100 (.check 3 (.answered (some ⟨some 60100000, false⟩)))]

/-- A code is copied after a report that its message was read, by the first attempt or by the
fallback, and four codes are copied within a minute. -/
theorem forgotten_evidence :
    (Machine.run (Watch.step phoneConfig) (Watch.start 0 session) reportTooLate).late.map
        (fun c => (c.sequence, c.fallback)) = [(1, false)] ∧
    (Machine.run (Watch.step phoneConfig) (Watch.start 0 session) fallbackTooLate).late.map
        (fun c => (c.sequence, c.fallback)) = [(1, true)] ∧
    codesWithin (Machine.run (Watch.step phoneConfig) (Watch.start 0 session)
      fourCodes).sink.handed 5400000 = [1, 2, 3, 4] := by
  decide +kernel

end BlueFerry.Otp
