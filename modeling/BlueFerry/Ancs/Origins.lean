import BlueFerry.Ancs.Privacy

/-! # Where the attributes of an event come from

A Data Source packet names the notification it is about, not the command it answers. Here every such
packet comes with the number of the write that it answers (`Hearing`), which the client does not see,
and every event is traced back to the packets that it was built from (`FromHeard`).

The client retires its requests when their notification is removed or the session ends, and drains
the active one. It cannot tell a packet that comes after its request was given up from the answer to
a later request for the same notification.
-/

namespace BlueFerry.Ancs

open BlueFerry.Text

/-! ## Writes and invalidations -/

/-- The entry retires the content requests of the notification. -/
def Entry.voids (uid : Nat) : Entry → Bool
  | .invalidated none => true
  | .invalidated (some u) => u == uid
  | _ => false

/-- The number of writes in a log. -/
def written (log : List Entry) : Nat := log.countP (·.isWrite)

/-- The number of writes before the notification was last removed or the session ended. -/
def writtenBefore (uid : Nat) : List Entry → Nat
  | [] => 0
  | e :: earlier => if e.voids uid then written earlier else writtenBefore uid earlier

theorem writtenBefore_le (uid : Nat) (log : List Entry) : writtenBefore uid log ≤ written log := by
  induction log with
  | nil => exact le_rfl
  | cons e log ih =>
    have hcons : written log ≤ written (e :: log) := by
      unfold written
      rw [List.countP_cons]
      omega
    unfold writtenBefore
    split
    · exact hcons
    · exact ih.trans hcons

theorem writtenBefore_cons {uid : Nat} {e : Entry} (he : e.voids uid = false) (log : List Entry) :
    writtenBefore uid (e :: log) = writtenBefore uid log := by
  rw [writtenBefore, he]
  rfl

/-- Entries that invalidate nothing leave the count alone. -/
theorem writtenBefore_append {new : List Entry} (h : ∀ e ∈ new, ∀ u, e ≠ .invalidated u) (uid : Nat)
    (log : List Entry) : writtenBefore uid (new ++ log) = writtenBefore uid log := by
  induction new with
  | nil => rfl
  | cons e new ih =>
    have hvoids : e.voids uid = false := by
      cases e with
      | invalidated u => exact absurd rfl (h _ (.head _) u)
      | _ => rfl
    rw [List.cons_append, writtenBefore_cons hvoids]
    exact ih (fun x hx => h x (.tail _ hx))

/-! ## What was heard -/

/-- The attributes that a packet completes, if it completes any. -/
def PendingRequest.content (r : PendingRequest) (data : Bytes) : Option NotificationAttributes :=
  match r.assembler with
  | none => none
  | some assembler =>
    match (assembler.feed data).2 with
    | .ok (some complete) =>
      match DataSourceEvent.parse complete with
      | .ok ev =>
        if ev.type = CommandID.getNotificationAttributes then
          (NotificationAttributes.parse ev.body r.actionLabelIds).toOption
        else none
      | .error _ => none
    | _ => none

/-- The request about a notification that the next Data Source packet is taken to answer. -/
def Client.listens (s : Client) : Option (PendingRequest × Arrival) :=
  match s.core.active with
  | none => none
  | some r =>
    if s.tr.receiversCurrent && !r.discarded then r.notification.map (fun a => (r, a)) else none

/-- The client, and what it does not know: which writes the packets answered that were taken as
answers about an arrival, and which writes the attributes came from that were completed so far. -/
structure Hearing where
  client : Client
  fed : List (Arrival × Nat) := []
  heard : List (NotificationAttributes × List Nat) := []

/-- The writes whose answers were taken as answers about an arrival. -/
def sources (fed : List (Arrival × Nat)) (a : Arrival) : List Nat :=
  (fed.filter (fun p => p.1 = a)).map (·.2)

namespace Hearing

/-- A Data Source packet that answers the write with this number. -/
def hear (write : Nat) (data : Bytes) (h : Hearing) : Hearing :=
  match h.client.listens with
  | none => h
  | some (r, a) =>
    let fed := (a, write) :: h.fed
    { h with
      fed
      heard :=
        match r.content data with
        | none => h.heard
        | some attrs => (attrs, sources fed a) :: h.heard }

/-- One step. The number says which write a Data Source packet answers; no other input has one. -/
def step (h : Hearing) (input : (Env × Input) × Nat) : Hearing :=
  { (match input.1.2 with
      | .ds data => h.hear input.2 data
      | _ => h) with client := h.client.step input.1 }

def initial (previouslyAuthorized : Bool) : Hearing where
  client := Client.initial previouslyAuthorized

end Hearing

/-- Attributes that only answer writes made since the notification was last removed or the session
ended. -/
def Sourced (heard : List (NotificationAttributes × List Nat)) (attrs : NotificationAttributes)
    (log : List Entry) : Prop :=
  ∃ p ∈ heard, p.1 = attrs ∧ ∀ write ∈ p.2, writtenBefore attrs.id log ≤ write

/-- **The promise**, for one entry of the log and what was before it: an event is built from
attributes that were asked for after the last removal of its notification and the last end of a
session. -/
def FromHeard (heard : List (NotificationAttributes × List Nat)) : Entry → List Entry → Prop
  | .emitted e, earlier => ∃ attrs, e.Shows attrs ∧ Sourced heard attrs earlier
  | _, _ => True

/-- A packet that comes while a request is active answers the command that was written last. -/
def Prompt (h : Hearing) (input : (Env × Input) × Nat) : Prop :=
  match input.1.2 with
  | .ds _ => h.client.core.active.isSome = true → input.2 + 1 = h.client.core.nextWrite
  | _ => True

instance (h : Hearing) (input : (Env × Input) × Nat) : Decidable (Prompt h input) := by
  unfold Prompt
  split <;> infer_instance

/-! ## The invariant -/

/-- Whatever can still lead to an event answers only writes made since its notification was last
removed and the last session ended. -/
structure Traced (fed : List (Arrival × Nat)) (heard : List (NotificationAttributes × List Nat))
    (c : Core) : Prop where
  counted : written c.log = c.nextWrite
  past : ∀ p ∈ fed, p.1.serial < c.serials
  arrivals : ∀ r a, c.Holds r → r.notification = some a → a.serial < c.serials
  requested : ∀ r a, c.Holds r → r.discarded = false → r.notification = some a →
    ∀ p ∈ fed, p.1 = a → writtenBefore a.notification.id c.log ≤ p.2
  asked : ∀ r a, c.active = some r → r.discarded = false → r.notification = some a →
    writtenBefore a.notification.id c.log < c.nextWrite
  waiting : ∀ w, c.IsWaiting w → Sourced heard w.attrs c.log
  log : Trace.Each (FromHeard heard) c.log

theorem fromHeard_of_neutral {heard : List (NotificationAttributes × List Nat)} {e : Entry}
    (h : e.neutral = true) (earlier : List Entry) : FromHeard heard e earlier := by
  cases e with
  | emitted event => cases h
  | _ => trivial

variable {attrs : NotificationAttributes}

theorem Sourced.congr {heard : List (NotificationAttributes × List Nat)} {log log' : List Entry}
    (h : Sourced heard attrs log)
    (hlog : writtenBefore attrs.id log' = writtenBefore attrs.id log) : Sourced heard attrs log' := by
  obtain ⟨p, hp, hattrs, hwrites⟩ := h
  exact ⟨p, hp, hattrs, fun write hwrite => by rw [hlog]; exact hwrites write hwrite⟩

namespace Traced

variable {fed : List (Arrival × Nat)} {heard : List (NotificationAttributes × List Nat)} {c c' : Core}
  {r : PendingRequest}

/-- The facts that are about one request, one waiting notification and one entry. -/
def watch (fed : List (Arrival × Nat)) (heard : List (NotificationAttributes × List Nat)) : Watch where
  base := fun c => written c.log = c.nextWrite ∧ ∀ p ∈ fed, p.1.serial < c.serials
  held := fun c r => (∀ a, r.notification = some a → a.serial < c.serials) ∧
    (r.discarded = false → ∀ a, r.notification = some a →
      ∀ p ∈ fed, p.1 = a → writtenBefore a.notification.id c.log ≤ p.2)
  sent := fun c r => r.discarded = false → ∀ a, r.notification = some a →
    writtenBefore a.notification.id c.log < c.nextWrite
  waits := fun c attrs => Sourced heard attrs c.log
  entry := FromHeard heard

theorem watch_on (hwanted : ∀ r ∈ c.queue, r.discarded = false) :
    (watch fed heard).On c ↔ Traced fed heard c := by
  constructor
  · intro h
    exact ⟨h.base.1, h.base.2, fun r a hr => (h.held r hr).1 a,
      fun r a hr hw => (h.held r hr).2 hw a, fun r a hr hw => h.sent r hr hw a, h.waits, h.log⟩
  intro h
  exact ⟨⟨h.counted, h.past⟩, hwanted,
    fun r hr => ⟨fun a => h.arrivals r a hr, fun hw a => h.requested r a hr hw⟩,
    fun r hr hw a => h.asked r a hr hw, h.waiting, h.log⟩

/-- A removal leaves the count of another notification alone. -/
theorem writtenBefore_kept {uid : Option Nat} {a : Arrival} (hg : c.Grows c' [.invalidated uid])
    (hn : r.notification = some a) (hkept : Core.isAbout uid r = false) :
    writtenBefore a.notification.id c'.log = writtenBefore a.notification.id c.log := by
  rw [hg.log]
  refine writtenBefore_cons ?_ _
  unfold Core.isAbout at hkept
  rw [hn] at hkept
  cases uid with
  | none => cases hkept
  | some u => simpa [Entry.voids] using hkept

theorem lawful_watch (fed : List (Arrival × Nat)) (heard : List (NotificationAttributes × List Nat)) :
    (watch fed heard).Lawful := by
  have hbefore : ∀ {c c' : Core} {new : List Entry}, c.Goes c' new →
      ∀ uid, writtenBefore uid c'.log = writtenBefore uid c.log := by
    intro c c' new hg uid
    rw [hg.log, writtenBefore_append hg.valid]
  have hnext : ∀ {c c' : Core} {new : List Entry}, c.Grows c' new → c.nextWrite ≤ c'.nextWrite := by
    intro c c' new hg
    rw [hg.nextWrite]
    exact Nat.le_add_right _ _
  refine {
    base := ?_, held := ?_, sent := ?_, waits := ?_, heldKept := ?_, sentKept := ?_, waitsKept := ?_
    retired := fun hr => ⟨hr.1, fun hw => by cases hw⟩
    drained := ?_
    retried := fun n hr => hr
    fed := fun _ _ hr => hr
    plain := fun _ hn => ⟨fun a ha => by simp [hn] at ha, fun _ a ha => by simp [hn] at ha⟩
    neutral := fun he => fromHeard_of_neutral he _
    invalidated := trivial
    shows := fun hattrs hshows => ⟨_, hshows, hattrs⟩ }
  · rintro c c' new hg ⟨hcounted, hpast⟩
    refine ⟨?_, fun p hp => (hpast p hp).trans_le hg.serials⟩
    rw [hg.log, hg.nextWrite, ← hcounted]
    unfold written
    rw [List.countP_append, Nat.add_comm]
  · rintro c c' new r hg ⟨harrivals, hrequested⟩
    refine ⟨fun a ha => (harrivals a ha).trans_le hg.serials, fun hw a ha p hp hpa => ?_⟩
    rw [hbefore hg]
    exact hrequested hw a ha p hp hpa
  · intro c c' new r hg hr hw a ha
    rw [hbefore hg]
    exact (hr hw a ha).trans_le (hnext hg.toGrows)
  · exact fun hg hattrs => Sourced.congr hattrs (hbefore hg _)
  · rintro c c' uid r hg hkept ⟨harrivals, hrequested⟩
    refine ⟨fun a ha => (harrivals a ha).trans_le hg.serials, fun hw a ha p hp hpa => ?_⟩
    rw [writtenBefore_kept hg ha (hkept.resolve_right (by simp [hw]))]
    exact hrequested hw a ha p hp hpa
  · intro c c' uid r hg hkept hr hw a ha
    rw [writtenBefore_kept hg ha hkept]
    exact (hr hw a ha).trans_le (hnext hg)
  · intro c c' uid attrs hg hkept hattrs
    refine Sourced.congr hattrs ?_
    rw [hg.log]
    refine writtenBefore_cons ?_ _
    cases uid with
    | none => cases hkept
    | some u => simpa [Entry.voids] using hkept
  · intro c r hdiscarded hw
    rw [hw] at hdiscarded
    cases hdiscarded

end Traced

variable {r : PendingRequest}

/-! ## The moves -/

/-- A complete answer is what its last packet completes. -/
theorem content_of_answered {answers : PendingRequest → Bytes → Prop} {c : Core} {a : Arrival}
    (hc : ContentAnswered answers c r a attrs) :
    ∃ data, answers r data ∧ r.content data = some attrs := by
  obtain ⟨ev, ⟨-, -, ⟨assembler, data, rest, complete, hdata, hassembler, hfeed, hev⟩, htype⟩, hparse⟩ :=
    hc.answered
  refine ⟨data, hdata, ?_⟩
  have hfed : (assembler.feed data).2 = .ok (some complete) := by rw [hfeed]
  unfold PendingRequest.content
  simp only [hassembler, hfed, hev, if_pos htype, hparse]
  rfl

theorem mem_sources {fed : List (Arrival × Nat)} {a : Arrival} {write : Nat}
    (h : write ∈ sources fed a) : (a, write) ∈ fed := by
  obtain ⟨p, hp, rfl⟩ := List.mem_map.mp h
  obtain ⟨hp, hpa⟩ := List.mem_filter.mp hp
  have hpa : p.1 = a := by simpa using hpa
  rw [← hpa]
  exact hp

section

variable {fed : List (Arrival × Nat)} {heard : List (NotificationAttributes × List Nat)}
  {answers : PendingRequest → Bytes → Prop}

/-- What the active request was answered with is well sourced. -/
theorem Traced.sourced {c : Core} {strict : Prop} (h : Traced fed heard c) (hp : Private strict c)
    {a : Arrival} (hc : ContentAnswered answers c r a attrs)
    (hheard : ∀ data, answers r data → r.content data = some attrs → (attrs, sources fed a) ∈ heard) :
    Sourced heard attrs c.log := by
  obtain ⟨data, hdata, hcontent⟩ := content_of_answered hc
  obtain ⟨ev, hanswer, -⟩ := hc.answered
  obtain ⟨k, hk⟩ := hp.shaped r (.inr hanswer.active)
  obtain ⟨hid, -⟩ := hk.contentAnswered hc
  refine ⟨_, hheard data hdata hcontent, rfl, fun write hwrite => ?_⟩
  rw [hid]
  exact h.requested r a (.inr hanswer.active) hanswer.wanted hc.notification (a, write)
    (mem_sources hwrite) rfl

/-- **One move** keeps the origins traced, if the packets of this step are on record. -/
theorem traced_move {env : Env} {strict : Prop} {allow : Delicate → Core → Prop} {s s' : Client}
    (hmove : Move env allow answers s s') (hp : Private strict s.core)
    (hheard : ∀ r a attrs data, answers r data → r.discarded = false → r.notification = some a →
      r.content data = some attrs → (attrs, sources fed a) ∈ heard)
    (h : Traced fed heard s.core) : Traced fed heard s'.core := by
  have hmoved := ((Traced.watch_on hp.wanted).mpr h).move (Traced.lawful_watch fed heard) hmove
    ?_ ?_ ?_ ?_
  · exact (Traced.watch_on hmoved.wanted).mp hmoved
  · intro n categories nextRid rid _
    have hserials : (s.core.arrivedLive n categories nextRid).serials = s.core.serials + 1 := by
      obtain ⟨after, before, -, -, heq⟩ := s.core.arrive_eq n
      unfold Core.arrivedLive
      rw [heq]
    refine ⟨fun a ha => ?_, fun _ a ha p hpf hpa => ?_⟩
    · cases ha
      rw [hserials]
      exact Nat.lt_succ_self _
    cases ha
    -- the serial number of the arrival is new
    have hpast := h.past p hpf
    rw [hpa] at hpast
    exact absurd hpast (lt_irrefl _)
  · intro r a ev appId observed nextRid rid hanswer hn _ _
    have hserials : (s.core.probeAnswered env a appId observed nextRid).serials = s.core.serials := by
      show s.core.finishActive.serials = _
      unfold Core.finishActive
      split <;> rfl
    have hlog : writtenBefore a.notification.id
        (s.core.probeAnswered env a appId observed nextRid).log
          = writtenBefore a.notification.id s.core.log := by
      show writtenBefore a.notification.id (_ :: s.core.finishActive.log) = _
      rw [Core.finishActive_log]
      exact writtenBefore_cons rfl _
    refine ⟨fun b hb => ?_, fun _ b hb => ?_⟩
    · cases hb
      rw [hserials]
      exact h.arrivals r a (.inr hanswer.active) hn
    · cases hb
      rw [hlog]
      exact h.requested r a (.inr hanswer.active) hanswer.wanted hn
  · refine fun r rest _ _ => ⟨trivial, fun _ a _ => ?_⟩
    -- what is written now can be answered
    have hle := writtenBefore_le a.notification.id s.core.log
    rw [h.counted] at hle
    exact Nat.lt_succ_of_le hle
  · intro r a attrs hc
    obtain ⟨ev, hanswer, -⟩ := hc.answered
    exact h.sourced hp hc (fun data hd => hheard r a attrs data hd hanswer.wanted hc.notification)

/-- More is on record. -/
theorem Traced.more {heard' : List (NotificationAttributes × List Nat)} {c : Core}
    (h : Traced fed heard c) (hmore : heard ⊆ heard') : Traced fed heard' c := by
  have hsourced : ∀ {attrs log}, Sourced heard attrs log → Sourced heard' attrs log := by
    rintro attrs log ⟨p, hp, hsource⟩
    exact ⟨p, hmore hp, hsource⟩
  refine { h with waiting := fun w hw => hsourced (h.waiting w hw), log := ?_ }
  have hlog := h.log
  revert hlog
  generalize c.log = log
  intro hlog
  induction log with
  | nil => trivial
  | cons e log ih =>
    refine ⟨?_, ih hlog.2⟩
    have he := hlog.1
    cases e with
    | emitted event =>
      obtain ⟨attrs, hshows, hs⟩ := he
      exact ⟨attrs, hshows, hsourced hs⟩
    | _ => trivial

end

/-! ## Every run -/

namespace Hearing

/-- A prompt packet is recorded. -/
theorem traced_hear {h : Hearing} (ht : Traced h.fed h.heard h.client.core) (write : Nat)
    (data : Bytes)
    (hprompt : h.client.core.active.isSome = true → write + 1 = h.client.core.nextWrite) :
    Traced (h.hear write data).fed (h.hear write data).heard h.client.core := by
  unfold hear
  cases hlistens : h.client.listens with
  | none => exact ht
  | some ra =>
    obtain ⟨r, a⟩ := ra
    -- the active request is wanted and about this arrival
    obtain ⟨hactive, hwanted, hn⟩ : h.client.core.active = some r ∧ r.discarded = false
        ∧ r.notification = some a := by
      unfold Client.listens at hlistens
      split at hlistens
      · cases hlistens
      rename_i r' hr'
      split at hlistens
      · rename_i hcurrent
        obtain ⟨a', ha', heq⟩ := Option.map_eq_some_iff.mp hlistens
        cases heq
        simp only [Bool.and_eq_true, Bool.not_eq_true'] at hcurrent
        exact ⟨hr', hcurrent.2, ha'⟩
      · cases hlistens
    have hwrite := hprompt (by rw [hactive]; rfl)
    have hasked := ht.asked r a hactive hwanted hn
    have hfed : Traced ((a, write) :: h.fed) h.heard h.client.core := by
      refine { ht with past := ?_, requested := ?_ }
      · intro p hp
        rcases List.mem_cons.mp hp with rfl | hp
        · exact ht.arrivals r a (.inr hactive) hn
        · exact ht.past p hp
      intro x b hx hw hb p hp hpb
      rcases List.mem_cons.mp hp with rfl | hp
      · cases hpb
        show writtenBefore a.notification.id h.client.core.log ≤ write
        omega
      · exact ht.requested x b hx hw hb p hp hpb
    refine hfed.more ?_
    dsimp only
    split
    · exact List.Subset.refl _
    · exact List.subset_cons_self _ _

/-- The attributes that a packet completes are recorded. -/
theorem mem_hear {h : Hearing} {a : Arrival} {data : Bytes} (write : Nat)
    (hcurrent : h.client.tr.receiversCurrent = true) (hactive : h.client.core.active = some r)
    (hwanted : r.discarded = false) (hn : r.notification = some a)
    (hcontent : r.content data = some attrs) :
    (attrs, sources (h.hear write data).fed a) ∈ (h.hear write data).heard := by
  have hlistens : h.client.listens = some (r, a) := by
    unfold Client.listens
    rw [hactive]
    simp [hcurrent, hwanted, hn]
  unfold hear
  rw [hlistens]
  dsimp only
  rw [hcontent]
  exact .head _

/-- **One step** keeps the origins traced, if its packet is prompt. -/
theorem traced_step {h : Hearing} (input : (Env × Input) × Nat) (hprompt : Prompt h input)
    (hp : Private False h.client.core) (ht : Traced h.fed h.heard h.client.core) :
    Private False (h.step input).client.core
      ∧ Traced (h.step input).fed (h.step input).heard (h.step input).client.core := by
  obtain ⟨⟨env, i⟩, write⟩ := input
  -- what this step adds to the record
  have hrecord : ∃ fed heard, (h.step ((env, i), write)).fed = fed
      ∧ (h.step ((env, i), write)).heard = heard ∧ Traced fed heard h.client.core
      ∧ ∀ r a attrs data, i = .ds data ∧ h.client.tr.receiversCurrent = true
          ∧ h.client.core.active = some r → r.discarded = false → r.notification = some a →
          r.content data = some attrs → (attrs, sources fed a) ∈ heard := by
    refine ⟨_, _, rfl, rfl, ?_, ?_⟩
    · cases i with
      | ds data => exact traced_hear ht write data hprompt
      | _ => exact ht
    · rintro r a attrs data ⟨rfl, hcurrent, hactive⟩ hwanted hn hcontent
      exact mem_hear write hcurrent hactive hwanted hn hcontent
  obtain ⟨fed, heard, hfed, hheard, ht, hrecord⟩ := hrecord
  rw [hfed, hheard]
  have hall : ∀ s', Moves env (allowResume False env) (fun r data => i = .ds data
      ∧ h.client.tr.receiversCurrent = true ∧ h.client.core.active = some r) h.client s' →
      Private False s'.core ∧ Traced fed heard s'.core := by
    intro s' hmoves
    induction hmoves with
    | refl => exact ⟨hp, ht⟩
    | tail _ hmove ih =>
      exact ⟨private_move hmove ih.1 (fun hf => hf.elim), traced_move hmove ih.1 hrecord ih.2⟩
  refine hall _ (moves_step _ _ h.client (env, i) (fun x _ => ?_) (fun data r hi hcurrent hactive => ?_))
  · cases x with
    | busyRetryDue => exact False.elim
    | _ => trivial
  · exact ⟨hi, hcurrent, hactive⟩

theorem traced_initial (previouslyAuthorized : Bool) :
    Traced (initial previouslyAuthorized).fed (initial previouslyAuthorized).heard
      (initial previouslyAuthorized).client.core := by
  have hheld : ∀ r, ¬ (initial previouslyAuthorized).client.core.Holds r := by
    rintro r (hr | hr) <;> cases hr
  refine ⟨rfl, ?_, fun r a hr => absurd hr (hheld r), fun r a hr => absurd hr (hheld r), ?_, ?_, trivial⟩
  · intro p hp
    cases hp
  · intro r a hr
    cases hr
  · rintro w ⟨p, hp, -⟩
    cases hp

end Hearing

/-- **No event is built from attributes that were asked for too early.** In every run in which a Data
Source packet that comes while a request is active answers the command that was written last, every
event shows attributes that were completed by packets which all answer commands written after the
last removal of the notification and the last end of a session before the event. -/
theorem events_from_new_answers (previouslyAuthorized : Bool) (inputs : List ((Env × Input) × Nat))
    (hprompt : Machine.Along Hearing.step Prompt (Hearing.initial previouslyAuthorized) inputs) :
    let h := Machine.run Hearing.step (Hearing.initial previouslyAuthorized) inputs
    Trace.Each (FromHeard h.heard) h.client.core.log := by
  have hrun : Private False (Machine.run Hearing.step (Hearing.initial previouslyAuthorized)
      inputs).client.core ∧ Traced _ _ _ :=
    Machine.invariant (P := fun h => Private False h.client.core ∧ Traced h.fed h.heard h.client.core)
      Hearing.step (fun h input hi hs => Hearing.traced_step input hi hs.1 hs.2) hprompt
      ⟨private_initial False previouslyAuthorized, Hearing.traced_initial previouslyAuthorized⟩
  exact hrun.2.log

/-- The answer to a probe about notification 7: the app is Messages. -/
def probeAnswer : Bytes :=
  [0, 7, 0, 0, 0, 0, 19, 0] ++ encode messagesAppId

/-- Its title and its text. -/
def contentAnswer : Bytes := probeAnswer ++ [1, 1, 0, 65, 2, 0, 0, 3, 1, 0, 66]

/-- The phone answers at once, and the notification is shown; the number with each input is that of
the write it answers. -/
def prompting : List ((Env × Input) × Nat) :=
  connecting.map (fun i => (i, 0)) ++ [(.ns [0, 8, 4, 1, 7, 0, 0, 0], 0), (.writeReply 1, 0),
    (.ds probeAnswer, 1), (.writeReply 2, 0), (.ds contentAnswer, 2)].map
      (fun p => ((friendly true, p.1), p.2))

theorem events_from_new_answers_prompt :
    Trace.Each (FromHeard (Machine.run Hearing.step (Hearing.initial false) prompting).heard)
        (Machine.run Hearing.step (Hearing.initial false) prompting).client.core.log
      ∧ (Machine.run Hearing.step (Hearing.initial false) prompting).heard.map (·.2) = [[2, 1]] := by
  constructor
  · apply events_from_new_answers
    decide +kernel
  · decide +kernel

/-- The phone answers late. The first probe times out before its answer comes, which is then taken for
that to the second one; the content is asked for, and the notification is removed. When the UID is
used again, the content that was asked for before the removal answers the new request. -/
def answeringLate : List ((Env × Input) × Nat) :=
  connecting.map (fun i => (i, 0)) ++ [(.ns [0, 8, 4, 1, 7, 0, 0, 0], 0), (.writeReply 1, 0),
    (.requestTimeout, 0), (.ns [1, 0, 4, 1, 7, 0, 0, 0], 0), (.writeReply 2, 0), (.ds probeAnswer, 1),
    (.writeReply 3, 0), (.ns [2, 0, 4, 1, 7, 0, 0, 0], 0), (.requestTimeout, 0),
    (.ns [0, 0, 4, 1, 7, 0, 0, 0], 0), (.writeReply 4, 0), (.ds probeAnswer, 2), (.writeReply 5, 0),
    (.ds contentAnswer, 3)].map (fun p => ((friendly true, p.1), p.2))

/-- **An event is emitted from attributes that were asked for before the removal.** -/
theorem event_from_old_answer :
    ¬ ∀ (previouslyAuthorized : Bool) (inputs : List ((Env × Input) × Nat)),
      Trace.Each (FromHeard (Machine.run Hearing.step (Hearing.initial previouslyAuthorized)
          inputs).heard)
        (Machine.run Hearing.step (Hearing.initial previouslyAuthorized) inputs).client.core.log := by
  intro hall
  have h := hall false answeringLate
  generalize hrun : Machine.run Hearing.step (Hearing.initial false) answeringLate = s at h
  have hheard : s.heard.map (·.2) = [[3, 2]] := by
    rw [← hrun]
    decide +kernel
  have hbefore : writtenBefore 7 s.client.core.log.tail = 4 := by
    rw [← hrun]
    decide +kernel
  have hlast : ∃ event earlier, s.client.core.log = .emitted event :: earlier
      ∧ event.notificationId = 7 := by
    have hhead : (s.client.core.log.head?.bind (fun e => match e with
        | .emitted event => some event.notificationId
        | _ => none)) = some 7 := by
      rw [← hrun]
      decide +kernel
    cases hlog : s.client.core.log with
    | nil =>
      rw [hlog] at hhead
      cases hhead
    | cons e earlier =>
      rw [hlog] at hhead
      cases e with
      | emitted event => exact ⟨event, earlier, rfl, Option.some.inj hhead⟩
      | _ => cases hhead
  obtain ⟨event, earlier, hlog, hid⟩ := hlast
  rw [hlog] at h hbefore
  obtain ⟨attrs, hshows, p, hp, rfl, hwrites⟩ := h.1
  have hsources : p.2 ∈ s.heard.map (·.2) := List.mem_map_of_mem hp
  rw [hheard, List.mem_singleton] at hsources
  have hlate := hwrites 3 (by rw [hsources]; decide)
  rw [← hshows.1, hid] at hlate
  have hbefore : writtenBefore 7 earlier = 4 := hbefore
  omega

end BlueFerry.Ancs
