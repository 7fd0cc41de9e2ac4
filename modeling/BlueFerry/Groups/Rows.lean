import BlueFerry.Lib.Aligned
import BlueFerry.Groups.Correlate

/-! # What correlation does to a row

Every pass of the correlation writes the group data of a row in place and leaves the rest
(`SameRow`). `Passes` lists the forms the writes take. A relation between a stored row and its
copy that holds after saved rosters are applied, and that each form keeps, holds of every
correlated row (`Passes.correlated`); the results about conversations use this rule for the facts
they need about single rows.
-/

namespace BlueFerry.Groups

open BlueFerry.Text

/-! ## What no pass writes -/

/-- A row without the fields that correlation may write. -/
def frozen (s : Stored) : Stored :=
  { s with
    groupKey := []
    groupName := []
    groupMembers := []
    groupRecipients := []
    groupReplyReady := false
    senderAlphanumeric := []
    groupUnexpectedSender := []
    groupRosterWarningId := [] }

/-- A copy that differs from its row in group data only. -/
def SameRow (s : Stored) (e : Event) : Prop := frozen e.toStored = frozen s

variable {e : Event} {s : Stored} {rows : List Event}

/-- A field that is not group data is the row's own. -/
theorem SameRow.field {α : Type} (h : SameRow s e) (f : Stored → α)
    (hf : ∀ x, f (frozen x) = f x) : f e.toStored = f s := by
  rw [← hf e.toStored, ← hf s]
  exact congrArg f h

theorem SameRow.kind (h : SameRow s e) : e.kind = s.kind := h.field Stored.kind (fun _ => rfl)

theorem SameRow.senderAddress (h : SameRow s e) :
    e.senderAddress = s.senderAddress := h.field Stored.senderAddress (fun _ => rfl)

theorem SameRow.senderPhoneNorm (h : SameRow s e) :
    e.senderPhoneNorm = s.senderPhoneNorm := h.field Stored.senderPhoneNorm (fun _ => rfl)

theorem SameRow.safeEventAddress (h : SameRow s e) :
    safeEventAddress e.toStored = safeEventAddress s := by
  unfold Groups.safeEventAddress
  rw [h.senderAddress, h.senderPhoneNorm]

/-! ## Each write leaves the rest of the row -/

namespace NamedGroupRoutes

theorem frozen_applyRoute (lib : Library) (route : Stored) (ev : Event) :
    frozen (applyRoute lib route ev).toStored = frozen ev.toStored := by
  unfold applyRoute
  cases heldRosterWarning lib route with
  | none => rfl
  | some held => rfl

theorem frozen_annotateStored (lib : Library) (r : NamedGroupRoutes) (ev : Event) :
    frozen (annotateStored lib r ev).toStored = frozen ev.toStored := by
  unfold annotateStored
  dsimp only
  split
  · rfl
  split
  · split
    · rfl
    split
    · split
      · exact frozen_applyRoute lib _ _
      · rfl
    · rfl
  · split
    · exact frozen_applyRoute lib _ _
    · split <;> rfl

end NamedGroupRoutes

theorem frozen_adopt (source ev : Event) : frozen (adopt source ev).toStored = frozen ev.toStored := by
  unfold adopt
  split <;> rfl

/-! ## The indices of matched messages -/

theorem mem_messageCandidates {lib : Library} {c : Candidate} (h : c ∈ messageCandidates lib rows) :
    ∃ e, rows[c.index]? = some e ∧ e.kind = .smsReceived ∧ seenAtOf lib e.toStored = some c.time
      ∧ c.body = e.body := by
  rcases List.mem_filterMap.mp h with ⟨⟨e, i⟩, hmem, hc⟩
  split at hc
  · next hkind =>
    rcases Option.map_eq_some_iff.mp hc with ⟨t, ht, rfl⟩
    have hi : rows[i]? = some e := by
      have := List.mk_mem_zipIdx_iff_getElem?.mp hmem
      simpa using this
    exact ⟨e, hi, hkind, ht, rfl⟩
  · cases hc

theorem mem_of_mem_buckets {candidates bucket : List Candidate} {body : Str} {c : Candidate}
    (hb : bucket ∈ buckets candidates body) (hc : c ∈ bucket) : c ∈ candidates := by
  rcases List.mem_cons.mp hb with rfl | hb
  · exact List.mem_of_mem_filter hc
  rcases List.mem_map.mp hb with ⟨cap, _, rfl⟩
  exact List.mem_of_mem_filter hc

theorem exists_of_mem_matching {candidates : List Candidate} {body : Str} {t : Int}
    {limit : Option Nat} {i : Nat} (h : i ∈ matching candidates body t limit) :
    ∃ c ∈ candidates, c.index = i := by
  have hfound : i ∈ (buckets candidates body).flatMap (fun bucket =>
      ((bucket.insertionSort Candidate.before).filter (Candidate.within t)).map
        Candidate.index) := by
    cases limit with
    | none => exact h
    | some n => exact List.mem_of_mem_take h
  rcases List.mem_flatMap.mp hfound with ⟨bucket, hb, hi⟩
  rcases List.mem_map.mp hi with ⟨c, hc, rfl⟩
  have hmem : c ∈ bucket := (List.perm_insertionSort _ bucket).mem_iff.mp (List.mem_of_mem_filter hc)
  exact ⟨c, mem_of_mem_buckets hb hmem, rfl⟩

/-- A notification is matched with received messages only. -/
theorem received_of_matching {lib : Library} {body : Str} {t : Int}
    {limit : Option Nat} {i : Nat} (h : i ∈ matching (messageCandidates lib rows) body t limit) :
    ∃ e, rows[i]? = some e ∧ e.kind = .smsReceived := by
  rcases exists_of_mem_matching h with ⟨c, hc, rfl⟩
  rcases mem_messageCandidates hc with ⟨e, he, hkind, _⟩
  exact ⟨e, he, hkind⟩

/-! ## The forms of a write -/

/-- A relation between stored rows and their copies that every pass keeps. -/
structure Passes (lib : Library) (events : List Stored) (P : Stored → Event → Prop) : Prop where
  /-- saved rosters are applied -/
  onStored : ∀ s ∈ events, P s ((routesOf lib events).annotateStored lib s.toEvent)
  /-- a notification's row is linked -/
  onLink : ∀ s e ids, P s e → P s { e with correlatedAncsRowIds := ids }
  /-- a message of a named group is joined -/
  onReceived : ∀ s e name title, s.kind = .smsReceived → P s e →
    P s ((routesOf lib events).received lib name title (safeEventAddress e.toStored) e)
  /-- a message of an unnamed group with a saved roster is joined -/
  onReceivedUnnamed : ∀ s e members name title, s.kind = .smsReceived →
    (routesOf lib events).hasRoute (unnamedGroupKey lib members) = true → P s e →
    P s ((routesOf lib events).receivedUnnamed lib (unnamedGroupKey lib members) name title
      (safeEventAddress e.toStored) e)
  /-- a message of an unnamed group without one is joined -/
  onUnnamed : ∀ s e members title verified roster, s.kind = .smsReceived →
    (routesOf lib events).hasRoute (unnamedGroupKey lib members) = false → P s e →
    P s (annotateUnnamed lib members title verified (safeEventAddress e.toStored) roster e)
  /-- a message may belong to a group notification -/
  onAmbiguous : ∀ s e, s.kind = .smsReceived → P s e → P s { e with groupAmbiguous := true }
  /-- the sender was spelled on a keypad -/
  onKeypad : ∀ s e name, s.kind = .smsReceived → P s e → P s { e with senderAlphanumeric := name }
  /-- the ready view of a group replaces a provisional one -/
  onAdopted : ∀ s e s' source, s.kind.isSms = true → e.groupOrigin ≠ .named →
    (routesOf lib events).hasRoute e.groupKey = false → P s' source →
    source.groupReplyReady = true → 2 ≤ (recipientSignature source).length → P s e →
    P s (adopt source e)

namespace Passes

variable {lib : Library} {resolver : Resolver} {events : List Stored}
  {P : Stored → Event → Prop}

/-- The relation the passes are shown to keep: the rest of the row is the same as well. -/
def Both (P : Stored → Event → Prop) (s : Stored) (e : Event) : Prop := SameRow s e ∧ P s e

theorem annotated_rows (h : Passes lib events P) :
    List.Forall₂ (Both P) events (annotated lib events) := by
  unfold Groups.annotated
  rw [List.forall₂_map_right_iff, List.forall₂_same]
  intro s hs
  exact ⟨NamedGroupRoutes.frozen_annotateStored lib _ _, h.onStored s hs⟩

/-- A matched index is the position of a received message in the stored rows as well. -/
theorem source_received (hrows : List.Forall₂ SameRow events (annotated lib events)) {body : Str}
    {t : Int} {limit : Option Nat} {i : Nat}
    (hi : i ∈ matching (messageCandidates lib (annotated lib events)) body t limit) :
    ∀ s, events[i]? = some s → s.kind = .smsReceived := by
  intro s hs
  rcases received_of_matching hi with ⟨e, he, hkind⟩
  rcases Aligned.at_index hrows he with ⟨s', hs', hsame⟩
  rw [hs, Option.some.injEq] at hs'
  rw [hs', ← hsame.kind, hkind]

variable {event : Event}

theorem joinMessage_rows (h : Passes lib events P) {st : Join} {layout : Layout}
    {index : Nat} (hkind : ∀ s, events[index]? = some s → s.kind = .smsReceived)
    (hst : List.Forall₂ (Both P) events st.out) : List.Forall₂ (Both P) events
      (joinMessage lib resolver (routesOf lib events) st event layout index).out := by
  unfold joinMessage
  cases hsms : st.out[index]? with
  | none => exact hst
  | some sms =>
    dsimp only
    split
    · exact hst
    rcases Aligned.at_index hst hsms with ⟨s, hs, hsame, hP⟩
    have hreceived := hkind s hs
    -- The row with the notification's row linked; its sender is the same.
    have hlinked : P s { sms with
        correlatedAncsRowIds := sms.correlatedAncsRowIds ++ event.rowId.toList } :=
      h.onLink s sms _ hP
    have hset : ∀ e, frozen e.toStored = frozen sms.toStored → P s e →
        List.Forall₂ (Both P) events (st.out.set index e) := by
      intro e hfrozen hPe
      apply Aligned.set hst
      intro s' hs'
      rw [hs, Option.some.injEq] at hs'
      rw [← hs']
      exact ⟨hfrozen.trans hsame, hPe⟩
    cases layout with
    | named name =>
      exact hset _ rfl (h.onReceived s _ name (strip event.title) hreceived hlinked)
    | unnamed members =>
      dsimp only
      split
      · next hroute =>
        exact hset _ rfl (h.onReceivedUnnamed s _ members _ _ hreceived hroute hlinked)
      · next hroute =>
        rw [Bool.not_eq_true] at hroute
        exact hset _ rfl (h.onUnnamed s _ members _ _ _ hreceived hroute hlinked)

theorem joinGroup_rows (h : Passes lib events P) {st : Join}
    (hst : List.Forall₂ (Both P) events st.out) :
    List.Forall₂ (Both P) events (joinGroup lib resolver (routesOf lib events)
      (annotated lib events) (messageCandidates lib (annotated lib events)) st event).out := by
  have hrows := Aligned.mono h.annotated_rows (fun _ _ _ hb => hb.1)
  unfold joinGroup
  split
  · exact hst
  split
  · next layout time _ _ =>
    dsimp only
    split
    · exact hst
    split
    · next index hfound =>
      split
      · exact hst
      refine h.joinMessage_rows ?_ hst
      exact source_received hrows (hfound ▸ List.mem_singleton_self index)
    · exact hst
  · exact hst

/-- Only messages that a notification was matched with are ever ambiguous. -/
theorem joinGroup_ambiguous {rows : List Event} {st : Join}
    (hst : ∀ i ∈ st.ambiguous, ∃ e, rows[i]? = some e ∧ e.kind = .smsReceived) :
    ∀ i ∈ (joinGroup lib resolver (routesOf lib events) rows (messageCandidates lib rows)
      st event).ambiguous, ∃ e, rows[i]? = some e ∧ e.kind = .smsReceived := by
  have hjoin : ∀ layout index, (joinMessage lib resolver (routesOf lib events) st event layout
      index).ambiguous = st.ambiguous := by
    intro layout index
    unfold joinMessage
    split
    · rfl
    dsimp only
    split
    · rfl
    split
    · rfl
    · split <;> rfl
  unfold joinGroup
  split
  · exact hst
  split
  · next layout time _ _ =>
    dsimp only
    have hunsure : ∀ i ∈ st.ambiguous ++ (matching (messageCandidates lib rows) event.body time
        none).filter (fun i => rows[i]?.any (fun sms => namesAgree event.toStored sms.toStored)),
        ∃ e, rows[i]? = some e ∧ e.kind = .smsReceived := by
      intro i hi
      rcases List.mem_append.mp hi with hi | hi
      · exact hst i hi
      · exact received_of_matching (List.mem_of_mem_filter hi)
    split
    · exact hst
    split
    · split
      · exact hunsure
      rw [hjoin]
      exact hst
    · exact hunsure
  · exact hst

theorem joined_ambiguous (events : List Stored) :
    ∀ i ∈ (joined lib resolver events).ambiguous,
      ∃ e, (annotated lib events)[i]? = some e ∧ e.kind = .smsReceived := by
  apply Aligned.foldl_mem (Q := fun st : Join => ∀ i ∈ st.ambiguous,
    ∃ e, (annotated lib events)[i]? = some e ∧ e.kind = .smsReceived)
  · intro event _ st hst
    exact joinGroup_ambiguous hst
  · intro i hi
    cases hi

section

variable (h : Passes lib events P)
include h

theorem joined_rows : List.Forall₂ (Both P) events (joined lib resolver events).out := by
  apply Aligned.foldl_mem (Q := fun st : Join => List.Forall₂ (Both P) events st.out)
  · intro event _ st hst
    exact h.joinGroup_rows hst
  · exact h.annotated_rows

theorem ambiguous_rows :
    List.Forall₂ (Both P) events (markAmbiguous (joined lib resolver events)) := by
  have hrows := Aligned.mono h.annotated_rows (fun _ _ _ hb => hb.1)
  have hjoined : List.Forall₂ (Both P) events (joined lib resolver events).out := h.joined_rows
  unfold markAmbiguous
  rw [List.mapIdx_eq_zipIdx_map]
  rw [List.forall₂_iff_get]
  refine ⟨?_, ?_⟩
  · rw [List.length_map, List.length_zipIdx]
    exact hjoined.length_eq
  intro i hi hi'
  have hlt : i < (joined lib resolver events).out.length := hjoined.length_eq ▸ hi
  have hboth : Both P (events.get ⟨i, hi⟩) ((joined lib resolver events).out.get ⟨i, hlt⟩) :=
    hjoined.get hi hlt
  simp only [List.get_eq_getElem, List.getElem_map, List.getElem_zipIdx, Nat.zero_add]
  split
  · next hmem =>
    rcases joined_ambiguous events i hmem.1 with ⟨e, he, hkind⟩
    rcases Aligned.at_index hrows he with ⟨s, hs, hsame⟩
    have hreceived : (events.get ⟨i, hi⟩).kind = .smsReceived := by
      rw [List.getElem?_eq_getElem hi, Option.some.injEq] at hs
      rw [List.get_eq_getElem, hs, ← hsame.kind, hkind]
    exact ⟨hboth.1, h.onAmbiguous _ _ hreceived hboth.2⟩
  · exact hboth

theorem nameKeypad_rows {out : List Event} {title : Str} {found : List Nat}
    (hfound : ∀ i ∈ found, ∀ s, events[i]? = some s → s.kind = .smsReceived)
    (hout : List.Forall₂ (Both P) events out) :
    List.Forall₂ (Both P) events (found.foldl (nameKeypad title) out) := by
  apply Aligned.foldl_mem (Q := fun out => List.Forall₂ (Both P) events out) _ hout
  intro i hi out hout
  apply Aligned.modify hout
  intro s e hs _ hboth
  split
  · exact ⟨hboth.1, h.onKeypad s e title (hfound i hi s hs) hboth.2⟩
  · exact hboth

theorem linkDirect_rows {out : List Event}
    (hout : List.Forall₂ (Both P) events out) : List.Forall₂ (Both P) events
      (linkDirect lib (messageCandidates lib (annotated lib events)) out event) := by
  have hrows := Aligned.mono h.annotated_rows (fun _ _ _ hb => hb.1)
  unfold linkDirect
  split
  · exact hout
  split
  · exact hout
  · next time _ =>
    dsimp only
    have hnamed : List.Forall₂ (Both P) events
        ((matching (messageCandidates lib (annotated lib events)) event.body time (some 2)).foldl
          (nameKeypad (strip event.title)) out) :=
      h.nameKeypad_rows (fun i hi => source_received hrows hi) hout
    split
    · apply Aligned.modify hnamed
      intro s e _ _ hboth
      split
      · exact ⟨hboth.1, h.onLink s e _ hboth.2⟩
      · exact hboth
    · exact hnamed

theorem linked_rows : List.Forall₂ (Both P) events (linked lib resolver events) := by
  apply Aligned.foldl_mem (Q := fun out => List.Forall₂ (Both P) events out)
  · intro event _ out hout
    exact h.linkDirect_rows hout
  · exact h.ambiguous_rows

end

end Passes

/-! ## Reconciliation -/

theorem length_clusters (resolver : Resolver) (known : List (Str × Str))
    (routes : NamedGroupRoutes) (cache : ContactNames) (rows : List Event) :
    (clusters resolver known routes cache rows).length = rows.length := by
  induction rows generalizing cache with
  | nil => rfl
  | cons e rows ih =>
    show (clusters resolver known routes _ rows).length + 1 = rows.length + 1
    rw [ih]

/-- A row of a cluster is a message that keeps neither a group's name nor a saved key. -/
theorem clusterOf_eq_some {resolver : Resolver} {known : List (Str × Str)}
    {routes : NamedGroupRoutes} {cache : ContactNames} {ev : Event} {roster : List Str}
    (h : (clusterOf resolver known routes cache ev).1 = some roster) :
    ev.kind.isSms = true ∧ ev.groupOrigin ≠ .named ∧ routes.hasRoute ev.groupKey = false := by
  unfold clusterOf at h
  dsimp only at h
  split at h
  · cases h
  · next hkeep =>
    simp only [not_or, Bool.not_eq_true] at hkeep
    have hsms : ev.kind.isSms = true := by simpa using hkeep.1
    exact ⟨hsms, hkeep.2.1, hkeep.2.2.1⟩

theorem mem_zip_clusters {resolver : Resolver} {known : List (Str × Str)}
    {routes : NamedGroupRoutes} {cache : ContactNames} {ev : Event} {roster : List Str}
    (h : (ev, some roster) ∈ rows.zip (clusters resolver known routes cache rows)) :
    ev.kind.isSms = true ∧ ev.groupOrigin ≠ .named ∧ routes.hasRoute ev.groupKey = false := by
  induction rows generalizing cache with
  | nil => cases h
  | cons e rows ih =>
    have hzip : (e :: rows).zip (clusters resolver known routes cache (e :: rows))
        = (e, (clusterOf resolver known routes cache e).1)
          :: rows.zip (clusters resolver known routes
              (clusterOf resolver known routes cache e).2 rows) := rfl
    rw [hzip] at h
    rcases List.mem_cons.mp h with h | h
    · rw [Prod.mk.injEq] at h
      rw [h.1]
      exact clusterOf_eq_some h.2.symm
    · exact ih h

/-- The source of a cluster is one of its rows, and it is ready. -/
theorem verifiedSource_eq_some {grouped : List Event} {source : Event}
    (h : verifiedSource grouped = some source) :
    source ∈ grouped ∧ source.groupReplyReady = true ∧ 2 ≤ (recipientSignature source).length := by
  unfold verifiedSource at h
  split at h
  · cases h
  · next first rest hready =>
    split at h
    · rw [Option.some.injEq] at h
      have hmem : first ∈ grouped.filter
          (fun e => e.groupReplyReady ∧ 2 ≤ (recipientSignature e).length) :=
        hready ▸ List.mem_cons_self
      rcases List.mem_filter.mp hmem with ⟨hfirst, hcond⟩
      rw [decide_eq_true_eq] at hcond
      exact h ▸ ⟨hfirst, hcond⟩
    · cases h

namespace Passes

variable {lib : Library} {resolver : Resolver} {events : List Stored}
  {P : Stored → Event → Prop}

theorem reconciled_rows (h : Passes lib events P) {known : List (Str × Str)}
    {cache : ContactNames} {rows : List Event} (hrows : List.Forall₂ (Both P) events rows) :
    List.Forall₂ (Both P) events (reconcile resolver known (routesOf lib events) cache rows) := by
  unfold reconcile
  rw [List.forall₂_iff_get]
  have hlen : (rows.zip (clusters resolver known (routesOf lib events) cache rows)).length
      = rows.length := by
    rw [List.length_zip, length_clusters, min_self]
  refine ⟨?_, ?_⟩
  · rw [List.length_map, hlen]
    exact hrows.length_eq
  intro i hi hi'
  have hlt : i < rows.length := hrows.length_eq ▸ hi
  have hboth : Both P (events.get ⟨i, hi⟩) (rows.get ⟨i, hlt⟩) := hrows.get hi hlt
  simp only [List.get_eq_getElem, List.getElem_map, List.getElem_zip] at hboth ⊢
  set tagged := rows.zip (clusters resolver known (routesOf lib events) cache rows) with htagged
  unfold reconcileRow
  split
  · exact hboth
  · next roster htag =>
    split
    · exact hboth
    · next source hsource =>
      have hmem : (rows[i], some roster) ∈ tagged := by
        rw [← htag, htagged, ← List.getElem_zip (h := by rw [hlen]; exact hlt)]
        exact List.getElem_mem _
      rcases mem_zip_clusters hmem with ⟨hsms, horigin, hroute⟩
      rcases verifiedSource_eq_some hsource with ⟨hgrouped, hready, hsig⟩
      rcases List.mem_map.mp hgrouped with ⟨pair, hpair, rfl⟩
      have hpair' := List.mem_of_mem_filter hpair
      rcases pair with ⟨source, tag⟩
      rcases Aligned.of_mem hrows (List.of_mem_zip hpair').1 with ⟨s', _, _, hP'⟩
      refine ⟨(frozen_adopt _ _).trans hboth.1, ?_⟩
      apply h.onAdopted _ _ s' source _ horigin hroute hP' hready hsig hboth.2
      rw [← hboth.1.kind]
      exact hsms

/-- **Row rule.** What holds of the rows with saved rosters applied, and is kept by every form of
a write, holds of every correlated row and the stored row it is a copy of. -/
theorem correlated (h : Passes lib events P) (resolver : Resolver) :
    List.Forall₂ (fun s e => SameRow s e ∧ P s e) events
      (correlateGroupEvents lib resolver events) := by
  exact h.reconciled_rows h.linked_rows

end Passes

end BlueFerry.Groups
