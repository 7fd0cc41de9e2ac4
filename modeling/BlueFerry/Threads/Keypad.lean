import BlueFerry.Groups.Candidates
import BlueFerry.Threads.Keys

/-! # Senders spelled on a keypad

A message whose digits spell the title of its notification is marked with the letters
(`sender_alphanumeric`), so that its conversation is under them and not under the digits, which may
be somebody's number. The marking takes the first two messages that the notification can be. A
third one with the same text is marked only if another notification, or the history, names it
(`keypad_marked_iff`).
-/

namespace BlueFerry.Threads

open BlueFerry.Text
open BlueFerry.Groups

/-! ## The first entries of a lookup -/

/-- The entry stands before the other one in its bucket. -/
def Earlier (a b : Candidate) : Prop := a.time < b.time ∨ a.time = b.time ∧ a.index < b.index

instance (a b : Candidate) : Decidable (Earlier a b) := inferInstanceAs (Decidable (_ ∨ _))

/-- The entries of the window that stand before this one: those with the notification's own text
come first, then those whose text is cut. -/
def entriesBefore (candidates : List Candidate) (body : Str) (instant : Int) (c : Candidate) : Nat :=
  let own := (candidates.filter (fun d => d.body = body)).filter (Candidate.within instant)
  let cut := (candidates.filter (fun d => CutTo d.body body)).filter (Candidate.within instant)
  if c.body = body then (own.filter (fun d => Earlier d c)).length
  else own.length + (cut.filter (fun d => Earlier d c)).length

theorem before_total (a b : Candidate) : a.before b ∨ b.before a := by
  unfold Candidate.before
  omega

variable {c : Candidate} {instant : Int} {out : List Event}

theorem before_trans {a b : Candidate} (h : a.before b) (h' : b.before c) : a.before c := by
  unfold Candidate.before at *
  omega

instance : Std.Total Candidate.before := ⟨before_total⟩

instance : IsTrans Candidate Candidate.before := ⟨fun _ _ _ => before_trans⟩

/-- **The place of an entry in a sorted list** is the number of those that are earlier. -/
theorem mem_take_iff {l : List Candidate} (hsorted : l.Pairwise Candidate.before)
    (hindex : (l.map Candidate.index).Nodup) (hc : c ∈ l) (n : Nat) :
    c ∈ l.take n ↔ (l.filter (fun d => Earlier d c)).length < n := by
  induction l generalizing n with
  | nil => exact absurd hc List.not_mem_nil
  | cons a l ih =>
    obtain ⟨hhead, hsorted⟩ := List.pairwise_cons.mp hsorted
    obtain ⟨hfresh, hindex⟩ := List.nodup_cons.mp hindex
    have hne : ∀ d ∈ l, d.index ≠ a.index := fun d hd heq =>
      hfresh (List.mem_map.mpr ⟨d, hd, heq⟩)
    cases n with
    | zero => simp
    | succ n =>
      rw [List.take_succ_cons, List.mem_cons]
      rcases List.mem_cons.mp hc with rfl | hmem
      · have hnone : (c :: l).filter (fun d => Earlier d c) = [] := by
          refine List.filter_eq_nil_iff.mpr (fun d hd hearlier => ?_)
          have hearlier := of_decide_eq_true hearlier
          unfold Earlier at hearlier
          rcases List.mem_cons.mp hd with rfl | hd
          · omega
          have := hhead d hd
          unfold Candidate.before at this
          omega
        rw [hnone]
        exact ⟨fun _ => Nat.succ_pos n, fun _ => Or.inl rfl⟩
      · have hbefore := hhead c hmem
        have hfirst : Earlier a c := by
          have := hne c hmem
          unfold Candidate.before at hbefore
          unfold Earlier
          omega
        have hca : c ≠ a := fun heq => hne c hmem (by rw [heq])
        rw [List.filter_cons_of_pos (by simpa using hfirst), List.length_cons,
          Nat.add_lt_add_iff_right, ← ih hsorted hindex hmem n]
        exact or_iff_right hca

/-- The entries of a bucket in the window, in order. -/
def near (bucket : List Candidate) (instant : Int) : List Candidate :=
  (bucket.insertionSort Candidate.before).filter (Candidate.within instant)

theorem near_perm (bucket : List Candidate) (instant : Int) :
    (near bucket instant).Perm (bucket.filter (Candidate.within instant)) :=
  (List.perm_insertionSort _ bucket).filter _

theorem mem_near {bucket : List Candidate} :
    c ∈ near bucket instant ↔ c ∈ bucket ∧ c.within instant = true := by
  rw [(near_perm bucket instant).mem_iff, List.mem_filter]

theorem mem_take_near {bucket : List Candidate} (hindex : (bucket.map Candidate.index).Nodup) (hc : c ∈ near bucket instant) (n : Nat) :
    c ∈ (near bucket instant).take n ↔
      ((bucket.filter (Candidate.within instant)).filter (fun d => Earlier d c)).length < n := by
  have hsorted : (near bucket instant).Pairwise Candidate.before :=
    (List.pairwise_insertionSort _ bucket).sublist List.filter_sublist
  have hperm := near_perm bucket instant
  have hnodup : ((near bucket instant).map Candidate.index).Nodup :=
    (hperm.map _).nodup_iff.mpr (hindex.sublist (List.filter_sublist.map _))
  rw [mem_take_iff hsorted hnodup hc, (hperm.filter _).length_eq]

variable {i j : Nat} {e : Event}

/-- The entries that are found, in order. -/
theorem matching_two {candidates : List Candidate} {body : Str} :
    i ∈ matching candidates body instant (some 2) ↔
      ∃ c ∈ ((buckets candidates body).flatMap (fun bucket => near bucket instant)).take 2,
        c.index = i := by
  have hmatching : matching candidates body instant (some 2) =
      (((buckets candidates body).flatMap (fun bucket => near bucket instant)).map
        Candidate.index).take 2 := by
    rw [List.map_flatMap]
    rfl
  rw [hmatching, ← List.map_take, List.mem_map]

/-- One of the first two with the text itself. -/
theorem mem_take_own {candidates : List Candidate} {body : Str}
    (hindex : (candidates.map Candidate.index).Nodup) :
    c ∈ (near (candidates.filter (fun d => d.body = body)) instant).take 2 ↔
      c ∈ candidates ∧ c.within instant = true ∧ c.body = body ∧
        entriesBefore candidates body instant c < 2 := by
  constructor
  · intro hc
    have hmem := List.mem_of_mem_take hc
    have hplace := (mem_take_near (hindex.sublist (List.filter_sublist.map _)) hmem 2).mp hc
    obtain ⟨hown, hwithin⟩ := mem_near.mp hmem
    obtain ⟨hcand, hbody⟩ := List.mem_filter.mp hown
    have hbody : c.body = body := by simpa using hbody
    exact ⟨hcand, hwithin, hbody, by rwa [entriesBefore, if_pos hbody]⟩
  rintro ⟨hcand, hwithin, hbody, hfirst⟩
  rw [entriesBefore, if_pos hbody] at hfirst
  have hown : c ∈ candidates.filter (fun d => d.body = body) :=
    List.mem_filter.mpr ⟨hcand, by simpa using hbody⟩
  have hmem := mem_near.mpr ⟨hown, hwithin⟩
  exact (mem_take_near (hindex.sublist (List.filter_sublist.map _)) hmem 2).mpr hfirst

/-- **One of the first two.** -/
theorem mem_matching_two {candidates : List Candidate} {body : Str}
    (hindex : (candidates.map Candidate.index).Nodup) :
    i ∈ matching candidates body instant (some 2) ↔
      ∃ c ∈ candidates, c.Accepts body instant ∧ c.index = i ∧
        entriesBefore candidates body instant c < 2 := by
  rw [matching_two]
  rcases buckets_cases candidates body with ⟨heq, hcut⟩ | ⟨cap, heq, hcut⟩
  · rw [heq, List.flatMap_singleton]
    constructor
    · rintro ⟨c, hc, hi⟩
      obtain ⟨hcand, hwithin, hbody, hplace⟩ := (mem_take_own hindex).mp hc
      exact ⟨c, hcand, ⟨hwithin, Or.inl hbody⟩, hi, hplace⟩
    · rintro ⟨c, hcand, ⟨hwithin, haccept⟩, hi, hplace⟩
      have hbody : c.body = body := haccept.resolve_right (hcut c.body)
      exact ⟨c, (mem_take_own hindex).mpr ⟨hcand, hwithin, hbody, hplace⟩, hi⟩
  have hcutBucket : cutBucket candidates body cap =
      candidates.filter (fun d => CutTo d.body body) := by
    exact List.filter_congr (fun d _ => by simp only [hcut d.body])
  have hlength : (near (candidates.filter (fun d => d.body = body)) instant).length =
      ((candidates.filter (fun d => d.body = body)).filter (Candidate.within instant)).length :=
    (near_perm _ instant).length_eq
  rw [heq, hcutBucket, List.flatMap_cons, List.flatMap_singleton, List.take_append, hlength]
  constructor
  · rintro ⟨c, hc, hi⟩
    rcases List.mem_append.mp hc with hc | hc
    · obtain ⟨hcand, hwithin, hbody, hplace⟩ := (mem_take_own hindex).mp hc
      exact ⟨c, hcand, ⟨hwithin, Or.inl hbody⟩, hi, hplace⟩
    have hmem := List.mem_of_mem_take hc
    obtain ⟨hoff, hwithin⟩ := mem_near.mp hmem
    obtain ⟨hcand, hself⟩ := List.mem_filter.mp hoff
    have hplace := (mem_take_near (hindex.sublist (List.filter_sublist.map _)) hmem _).mp hc
    refine ⟨c, hcand, ⟨hwithin, Or.inr (by simpa using hself)⟩, hi, ?_⟩
    unfold entriesBefore
    dsimp only
    split
    · -- the text is the notification's own as well: then its first place is counted
      refine lt_of_le_of_lt (List.length_filter_le _ _) ?_
      omega
    · omega
  · rintro ⟨c, hcand, ⟨hwithin, haccept⟩, hi, hplace⟩
    refine ⟨c, ?_, hi⟩
    by_cases hbody : c.body = body
    · exact List.mem_append_left _ ((mem_take_own hindex).mpr ⟨hcand, hwithin, hbody, hplace⟩)
    rw [entriesBefore, if_neg hbody] at hplace
    have hoff : c ∈ candidates.filter (fun d => CutTo d.body body) :=
      List.mem_filter.mpr ⟨hcand, by simpa using haccept.resolve_left hbody⟩
    have hmem := mem_near.mpr ⟨hoff, hwithin⟩
    refine List.mem_append_right _ ((mem_take_near (hindex.sublist (List.filter_sublist.map _)) hmem _).mpr ?_)
    omega

/-! ## The passes before and after -/

/-- The letters that every row is marked with. -/
def marks (rows : List Event) : List Str := rows.map (fun e => e.senderAlphanumeric)

theorem marks_set {sms sms' : Event} (hget : out[i]? = some sms)
    (hmark : sms'.senderAlphanumeric = sms.senderAlphanumeric) : marks (out.set i sms') = marks out := by
  unfold marks
  apply List.ext_getElem?
  intro j
  rw [List.getElem?_map, List.getElem?_map, List.getElem?_set]
  by_cases hij : i = j
  · obtain ⟨hlt, -⟩ := List.getElem?_eq_some_iff.mp hget
    rw [if_pos hij, if_pos hlt, ← hij, hget, Option.map_some, Option.map_some, hmark]
  · rw [if_neg hij]

section

variable (lib : Library)

theorem mark_applyRoute (route : Stored) (ev : Event) :
    (NamedGroupRoutes.applyRoute lib route ev).senderAlphanumeric = ev.senderAlphanumeric := by
  unfold NamedGroupRoutes.applyRoute
  cases heldRosterWarning lib route with
  | none => rfl
  | some held => rfl

theorem mark_annotateStored (r : NamedGroupRoutes) (ev : Event) :
    (r.annotateStored lib ev).senderAlphanumeric = ev.senderAlphanumeric := by
  unfold NamedGroupRoutes.annotateStored
  dsimp only
  split
  · rfl
  split
  · split
    · rfl
    split
    · split
      · exact mark_applyRoute lib _ _
      · rfl
    · rfl
  · split
    · exact mark_applyRoute lib _ _
    · split <;> rfl

theorem marks_annotated (events : List Stored) :
    marks (annotated lib events) = events.map (fun s => s.senderAlphanumeric) := by
  unfold marks annotated
  rw [List.map_map]
  exact List.map_congr_left (fun s _ => mark_annotateStored lib _ s.toEvent)

section

variable (resolver : Resolver)

theorem marks_joinMessage (routes : NamedGroupRoutes)
    (st : Join) (event : Event) (layout : Layout) (index : Nat) :
    marks (joinMessage lib resolver routes st event layout index).out = marks st.out := by
  unfold joinMessage
  cases hsms : st.out[index]? with
  | none => rfl
  | some sms =>
    dsimp only
    split
    · rfl
    cases layout with
    | named name => exact marks_set hsms rfl
    | unnamed members =>
      dsimp only
      split <;> exact marks_set hsms rfl

theorem marks_joinGroup (routes : NamedGroupRoutes)
    (rows : List Event) (candidates : List Candidate) (st : Join) (event : Event) :
    marks (joinGroup lib resolver routes rows candidates st event).out = marks st.out := by
  unfold joinGroup
  split
  · rfl
  split
  · dsimp only
    split
    · rfl
    split
    · split
      · rfl
      · exact marks_joinMessage lib resolver routes st event _ _
    · rfl
  · rfl

/-- Nothing is marked before the direct notifications are looked at. -/
theorem marks_before (events : List Stored) :
    marks (markAmbiguous (joined lib resolver events)) =
      events.map (fun s => s.senderAlphanumeric) := by
  have hambiguous : ∀ st : Join, marks (markAmbiguous st) = marks st.out := by
    intro st
    unfold marks markAmbiguous
    apply List.ext_getElem?
    intro j
    rw [List.getElem?_map, List.getElem?_map, List.getElem?_mapIdx, Option.map_map]
    congr 1
    funext e
    dsimp only [Function.comp_apply]
    split <;> rfl
  have hjoined : marks (joined lib resolver events).out = marks (annotated lib events) := by
    apply Aligned.foldl_mem (Q := fun st : Join => marks st.out = marks (annotated lib events))
    · intro event _ st hst
      exact (marks_joinGroup lib resolver _ _ _ st event).trans hst
    · rfl
  rw [hambiguous, hjoined, marks_annotated]

/-- Nothing is marked afterwards. -/
theorem marks_reconcile (known : List (Str × Str)) (routes : NamedGroupRoutes)
    (cache : ContactNames) (rows : List Event) :
    marks (reconcile resolver known routes cache rows) = marks rows := by
  unfold reconcile marks
  have hrow : ∀ tagged row, (reconcileRow tagged row).senderAlphanumeric = row.1.senderAlphanumeric := by
    intro tagged row
    unfold reconcileRow adopt
    split
    · rfl
    split
    · rfl
    · split <;> rfl
  have hfst : (rows.zip (clusters resolver known routes cache rows)).map Prod.fst = rows :=
    List.map_fst_zip (length_clusters resolver known routes cache rows).ge
  generalize rows.zip (clusters resolver known routes cache rows) = tagged at hfst
  rw [← hfst, List.map_map, List.map_map]
  exact List.map_congr_left (fun row _ => hrow tagged row)

end

/-! ## The direct notifications -/

section

variable (candidates : List Candidate)

/-- The notification is no group's and spells the digits of the message at this row, which is one
of the first two it can be. -/
def Names (n : Event) (index : Nat) (senderAddress : Str) : Prop :=
  n.kind = .ancsNotification ∧ n.appId = messagesAppId ∧ layoutOf n.toStored = none ∧
    ∃ time, noticeTime lib n.toStored = some time ∧
      index ∈ matching candidates n.body time (some 2) ∧
        spelledOnKeypad (strip n.title) senderAddress = true

/-- A title that spells digits is not empty. -/
theorem title_of_spelled {title address : Str} (h : spelledOnKeypad title address = true) :
    title ≠ [] := by
  rintro rfl
  nomatch h

theorem nameKeypad_at (title : Str) (found : List Nat)
    (h : out[j]? = some e) : ∃ e', (found.foldl (nameKeypad title) out)[j]? = some e' ∧
      e'.senderAddress = e.senderAddress ∧
        (e'.senderAlphanumeric ≠ [] ↔ e.senderAlphanumeric ≠ [] ∨
          (j ∈ found ∧ spelledOnKeypad title e.senderAddress = true)) := by
  induction found generalizing out e with
  | nil => exact ⟨e, h, rfl, by simp⟩
  | cons i found ih =>
    rw [List.foldl_cons]
    by_cases hnamed : i = j ∧ spelledOnKeypad title e.senderAddress = true
    · obtain ⟨rfl, hspelled⟩ := hnamed
      have hat : (nameKeypad title out i)[i]? = some { e with senderAlphanumeric := title } := by
        unfold nameKeypad
        rw [List.getElem?_modify, h]
        simp [hspelled]
      obtain ⟨e', hget, haddress, hmark⟩ := ih hat
      refine ⟨e', hget, haddress, ?_⟩
      have htitle := title_of_spelled hspelled
      rw [hmark]
      exact ⟨fun _ => Or.inr ⟨.head _, hspelled⟩, fun _ => Or.inl htitle⟩
    have hat : (nameKeypad title out i)[j]? = some e := by
      unfold nameKeypad
      rw [List.getElem?_modify, h]
      by_cases hij : i = j
      · have hspelled : ¬ spelledOnKeypad title e.senderAddress = true := fun hs => hnamed ⟨hij, hs⟩
        simp [hij, hspelled]
      · simp [hij]
    obtain ⟨e', hget, haddress, hmark⟩ := ih hat
    refine ⟨e', hget, haddress, hmark.trans (or_congr_right ?_)⟩
    constructor
    · exact fun hboth => ⟨List.mem_cons_of_mem i hboth.1, hboth.2⟩
    rintro ⟨hmem, hspelled⟩
    rcases List.mem_cons.mp hmem with rfl | hmem
    · exact absurd ⟨rfl, hspelled⟩ hnamed
    · exact ⟨hmem, hspelled⟩

/-- **One notification** marks a row if it names it. -/
theorem linkDirect_at (h : out[j]? = some e) (n : Event) :
    ∃ e', (linkDirect lib candidates out n)[j]? = some e' ∧ e'.senderAddress = e.senderAddress ∧
      (e'.senderAlphanumeric ≠ [] ↔
        e.senderAlphanumeric ≠ [] ∨ Names lib candidates n j e.senderAddress) := by
  unfold linkDirect
  by_cases hother : n.kind ≠ .ancsNotification ∨ n.appId ≠ messagesAppId ∨
      (layoutOf n.toStored).isSome
  · rw [if_pos hother]
    refine ⟨e, h, rfl, (or_iff_left ?_).symm⟩
    rintro ⟨hkind, happ, hdirect, -⟩
    rcases hother with hne | hne | hsome
    · exact hne hkind
    · exact hne happ
    rw [hdirect] at hsome
    nomatch hsome
  rw [if_neg hother]
  simp only [not_or, not_not, Option.not_isSome_iff_eq_none] at hother
  obtain ⟨hkind, happ, hdirect⟩ := hother
  cases htime : noticeTime lib n.toStored with
  | none =>
    refine ⟨e, h, rfl, (or_iff_left ?_).symm⟩
    rintro ⟨-, -, -, time, htime', -⟩
    rw [htime] at htime'
    nomatch htime'
  | some time =>
    dsimp only
    obtain ⟨named, hget, haddress, hmark⟩ := nameKeypad_at (strip n.title)
      (matching candidates n.body time (some 2)) h
    have hnames : Names lib candidates n j e.senderAddress ↔
        j ∈ matching candidates n.body time (some 2) ∧
          spelledOnKeypad (strip n.title) e.senderAddress = true := by
      constructor
      · rintro ⟨-, -, -, time', htime', hmem⟩
        rw [htime] at htime'
        rw [Option.some.inj htime']
        exact hmem
      · exact fun hmem => ⟨hkind, happ, hdirect, time, htime, hmem⟩
    rw [hnames]
    split
    · -- linking the notification's row does not mark anything
      rw [List.getElem?_modify, hget]
      refine ⟨_, rfl, ?_⟩
      split
      · dsimp only
        split <;> exact ⟨haddress, hmark⟩
      · exact ⟨haddress, hmark⟩
    · exact ⟨named, hget, haddress, hmark⟩

/-- The loop over the direct notifications. -/
theorem foldl_linkDirect_at (notices : List Event) (h : out[j]? = some e) :
    ∃ e', (notices.foldl (linkDirect lib candidates) out)[j]? = some e' ∧
      (e'.senderAlphanumeric ≠ [] ↔ e.senderAlphanumeric ≠ [] ∨
        ∃ n ∈ notices, Names lib candidates n j e.senderAddress) := by
  induction notices generalizing out e with
  | nil => exact ⟨e, h, by simp⟩
  | cons n notices ih =>
    obtain ⟨e', hget, haddress, hmark⟩ := linkDirect_at lib candidates h n
    obtain ⟨e'', hget', hmark'⟩ := ih hget
    refine ⟨e'', hget', ?_⟩
    rw [hmark', hmark, haddress, or_assoc]
    simp only [List.mem_cons, exists_eq_or_imp]

end

/-! ## The whole history -/

/-- The index of a history. -/
def entries (events : List Stored) : List Candidate :=
  messageCandidates lib (events.map Stored.toEvent)

/-- A saved roster changes nothing that the index reads. -/
theorem messageCandidates_annotated (events : List Stored) :
    messageCandidates lib (annotated lib events) = entries lib events := by
  unfold messageCandidates entries annotated messageCandidates
  rw [List.zipIdx_map, List.zipIdx_map, List.filterMap_map, List.filterMap_map]
  congr 1
  funext ⟨s, i⟩
  have hsame : SameRow s ((routesOf lib events).annotateStored lib s.toEvent) :=
    NamedGroupRoutes.frozen_annotateStored lib _ _
  have hseen := hsame.field (fun s => seenAtOf lib s) (fun _ => rfl)
  have hbody := hsame.field Stored.body (fun _ => rfl)
  simp only [Function.comp_apply, Prod.map_apply]
  rw [hsame.kind, hseen, hbody]
  rfl

end

/-- A notification takes no roster. -/
theorem mem_annotated_notice {lib : Library} {events : List Stored} {n : Event}
    (hkind : n.kind = .ancsNotification) :
    n ∈ annotated lib events ↔ ∃ s ∈ events, s.toEvent = n := by
  have hself : ∀ s : Stored, s.kind = .ancsNotification →
      (routesOf lib events).annotateStored lib s.toEvent = s.toEvent := by
    intro s hs
    have hsms : (!s.toEvent.kind.isSms) = true := by
      show (!s.kind.isSms) = true
      rw [hs]
      rfl
    unfold NamedGroupRoutes.annotateStored
    rw [if_pos hsms]
  unfold annotated
  rw [List.mem_map]
  constructor
  · rintro ⟨s, hs, heq⟩
    have hsame : SameRow s ((routesOf lib events).annotateStored lib s.toEvent) :=
      NamedGroupRoutes.frozen_annotateStored lib _ _
    have hs' : s.kind = .ancsNotification := by rw [← hsame.kind, heq, hkind]
    exact ⟨s, hs, (hself s hs').symm.trans heq⟩
  · rintro ⟨s, hs, rfl⟩
    exact ⟨s, hs, hself s hkind⟩

/-- A direct notification with the text of a message in the window, whose title spells the digits
that the message came from. -/
structure SpelledBy (lib : Library) (n sms : Stored) (c : Candidate) (time : Int) : Prop where
  kind : n.kind = .ancsNotification
  app : n.appId = messagesAppId
  direct : layoutOf n = none
  timed : noticeTime lib n = some time
  accepts : c.Accepts n.body time
  spelled : spelledOnKeypad (strip n.title) sms.senderAddress = true

/-- Every message that a direct notification spells is marked. -/
def KeypadMarked (lib : Library) (resolver : Resolver) (events : List Stored) : Prop :=
  ∀ c ∈ entries lib events, ∀ sms, events[c.index]? = some sms →
    (∃ n ∈ events, ∃ time, SpelledBy lib n sms c time) →
      ∃ e, (correlateGroupEvents lib resolver events)[c.index]? = some e ∧ e.senderAlphanumeric ≠ []

/-- Each of them is marked in the history, or at most one entry stands before it in the lookup of a
notification that spells it. -/
def KeypadReached (lib : Library) (events : List Stored) : Prop :=
  ∀ c ∈ entries lib events, ∀ sms, events[c.index]? = some sms →
    (∃ n ∈ events, ∃ time, SpelledBy lib n sms c time) →
      sms.senderAlphanumeric ≠ [] ∨
        ∃ n ∈ events, ∃ time, SpelledBy lib n sms c time ∧
          entriesBefore (entries lib events) n.body time c < 2

/-- **When a row is marked.** -/
theorem correlated_mark (lib : Library) (resolver : Resolver) {events : List Stored} (hc : c ∈ entries lib events) {sms : Stored} (hsms : events[c.index]? = some sms) :
    ∃ e, (correlateGroupEvents lib resolver events)[c.index]? = some e ∧
      (e.senderAlphanumeric ≠ [] ↔ sms.senderAlphanumeric ≠ [] ∨
        ∃ n ∈ events, ∃ time, SpelledBy lib n sms c time ∧
          entriesBefore (entries lib events) n.body time c < 2) := by
  -- the row before the direct notifications
  have hbefore := marks_before lib resolver events
  have hmark : ((markAmbiguous (joined lib resolver events))[c.index]?).map
      (fun e => e.senderAlphanumeric) = some sms.senderAlphanumeric := by
    have hat := congrArg (fun l => l[c.index]?) hbefore
    dsimp only [marks] at hat
    rw [List.getElem?_map, List.getElem?_map, hsms] at hat
    exact hat
  obtain ⟨first, hfirst, hfirstMark⟩ := Option.map_eq_some_iff.mp hmark
  have haddress : first.senderAddress = sms.senderAddress := by
    have htrivial : Passes lib events (fun _ _ => True) := by constructor <;> simp
    obtain ⟨s, hs, hsame, -⟩ := Aligned.at_index htrivial.ambiguous_rows hfirst
    rw [hsms] at hs
    rw [Option.some.inj hs]
    exact hsame.senderAddress
  obtain ⟨linkedRow, hlinked, hlinkedMark⟩ := foldl_linkDirect_at lib
    (messageCandidates lib (annotated lib events)) (annotated lib events) hfirst
  -- reconciliation keeps it
  have hafter := marks_reconcile resolver (joined lib resolver events).known (routesOf lib events)
    (joined lib resolver events).cache (linked lib resolver events)
  have hat := congrArg (fun l => l[c.index]?) hafter
  dsimp only [marks] at hat
  rw [List.getElem?_map, List.getElem?_map, show (linked lib resolver events)[c.index]? =
    some linkedRow from hlinked] at hat
  obtain ⟨e, he, heMark⟩ := Option.map_eq_some_iff.mp hat
  refine ⟨e, he, ?_⟩
  rw [heMark, hlinkedMark, hfirstMark, haddress, messageCandidates_annotated]
  refine or_congr_right ⟨?_, ?_⟩
  · rintro ⟨n, hn, hkind, happ, hdirect, time, htime, hmem, hspelled⟩
    obtain ⟨s, hs, rfl⟩ := (mem_annotated_notice hkind).mp hn
    obtain ⟨d, hd, haccepts, hindex, hplace⟩ :=
      (mem_matching_two (nodup_messageCandidates lib _)).mp hmem
    have hsame : d = c := List.inj_on_of_nodup_map (nodup_messageCandidates lib _) hd hc hindex
    rw [hsame] at haccepts hplace
    exact ⟨s, hs, time, ⟨hkind, happ, hdirect, htime, haccepts, hspelled⟩, hplace⟩
  · rintro ⟨s, hs, time, h, hplace⟩
    refine ⟨s.toEvent, (mem_annotated_notice h.kind).mpr ⟨s, hs, rfl⟩, h.kind, h.app, h.direct, time,
      h.timed, ?_, h.spelled⟩
    exact (mem_matching_two (nodup_messageCandidates lib _)).mpr ⟨c, hc, h.accepts, rfl, hplace⟩

/-- **Senders spelled on a keypad.** All messages that a direct notification spells are marked exactly
when each of them is among the first two of such a notification's lookup, or was marked before; and
a marked message of no group is under its letters. -/
theorem keypad_marked_iff (lib : Library) (resolver : Resolver) (events : List Stored) :
    (KeypadMarked lib resolver events ↔ KeypadReached lib events) ∧
      ∀ e ∈ correlateGroupEvents lib resolver events, e.senderAlphanumeric ≠ [] → e.groupKey = [] →
        ∀ key, threadKey resolver e = some key →
          ∃ identity, key = "alphanumeric:".toList ++ identity := by
  refine ⟨⟨?_, ?_⟩, ?_⟩
  · intro h c hc sms hsms hspelled
    obtain ⟨e, he, hmark⟩ := correlated_mark lib resolver hc hsms
    obtain ⟨e', he', hmarked⟩ := h c hc sms hsms hspelled
    rw [he] at he'
    rw [← Option.some.inj he'] at hmarked
    exact hmark.mp hmarked
  · intro h c hc sms hsms hspelled
    obtain ⟨e, he, hmark⟩ := correlated_mark lib resolver hc hsms
    exact ⟨e, he, hmark.mpr (h c hc sms hsms hspelled)⟩
  intro e _ hmark hgroup key hkey
  have hsingle : isGroupEvent e = false := by
    unfold isGroupEvent
    simpa using hgroup
  obtain ⟨x, identity, -, -, ⟨-, hkey⟩ | ⟨hempty, -⟩ | ⟨hempty, -⟩⟩ := threadKey_single hsingle hkey
  · exact ⟨identity, hkey⟩
  · exact absurd hempty hmark
  · exact absurd hempty hmark

/-- Three codes from one service, and the notification of the last one. -/
def serviceHistory : List Stored :=
  [{ kind := .smsReceived, senderAddress := "6262".toList, body := "Code sent".toList,
     seenAt := "2024-05-01T10:00:00+00:00".toList },
   { kind := .smsReceived, senderAddress := "6262".toList, body := "Code sent".toList,
     seenAt := "2024-05-01T10:00:10+00:00".toList },
   { kind := .smsReceived, senderAddress := "6262".toList, body := "Code sent".toList,
     seenAt := "2024-05-01T10:00:20+00:00".toList },
   { kind := .ancsNotification, appId := messagesAppId, title := "MBNA".toList,
     body := "Code sent".toList, seenAt := "2024-05-01T10:00:20+00:00".toList }]

/-- The third one stays under its digits. -/
theorem third_code_is_not_marked :
    ¬ KeypadMarked (plainLibrary []) Resolver.none serviceHistory := by
  intro h
  have hspelled : SpelledBy (plainLibrary [])
      { kind := .ancsNotification, appId := messagesAppId, title := "MBNA".toList,
        body := "Code sent".toList, seenAt := "2024-05-01T10:00:20+00:00".toList }
      { kind := .smsReceived, senderAddress := "6262".toList, body := "Code sent".toList,
        seenAt := "2024-05-01T10:00:20+00:00".toList }
      ⟨1714557620000000, 2, "Code sent".toList⟩ 1714557620000000 := by
    constructor <;> decide +kernel
  obtain ⟨e, he, hmark⟩ := h ⟨1714557620000000, 2, "Code sent".toList⟩ (by decide +kernel) _ rfl
    ⟨_, by decide +kernel, _, hspelled⟩
  have hempty : ((correlateGroupEvents (plainLibrary []) Resolver.none serviceHistory)[2]?).map
      (fun e => e.senderAlphanumeric) = some [] := by decide +kernel
  rw [he] at hempty
  exact hmark (Option.some.inj hempty)

end BlueFerry.Threads
