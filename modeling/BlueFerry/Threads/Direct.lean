import BlueFerry.Text.Json
import BlueFerry.Threads.Keys
import BlueFerry.Threads.Recipients

/-! # Replies to one person

A conversation with one person mixes the addresses of a contact, messages in both directions,
times in several notations and messages that may have been sent to a group. The last pass of
`build_threads` answers the newest received message (`latestIncoming`): the reply goes to its
address, and it waits for a confirmation when that message is ambiguous, under a token that binds
the address and the ambiguous messages.

A row of the history may name any text as its group, also the key of a conversation with one
person, which then has messages of a group in it; so the results are about conversations without
such messages (`Direct`), and `group_row_taken` is the conversation with one.
-/

namespace BlueFerry.Threads

open BlueFerry.Text
open BlueFerry.Groups

/-! ## The token -/

/-- `json.dumps(evidence, separators=(",", ":"))` of `sender_reply_token`. -/
def evidenceJson (address : Str) (pairs : List (List Str)) : Str :=
  '[' :: (dumpsString address ++ dumpsTail (dumpsList dumpsString) pairs)

variable {a b : Str} {lib : Library}

theorem evidenceJson_inj {xs ys : List (List Str)}
    (h : evidenceJson a xs = evidenceJson b ys) : a = b ∧ xs = ys := by
  obtain ⟨haddress, hpairs⟩ := separable_dumpsString a b _ _ (List.cons.inj h).2
  have htail := separable_dumpsStrings.dumpsTail xs ys [] [] (by rw [hpairs])
  exact ⟨haddress, htail.1⟩

/-- What a token says of a message. -/
def Message.evidence (m : Message) : List Str := [m.handle, m.timestamp]

open scoped List in
/-- **The token shows the address and the messages.** -/
theorem senderReplyToken_inj (hdigest : Function.Injective lib.digest)
    (hdumps : lib.dumpsEvidence = evidenceJson) {xs ys : List Message}
    (h : senderReplyToken lib a xs = senderReplyToken lib b ys) :
    a = b ∧ (xs.map Message.evidence).Perm (ys.map Message.evidence) := by
  have htexts := hdigest (List.append_cancel_left h)
  rw [hdumps] at htexts
  obtain ⟨haddress, hsorted⟩ := evidenceJson_inj htexts
  refine ⟨haddress, ?_⟩
  calc xs.map Message.evidence
      _ ~ (xs.map Message.evidence).insertionSort (fun a b => a ≤ b) :=
        (List.perm_insertionSort _ _).symm
      _ = (ys.map Message.evidence).insertionSort (fun a b => a ≤ b) := hsorted
      _ ~ ys.map Message.evidence := List.perm_insertionSort _ _

/-! ## The newest message -/

/-- The instant of `a` is not after the one of `b`; a text that is no time is before all. -/
def NotAfter (lib : Library) (a b : Str) : Prop :=
  orderLe (timestampOrder lib a) (timestampOrder lib b) = true

instance (lib : Library) (a b : Str) : Decidable (NotAfter lib a b) :=
  inferInstanceAs (Decidable (_ = true))

theorem NotAfter.refl (lib : Library) (a : Str) : NotAfter lib a a := by
  unfold NotAfter
  cases timestampOrder lib a with
  | none => rfl
  | some t => simp [orderLe]

theorem NotAfter.trans {c : Str} (h : NotAfter lib a b)
    (h' : NotAfter lib b c) : NotAfter lib a c := by
  unfold NotAfter at *
  cases ha : timestampOrder lib a with
  | none => rfl
  | some s =>
    cases hb : timestampOrder lib b with
    | none => simp [ha, hb, orderLe] at h
    | some t =>
      cases hc : timestampOrder lib c with
      | none => simp [hb, hc, orderLe] at h'
      | some u =>
        simp only [ha, hb, hc, orderLe, decide_eq_true_eq] at h h' ⊢
        omega

theorem NotAfter.total (lib : Library) (a b : Str) : NotAfter lib a b ∨ NotAfter lib b a := by
  unfold NotAfter
  cases timestampOrder lib a with
  | none => exact .inl rfl
  | some s =>
    cases timestampOrder lib b with
    | none => exact .inr rfl
    | some t =>
      simp only [orderLe, decide_eq_true_eq]
      omega

section

variable (lib : Library) (messages : List Message)

/-- The messages in the order of their instants. -/
def inOrder : List Message :=
  messages.insertionSort (fun a b =>
    orderLe (timestampOrder lib a.timestamp) (timestampOrder lib b.timestamp) = true)

theorem pairwise_inOrder :
    (inOrder lib messages).Pairwise (fun a b => NotAfter lib a.timestamp b.timestamp) := by
  have htotal : Std.Total (fun a b : Message => NotAfter lib a.timestamp b.timestamp) :=
    ⟨fun a b => NotAfter.total lib a.timestamp b.timestamp⟩
  have htrans : IsTrans Message (fun a b => NotAfter lib a.timestamp b.timestamp) :=
    ⟨fun _ _ _ h h' => h.trans h'⟩
  exact List.pairwise_insertionSort _ _

/-- `m` is the newest of these messages by instant. -/
def Newest (m : Message) : Prop :=
  m ∈ messages ∧ ∀ m' ∈ messages, NotAfter lib m'.timestamp m.timestamp

/-- `m` is the newest received message, or the newest one where none was received. -/
def Answered (m : Message) : Prop :=
  Newest lib (messages.filter (fun m => !m.outgoing)) m ∨
    ((∀ m' ∈ messages, m'.outgoing = true) ∧ Newest lib messages m)

end

theorem newest_of_pairwise {before after : List Message} {m : Message}
    (h : (before ++ m :: after).Pairwise (fun a b => NotAfter lib a.timestamp b.timestamp))
    {m' : Message} (hm' : m' ∈ before ++ [m]) : NotAfter lib m'.timestamp m.timestamp := by
  rcases List.mem_append.mp hm' with hbefore | hlast
  · exact (List.pairwise_append.mp h).2.2 m' hbefore m (List.mem_cons_self ..)
  rw [List.mem_singleton.mp hlast]
  exact NotAfter.refl lib m.timestamp

/-- **What `latest_incoming` is**, among messages in the order of their instants. -/
theorem latestIncoming_spec {l : List Message}
    (hl : l.Pairwise (fun a b => NotAfter lib a.timestamp b.timestamp)) (hne : l ≠ []) :
    ∃ m, latestIncoming l = some m ∧ m ∈ l ∧ Answered lib l m := by
  unfold latestIncoming
  cases hfind : l.reverse.find? (fun m => !m.outgoing) with
  | some m =>
    obtain ⟨hm, later, earlier, hsplit, hlater⟩ := List.find?_eq_some_iff_append.mp hfind
    have hl' : l = earlier.reverse ++ m :: later.reverse := by
      rw [← List.reverse_reverse l, hsplit]
      simp
    refine ⟨m, rfl, by rw [hl']; simp, .inl ⟨?_, ?_⟩⟩
    · exact List.mem_filter.mpr ⟨by rw [hl']; simp, hm⟩
    intro m' hm'
    obtain ⟨hmem, hincoming⟩ := List.mem_filter.mp hm'
    rw [hl'] at hmem hl
    refine newest_of_pairwise hl ?_
    rcases List.mem_append.mp hmem with hbefore | hrest
    · exact List.mem_append_left _ hbefore
    rcases List.mem_cons.mp hrest with rfl | hafter
    · simp
    have hnot := hlater m' (List.mem_reverse.mp hafter)
    rw [hincoming] at hnot
    cases hnot
  | none =>
    have hout : ∀ m ∈ l, m.outgoing = true := by
      intro m hm
      have hnot := List.find?_eq_none.mp hfind m (List.mem_reverse.mpr hm)
      simpa using hnot
    refine ⟨l.getLast hne, List.getLast?_eq_some_getLast hne, List.getLast_mem hne, .inr ?_⟩
    refine ⟨hout, List.getLast_mem hne, ?_⟩
    intro m' hm'
    have hsplit := List.dropLast_append_getLast hne
    rw [← hsplit] at hl hm'
    exact newest_of_pairwise hl hm'

/-! ## The conversation at the end of the loop -/

section Loop

variable {lib : Library} {resolver : Resolver} {correlated : List Event}

/-- A conversation with one person in which no message names a group. -/
def Direct (resolver : Resolver) (correlated : List Event) (t : Thread) : Prop :=
  t.isGroup = false ∧ ∀ ev ∈ messagesOf resolver correlated t.key, isGroupEvent ev = false

section

variable (ev : Event) (t : Thread)

@[simp]
theorem messages_keepSpelling : (keepSpelling ev t).messages = t.messages := by
  unfold keepSpelling
  split
  · split <;> rfl
  · rfl

@[simp]
theorem messages_nameAlphanumeric : (nameAlphanumeric lib ev t).messages = t.messages := by
  unfold nameAlphanumeric
  split <;> rfl

@[simp]
theorem messages_addMessage :
    (addMessage lib resolver ev t).messages = t.messages ++ [messageOf resolver ev] := by
  unfold addMessage
  dsimp only
  split <;> rfl

theorem messages_extendThread :
    (extendThread lib resolver ev t).messages = t.messages ++ [messageOf resolver ev] := by
  simp [extendThread]

/-- What decides whether a conversation with one person may be answered. -/
def gates (t : Thread) : Bool × Bool := (t.replyReady, t.participantsRequired)

theorem gates_keepSpelling : gates (keepSpelling ev t) = gates t := by
  unfold keepSpelling
  split
  · split <;> rfl
  · rfl

theorem gates_addMessage : gates (addMessage lib resolver ev t) = gates t := by
  unfold addMessage
  dsimp only
  split <;> rfl

end

/-- A sender spelled on a keypad closes it. -/
theorem gates_extendThread {ev : Event} (h : isGroupEvent ev = false) (t : Thread) :
    gates (extendThread lib resolver ev t)
      = (t.replyReady && decide (ev.senderAlphanumeric = []), t.participantsRequired) := by
  unfold extendThread
  rw [gates_addMessage, gates_keepSpelling]
  unfold nameAlphanumeric gates
  by_cases halpha : ev.senderAlphanumeric = []
  · rw [if_neg (by simp [halpha])]
    simp [halpha]
  rw [if_pos (by simp [h, halpha])]
  simp [halpha]

/-- The rest of the messages of a conversation with one person. -/
theorem gates_foldl {rest : List Event} (h : ∀ ev ∈ rest, isGroupEvent ev = false) (t : Thread) :
    gates (rest.foldl (fun t' ev => mergeEvent lib resolver ev t') t)
      = (t.replyReady && decide (∀ ev ∈ rest, ev.senderAlphanumeric = []),
        t.participantsRequired) := by
  induction rest generalizing t with
  | nil => simp [gates]
  | cons ev rest ih =>
    have hev : isGroupEvent ev = false := h ev (by simp)
    have hmerge : mergeEvent lib resolver ev t = extendThread lib resolver ev t := by
      unfold mergeEvent
      rw [if_neg (by simp [hev])]
    have hgates : gates (extendThread lib resolver ev t) = _ := gates_extendThread hev t
    rw [List.foldl_cons, hmerge, ih (fun e he => h e (.tail _ he))]
    rw [gates, Prod.mk.injEq] at hgates
    rw [hgates.1, hgates.2, Bool.and_assoc]
    simp

theorem messages_mergeEvent (ev : Event) (t : Thread) :
    (mergeEvent lib resolver ev t).messages = t.messages ++ [messageOf resolver ev] := by
  unfold mergeEvent
  rw [messages_extendThread]
  split
  · unfold mergeGroup
    dsimp only
    split <;> rfl
  · rfl

/-- The loop puts every message into the conversation of its key, in its order. -/
theorem messages_threadsByKey {t : Thread} (ht : t ∈ threadsByKey lib resolver correlated) :
    t.messages = (messagesOf resolver correlated t.key).map (messageOf resolver) := by
  obtain ⟨first, rest, hmessages, hfold⟩ := thread_fold ht
  have hrest : ∀ u : Thread, (rest.foldl (fun t' ev => mergeEvent lib resolver ev t') u).messages
      = u.messages ++ rest.map (messageOf resolver) := by
    clear hmessages hfold
    induction rest with
    | nil => simp
    | cons ev rest ih =>
      intro u
      rw [List.foldl_cons, ih, messages_mergeEvent]
      simp
  rw [hmessages]
  refine (congrArg Thread.messages hfold).trans ?_
  rw [hrest, messages_extendThread]
  rfl

/-- Every message of a conversation with one person has an address. -/
theorem address_of_direct {t : Thread} (h : Direct resolver correlated t) {ev : Event}
    (hev : ev ∈ messagesOf resolver correlated t.key) :
    ∃ x identity, safeEventAddress ev.toStored = some x ∧ canonicalAddress x = some identity := by
  have hkey := (messageKey_eq_some (mem_messagesOf.mp hev).2).2
  obtain ⟨x, identity, hx, hidentity, _⟩ := threadKey_single (h.2 ev hev) hkey
  exact ⟨x, identity, hx, hidentity⟩

/-- **What the loop leaves** of a conversation with one person. -/
theorem loop_direct {t : Thread} (ht : t ∈ threadsByKey lib resolver correlated)
    (h : Direct resolver correlated t) :
    t.messages = (messagesOf resolver correlated t.key).map (messageOf resolver) ∧
      (t.replyReady = true ↔
        ∀ ev ∈ messagesOf resolver correlated t.key, ev.senderAlphanumeric = []) := by
  obtain ⟨first, rest, hmessages, hfold⟩ := thread_fold ht
  have hdirect : ∀ ev ∈ first :: rest, isGroupEvent ev = false := by
    rw [← hmessages]
    exact h.2
  have hfirst : isGroupEvent first = false := hdirect first (by simp)
  have hrest : ∀ ev ∈ rest, isGroupEvent ev = false := fun ev hev => hdirect ev (.tail _ hev)
  have hmem : first ∈ messagesOf resolver correlated t.key := hmessages ▸ List.mem_cons_self
  obtain ⟨x, identity, hx, _⟩ := address_of_direct h hmem
  refine ⟨messages_threadsByKey ht, ?_⟩
  have hopen : gates (extendThread lib resolver first (openThread resolver t.key first)) = _ :=
    gates_extendThread hfirst _
  have hready : (openThread resolver t.key first).replyReady = true := by
    show (if isGroupEvent first then first.groupReplyReady
      else (safeEventAddress first.toStored).isSome) = true
    rw [hfirst, hx]
    rfl
  have hgates := (congrArg gates hfold).trans (gates_foldl hrest _)
  rw [gates, Prod.mk.injEq] at hgates hopen
  rw [hgates.1, hopen.1, hready, hmessages, List.forall_mem_cons, Bool.true_and,
    Bool.and_eq_true, decide_eq_true_iff, decide_eq_true_iff]

end Loop

/-! ## The returned conversation -/

/-- The last pass on a conversation with one person. -/
theorem settle_direct (lib : Library) (byKey : List Thread) {t : Thread} (h : t.isGroup = false)
    {m : Message} (hm : latestIncoming (inOrder lib t.messages) = some m) :
    (settle lib byKey t).key = t.key ∧ (settle lib byKey t).isGroup = false ∧
      (settle lib byKey t).recipients = [m.address] ∧
      (settle lib byKey t).participantsRequired = t.participantsRequired ∧
      (settle lib byKey t).replyReady = (t.replyReady && !m.maybeGroup && !t.participantsRequired) ∧
      (m.maybeGroup = true → t.replyReady = true → m.address ≠ [] →
        (settle lib byKey t).senderReplyToken = some (senderReplyToken lib m.address
          ((inOrder lib t.messages).filter (·.maybeGroup)))) := by
  have hm' : latestIncoming (t.messages.insertionSort (fun a b =>
      orderLe (timestampOrder lib a.timestamp) (timestampOrder lib b.timestamp) = true)) = some m :=
    hm
  unfold settle settleSingle
  dsimp only
  rw [if_neg (by simp [h]), hm']
  dsimp only
  cases hmaybe : m.maybeGroup with
  | false =>
    refine ⟨rfl, h, rfl, rfl, ?_, nofun⟩
    simp
  | true =>
    refine ⟨rfl, h, rfl, rfl, ?_, ?_⟩
    · simp
    intro _ hready haddress
    simp only [if_true]
    rw [if_pos ⟨hready, haddress⟩]
    rfl

theorem key_settle (lib : Library) (byKey : List Thread) (t : Thread) :
    (settle lib byKey t).key = t.key :=
  (settleSingle_names lib byKey { t with messages := inOrder lib t.messages }).1

section Returned

variable {lib : Library} {resolver : Resolver} {events : List Stored}

/-- The handle and time of each ambiguous message of a conversation. -/
def ambiguousEvidence (resolver : Resolver) (correlated : List Event) (t : Thread) :
    List (List Str) :=
  ((messagesOf resolver correlated t.key).filter (·.groupAmbiguous)).map
    (fun ev => [ev.handle, eventTime ev.toStored])

variable {t : Thread}

/-- The conversation that the last pass has made it of. -/
theorem exists_loop_direct (ht : t ∈ buildThreads lib resolver events)
    (h : Direct resolver (correlateGroupEvents lib resolver events) t) :
    ∃ u ∈ threadsByKey lib resolver (correlateGroupEvents lib resolver events),
      Direct resolver (correlateGroupEvents lib resolver events) u ∧ t.key = u.key ∧
      ∃ starred, t = { settle lib (threadsByKey lib resolver
        (correlateGroupEvents lib resolver events)) u with starred := starred } := by
  obtain ⟨s, hs, hstarred⟩ := mem_sortThreads.mp ht
  have hgroup : t.isGroup = s.isGroup := by rw [hstarred]
  have hkey : t.key = s.key := by rw [hstarred]
  obtain ⟨u, hu, hsettled⟩ := List.mem_map.mp hs
  have hkey' : t.key = u.key := by
    rw [hkey, ← hsettled]
    exact key_settle lib _ u
  have hsingle : u.isGroup = false := by
    by_contra hnot
    have htrue := (settle_group lib (threadsByKey lib resolver
      (correlateGroupEvents lib resolver events)) (Bool.eq_true_of_not_eq_false hnot)).1
    rw [hsettled, ← hgroup, h.1] at htrue
    cases htrue
  refine ⟨u, hu, ⟨hsingle, by rw [← hkey']; exact h.2⟩, hkey', t.starred, ?_⟩
  rw [hsettled, hstarred]

theorem Newest.perm {xs ys : List Message} {m : Message} (h : Newest lib xs m)
    (hperm : xs.Perm ys) : Newest lib ys m :=
  ⟨hperm.mem_iff.mp h.1, fun m' hm' => h.2 m' (hperm.mem_iff.mpr hm')⟩

theorem Answered.perm {xs ys : List Message} {m : Message} (h : Answered lib xs m)
    (hperm : xs.Perm ys) : Answered lib ys m := by
  rcases h with hnewest | ⟨hout, hnewest⟩
  · exact .inl (hnewest.perm (hperm.filter _))
  · exact .inr ⟨fun m' hm' => hout m' (hperm.mem_iff.mpr hm'), hnewest.perm hperm⟩

open scoped List in
/-- **A conversation with one person, as it is returned**, with the message that a reply answers. -/
theorem returned_direct (ht : t ∈ buildThreads lib resolver events)
    (h : Direct resolver (correlateGroupEvents lib resolver events) t) :
    ∃ ev ∈ messagesOf resolver (correlateGroupEvents lib resolver events) t.key,
      Answered lib ((messagesOf resolver (correlateGroupEvents lib resolver events) t.key).map
        (messageOf resolver)) (messageOf resolver ev) ∧
      (∃ x identity, safeEventAddress ev.toStored = some x ∧ canonicalAddress x = some identity ∧
        t.recipients = [x] ∧
        (t.replyReady = true ↔ (∀ e ∈ messagesOf resolver (correlateGroupEvents lib resolver events)
            t.key, e.senderAlphanumeric = []) ∧ ev.groupAmbiguous = false ∧
          t.participantsRequired = false) ∧
        (ev.groupAmbiguous = true →
          (∀ e ∈ messagesOf resolver (correlateGroupEvents lib resolver events) t.key,
            e.senderAlphanumeric = []) →
          ∃ ms : List Message, t.senderReplyToken = some (senderReplyToken lib x ms) ∧
            (ms.map Message.evidence).Perm
              (ambiguousEvidence resolver (correlateGroupEvents lib resolver events) t))) := by
  obtain ⟨u, hu, hdirect, hkey, starred, hstarred⟩ := exists_loop_direct ht h
  clear ht
  generalize correlateGroupEvents lib resolver events = correlated at *
  generalize hbyKey : threadsByKey lib resolver correlated = byKey at hstarred
  obtain ⟨hmessages, hready⟩ := loop_direct hu hdirect
  have hne : inOrder lib u.messages ≠ [] := by
    obtain ⟨first, rest, hmsgs, _⟩ := thread_fold hu
    intro hnil
    have hlength := congrArg List.length hnil
    rw [inOrder, List.length_insertionSort, hmessages, hmsgs] at hlength
    simp at hlength
  obtain ⟨m, hm, hmem, hanswered⟩ := latestIncoming_spec (pairwise_inOrder lib u.messages) hne
  have hperm : (inOrder lib u.messages).Perm u.messages := List.perm_insertionSort _ _
  have hm' : m ∈ u.messages := hperm.mem_iff.mp hmem
  rw [hmessages] at hm'
  obtain ⟨ev, hev, rfl⟩ := List.mem_map.mp hm'
  obtain ⟨x, identity, hx, hidentity⟩ := address_of_direct hdirect hev
  obtain ⟨_, _, hrecipients, hrequired, hreplyReady, htoken⟩ := settle_direct lib byKey hdirect.1 hm
  have haddress : (messageOf resolver ev).address = x := by
    show (safeEventAddress ev.toStored).getD [] = x
    rw [hx]
    rfl
  have hmaybe : ∀ e ∈ messagesOf resolver correlated u.key,
      (messageOf resolver e).maybeGroup = e.groupAmbiguous := by
    intro e he
    show (!isGroupEvent e && e.groupAmbiguous) = e.groupAmbiguous
    rw [hdirect.2 e he]
    rfl
  have htRecipients : t.recipients = [x] := by
    rw [hstarred, ← haddress]
    exact hrecipients
  have htRequired : t.participantsRequired = u.participantsRequired := by
    rw [hstarred]
    exact hrequired
  have htReady : t.replyReady
      = (u.replyReady && !(messageOf resolver ev).maybeGroup && !u.participantsRequired) := by
    rw [hstarred]
    exact hreplyReady
  unfold ambiguousEvidence
  rw [hkey]
  refine ⟨ev, hev, ?_, x, identity, hx, hidentity, htRecipients, ?_, ?_⟩
  · rw [← hmessages]
    exact hanswered.perm hperm
  · rw [htReady, hmaybe ev hev, ← hready, htRequired]
    simp [and_assoc]
  intro hambiguous hnames
  have hnonempty : (messageOf resolver ev).address ≠ [] := by
    rw [haddress]
    rintro rfl
    cases hidentity
  have htoken' := htoken ((hmaybe ev hev).trans hambiguous) (hready.mpr hnames) hnonempty
  refine ⟨(inOrder lib u.messages).filter (·.maybeGroup), ?_, ?_⟩
  · rw [hstarred, ← haddress]
    exact htoken'
  calc ((inOrder lib u.messages).filter (·.maybeGroup)).map Message.evidence
      _ ~ (u.messages.filter (·.maybeGroup)).map Message.evidence := (hperm.filter _).map _
      _ = ((messagesOf resolver correlated u.key).filter (·.groupAmbiguous)).map
          (fun ev => [ev.handle, eventTime ev.toStored]) := by
        rw [hmessages, List.filter_map, List.map_map]
        congr 1
        exact List.filter_congr (fun e he => hmaybe e he)

/-- Nothing but an ambiguous message keeps the conversation from being answered. -/
structure HeldBack (lib : Library) (resolver : Resolver) (events : List Stored) (t : Thread) :
    Prop where
  returned : t ∈ buildThreads lib resolver events
  direct : Direct resolver (correlateGroupEvents lib resolver events) t
  notReady : t.replyReady = false
  named : ∀ ev ∈ messagesOf resolver (correlateGroupEvents lib resolver events) t.key,
    ev.senderAlphanumeric = []
  known : t.participantsRequired = false

/-- A conversation that is held back has a token over its address and its ambiguous messages. -/
theorem HeldBack.token (h : HeldBack lib resolver events t) :
    ∃ x ms, t.recipients = [x] ∧ t.senderReplyToken = some (senderReplyToken lib x ms) ∧
      (ms.map Message.evidence).Perm
        (ambiguousEvidence resolver (correlateGroupEvents lib resolver events) t) := by
  obtain ⟨ev, _, _, x, identity, _, _, hrecipients, hready, htoken⟩ :=
    returned_direct h.returned h.direct
  have hambiguous : ev.groupAmbiguous = true := by
    by_contra hclear
    have hopen := hready.mpr ⟨h.named, Bool.eq_false_of_not_eq_true hclear, h.known⟩
    rw [h.notReady] at hopen
    cases hopen
  obtain ⟨ms, hms, hperm⟩ := htoken hambiguous h.named
  exact ⟨x, ms, hrecipients, hms, hperm⟩

end Returned

/-- The library with a digest that shows its text. -/
def openLibrary : Library :=
  { plainLibrary [] with digest := fun text => text, dumpsEvidence := evidenceJson }

/-- A received message. -/
def fromAlex : List Stored :=
  [{ kind := .smsReceived, handle := "message1".toList, senderAddress := "+15551230001".toList
     body := "Fine".toList, timestamp := "2024-05-01T10:01:00+00:00".toList }]

/-- A later row that names the key of this conversation as its group, without an address. -/
def groupRowTaken : List Stored :=
  fromAlex ++ [{ kind := .smsReceived, handle := "message2".toList
                 groupKey := addressKey "phone:15551230001".toList, body := "Hello".toList
                 timestamp := "2024-05-01T10:02:00+00:00".toList }]

end BlueFerry.Threads
