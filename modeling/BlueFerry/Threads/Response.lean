import BlueFerry.Text.JsonValue

/-! # The answer that fits the bus

`bound_thread_response` (`threads.py`): the first threads whose headers fit, and then their newest
messages, one for each thread in a round, until nothing more fits. The answer takes no more than the
limit. What is left out would not have fitted, where the flags that say so are counted as `false`,
as they are while the messages are chosen.

The threads of a round are a flag of each item instead of a list of their positions, which is always
in order.
-/

namespace BlueFerry.Response

open BlueFerry.Text

/-! ## Threads -/

def messagesKey : Str := "messages".toList
def flagKey : Str := "messages_truncated".toList

/-- A thread as the bus gets it: its messages are a list, if they are there. -/
structure ThreadDict where
  fields : Dict Str Json
  listed : ∀ value, fields.get? messagesKey = some value → ∃ items, value = .list items

namespace ThreadDict

/-- `thread.get("messages", [])` -/
def messages (t : ThreadDict) : List Json :=
  match t.fields.get? messagesKey with
  | some (.list items) => items
  | _ => []

/-- `bool(thread.get("messages_truncated"))` -/
def truncated (t : ThreadDict) : Bool :=
  match t.fields.get? flagKey with
  | some value => value.truthy
  | none => false

/-- `{**thread, "messages": [], "messages_truncated": False}` -/
def header (t : ThreadDict) : Dict Str Json :=
  (t.fields.set messagesKey (.list [])).set flagKey (.bool false)

def headerSize (t : ThreadDict) : Nat := jsonSize (.object t.header.items)

end ThreadDict

/-- An item of the result, with the messages that it has, newest first. -/
structure Item where
  thread : ThreadDict
  kept : List Json := []
  /-- it is in the next round -/
  pending : Bool := true

namespace Item

section

variable (e : Item)

/-- The header with these messages and this flag. -/
def dict (messages : List Json) (flag : Bool) : Dict Str Json :=
  (e.thread.header.set messagesKey (.list messages)).set flagKey (.bool flag)

/-- `messages[-len(kept) - 1]`, if there are more than were kept -/
def next : Option Json := e.thread.messages.reverse[e.kept.length]?

/-- What one more message takes. -/
def cost (message : Json) : Nat :=
  jsonSize message + if e.kept = [] then 0 else 1

/-- It is in no further round. -/
def stopped : Item := { e with pending := false }

/-- It gets one more message. -/
def takes (message : Json) : Item := { e with kept := e.kept ++ [message] }

/-- One thread of a round, with what remains. -/
def offer (remaining : Nat) (e : Item) : Nat × Item :=
  if e.pending = false then (remaining, e)
  else
    match e.next with
    | none => (remaining, e.stopped)
    | some message =>
      if e.cost message ≤ remaining then (remaining - e.cost message, e.takes message)
      else (remaining, e.stopped)

/-- The item with its messages in order and its flag. -/
def finished : Dict Str Json :=
  e.dict e.kept.reverse
    (e.thread.truncated || decide (e.kept.length < e.thread.messages.length))

end

end Item

/-! ## The answer -/

/-- The threads whose headers fit, and what remains; `more` says that others stand before. -/
def fitting (remaining : Nat) (more : Bool) : List ThreadDict → List ThreadDict × Nat
  | [] => ([], remaining)
  | t :: threads =>
    let cost := t.headerSize + if more then 1 else 0
    if remaining < cost then ([], remaining)
    else
      let rest := fitting (remaining - cost) true threads
      (t :: rest.1, rest.2)

/-- One round. -/
def offerAll (remaining : Nat) : List Item → Nat × List Item
  | [] => (remaining, [])
  | e :: items =>
    let first := e.offer remaining
    let rest := offerAll first.1 items
    (rest.1, first.2 :: rest.2)

/-- The rounds, as long as a thread is pending. -/
def rounds : Nat → Nat → List Item → Nat × List Item
  | 0, remaining, items => (remaining, items)
  | fuel + 1, remaining, items =>
    if items.any Item.pending then
      let round := offerAll remaining items
      rounds fuel round.1 round.2
    else (remaining, items)

/-- The messages that an item can still get, and the round in which it gets none. -/
def Item.work (e : Item) : Nat :=
  e.thread.messages.length - e.kept.length + if e.pending then 1 else 0

def work (items : List Item) : Nat := (items.map Item.work).sum

/-- The items before they are finished. -/
def bounded (threads : List ThreadDict) (maxBytes : Nat) : List Item :=
  let first := fitting (maxBytes - 2) false threads
  let items := first.1.map (fun t => ({ thread := t } : Item))
  (rounds (work items) first.2 items).2

/-- `bound_thread_response` -/
def boundThreadResponse (threads : List ThreadDict) (maxBytes : Nat) : List (Dict Str Json) :=
  (bounded threads maxBytes).map Item.finished

/-! ## What the answer takes -/

/-- The bytes of an answer. -/
def answerSize (answer : List (Dict Str Json)) : Nat :=
  jsonSize (.list (answer.map (fun d => .object d.items)))

/-- What the items take while their flags are `false`. -/
def weight (items : List Item) : Nat := answerSize (items.map (fun e => e.dict e.kept false))

/-- The item with its newest `n` messages at most. -/
def Item.upTo (n : Nat) (e : Item) : Item := { e with kept := e.kept.take n }

/-- What messages take in their list. -/
def spent (kept : List Json) : Nat := jsonSizes kept + (kept.length - 1)

variable {maxBytes remaining j : Nat} {e : Item} {items done rest : List Item}

theorem keys_ne : messagesKey ≠ flagKey := by decide

theorem size_dict (e : Item) (messages : List Json) (flag : Bool) :
    jsonSize (.object (e.dict messages flag).items) + 5 =
      e.thread.headerSize + spent messages + jsonSize (.bool flag) := by
  have hempty : e.thread.header.get? messagesKey = some (.list []) := by
    unfold ThreadDict.header
    rw [Dict.get?_set, if_neg keys_ne, Dict.get?_set, if_pos rfl]
  have hfalse : (e.thread.header.set messagesKey (.list messages)).get? flagKey =
      some (.bool false) := by
    unfold ThreadDict.header
    rw [Dict.get?_set, if_neg keys_ne.symm, Dict.get?_set, if_pos rfl]
  have hmessages := jsonSize_set hempty (.list messages)
  have hflag := jsonSize_set hfalse (.bool flag)
  have hnil : jsonSize (.list []) = 2 := rfl
  have hfive : jsonSize (.bool false) = 5 := rfl
  have hlist := jsonSize_list messages
  unfold Item.dict spent ThreadDict.headerSize
  omega

theorem size_flag (flag : Bool) : jsonSize (.bool flag) ≤ 5 := by
  cases flag <;> decide

/-- The bytes of one item with a `false` flag. -/
def Item.weight (e : Item) : Nat := e.thread.headerSize + spent e.kept

theorem weight_eq (items : List Item) :
    weight items = 2 + (items.map Item.weight).sum + (items.length - 1) := by
  unfold weight answerSize
  rw [jsonSize_list, List.map_map, List.length_map]
  unfold jsonSizes
  rw [List.map_map]
  have hitem : ∀ e ∈ items, (jsonSize ∘ (fun d => Json.object d.items) ∘
      fun e => e.dict e.kept false) e = e.weight := by
    intro e _
    have hsize := size_dict e e.kept false
    have hfive : jsonSize (.bool false) = 5 := rfl
    rw [hfive] at hsize
    show jsonSize (.object (e.dict e.kept false).items) = _
    unfold Item.weight
    omega
  rw [List.map_congr_left hitem]

theorem spent_snoc (kept : List Json) (message : Json) :
    spent (kept ++ [message]) = spent kept + (jsonSize message + if kept = [] then 0 else 1) := by
  unfold spent
  rw [jsonSizes_append, List.length_append, List.length_singleton]
  have hone : jsonSizes [message] = jsonSize message := rfl
  cases kept with
  | nil => simp [jsonSizes]
  | cons first kept =>
    rw [if_neg (List.cons_ne_nil _ _), hone, List.length_cons]
    omega

theorem spent_prefix {kept kept' : List Json} (h : kept <+: kept') : spent kept ≤ spent kept' := by
  obtain ⟨more, rfl⟩ := h
  unfold spent
  rw [jsonSizes_append, List.length_append]
  omega

/-- The answer itself takes no more than what was counted. -/
theorem answerSize_finished (items : List Item) :
    answerSize (items.map Item.finished) ≤ weight items := by
  rw [weight_eq]
  unfold answerSize
  rw [jsonSize_list, List.map_map, List.length_map]
  unfold jsonSizes
  rw [List.map_map]
  have hsum : (items.map (jsonSize ∘ (fun d => Json.object d.items) ∘ Item.finished)).sum ≤
      (items.map Item.weight).sum := by
    apply List.sum_le_sum
    intro e _
    have hsize := size_dict e e.kept.reverse
      (e.thread.truncated || decide (e.kept.length < e.thread.messages.length))
    have hflag := size_flag
      (e.thread.truncated || decide (e.kept.length < e.thread.messages.length))
    have hreverse : spent e.kept.reverse = spent e.kept := by
      unfold spent
      rw [jsonSizes_perm (List.reverse_perm _), List.length_reverse]
    show jsonSize (.object e.finished.items) ≤ _
    unfold Item.finished Item.weight
    omega
  omega

/-! ## The threads that fit -/

/-- **The headers.** What is taken is a prefix, and the next one would not have fitted. -/
theorem fitting_spec (remaining : Nat) (more : Bool) (threads : List ThreadDict) :
    (fitting remaining more threads).1 <+: threads ∧
      (fitting remaining more threads).2 +
          (((fitting remaining more threads).1.map ThreadDict.headerSize).sum +
            ((fitting remaining more threads).1.length - if more then 0 else 1)) = remaining ∧
      ∀ t rest, threads = (fitting remaining more threads).1 ++ t :: rest →
        (fitting remaining more threads).2 < t.headerSize +
          if more = false ∧ (fitting remaining more threads).1 = [] then 0 else 1 := by
  induction threads generalizing remaining more with
  | nil =>
    refine ⟨List.nil_prefix, ?_, fun t rest heq => ?_⟩
    · simp [fitting]
    · exact absurd heq.symm (List.append_ne_nil_of_right_ne_nil _ (List.cons_ne_nil _ _))
  | cons t threads ih =>
    unfold fitting
    by_cases hover : remaining < t.headerSize + if more = true then 1 else 0
    · rw [if_pos hover]
      refine ⟨List.nil_prefix, ?_, fun t' rest heq => ?_⟩
      · simp
      obtain ⟨rfl, -⟩ := List.cons.inj heq
      cases more with
      | true => simpa using hover
      | false => simpa using hover
    rw [if_neg hover]
    obtain ⟨hbegins, hsum, hnext⟩ := ih (remaining - (t.headerSize + if more = true then 1 else 0)) true
    refine ⟨List.cons_prefix_cons.mpr ⟨rfl, hbegins⟩, ?_, fun t' rest heq => ?_⟩
    · simp only [List.map_cons, List.sum_cons, List.length_cons] at hsum ⊢
      cases more with
      | true =>
        simp only [if_true] at hsum hover ⊢
        omega
      | false =>
        simp only [if_true, Bool.false_eq_true, if_false] at hsum hover ⊢
        omega
    · have hlt := hnext t' rest (List.cons.inj heq).2
      simpa using hlt

/-! ## The rounds -/

/-- What the items take with their newest `n` messages at most. -/
def weightUpTo (n : Nat) (items : List Item) : Nat := weight (items.map (Item.upTo n))

/-- The state in the middle of a round in which `done` had their turn and `rest` did not. -/
structure Mid (maxBytes j : Nat) (done rest : List Item) (remaining : Nat) : Prop where
  budget : remaining + weight (done ++ rest) = maxBytes
  newest : ∀ e ∈ done ++ rest, e.kept <+: e.thread.messages.reverse
  after : ∀ e ∈ done, e.kept.length ≤ j + 1 ∧ (e.pending = true → e.kept.length = j + 1)
  before : ∀ e ∈ rest, e.kept.length ≤ j ∧ (e.pending = true → e.kept.length = j)
  /-- what was refused did not fit when the others had one message more at most -/
  refused : ∀ e ∈ done ++ rest, e.pending = false → ∀ message, e.next = some message →
    maxBytes < weightUpTo (e.kept.length + 1) (done ++ rest) + e.cost message

/-- An item of which more is kept, or which waits no longer. -/
structure Grows (e e' : Item) : Prop where
  thread : e'.thread = e.thread
  kept : e.kept <+: e'.kept

theorem Grows.refl (e : Item) : Grows e e := ⟨rfl, List.prefix_rfl⟩

theorem weight_middle (done : List Item) (e : Item) (rest : List Item) :
    weight (done ++ e :: rest) = 2 + (done.map Item.weight).sum + e.weight +
      (rest.map Item.weight).sum + (done.length + rest.length) := by
  rw [weight_eq]
  simp only [List.map_append, List.map_cons, List.sum_append, List.sum_cons, List.length_append,
    List.length_cons]
  omega

/-- The weight changes as the messages of the item do. -/
theorem weight_grows {e' : Item} (h : Grows e e') (done rest : List Item) :
    weight (done ++ e' :: rest) + spent e.kept = weight (done ++ e :: rest) + spent e'.kept := by
  rw [weight_middle, weight_middle]
  unfold Item.weight
  rw [h.thread]
  omega

theorem weightUpTo_grows {e' : Item} (h : Grows e e') (n : Nat) (done rest : List Item) :
    weightUpTo n (done ++ e :: rest) ≤ weightUpTo n (done ++ e' :: rest) := by
  unfold weightUpTo
  rw [List.map_append, List.map_append, List.map_cons, List.map_cons, weight_middle, weight_middle]
  have hspent : spent (e.upTo n).kept ≤ spent (e'.upTo n).kept := by
    obtain ⟨more, hmore⟩ := h.kept
    refine spent_prefix ?_
    show e.kept.take n <+: e'.kept.take n
    rw [← hmore, List.take_append]
    exact List.prefix_append _ _
  have hheader : (e'.upTo n).thread = (e.upTo n).thread := h.thread
  unfold Item.weight
  rw [hheader]
  omega

/-- Nothing is cut off where no item has more. -/
theorem weightUpTo_eq {n : Nat} (h : ∀ e ∈ items, e.kept.length ≤ n) :
    weightUpTo n items = weight items := by
  unfold weightUpTo
  have hmap : items.map (Item.upTo n) = items := by
    refine (List.map_congr_left (fun e he => ?_)).trans (List.map_id items)
    unfold Item.upTo
    rw [List.take_of_length_le (h e he)]
    rfl
  rw [hmap]

theorem weightUpTo_le (n : Nat) (items : List Item) : weightUpTo n items ≤ weight items := by
  unfold weightUpTo
  rw [weight_eq, weight_eq, List.map_map, List.length_map]
  have hsum : (items.map (Item.weight ∘ Item.upTo n)).sum ≤ (items.map Item.weight).sum := by
    apply List.sum_le_sum
    intro e _
    have := spent_prefix (List.take_prefix n e.kept)
    show e.thread.headerSize + spent (e.kept.take n) ≤ _
    unfold Item.weight
    omega
  omega

/-- One more message is the next one. -/
theorem newest_snoc (h : e.kept <+: e.thread.messages.reverse) {message : Json}
    (hnext : e.next = some message) : e.kept ++ [message] <+: e.thread.messages.reverse := by
  obtain ⟨more, hmore⟩ := h
  unfold Item.next at hnext
  rw [← hmore, List.getElem?_append_right (le_refl _), Nat.sub_self] at hnext
  cases more with
  | nil => nomatch hnext
  | cons first more =>
    rw [List.getElem?_cons_zero] at hnext
    refine ⟨more, ?_⟩
    rw [← hmore, Option.some.inj hnext, List.append_assoc, List.singleton_append]

/-- One item has its turn. -/
theorem Mid.replace (h : Mid maxBytes j done (e :: rest) remaining) {e' : Item} {remaining' : Nat}
    (hgrows : Grows e e') (hbudget : remaining' + weight (done ++ e' :: rest) = maxBytes)
    (hnewest : e'.kept <+: e'.thread.messages.reverse)
    (hafter : e'.kept.length ≤ j + 1 ∧ (e'.pending = true → e'.kept.length = j + 1))
    (hrefused : e'.pending = false → ∀ message, e'.next = some message →
      maxBytes < weightUpTo (e'.kept.length + 1) (done ++ e' :: rest) + e'.cost message) :
    Mid maxBytes j (done ++ [e']) rest remaining' := by
  have hlist : done ++ [e'] ++ rest = done ++ e' :: rest := by
    rw [List.append_assoc, List.singleton_append]
  have hold : ∀ f, f ∈ done ++ e' :: rest → f = e' ∨ f ∈ done ++ e :: rest := by
    intro f hf
    rcases List.mem_append.mp hf with hf | hf
    · exact .inr (List.mem_append_left _ hf)
    rcases List.mem_cons.mp hf with heq | hf
    · exact .inl heq
    · exact .inr (List.mem_append_right _ (.tail _ hf))
  constructor
  · rw [hlist]
    exact hbudget
  · intro f hf
    rw [hlist] at hf
    rcases hold f hf with rfl | hf
    · exact hnewest
    · exact h.newest f hf
  · intro f hf
    rcases List.mem_append.mp hf with hf | hf
    · exact h.after f hf
    rw [List.mem_singleton.mp hf]
    exact hafter
  · exact fun f hf => h.before f (.tail _ hf)
  rw [hlist]
  intro f hf hpending message hnext
  rcases hold f hf with rfl | hf
  · exact hrefused hpending message hnext
  have hlt := h.refused f hf hpending message hnext
  have hle := weightUpTo_grows hgrows (f.kept.length + 1) done rest
  omega

theorem Mid.offer (h : Mid maxBytes j done (e :: rest) remaining) :
    Mid maxBytes j (done ++ [(e.offer remaining).2]) rest (e.offer remaining).1 := by
  obtain ⟨hlength, hturn⟩ := h.before e (.head _)
  have hmem : e ∈ done ++ e :: rest := List.mem_append_right _ (.head _)
  have hnewest := h.newest e hmem
  have hbudget := h.budget
  unfold Item.offer
  by_cases hpending : e.pending = false
  · rw [if_pos hpending]
    dsimp only
    refine h.replace (Grows.refl e) hbudget hnewest ⟨by omega, fun htrue => ?_⟩ ?_
    · nomatch hpending.symm.trans htrue
    · exact fun _ => h.refused e hmem hpending
  rw [if_neg hpending]
  have hj : e.kept.length = j := hturn (Bool.not_eq_false _ ▸ hpending)
  -- an item that waits no longer takes what it took
  have hstop : Grows e e.stopped := ⟨rfl, List.prefix_rfl⟩
  have hsame : weight (done ++ e.stopped :: rest) = weight (done ++ e :: rest) := by
    have hkept : e.stopped.kept = e.kept := rfl
    have := weight_grows hstop done rest
    rw [hkept] at this
    omega
  rw [← hsame] at hbudget
  cases hnext : e.next with
  | none =>
    refine h.replace hstop hbudget hnewest ⟨?_, nofun⟩ ?_
    · show e.kept.length ≤ j + 1
      omega
    intro _ message hsome
    have hsome : e.next = some message := hsome
    rw [hnext] at hsome
    nomatch hsome
  | some message =>
    dsimp only
    by_cases hfits : e.cost message ≤ remaining
    · rw [if_pos hfits]
      dsimp only
      have hgrows : Grows e (e.takes message) := ⟨rfl, List.prefix_append _ _⟩
      have hspent := weight_grows hgrows done rest
      have hsnoc : spent (e.takes message).kept = spent e.kept + e.cost message :=
        spent_snoc e.kept message
      refine h.replace hgrows ?_ (newest_snoc hnewest hnext) ⟨?_, fun _ => ?_⟩ ?_
      · omega
      · show (e.kept ++ [message]).length ≤ j + 1
        rw [List.length_append, List.length_singleton]
        omega
      · show (e.kept ++ [message]).length = j + 1
        rw [List.length_append, List.length_singleton]
        omega
      · exact fun hfalse => absurd hfalse hpending
    · rw [if_neg hfits]
      dsimp only
      refine h.replace hstop hbudget hnewest ⟨?_, nofun⟩ ?_
      · show e.kept.length ≤ j + 1
        omega
      -- now no item has more than one message more than this one
      intro _ message' hsome
      have hsome : e.next = some message' := hsome
      rw [hnext] at hsome
      rw [← Option.some.inj hsome]
      show maxBytes < weightUpTo (e.kept.length + 1) _ + e.cost message
      rw [weightUpTo_eq]
      · omega
      · intro f hf
        rcases List.mem_append.mp hf with hf | hf
        · have := (h.after f hf).1
          omega
        rcases List.mem_cons.mp hf with rfl | hf
        · show e.kept.length ≤ e.kept.length + 1
          omega
        have := (h.before f (.tail _ hf)).1
        omega

/-- **A round.** -/
theorem Mid.offerAll (h : Mid maxBytes j done rest remaining) :
    Mid maxBytes j (done ++ (offerAll remaining rest).2) [] (offerAll remaining rest).1 := by
  induction rest generalizing done remaining with
  | nil =>
    unfold Response.offerAll
    rw [List.append_nil]
    exact h
  | cons e rest ih =>
    have hrest := ih h.offer
    rw [List.append_assoc, List.singleton_append] at hrest
    exact hrest

/-- The next round begins. -/
theorem Mid.nextRound (h : Mid maxBytes j items [] remaining) :
    Mid maxBytes (j + 1) [] items remaining := by
  have hlist : items ++ [] = [] ++ items := by rw [List.append_nil, List.nil_append]
  obtain ⟨hbudget, hnewest, hafter, -, hrefused⟩ := h
  rw [hlist] at hbudget hnewest hrefused
  exact ⟨hbudget, hnewest, fun e he => absurd he List.not_mem_nil, hafter, hrefused⟩

/-- An item that waits has less to do after its turn. -/
theorem work_offer (remaining : Nat) (e : Item) :
    (e.offer remaining).2.work + (if e.pending then 1 else 0) ≤ e.work := by
  unfold Item.offer
  by_cases hpending : e.pending = false
  · rw [if_pos hpending]
    simp [hpending]
  rw [if_neg hpending]
  have htrue : e.pending = true := Bool.not_eq_false _ ▸ hpending
  cases hnext : e.next with
  | none =>
    unfold Item.work Item.stopped
    simp [htrue]
  | some message =>
    dsimp only
    split
    · have hlt : e.kept.length < e.thread.messages.length := by
        obtain ⟨hlt, -⟩ := List.getElem?_eq_some_iff.mp hnext
        rw [List.length_reverse] at hlt
        exact hlt
      unfold Item.work Item.takes
      simp only [htrue, if_true, List.length_append, List.length_singleton]
      omega
    · unfold Item.work Item.stopped
      simp [htrue]

theorem work_offerAll (remaining : Nat) (items : List Item) :
    work (offerAll remaining items).2 + items.countP Item.pending ≤ work items := by
  induction items generalizing remaining with
  | nil => exact le_refl _
  | cons e items ih =>
    have hfirst := work_offer remaining e
    have hrest := ih (e.offer remaining).1
    have hcons : ∀ (e : Item) (items : List Item), work (e :: items) = e.work + work items :=
      fun _ _ => rfl
    unfold offerAll
    rw [List.countP_cons, hcons, hcons]
    omega

/-- **The rounds end**, with the invariant, and nobody waits then. -/
theorem Mid.rounds (h : Mid maxBytes j [] items remaining) {fuel : Nat} (hfuel : work items ≤ fuel) :
    ∃ j', Mid maxBytes j' [] (rounds fuel remaining items).2 (rounds fuel remaining items).1 ∧
      ∀ e ∈ (rounds fuel remaining items).2, e.pending = false := by
  induction fuel generalizing j items remaining with
  | zero =>
    refine ⟨j, h, fun e he => ?_⟩
    have hwork : e.work ≤ work items := List.single_le_sum (fun _ _ => Nat.zero_le _) _
      (List.mem_map_of_mem he)
    unfold Item.work at hwork
    by_contra hpending
    rw [if_pos (Bool.not_eq_false _ ▸ hpending)] at hwork
    omega
  | succ fuel ih =>
    unfold Response.rounds
    by_cases hany : items.any Item.pending = true
    · rw [if_pos hany]
      have hround := h.offerAll.nextRound
      refine ih hround ?_
      have hless := work_offerAll remaining items
      obtain ⟨e, he, hpending⟩ := List.any_eq_true.mp hany
      have hcount : 0 < items.countP Item.pending := List.countP_pos_iff.mpr ⟨e, he, hpending⟩
      omega
    · rw [if_neg hany]
      refine ⟨j, h, fun e he => ?_⟩
      rw [Bool.not_eq_true, List.any_eq_false] at hany
      exact Bool.not_eq_true _ ▸ hany e he

/-! ## The whole answer -/

theorem thread_offer (remaining : Nat) (e : Item) : (e.offer remaining).2.thread = e.thread := by
  unfold Item.offer
  split
  · rfl
  split
  · rfl
  · split <;> rfl

theorem threads_offerAll (remaining : Nat) (items : List Item) :
    (offerAll remaining items).2.map Item.thread = items.map Item.thread := by
  induction items generalizing remaining with
  | nil => rfl
  | cons e items ih =>
    show (e.offer remaining).2.thread :: _ = e.thread :: _
    rw [thread_offer, ih]

theorem threads_rounds (fuel remaining : Nat) (items : List Item) :
    (rounds fuel remaining items).2.map Item.thread = items.map Item.thread := by
  induction fuel generalizing remaining items with
  | zero => rfl
  | succ fuel ih =>
    unfold rounds
    split
    · rw [ih, threads_offerAll]
    · rfl

/-- The items at the start of the rounds. -/
theorem weight_start (threads : List ThreadDict) :
    weight (threads.map (fun t => ({ thread := t } : Item))) =
      2 + (threads.map ThreadDict.headerSize).sum + (threads.length - 1) := by
  rw [weight_eq, List.map_map, List.length_map]
  rfl

/-- An item that lost messages has a next one. -/
theorem next_of_lost (h : e.kept.length < e.thread.messages.length) : ∃ message, e.next = some message := by
  have hreverse : e.kept.length < e.thread.messages.reverse.length := by
    rw [List.length_reverse]
    exact h
  exact ⟨_, List.getElem?_eq_getElem hreverse⟩

/-- What the finished item says about its messages. -/
theorem finished_messages (e : Item) :
    e.finished.get? messagesKey = some (.list e.kept.reverse) := by
  unfold Item.finished Item.dict
  rw [Dict.get?_set, if_neg keys_ne, Dict.get?_set, if_pos rfl]

theorem finished_flag (e : Item) :
    e.finished.get? flagKey = some (.bool (e.thread.truncated ||
      decide (e.kept.length < e.thread.messages.length))) := by
  unfold Item.finished Item.dict
  rw [Dict.get?_set, if_pos rfl]

/-- **The answer fits, and nothing that was left out would have.** Where the flags of the answer are
counted as `false`, neither the header of the next thread nor the next message of a thread fits;
that message does not even fit when every thread has one message more at most. -/
theorem bound_thread_response (threads : List ThreadDict) {maxBytes : Nat} (h : 2 ≤ maxBytes) :
    answerSize (boundThreadResponse threads maxBytes) ≤ maxBytes ∧
      ∃ items : List Item, boundThreadResponse threads maxBytes = items.map Item.finished ∧
        items.map Item.thread <+: threads ∧
        (∀ t rest, threads = items.map Item.thread ++ t :: rest →
          maxBytes < weight ((items.map Item.thread ++ [t]).map (fun t => { thread := t }))) ∧
        ∀ e ∈ items,
          (e.finished.get? messagesKey = some (.list e.kept.reverse) ∧
            e.kept.reverse <:+ e.thread.messages) ∧
          (∃ flag, e.finished.get? flagKey = some (.bool flag) ∧
            (flag = true ↔
              e.thread.truncated = true ∨ e.kept.length < e.thread.messages.length)) ∧
          (e.kept.length < e.thread.messages.length → ∃ message, e.next = some message ∧
            maxBytes < weight items + e.cost message ∧
              maxBytes < weightUpTo (e.kept.length + 1) items + e.cost message) := by
  obtain ⟨hbegins, hsum, hnext⟩ := fitting_spec (maxBytes - 2) false threads
  generalize hfit : fitting (maxBytes - 2) false threads = fit at hbegins hsum hnext
  have hstart : Mid maxBytes 0 [] (fit.1.map (fun t => ({ thread := t } : Item))) fit.2 := by
    have hnew : ∀ e ∈ fit.1.map (fun t => ({ thread := t } : Item)),
        e.kept = [] ∧ e.pending = true := by
      intro e he
      obtain ⟨t, -, rfl⟩ := List.mem_map.mp he
      exact ⟨rfl, rfl⟩
    constructor
    · rw [List.nil_append, weight_start]
      simp only [Bool.false_eq_true, if_false] at hsum
      omega
    · intro e he
      rw [(hnew e he).1]
      exact List.nil_prefix
    · exact fun e he => absurd he List.not_mem_nil
    · intro e he
      rw [(hnew e he).1]
      exact ⟨le_refl _, fun _ => rfl⟩
    · intro e he hpending
      nomatch hpending.symm.trans (hnew e he).2
  obtain ⟨j, hend, hstopped⟩ := hstart.rounds (le_refl _)
  have hthreads : (bounded threads maxBytes).map Item.thread = fit.1 := by
    unfold bounded
    rw [hfit]
    rw [threads_rounds, List.map_map]
    exact List.map_id _
  have hbounded : bounded threads maxBytes = (rounds
      (work (fit.1.map (fun t => ({ thread := t } : Item)))) fit.2
        (fit.1.map (fun t => ({ thread := t } : Item)))).2 := by
    unfold bounded
    rw [hfit]
  rw [← hbounded] at hend hstopped
  have hbudget := hend.budget
  rw [List.nil_append] at hbudget
  refine ⟨?_, bounded threads maxBytes, rfl, ?_, ?_, ?_⟩
  · have := answerSize_finished (bounded threads maxBytes)
    unfold boundThreadResponse
    omega
  · rw [hthreads]
    exact hbegins
  · intro t rest heq
    rw [hthreads] at heq ⊢
    have hlt := hnext t rest heq
    rw [weight_start]
    simp only [Bool.false_eq_true, if_false, true_and] at hsum hlt
    rw [List.map_append, List.sum_append, List.length_append, List.map_singleton, List.sum_singleton,
      List.length_singleton]
    cases hnil : fit.1 with
    | nil =>
      rw [hnil] at hsum hlt
      simp only [List.map_nil, List.sum_nil, List.length_nil, if_true] at hsum hlt ⊢
      omega
    | cons first more =>
      rw [hnil] at hsum hlt
      rw [if_neg (List.cons_ne_nil _ _)] at hlt
      simp only [List.length_cons] at hsum ⊢
      omega
  · intro e he
    have hmem : e ∈ [] ++ bounded threads maxBytes := he
    refine ⟨⟨finished_messages e, ?_⟩, ⟨_, finished_flag e, ?_⟩, fun hlost => ?_⟩
    · rw [← List.reverse_prefix, List.reverse_reverse]
      exact hend.newest e hmem
    · rw [Bool.or_eq_true, decide_eq_true_eq]
    obtain ⟨message, hmessage⟩ := next_of_lost hlost
    have hlt := hend.refused e hmem (hstopped e he) message hmessage
    rw [List.nil_append] at hlt
    have hle := weightUpTo_le (e.kept.length + 1) (bounded threads maxBytes)
    exact ⟨message, hmessage, by omega, hlt⟩

/-- A thread of three empty messages. -/
def threeMessages : ThreadDict where
  fields := Dict.empty.set messagesKey (.list [.object [], .object [], .object []])
  listed := by
    intro value hvalue
    rw [Dict.get?_set, if_pos rfl] at hvalue
    exact ⟨_, (Option.some.inj hvalue).symm⟩

theorem bound_thread_response_three :
    (2 ≤ 48) ∧ answerSize (boundThreadResponse [threeMessages] 48) ≤ 48 :=
  ⟨by decide, (bound_thread_response [threeMessages] (by decide)).1⟩

/-- With the next older message, the answer would take exactly the 48 bytes: its flag is `true`, which
is one byte shorter than what was counted. -/
theorem older_message_would_fit :
    (Json.list ((boundThreadResponse [threeMessages] 48).map (fun d => .object d.items))).dumps =
        "[\x7b\"messages\":[\x7b\x7d],\"messages_truncated\":true\x7d]".toList ∧
      utf8Size "[\x7b\"messages\":[\x7b\x7d,\x7b\x7d],\"messages_truncated\":true\x7d]".toList = 48 := by
  decide +kernel

end BlueFerry.Response
