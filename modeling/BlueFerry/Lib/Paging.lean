import Mathlib.Tactic

/-! # Reading a changing store page by page

A reader goes through an ordered store by the keys of its elements: a page has the first `size`
elements beyond the last key that was read, and a page that is not full is the last one. Between two
pages the store may change in any way that keeps it in order.

What was read is in order, so that nothing is read twice (`Sound`). An element that is in the store
for every page is read when its turn comes (`Covered`). A store that does not change is read as a
whole (`Agrees`).
-/

namespace Paging

variable {α κ : Type} {lt : κ → κ → Prop} [DecidableRel lt] {key : α → κ} {size : Nat}

/-- Where a reader stands. -/
structure Reader (α κ : Type) where
  after : κ
  yielded : List α := []
  finished : Bool := false

section

variable (lt : κ → κ → Prop)

/-- The elements beyond a key. -/
def beyond [DecidableRel lt] (key : α → κ) (after : κ) (store : List α) :
    List α := store.filter (fun a => lt after (key a))

/-- The page that is fetched next. -/
def page [DecidableRel lt] (key : α → κ) (size : Nat) (after : κ)
    (store : List α) : List α := (beyond lt key after store).take size

/-- One turn of the loop. -/
def Reader.read [DecidableRel lt] (key : α → κ) (size : Nat) (store : List α)
    (reader : Reader α κ) : Reader α κ :=
  if reader.finished then reader
  else
    let fetched := page lt key size reader.after store
    { after := (fetched.getLast?.map key).getD reader.after
      yielded := reader.yielded ++ fetched
      finished := fetched.length < size }

/-- The elements are in the order of their keys. -/
def Ordered (key : α → κ) (l : List α) : Prop :=
  l.Pairwise (fun a b => lt (key a) (key b))

end

/-! ## One page -/

variable {store : List α}

variable {a : α} {after : κ} {reader : Reader α κ}

theorem mem_beyond : a ∈ beyond lt key after store ↔ a ∈ store ∧ lt after (key a) := by
  simp [beyond]

theorem ordered_beyond (after : κ) (h : Ordered lt key store) :
    Ordered lt key (beyond lt key after store) := h.filter _

theorem beyond_of_page (h : a ∈ page lt key size after store) : lt after (key a) :=
  (mem_beyond.mp (List.mem_of_mem_take h)).2

omit [DecidableRel lt] in
/-- In order, every element is the last one or has a key before it. -/
theorem eq_or_lt_getLast {l : List α} (h : Ordered lt key l) {last : α}
    (hlast : l.getLast? = some last) (ha : a ∈ l) : key a = key last ∨ lt (key a) (key last) := by
  obtain ⟨front, rfl⟩ := List.getLast?_eq_some_iff.mp hlast
  rcases List.mem_append.mp ha with hfront | hend
  · exact Or.inr ((List.pairwise_append.mp h).2.2 a hfront last (.head _))
  rw [List.mem_singleton.mp hend]
  exact Or.inl rfl

/-- What is beyond the position and not on the page comes after a full page. -/
theorem full_of_not_mem_page (h : Ordered lt key store)
    (ha : a ∈ beyond lt key after store) (hpage : a ∉ page lt key size after store) :
    (page lt key size after store).length = size ∧
      ∀ b ∈ page lt key size after store, lt (key b) (key a) := by
  have hsplit := List.take_append_drop size (beyond lt key after store)
  have hdrop : a ∈ (beyond lt key after store).drop size := by
    rw [← hsplit] at ha
    exact (List.mem_append.mp ha).resolve_left hpage
  have hlen : size ≤ (beyond lt key after store).length := by
    by_contra hshort
    rw [List.drop_eq_nil_of_le (by omega)] at hdrop
    exact List.not_mem_nil hdrop
  have hordered := ordered_beyond after h
  rw [← hsplit] at hordered
  refine ⟨?_, fun b hb => (List.pairwise_append.mp hordered).2.2 b hb a hdrop⟩
  rw [page, List.length_take]
  omega

/-! ## What was read is in order -/

/-- What was read is in order, and nothing of it is beyond the position. -/
structure Sound (lt : κ → κ → Prop) (key : α → κ) (reader : Reader α κ) : Prop where
  ordered : Ordered lt key reader.yielded
  behind : ∀ a ∈ reader.yielded, key a = reader.after ∨ lt (key a) reader.after

omit [DecidableRel lt] in
theorem sound_start (after : κ) : Sound lt key (⟨after, [], false⟩ : Reader α κ) where
  ordered := List.Pairwise.nil
  behind := fun _ ha => absurd ha List.not_mem_nil

/-- The position after a page is that of its last element. -/
theorem behind_page (htrans : ∀ x y z, lt x y → lt y z → lt x z) (size : Nat) (after : κ)
    (h : Ordered lt key store) :
    (∀ x, x = after ∨ lt x after →
        x = ((page lt key size after store).getLast?.map key).getD after ∨
          lt x (((page lt key size after store).getLast?.map key).getD after)) ∧
      ∀ a ∈ page lt key size after store,
        key a = ((page lt key size after store).getLast?.map key).getD after ∨
          lt (key a) (((page lt key size after store).getLast?.map key).getD after) := by
  cases hlast : (page lt key size after store).getLast? with
  | none =>
    rw [List.getLast?_eq_none_iff.mp hlast]
    exact ⟨fun x hx => hx, fun a ha => absurd ha List.not_mem_nil⟩
  | some last =>
    have hmem : last ∈ page lt key size after store := List.mem_of_getLast? hlast
    have hbeyond : lt after (key last) := beyond_of_page hmem
    constructor
    · rintro x (rfl | hx)
      · exact Or.inr hbeyond
      · exact Or.inr (htrans _ _ _ hx hbeyond)
    · intro a ha
      exact eq_or_lt_getLast ((ordered_beyond _ h).sublist (List.take_sublist _ _)) hlast ha

/-- **A page keeps what was read in order**, whatever happened to the store before it. -/
theorem sound_read (htrans : ∀ x y z, lt x y → lt y z → lt x z) (hstore : Ordered lt key store) (h : Sound lt key reader) :
    Sound lt key (reader.read lt key size store) := by
  unfold Reader.read
  split
  · exact h
  obtain ⟨hold, hnew⟩ := behind_page htrans size reader.after hstore
  constructor
  · show Ordered lt key (reader.yielded ++ page lt key size reader.after store)
    refine List.pairwise_append.mpr ⟨h.ordered, ?_, ?_⟩
    · exact (ordered_beyond _ hstore).sublist (List.take_sublist _ _)
    intro a ha b hb
    have hb' : lt reader.after (key b) := beyond_of_page hb
    rcases h.behind a ha with heq | hlt
    · rw [heq]
      exact hb'
    · exact htrans _ _ _ hlt hb'
  · intro a ha
    rcases List.mem_append.mp ha with hyielded | hpage
    · exact hold _ (h.behind a hyielded)
    · exact hnew a hpage

/-! ## What stays in the store is read -/

/-- The element was read, or the reader has not come to it yet. -/
def Covered (lt : κ → κ → Prop) (key : α → κ) (a : α) (reader : Reader α κ) : Prop :=
  a ∈ reader.yielded ∨ (reader.finished = false ∧ lt reader.after (key a))

/-- **A page does not pass by an element of the store.** -/
theorem covered_read (hstore : Ordered lt key store) (ha : a ∈ store)
    (h : Covered lt key a reader) : Covered lt key a (reader.read lt key size store) := by
  rcases h with hread | ⟨hopen, hlt⟩
  · left
    unfold Reader.read
    split
    · exact hread
    · exact List.mem_append_left _ hread
  unfold Reader.read
  rw [if_neg (by simp [hopen])]
  by_cases hpage : a ∈ page lt key size reader.after store
  · exact Or.inl (List.mem_append_right _ hpage)
  obtain ⟨hfull, hbefore⟩ := full_of_not_mem_page hstore (mem_beyond.mpr ⟨ha, hlt⟩) hpage
  refine Or.inr ⟨?_, ?_⟩
  · simp [hfull]
  -- the page ends before the element
  show lt (((page lt key size reader.after store).getLast?.map key).getD reader.after) (key a)
  cases hlast : (page lt key size reader.after store).getLast? with
  | none => exact hlt
  | some last => exact hbefore last (List.mem_of_getLast? hlast)

/-- A page that is not the last one has `size` elements. -/
theorem length_read (h : (reader.read lt key size store).finished = false) :
    (reader.read lt key size store).yielded.length = reader.yielded.length + size := by
  unfold Reader.read at h ⊢
  split at h
  · next hfinished => simp [hfinished] at h
  · next hopen =>
    rw [if_neg hopen]
    have hfull : ¬ (page lt key size reader.after store).length < size := by simpa using h
    have hle : (page lt key size reader.after store).length ≤ size := List.length_take_le _ _
    show (reader.yielded ++ page lt key size reader.after store).length = _
    rw [List.length_append]
    omega

/-! ## A store that does not change -/

/-- What was read and what is still to come are the elements beyond the first position. -/
def Agrees (lt : κ → κ → Prop) [DecidableRel lt] (key : α → κ) (start : κ) (store : List α)
    (reader : Reader α κ) : Prop :=
  reader.yielded ++ (if reader.finished then [] else beyond lt key reader.after store)
    = beyond lt key start store

/-- Beyond the last key of the first part there is the second part. -/
theorem beyond_split (hirrefl : ∀ x, ¬ lt x x) (htrans : ∀ x y z, lt x y → lt y z → lt x z) {front rest : List α} {last : α} (hstore : Ordered lt key store)
    (hsplit : beyond lt key after store = front ++ rest) (hlast : front.getLast? = some last) :
    beyond lt key (key last) store = rest := by
  have hordered := ordered_beyond after hstore
  rw [hsplit] at hordered
  obtain ⟨hfront, -, hcross⟩ := List.pairwise_append.mp hordered
  have hmem : last ∈ front := List.mem_of_getLast? hlast
  have hafter : lt after (key last) := (mem_beyond.mp (hsplit ▸ List.mem_append_left rest hmem)).2
  have hnested : beyond lt key (key last) store
      = beyond lt key (key last) (beyond lt key after store) := by
    unfold beyond
    rw [List.filter_filter]
    refine List.filter_congr (fun a _ => ?_)
    by_cases ha : lt (key last) (key a)
    · simp [ha, htrans _ _ _ hafter ha]
    · simp [ha]
  rw [hnested, hsplit]
  unfold beyond
  rw [List.filter_append, List.filter_eq_nil_iff.mpr, List.filter_eq_self.mpr, List.nil_append]
  · intro a ha
    exact decide_eq_true (hcross last hmem a ha)
  · intro a ha hlt
    have hlt' : lt (key last) (key a) := of_decide_eq_true hlt
    rcases eq_or_lt_getLast hfront hlast ha with heq | hbefore
    · exact hirrefl _ (heq ▸ hlt')
    · exact hirrefl _ (htrans _ _ _ hlt' hbefore)

theorem agrees_read (hirrefl : ∀ x, ¬ lt x x) (htrans : ∀ x y z, lt x y → lt y z → lt x z)
    (hsize : 0 < size) {start : κ} (hstore : Ordered lt key store)
    (h : Agrees lt key start store reader) :
    Agrees lt key start store (reader.read lt key size store) := by
  unfold Reader.read
  split
  · exact h
  · next hopen =>
    unfold Agrees at h ⊢
    rw [if_neg hopen] at h
    rw [← h]
    dsimp only
    rw [List.append_assoc]
    congr 1
    have hsplit := (List.take_append_drop size (beyond lt key reader.after store)).symm
    by_cases hfull : (page lt key size reader.after store).length < size
    · -- a page that is not full has everything that was left
      have hshort : (beyond lt key reader.after store).length < size := by
        rw [page, List.length_take] at hfull
        omega
      rw [if_pos (by simpa using hfull), List.append_nil, page, List.take_of_length_le (by omega)]
    rw [if_neg (by simpa using hfull)]
    cases hlast : (page lt key size reader.after store).getLast? with
    | none =>
      rw [List.getLast?_eq_none_iff.mp hlast] at hfull
      exact absurd hsize (by simpa using hfull)
    | some last =>
      show _ ++ beyond lt key (key last) store = _
      rw [beyond_split hirrefl htrans hstore hsplit hlast]
      exact hsplit.symm

theorem agrees_start (start : κ) (store : List α) :
    Agrees lt key start store (⟨start, [], false⟩ : Reader α κ) := rfl

end Paging
