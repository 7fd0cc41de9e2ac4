import Mathlib.Tactic

/-! # Paying in advance

In a log, newest first, some entries spend and others earn. The log is `Solvent` if at no time more
was spent than earned. Then every entry that spends can be given one of its own that earns, from
before it (`Solvent.exists_payment`). Positions count from the oldest entry.
-/

namespace Ledger

variable {α : Type} (spends earns : α → Bool)

/-- At no time was more spent than earned. -/
def Solvent (log : List α) : Prop :=
  ∀ newer older, log = newer ++ older → older.countP spends ≤ older.countP earns

/-- Every entry that spends has one of its own, before it, that earns. -/
def Pays (pays : Nat → Nat) (log : List α) : Prop :=
  (∀ i e, log.reverse[i]? = some e → spends e →
    pays i < i ∧ ∃ g, log.reverse[pays i]? = some g ∧ earns g) ∧
  ∀ i j e e', log.reverse[i]? = some e → spends e → log.reverse[j]? = some e' → spends e' →
    pays i = pays j → i = j

/-- The positions of the entries with a property. -/
def positions (p : α → Bool) (log : List α) : Finset Nat :=
  (Finset.range log.length).filter fun i => (log.reverse[i]?).any p

variable {spends earns}

theorem solvent_nil : Solvent spends earns [] := by
  intro newer older h
  have holder : older = [] := (List.append_eq_nil_iff.mp h.symm).2
  rw [holder]
  exact le_rfl

variable {log : List α}

variable {e : α} {i : Nat}

theorem Solvent.tail (h : Solvent spends earns (e :: log)) : Solvent spends earns log :=
  fun newer older hsplit => h (e :: newer) older (by rw [hsplit, List.cons_append])

theorem Solvent.count (h : Solvent spends earns log) :
    log.countP spends ≤ log.countP earns := h [] log rfl

theorem Solvent.cons (h : Solvent spends earns log)
    (hcount : (e :: log).countP spends ≤ (e :: log).countP earns) :
    Solvent spends earns (e :: log) := by
  intro newer older hsplit
  cases newer with
  | nil =>
    rw [List.nil_append] at hsplit
    rw [← hsplit]
    exact hcount
  | cons x newer => exact h newer older (List.cons.inj hsplit).2

theorem getElem?_cons_lt (h : i < log.length) : (e :: log).reverse[i]? = log.reverse[i]? := by
  rw [List.reverse_cons, List.getElem?_append_left (by rwa [List.length_reverse])]

theorem getElem?_cons_self (e : α) (log : List α) : (e :: log).reverse[log.length]? = some e := by
  rw [List.reverse_cons, List.getElem?_append_right (by rw [List.length_reverse]),
    List.length_reverse, Nat.sub_self]
  rfl

theorem lt_of_getElem? (h : log.reverse[i]? = some e) : i < log.length := by
  obtain ⟨hi, -⟩ := List.getElem?_eq_some_iff.mp h
  rwa [List.length_reverse] at hi

/-- The newest entry, or one of those before it. -/
theorem getElem?_cons {x : α} (h : (e :: log).reverse[i]? = some x) :
    (i = log.length ∧ x = e) ∨ log.reverse[i]? = some x := by
  have hi : i < log.length + 1 := lt_of_getElem? h
  by_cases hlast : i = log.length
  · subst hlast
    rw [getElem?_cons_self] at h
    exact Or.inl ⟨rfl, (Option.some.inj h).symm⟩
  · rw [getElem?_cons_lt (by omega)] at h
    exact Or.inr h

theorem card_positions (p : α → Bool) (log : List α) : (positions p log).card = log.countP p := by
  induction log with
  | nil => rfl
  | cons e log ih =>
    have hold : (Finset.range log.length).filter (fun i => ((e :: log).reverse[i]?).any p) =
        positions p log := by
      apply Finset.filter_congr
      intro i hi
      rw [getElem?_cons_lt (Finset.mem_range.mp hi)]
    rw [positions, List.length_cons, Finset.range_add_one, Finset.filter_insert,
      getElem?_cons_self, hold, Option.any_some]
    by_cases he : p e
    · rw [if_pos he, Finset.card_insert_of_notMem (by simp [positions]), ih,
        List.countP_cons_of_pos he]
    · rw [if_neg he, ih, List.countP_cons_of_neg he]

theorem mem_positions {p : α → Bool} :
    i ∈ positions p log ↔ ∃ e, log.reverse[i]? = some e ∧ p e := by
  rw [positions, Finset.mem_filter, Finset.mem_range]
  constructor
  · rintro ⟨-, hany⟩
    obtain ⟨e, he, hp⟩ := (Option.any_eq_true _ _).mp hany
    exact ⟨e, he, hp⟩
  · rintro ⟨e, he, hp⟩
    exact ⟨lt_of_getElem? he, (Option.any_eq_true _ _).mpr ⟨e, he, hp⟩⟩

/-- What a new entry leaves as it was. -/
theorem Pays.cons {pays : Nat → Nat} (h : Pays spends earns pays log)
    (he : spends e = false) : Pays spends earns pays (e :: log) := by
  obtain ⟨hpaid, hown⟩ := h
  have hbefore : ∀ (i : Nat) (x : α), (e :: log).reverse[i]? = some x → spends x → log.reverse[i]? = some x := by
    intro i x hx hspends
    rcases getElem?_cons hx with ⟨-, rfl⟩ | hold
    · rw [he] at hspends
      cases hspends
    · exact hold
  refine ⟨fun i x hx hspends => ?_, fun i j x y hx hspends hy hspends' => ?_⟩
  · have hold := hbefore i x hx hspends
    obtain ⟨hlt, g, hg, hearns⟩ := hpaid i x hold hspends
    refine ⟨hlt, g, ?_, hearns⟩
    rw [getElem?_cons_lt (hlt.trans (lt_of_getElem? hold))]
    exact hg
  · exact hown i j x y (hbefore i x hx hspends) hspends (hbefore j y hy hspends') hspends'

/-- A new entry that spends is given one that earned and has paid for nothing yet. -/
theorem Pays.spend {pays : Nat → Nat} {g : α} {k : Nat} (h : Pays spends earns pays log)
    (hg : log.reverse[k]? = some g) (hearns : earns g)
    (hfree : ∀ i x, log.reverse[i]? = some x → spends x → pays i ≠ k) :
    Pays spends earns (Function.update pays log.length k) (e :: log) := by
  obtain ⟨hpaid, hown⟩ := h
  have hk : k < log.length := lt_of_getElem? hg
  have hkeep : ∀ (i : Nat) (x : α), log.reverse[i]? = some x →
      Function.update pays log.length k i = pays i := by
    intro i x hx
    have hi := lt_of_getElem? hx
    exact Function.update_of_ne (by omega) _ _
  refine ⟨fun i x hx hspends => ?_, fun i j x y hx hspends hy hspends' hsame => ?_⟩
  · rcases getElem?_cons hx with ⟨rfl, rfl⟩ | hold
    · rw [Function.update_self, getElem?_cons_lt hk]
      exact ⟨hk, g, hg, hearns⟩
    obtain ⟨hlt, g', hg', hearns'⟩ := hpaid i x hold hspends
    rw [hkeep i x hold, getElem?_cons_lt (hlt.trans (lt_of_getElem? hold))]
    exact ⟨hlt, g', hg', hearns'⟩
  rcases getElem?_cons hx with ⟨rfl, rfl⟩ | hold
  · rcases getElem?_cons hy with ⟨rfl, -⟩ | hold'
    · rfl
    rw [Function.update_self, hkeep j y hold'] at hsame
    exact absurd hsame.symm (hfree j y hold' hspends')
  rcases getElem?_cons hy with ⟨rfl, rfl⟩ | hold'
  · rw [Function.update_self, hkeep i x hold] at hsame
    exact absurd hsame (hfree i x hold hspends)
  rw [hkeep i x hold, hkeep j y hold'] at hsame
  exact hown i j x y hold hspends hold' hspends' hsame

/-- **Every entry that spends has one of its own that earned before.** -/
theorem Solvent.exists_payment (hnot : ∀ e, spends e → earns e = false)
    (h : Solvent spends earns log) : ∃ pays, Pays spends earns pays log := by
  induction log with
  | nil =>
    refine ⟨fun _ => 0, fun i e he => ?_, fun i j e e' he => ?_⟩ <;> simp at he
  | cons e log ih =>
    obtain ⟨pays, hpays⟩ := ih h.tail
    cases he : spends e with
    | false => exact ⟨pays, hpays.cons he⟩
    | true =>
      have hcount : log.countP spends < log.countP earns := by
        have hall := h.count
        rw [List.countP_cons_of_pos he, List.countP_cons_of_neg (by simp [hnot e he])] at hall
        omega
      -- fewer have been used to pay than there are
      have hused : ((positions spends log).image pays).card < (positions earns log).card := by
        calc ((positions spends log).image pays).card ≤ (positions spends log).card :=
              Finset.card_image_le
          _ = log.countP spends := card_positions spends log
          _ < log.countP earns := hcount
          _ = (positions earns log).card := (card_positions earns log).symm
      obtain ⟨k, hk, hfree⟩ := Finset.exists_mem_notMem_of_card_lt_card hused
      obtain ⟨g, hg, hearns⟩ := mem_positions.mp hk
      refine ⟨_, hpays.spend hg hearns fun i x hx hspends hsame => hfree ?_⟩
      exact Finset.mem_image.mpr ⟨i, mem_positions.mpr ⟨x, hx, hspends⟩, hsame⟩

end Ledger
