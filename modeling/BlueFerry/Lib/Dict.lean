import Mathlib.Tactic

/-! # Dictionaries

A dictionary in the order of insertion, as Python's `dict`: an assignment to a key that is there
keeps its place, another one comes last. That no key is there twice is a field of `Dict`, so every
operation proves it once.

`get?` decides everything but the order; `get?_set`, `get?_erase` and `get?_mapValues` say what the
operations do to it, and `mem_items_iff` and `mem_keys_iff` read the items and the keys off it.
-/

structure Dict (κ ν : Type) where
  items : List (κ × ν)
  nodup : (items.map Prod.fst).Nodup

namespace Dict

variable {κ ν : Type} [DecidableEq κ]

def empty : Dict κ ν := ⟨[], List.nodup_nil⟩

section

variable (d : Dict κ ν)

def keys : List κ := d.items.map Prod.fst

/-- `d.get(k)` -/
def get? (k : κ) : Option ν := d.items.lookup k

/-- The items with the value of a key that is there replaced, or with a new last one. -/
def setItems (items : List (κ × ν)) (k : κ) (v : ν) : List (κ × ν) :=
  if k ∈ items.map Prod.fst then items.map (fun e => if e.1 = k then (k, v) else e)
  else items ++ [(k, v)]

theorem keys_replace (items : List (κ × ν)) (k : κ) (v : ν) :
    (items.map (fun e => if e.1 = k then (k, v) else e)).map Prod.fst = items.map Prod.fst := by
  rw [List.map_map]
  apply List.map_congr_left
  intro e _
  by_cases h : e.1 = k <;> simp [h]

/-- `d[k] = v` -/
def set (k : κ) (v : ν) : Dict κ ν where
  items := setItems d.items k v
  nodup := by
    unfold setItems
    by_cases h : k ∈ d.items.map Prod.fst
    · rw [if_pos h, keys_replace]
      exact d.nodup
    rw [if_neg h, List.map_append]
    refine List.nodup_append.mpr ⟨d.nodup, by simp, ?_⟩
    intro a ha b hb hab
    rw [hab, List.mem_singleton.mp hb] at ha
    exact h ha

/-- `d.pop(k, None)` -/
def erase (k : κ) : Dict κ ν where
  items := d.items.filter (fun e => !decide (e.1 = k))
  nodup := d.nodup.sublist (List.filter_sublist.map _)

/-- The values changed in place. -/
def mapValues (f : κ → ν → ν) : Dict κ ν where
  items := d.items.map (fun e => (e.1, f e.1 e.2))
  nodup := by
    rw [List.map_map]
    exact d.nodup

/-- The items that meet `p`, in their order. -/
def filter (d : Dict κ ν) (p : κ → ν → Bool) : Dict κ ν where
  items := d.items.filter (fun e => p e.1 e.2)
  nodup := d.nodup.sublist (List.filter_sublist.map _)

/-- The items that `f` keeps, with the values that it gives them, in their order. -/
def filterMap {μ : Type} (d : Dict κ ν) (f : ν → Option μ) : Dict κ μ where
  items := d.items.filterMap (fun e => (f e.2).map (fun v => (e.1, v)))
  nodup := by
    refine d.nodup.sublist ?_
    rw [List.map_filterMap]
    have hkeys : ∀ e : κ × ν, Option.map Prod.fst ((f e.2).map (fun v => (e.1, v))) =
        (f e.2).map (fun _ => e.1) := by
      intro e
      cases f e.2 <;> rfl
    simp only [hkeys]
    induction d.items with
    | nil => exact List.Sublist.refl _
    | cons e items ih =>
      cases h : f e.2 with
      | none =>
        rw [List.filterMap_cons_none (by rw [h]; rfl), List.map_cons]
        exact ih.cons e.1
      | some v =>
        rw [List.filterMap_cons_some (by rw [h]; rfl), List.map_cons]
        exact ih.cons_cons e.1

/-- The last `n` items: what is left when the first ones are popped while there are more. -/
def keepLast (n : Nat) : Dict κ ν where
  items := d.items.drop (d.items.length - n)
  nodup := d.nodup.sublist ((List.drop_sublist _ _).map _)

end

/-! ## What is found under a key -/

variable {d : Dict κ ν} {k : κ}

theorem mem_items_iff {v : ν} : (k, v) ∈ d.items ↔ d.get? k = some v := by
  obtain ⟨items, hnodup⟩ := d
  show (k, v) ∈ items ↔ items.lookup k = some v
  induction items with
  | nil => simp
  | cons e items ih =>
    rw [List.map_cons, List.nodup_cons] at hnodup
    rw [List.mem_cons, List.lookup_cons]
    by_cases h : k = e.1
    · subst h
      have hnot : (e.1, v) ∉ items := fun hmem => hnodup.1 (List.mem_map.mpr ⟨(e.1, v), hmem, rfl⟩)
      rw [beq_self_eq_true]
      constructor
      · rintro (heq | hmem)
        · rw [← heq]
        · exact absurd hmem hnot
      · intro heq
        exact .inl (by rw [← Option.some.inj heq])
    rw [beq_false_of_ne h]
    constructor
    · rintro (heq | hmem)
      · exact absurd (congrArg Prod.fst heq) h
      · exact (ih hnodup.2).mp hmem
    · exact fun heq => .inr ((ih hnodup.2).mpr heq)

theorem mem_keys_iff : k ∈ d.keys ↔ ∃ v, d.get? k = some v := by
  unfold keys
  rw [List.mem_map]
  constructor
  · rintro ⟨⟨k', v⟩, hmem, rfl⟩
    exact ⟨v, mem_items_iff.mp hmem⟩
  · rintro ⟨v, hv⟩
    exact ⟨(k, v), mem_items_iff.mpr hv, rfl⟩

theorem get?_eq_none : d.get? k = none ↔ k ∉ d.keys := by
  rw [mem_keys_iff, Option.eq_none_iff_forall_ne_some]
  exact not_exists.symm

@[simp] theorem get?_empty (k : κ) : (empty : Dict κ ν).get? k = none := rfl

/-- Two dictionaries that hold the same item under a key agree on it. -/
theorem get?_congr {d' : Dict κ ν} (h : ∀ v, (k, v) ∈ d'.items ↔ (k, v) ∈ d.items) :
    d'.get? k = d.get? k := by
  apply Option.ext
  intro v
  rw [← mem_items_iff, h v, mem_items_iff]

theorem get?_of_keepLast {n : Nat} {v : ν} (h : (d.keepLast n).get? k = some v) :
    d.get? k = some v := mem_items_iff.mp (List.mem_of_mem_drop (mem_items_iff.mpr h))

theorem get?_set (d : Dict κ ν) (k j : κ) (v : ν) :
    (d.set k v).get? j = if j = k then some v else d.get? j := by
  by_cases hj : j = k
  · rw [if_pos hj, hj, ← mem_items_iff]
    show (k, v) ∈ setItems d.items k v
    unfold setItems
    by_cases h : k ∈ d.items.map Prod.fst
    · rw [if_pos h]
      obtain ⟨e, he, hk⟩ := List.mem_map.mp h
      exact List.mem_map.mpr ⟨e, he, by rw [if_pos hk]⟩
    · rw [if_neg h]
      exact List.mem_append_right _ (List.mem_singleton_self _)
  rw [if_neg hj]
  apply get?_congr
  intro w
  show (j, w) ∈ setItems d.items k v ↔ (j, w) ∈ d.items
  unfold setItems
  by_cases h : k ∈ d.items.map Prod.fst
  · rw [if_pos h, List.mem_map]
    constructor
    · rintro ⟨e, he, heq⟩
      by_cases hk : e.1 = k
      · rw [if_pos hk] at heq
        exact absurd (congrArg Prod.fst heq).symm hj
      rw [if_neg hk] at heq
      exact heq ▸ he
    · exact fun hmem => ⟨(j, w), hmem, by rw [if_neg hj]⟩
  rw [if_neg h, List.mem_append, List.mem_singleton]
  constructor
  · rintro (hmem | heq)
    · exact hmem
    · exact absurd (congrArg Prod.fst heq) hj
  · exact .inl

theorem get?_erase (d : Dict κ ν) (k j : κ) :
    (d.erase k).get? j = if j = k then none else d.get? j := by
  by_cases hj : j = k
  · rw [if_pos hj, get?_eq_none, hj]
    intro hmem
    obtain ⟨e, he, heq⟩ := List.mem_map.mp hmem
    have hne := (List.mem_filter.mp he).2
    simp [heq] at hne
  rw [if_neg hj]
  apply get?_congr
  intro w
  show (j, w) ∈ d.items.filter _ ↔ _
  simp [List.mem_filter, hj]

theorem get?_mapValues (d : Dict κ ν) (f : κ → ν → ν) (j : κ) :
    (d.mapValues f).get? j = (d.get? j).map (f j) := by
  apply Option.ext
  intro w
  rw [← mem_items_iff, Option.map_eq_some_iff]
  show (j, w) ∈ d.items.map _ ↔ _
  rw [List.mem_map]
  constructor
  · rintro ⟨⟨k, v⟩, hmem, heq⟩
    cases heq
    exact ⟨v, mem_items_iff.mp hmem, rfl⟩
  · rintro ⟨v, hv, rfl⟩
    exact ⟨(j, v), mem_items_iff.mpr hv, rfl⟩

theorem get?_filter (d : Dict κ ν) (p : κ → ν → Bool) (j : κ) :
    (d.filter p).get? j = (d.get? j).filter (p j) := by
  apply Option.ext
  intro w
  rw [← mem_items_iff, Option.filter_eq_some_iff, ← mem_items_iff]
  show (j, w) ∈ d.items.filter _ ↔ _
  rw [List.mem_filter]

/-! ## The keys -/

theorem mem_keys_set {j : κ} {v : ν} : j ∈ (d.set k v).keys ↔ j = k ∨ j ∈ d.keys := by
  rw [mem_keys_iff, mem_keys_iff, get?_set]
  by_cases h : j = k <;> simp [h]

theorem mem_keys_erase {j : κ} : j ∈ (d.erase k).keys ↔ j ≠ k ∧ j ∈ d.keys := by
  rw [mem_keys_iff, mem_keys_iff, get?_erase]
  by_cases h : j = k <;> simp [h]

theorem mem_keys_mapValues {f : κ → ν → ν} {j : κ} : j ∈ (d.mapValues f).keys ↔ j ∈ d.keys := by
  rw [mem_keys_iff, mem_keys_iff, get?_mapValues]
  cases d.get? j with
  | none => simp
  | some v => simp

end Dict
