import BlueFerry.Lib.Dict

/-! # Tables with an ever increasing row id

A table whose ids are given out by a counter that never goes back (`AUTOINCREMENT`). The rows are
kept in the order of their ids, and no id is above the counter; both are fields of `Table`, so
every operation proves them once.

`Follows t u` says that `u` can have come from `t` by inserting and deleting: no row of `u` with an
old id is a new one. Over such a change, the number of rows and the greatest id tell whether
anything was removed (`Follows.rows_eq`, `Follows.kept`). An update of a row in place is the one
operation that breaks it.
-/

structure Table (β : Type) where
  rows : List (Nat × β)
  seq : Nat
  sorted : rows.Pairwise (fun r s => r.1 < s.1)
  bounded : ∀ r ∈ rows, r.1 ≤ seq

namespace Table

variable {β : Type}

/-! ## Statements -/

def empty : Table β := ⟨[], 0, List.Pairwise.nil, by simp⟩

section

variable (t : Table β)

/-- `INSERT`: the new row takes the next id of the counter. -/
def insert (value : β) : Table β where
  rows := t.rows ++ [(t.seq + 1, value)]
  seq := t.seq + 1
  sorted := by
    rw [List.pairwise_append]
    refine ⟨t.sorted, List.pairwise_singleton _ _, ?_⟩
    intro r hr s hs
    rw [List.mem_singleton.mp hs]
    exact Nat.lt_succ_of_le (t.bounded r hr)
  bounded := by
    intro r hr
    rcases List.mem_append.mp hr with hr | hr
    · exact Nat.le_succ_of_le (t.bounded r hr)
    · rw [List.mem_singleton.mp hr]

/-- `DELETE … WHERE`. -/
def deleteWhere (p : Nat × β → Bool) : Table β where
  rows := t.rows.filter (fun r => !p r)
  seq := t.seq
  sorted := t.sorted.filter _
  bounded := fun r hr => t.bounded r (List.mem_of_mem_filter hr)

/-- `UPDATE … WHERE id = ?`. -/
def update (id : Nat) (value : β) : Table β where
  rows := t.rows.map (fun r => if r.1 = id then (id, value) else r)
  seq := t.seq
  sorted := by
    rw [List.pairwise_map]
    refine t.sorted.imp ?_
    intro r s hrs
    split_ifs with h1 h2 h2
    · omega
    · simpa [← h1] using hrs
    · simpa [← h2] using hrs
    · exact hrs
  bounded := by
    intro r hr
    obtain ⟨s, hs, rfl⟩ := List.mem_map.mp hr
    have hbound := t.bounded s hs
    split_ifs with h
    · simpa [← h] using hbound
    · exact hbound

/-- `SELECT COUNT(*)`. -/
def count : Nat := t.rows.length

/-- `SELECT COALESCE(MAX(id), 0)`. -/
def newest : Nat := t.rows.foldl (fun m r => max m r.1) 0

/-- The value of a row. -/
def find (id : Nat) : Option β := t.rows.lookup id

end

/-! ## The greatest id -/

theorem le_foldl_max (l : List (Nat × β)) (m : Nat) :
    m ≤ l.foldl (fun m r => max m r.1) m
      ∧ ∀ r ∈ l, r.1 ≤ l.foldl (fun m r => max m r.1) m := by
  induction l generalizing m with
  | nil => simp
  | cons a l ih =>
    obtain ⟨hle, hall⟩ := ih (max m a.1)
    refine ⟨le_trans (le_max_left _ _) hle, ?_⟩
    intro r hr
    rcases List.mem_cons.mp hr with rfl | hr
    · exact le_trans (le_max_right _ _) hle
    · exact hall r hr

theorem foldl_max_le (l : List (Nat × β)) {m n : Nat} (hm : m ≤ n) (h : ∀ r ∈ l, r.1 ≤ n) :
    l.foldl (fun m r => max m r.1) m ≤ n := by
  induction l generalizing m with
  | nil => exact hm
  | cons a l ih =>
    exact ih (max_le hm (h a (.head _))) (fun r hr => h r (List.mem_cons_of_mem _ hr))

variable {t u : Table β}

theorem le_newest {r : Nat × β} (hr : r ∈ t.rows) : r.1 ≤ t.newest := (le_foldl_max t.rows 0).2 r hr

theorem newest_le_seq (t : Table β) : t.newest ≤ t.seq :=
  foldl_max_le t.rows (Nat.zero_le _) t.bounded

theorem nodup_ids (t : Table β) : (t.rows.map Prod.fst).Nodup := by
  rw [List.Nodup, List.pairwise_map]
  exact t.sorted.imp (fun h => Nat.ne_of_lt h)

theorem nodup_rows (t : Table β) : t.rows.Nodup := List.Nodup.of_map _ t.nodup_ids

/-- A row is found under its id. -/
theorem mem_rows_iff {id : Nat} {value : β} : (id, value) ∈ t.rows ↔ t.find id = some value :=
  Dict.mem_items_iff (d := ⟨t.rows, t.nodup_ids⟩)

/-- Two rows of one id are the same. -/
theorem eq_of_id {r s : Nat × β} (hr : r ∈ t.rows) (hs : s ∈ t.rows)
    (h : r.1 = s.1) : r = s := List.inj_on_of_nodup_map t.nodup_ids hr hs h

/-- The rows after an update of one that is there. -/
theorem mem_update {id : Nat} {old value : β} (hrow : (id, old) ∈ t.rows)
    {r : Nat × β} : r ∈ (t.update id value).rows ↔ r = (id, value) ∨ r ∈ t.rows ∧ r.1 ≠ id := by
  show r ∈ t.rows.map (fun r => if r.1 = id then (id, value) else r) ↔ _
  rw [List.mem_map]
  constructor
  · rintro ⟨x, hx, rfl⟩
    by_cases hid : x.1 = id
    · exact Or.inl (by rw [if_pos hid])
    rw [if_neg hid]
    exact Or.inr ⟨hx, hid⟩
  · rintro (rfl | ⟨hr, hid⟩)
    · exact ⟨(id, old), hrow, by rw [if_pos rfl]⟩
    · exact ⟨r, hr, by rw [if_neg hid]⟩

/-! ## Tables without updates -/

/-- `u` comes after `t` with rows inserted and deleted, but none changed. -/
structure Follows (t u : Table β) : Prop where
  seq_le : t.seq ≤ u.seq
  old : ∀ r ∈ u.rows, r.1 ≤ t.seq → r ∈ t.rows

theorem Follows.refl (t : Table β) : Follows t t := ⟨le_refl _, fun _ hr _ => hr⟩

theorem Follows.trans {v : Table β} (h : Follows t u) (h' : Follows u v) : Follows t v where
  seq_le := le_trans h.seq_le h'.seq_le
  old := fun r hr hle => h.old r (h'.old r hr (le_trans hle h.seq_le)) hle

theorem follows_insert (t : Table β) (value : β) : Follows t (t.insert value) where
  seq_le := Nat.le_succ _
  old := by
    intro r hr hle
    rcases List.mem_append.mp hr with hr | hr
    · exact hr
    rw [List.mem_singleton.mp hr] at hle
    exact absurd hle (by simp)

theorem follows_deleteWhere (t : Table β) (p : Nat × β → Bool) : Follows t (t.deleteWhere p) where
  seq_le := le_refl _
  old := fun _ hr _ => List.mem_of_mem_filter hr

/-- **The same count and the same newest id mean the same rows.** -/
theorem Follows.rows_eq (h : Follows t u) (hcount : t.count = u.count)
    (hnewest : t.newest = u.newest) : t.rows = u.rows := by
  have hsub : u.rows ⊆ t.rows := by
    intro r hr
    have hle : r.1 ≤ t.seq := by
      calc r.1 ≤ u.newest := le_newest hr
        _ = t.newest := hnewest.symm
        _ ≤ t.seq := t.newest_le_seq
    exact h.old r hr hle
  have hperm : u.rows.Perm t.rows := (u.nodup_rows.subperm hsub).perm_of_length_le (le_of_eq hcount)
  exact (hperm.eq_of_pairwise (fun a b _ _ hab hba => absurd hab (by omega)) u.sorted t.sorted).symm

/-- The rows of `u` above the newest id of `t` are no more than the ids between the two. -/
theorem length_new_le : (u.rows.filter (fun r => t.newest < r.1)).length ≤ u.newest - t.newest := by
  have hnodup : ((u.rows.filter (fun r => t.newest < r.1)).map Prod.fst).Nodup :=
    u.nodup_ids.sublist (List.filter_sublist.map _)
  have hsub : ((u.rows.filter (fun r => t.newest < r.1)).map Prod.fst).toFinset
      ⊆ Finset.Ioc t.newest u.newest := by
    intro id hid
    obtain ⟨r, hr, rfl⟩ := List.mem_map.mp (List.mem_toFinset.mp hid)
    obtain ⟨hmem, hlt⟩ := List.mem_filter.mp hr
    exact Finset.mem_Ioc.mpr ⟨of_decide_eq_true hlt, le_newest hmem⟩
  calc (u.rows.filter (fun r => t.newest < r.1)).length
      = ((u.rows.filter (fun r => t.newest < r.1)).map Prod.fst).toFinset.card := by
        rw [List.toFinset_card_of_nodup hnodup, List.length_map]
    _ ≤ (Finset.Ioc t.newest u.newest).card := Finset.card_le_card hsub
    _ = u.newest - t.newest := Nat.card_Ioc _ _

/-- **If the count grew by as much as the newest id, nothing was removed.** -/
theorem Follows.kept (h : Follows t u) (hnewest : t.newest ≤ u.newest)
    (hcount : u.count + t.newest = t.count + u.newest) : ∀ r ∈ t.rows, r ∈ u.rows := by
  have hnew := length_new_le (t := t) (u := u)
  set old := u.rows.filter (fun r => !decide (t.newest < r.1)) with hold
  have hlen : u.count = (u.rows.filter (fun r => t.newest < r.1)).length + old.length := by
    rw [count, hold, List.length_eq_length_filter_add (fun r => decide (t.newest < r.1))]
  have hsub : old ⊆ t.rows := by
    intro r hr
    obtain ⟨hmem, hle⟩ := List.mem_filter.mp hr
    have hle' : r.1 ≤ t.newest := by simpa using hle
    exact h.old r hmem (le_trans hle' t.newest_le_seq)
  have hnodup : old.Nodup := u.nodup_rows.filter _
  have hperm : old.Perm t.rows := by
    apply (hnodup.subperm hsub).perm_of_length_le
    show t.count ≤ old.length
    omega
  intro r hr
  exact List.mem_of_mem_filter (hperm.mem_iff.mpr hr)

end Table
