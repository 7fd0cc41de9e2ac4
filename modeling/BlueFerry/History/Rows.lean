import BlueFerry.Lib.Paging
import BlueFerry.History.Floor

/-! # Reading and deleting rows

`_payload_rows` reads the events in pages of 256 rows, each by a statement of its own, so that other
connections append and delete rows between two pages. The ids only grow, and a page goes on from the
last id of the page before it: so every row that stays is read once, and none twice
(`payload_rows_paged`). Newest first, the first page takes the ids below `2**63 - 1`, and the row
that has just this id, the last one that SQLite gives out, is never read.

`delete_event_rows` counts the rows it has removed by the changes of its connection, after the floor
was written to the same connection: where it raises the floor, the count is one too high
(`deletesExactly_iff`).
-/

namespace BlueFerry.History

open BlueFerry.Text

/-! ## Pages of rows -/

/-- `_READ_PAGE_ROWS` -/
def readPageRows : Nat := 256

/-- The bound of the first page. -/
def firstBound (newestFirst : Bool) : Int := if newestFirst then 2 ^ 63 - 1 else -(2 ^ 63)

/-- The order of the rows: `id < ?` goes on from a greater id, `id > ?` from a smaller one. -/
def Ahead (newestFirst : Bool) (a b : Int) : Prop := if newestFirst then b < a else a < b

instance (newestFirst : Bool) : DecidableRel (Ahead newestFirst) := fun _ _ =>
  inferInstanceAs (Decidable (if newestFirst then _ else _))

section

variable (newestFirst : Bool)

/-- `ORDER BY id`, in either direction. -/
def orderById (t : Table Str) : List (Nat × Str) :=
  if newestFirst then t.rows.reverse else t.rows

/-- An id as SQLite compares it. -/
def rowId (r : Nat × Str) : Int := r.1

/-- The iteration of `_payload_rows`, and the table that it reads. -/
structure Iteration where
  table : Table Str
  reader : Paging.Reader (Nat × Str) Int

/-- The iteration before its first page. -/
def Iteration.start (t : Table Str) : Iteration :=
  ⟨t, ⟨firstBound newestFirst, [], false⟩⟩

/-- What happens next: the iteration fetches a page, or another connection changes the table. -/
inductive Turn where
  | page
  | append (payload : Str)
  | delete (eventId : Nat)
  deriving DecidableEq

/-- `_payload_rows`, turn by turn. -/
def payloadRows (it : Iteration) : Turn → Iteration
  | .page =>
    { it with
      reader := it.reader.read (Ahead newestFirst) rowId readPageRows
        (orderById newestFirst it.table) }
  | .append payload => { it with table := it.table.insert payload }
  | .delete eventId => { it with table := it.table.deleteWhere (fun r => r.1 = eventId) }

/-- The statement without pages. -/
def unpagedRows (t : Table Str) : List (Nat × Str) :=
  orderById newestFirst t

/-- The row is in the table now and after every turn. -/
def Stays (r : Nat × Str) (it : Iteration) (turns : List Turn) : Prop :=
  r ∈ it.table.rows ∧
    Machine.Along (payloadRows newestFirst)
      (fun it turn => r ∈ (payloadRows newestFirst it turn).table.rows) it turns

/-- The first page starts before the row. -/
def Reached (r : Nat × Str) : Prop :=
  Ahead newestFirst (firstBound newestFirst) (rowId r)

end

instance (newestFirst : Bool) (r : Nat × Str) : Decidable (Reached newestFirst r) :=
  inferInstanceAs (Decidable (Ahead _ _ _))

section

variable (newestFirst : Bool)

/-- Oldest first, every row is reached; newest first, all but the one with the greatest id. -/
theorem reached_iff (r : Nat × Str) :
    Reached newestFirst r ↔ newestFirst = false ∨ r.1 < 2 ^ 63 - 1 := by
  cases newestFirst with
  | true =>
    simp only [Reached, Ahead, firstBound, rowId, if_true, Bool.true_eq_false, false_or]
    omega
  | false =>
    simp only [Reached, Ahead, firstBound, rowId, Bool.false_eq_true, if_false, true_or, iff_true]
    omega

theorem ahead_irrefl (a : Int) : ¬ Ahead newestFirst a a := by
  cases newestFirst with
  | true | false => exact lt_irrefl a

theorem ahead_trans (a b c : Int) (hab : Ahead newestFirst a b)
    (hbc : Ahead newestFirst b c) : Ahead newestFirst a c := by
  cases newestFirst with
  | true => exact lt_trans (show c < b from hbc) hab
  | false => exact lt_trans (show a < b from hab) hbc

/-- Both directions are in the order that the pages follow. -/
theorem ordered_orderById (t : Table Str) :
    Paging.Ordered (Ahead newestFirst) rowId (orderById newestFirst t) := by
  cases newestFirst with
  | true =>
    refine List.pairwise_reverse.mpr (t.sorted.imp ?_)
    intro r s h
    exact Int.ofNat_lt.mpr h
  | false => exact t.sorted.imp (fun h => Int.ofNat_lt.mpr h)

end

variable {newestFirst : Bool}

variable {r : Nat × Str} {it : Iteration} {turns : List Turn}

theorem mem_orderById {t : Table Str} : r ∈ orderById newestFirst t ↔ r ∈ t.rows := by
  cases newestFirst with
  | true => exact List.mem_reverse
  | false => exact Iff.rfl

/-! ## The turns of an iteration -/

/-- Whatever the turns are, what was read is in order. -/
theorem sound_payloadRows (turn : Turn) (h : Paging.Sound (Ahead newestFirst) rowId it.reader) :
    Paging.Sound (Ahead newestFirst) rowId (payloadRows newestFirst it turn).reader := by
  cases turn with
  | page => exact Paging.sound_read (ahead_trans newestFirst) (ordered_orderById _ _) h
  | append payload => exact h
  | delete eventId => exact h

/-- A row that stays is read, or the iteration has not come to it yet. -/
theorem covered_run (hstays : Stays newestFirst r it turns)
    (h : Paging.Covered (Ahead newestFirst) rowId r it.reader) :
    Paging.Covered (Ahead newestFirst) rowId r
      (Machine.run (payloadRows newestFirst) it turns).reader := by
  induction turns generalizing it with
  | nil => exact h
  | cons turn turns ih =>
    obtain ⟨hmem, hnext, hrest⟩ := hstays
    refine ih ⟨hnext, hrest⟩ ?_
    cases turn with
    | page => exact Paging.covered_read (ordered_orderById _ _) (mem_orderById.mpr hmem) h
    | append payload | delete eventId => exact h

/-- As long as the iteration goes on, every page adds rows. -/
theorem pages_le_yielded
    (h : (Machine.run (payloadRows newestFirst) it turns).reader.finished = false) :
    it.reader.yielded.length + turns.count .page ≤
      (Machine.run (payloadRows newestFirst) it turns).reader.yielded.length := by
  induction turns using List.reverseRecOn with
  | nil => simp
  | append_singleton turns turn ih =>
    rw [Machine.run_append, Machine.run_cons, Machine.run_nil] at h ⊢
    rw [List.count_append]
    cases turn with
    | page =>
      have hopen : (Machine.run (payloadRows newestFirst) it turns).reader.finished = false := by
        by_contra hfinished
        have hread := h
        simp only [payloadRows, Paging.Reader.read, Bool.not_eq_false] at hread hfinished
        rw [if_pos hfinished, hfinished] at hread
        exact Bool.noConfusion hread
      have hlen := Paging.length_read h
      have hbefore := ih hopen
      simp only [payloadRows, List.count_singleton_self, readPageRows] at hlen ⊢
      omega
    | append payload | delete eventId =>
      have hbefore := ih h
      simpa [payloadRows] using hbefore

/-- How many ids an iteration can read before it comes to this one. -/
def idsBefore (newestFirst : Bool) (r : Nat × Str) : Nat :=
  if newestFirst then 2 ^ 63 - 1 - r.1 else r.1

/-- The ids of what was read lie between the first bound and the position. -/
theorem yielded_reached (newestFirst : Bool) (t : Table Str) (turns : List Turn)
    (hr : r ∈ (Machine.run (payloadRows newestFirst)
      (Iteration.start newestFirst t) turns).reader.yielded) : Reached newestFirst r := by
  have hall := Machine.always (payloadRows newestFirst)
    (P := fun it => (it.reader.after = firstBound newestFirst ∨
        Ahead newestFirst (firstBound newestFirst) it.reader.after) ∧
      ∀ r ∈ it.reader.yielded, Reached newestFirst r)
    (s := Iteration.start newestFirst t) ?_ turns ⟨Or.inl rfl, fun _ h => absurd h List.not_mem_nil⟩
  · exact hall.2 r hr
  · rintro it turn ⟨hafter, hyielded⟩
    cases turn with
    | append payload | delete eventId => exact ⟨hafter, hyielded⟩
    | page =>
      have hpage : ∀ s ∈ Paging.page (Ahead newestFirst) rowId readPageRows it.reader.after
          (orderById newestFirst it.table), Reached newestFirst s := by
        intro s hs
        have hs' := Paging.beyond_of_page hs
        rcases hafter with heq | hlt
        · rw [heq] at hs'
          exact hs'
        · exact ahead_trans _ _ _ _ hlt hs'
      simp only [payloadRows, Paging.Reader.read]
      split
      · exact ⟨hafter, hyielded⟩
      refine ⟨?_, ?_⟩
      · dsimp only
        cases hlast : (Paging.page (Ahead newestFirst) rowId readPageRows it.reader.after
            (orderById newestFirst it.table)).getLast? with
        | none => exact hafter
        | some last => exact Or.inr (hpage last (List.mem_of_getLast? hlast))
      intro s hs
      rcases List.mem_append.mp hs with hs | hs
      · exact hyielded s hs
      · exact hpage s hs

/-- What was read up to a row that is still to come has ids before it. -/
theorem yielded_le_idsBefore {t : Table Str} (hahead : Ahead newestFirst
      (Machine.run (payloadRows newestFirst) (Iteration.start newestFirst t) turns).reader.after
      (rowId r)) : (Machine.run (payloadRows newestFirst)
      (Iteration.start newestFirst t) turns).reader.yielded.length ≤ idsBefore newestFirst r := by
  have hsound := Machine.always (payloadRows newestFirst)
    (P := fun it => Paging.Sound (Ahead newestFirst) rowId it.reader)
    (s := Iteration.start newestFirst t) (fun _ turn h => sound_payloadRows turn h) turns
    (Paging.sound_start _)
  have hreached : ∀ s ∈ _, Reached newestFirst s := fun _ => yielded_reached newestFirst t turns
  generalize (Machine.run (payloadRows newestFirst)
    (Iteration.start newestFirst t) turns).reader = reader at hahead hsound hreached
  have hnodup : (reader.yielded.map Prod.fst).Nodup := by
    rw [List.Nodup, List.pairwise_map]
    refine hsound.ordered.imp ?_
    intro a b hab heq
    have hkeys : rowId a = rowId b := congrArg Int.ofNat heq
    exact ahead_irrefl newestFirst _ (hkeys ▸ hab)
  have hbefore : ∀ s ∈ reader.yielded, Ahead newestFirst (rowId s) (rowId r) := by
    intro s hs
    rcases hsound.behind s hs with heq | hlt
    · rw [heq]
      exact hahead
    · exact ahead_trans _ _ _ _ hlt hahead
  have hsub : (reader.yielded.map Prod.fst).toFinset ⊆
      if newestFirst then Finset.Ioo r.1 (2 ^ 63 - 1) else Finset.range r.1 := by
    intro id hid
    obtain ⟨s, hs, rfl⟩ := List.mem_map.mp (List.mem_toFinset.mp hid)
    have hkey := hbefore s hs
    cases newestFirst with
    | true =>
      have hbound := (reached_iff true s).mp (hreached s hs)
      exact Finset.mem_Ioo.mpr ⟨Int.ofNat_lt.mp hkey, hbound.resolve_left (by simp)⟩
    | false => exact Finset.mem_range.mpr (Int.ofNat_lt.mp hkey)
  calc reader.yielded.length
      = (reader.yielded.map Prod.fst).toFinset.card := by
        rw [List.toFinset_card_of_nodup hnodup, List.length_map]
    _ ≤ (if newestFirst then Finset.Ioo r.1 (2 ^ 63 - 1) else Finset.range r.1).card :=
        Finset.card_le_card hsub
    _ ≤ idsBefore newestFirst r := by
        cases newestFirst with
        | true =>
          simp only [if_true, Nat.card_Ioo, idsBefore]
          omega
        | false => simp [idsBefore]

/-- **Every row that stays is read once**, in the order of the ids and no row twice, whatever other
connections append and delete between the pages, at the latest with the last page or when there are
no more ids before it; and a table that nobody changes is read like by one statement. Newest first,
this leaves out the row with the greatest id that SQLite has. -/
theorem payload_rows_paged (newestFirst : Bool) (t : Table Str) (turns : List Turn) :
    (Machine.run (payloadRows newestFirst) (Iteration.start newestFirst t)
        turns).reader.yielded.Pairwise (fun r s => Ahead newestFirst (rowId r) (rowId s)) ∧
    (Machine.run (payloadRows newestFirst) (Iteration.start newestFirst t)
        turns).reader.yielded.Nodup ∧
    (∀ r, Reached newestFirst r → Stays newestFirst r (Iteration.start newestFirst t) turns →
      ((Machine.run (payloadRows newestFirst) (Iteration.start newestFirst t)
          turns).reader.finished = true ∨ idsBefore newestFirst r < turns.count .page) →
      (Machine.run (payloadRows newestFirst) (Iteration.start newestFirst t)
        turns).reader.yielded.count r = 1) ∧
    ((∀ turn ∈ turns, turn = .page) → t.rows.length < turns.length →
      (Machine.run (payloadRows newestFirst) (Iteration.start newestFirst t)
          turns).reader.finished = true ∧
        (Machine.run (payloadRows newestFirst) (Iteration.start newestFirst t)
          turns).reader.yielded = (unpagedRows newestFirst t).filter (Reached newestFirst)) := by
  have hsound := Machine.always (payloadRows newestFirst)
    (P := fun it => Paging.Sound (Ahead newestFirst) rowId it.reader)
    (s := Iteration.start newestFirst t) (fun _ turn h => sound_payloadRows turn h) turns
    (Paging.sound_start _)
  have hnodup : (Machine.run (payloadRows newestFirst) (Iteration.start newestFirst t)
      turns).reader.yielded.Nodup := by
    refine hsound.ordered.imp ?_
    intro a b hab heq
    exact ahead_irrefl newestFirst _ (heq ▸ hab)
  refine ⟨hsound.ordered, hnodup, ?_, ?_⟩
  · intro r hreached hstays hend
    refine List.count_eq_one_of_mem hnodup ?_
    rcases covered_run hstays (Or.inr ⟨rfl, hreached⟩) with hread | ⟨hopen, hahead⟩
    · exact hread
    rcases hend with hfinished | hpages
    · rw [hopen] at hfinished
      exact Bool.noConfusion hfinished
    have hle := pages_le_yielded hopen
    have hbound := yielded_le_idsBefore hahead
    omega
  intro hquiet hmany
  have hagrees : Paging.Agrees (Ahead newestFirst) rowId (firstBound newestFirst)
        (orderById newestFirst t) (Machine.run (payloadRows newestFirst)
          (Iteration.start newestFirst t) turns).reader ∧
      (Machine.run (payloadRows newestFirst) (Iteration.start newestFirst t) turns).table = t := by
    clear hmany hnodup hsound
    induction turns using List.reverseRecOn with
    | nil => exact ⟨Paging.agrees_start _ _, rfl⟩
    | append_singleton turns turn ih =>
      obtain ⟨hagrees, htable⟩ := ih (fun x hx => hquiet x (List.mem_append_left _ hx))
      rw [Machine.run_append, Machine.run_cons, Machine.run_nil,
        hquiet turn (List.mem_append_right _ (.head _))]
      refine ⟨?_, htable⟩
      simp only [payloadRows, htable]
      exact Paging.agrees_read (ahead_irrefl newestFirst) (ahead_trans newestFirst)
        (by simp [readPageRows]) (ordered_orderById _ _) hagrees
  obtain ⟨hagrees, -⟩ := hagrees
  have hwhole : Paging.beyond (Ahead newestFirst) rowId (firstBound newestFirst)
      (orderById newestFirst t) = (unpagedRows newestFirst t).filter (Reached newestFirst) := rfl
  by_cases hfinished : (Machine.run (payloadRows newestFirst) (Iteration.start newestFirst t)
      turns).reader.finished = true
  · refine ⟨hfinished, ?_⟩
    rw [Paging.Agrees, if_pos hfinished, List.append_nil] at hagrees
    rw [hagrees, hwhole]
  -- every page so far was full, and there are fewer rows than pages
  exfalso
  have hle := pages_le_yielded (Bool.eq_false_iff.mpr hfinished)
  have hpages : turns.count .page = turns.length :=
    List.count_eq_length.mpr (fun turn hturn => (hquiet turn hturn).symm)
  have hyielded : (Machine.run (payloadRows newestFirst) (Iteration.start newestFirst t)
      turns).reader.yielded.length ≤ t.rows.length := by
    have hlen := congrArg List.length hagrees
    have hrows : (Paging.beyond (Ahead newestFirst) rowId (firstBound newestFirst)
        (orderById newestFirst t)).length ≤ (orderById newestFirst t).length :=
      List.length_filter_le _ _
    have hsame : (orderById newestFirst t).length = t.rows.length := by
      cases newestFirst with
      | true => exact List.length_reverse
      | false => rfl
    rw [List.length_append] at hlen
    omega
  omega

/-- A table with the one row that has the greatest id. -/
def lastIdTable : Table Str where
  rows := [(2 ^ 63 - 1, [])]
  seq := 2 ^ 63 - 1
  sorted := List.pairwise_singleton _ _
  bounded := by
    intro r hr
    rw [List.mem_singleton.mp hr]

/-- Newest first, the row with the greatest id is not read, though it is there all the time. -/
theorem last_id_not_read :
    Stays true (2 ^ 63 - 1, []) (Iteration.start true lastIdTable) [.page] ∧
      (Machine.run (payloadRows true) (Iteration.start true lastIdTable)
        [.page]).reader.finished = true ∧
      (Machine.run (payloadRows true) (Iteration.start true lastIdTable)
        [.page]).reader.yielded = [] ∧
      unpagedRows true lastIdTable = [(2 ^ 63 - 1, [])] := by
  refine ⟨⟨.head _, .head _, trivial⟩, ?_, ?_, rfl⟩ <;> decide

/-! ## Deleting rows -/

/-- What a deletion of rows by their ids is to do. -/
structure DeletesExactly (env : Env) (eventIds : List Nat) (raiseFloor : Bool) (w : World) :
    Prop where
  /-- the rows with these ids are gone, and the others are as they were -/
  rows : (deleteEventRows env eventIds raiseFloor w).1.db.events.rows =
    w.db.events.rows.filter (fun r => r.1 ∉ eventIds)
  /-- the number of rows that were removed -/
  counted : (deleteEventRows env eventIds raiseFloor w).2 =
    (w.db.events.rows.filter (fun r => r.1 ∈ eventIds)).length
  floor : (deleteEventRows env eventIds raiseFloor w).1.db.floor =
    if raiseFloor = true ∧ ∃ r ∈ w.db.events.rows, r.1 ∈ eventIds then
      (raiseBackfillFloor w.db env.now).floor
    else w.db.floor

/-- The rows that go and the rows that stay are all of them. -/
theorem count_deleteWhere (t : Table Str) (eventIds : List Nat) :
    t.count - (t.deleteWhere (fun r => eventIds.contains r.1)).count =
      (t.rows.filter (fun r => r.1 ∈ eventIds)).length := by
  have hsplit := List.length_eq_length_filter_add (l := t.rows) (fun r => decide (r.1 ∈ eventIds))
  have hkept : (t.deleteWhere (fun r => eventIds.contains r.1)).count =
      (t.rows.filter (fun r => !decide (r.1 ∈ eventIds))).length := by
    show (t.rows.filter _).length = _
    congr 2
    funext r
    simp
  rw [hkept, Table.count]
  omega

theorem rows_deleteWhere (t : Table Str) (eventIds : List Nat) :
    (t.deleteWhere (fun r => eventIds.contains r.1)).rows =
      t.rows.filter (fun r => r.1 ∉ eventIds) := by
  show t.rows.filter _ = _
  congr 1
  funext r
  simp

/-- The database without the rows of these ids. -/
def withoutRows (db : Db) (eventIds : List Nat) : Db :=
  { db with events := db.events.deleteWhere (fun r => eventIds.contains r.1) }

/-- **A deletion does what it says** exactly when it does not raise the floor, or there is nothing
to delete: the count takes in the row of the floor. A store that must not be written is left
alone. -/
theorem deletesExactly_iff (env : Env) (eventIds : List Nat) (raiseFloor : Bool) (w : World) :
    DeletesExactly env eventIds raiseFloor w ↔
      (env.writable = true ∧ raiseFloor = false) ∨ ∀ r ∈ w.db.events.rows, r.1 ∉ eventIds := by
  have hnone : (∀ r ∈ w.db.events.rows, r.1 ∉ eventIds) ↔
      (w.db.events.rows.filter (fun r => r.1 ∈ eventIds)).length = 0 := by
    rw [List.length_eq_zero_iff, List.filter_eq_nil_iff]
    simp
  have hsome : (∃ r ∈ w.db.events.rows, r.1 ∈ eventIds) ↔
      (w.db.events.rows.filter (fun r => r.1 ∈ eventIds)).length ≠ 0 := by
    rw [← not_iff_not, not_not, ← hnone]
    push Not
    rfl
  have hremoved := count_deleteWhere w.db.events eventIds
  by_cases hids : eventIds = []
  · -- no id is given
    subst hids
    refine iff_of_true ⟨?_, ?_, ?_⟩ (Or.inr (fun _ _ => List.not_mem_nil)) <;>
      simp [deleteEventRows]
  by_cases hwrite : env.writable = false
  · -- the storage policy does not permit writing
    have hdel : deleteEventRows env eventIds raiseFloor w = (w, 0) := by
      rw [deleteEventRows, if_neg hids, if_pos hwrite]
    constructor
    · intro h
      right
      rw [hnone]
      have hcount := h.counted
      rw [hdel] at hcount
      exact hcount.symm
    rintro (⟨hwrite', -⟩ | hall)
    · rw [hwrite] at hwrite'
      exact Bool.noConfusion hwrite'
    · refine ⟨?_, ?_, ?_⟩
      · rw [hdel]
        exact (List.filter_eq_self.mpr (fun r hr => decide_eq_true (hall r hr))).symm
      · rw [hdel]
        exact (hnone.mp hall).symm
      · rw [hdel, if_neg]
        rintro ⟨-, r, hr, hmem⟩
        exact hall r hr hmem
  · have hwritable : env.writable = true := by simpa using hwrite
    have hdel : deleteEventRows env eventIds raiseFloor w =
        if raiseFloor ∧ (w.db.events.rows.filter (fun r => r.1 ∈ eventIds)).length ≠ 0 then
          ({ w with db := raiseBackfillFloor (withoutRows w.db eventIds) env.now },
            (w.db.events.rows.filter (fun r => r.1 ∈ eventIds)).length + 1)
        else ({ w with db := withoutRows w.db eventIds },
            (w.db.events.rows.filter (fun r => r.1 ∈ eventIds)).length) := by
      rw [deleteEventRows, if_neg hids, if_neg hwrite]
      dsimp only
      rw [hremoved]
      rfl
    by_cases hraise : raiseFloor = true ∧
        (w.db.events.rows.filter (fun r => r.1 ∈ eventIds)).length ≠ 0
    · -- the floor is raised, and its row is counted
      refine iff_of_false ?_ ?_
      · intro h
        have hcount := h.counted
        rw [hdel, if_pos hraise] at hcount
        dsimp only at hcount
        omega
      rintro (⟨-, hfalse⟩ | hall)
      · rw [hraise.1] at hfalse
        exact Bool.noConfusion hfalse
      · exact hraise.2 (hnone.mp hall)
    · refine iff_of_true ⟨?_, ?_, ?_⟩ ?_
      · rw [hdel, if_neg hraise]
        exact rows_deleteWhere w.db.events eventIds
      · rw [hdel, if_neg hraise]
      · have hfloor : ¬ (raiseFloor = true ∧ ∃ r ∈ w.db.events.rows, r.1 ∈ eventIds) := by
          rw [hsome]
          exact hraise
        rw [hdel, if_neg hraise, if_neg hfloor]
        rfl
      by_cases hflag : raiseFloor = true
      · right
        rw [hnone]
        by_contra hne
        exact hraise ⟨hflag, hne⟩
      · exact Or.inl ⟨hwritable, by simpa using hflag⟩

/-- A store with one event. -/
def oneEvent : World := ⟨⟨Table.empty.insert [], 0, none, none⟩, none⟩

/-- One row is removed, and two are reported. -/
theorem floor_is_counted :
    (deleteEventRows (storeAt 1767323045200000) [1] true oneEvent).1.db.events.rows = [] ∧
      (deleteEventRows (storeAt 1767323045200000) [1] true oneEvent).2 = 2 ∧
      ¬ DeletesExactly (storeAt 1767323045200000) [1] true oneEvent := by
  have hcount : (deleteEventRows (storeAt 1767323045200000) [1] true oneEvent).2 = 2 := by decide
  refine ⟨by decide, hcount, fun h => ?_⟩
  have hone : (deleteEventRows (storeAt 1767323045200000) [1] true oneEvent).2 = 1 := h.counted
  omega

end BlueFerry.History
