import BlueFerry.Lib.Machine
import BlueFerry.History.Store

/-! # The floor of a backfill

A backfill reads the floor, lists the phone's inbox, which takes a while, and hands what is missing
to `appendEvents` together with the floor it has read. An erasure in between is to show in the floor.

The floor is the whole second of the last erasures, taken by maximum. So it rises with an erasure
only when the clock is past it: a second erasure within one second, or under a clock that was set
back, leaves it as it is (`ClockAhead`). Without that, nothing else moves it but the deletion of a
damaged file (`Intact`), which loses it.
-/

namespace BlueFerry.History

open BlueFerry.Text

/-- `backfill_floor`: in seconds, `none` when history was never erased. -/
def backfillFloor (w : World) : Option Int := w.db.floor

/-- The append with this floor is refused: it reports the error and writes nothing. -/
def Refused (floor : Option Int) (w : World) : Prop :=
  ∀ (env : Env) (events : List Record), events ≠ [] → appendEvents env events (some floor) w = (w, none)

/-- The operation erases history: a clear of a file that can be read, or a deletion for the user
that removes at least one row. -/
def Erases (w : World) (call : Env × Op) : Prop :=
  match call.2 with
  | .clear damaged _ => damaged = false
  | .deleteRows eventIds raiseFloor =>
    raiseFloor = true ∧ call.1.writable = true
      ∧ w.db.events.count - (w.db.events.deleteWhere (fun r => eventIds.contains r.1)).count ≠ 0
  | _ => False

/-- The operation does not delete a damaged file. -/
def Intact (_ : World) (call : Env × Op) : Prop :=
  match call.2 with
  | .clear damaged discardDamaged => ¬ (damaged = true ∧ discardDamaged = true)
  | _ => True

/-- The floor with its order: no floor is below every floor. -/
def level (w : World) : WithBot Int := backfillFloor w

/-- The whole second of the clock is past the stored floor. -/
def ClockAhead (w : World) (call : Env × Op) : Prop :=
  level w < ((call.1.now.tdiv 1000000 : Int) : WithBot Int)

/-! ## What an operation does to the floor -/

theorem level_raiseBackfillFloor (w : World) (db : Db) (now : Int) (h : db.floor = w.db.floor) :
    level { w with db := raiseBackfillFloor db now }
      = max (level w) ((now.tdiv 1000000 : Int) : WithBot Int) := by
  unfold level backfillFloor raiseBackfillFloor
  rw [← h]
  cases db.floor with
  | none => exact (max_eq_right bot_le).symm
  | some f => exact WithBot.coe_max f (now.tdiv 1000000)

variable {call : Env × Op} {w : World}

/-- An erasure takes the maximum with the clock. -/
theorem level_of_erases (h : Erases w call) :
    level (step w call) = max (level w) ((call.1.now.tdiv 1000000 : Int) : WithBot Int) := by
  obtain ⟨env, op⟩ := call
  cases op with
  | clear damaged discardDamaged =>
    have hd : damaged = false := h
    subst hd
    show level (clearEvents env false discardDamaged w) = _
    rw [clearEvents, if_neg (by simp)]
    exact level_raiseBackfillFloor w _ env.now rfl
  | deleteRows eventIds raiseFloor =>
    obtain ⟨hraise, hwrite, hremoved⟩ := h
    show level (deleteEventRows env eventIds raiseFloor w).1 = _
    have hids : eventIds ≠ [] := by
      -- no id selects no row
      rintro rfl
      apply hremoved
      simp [Table.deleteWhere, Table.count]
    rw [deleteEventRows, if_neg hids, if_neg (by simpa using hwrite)]
    simp only
    rw [if_pos ⟨hraise, hremoved⟩]
    exact level_raiseBackfillFloor w _ env.now rfl
  | append events floor | scrub | prune limits | markRead handles | minimize => exact h.elim

theorem level_appendEvents (env : Env) (events : List Record) (floor : Option (Option Int))
    (w : World) : level (appendEvents env events floor w).1 = level w := by
  unfold appendEvents
  split_ifs
  · rfl
  · rfl
  · split <;> rfl

theorem level_markEventHandlesRead (env : Env) (handles : List Str) (w : World) :
    level (markEventHandlesRead env handles w).1 = level w := by
  unfold markEventHandlesRead
  split_ifs
  · rfl
  · rfl
  simp only
  split
  · rfl
  · split <;> rfl

theorem level_minimizeAncsHistory (env : Env) (w : World) :
    level (minimizeAncsHistory env w).1 = level w := by
  unfold minimizeAncsHistory
  split_ifs
  · rfl
  · split <;> rfl

/-- Every other operation leaves the floor alone. -/
theorem level_of_not_erases (hintact : Intact w call)
    (h : ¬ Erases w call) : level (step w call) = level w := by
  obtain ⟨env, op⟩ := call
  cases op with
  | append events floor => exact level_appendEvents env events floor w
  | deleteRows eventIds raiseFloor =>
    show level (deleteEventRows env eventIds raiseFloor w).1 = _
    unfold deleteEventRows
    split_ifs with hids hwrite
    · rfl
    · rfl
    simp only
    split_ifs with hraise
    · exact absurd ⟨hraise.1, by simpa using hwrite, hraise.2⟩ h
    · rfl
  | clear damaged discardDamaged =>
    cases damaged with
    | false => exact absurd rfl h
    | true =>
      cases discardDamaged with
      | false => rfl
      | true => exact absurd ⟨rfl, rfl⟩ hintact
  | scrub =>
    show level (scrubUnprotectedEvents env w) = _
    unfold scrubUnprotectedEvents
    split_ifs <;> rfl
  | prune limits =>
    show level (pruneEvents env limits w).1 = _
    simp only [pruneEvents]
    split_ifs
    all_goals rfl
  | markRead handles => exact level_markEventHandlesRead env handles w
  | minimize => exact level_minimizeAncsHistory env w

theorem level_le_step (h : Intact w call) : level w ≤ level (step w call) := by
  by_cases herases : Erases w call
  · rw [level_of_erases herases]
    exact le_max_left _ _
  · rw [level_of_not_erases h herases]

/-- One operation raises the floor exactly when it erases under a clock that is ahead. -/
theorem level_lt_step_iff (h : Intact w call) :
    level w < level (step w call) ↔ Erases w call ∧ ClockAhead w call := by
  by_cases herases : Erases w call
  · rw [level_of_erases herases, lt_max_iff]
    constructor
    · rintro (hlt | hlt)
      · exact absurd hlt (lt_irrefl _)
      · exact ⟨herases, hlt⟩
    · exact fun hahead => Or.inr hahead.2
  rw [level_of_not_erases h herases]
  constructor
  · exact fun hlt => absurd hlt (lt_irrefl _)
  · exact fun hahead => absurd hahead.1 herases

/-! ## Runs -/

theorem level_le_run {calls : List (Env × Op)} (h : Machine.Along step Intact w calls) :
    level w ≤ level (Machine.run step w calls) :=
  Machine.relates step (R := fun w v => level w ≤ level v) (fun _ => le_refl _)
    (fun _ _ _ => le_trans) (fun _ _ => level_le_step) h

/-- Over a run, the floor has risen exactly when one of its steps raised it. -/
theorem level_lt_run_iff {calls : List (Env × Op)} (h : Machine.Along step Intact w calls) :
    level w < level (Machine.run step w calls)
      ↔ Machine.Sometime step (fun w call => Erases w call ∧ ClockAhead w call) w calls := by
  induction calls generalizing w with
  | nil =>
    simp [Machine.Sometime]
  | cons call calls ih =>
    obtain ⟨hcall, hcalls⟩ := h
    have hle : level w ≤ level (step w call) := level_le_step hcall
    have hle' : level (step w call) ≤ level (Machine.run step (step w call) calls) :=
      level_le_run hcalls
    rw [Machine.run_cons, Machine.Sometime, ← ih hcalls, ← level_lt_step_iff hcall]
    constructor
    · intro hlt
      rcases lt_or_eq_of_le hle with hstep | hstep
      · exact Or.inl hstep
      · exact Or.inr (hstep ▸ hlt)
    · rintro (hstep | hrest)
      · exact lt_of_lt_of_le hstep hle'
      · exact lt_of_le_of_lt hle hrest

/-- An append is refused for its floor only, whatever it carries. -/
theorem refused_iff {floor : Option Int} : Refused floor w ↔ floor ≠ backfillFloor w := by
  constructor
  · -- an event that can be sealed gets in under the stored floor
    rintro h rfl
    have happend := h ⟨false, true, true, false, fun _ => .missing, fun _ _ => some [], fun _ => none,
      0, 0⟩ [[]] (by simp)
    simp [appendEvents, backfillFloor, insertAll] at happend
  · intro hne env events hevents
    rw [appendEvents, if_neg hevents, if_pos]
    simpa [backfillFloor] using hne

/-- **A floor that was read before an erasure is refused after it**, exactly when one of the
erasures since then took place with the clock ahead of the floor. -/
theorem stale_floor_refused_iff {w : World} {calls : List (Env × Op)}
    (h : Machine.Along step Intact w calls) :
    (Machine.Sometime step Erases w calls →
        Refused (backfillFloor w) (Machine.run step w calls))
      ↔ (Machine.Sometime step Erases w calls →
        Machine.Sometime step (fun w call => Erases w call ∧ ClockAhead w call) w calls) := by
  have hle : level w ≤ level (Machine.run step w calls) := level_le_run h
  refine imp_congr_right (fun _ => ?_)
  rw [refused_iff, ← level_lt_run_iff h]
  constructor
  · exact fun hne => lt_of_le_of_ne hle hne
  · exact fun hlt => ne_of_lt (a := level w) hlt

/-! ## Two erasures within one second -/

/-- A store without a storage policy, at this time in microseconds. -/
def storeAt (now : Int) : Env where
  managed := false
  canRead := true
  canWrite := true
  encrypted := false
  deserialize := fun _ => .missing
  serialize := fun _ _ => some "\x7b\x7d".toList
  fromIsoFormat := fun _ => none
  now := now
  random := 5

/-- A cleared history in which a message has arrived since. -/
def clearedWorld : World :=
  Machine.run step ⟨Db.fresh, none⟩
    [(storeAt 1767323045200000, .clear false false), (storeAt 1767323045300000, .append [[]] none)]

/-- The clear of the next second. -/
def nextClear : List (Env × Op) := [(storeAt 1767323046100000, .clear false false)]

theorem stale_floor_refused_iff_next_second :
    Refused (backfillFloor clearedWorld) (Machine.run step clearedWorld nextClear) := by
  have hintact : Machine.Along step Intact clearedWorld nextClear := ⟨by simp [Intact], trivial⟩
  have hfloor : level clearedWorld = ((1767323045 : Int) : WithBot Int) := by decide +kernel
  have hahead : ClockAhead clearedWorld (storeAt 1767323046100000, .clear false false) := by
    rw [ClockAhead, hfloor]
    exact WithBot.coe_lt_coe.mpr (by decide)
  exact (stale_floor_refused_iff hintact).mpr (fun _ => Or.inl ⟨rfl, hahead⟩) (Or.inl rfl)

/-- The second clear falls into the second of the first one: the floor stays the same, and the
message that was read under it is written back. -/
theorem stale_floor_accepted :
    Erases clearedWorld (storeAt 1767323045900000, .clear false false)
      ∧ (step clearedWorld (storeAt 1767323045900000, .clear false false)).db.events.rows = []
      ∧ (appendEvents (storeAt 1767323047000000) [[]] (some (backfillFloor clearedWorld))
          (step clearedWorld (storeAt 1767323045900000, .clear false false))).2 = some 1
      ∧ (appendEvents (storeAt 1767323047000000) [[]] (some (backfillFloor clearedWorld))
          (step clearedWorld (storeAt 1767323045900000, .clear false false))).1.db.events.count = 1 := by
  refine ⟨rfl, ?_, ?_, ?_⟩ <;> decide +kernel

/-- **An erasure counts for good**: after every run with an erasure in it, an append is refused whose
floor is from any state with a floor before the second of that erasure. -/
theorem erasure_counts {calls later : List (Env × Op)} {call : Env × Op}
    (h : Machine.Along step Intact w (calls ++ call :: later))
    (herases : Erases (Machine.run step w calls) call) {v : World} (hahead : ClockAhead v call) :
    Refused (backfillFloor v) (Machine.run step w (calls ++ call :: later)) := by
  obtain ⟨-, -, hlater⟩ := (Machine.along_append step w calls (call :: later)).mp h
  have hraised := (le_max_right _ _).trans_eq (level_of_erases herases).symm
  have hlt : level v < level (Machine.run step w (calls ++ call :: later)) := by
    rw [Machine.run_append, Machine.run_cons]
    exact hahead.trans_le (hraised.trans (level_le_run hlater))
  exact refused_iff.mpr (ne_of_lt (a := level v) hlt)

theorem erasure_counts_first :
    Refused none (Machine.run step ⟨Db.fresh, none⟩ [(storeAt 0, .clear false false)]) := by
  have hintact : Machine.Along step Intact ⟨Db.fresh, none⟩
    ([] ++ [(storeAt 0, .clear false false)]) := ⟨by simp [Intact], trivial⟩
  exact erasure_counts (v := ⟨Db.fresh, none⟩) hintact rfl (WithBot.bot_lt_coe _)

end BlueFerry.History
