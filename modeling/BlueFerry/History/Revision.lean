import BlueFerry.Lib.Machine
import BlueFerry.History.Store

/-! # What the revision of the history tells

Readers of the history keep what they made from it as long as `historyRevision` stays the same,
and go on with new rows only when `onlyAppended` says that nothing else happened.

Between two points of a run, the generation never goes back, and while it stays the same no row was
changed in place (`Tracked`). From there on the count and the newest id decide, as for any table
with increasing ids. Three branches of the operations break this and are kept out by `Quiet`: a
minimization that rewrites rows, a marking that stops at a corrupt row after it has changed others,
and the deletion of a damaged file.
-/

namespace BlueFerry.History

open BlueFerry.Text

/-! ## Steps that the revision can follow -/

/-- The operation takes none of the branches that change stored rows behind the revision. -/
def Quiet (w : World) (call : Env × Op) : Prop :=
  match call.2 with
  | .minimize =>
    call.1.readable = true →
      ∀ plan, minimizePlan call.1 0 w.db.events.rows = some plan → plan.2 = []
  | .markRead handles =>
    ∀ index, currentIndex call.1 (w.db.instanceId.getD call.1.random) w = some index →
      (markRows call.1 (selectedRows handles index.rows) 0 w.db.events).2.2 = .corrupt →
        (markRows call.1 (selectedRows handles index.rows) 0 w.db.events).2.1 = 0
  | .clear damaged discardDamaged => ¬ (damaged = true ∧ discardDamaged = true)
  | _ => True

/-- **What holds between two points of a run**: the generation does not go back, and as long as it
stays the same, rows are only inserted and deleted. -/
structure Tracked (w v : World) : Prop where
  generation_le : w.db.generation ≤ v.db.generation
  follows : w.db.generation = v.db.generation → Table.Follows w.db.events v.db.events

theorem Tracked.refl (w : World) : Tracked w w := ⟨le_refl _, fun _ => Table.Follows.refl _⟩

theorem Tracked.trans {w v u : World} (h : Tracked w v) (h' : Tracked v u) : Tracked w u where
  generation_le := le_trans h.generation_le h'.generation_le
  follows := by
    intro heq
    have hle := h.generation_le
    have hle' := h'.generation_le
    exact (h.follows (by omega)).trans (h'.follows (by omega))

/-- An operation that keeps the generation and only inserts and deletes. -/
theorem Tracked.of_follows {w v : World} (hgen : v.db.generation = w.db.generation)
    (h : Table.Follows w.db.events v.db.events) : Tracked w v :=
  ⟨le_of_eq hgen.symm, fun _ => h⟩

/-! ## One operation after the other -/

theorem follows_insertAll {env : Env} {events : List Record} {n : Nat} {t u : Table Str}
    (h : insertAll env n events t = some u) : Table.Follows t u := by
  induction events generalizing n t with
  | nil =>
    rw [insertAll, Option.some.injEq] at h
    exact h ▸ Table.Follows.refl t
  | cons event events ih =>
    rw [insertAll] at h
    split at h
    · exact absurd h (by simp)
    rename_i payload _
    exact (Table.follows_insert t payload).trans (ih h)

section

variable (env : Env)

theorem tracked_appendEvents (events : List Record) (floor : Option (Option Int))
    (w : World) : Tracked w (appendEvents env events floor w).1 := by
  unfold appendEvents
  split_ifs
  · exact Tracked.refl w
  · exact Tracked.refl w
  split
  · exact Tracked.refl w
  rename_i t ht
  exact Tracked.of_follows rfl (follows_insertAll ht)

theorem tracked_deleteEventRows (eventIds : List Nat) (raiseFloor : Bool) (w : World) :
    Tracked w (deleteEventRows env eventIds raiseFloor w).1 := by
  unfold deleteEventRows
  split_ifs
  · exact Tracked.refl w
  · exact Tracked.refl w
  simp only
  split_ifs <;> exact Tracked.of_follows rfl (Table.follows_deleteWhere _ _)

theorem tracked_clearEvents {damaged discardDamaged : Bool}
    (h : ¬ (damaged = true ∧ discardDamaged = true)) (w : World) :
    Tracked w (clearEvents env damaged discardDamaged w) := by
  unfold clearEvents
  split_ifs with hd hdis
  · exact absurd ⟨hd, hdis⟩ h
  · exact Tracked.refl w
  · exact Tracked.of_follows rfl (Table.follows_deleteWhere _ _)

theorem tracked_scrubUnprotectedEvents (w : World) : Tracked w (scrubUnprotectedEvents env w) := by
  unfold scrubUnprotectedEvents
  split_ifs
  · exact Tracked.refl w
  · exact Tracked.of_follows rfl (Table.follows_deleteWhere _ _)

theorem follows_prunedEvents (limits : Limits) (t : Table Str) :
    Table.Follows t (prunedEvents env limits t) := by
  unfold prunedEvents
  simp only
  split
  · exact Table.Follows.refl t
  rename_i expired _
  have haged : ∀ p, Table.Follows t
      ((t.deleteWhere p).deleteWhere (fun r => expired.contains r.1)) :=
    fun p => (Table.follows_deleteWhere t p).trans (Table.follows_deleteWhere _ _)
  split
  · exact haged _
  · exact (haged _).trans (Table.follows_deleteWhere _ _)

theorem tracked_pruneEvents (limits : Limits) (w : World) :
    Tracked w (pruneEvents env limits w).1 := by
  simp only [pruneEvents]
  split_ifs
  any_goals exact Tracked.refl w
  all_goals exact Tracked.of_follows rfl (follows_prunedEvents env limits _)

/-- The loop counts its updates: without one, the table is unchanged. -/
theorem markRows_updated (rows : List (Str × Nat)) (updated : Nat) (t : Table Str) :
    updated ≤ (markRows env rows updated t).2.1
      ∧ ((markRows env rows updated t).2.1 = updated → (markRows env rows updated t).1 = t) := by
  induction rows generalizing updated t with
  | nil => simp [markRows]
  | cons row rows ih =>
    obtain ⟨handle, eventId⟩ := row
    rw [markRows]
    split
    · exact ih updated t
    split
    · simp
    · exact ih updated t
    · exact ih updated t
    split_ifs
    · exact ih updated t
    split
    · simp
    rename_i sealed _
    obtain ⟨hle, -⟩ := ih (updated + 1) (t.update eventId sealed)
    constructor
    · omega
    · intro heq
      omega

theorem tracked_markEventHandlesRead (handles : List Str) (w : World)
    (h : Quiet w (env, .markRead handles)) : Tracked w (markEventHandlesRead env handles w).1 := by
  unfold markEventHandlesRead
  split_ifs
  · exact Tracked.refl w
  · exact Tracked.refl w
  simp only
  split
  · exact Tracked.of_follows rfl (Table.Follows.refl _)
  rename_i index hindex
  have hquiet := h index hindex
  have hcount := markRows_updated env (selectedRows handles index.rows) 0 w.db.events
  split
  · exact Tracked.of_follows rfl (Table.Follows.refl _)
  · -- at a corrupt row nothing has been changed before
    rename_i t updated hend
    rw [hend] at hquiet hcount
    have ht : t = w.db.events := hcount.2 (hquiet rfl)
    exact Tracked.of_follows rfl (ht ▸ Table.Follows.refl _)
  rename_i t updated hend
  rw [hend] at hcount
  by_cases hzero : updated = 0
  · have ht : t = w.db.events := hcount.2 hzero
    refine Tracked.of_follows ?_ (ht ▸ Table.Follows.refl _)
    simp [hzero]
  · constructor <;> simp [hzero]

theorem tracked_minimizeAncsHistory (w : World) (h : Quiet w (env, .minimize)) :
    Tracked w (minimizeAncsHistory env w).1 := by
  unfold minimizeAncsHistory
  split_ifs with hread
  · exact Tracked.refl w
  split
  · exact Tracked.refl w
  rename_i deleted minimized hplan
  have hnone : minimized = [] := h (by simpa using hread) _ hplan
  subst hnone
  exact Tracked.of_follows rfl (Table.follows_deleteWhere _ _)

end

/-- **Every quiet operation is tracked.** -/
theorem tracked_step (w : World) (call : Env × Op) (h : Quiet w call) : Tracked w (step w call) := by
  obtain ⟨env, op⟩ := call
  cases op with
  | append events floor => exact tracked_appendEvents env events floor w
  | deleteRows eventIds raiseFloor => exact tracked_deleteEventRows env eventIds raiseFloor w
  | clear damaged discardDamaged => exact tracked_clearEvents env h w
  | scrub => exact tracked_scrubUnprotectedEvents env w
  | prune limits => exact tracked_pruneEvents env limits w
  | markRead handles => exact tracked_markEventHandlesRead env handles w h
  | minimize => exact tracked_minimizeAncsHistory env w h

/-! ## What the readers rely on -/

theorem historyRevision_of_readable {env : Env} (h : env.readable = true) (w : World) :
    historyRevision env w = (w.db.events.count, w.db.events.newest, w.db.generation) := by
  rw [historyRevision, if_neg (by simp [h])]

theorem Tracked.rows_eq {w v : World} (h : Tracked w v) (hcount : w.db.events.count = v.db.events.count)
    (hnewest : w.db.events.newest = v.db.events.newest)
    (hgen : w.db.generation = v.db.generation) : w.db.events.rows = v.db.events.rows :=
  (h.follows hgen).rows_eq hcount hnewest

/-- **The revision tells what was stored.** Between any two points of a run of quiet operations, at
which the storage is readable: equal revisions mean equal rows, and when the check for a mere
append holds, every row of the earlier point is still there with its payload. -/
theorem historyRevision_faithful {w : World} {calls : List (Env × Op)}
    (h : Machine.Along step Quiet w calls) {env env' : Env} (hread : env.readable = true)
    (hread' : env'.readable = true) (generation key generation' key' : Nat) :
    (historyRevision env w = historyRevision env' (Machine.run step w calls) →
        w.db.events.rows = (Machine.run step w calls).db.events.rows)
      ∧ (onlyAppended ⟨generation, key, historyRevision env w⟩
            ⟨generation', key', historyRevision env' (Machine.run step w calls)⟩ = true →
          ∀ r ∈ w.db.events.rows, r ∈ (Machine.run step w calls).db.events.rows) := by
  have htracked : Tracked w (Machine.run step w calls) :=
    Machine.relates step Tracked.refl (fun _ _ _ => Tracked.trans) tracked_step h
  rw [historyRevision_of_readable hread, historyRevision_of_readable hread']
  constructor
  · intro heq
    simp only [Prod.mk.injEq] at heq
    exact htracked.rows_eq heq.1 heq.2.1 heq.2.2
  intro happended
  simp only [onlyAppended, Bool.and_eq_true, beq_iff_eq, decide_eq_true_eq] at happended
  obtain ⟨⟨⟨⟨-, -⟩, hgen⟩, hnewest⟩, hcount⟩ := happended
  exact (htracked.follows hgen).kept hnewest (by omega)

/-! ## A rewritten row -/

/-- A notification of Messages, as the daemon received it. -/
def fullNotification : Record :=
  [ ("kind".toList, .str "ancs_notification".toList)
  , ("notification_id".toList, .other "7".toList true)
  , ("app_id".toList, .str messagesAppId)
  , ("app_name".toList, .str "Messages".toList)
  , ("title".toList, .str "Ann".toList)
  , ("subtitle".toList, .str [])
  , ("body".toList, .str "hi".toList)
  , ("seen_at".toList, .str "2026-01-02T03:04:05+00:00".toList) ]

def fullText : Str :=
  ("\x7b\"kind\":\"ancs_notification\",\"notification_id\":7,\"app_id\":\"com.apple.MobileSMS\""
    ++ ",\"app_name\":\"Messages\",\"title\":\"Ann\",\"subtitle\":\"\",\"body\":\"hi\""
    ++ ",\"seen_at\":\"2026-01-02T03:04:05+00:00\"\x7d").toList

def minimalText : Str :=
  ("\x7b\"kind\":\"ancs_notification\",\"notification_id\":7,\"app_id\":\"com.apple.MobileSMS\""
    ++ ",\"title\":\"Ann\",\"subtitle\":\"\",\"body\":\"hi\""
    ++ ",\"seen_at\":\"2026-01-02T03:04:05+00:00\"\x7d").toList

/-- A store without a storage policy, with the JSON texts of that notification. -/
def plainEnv : Env where
  managed := false
  canRead := true
  canWrite := true
  encrypted := false
  deserialize := fun payload =>
    if payload = fullText then .event fullNotification
    else if payload = minimalText then .event (projection fullNotification)
    else .missing
  serialize := fun _ event =>
    if event = fullNotification then some fullText
    else if event = projection fullNotification then some minimalText
    else none
  fromIsoFormat := fun _ => none
  now := 1767323045000000
  random := 5

/-- The history after one minimal row. -/
def minimalWorld : World :=
  step ⟨Db.fresh, none⟩ (plainEnv, .append [projection fullNotification] none)

theorem quiet_minimize_minimalWorld : Quiet minimalWorld (plainEnv, .minimize) := by
  intro _ plan hplan
  have hempty : minimizePlan plainEnv 0 minimalWorld.db.events.rows = some ([], []) := by
    decide +kernel
  rw [hempty, Option.some.injEq] at hplan
  rw [← hplan]

theorem historyRevision_faithful_append :
    minimalWorld.db.events.rows ⊆ (Machine.run step minimalWorld
      [(plainEnv, .minimize), (plainEnv, .append [fullNotification] none)]).db.events.rows :=
  have hquiet : Machine.Along step Quiet minimalWorld
      [(plainEnv, .minimize), (plainEnv, .append [fullNotification] none)] :=
    ⟨quiet_minimize_minimalWorld, trivial, trivial⟩
  have hread : plainEnv.readable = true := by decide
  (historyRevision_faithful hquiet hread hread 0 0 0 0).2 (by decide +kernel)

/-- A minimization rewrites the stored row, and the revision stays the same. -/
theorem minimize_keeps_revision :
    historyRevision plainEnv (Machine.run step ⟨Db.fresh, none⟩
        [(plainEnv, .append [fullNotification] none)])
      = historyRevision plainEnv (Machine.run step ⟨Db.fresh, none⟩
        [(plainEnv, .append [fullNotification] none), (plainEnv, .minimize)])
    ∧ (Machine.run step ⟨Db.fresh, none⟩ [(plainEnv, .append [fullNotification] none)]).db.events.rows
      ≠ (Machine.run step ⟨Db.fresh, none⟩
        [(plainEnv, .append [fullNotification] none), (plainEnv, .minimize)]).db.events.rows := by
  constructor <;> decide +kernel

end BlueFerry.History
