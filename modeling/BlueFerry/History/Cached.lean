import BlueFerry.History.Revision
import BlueFerry.History.Marks

/-! # Every marking of a run marks what a scan marks

The index is kept between two markings, and any write operation can come in between. `Kept` says
what these operations can do to the rows that the index has passed: remove them, or put a payload
of the same received message in their place. The file may also be deleted and made again; then it
has no instance id until the next marking draws one, and the index of the old file is dropped.

`Steady` is the condition of a marking: the stored rows read as they always do, a sealed event
reads back, and a drawn instance id is not that of the cached index. Without it the claim fails: a
row that cannot be read once is passed for good (`passed_row_is_lost`).
-/

namespace BlueFerry.History

open BlueFerry.Text

/-! ## Changes that keep an index faithful -/

/-- Both payloads hold the same received message, or none. -/
structure SameMessage (d d' : Decoded) : Prop where
  sound : d ≠ .corrupt → d' ≠ .corrupt
  receives : ∀ handle, d'.Receives handle ↔ d.Receives handle

theorem SameMessage.refl (d : Decoded) : SameMessage d d := ⟨fun h => h, fun _ => Iff.rfl⟩

theorem SameMessage.trans {d d' d'' : Decoded} (h : SameMessage d d') (h' : SameMessage d' d'') :
    SameMessage d d'' :=
  ⟨fun hd => h'.sound (h.sound hd), fun handle => (h'.receives handle).trans (h.receives handle)⟩

variable {event : Record} {w : World} {env : Env}

theorem textOf_set_other {key other : Str} {value : Value} (h : other ≠ key) :
    (event.set key value).textOf other = event.textOf other := by
  rw [Record.textOf, Record.textOf, Record.get_set, if_neg h]

/-- A message that is marked read is the same message. -/
theorem receives_set_read {handle : Str} :
    (Decoded.event (event.set "is_read".toList (.bool true))).Receives handle ↔
      (Decoded.event event).Receives handle := by
  have hkind : "kind".toList ≠ "is_read".toList := by decide
  have hhandle : "handle".toList ≠ "is_read".toList := by decide
  constructor
  · rintro ⟨_, heq, h⟩
    rw [← Decoded.event.inj heq, textOf_set_other hkind, textOf_set_other hhandle] at h
    exact ⟨event, rfl, h⟩
  rintro ⟨_, heq, h⟩
  refine ⟨_, rfl, ?_⟩
  rw [textOf_set_other hkind, textOf_set_other hhandle, Decoded.event.inj heq]
  exact h

/-- `u` comes after `t`, and each row of `u` with an old id stands for the message of that row. -/
structure Kept (dec : Str → Decoded) (t u : Table Str) : Prop where
  seq_le : t.seq ≤ u.seq
  old : ∀ r ∈ u.rows, r.1 ≤ t.seq → ∃ s ∈ t.rows, s.1 = r.1 ∧ SameMessage (dec s.2) (dec r.2)

variable {dec : Str → Decoded} {t u v : Table Str}

theorem kept_of_follows (h : Table.Follows t u) : Kept dec t u where
  seq_le := h.seq_le
  old := fun r hr hle => ⟨r, h.old r hr hle, rfl, SameMessage.refl _⟩

theorem Kept.refl (t : Table Str) : Kept dec t t := kept_of_follows (Table.Follows.refl t)

theorem Kept.trans (h : Kept dec t u) (h' : Kept dec u v) : Kept dec t v where
  seq_le := le_trans h.seq_le h'.seq_le
  old := by
    intro r hr hle
    obtain ⟨s, hs, hid, hsame⟩ := h'.old r hr (le_trans hle h.seq_le)
    obtain ⟨x, hx, hid', hsame'⟩ := h.old s hs (by omega)
    exact ⟨x, hx, by omega, hsame'.trans hsame⟩

/-- A row takes another payload for the same message. -/
theorem kept_update {id : Nat} {payload : Str}
    (h : ∀ r ∈ t.rows, r.1 = id → SameMessage (dec r.2) (dec payload)) :
    Kept dec t (t.update id payload) where
  seq_le := le_rfl
  old := by
    intro r hr _
    obtain ⟨s, hs, rfl⟩ := List.mem_map.mp hr
    by_cases hid : s.1 = id
    · rw [if_pos hid]
      exact ⟨s, hs, hid, h s hs hid⟩
    rw [if_neg hid]
    exact ⟨s, hs, rfl, SameMessage.refl _⟩

/-- **What is kept of the rows keeps the index faithful.** -/
theorem Faithful.kept {index : HandleIndex} (h : Faithful dec t index) (hkept : Kept dec t u) :
    Faithful dec u index where
  through := le_trans h.through hkept.seq_le
  sound := by
    intro r hr hle
    obtain ⟨s, hs, hid, hsame⟩ := hkept.old r hr (le_trans hle h.through)
    exact hsame.sound (h.sound s hs (by omega))
  listed := by
    intro r hr hle handle hne
    obtain ⟨s, hs, hid, hsame⟩ := hkept.old r hr (le_trans hle h.through)
    rw [hsame.receives handle, ← hid]
    exact h.listed s hs (by omega) handle hne
  below := h.below

/-! ## The invariant -/

/-- The rows have positive ids, and the index that the next marking goes on with is faithful. -/
structure Sound (dec : Str → Decoded) (w : World) : Prop where
  positive : ∀ r ∈ w.db.events.rows, 0 < r.1
  cached : ∀ index, w.index = some index → w.db.instanceId = some index.identity →
    Faithful dec w.db.events index

theorem sound_fresh : Sound dec ⟨Db.fresh, none⟩ where
  positive := fun _ hr => absurd hr List.not_mem_nil
  cached := nofun

theorem Kept.positive (h : Kept dec t u) (hpositive : ∀ r ∈ t.rows, 0 < r.1) :
    ∀ r ∈ u.rows, 0 < r.1 := by
  intro r hr
  by_cases hle : r.1 ≤ t.seq
  · obtain ⟨s, hs, hid, -⟩ := h.old r hr hle
    have hpos := hpositive s hs
    omega
  · omega

/-- An operation that keeps the rows, the instance id and the index. -/
theorem Sound.kept {w' : World} (h : Sound dec w) (hkept : Kept dec w.db.events w'.db.events)
    (hinstance : w'.db.instanceId = w.db.instanceId) (hindex : w'.index = w.index) :
    Sound dec w' where
  positive := hkept.positive h.positive
  cached := by
    intro index hsome hidentity
    rw [hindex] at hsome
    rw [hinstance] at hidentity
    exact (h.cached index hsome hidentity).kept hkept

/-! ## The condition of a marking -/

/-- What a marking or a minimization can rely on: the stored rows read as they always do, a sealed
event reads back, and a drawn instance id is not that of the cached index. -/
structure Reads (dec : Str → Decoded) (env : Env) (w : World) : Prop where
  rows : ∀ r ∈ w.db.events.rows, env.deserialize r.2 = dec r.2
  sealed : ∀ n event payload, env.serialize n event = some payload →
    env.deserialize payload = .event event ∧ dec payload = .event event

/-- The instance id that the marking draws is a new one. -/
def DrawsNew (env : Env) (w : World) : Prop :=
  w.db.instanceId = none → ∀ index, w.index = some index → env.random ≠ index.identity

/-- A marking, where it goes on to the rows, reads them as every other one does. -/
def Steady (dec : Str → Decoded) (w : World) (call : Env × Op) : Prop :=
  match call.2 with
  | .markRead _ => call.1.writable = true → Reads dec call.1 w ∧ DrawsNew call.1 w
  | .minimize => call.1.readable = true → Reads dec call.1 w
  | _ => True

/-! ## The index of a marking -/

/-- The index that the scan of a marking goes on with. -/
def startIndex (identity : Int) (w : World) : HandleIndex :=
  match w.index with
  | none => { identity }
  | some index =>
    if index.identity ≠ identity ∨ w.db.events.newest < index.scannedThrough then { identity }
    else index

theorem currentIndex_eq (env : Env) (identity : Int) (w : World) : currentIndex env identity w
    = scanRows env (w.db.events.rows.filter
        (fun r => (startIndex identity w).scannedThrough < r.1)) (startIndex identity w) := rfl

/-- `_received_handle_rows` starts from a faithful index of the file. -/
theorem startIndex_faithful (h : Sound dec w) (hnew : DrawsNew env w) :
    (startIndex (w.db.instanceId.getD env.random) w).identity = w.db.instanceId.getD env.random ∧
    Faithful dec w.db.events (startIndex (w.db.instanceId.getD env.random) w) := by
  have hfresh := faithful_new dec h.positive (w.db.instanceId.getD env.random)
  unfold startIndex
  cases hindex : w.index with
  | none => exact ⟨rfl, hfresh⟩
  | some index =>
    dsimp only
    by_cases hstale : index.identity ≠ w.db.instanceId.getD env.random ∨
        w.db.events.newest < index.scannedThrough
    · rw [if_pos hstale]
      exact ⟨rfl, hfresh⟩
    rw [if_neg hstale]
    rw [not_or, not_not] at hstale
    refine ⟨hstale.1, h.cached index hindex ?_⟩
    cases hinstance : w.db.instanceId with
    | none =>
      have hsame := hstale.1
      rw [hinstance] at hsame
      exact absurd hsame.symm (hnew hinstance index hindex)
    | some identity =>
      rw [hstale.1, hinstance]
      rfl

/-- An index that the marking uses. -/
structure Current (dec : Str → Decoded) (env : Env) (w : World) (index : HandleIndex) : Prop where
  identity : index.identity = w.db.instanceId.getD env.random
  faithful : Faithful dec w.db.events index
  all : ∀ r ∈ w.db.events.rows, r.1 ≤ index.scannedThrough
  clean : ∀ r ∈ w.db.events.rows, env.deserialize r.2 ≠ .corrupt

/-- The marking fails closed exactly at a corrupt row, and else has an index of all rows. -/
theorem currentIndex_spec (h : Sound dec w) (hreads : Reads dec env w) (hnew : DrawsNew env w) :
    (currentIndex env (w.db.instanceId.getD env.random) w = none ∧
      ∃ r ∈ w.db.events.rows, env.deserialize r.2 = .corrupt) ∨
    ∃ index, currentIndex env (w.db.instanceId.getD env.random) w = some index ∧
      Current dec env w index := by
  obtain ⟨hidentity, hfaithful⟩ := startIndex_faithful h hnew
  rw [currentIndex_eq]
  generalize startIndex (w.db.instanceId.getD env.random) w = start at hidentity hfaithful ⊢
  cases hscan : scanRows env (w.db.events.rows.filter (fun r => start.scannedThrough < r.1)) start
    with
  | none =>
    obtain ⟨r, hr, hcorrupt⟩ := scanRows_eq_none.mp hscan
    exact .inl ⟨rfl, r, List.mem_of_mem_filter hr, hcorrupt⟩
  | some index =>
    obtain ⟨hindex, hall⟩ := hfaithful.extend hreads.rows hscan
    have hext := scanRows_extends hscan (w.db.events.sorted.filter _)
      (fun r hr => by simpa using (List.mem_filter.mp hr).2)
    refine .inr ⟨index, rfl, hext.identity.trans hidentity, hindex, hall, ?_⟩
    intro r hr
    rw [hreads.rows r hr]
    exact hindex.sound r hr (hall r hr)

/-! ## A marking -/

/-- **What a marking does, measured by a scan.** At a corrupt row it changes nothing. Else it marks
the rows of the scan, once each, or none of them when one cannot be sealed. -/
def AsScan (env : Env) (handles : List Str) (w : World) (result : World × Nat) : Prop :=
  match fullScan env handles w.db.events with
  | none => result.1.db.events = w.db.events ∧ result.2 = 0
  | some ids =>
    (result.2 = ids.length ∧ ∃ sealed : Nat → Str,
      result.1.db.events.rows
        = w.db.events.rows.map (fun r => if r.1 ∈ ids then (r.1, sealed r.1) else r) ∧
      ∀ r ∈ w.db.events.rows, r.1 ∈ ids → ∃ event, env.deserialize r.2 = .event event ∧
        env.deserialize (sealed r.1) = .event (event.set "is_read".toList (.bool true))) ∨
    (result.1.db.events = w.db.events ∧ result.2 = 0 ∧
      ∃ r ∈ w.db.events.rows, r.1 ∈ ids ∧ ∃ n event, env.deserialize r.2 = .event event ∧
        env.serialize n (event.set "is_read".toList (.bool true)) = none)

section Marking

variable {env : Env} {handles : List Str} {w : World}

theorem fullScan_corrupt (h : ∃ r ∈ t.rows, env.deserialize r.2 = .corrupt) :
    fullScan env handles t = none := by
  obtain ⟨r, hr, hcorrupt⟩ := h
  have hany : t.rows.any (fun r => env.deserialize r.2 = .corrupt) = true :=
    List.any_eq_true.mpr ⟨r, hr, decide_eq_true hcorrupt⟩
  rw [fullScan, if_pos hany]

theorem fullScan_clean (h : ∀ r ∈ t.rows, env.deserialize r.2 ≠ .corrupt) :
    fullScan env handles t
      = some ((t.rows.filter (fun r => toMark env handles r.2)).map Prod.fst) := by
  have hany : ¬ t.rows.any (fun r => env.deserialize r.2 = .corrupt) = true := by
    rw [List.any_eq_true]
    rintro ⟨r, hr, hcorrupt⟩
    exact h r hr (of_decide_eq_true hcorrupt)
  rw [fullScan, if_neg hany]

/-- The ids of the scan are those of the rows to mark. -/
theorem mem_scanned {r : Nat × Str} (hr : r ∈ t.rows) :
    r.1 ∈ (t.rows.filter (fun r => toMark env handles r.2)).map Prod.fst ↔
      toMark env handles r.2 = true := by
  rw [List.mem_map]
  constructor
  · rintro ⟨s, hs, hid⟩
    obtain ⟨hs, hmark⟩ := List.mem_filter.mp hs
    rw [← Table.eq_of_id hs hr hid]
    exact hmark
  · exact fun hmark => ⟨r, List.mem_filter.mpr ⟨hr, hmark⟩, rfl⟩

/-- Without a handle there is nothing to mark. -/
theorem asScan_no_handles (h : handles.filter (· ≠ []) = []) : AsScan env handles w (w, 0) := by
  have hnone : ∀ payload, toMark env handles payload = false := by
    intro payload
    rw [toMark, h]
    rfl
  unfold AsScan
  by_cases hcorrupt : ∃ r ∈ w.db.events.rows, env.deserialize r.2 = .corrupt
  · rw [fullScan_corrupt hcorrupt]
    exact ⟨rfl, rfl⟩
  have hclean : ∀ r ∈ w.db.events.rows, env.deserialize r.2 ≠ .corrupt :=
    fun r hr hdec => hcorrupt ⟨r, hr, hdec⟩
  have hids : (w.db.events.rows.filter (fun r => toMark env handles r.2)).map Prod.fst = [] := by
    rw [List.filter_eq_nil_iff.mpr (fun r _ => by rw [hnone]; exact Bool.false_ne_true)]
    rfl
  rw [fullScan_clean hclean, hids]
  refine .inl ⟨rfl, fun _ => [], ?_, fun r _ hr => absurd hr List.not_mem_nil⟩
  symm
  rw [List.map_congr_left (fun r _ => if_neg List.not_mem_nil)]
  exact List.map_id _

/-- The rows that the loop marks are those of the scan. -/
theorem Marked.asScan {index : HandleIndex} {n : Nat} {w' : World} (hback : ReadsBack env)
    (hclean : ∀ r ∈ w.db.events.rows, env.deserialize r.2 ≠ .corrupt)
    (hsame : ∀ r ∈ w.db.events.rows,
      hit env (selectedRows handles index.rows) r = toMark env handles r.2)
    (h : Marked env (selectedRows handles index.rows) w.db.events w'.db.events 0 n) :
    AsScan env handles w (w', n) := by
  unfold AsScan
  rw [fullScan_clean hclean]
  obtain ⟨sealed, hrows, hsealed⟩ := h.rows
  refine .inl ⟨?_, sealed, ?_, ?_⟩
  · have hcount : w.db.events.rows.countP (hit env (selectedRows handles index.rows))
        = w.db.events.rows.countP (fun r => toMark env handles r.2) :=
      List.countP_congr (fun r hr => by rw [hsame r hr])
    have hn := h.count
    rw [List.length_map, ← List.countP_eq_length_filter]
    omega
  · rw [hrows]
    refine List.map_congr_left (fun r hr => ?_)
    rw [hsame r hr]
    by_cases hmark : toMark env handles r.2 = true
    · rw [if_pos hmark, if_pos ((mem_scanned hr).mpr hmark)]
    · rw [if_neg hmark, if_neg (fun hid => hmark ((mem_scanned hr).mp hid))]
  intro r hr hid
  obtain ⟨k, event, hdec, hseal⟩ := hsealed r hr (by
    rw [hsame r hr]
    exact (mem_scanned hr).mp hid)
  exact ⟨event, hdec, hback k _ _ hseal⟩

/-- The rows that the loop has marked hold the same messages. -/
theorem Marked.kept {list : List (Str × Nat)} {k n : Nat} (hreads : Reads dec env w)
    (hseq : w.db.events.seq ≤ u.seq) (h : Marked env list w.db.events u k n) :
    Kept dec w.db.events u where
  seq_le := hseq
  old := by
    intro r hr _
    obtain ⟨sealed, hrows, hsealed⟩ := h.rows
    rw [hrows] at hr
    obtain ⟨s, hs, rfl⟩ := List.mem_map.mp hr
    by_cases hhit : hit env list s = true
    · rw [if_pos hhit]
      refine ⟨s, hs, rfl, ?_⟩
      obtain ⟨j, event, hdec, hseal⟩ := hsealed s hs hhit
      rw [hreads.rows s hs] at hdec
      rw [(hreads.sealed j _ _ hseal).2, hdec]
      constructor
      · intro _ h
        exact absurd h (by simp)
      · intro handle
        exact receives_set_read
    · rw [if_neg hhit]
      exact ⟨s, hs, rfl, SameMessage.refl _⟩

/-- **One marking** marks what a scan marks, and leaves an index that is faithful again. -/
theorem markEventHandlesRead_spec (h : Sound dec w) (hreads : Reads dec env w)
    (hnew : DrawsNew env w) (hwritable : env.writable = true) (handles : List Str) :
    AsScan env handles w (markEventHandlesRead env handles w) ∧
      Sound dec (markEventHandlesRead env handles w).1 := by
  have hback : ReadsBack env := fun n event payload hseal => (hreads.sealed n event payload hseal).1
  unfold markEventHandlesRead
  by_cases hhandles : handles.filter (· ≠ []) = []
  · rw [if_pos hhandles]
    exact ⟨asScan_no_handles hhandles, h⟩
  rw [if_neg hhandles, if_neg (by rw [hwritable]; exact Bool.noConfusion)]
  dsimp only
  rcases currentIndex_spec h hreads hnew with ⟨hnone, hcorrupt⟩ | ⟨index, hsome, hcurrent⟩
  · rw [hnone]
    constructor
    · unfold AsScan
      rw [fullScan_corrupt hcorrupt]
      exact ⟨rfl, rfl⟩
    · exact ⟨h.positive, nofun⟩
  rw [hsome]
  dsimp only
  have hsame := hcurrent.faithful.hit_selected hreads.rows hcurrent.all handles
  have hseq := markRows_seq env (selectedRows handles index.rows) 0 w.db.events
  have hloop := @markRows_spec env hback (selectedRows handles index.rows) 0 _ hcurrent.clean
  rcases hloop with ⟨t', n, hrun, hmarked⟩ | ⟨t', n, hrun, hfails⟩
  · rw [hrun] at hseq ⊢
    have hkept := hmarked.kept hreads (le_of_eq hseq.symm)
    constructor
    · exact hmarked.asScan hback hcurrent.clean hsame
    constructor
    · exact hkept.positive h.positive
    · intro cached hcached _
      rw [← Option.some.inj hcached]
      exact hcurrent.faithful.kept hkept
  rw [hrun]
  constructor
  · unfold AsScan
    rw [fullScan_clean hcurrent.clean]
    obtain ⟨r, hr, hhit, k, event, hdec, hseal⟩ := hfails
    rw [hsame r hr] at hhit
    exact .inr ⟨rfl, rfl, r, hr, (mem_scanned hr).mpr hhit, k, event, hdec, hseal⟩
  constructor
  · exact h.positive
  · intro cached hcached _
    rw [← Option.some.inj hcached]
    exact hcurrent.faithful

end Marking

/-! ## A minimization -/

/-- The payload holds no received message, and can be read. -/
def Blank (d : Decoded) : Prop := d ≠ .corrupt ∧ ∀ handle, ¬ d.Receives handle

theorem Blank.sameMessage {d d' : Decoded} (h : Blank d) (h' : Blank d') : SameMessage d d' :=
  ⟨fun _ => h'.1, fun handle => iff_of_false (h'.2 handle) (h.2 handle)⟩

theorem blank_notification
    (h : event.get "kind".toList = .str "ancs_notification".toList) : Blank (.event event) := by
  constructor
  · simp
  rintro handle ⟨_, heq, hkind, -⟩
  have htext : event.textOf "kind".toList = "ancs_notification".toList := by
    rw [Record.textOf, h]
    decide
  rw [← Decoded.event.inj heq, htext] at hkind
  exact absurd hkind (by decide)

theorem projection_kind (event : Record) :
    (projection event).get "kind".toList = event.get "kind".toList := rfl

/-- What the plan rewrites are notifications. -/
theorem minimizePlan_spec {n : Nat} {rows : List (Nat × Str)}
    {plan : List Nat × List (Str × Nat)} (h : minimizePlan env n rows = some plan) :
    ∀ m ∈ plan.2, ∃ payload event k, (m.2, payload) ∈ rows ∧ env.deserialize payload = .event event ∧
      event.get "kind".toList = .str "ancs_notification".toList ∧
      env.serialize k (projection event) = some m.1 := by
  induction rows generalizing n plan with
  | nil =>
    rw [minimizePlan, Option.some.injEq] at h
    rw [← h]
    exact fun m hm => absurd hm List.not_mem_nil
  | cons row rows ih =>
    obtain ⟨eventId, payload⟩ := row
    have hlater : ∀ {k : Nat} {plan' : List Nat × List (Str × Nat)},
        minimizePlan env k rows = some plan' → ∀ m ∈ plan'.2,
          ∃ old event j, (m.2, old) ∈ (eventId, payload) :: rows ∧
            env.deserialize old = .event event ∧
            event.get "kind".toList = .str "ancs_notification".toList ∧
            env.serialize j (projection event) = some m.1 := by
      intro k plan' hplan m hm
      obtain ⟨old, event, j, hmem, hrest⟩ := ih hplan m hm
      exact ⟨old, event, j, .tail _ hmem, hrest⟩
    rw [minimizePlan] at h
    cases hdec : env.deserialize payload with
    | corrupt =>
      rw [hdec] at h
      nomatch h
    | failed | missing =>
      rw [hdec] at h
      exact hlater h
    | event event =>
      rw [hdec] at h
      dsimp only at h
      by_cases hkind : event.get "kind".toList ≠ .str "ancs_notification".toList
      · rw [if_pos hkind] at h
        exact hlater h
      rw [if_neg hkind] at h
      rw [not_not] at hkind
      by_cases happ : event.get "app_id".toList ≠ .str messagesAppId
      · rw [if_pos happ] at h
        obtain ⟨plan', hplan, rfl⟩ := Option.map_eq_some_iff.mp h
        have hrest := hlater hplan
        exact hrest
      rw [if_neg happ] at h
      by_cases hminimal : isMinimal event = true
      · rw [if_pos hminimal] at h
        exact hlater h
      rw [if_neg hminimal] at h
      cases hseal : env.serialize n (projection event) with
      | none =>
        rw [hseal] at h
        nomatch h
      | some sealed =>
        rw [hseal] at h
        obtain ⟨plan', hplan, rfl⟩ := Option.map_eq_some_iff.mp h
        intro m hm
        rcases List.mem_cons.mp hm with rfl | hm
        · exact ⟨payload, event, n, .head _, hdec, hkind, hseal⟩
        · exact hlater hplan m hm

/-- Rewriting rows without a message by others without one. -/
theorem kept_rewrite {minimized : List (Str × Nat)}
    (h : ∀ m ∈ minimized, Blank (dec m.1) ∧ ∀ r ∈ t.rows, r.1 = m.2 → Blank (dec r.2)) :
    Kept dec t (minimized.foldl (fun t m => t.update m.2 m.1) t) := by
  induction minimized generalizing t with
  | nil => exact Kept.refl t
  | cons m minimized ih =>
    obtain ⟨hnew, hold⟩ := h m (.head _)
    have hfirst : Kept dec t (t.update m.2 m.1) :=
      kept_update (fun r hr hid => (hold r hr hid).sameMessage hnew)
    refine hfirst.trans (ih (fun m' hm' => ?_))
    obtain ⟨hnew', hold'⟩ := h m' (.tail _ hm')
    refine ⟨hnew', fun r hr hid => ?_⟩
    obtain ⟨s, hs, rfl⟩ := List.mem_map.mp hr
    by_cases hsame : s.1 = m.2
    · rw [if_pos hsame]
      exact hnew
    rw [if_neg hsame] at hid ⊢
    exact hold' s hs hid

theorem minimizeAncsHistory_kept (hreads : env.readable = true → Reads dec env w) :
    Kept dec w.db.events (minimizeAncsHistory env w).1.db.events := by
  unfold minimizeAncsHistory
  by_cases hreadable : env.readable = false
  · rw [if_pos hreadable]
    exact Kept.refl _
  rw [if_neg hreadable]
  rw [Bool.not_eq_false] at hreadable
  cases hplan : minimizePlan env 0 w.db.events.rows with
  | none => exact Kept.refl _
  | some plan =>
    obtain ⟨deleted, minimized⟩ := plan
    refine (kept_of_follows (Table.follows_deleteWhere _ _)).trans (kept_rewrite ?_)
    intro m hm
    obtain ⟨payload, event, k, hmem, hdec, hkind, hseal⟩ := minimizePlan_spec hplan m hm
    have hreads := hreads hreadable
    constructor
    · rw [(hreads.sealed k _ _ hseal).2]
      exact blank_notification (by rw [projection_kind, hkind])
    intro r hr hid
    have hrow : r = (m.2, payload) := Table.eq_of_id (List.mem_of_mem_filter hr) hmem hid
    rw [hrow, ← hreads.rows _ hmem, hdec]
    exact blank_notification hkind

/-! ## Runs -/

theorem sound_clearEvents (h : Sound dec w) (env : Env)
    (damaged discardDamaged : Bool) : Sound dec (clearEvents env damaged discardDamaged w) := by
  have hfresh : Sound dec ⟨Db.fresh, none⟩ := sound_fresh
  unfold clearEvents
  split_ifs
  · exact ⟨hfresh.positive, nofun⟩
  · exact h
  · exact h.kept (kept_of_follows (Table.follows_deleteWhere _ _)) rfl rfl

theorem sound_appendEvents (h : Sound dec w) (env : Env) (events : List Record)
    (floor : Option (Option Int)) : Sound dec (appendEvents env events floor w).1 := by
  unfold appendEvents
  split_ifs
  · exact h
  · exact h
  cases hinsert : insertAll env 0 events w.db.events with
  | none => exact h
  | some t => exact h.kept (kept_of_follows (follows_insertAll hinsert)) rfl rfl

theorem sound_deleteEventRows (h : Sound dec w) (env : Env) (eventIds : List Nat)
    (raiseFloor : Bool) : Sound dec (deleteEventRows env eventIds raiseFloor w).1 := by
  have hkept : Kept dec w.db.events (w.db.events.deleteWhere (fun r => eventIds.contains r.1)) :=
    kept_of_follows (Table.follows_deleteWhere _ _)
  unfold deleteEventRows
  split_ifs
  · exact h
  · exact h
  dsimp only
  split_ifs <;> exact h.kept hkept rfl rfl

theorem sound_scrubUnprotectedEvents (h : Sound dec w) (env : Env) :
    Sound dec (scrubUnprotectedEvents env w) := by
  unfold scrubUnprotectedEvents
  split_ifs
  · exact h
  · exact h.kept (kept_of_follows (Table.follows_deleteWhere _ _)) rfl rfl

theorem sound_pruneEvents (h : Sound dec w) (env : Env) (limits : Limits) :
    Sound dec (pruneEvents env limits w).1 := by
  have hkept : Kept dec w.db.events (prunedEvents env limits w.db.events) :=
    kept_of_follows (follows_prunedEvents env limits w.db.events)
  unfold pruneEvents
  dsimp only
  split_ifs
  any_goals exact h
  all_goals exact h.kept hkept rfl rfl

theorem sound_minimizeAncsHistory (h : Sound dec w)
    (hreads : env.readable = true → Reads dec env w) : Sound dec (minimizeAncsHistory env w).1 := by
  have hkept := minimizeAncsHistory_kept hreads
  refine h.kept hkept ?_ ?_
  all_goals
    unfold minimizeAncsHistory
    split
    · rfl
    · split <;> rfl

/-- A marking of the run does what a scan does, and nothing while it may not write. -/
def MarksAsScan (w : World) (call : Env × Op) : Prop :=
  match call.2 with
  | .markRead handles =>
    if call.1.writable = true then
      AsScan call.1 handles w (markEventHandlesRead call.1 handles w)
    else markEventHandlesRead call.1 handles w = (w, 0)
  | _ => True

theorem markEventHandlesRead_closed (h : ¬ env.writable = true) (handles : List Str)
    (w : World) : markEventHandlesRead env handles w = (w, 0) := by
  rw [Bool.not_eq_true] at h
  rw [markEventHandlesRead, if_pos h, ite_self]

/-- **One operation** keeps the index faithful, and a marking does what a scan does. -/
theorem step_marks {call : Env × Op} (hsteady : Steady dec w call)
    (h : Sound dec w) : MarksAsScan w call ∧ Sound dec (step w call) := by
  obtain ⟨env, op⟩ := call
  cases op with
  | append events floor => exact ⟨trivial, sound_appendEvents h env events floor⟩
  | deleteRows eventIds raiseFloor =>
    exact ⟨trivial, sound_deleteEventRows h env eventIds raiseFloor⟩
  | clear damaged discardDamaged =>
    exact ⟨trivial, sound_clearEvents h env damaged discardDamaged⟩
  | scrub => exact ⟨trivial, sound_scrubUnprotectedEvents h env⟩
  | prune limits => exact ⟨trivial, sound_pruneEvents h env limits⟩
  | minimize => exact ⟨trivial, sound_minimizeAncsHistory h hsteady⟩
  | markRead handles =>
    show (if env.writable = true then AsScan env handles w (markEventHandlesRead env handles w)
      else markEventHandlesRead env handles w = (w, 0)) ∧
        Sound dec (markEventHandlesRead env handles w).1
    by_cases hwritable : env.writable = true
    · rw [if_pos hwritable]
      obtain ⟨hreads, hnew⟩ := hsteady hwritable
      exact markEventHandlesRead_spec h hreads hnew hwritable handles
    have hclosed := markEventHandlesRead_closed hwritable handles w
    rw [if_neg hwritable]
    refine ⟨hclosed, ?_⟩
    rw [hclosed]
    exact h

/-- **The index never drifts from a scan**, in a run whose markings read the stored rows as every
other one does: whatever was appended, deleted, cleared, rewritten or made again in between, every
marking marks exactly the rows that a scan of all stored rows would mark. -/
theorem marks_as_scan {calls : List (Env × Op)}
    (h : Machine.Along step (Steady dec) ⟨Db.fresh, none⟩ calls) :
    Machine.Along step MarksAsScan ⟨Db.fresh, none⟩ calls :=
  h.meets step (fun _ _ hsteady hsound => step_marks hsteady hsound) sound_fresh

/-! ## A row that could not be read once -/

def phoneHandle : Str := "0400".toList

def unreadMessage : Record :=
  [("kind".toList, .str "sms_received".toList), ("handle".toList, .str phoneHandle)]

def unreadText : Str := "\x7b\"kind\":\"sms_received\",\"handle\":\"0400\"\x7d".toList

def readText : Str :=
  "\x7b\"kind\":\"sms_received\",\"handle\":\"0400\",\"is_read\":true\x7d".toList

/-- What the texts of that message decode to. -/
def messageCodec (payload : Str) : Decoded :=
  if payload = unreadText then .event unreadMessage
  else if payload = readText then .event (unreadMessage.set "is_read".toList (.bool true))
  else .missing

/-- A managed store under the plain policy. -/
def messageEnv (random : Int) : Env where
  managed := true
  canRead := true
  canWrite := true
  encrypted := false
  deserialize := messageCodec
  serialize := fun _ event =>
    if event = unreadMessage then some unreadText
    else if event = unreadMessage.set "is_read".toList (.bool true) then some readText
    else none
  fromIsoFormat := fun _ => none
  now := 1767323045000000
  random

/-- The storage is locked after the marking has asked whether it can write. -/
def lockedEnv : Env := { messageEnv 5 with deserialize := fun _ => .failed }

/-- A message, and a marking that cannot read it. -/
def passedWorld : World :=
  Machine.run step ⟨Db.fresh, none⟩
    [(messageEnv 5, .append [unreadMessage] none), (lockedEnv, .markRead [phoneHandle])]

/-- The next marking finds the message no more, though a scan would mark it. -/
theorem passed_row_is_lost :
    fullScan (messageEnv 5) [phoneHandle] passedWorld.db.events = some [1]
      ∧ (markEventHandlesRead (messageEnv 5) [phoneHandle] passedWorld).2 = 0
      ∧ ¬ MarksAsScan passedWorld (messageEnv 5, .markRead [phoneHandle]) := by
  have hscan : fullScan (messageEnv 5) [phoneHandle] passedWorld.db.events = some [1] := by
    decide +kernel
  have hcount : (markEventHandlesRead (messageEnv 5) [phoneHandle] passedWorld).2 = 0 := by
    decide +kernel
  refine ⟨hscan, hcount, ?_⟩
  unfold MarksAsScan
  dsimp only
  rw [if_pos (by decide), AsScan, hscan]
  rintro (⟨hlength, -⟩ | ⟨-, -, r, hr, -, n, event, hdec, hseal⟩)
  · rw [hcount] at hlength
    exact absurd hlength (by decide)
  · -- the message can be sealed
    have hrows : passedWorld.db.events.rows = [(1, unreadText)] := by decide +kernel
    rw [hrows, List.mem_singleton] at hr
    have hunread : messageCodec unreadText = .event unreadMessage := by decide +kernel
    rw [hr] at hdec
    have heq : event = unreadMessage := Decoded.event.inj (hdec.symm.trans hunread)
    rw [heq] at hseal
    have hsealed : (messageEnv 5).serialize n (unreadMessage.set "is_read".toList (.bool true))
        = some readText := by
      have hother : unreadMessage.set "is_read".toList (.bool true) ≠ unreadMessage := by decide
      unfold messageEnv
      dsimp only
      rw [if_neg hother, if_pos rfl]
    rw [hsealed] at hseal
    nomatch hseal

/-- The codec reads back what it has sealed. -/
theorem messageEnv_seals {random : Int} {n : Nat} {payload : Str}
    (h : (messageEnv random).serialize n event = some payload) :
    messageCodec payload = .event event := by
  have h : (if event = unreadMessage then some unreadText
    else if event = unreadMessage.set "is_read".toList (.bool true) then some readText
    else none) = some payload := h
  split_ifs at h with hunread hread
  · rw [← Option.some.inj h, hunread]
    decide +kernel
  rw [← Option.some.inj h, hread]
  decide +kernel

/-- A message marked, the file damaged and made again, and its first message marked. -/
def remadeCalls : List (Env × Op) :=
  [ (messageEnv 5, .append [unreadMessage] none), (messageEnv 5, .markRead [phoneHandle])
  , (messageEnv 5, .clear true true), (messageEnv 6, .append [unreadMessage] none)
  , (messageEnv 6, .markRead [phoneHandle]) ]

theorem marks_as_scan_remade : Machine.Along step MarksAsScan ⟨Db.fresh, none⟩ remadeCalls := by
  refine @marks_as_scan messageCodec remadeCalls ?_
  have hreads : ∀ random w, Reads messageCodec (messageEnv random) w := fun _ _ =>
    ⟨fun _ _ => rfl, fun _ _ _ hseal => ⟨messageEnv_seals hseal, messageEnv_seals hseal⟩⟩
  refine ⟨trivial, fun _ => ⟨hreads _ _, ?_⟩, trivial, trivial, fun _ => ⟨hreads _ _, ?_⟩, trivial⟩
  · intro _ index hindex
    nomatch hindex
  intro _ index hindex
  have hidentity : index.identity = 5 := by
    have hsome : (Machine.run step ⟨Db.fresh, none⟩ (remadeCalls.take 4)).index
        = some index := hindex
    have hfive : (Machine.run step ⟨Db.fresh, none⟩ (remadeCalls.take 4)).index.map
        HandleIndex.identity = some 5 := by decide +kernel
    rw [hsome] at hfive
    exact Option.some.inj hfive
  rw [hidentity]
  decide

end BlueFerry.History
