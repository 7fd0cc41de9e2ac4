import BlueFerry.Notifications.Shape

/-! # The notification log over its runs

Every call keeps `Sound`, from the empty log on (`sound_run`). What a call does to records it is
not about is stated for the log with the pins loaded, which is the first thing that most calls do:
an update or a removal changes records of the current session only, and a `set_pinned` that fails
changes nothing.
-/

namespace BlueFerry.Notifications.NotificationLog

open BlueFerry.Text

variable {c : Nat}

variable {l : NotificationLog}

/-- A log that differs in nothing that `Sound` looks at. -/
theorem Sound.flags (h : Sound c l) (failed dirty : Bool) :
    Sound c { l with pinsLoadFailed := failed, pinsDirty := dirty } :=
  ⟨h.capacity, ⟨h.shape.room, h.shape.listed, h.shape.same, h.shape.ring_nodup, h.shape.ring_le,
    h.shape.keyed, h.shape.alone, h.shape.past⟩, h.pinned_nodup, h.pinned_le, h.unloaded⟩

theorem persist_eq (l : NotificationLog) (saving : Saving) :
    ∃ dirty, l.persist saving = { l with pinsDirty := dirty } := by
  unfold persist
  split
  · exact ⟨l.pinsDirty, rfl⟩
  · exact ⟨_, rfl⟩

theorem Sound.persist (h : Sound c l) (saving : Saving) : Sound c (l.persist saving) := by
  obtain ⟨dirty, heq⟩ := persist_eq l saving
  rw [heq]
  exact h.flags l.pinsLoadFailed dirty

theorem Sound.persistDirty (h : Sound c l) (saving : Saving) : Sound c (l.persistDirty saving) := by
  unfold NotificationLog.persistDirty
  split
  · exact h.persist saving
  · exact h

/-! ## Keys -/

variable {draws rest : List Str}

variable {key : Str} {e : AncsEvent} {saving : Saving} {a : Answers}

theorem uniqueKey_spec {avoid : List Str} (h : l.uniqueKey avoid draws = some (key, rest)) :
    validKey key = true ∧ key ∉ l.entries.keys ∧ key ∉ avoid := by
  induction draws with
  | nil => exact absurd h (by simp [uniqueKey])
  | cons k draws ih =>
    rw [uniqueKey] at h
    by_cases hk : (validKey k && decide (k ∉ l.entries.keys) && decide (k ∉ avoid)) = true
    · rw [if_pos hk] at h
      have heq : k = key := congrArg Prod.fst (Option.some.inj h)
      simpa [heq, and_assoc] using hk
    · rw [if_neg hk] at h
      exact ih h

/-! ## Loading the pins -/

theorem rekey_pinned (key fresh : Str) (h : l.pinned = []) : (l.rekey key fresh).pinned = [] := by
  unfold rekey
  cases l.entries.get? key with
  | none => exact h
  | some record => simp [h]

theorem rekey_frame (l : NotificationLog) (key fresh : Str) :
    (l.rekey key fresh).pinsLoaded = l.pinsLoaded ∧
      (l.rekey key fresh).capacity = l.capacity := by
  unfold rekey
  cases l.entries.get? key with
  | none => exact ⟨rfl, rfl⟩
  | some record => exact ⟨rfl, rfl⟩

/-- A stored record is listed, of no session. -/
theorem Shape.adopted {P : Str → Prop} (h : Shape P l) (record : Record) :
    Shape (fun k => P k ∨ k = record.key) { l with
      entries := l.entries.set record.key record
      sessions := l.sessions.set record.key none } where
  room := h.room
  listed := by
    intro k
    rw [show k ∈ (l.entries.set record.key record).keys ↔ _ from Dict.mem_keys_set, h.listed k]
    tauto
  same := by
    intro k
    rw [show k ∈ (l.sessions.set record.key none).keys ↔ _ from Dict.mem_keys_set, h.same k]
    exact Dict.mem_keys_set.symm
  ring_nodup := h.ring_nodup
  ring_le := h.ring_le
  keyed := by
    intro k r hr
    rw [Dict.get?_set] at hr
    by_cases hk : k = record.key
    · rw [if_pos hk] at hr
      rw [← Option.some.inj hr, hk]
    rw [if_neg hk] at hr
    exact h.keyed k r hr
  alone := by
    refine h.alone.of_before ?_
    intro k r hr hlive
    rw [liveRecord_iff] at hlive
    have hsession := hlive.1
    rw [Dict.get?_set] at hr hsession
    by_cases hk : k = record.key
    · simp [hk] at hsession
    rw [if_neg hk] at hr hsession
    exact ⟨hr, liveRecord_iff.mpr ⟨hsession, hlive.2⟩⟩
  past := by
    intro k n hn
    rw [Dict.get?_set] at hn
    by_cases hk : k = record.key
    · simp [hk] at hn
    rw [if_neg hk] at hn
    exact h.past k n hn

variable {l' : NotificationLog}

/-- The loop of `_load_pins`: the stored records are listed besides what `P` admits. -/
theorem adopt_shape {storedKeys : List Str} {stored : List Record} {P : Str → Prop}
    (h : adopt storedKeys l stored draws = some (l', rest)) (hl : Shape P l) (hpins : l.pinned = [])
    (hkeys : ∀ r ∈ stored, r.key ∈ storedKeys) (hnodup : (stored.map Record.key).Nodup)
    (hP : ∀ r ∈ stored, ¬ P r.key) :
    Shape (fun k => P k ∨ k ∈ stored.map Record.key) l' ∧ l'.pinned = [] ∧
      l'.pinsLoaded = l.pinsLoaded ∧ l'.capacity = l.capacity := by
  induction stored generalizing P l draws with
  | nil =>
    rw [adopt] at h
    have heq : l = l' := congrArg Prod.fst (Option.some.inj h)
    rw [← heq]
    exact ⟨hl.congr (fun k => by simp), hpins, rfl, rfl⟩
  | cons record stored ih =>
    rw [List.map_cons, List.nodup_cons] at hnodup
    -- the key of the stored record is made free, if it is not
    have hfree : ∃ l₁ draws₁, Shape P l₁ ∧ l₁.pinned = [] ∧
        (l₁.pinsLoaded = l.pinsLoaded ∧ l₁.capacity = l.capacity) ∧
        adopt storedKeys { l₁ with
          entries := l₁.entries.set record.key record
          sessions := l₁.sessions.set record.key none } stored draws₁ = some (l', rest) := by
      rw [adopt] at h
      by_cases hmem : record.key ∈ l.entries.keys
      · rw [if_pos hmem] at h
        cases hkey : l.uniqueKey storedKeys draws with
        | none => simp [hkey] at h
        | some drawn =>
          obtain ⟨fresh, draws₁⟩ := drawn
          rw [hkey] at h
          have hfresh := (uniqueKey_spec hkey).2.1
          exact ⟨l.rekey record.key fresh, draws₁, hl.rekeyed (hP record (.head _)) hfresh,
            rekey_pinned _ _ hpins, rekey_frame l _ _, h⟩
      · rw [if_neg hmem] at h
        exact ⟨l, draws, hl, hpins, ⟨rfl, rfl⟩, h⟩
    obtain ⟨l₁, draws₁, hl₁, hpins₁, ⟨hloaded₁, hcap₁⟩, h⟩ := hfree
    have hP' : ∀ r ∈ stored, ¬ (P r.key ∨ r.key = record.key) := by
      rintro r hr (hp | heq)
      · exact hP r (.tail _ hr) hp
      · exact hnodup.1 (heq ▸ List.mem_map_of_mem hr)
    obtain ⟨hshape, hpins', hloaded', hcap'⟩ := ih h (hl₁.adopted record) hpins₁
      (fun r hr => hkeys r (.tail _ hr)) hnodup.2 hP'
    refine ⟨hshape.congr (fun k => ?_), hpins', hloaded'.trans hloaded₁, hcap'.trans hcap₁⟩
    rw [List.map_cons, List.mem_cons, or_assoc]

theorem Sound.loadPins (h : Sound c l) {a : Loading}
    (hload : l.loadPins a draws = some (.ok l', rest)) : Sound c l' := by
  unfold NotificationLog.loadPins at hload
  by_cases hskip : (l.pinsLoaded || !l.hasStore || !a.readable) = true
  · rw [if_pos hskip] at hload
    cases hload
    exact h
  rw [if_neg hskip] at hload
  have hpins : l.pinned = [] := h.unloaded (by
    cases hb : l.pinsLoaded with
    | false => rfl
    | true => simp [hb] at hskip)
  cases hdoc : a.document with
  | error e => simp [hdoc] at hload
  | ok document =>
    simp only [hdoc] at hload
    by_cases hstill : (!a.stillReadable) = true
    · rw [if_pos hstill] at hload
      cases hload
      exact h
    rw [if_neg hstill] at hload
    cases hadopt : adopt ((load l.showContent document).1.map Record.key)
        { l with pinsLoaded := true, pinsLoadFailed := false }
        (load l.showContent document).1 draws with
    | none => simp [hadopt] at hload
    | some adopted =>
      obtain ⟨l₁, draws₁⟩ := adopted
      have hbase : Shape (fun _ => False)
          { l with pinsLoaded := true, pinsLoadFailed := false } :=
        ⟨h.shape.room, fun k => by simpa [hpins] using h.shape.listed k, h.shape.same,
          h.shape.ring_nodup, h.shape.ring_le, h.shape.keyed, h.shape.alone, h.shape.past⟩
      obtain ⟨hshape, hpins₁, hloaded₁, hcap₁⟩ := adopt_shape hadopt hbase hpins
        (fun r hr => List.mem_map_of_mem hr) (load_nodup _ _) (fun _ _ => id)
      have hsound : Sound c { l₁ with
          pinned := (load l.showContent document).1.map Record.key
            ++ l₁.pinned.filter
                (· ∉ (load l.showContent document).1.map Record.key) } := by
        rw [hpins₁, List.filter_nil, List.append_nil]
        exact
          { capacity := hcap₁.trans h.capacity
            shape := ⟨hshape.room, fun k => by simpa using hshape.listed k, hshape.same,
              hshape.ring_nodup, hshape.ring_le, hshape.keyed, hshape.alone, hshape.past⟩
            pinned_nodup := load_nodup _ _
            pinned_le := by
              rw [List.length_map]
              exact load_length _ _
            unloaded := fun hfalse => absurd (hloaded₁.symm.trans hfalse) (by simp) }
      rw [hadopt] at hload
      by_cases hrewrite : (load l.showContent document).2 = true
      · simp only [Option.bind_eq_bind, Option.bind_some, hrewrite, if_true] at hload
        cases hload
        exact hsound.persist a.rewriting
      · simp only [Option.bind_eq_bind, Option.bind_some, hrewrite] at hload
        cases hload
        exact hsound

theorem Sound.ensurePinsLoaded (h : Sound c l) {a : Loading}
    (hload : l.ensurePinsLoaded a draws = some (l', rest)) : Sound c l' := by
  unfold NotificationLog.ensurePinsLoaded at hload
  cases hres : l.loadPins a draws with
  | none => simp [hres] at hload
  | some res =>
    obtain ⟨res, draws₁⟩ := res
    rw [hres] at hload
    cases res with
    | ok l₁ =>
      cases hload
      exact h.loadPins hres
    | error e =>
      cases hload
      exact h.flags true l.pinsDirty

/-! ## The ring -/

theorem makeRoom_of_lt (l : NotificationLog) {ring : List Str} (h : ring.length < l.capacity) :
    l.makeRoom ring = { l with ring := ring } := by
  cases ring with
  | nil => rfl
  | cons k ring => rw [makeRoom, if_neg (by omega)]

/-- A ring that is full loses its oldest key. -/
theorem makeRoom_full (l : NotificationLog) {evicted : Str} {ring : List Str}
    (h : (evicted :: ring).length = l.capacity) :
    l.makeRoom (evicted :: ring) =
      { (if evicted ∈ l.pinned then l else l.drop evicted) with ring := ring } := by
  rw [makeRoom, if_pos (by omega)]
  rw [List.length_cons] at h
  by_cases hpin : evicted ∈ l.pinned
  · rw [if_pos hpin]
    exact makeRoom_of_lt l (by omega)
  rw [if_neg hpin]
  exact makeRoom_of_lt (l.drop evicted) (show ring.length < l.capacity by omega)

/-- Room is made in the ring, while the record under `key` waits for its place. -/
theorem Shape.madeRoom (h : Shape (fun k => k = key ∨ k ∈ l.pinned) l)
    (hkey : key ∉ l.ring) : Shape (fun k => k = key ∨ k ∈ l.pinned) (l.makeRoom l.ring) ∧
      key ∉ (l.makeRoom l.ring).ring ∧ (l.makeRoom l.ring).ring.length < l.capacity ∧
      (l.makeRoom l.ring).pinned = l.pinned ∧ (l.makeRoom l.ring).capacity = l.capacity ∧
      (l.makeRoom l.ring).pinsLoaded = l.pinsLoaded := by
  by_cases hroom : l.ring.length < l.capacity
  · rw [makeRoom_of_lt l hroom]
    exact ⟨h, hkey, hroom, rfl, rfl, rfl⟩
  have hle := h.ring_le
  have hone := h.room
  obtain ⟨evicted, ring, hring⟩ : ∃ evicted ring, l.ring = evicted :: ring := by
    cases hring : l.ring with
    | nil =>
      rw [hring, List.length_nil] at hroom
      omega
    | cons evicted ring => exact ⟨evicted, ring, rfl⟩
  have hfull : (evicted :: ring).length = l.capacity := by
    rw [← hring]
    omega
  have hnodup := h.ring_nodup
  rw [hring, List.nodup_cons] at hnodup
  rw [hring, List.mem_cons, not_or] at hkey
  have hshift := h.shift hring
  rw [hring, makeRoom_full l hfull]
  rw [List.length_cons] at hfull
  by_cases hpin : evicted ∈ l.pinned
  · rw [if_pos hpin]
    refine ⟨hshift.congr (fun k => ?_), hkey.2, by show ring.length < _; omega, rfl, rfl, rfl⟩
    constructor
    · rintro (hk | rfl | hk)
      · exact .inl hk
      · exact .inr (.inr hpin)
      · exact .inr hk
    · exact Or.imp_right Or.inr
  rw [if_neg hpin]
  have hdropped := hshift.dropped (show evicted ∉ ring from hnodup.1)
  refine ⟨hdropped.congr (fun k => ?_), hkey.2, by show ring.length < _; omega, rfl, rfl, rfl⟩
  constructor
  · rintro (hk | ⟨hne, hk⟩)
    · exact .inl hk
    · exact .inr (hk.resolve_left hne)
  rintro (hk | hk)
  · exact .inl hk
  · refine .inr ⟨?_, .inr hk⟩
    rintro rfl
    exact hk.elim (fun heq => hkey.1 heq.symm) hpin

/-- The end of `handle_ancs` keeps the log sound: the record waits outside the ring for its place. -/
theorem place_sound {record : Record} (saving : Saving)
    (hc : l.capacity = c) (h : Shape (fun k => k = record.key ∨ k ∈ l.pinned) { l with
      entries := l.entries.set record.key record
      sessions := l.sessions.set record.key (some l.session) })
    (hkey : record.key ∉ l.ring) (hnodup : l.pinned.Nodup)
    (hle : l.pinned.length ≤ MAX_PINNED_NOTIFICATIONS)
    (hunloaded : l.pinsLoaded = false → l.pinned = []) :
    Sound c (l.place record saving) := by
  obtain ⟨hshape, hout, hroom, hpinned, hcapacity, hloaded⟩ := Shape.madeRoom (l := { l with
    entries := l.entries.set record.key record
    sessions := l.sessions.set record.key (some l.session) }) h hkey
  unfold place ringAppend
  extract_lets l₁ l₂ l₃
  have hshape₃ : Shape (fun k => k ∈ l.pinned) l₃ :=
    hshape.append hout (by rw [hcapacity]; exact hroom)
  have hpinned₃ : l₃.pinned = l.pinned := hpinned
  have hsound : Sound c l₃ :=
    { capacity := hcapacity.trans hc
      shape := by
        rw [hpinned₃]
        exact hshape₃
      pinned_nodup := by
        rw [hpinned₃]
        exact hnodup
      pinned_le := by
        rw [hpinned₃]
        exact hle
      unloaded := by
        rw [hpinned₃]
        exact fun hfalse => hunloaded (hloaded.symm.trans hfalse) }
  split
  · exact hsound.persist saving
  · exact hsound

/-! ## iPhone events -/

theorem liveMatch_some {id : Int} {appId : Str} (h : l.liveMatch id appId = some key) :
    ∃ r, l.entries.get? key = some r ∧ l.liveRecord key r = true ∧ r.id = id ∧ r.appId = appId := by
  obtain ⟨⟨k, r⟩, hfind, rfl⟩ := Option.map_eq_some_iff.mp h
  have hlive := List.find?_some hfind
  simp only [Bool.and_eq_true, decide_eq_true_eq] at hlive
  exact ⟨r, Dict.mem_items_iff.mp (List.mem_of_find?_eq_some hfind), hlive.1.1, hlive.1.2, hlive.2⟩

theorem liveMatch_none {id : Int} {appId : Str} (h : l.liveMatch id appId = none) (k : Str)
    (r : Record) (hr : l.entries.get? k = some r) (hlive : l.liveRecord k r = true)
    (hid : r.id = id) : r.appId ≠ appId := by
  intro happ
  have hfind := List.find?_eq_none.mp (Option.map_eq_none_iff.mp h) (k, r)
    (Dict.mem_items_iff.mpr hr)
  simp [hlive, hid, happ] at hfind

/-- A record that has no live one of its kind is listed under a key of its own. -/
theorem Sound.placeNew (h : Sound c l) (hplace : l.placeNew e draws saving = some l')
    (hother : ∀ k r, l.entries.get? k = some r → l.liveRecord k r = true →
      r.id = e.notificationId → r.appId ≠ bounded e.appId) : Sound c l' := by
  unfold NotificationLog.placeNew at hplace
  cases hdrawn : l.uniqueKey [] draws with
  | none => simp [hdrawn] at hplace
  | some drawn =>
    obtain ⟨key, rest⟩ := drawn
    rw [hdrawn] at hplace
    cases hplace
    have hfresh : key ∉ l.ring := fun hmem => (uniqueKey_spec hdrawn).2.1 (h.shape.of_ring hmem)
    have hput := h.shape.put (l.recordOf e key)
      (fun k r hr hlive hid happ => absurd happ (hother k r hr hlive hid))
    exact place_sound saving h.capacity hput hfresh h.pinned_nodup h.pinned_le h.unloaded

theorem Sound.detach (h : Sound c l) (hkey : key ∈ l.entries.keys) :
    Sound c { l with sessions := l.sessions.set key none } :=
  ⟨h.capacity, h.shape.detach hkey, h.pinned_nodup, h.pinned_le, h.unloaded⟩

theorem Sound.receive (h : Sound c l)
    (hreceive : l.receive e draws saving = some l') : Sound c l' := by
  unfold NotificationLog.receive at hreceive
  cases hmatch : l.liveMatch e.notificationId (bounded e.appId) with
  | none =>
    rw [hmatch] at hreceive
    exact h.placeNew hreceive (liveMatch_none hmatch)
  | some key =>
    obtain ⟨r, hr, hlive, hid, happ⟩ := liveMatch_some hmatch
    have hmem : key ∈ l.entries.keys := Dict.mem_keys_iff.mpr ⟨r, hr⟩
    -- the match is the only live record of its kind
    have honly : ∀ k r', l.entries.get? k = some r' → l.liveRecord k r' = true →
        r'.id = e.notificationId → r'.appId = bounded e.appId → k = key := by
      intro k r' hr' hlive' hid' happ'
      exact h.shape.alone k key r' r hr' hr hlive' hlive (hid'.trans hid.symm)
        (happ'.trans happ.symm)
    simp only [hmatch] at hreceive
    split at hreceive
    · refine (h.detach hmem).placeNew hreceive ?_
      intro k r' hr' hlive' hid' happ'
      rw [liveRecord_iff] at hlive'
      have hsession := hlive'.1
      rw [Dict.get?_set] at hsession
      by_cases hk : k = key
      · simp [hk] at hsession
      rw [if_neg hk] at hsession
      exact hk (honly k r' hr' (liveRecord_iff.mpr ⟨hsession, hlive'.2⟩) hid' happ')
    cases hreceive
    have hput := (h.shape.unring hmem).put (l.recordOf e key) honly
    refine place_sound saving h.capacity (hput.congr (fun k => ?_)) ?_ h.pinned_nodup h.pinned_le
      h.unloaded
    · show _ ∨ k = key ∨ k = key ∨ _ ↔ _ ∨ k = key ∨ _
      rw [or_self_left]
    · exact h.shape.ring_nodup.not_mem_erase

theorem Sound.handleAncs (h : Sound c l) (hhandle : l.handleAncs e a = some l') : Sound c l' := by
  unfold NotificationLog.handleAncs at hhandle
  split at hhandle
  · cases hhandle
    exact h
  cases hload : l.ensurePinsLoaded a.loading a.draws with
  | none => simp [hload] at hhandle
  | some loaded =>
    obtain ⟨l₁, draws⟩ := loaded
    rw [hload] at hhandle
    exact (h.ensurePinsLoaded hload).receive hhandle

theorem Sound.markRemoved (h : Sound c l) (id : Int) (saving : Saving) :
    Sound c (l.markRemoved id saving) := by
  unfold NotificationLog.markRemoved
  extract_lets hit marked
  have hget : ∀ k, marked.entries.get? k = (l.entries.get? k).map
      (fun r => if hit k r then { r with removed := true } else r) :=
    fun k => Dict.get?_mapValues l.entries _ k
  have hback : ∀ k r, marked.entries.get? k = some r → marked.liveRecord k r = true →
      l.entries.get? k = some r ∧ l.liveRecord k r = true := by
    intro k r hr hlive
    rw [hget] at hr
    obtain ⟨r₀, hr₀, heq⟩ := Option.map_eq_some_iff.mp hr
    rw [liveRecord_iff] at hlive
    by_cases hhit : hit k r₀ = true
    · rw [if_pos hhit] at heq
      rw [← heq] at hlive
      exact absurd hlive.2 (by simp)
    · rw [if_neg hhit] at heq
      exact heq ▸ ⟨hr₀, liveRecord_iff.mpr (heq ▸ hlive)⟩
  have hsound : Sound c marked :=
    { capacity := h.capacity
      shape :=
        { room := h.shape.room
          listed := fun k => (Dict.mem_keys_mapValues).trans (h.shape.listed k)
          same := fun k => (h.shape.same k).trans Dict.mem_keys_mapValues.symm
          ring_nodup := h.shape.ring_nodup
          ring_le := h.shape.ring_le
          keyed := by
            intro k r hr
            rw [hget] at hr
            obtain ⟨r₀, hr₀, heq⟩ := Option.map_eq_some_iff.mp hr
            rw [← h.shape.keyed k r₀ hr₀, ← heq]
            by_cases hhit : hit k r₀ = true
            · rw [if_pos hhit]
            · rw [if_neg hhit]
          alone := h.shape.alone.of_before hback
          past := h.shape.past }
      pinned_nodup := h.pinned_nodup
      pinned_le := h.pinned_le
      unloaded := h.unloaded }
  split
  · exact hsound.persist saving
  · exact hsound

/-- No record is of the session that begins. -/
theorem Sound.sessionReset (h : Sound c l) : Sound c l.sessionReset where
  capacity := h.capacity
  shape :=
    { room := h.shape.room
      listed := h.shape.listed
      same := h.shape.same
      ring_nodup := h.shape.ring_nodup
      ring_le := h.shape.ring_le
      keyed := h.shape.keyed
      alone := by
        intro k k' r r' _ _ hlive
        have hpast := h.shape.past k (l.session + 1) (liveRecord_iff.mp hlive).1
        omega
      past := fun k n hn => Nat.le_succ_of_le (h.shape.past k n hn) }
  pinned_nodup := h.pinned_nodup
  pinned_le := h.pinned_le
  unloaded := h.unloaded

/-! ## Pins -/

theorem savePins_eq {pins : List Str} (h : l.savePins pins saving = .ok l') :
    ∃ dirty, l' = { l with pinned := pins, pinsDirty := dirty } := by
  unfold savePins at h
  split at h
  · cases h
    exact ⟨l.pinsDirty, rfl⟩
  split at h
  · cases h
    exact ⟨false, rfl⟩
  · exact absurd h (by simp)

/-- The pins are changed, where the records that are listed stay the same. -/
theorem Shape.withPins {pins : List Str} (dirty : Bool) (hc : l.capacity = c)
    (hshape : Shape (fun k => k ∈ pins) l) (hnodup : pins.Nodup)
    (hle : pins.length ≤ MAX_PINNED_NOTIFICATIONS) (hloaded : l.pinsLoaded = true) :
    Sound c { l with pinned := pins, pinsDirty := dirty } :=
  ⟨hc, ⟨hshape.room, hshape.listed, hshape.same, hshape.ring_nodup, hshape.ring_le, hshape.keyed,
    hshape.alone, hshape.past⟩, hnodup, hle,
    fun hfalse => absurd (hloaded.symm.trans hfalse) (by simp)⟩

theorem Sound.pin (h : Sound c l) (hkey : key ∈ l.entries.keys) (hpin : key ∉ l.pinned)
    (hroom : ¬ MAX_PINNED_NOTIFICATIONS ≤ l.pinned.length) (hloaded : l.pinsLoaded = true)
    (dirty : Bool) : Sound c { l with pinned := l.pinned ++ [key], pinsDirty := dirty } := by
  have hlisted := (h.shape.listed key).mp hkey
  refine Shape.withPins dirty h.capacity (h.shape.congr (fun k => ?_)) ?_ ?_ hloaded
  · rw [List.mem_append, List.mem_singleton]
    constructor
    · exact Or.imp_right Or.inl
    rintro (hk | hk | rfl)
    · exact .inl hk
    · exact .inr hk
    · exact hlisted
  · rw [List.nodup_append]
    refine ⟨h.pinned_nodup, List.nodup_singleton key, ?_⟩
    intro a ha b hb hab
    rw [hab, List.mem_singleton.mp hb] at ha
    exact hpin ha
  · rw [List.length_append, List.length_singleton]
    omega

theorem Sound.unpin (h : Sound c l) (key : Str) (hloaded : l.pinsLoaded = true) (dirty : Bool) :
    Sound c (if key ∈ l.ring then { l with pinned := l.pinned.erase key, pinsDirty := dirty }
      else { l with pinned := l.pinned.erase key, pinsDirty := dirty }.drop key) := by
  have hnodup : (l.pinned.erase key).Nodup := h.pinned_nodup.erase key
  have hle : (l.pinned.erase key).length ≤ MAX_PINNED_NOTIFICATIONS :=
    le_trans List.length_erase_le h.pinned_le
  have hpins : ∀ k, k ∈ l.pinned.erase key ↔ k ≠ key ∧ k ∈ l.pinned :=
    fun k => h.pinned_nodup.mem_erase_iff
  by_cases hring : key ∈ l.ring
  · rw [if_pos hring]
    refine Shape.withPins dirty h.capacity (h.shape.congr (fun k => ?_)) hnodup hle hloaded
    rw [hpins]
    by_cases hk : k = key
    · simp [hk, hring]
    · simp [hk]
  rw [if_neg hring]
  refine Shape.withPins (l := l.drop key) dirty h.capacity ((h.shape.dropped hring).congr (fun k => ?_))
    hnodup hle hloaded
  rw [hpins]

theorem Sound.changePin (h : Sound c l) {pinned now : Bool}
    (hchange : l.changePin key pinned saving = .ok (l', now)) : Sound c l' := by
  unfold NotificationLog.changePin at hchange
  by_cases hloaded : l.pinsLoaded = true
  · rw [if_neg (by simp [hloaded])] at hchange
    by_cases hknown : (!validKey key || decide (key ∉ l.entries.keys)) = true
    · rw [if_pos hknown] at hchange
      exact absurd hchange (by simp)
    rw [if_neg hknown] at hchange
    have hkey : key ∈ l.entries.keys := by
      simp only [Bool.or_eq_true, Bool.not_eq_true', decide_eq_true_eq, not_or, not_not] at hknown
      exact hknown.2
    cases pinned with
    | true =>
      rw [if_pos rfl] at hchange
      by_cases hpin : key ∈ l.pinned
      · rw [if_pos hpin] at hchange
        cases hchange
        exact h
      rw [if_neg hpin] at hchange
      by_cases hroom : MAX_PINNED_NOTIFICATIONS ≤ l.pinned.length
      · rw [if_pos hroom] at hchange
        exact absurd hchange (by simp)
      rw [if_neg hroom] at hchange
      split at hchange
      · exact absurd hchange (by simp)
      cases hsave : l.savePins (l.pinned ++ [key]) saving with
      | error e => simp [hsave, Except.map] at hchange
      | ok saved =>
        rw [hsave] at hchange
        cases hchange
        obtain ⟨dirty, rfl⟩ := savePins_eq hsave
        exact h.pin hkey hpin hroom hloaded dirty
    | false =>
      rw [if_neg (by simp)] at hchange
      by_cases hpin : key ∉ l.pinned
      · rw [if_pos hpin] at hchange
        cases hchange
        exact h
      rw [if_neg hpin] at hchange
      cases hsave : l.savePins (l.pinned.erase key) saving with
      | error e => simp [hsave, Except.map] at hchange
      | ok saved =>
        rw [hsave] at hchange
        cases hchange
        obtain ⟨dirty, rfl⟩ := savePins_eq hsave
        exact h.unpin key hloaded dirty
  · rw [if_pos (by simp [hloaded])] at hchange
    exact absurd hchange (by simp)

/-- A `set_pinned` that fails leaves the log as loading the pins has left it. -/
theorem setPinned_error {pinned : Bool} {e : PinError}
    (h : l.setPinned key pinned a = some (l', .error e)) :
    ∃ l₁ draws, l.ensurePinsLoaded a.loading a.draws = some (l₁, draws) ∧
      l₁ = { l' with pinsLoadFailed := l₁.pinsLoadFailed } := by
  unfold setPinned at h
  unfold ensurePinsLoaded
  cases hload : l.loadPins a.loading a.draws with
  | none => simp [hload] at h
  | some loaded =>
    obtain ⟨res, draws⟩ := loaded
    rw [hload] at h
    cases res with
    | ok l₁ =>
      refine ⟨l₁, draws, rfl, ?_⟩
      simp only [Option.bind_eq_bind, Option.bind_some] at h
      cases hchange : l₁.changePin key pinned a.saving with
      | ok res => simp [hchange] at h
      | error e₁ =>
        simp only [hchange, Option.some.injEq, Prod.mk.injEq] at h
        rw [← h.1]
    | error e₁ =>
      refine ⟨l.pinsUnreadable, draws, rfl, ?_⟩
      cases e₁ with
      | unreadableSettings =>
        simp only [Option.bind_eq_bind, Option.bind_some, Option.some.injEq, Prod.mk.injEq] at h
        rw [← h.1]
        rfl
      | other =>
        simp only [Option.bind_eq_bind, Option.bind_some] at h
        cases hchange : l.pinsUnreadable.changePin key pinned a.saving with
        | ok res => simp [hchange] at h
        | error e₂ =>
          simp only [hchange, Option.some.injEq, Prod.mk.injEq] at h
          rw [← h.1]

theorem Sound.setPinned (h : Sound c l) {pinned : Bool} {res : Except PinError Bool}
    (hset : l.setPinned key pinned a = some (l', res)) : Sound c l' := by
  cases res with
  | error e =>
    obtain ⟨l₁, draws, hload, heq⟩ := setPinned_error hset
    have hsound := (h.ensurePinsLoaded hload).flags l'.pinsLoadFailed l₁.pinsDirty
    rw [heq] at hsound
    exact hsound
  | ok now =>
    unfold NotificationLog.setPinned at hset
    cases hload : l.loadPins a.loading a.draws with
    | none => simp [hload] at hset
    | some loaded =>
      obtain ⟨loadedLog, draws⟩ := loaded
      rw [hload] at hset
      simp only [Option.bind_eq_bind, Option.bind_some] at hset
      cases loadedLog with
      | ok l₁ =>
        cases hchange : l₁.changePin key pinned a.saving with
        | error e => simp [hchange] at hset
        | ok res =>
          simp only [hchange, Option.some.injEq, Prod.mk.injEq] at hset
          exact hset.1 ▸ (h.loadPins hload).changePin hchange
      | error e =>
        cases e with
        | unreadableSettings => simp at hset
        | other =>
          cases hchange : l.pinsUnreadable.changePin key pinned a.saving with
          | error e => simp [hchange] at hset
          | ok res =>
            simp only [hchange, Option.some.injEq, Prod.mk.injEq] at hset
            exact hset.1 ▸ (h.flags true l.pinsDirty).changePin hchange

/-- The loop of `forget_pins` drops what only the pins list. -/
theorem Shape.dropUnlisted {pins : List Str} :
    ∀ {l : NotificationLog}, Shape (fun k => k ∈ pins) l → pins.Nodup →
      Shape (fun _ => False) (l.dropUnlisted pins) ∧
        (l.dropUnlisted pins).capacity = l.capacity := by
  induction pins with
  | nil => exact fun h _ => ⟨h.congr (fun k => by simp), rfl⟩
  | cons key pins ih =>
    intro l h hnodup
    rw [List.nodup_cons] at hnodup
    rw [NotificationLog.dropUnlisted]
    by_cases hring : key ∈ l.ring
    · rw [if_pos hring]
      refine ih (h.congr (fun k => ?_)) hnodup.2
      rw [List.mem_cons]
      constructor
      · rintro (hk | rfl | hk)
        · exact .inl hk
        · exact .inl hring
        · exact .inr hk
      · exact Or.imp_right Or.inr
    rw [if_neg hring]
    refine ih ((h.dropped hring).congr (fun k => ?_)) hnodup.2
    rw [List.mem_cons]
    constructor
    · exact Or.imp_right (fun hk => hk.2.resolve_left hk.1)
    · exact Or.imp_right (fun hk => ⟨fun heq => hnodup.1 (heq ▸ hk), .inr hk⟩)

theorem Sound.forgetPins (h : Sound c l) (cleared : Bool) : Sound c (l.forgetPins cleared) := by
  unfold NotificationLog.forgetPins
  split
  · exact h
  obtain ⟨hshape, hcap⟩ := h.shape.dropUnlisted h.pinned_nodup
  exact ⟨hcap.trans h.capacity, ⟨hshape.room, fun k => by simpa using hshape.listed k, hshape.same, hshape.ring_nodup,
    hshape.ring_le, hshape.keyed, hshape.alone, hshape.past⟩, List.nodup_nil, Nat.zero_le _,
    fun _ => rfl⟩

/-- A log without records is sound. -/
theorem Sound.empty (hc : l.capacity = c) (hroom : 1 ≤ l.capacity) (hentries : l.entries = .empty)
    (hsessions : l.sessions = .empty) (hring : l.ring = []) (hpinned : l.pinned = []) :
    Sound c l where
  capacity := hc
  shape :=
    { room := hroom
      listed := fun k => by simp [hentries, hring, hpinned, Dict.mem_keys_iff]
      same := fun k => by simp [hentries, hsessions, Dict.mem_keys_iff]
      ring_nodup := by simp [hring]
      ring_le := by simp [hring]
      keyed := fun k r hr => by simp [hentries] at hr
      alone := fun k k' r r' hr => by simp [hentries] at hr
      past := fun k n hn => by simp [hsessions] at hn }
  pinned_nodup := by simp [hpinned]
  pinned_le := by simp [hpinned]
  unloaded := fun _ => hpinned

theorem Sound.clear (h : Sound c l) (cleared : Bool) : Sound c (l.clear cleared) := by
  unfold NotificationLog.clear
  split
  · exact h
  · exact Sound.empty h.capacity h.shape.room rfl rfl rfl rfl

theorem sound_start (showContent : Bool) (capacity : Nat) (hasStore : Bool) :
    Sound (max 1 capacity) (start showContent capacity hasStore) :=
  Sound.empty rfl (le_max_left 1 capacity) rfl rfl rfl rfl

/-! ## Runs -/

theorem Sound.perform (h : Sound c l) {op : Operation}
    (hperform : l.perform a op = some l') : Sound c l' := by
  cases op with
  | handleAncs e => exact h.handleAncs hperform
  | markRemoved id =>
    cases hperform
    exact h.markRemoved id a.saving
  | sessionReset =>
    cases hperform
    exact h.sessionReset
  | setPinned key pinned =>
    obtain ⟨⟨l₁, res⟩, hset, rfl⟩ := Option.map_eq_some_iff.mp hperform
    exact h.setPinned hset
  | forgetPins =>
    cases hperform
    exact h.forgetPins a.cleared
  | storageChanged =>
    unfold NotificationLog.perform storageChanged at hperform
    cases hload : l.ensurePinsLoaded a.loading a.draws with
    | none => simp [hload] at hperform
    | some loaded =>
      rw [hload] at hperform
      cases hperform
      exact (h.ensurePinsLoaded hload).persistDirty a.saving
  | clear =>
    cases hperform
    exact h.clear a.cleared
  | snapshot limit =>
    obtain ⟨⟨l₁, shown⟩, hsnapshot, rfl⟩ := Option.map_eq_some_iff.mp hperform
    unfold snapshot at hsnapshot
    cases hload : l.ensurePinsLoaded a.loading a.draws with
    | none => simp [hload] at hsnapshot
    | some loaded =>
      rw [hload] at hsnapshot
      cases hsnapshot
      exact (h.ensurePinsLoaded hload).persistDirty a.saving

theorem Sound.step (h : Sound c l) (call : Operation × Answers) : Sound c (l.step call) := by
  unfold NotificationLog.step
  cases hperform : l.perform call.2 call.1 with
  | none => exact h
  | some l' => exact h.perform hperform

theorem sound_run (showContent : Bool) (capacity : Nat) (hasStore : Bool)
    (calls : List (Operation × Answers)) :
    Sound (max 1 capacity) (Machine.run step (start showContent capacity hasStore) calls) :=
  Machine.always step (P := Sound (max 1 capacity)) (fun _ call h => h.step call) calls
    (sound_start showContent capacity hasStore)

end BlueFerry.Notifications.NotificationLog
