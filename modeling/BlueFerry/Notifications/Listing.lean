import BlueFerry.Notifications.Invariant

/-! # What the notification list shows, and what a call leaves alone

The list shows every record once, and the records are those of the ring and the pins
(`log_stays_consistent`). A call is compared with the log it meets (`Same`): an event or a removal
that names a UID changes records of the current session only, but for the one that a full ring
gives up to make room, and a `set_pinned` that fails has only loaded the saved pins.
-/

namespace BlueFerry.Notifications.NotificationLog

open BlueFerry.Text

variable {c : Nat}

/-- The record under `k` is what it was, and of the session it was. -/
def Same (l l' : NotificationLog) (k : Str) : Prop :=
  l'.entries.get? k = l.entries.get? k ∧ l'.sessions.get? k = l.sessions.get? k

theorem persist_same (l : NotificationLog) (saving : Saving) (k : Str) :
    l.Same (l.persist saving) k := by
  obtain ⟨dirty, heq⟩ := persist_eq l saving
  rw [heq]
  exact ⟨rfl, rfl⟩

/-! ## The list -/

variable {l : NotificationLog}

theorem mem_order {k : Str} : k ∈ l.order ↔ k ∈ l.ring ∨ k ∈ l.pinned := by
  unfold order
  rw [List.mem_append, List.mem_reverse, List.mem_filter, List.mem_reverse]
  by_cases hk : k ∈ l.pinned <;> simp [hk]

theorem Sound.order_nodup (h : Sound c l) : l.order.Nodup := by
  unfold order
  rw [List.nodup_append]
  refine ⟨List.nodup_reverse.mpr h.pinned_nodup,
    (List.nodup_reverse.mpr h.shape.ring_nodup).filter _, ?_⟩
  intro a ha b hb hab
  have hout := (List.mem_filter.mp hb).2
  rw [hab, List.mem_reverse] at ha
  simp [ha] at hout

/-- Every key of the list has its record, under that key. -/
theorem Sound.shown_keys (h : Sound c l) :
    (l.order.filterMap l.shown).map (fun line => line.record.key) = l.order := by
  have hall : ∀ k ∈ l.order, ∃ line, l.shown k = some line ∧ line.record.key = k := by
    intro k hk
    obtain ⟨r, hr⟩ := Dict.mem_keys_iff.mp ((h.shape.listed k).mpr (mem_order.mp hk))
    exact ⟨_, by rw [shown, hr, Option.map_some], h.shape.keyed k r hr⟩
  generalize l.order = keys at hall
  induction keys with
  | nil => rfl
  | cons k keys ih =>
    obtain ⟨line, hline, hkey⟩ := hall k (.head _)
    rw [List.filterMap_cons_some hline, List.map_cons, hkey, ih (fun j hj => hall j (.tail _ hj))]

/-! ## What a call leaves alone -/

theorem markRemoved_same (l : NotificationLog) (id : Int) (saving : Saving) (k : Str)
    (h : ¬ l.Same (l.markRemoved id saving) k) :
    ∃ r, l.entries.get? k = some r ∧ l.sessions.get? k = some (some l.session) ∧ r.id = id := by
  unfold markRemoved at h
  extract_lets hit marked at h
  have hchanged : ¬ l.Same marked k := by
    intro hsame
    split at h
    · exact h ⟨(persist_same marked saving k).1.trans hsame.1,
        (persist_same marked saving k).2.trans hsame.2⟩
    · exact h hsame
  have hget : marked.entries.get? k = (l.entries.get? k).map
      (fun r => if hit k r then { r with removed := true } else r) :=
    Dict.get?_mapValues l.entries _ k
  cases hr : l.entries.get? k with
  | none =>
    rw [hr] at hget
    exact absurd ⟨hget.trans hr.symm, rfl⟩ hchanged
  | some r =>
    rw [hr, Option.map_some] at hget
    by_cases hhit : hit k r = true
    · have hboth : l.liveRecord k r = true ∧ r.id = id := by simpa [hit] using hhit
      exact ⟨r, rfl, (liveRecord_iff.mp hboth.1).1, hboth.2⟩
    rw [if_neg hhit] at hget
    exact absurd ⟨hget.trans hr.symm, rfl⟩ hchanged

/-- The key that a full ring gives up for another one, when it is not pinned. -/
def Evicted (l : NotificationLog) (k : Str) : Prop :=
  l.ring.length = l.capacity ∧ l.ring.head? = some k ∧ k ∉ l.pinned

theorem makeRoom_same (hle : l.ring.length ≤ l.capacity) (hroom : 1 ≤ l.capacity) (k : Str) :
    l.Same (l.makeRoom l.ring) k ∨ l.Evicted k := by
  by_cases hlt : l.ring.length < l.capacity
  · rw [makeRoom_of_lt l hlt]
    exact .inl ⟨rfl, rfl⟩
  cases hring : l.ring with
  | nil =>
    rw [hring, List.length_nil] at hlt
    omega
  | cons evicted ring =>
    have hfull : (evicted :: ring).length = l.capacity := by
      rw [← hring]
      omega
    rw [makeRoom_full l hfull]
    by_cases hpin : evicted ∈ l.pinned
    · rw [if_pos hpin]
      exact .inl ⟨rfl, rfl⟩
    rw [if_neg hpin]
    by_cases hk : k = evicted
    · exact .inr ⟨by rw [hring]; exact hfull, by rw [hring, hk]; rfl, hk ▸ hpin⟩
    refine .inl ⟨?_, ?_⟩
    · show (l.entries.erase evicted).get? k = _
      rw [Dict.get?_erase, if_neg hk]
    · show (l.sessions.erase evicted).get? k = _
      rw [Dict.get?_erase, if_neg hk]

theorem place_same (record : Record) (saving : Saving) (hle : l.ring.length ≤ l.capacity)
    (hroom : 1 ≤ l.capacity) {k : Str} (hk : k ≠ record.key) :
    l.Same (l.place record saving) k ∨ l.Evicted k := by
  unfold place ringAppend
  extract_lets l₁ l₂ l₃
  have hset : l.Same l₁ k := by
    constructor <;> rw [Dict.get?_set, if_neg hk]
  rcases makeRoom_same (l := l₁) hle hroom k with hsame | hevicted
  · left
    have hend : l.Same l₃ k := ⟨hsame.1.trans hset.1, hsame.2.trans hset.2⟩
    split
    · exact ⟨(persist_same l₃ saving k).1.trans hend.1, (persist_same l₃ saving k).2.trans hend.2⟩
    · exact hend
  · exact .inr hevicted

/-- What `handle_ancs` may change: the live record of this UID and app, and the one that a full ring
gives up. -/
theorem Sound.receive_same {l' : NotificationLog} (h : Sound c l) {e : AncsEvent} {draws : List Str}
    {saving : Saving} (hreceive : l.receive e draws saving = some l') {k : Str} {r : Record}
    (hr : l.entries.get? k = some r) (hchanged : ¬ l.Same l' k) :
    (l.sessions.get? k = some (some l.session) ∧ r.id = e.notificationId ∧
      r.appId = bounded e.appId) ∨ l.Evicted k := by
  have hnew : ∀ l₁ : NotificationLog, l₁.ring = l.ring → l₁.capacity = l.capacity →
      l₁.pinned = l.pinned → l₁.entries = l.entries → l₁.placeNew e draws saving = some l' →
      l.sessions.get? k = l₁.sessions.get? k → l.Evicted k := by
    intro l₁ hring hcap hpinned hentries hplace hsessions
    unfold NotificationLog.placeNew at hplace
    cases hdrawn : l₁.uniqueKey [] draws with
    | none => simp [hdrawn] at hplace
    | some drawn =>
      rw [hdrawn] at hplace
      cases hplace
      have hfresh := (uniqueKey_spec hdrawn).2.1
      have hk : k ≠ drawn.1 := by
        rintro rfl
        rw [hentries] at hfresh
        exact hfresh (Dict.mem_keys_iff.mpr ⟨r, hr⟩)
      rcases place_same (l := l₁) (l₁.recordOf e drawn.1) saving
          (by rw [hring, hcap]; exact h.shape.ring_le) (by rw [hcap]; exact h.shape.room) hk with
        hsame | hevicted
      · exact absurd ⟨hsame.1.trans (by rw [hentries]), hsame.2.trans hsessions.symm⟩ hchanged
      unfold Evicted at hevicted ⊢
      rwa [hring, hcap, hpinned] at hevicted
  unfold NotificationLog.receive at hreceive
  cases hmatch : l.liveMatch e.notificationId (bounded e.appId) with
  | none =>
    rw [hmatch] at hreceive
    exact .inr (hnew l rfl rfl rfl rfl hreceive rfl)
  | some key =>
    obtain ⟨r₀, hr₀, hlive, hid, happ⟩ := liveMatch_some hmatch
    simp only [hmatch] at hreceive
    by_cases hk : k = key
    · subst hk
      rw [hr₀] at hr
      cases hr
      exact .inl ⟨(liveRecord_iff.mp hlive).1, hid, happ⟩
    right
    split at hreceive
    · refine hnew { l with sessions := l.sessions.set key none } rfl rfl rfl rfl hreceive ?_
      rw [Dict.get?_set, if_neg hk]
    cases hreceive
    have hle := h.shape.ring_le
    rcases place_same (l := { l with ring := l.ring.erase key })
        (l.recordOf e key) saving (le_trans List.length_erase_le hle)
        h.shape.room hk with hsame | ⟨hfull, hhead, hpin⟩
    · exact absurd hsame hchanged
    -- a ring that is still full did not hold the key
    have hring : l.ring.erase key = l.ring := by
      refine List.erase_of_not_mem (fun hmem => ?_)
      have hlen := List.length_erase_of_mem hmem
      have hpos := List.length_pos_of_mem hmem
      have hfull : (l.ring.erase key).length = l.capacity := hfull
      omega
    exact ⟨hring ▸ hfull, hring ▸ hhead, hpin⟩

theorem Sound.handleAncs_same {l' : NotificationLog} (h : Sound c l) {e : AncsEvent} {a : Answers}
    (hhandle : l.handleAncs e a = some l') :
    l' = l ∨ ∃ l₁ draws, l.ensurePinsLoaded a.loading a.draws = some (l₁, draws) ∧
      ∀ k r, l₁.entries.get? k = some r → ¬ l₁.Same l' k →
        (l₁.sessions.get? k = some (some l₁.session) ∧ r.id = e.notificationId ∧
          r.appId = bounded e.appId) ∨ l₁.Evicted k := by
  unfold NotificationLog.handleAncs at hhandle
  split at hhandle
  · exact .inl (Option.some.inj hhandle).symm
  right
  cases hload : l.ensurePinsLoaded a.loading a.draws with
  | none => simp [hload] at hhandle
  | some loaded =>
    obtain ⟨l₁, draws⟩ := loaded
    rw [hload] at hhandle
    exact ⟨l₁, draws, rfl, fun k r hr hchanged =>
      (h.ensurePinsLoaded hload).receive_same hhandle hr hchanged⟩

/-- With the pins loaded, loading them does nothing. -/
theorem ensurePinsLoaded_loaded (h : l.pinsLoaded = true) (a : Loading) (draws : List Str) :
    l.ensurePinsLoaded a draws = some (l, draws) := by
  unfold ensurePinsLoaded loadPins
  rw [if_pos (by simp [h])]
  rfl

/-! ## The log over its runs -/

/-- **The containers of the log agree after every run of calls.** The list shows the ring and the
pins, each record once and under its key; the bounds hold; and of a UID of an app there is at most
one live record. A removal or an update changes records of the current session only, apart from the
one that a full ring gives up, and a `set_pinned` that fails has only loaded the saved pins. -/
theorem log_stays_consistent (showContent : Bool) (capacity : Nat) (hasStore : Bool)
    (calls : List (Operation × Answers)) :
    let l := Machine.run step (start showContent capacity hasStore) calls
    (l.order.Nodup ∧ (l.order.filterMap l.shown).map (fun line => line.record.key) = l.order ∧
      (∀ k, k ∈ l.order ↔ k ∈ l.ring ∨ k ∈ l.pinned) ∧
      ∀ k, k ∈ l.entries.keys ↔ k ∈ l.ring ∨ k ∈ l.pinned) ∧
    (l.ring.Nodup ∧ l.pinned.Nodup) ∧ (∀ k, k ∈ l.sessions.keys ↔ k ∈ l.entries.keys) ∧
    l.ring.length ≤ max 1 capacity ∧ l.pinned.length ≤ MAX_PINNED_NOTIFICATIONS ∧ l.Alone ∧
    (∀ id saving k, ¬ l.Same (l.markRemoved id saving) k →
      ∃ r, l.entries.get? k = some r ∧ l.sessions.get? k = some (some l.session) ∧ r.id = id) ∧
    (∀ e a l', l.handleAncs e a = some l' →
      l' = l ∨ ∃ l₁ draws, l.ensurePinsLoaded a.loading a.draws = some (l₁, draws) ∧
        ∀ k r, l₁.entries.get? k = some r → ¬ l₁.Same l' k →
          (l₁.sessions.get? k = some (some l₁.session) ∧ r.id = e.notificationId ∧
            r.appId = bounded e.appId) ∨ l₁.Evicted k) ∧
    (∀ key pinned a l' error, l.setPinned key pinned a = some (l', .error error) →
      ∃ l₁ draws, l.ensurePinsLoaded a.loading a.draws = some (l₁, draws) ∧
        (l.pinsLoaded = true → l₁ = l) ∧ l'.entries = l₁.entries ∧ l'.ring = l₁.ring ∧
        l'.pinned = l₁.pinned ∧ l'.sessions = l₁.sessions) := by
  intro l
  have h : Sound (max 1 capacity) l := sound_run showContent capacity hasStore calls
  refine ⟨⟨h.order_nodup, h.shown_keys, fun k => mem_order, h.shape.listed⟩,
    ⟨h.shape.ring_nodup, h.pinned_nodup⟩, h.shape.same, ?_, h.pinned_le, h.shape.alone,
    fun id saving k => markRemoved_same l id saving k, fun e a l' => h.handleAncs_same, ?_⟩
  · rw [← h.capacity]
    exact h.shape.ring_le
  intro key pinned a l' error hset
  obtain ⟨l₁, draws, hload, heq⟩ := setPinned_error hset
  refine ⟨l₁, draws, hload, fun hloaded => ?_, ?_, ?_, ?_, ?_⟩
  · rw [ensurePinsLoaded_loaded hloaded] at hload
    exact (congrArg Prod.fst (Option.some.inj hload)).symm
  · rw [heq]
  · rw [heq]
  · rw [heq]
  · rw [heq]

/-- A stored pin as it is found in the settings document. -/
def savedPin : Item :=
  some (((((Dict.empty.set "key".toList (.text "k1".toList)).set "id".toList (.number 7)).set
    "app_id".toList (.text "org.example".toList)).set "app_name".toList (.text [])).set
    "time".toList (.text []))

/-- A store that has become readable. -/
def unlocked : Answers :=
  ⟨⟨true, .ok (.items [savedPin]), true, ⟨true, true⟩⟩, ⟨true, true⟩, true, []⟩

/-- A `set_pinned` of an unknown key fails, and yet the saved pin is an entry after it. -/
theorem failed_pin_loads :
    ((start true 200 true).setPinned "unknown".toList true unlocked).map
        (fun res => (res.2, res.1.entries.keys, res.1.sessions.keys, res.1.pinned))
      = some (.error .unknownKey, ["k1".toList], ["k1".toList], ["k1".toList]) ∧
    (start true 200 true).entries.keys = [] ∧ (start true 200 true).sessions.keys = [] ∧
    (start true 200 true).pinned = [] := by
  refine ⟨?_, rfl, rfl, rfl⟩
  decide +kernel

end BlueFerry.Notifications.NotificationLog
