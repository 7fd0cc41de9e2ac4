import BlueFerry.Notifications.Log

/-! # What every call of the notification log keeps

`Shape P l` says how the containers of a log agree: the keys of the records are those of the ring
and the further ones that `P` admits. Between two calls these are the pins (`Sound`); inside a call
they are for a while the pins already loaded, or the pins and the record that is about to be
listed. Each small change of a log has a lemma, and the calls are put together from them.
-/

namespace BlueFerry.Notifications.NotificationLog

open BlueFerry.Text

/-- At most one live record for a UID and an app. -/
def Alone (l : NotificationLog) : Prop :=
  ∀ k k' r r', l.entries.get? k = some r → l.entries.get? k' = some r' →
    l.liveRecord k r = true → l.liveRecord k' r' = true → r.id = r'.id → r.appId = r'.appId → k = k'

structure Shape (P : Str → Prop) (l : NotificationLog) : Prop where
  room : 1 ≤ l.capacity
  listed : ∀ k, k ∈ l.entries.keys ↔ k ∈ l.ring ∨ P k
  same : ∀ k, k ∈ l.sessions.keys ↔ k ∈ l.entries.keys
  ring_nodup : l.ring.Nodup
  ring_le : l.ring.length ≤ l.capacity
  keyed : ∀ k r, l.entries.get? k = some r → r.key = k
  alone : l.Alone
  past : ∀ k n, l.sessions.get? k = some (some n) → n ≤ l.session

/-- The state of a log with room for `c` records, between two calls. -/
structure Sound (c : Nat) (l : NotificationLog) : Prop where
  capacity : l.capacity = c
  shape : Shape (fun k => k ∈ l.pinned) l
  pinned_nodup : l.pinned.Nodup
  pinned_le : l.pinned.length ≤ MAX_PINNED_NOTIFICATIONS
  unloaded : l.pinsLoaded = false → l.pinned = []

theorem liveRecord_iff {l : NotificationLog} {k : Str} {r : Record} :
    l.liveRecord k r = true ↔ l.sessions.get? k = some (some l.session) ∧ r.removed = false := by
  simp [liveRecord]

/-- Where every live record is one of before, there are no two of a kind. -/
theorem Alone.of_before {l l' : NotificationLog} (h : l.Alone)
    (hbefore : ∀ k r, l'.entries.get? k = some r → l'.liveRecord k r = true →
      l.entries.get? k = some r ∧ l.liveRecord k r = true) : l'.Alone := by
  intro k k' r r' hr hr' hlive hlive' hid happ
  obtain ⟨hr, hlive⟩ := hbefore k r hr hlive
  obtain ⟨hr', hlive'⟩ := hbefore k' r' hr' hlive'
  exact h k k' r r' hr hr' hlive hlive' hid happ

namespace Shape

variable {P Q : Str → Prop} {l : NotificationLog}

theorem congr (h : Shape P l) (hpq : ∀ k, k ∈ l.ring ∨ P k ↔ k ∈ l.ring ∨ Q k) : Shape Q l :=
  ⟨h.room, fun k => (h.listed k).trans (hpq k), h.same, h.ring_nodup, h.ring_le, h.keyed, h.alone,
    h.past⟩

/-- A record is there for every key of the ring. -/
theorem of_ring (h : Shape P l) {k : Str} (hk : k ∈ l.ring) : k ∈ l.entries.keys :=
  (h.listed k).mpr (Or.inl hk)

/-! ## Small changes -/

/-- A record is left out of the ring, and listed otherwise. -/
theorem unring (h : Shape P l) {key : Str} (hkey : key ∈ l.entries.keys) :
    Shape (fun k => k = key ∨ P k) { l with ring := l.ring.erase key } where
  room := h.room
  listed := by
    intro k
    rw [show k ∈ l.entries.keys ↔ _ from h.listed k, h.ring_nodup.mem_erase_iff]
    by_cases hk : k = key
    · rw [hk]
      exact iff_of_true ((h.listed key).mp hkey) (Or.inr (Or.inl rfl))
    · simp [hk]
  same := h.same
  ring_nodup := h.ring_nodup.erase key
  ring_le := le_trans List.length_erase_le h.ring_le
  keyed := h.keyed
  alone := h.alone
  past := h.past

/-- A record is put under its key, live, when there is no other live one of its kind. -/
theorem put (h : Shape P l) (record : Record)
    (hother : ∀ k r, l.entries.get? k = some r → l.liveRecord k r = true → r.id = record.id →
      r.appId = record.appId → k = record.key) :
    Shape (fun k => k = record.key ∨ P k) { l with
      entries := l.entries.set record.key record
      sessions := l.sessions.set record.key (some l.session) } where
  room := h.room
  listed := by
    intro k
    rw [show k ∈ (l.entries.set record.key record).keys ↔ _ from Dict.mem_keys_set, h.listed k]
    tauto
  same := by
    intro k
    rw [show k ∈ (l.sessions.set record.key _).keys ↔ _ from Dict.mem_keys_set, h.same k]
    exact Dict.mem_keys_set.symm
  ring_nodup := h.ring_nodup
  ring_le := h.ring_le
  keyed := by
    intro k r hr
    rw [Dict.get?_set] at hr
    by_cases hk : k = record.key
    · rw [if_pos hk] at hr
      rw [← Option.some.inj hr, hk]
    rw [if_neg hk] at hr
    exact h.keyed k r hr
  alone := by
    -- a live record under another key is one of before
    have hbefore : ∀ k r, k ≠ record.key → (l.entries.set record.key record).get? k = some r →
        liveRecord { l with
          entries := l.entries.set record.key record
          sessions := l.sessions.set record.key (some l.session) } k r = true →
        l.entries.get? k = some r ∧ l.liveRecord k r = true := by
      intro k r hk hr hlive
      rw [Dict.get?_set, if_neg hk] at hr
      rw [liveRecord_iff] at hlive
      have hsession := hlive.1
      rw [Dict.get?_set, if_neg hk] at hsession
      exact ⟨hr, liveRecord_iff.mpr ⟨hsession, hlive.2⟩⟩
    have hself : ∀ k r, k = record.key → (l.entries.set record.key record).get? k = some r →
        r = record := by
      intro k r hk hr
      rw [Dict.get?_set, if_pos hk] at hr
      exact (Option.some.inj hr).symm
    intro k k' r r' hr hr' hlive hlive' hid happ
    by_cases hk : k = record.key
    · by_cases hk' : k' = record.key
      · rw [hk, hk']
      obtain ⟨hr', hlive'⟩ := hbefore k' r' hk' hr' hlive'
      rw [hself k r hk hr] at hid happ
      exact absurd (hother k' r' hr' hlive' hid.symm happ.symm) hk'
    obtain ⟨hr, hlive⟩ := hbefore k r hk hr hlive
    by_cases hk' : k' = record.key
    · rw [hself k' r' hk' hr'] at hid happ
      exact absurd (hother k r hr hlive hid happ) hk
    obtain ⟨hr', hlive'⟩ := hbefore k' r' hk' hr' hlive'
    exact h.alone k k' r r' hr hr' hlive hlive' hid happ
  past := by
    intro k n hn
    rw [Dict.get?_set] at hn
    by_cases hk : k = record.key
    · rw [if_pos hk] at hn
      exact le_of_eq (Option.some.inj (Option.some.inj hn)).symm
    rw [if_neg hk] at hn
    exact h.past k n hn

/-- A record that nothing lists any more is dropped. -/
theorem dropped (h : Shape P l) {key : Str} (hring : key ∉ l.ring) :
    Shape (fun k => k ≠ key ∧ P k) (l.drop key) where
  room := h.room
  listed := by
    intro k
    rw [show k ∈ (l.drop key).entries.keys ↔ _ from Dict.mem_keys_erase, h.listed k]
    show _ ↔ k ∈ l.ring ∨ _
    by_cases hk : k = key
    · simp [hk, hring]
    · simp [hk]
  same := by
    intro k
    rw [show k ∈ (l.drop key).sessions.keys ↔ _ from Dict.mem_keys_erase, h.same k]
    exact Dict.mem_keys_erase.symm
  ring_nodup := h.ring_nodup
  ring_le := h.ring_le
  keyed := by
    intro k r hr
    rw [show (l.drop key).entries.get? k = _ from Dict.get?_erase _ _ _] at hr
    by_cases hk : k = key
    · simp [hk] at hr
    rw [if_neg hk] at hr
    exact h.keyed k r hr
  alone := by
    refine h.alone.of_before ?_
    intro k r hr hlive
    rw [liveRecord_iff] at hlive
    have hsession := hlive.1
    rw [show (l.drop key).entries.get? k = _ from Dict.get?_erase _ _ _] at hr
    rw [show (l.drop key).sessions.get? k = _ from Dict.get?_erase _ _ _] at hsession
    by_cases hk : k = key
    · simp [hk] at hr
    rw [if_neg hk] at hr hsession
    exact ⟨hr, liveRecord_iff.mpr ⟨hsession, hlive.2⟩⟩
  past := by
    intro k n hn
    rw [show (l.drop key).sessions.get? k = _ from Dict.get?_erase _ _ _] at hn
    by_cases hk : k = key
    · simp [hk] at hn
    rw [if_neg hk] at hn
    exact h.past k n hn

/-- The oldest of the ring leaves it. -/
theorem shift (h : Shape P l) {evicted : Str} {ring : List Str} (hring : l.ring = evicted :: ring) :
    Shape (fun k => k = evicted ∨ P k) { l with ring := ring } := by
  have hnodup := h.ring_nodup
  have hle := h.ring_le
  rw [hring, List.nodup_cons] at hnodup
  rw [hring, List.length_cons] at hle
  exact
    { room := h.room
      listed := by
        intro k
        rw [show k ∈ l.entries.keys ↔ _ from h.listed k, hring, List.mem_cons]
        tauto
      same := h.same
      ring_nodup := hnodup.2
      ring_le := by
        show ring.length ≤ l.capacity
        omega
      keyed := h.keyed
      alone := h.alone
      past := h.past }

/-- A record comes into the ring as its newest. -/
theorem append {key : Str} (h : Shape (fun k => k = key ∨ P k) l) (hkey : key ∉ l.ring)
    (hroom : l.ring.length < l.capacity) : Shape P { l with ring := l.ring ++ [key] } where
  room := h.room
  listed := by
    intro k
    rw [show k ∈ l.entries.keys ↔ _ from h.listed k, List.mem_append, List.mem_singleton, or_assoc]
  same := h.same
  ring_nodup := by
    rw [List.nodup_append]
    refine ⟨h.ring_nodup, List.nodup_singleton key, ?_⟩
    intro a ha b hb hab
    rw [hab, List.mem_singleton.mp hb] at ha
    exact hkey ha
  ring_le := by
    rw [List.length_append, List.length_singleton]
    exact hroom
  keyed := h.keyed
  alone := h.alone
  past := h.past

/-- A record becomes one of no session. -/
theorem detach (h : Shape P l) {key : Str} (hkey : key ∈ l.entries.keys) :
    Shape P { l with sessions := l.sessions.set key none } where
  room := h.room
  listed := h.listed
  same := by
    intro k
    rw [show k ∈ (l.sessions.set key none).keys ↔ _ from Dict.mem_keys_set, h.same k]
    constructor
    · rintro (hk | hk)
      · exact hk ▸ hkey
      · exact hk
    · exact Or.inr
  ring_nodup := h.ring_nodup
  ring_le := h.ring_le
  keyed := h.keyed
  alone := by
    refine h.alone.of_before ?_
    intro k r hr hlive
    rw [liveRecord_iff] at hlive
    have hsession := hlive.1
    rw [Dict.get?_set] at hsession
    by_cases hk : k = key
    · simp [hk] at hsession
    rw [if_neg hk] at hsession
    exact ⟨hr, liveRecord_iff.mpr ⟨hsession, hlive.2⟩⟩
  past := by
    intro k n hn
    rw [Dict.get?_set] at hn
    by_cases hk : k = key
    · simp [hk] at hn
    rw [if_neg hk] at hn
    exact h.past k n hn

/-- A live record gets a new key. -/
theorem rekeyed (h : Shape P l) {key fresh : Str} (hkey : ¬ P key)
    (hfresh : fresh ∉ l.entries.keys) : Shape P (l.rekey key fresh) := by
  unfold rekey
  cases hget : l.entries.get? key with
  | none => exact h
  | some record =>
    have hmem : key ∈ l.entries.keys := Dict.mem_keys_iff.mpr ⟨record, hget⟩
    have hring : key ∈ l.ring := ((h.listed key).mp hmem).resolve_right hkey
    have hnotin : fresh ∉ l.ring := fun hmem => hfresh (h.of_ring hmem)
    have hnotp : ¬ P fresh := fun hp => hfresh ((h.listed fresh).mpr (Or.inr hp))
    have hne : fresh ≠ key := fun heq => hfresh (heq ▸ hmem)
    have hentries : ∀ k, ((l.entries.erase key).set fresh { record with key := fresh }).get? k =
        if k = fresh then some { record with key := fresh }
        else if k = key then none else l.entries.get? k := by
      intro k
      rw [Dict.get?_set, Dict.get?_erase]
    have hsessions : ∀ k, ((l.sessions.erase key).set fresh
        ((l.sessions.get? key).getD none)).get? k =
        if k = fresh then some ((l.sessions.get? key).getD none)
        else if k = key then none else l.sessions.get? k := by
      intro k
      rw [Dict.get?_set, Dict.get?_erase]
    obtain ⟨session, hsession⟩ := Dict.mem_keys_iff.mp ((h.same key).mpr hmem)
    have hkeys : ∀ k, k ∈ ((l.entries.erase key).set fresh { record with key := fresh }).keys ↔
        k = fresh ∨ k ≠ key ∧ k ∈ l.entries.keys := by
      intro k
      rw [Dict.mem_keys_set, Dict.mem_keys_erase]
    exact
      { room := h.room
        listed := by
          intro k
          rw [show k ∈ _ ↔ _ from hkeys k, h.listed k, List.mem_map]
          constructor
          · rintro (rfl | ⟨hk, hk' | hk'⟩)
            · exact Or.inl ⟨key, hring, if_pos rfl⟩
            · exact Or.inl ⟨k, hk', if_neg hk⟩
            · exact Or.inr hk'
          rintro (⟨item, hitem, hk⟩ | hk)
          · by_cases heq : item = key
            · rw [if_pos heq] at hk
              exact Or.inl hk.symm
            rw [if_neg heq] at hk
            exact Or.inr ⟨hk ▸ heq, Or.inl (hk ▸ hitem)⟩
          · exact Or.inr ⟨fun heq => hkey (heq ▸ hk), Or.inr hk⟩
        same := by
          intro k
          rw [show k ∈ _ ↔ _ from hkeys k, show k ∈ _ ↔ _ from Dict.mem_keys_set,
            Dict.mem_keys_erase, h.same k]
        ring_nodup := by
          refine List.Nodup.map_on ?_ h.ring_nodup
          intro a ha b hb hab
          by_cases hak : a = key
          · by_cases hbk : b = key
            · rw [hak, hbk]
            rw [if_pos hak, if_neg hbk] at hab
            exact absurd (hab ▸ hb) hnotin
          by_cases hbk : b = key
          · rw [if_neg hak, if_pos hbk] at hab
            exact absurd (hab ▸ ha) hnotin
          · rwa [if_neg hak, if_neg hbk] at hab
        ring_le := by
          rw [List.length_map]
          exact h.ring_le
        keyed := by
          intro k r hr
          rw [hentries] at hr
          by_cases hk : k = fresh
          · rw [if_pos hk] at hr
            rw [← Option.some.inj hr, hk]
          rw [if_neg hk] at hr
          by_cases hk' : k = key
          · simp [hk'] at hr
          rw [if_neg hk'] at hr
          exact h.keyed k r hr
        alone := by
          -- the record of `fresh` is the one that was under `key`
          have hbefore : ∀ k r,
              ((l.entries.erase key).set fresh { record with key := fresh }).get? k = some r →
              ((l.sessions.erase key).set fresh ((l.sessions.get? key).getD none)).get? k
                = some (some l.session) → r.removed = false →
              k ≠ key ∧ ∃ r₀, l.entries.get? (if k = fresh then key else k) = some r₀ ∧
                l.liveRecord (if k = fresh then key else k) r₀ = true ∧ r₀.id = r.id ∧
                r₀.appId = r.appId := by
            intro k r hr hs hremoved
            rw [hentries] at hr
            rw [hsessions] at hs
            by_cases hk : k = fresh
            · rw [if_pos hk] at hr hs ⊢
              have hr := Option.some.inj hr
              rw [hsession] at hs
              refine ⟨hk ▸ hne, record, hget, liveRecord_iff.mpr ⟨?_, ?_⟩, ?_, ?_⟩
              · rw [hsession]
                exact hs
              · rw [← hremoved, ← hr]
              · rw [← hr]
              · rw [← hr]
            rw [if_neg hk] at hr hs ⊢
            by_cases hk' : k = key
            · simp [hk'] at hr
            rw [if_neg hk'] at hr hs
            exact ⟨hk', r, hr, liveRecord_iff.mpr ⟨hs, hremoved⟩, rfl, rfl⟩
          intro k k' r r' hr hr' hlive hlive' hid happ
          rw [liveRecord_iff] at hlive hlive'
          obtain ⟨hk, r₀, hr₀, hlive₀, hid₀, happ₀⟩ := hbefore k r hr hlive.1 hlive.2
          obtain ⟨hk', r₁, hr₁, hlive₁, hid₁, happ₁⟩ := hbefore k' r' hr' hlive'.1 hlive'.2
          have heq := h.alone _ _ r₀ r₁ hr₀ hr₁ hlive₀ hlive₁ (by rw [hid₀, hid₁, hid])
            (by rw [happ₀, happ₁, happ])
          by_cases hkf : k = fresh
          · by_cases hkf' : k' = fresh
            · rw [hkf, hkf']
            rw [if_pos hkf, if_neg hkf'] at heq
            exact absurd heq.symm hk'
          by_cases hkf' : k' = fresh
          · rw [if_neg hkf, if_pos hkf'] at heq
            exact absurd heq hk
          · rwa [if_neg hkf, if_neg hkf'] at heq
        past := by
          intro k n hn
          rw [hsessions] at hn
          by_cases hk : k = fresh
          · rw [if_pos hk, hsession] at hn
            exact h.past key n (by rw [hsession]; exact hn)
          rw [if_neg hk] at hn
          by_cases hk' : k = key
          · simp [hk'] at hn
          rw [if_neg hk'] at hn
          exact h.past k n hn }

end Shape

end BlueFerry.Notifications.NotificationLog
