import BlueFerry.Bearers.Moves

/-! # At most one thing at a time

What the supervisor takes to be under way is under way: the invariant `Orderly`, kept by every move.
While the answer to a Connect is being handled, its request is `spared`: it is not unanswered any
more, and what becomes of it is not noted yet.
-/

namespace BlueFerry.Bearers

/-- The generation a request belongs to. -/
def Request.generation : Request → Nat
  | .connect _ generation _ => generation
  | .disconnect _ generation => generation

/-- Nothing stands in the way of a Connect. -/
structure Meanwhile.Clear (m : Meanwhile) : Prop where
  blocked : m.blocked = false
  busy : m.busy = false
  resetting : m.resetting = false
  own : m.ownUnanswered = false

structure Orderly (spared : Kind → Nat → Nat → Prop) (c : Core) : Prop where
  alone : ∀ kind ∈ c.connecting, ∀ other ∈ c.connecting, kind = other
  dial : c.dial = true ↔ .le ∈ c.connecting
  known : ∀ kind ∈ c.connecting, ∃ id, c.ids kind = some id ∧
    (spared kind c.generation id ∨ (c.deadlines kind).isSome ∨ c.Waits kind id)
  past : ∀ n r, c.requests.Holds n r → r.generation ≤ c.generation
  leOut : ∀ n, c.requests.Holds n (.disconnect .le c.generation) → .le ∈ c.disconnecting
  deviceOut : ∀ n, c.requests.Holds n (.disconnect .device c.generation) →
    c.phase = some .disconnecting
  once : ∀ target n m, c.requests.Holds n (.disconnect target c.generation) →
    c.requests.Holds m (.disconnect target c.generation) → n = m
  clear : ∀ kind m, .connect kind m ∈ c.deeds → m.Clear

namespace Orderly

variable {spared : Kind → Nat → Nat → Prop} {c : Core}

theorem start (leEnabled : Bool) (now : ℚ) : Orderly spared (World.start leEnabled now).core where
  alone := fun kind hkind => absurd hkind (Finset.notMem_empty kind)
  dial := ⟨nofun, fun h => absurd h (Finset.notMem_empty _)⟩
  known := fun kind hkind => absurd hkind (Finset.notMem_empty kind)
  past := fun n r h => absurd h (Slots.not_holds_empty n r)
  leOut := fun n h => absurd h (Slots.not_holds_empty n _)
  deviceOut := fun n h => absurd h (Slots.not_holds_empty n _)
  once := fun _ n _ h => absurd h (Slots.not_holds_empty n _)
  clear := fun _ _ h => absurd h List.not_mem_nil

/-- Nothing of the invariant is about the budget or the time. -/
theorem later (h : Orderly spared c) (t : ℚ) : Orderly spared (c.later t) := { h with }

theorem budget (h : Orderly spared c) (budget : LeRecoveryBudget) :
    Orderly spared { c with budget := budget } :=
  { h with }

theorem setReset (h : Orderly spared c) (pending : Bool) (failures : Nat) :
    Orderly spared (c.setReset pending failures) :=
  { h with }

theorem did (h : Orderly spared c) {deed : Deed}
    (hdeed : ∀ kind m, deed = .connect kind m → m.Clear) : Orderly spared (c.did deed) := by
  refine { h with clear := fun kind m hm => ?_ }
  rcases List.mem_cons.mp hm with hnew | hold
  · exact hdeed kind m hnew.symm
  · exact h.clear kind m hold

/-- A Connect is issued in the open. -/
theorem clear_of_open (h : Orderly spared c) {m : Meanwhile} (hopen : c.Open m) : m.Clear := by
  refine { hopen with own := ?_ }
  cases hown : m.ownUnanswered with
  | false => rfl
  | true =>
    exfalso
    obtain ⟨n, target, hn⟩ := hopen.own hown
    cases target with
    | le =>
      have hmem := h.leOut n hn
      rw [hopen.disconnecting] at hmem
      exact Finset.notMem_empty _ hmem
    | device =>
      have hphase := h.deviceOut n hn
      rw [hopen.phase] at hphase
      cases hphase

variable {kind : Kind} {n : Nat} {target : Target}

/-- A new request begins alone. -/
theorem begin (h : Orderly spared c) (hidle : c.connecting = ∅) :
    Orderly (fun k g id => spared k g id ∨ k = kind ∧ g = c.generation ∧ id = c.serial + 1)
      (c.begin kind) := by
  have honly : (c.begin kind).connecting = {kind} := by
    simp [Core.begin, hidle]
  have hdial : c.dial = false := by
    cases hd : c.dial with
    | false => rfl
    | true =>
      have hmem := h.dial.mp hd
      rw [hidle] at hmem
      exact absurd hmem (Finset.notMem_empty _)
  refine { h with alone := ?_, dial := ?_, known := ?_ }
  · rw [honly]
    intro k hk other hother
    rw [Finset.mem_singleton.mp hk, Finset.mem_singleton.mp hother]
  · rw [honly, Finset.mem_singleton]
    cases kind with
    | bredr => simp [Core.begin, hdial]
    | le => simp [Core.begin]
  rw [honly]
  intro k hk
  rw [Finset.mem_singleton.mp hk]
  exact ⟨c.serial + 1, by simp [Core.begin], .inl (.inr ⟨rfl, rfl, rfl⟩)⟩

/-- A request that is settled needs not be spared. -/
theorem unspare {generation id : Nat}
    (h : Orderly (fun k g i => spared k g i ∨ k = kind ∧ g = generation ∧ i = id) c)
    (hsettled : c.Settled kind generation id) : Orderly spared c := by
  refine { h with known := ?_ }
  intro k hk
  obtain ⟨i, hi, hspared | hrest⟩ := h.known k hk
  · rcases hspared with hspared | ⟨rfl, hgen, rfl⟩
    · exact ⟨i, hi, .inl hspared⟩
    · exact ⟨i, hi, .inr (hsettled hgen.symm hi)⟩
  · exact ⟨i, hi, .inr hrest⟩

/-- More requests are out. -/
theorem waits_send {id : Nat} (h : c.Waits kind id) (r : Request) : (c.send r).Waits kind id := by
  obtain ⟨n, hn⟩ := h
  exact ⟨n, Slots.holds_put.mpr (.inr hn)⟩

section

variable (h : Orderly spared c)
include h

/-- A request is sent. A Disconnect is sent while no other one of its kind is out, and it is
noted. -/
theorem send {r : Request} (hgeneration : r.generation ≤ c.generation)
    (hdisconnect : ∀ target, r = .disconnect target c.generation →
      (∀ n, ¬ c.requests.Holds n (.disconnect target c.generation)) ∧
        (target = .le → .le ∈ c.disconnecting) ∧
          (target = .device → c.phase = some .disconnecting)) : Orderly spared (c.send r) := by
  refine ⟨h.alone, h.dial, ?_, ?_, ?_, ?_, ?_, h.clear⟩
  · intro k hk
    obtain ⟨i, hi, hspared | hdeadline | hwaits⟩ := h.known k hk
    · exact ⟨i, hi, .inl hspared⟩
    · exact ⟨i, hi, .inr (.inl hdeadline)⟩
    · exact ⟨i, hi, .inr (.inr (waits_send hwaits _))⟩
  · intro n r hn
    rcases Slots.holds_put.mp hn with ⟨-, rfl⟩ | hold
    · exact hgeneration
    · exact h.past n r hold
  · intro n hn
    rcases Slots.holds_put.mp hn with ⟨-, hnew⟩ | hold
    · exact (hdisconnect _ hnew.symm).2.1 rfl
    · exact h.leOut n hold
  · intro n hn
    rcases Slots.holds_put.mp hn with ⟨-, hnew⟩ | hold
    · exact (hdisconnect _ hnew.symm).2.2 rfl
    · exact h.deviceOut n hold
  intro target n m hn hm
  rcases Slots.holds_put.mp hn with ⟨hn', hnew⟩ | hold
  · rcases Slots.holds_put.mp hm with ⟨hm', -⟩ | hold'
    · exact hn'.trans hm'.symm
    · exact absurd hold' ((hdisconnect _ hnew.symm).1 m)
  · rcases Slots.holds_put.mp hm with ⟨-, hnew⟩ | hold'
    · exact absurd hold ((hdisconnect _ hnew.symm).1 n)
    · exact h.once target n m hold hold'

theorem send_connect (kind : Kind) (id : Nat) :
    Orderly spared (c.send (.connect kind c.generation id)) := h.send le_rfl nofun

theorem endConnect (kind : Kind) : Orderly spared (c.endConnect kind) := by
  refine { h with alone := ?_, dial := ?_, known := ?_ }
  · intro k hk other hother
    exact h.alone k (Finset.mem_of_mem_erase hk) other (Finset.mem_of_mem_erase hother)
  · cases kind with
    | bredr =>
      have hiff := h.dial
      simp [Core.endConnect, hiff]
    | le => simp [Core.endConnect]
  intro k hk
  have hne : k ≠ kind := Finset.ne_of_mem_erase hk
  obtain ⟨i, hi, hrest⟩ := h.known k (Finset.mem_of_mem_erase hk)
  refine ⟨i, by simpa [Core.endConnect, hne] using hi, ?_⟩
  rcases hrest with hspared | hdeadline | hwaits
  · exact .inl hspared
  · exact .inr (.inl (by simpa [Core.endConnect, hne] using hdeadline))
  · exact .inr (.inr hwaits)

theorem deadline (kind : Kind) (t : ℚ) :
    Orderly spared { c with deadlines := Function.update c.deadlines kind (some t) } := by
  refine { h with known := ?_ }
  intro k hk
  obtain ⟨i, hi, hrest⟩ := h.known k hk
  refine ⟨i, hi, ?_⟩
  rcases hrest with hspared | hdeadline | hwaits
  · exact .inl hspared
  · refine .inr (.inl ?_)
    by_cases hkind : k = kind
    · simp [hkind]
    · simpa [hkind] using hdeadline
  · exact .inr (.inr hwaits)

/-- Fewer requests are out, and the Connect that is answered is spared. -/
theorem answer {spared' : Kind → Nat → Nat → Prop}
    (hspared : ∀ k g id, spared k g id → spared' k g id)
    (hanswered : ∀ k id, k ∈ c.connecting → c.ids k = some id →
      c.requests.Holds n (.connect k c.generation id) → spared' k c.generation id) :
    Orderly spared' (c.answer n) := by
  refine ⟨h.alone, h.dial, ?_, ?_, ?_, ?_, ?_, h.clear⟩
  · intro k hk
    obtain ⟨i, hi, hs | hdeadline | ⟨m, hm⟩⟩ := h.known k hk
    · exact ⟨i, hi, .inl (hspared k _ i hs)⟩
    · exact ⟨i, hi, .inr (.inl hdeadline)⟩
    by_cases hnm : m = n
    · subst hnm
      exact ⟨i, hi, .inl (hanswered k i hk hi hm)⟩
    · exact ⟨i, hi, .inr (.inr ⟨m, Slots.holds_take.mpr ⟨hnm, hm⟩⟩)⟩
  · exact fun m r hm => h.past m r (Slots.holds_take.mp hm).2
  · exact fun m hm => h.leOut m (Slots.holds_take.mp hm).2
  · exact fun m hm => h.deviceOut m (Slots.holds_take.mp hm).2
  · exact fun target m m' hm hm' =>
      h.once target m m' (Slots.holds_take.mp hm).2 (Slots.holds_take.mp hm').2

theorem send_disconnect (hnone : ∀ n, ¬ c.requests.Holds n (.disconnect target c.generation))
    (hle : target = .le → .le ∈ c.disconnecting)
    (hdevice : target = .device → c.phase = some .disconnecting) :
    Orderly spared (c.send (.disconnect target c.generation)) := by
  refine h.send le_rfl (fun other hother => ?_)
  obtain rfl := (Request.disconnect.inj hother).1
  exact ⟨hnone, hle, hdevice⟩

theorem renewed (failures : Nat) : Orderly spared (c.renewed failures) where
  alone := fun kind hkind => absurd hkind (Finset.notMem_empty kind)
  dial := ⟨nofun, fun hmem => absurd hmem (Finset.notMem_empty _)⟩
  known := fun kind hkind => absurd hkind (Finset.notMem_empty kind)
  past := fun n r hn => (h.past n r hn).trans (Nat.le_succ _)
  leOut := fun n hn => absurd (h.past n _ hn) (by simp [Request.generation, Core.renewed])
  deviceOut := fun n hn => absurd (h.past n _ hn) (by simp [Request.generation, Core.renewed])
  once := fun _ n _ hn => absurd (h.past n _ hn) (by simp [Request.generation, Core.renewed])
  clear := h.clear

/-- A Disconnect of LE begins, and what one that is over leaves. -/
theorem beginDisconnect (hnone : ∀ n, ¬ c.requests.Holds n (.disconnect .le c.generation)) :
    Orderly spared { c with disconnecting := insert .le c.disconnecting } :=
  { h with leOut := fun n hn => absurd hn (hnone n) }

theorem endDisconnect (hnone : ∀ n, ¬ c.requests.Holds n (.disconnect .le c.generation)) :
    Orderly spared c.endDisconnect :=
  { h with leOut := fun n hn => absurd hn (hnone n) }

theorem setPhase {phase : Option Phase}
    (hnone : ∀ n, ¬ c.requests.Holds n (.disconnect .device c.generation)) :
    Orderly spared (c.setPhase phase) :=
  { h with deviceOut := fun n hn => absurd hn (hnone n) }

/-- Once it is answered, no other Disconnect of its kind is out. -/
theorem none_after_answer (hn : c.requests.Holds n (.disconnect target c.generation)) (m : Nat) :
    ¬ (c.answer n).requests.Holds m (.disconnect target (c.answer n).generation) := by
  intro hm
  obtain ⟨hne, hold⟩ := Slots.holds_take.mp hm
  exact hne (h.once target m n hold hn)

/-- The answer to a Disconnect. -/
theorem answer_disconnect {generation : Nat}
    (hn : c.requests.Holds n (.disconnect target generation)) : Orderly spared (c.answer n) := by
  refine h.answer (fun _ _ _ hs => hs) (fun k id _ _ hconnect => ?_)
  cases hn.unique hconnect

/-- No Disconnect of the device is out in another phase. -/
theorem no_device (hphase : c.phase ≠ some .disconnecting) (n : Nat) :
    ¬ c.requests.Holds n (.disconnect .device c.generation) :=
  fun hn => hphase (h.deviceOut n hn)

theorem did_other {deed : Deed} (hdeed : ∀ kind m, deed ≠ .connect kind m) :
    Orderly spared (c.did deed) :=
  h.did fun kind m hd => absurd hd (hdeed kind m)

end

theorem moves {c' : Core} (hmoves : Moves c c') :
    ∀ {spared : Kind → Nat → Nat → Prop}, Orderly spared c → Orderly spared c' := by
  induction hmoves with
  | refl => exact id
  | trans _ _ ih ih' => exact fun h => ih' (ih h)
  | wait _ => exact fun h => h.later _
  | sampled c healthy proof =>
    exact fun h => (h.budget _).did_other (fun _ _ hd => by cases hd)
  | refused _ => exact fun h => h.budget _
  | granted _ => exact fun h => (h.budget _).did_other (fun _ _ hd => by cases hd)
  | pendReset _ =>
    exact fun h => ((h.budget _).did_other (fun _ _ hd => by cases hd)).setReset true _
  | request hidle _ hsettled ih => exact fun h => (ih (h.begin hidle)).unspare hsettled
  | issueClassic hopen =>
    intro spared h
    refine h.did fun kind m hd => ?_
    cases hd
    exact h.clear_of_open hopen
  | issueLe hopen _ _ =>
    intro spared h
    refine (((h.budget _).did_other ?_).did ?_).later _
    · exact fun kind m hd => by cases hd
    · intro kind m hd
      cases hd
      exact h.clear_of_open hopen
  | sent c kind id => exact fun h => h.send_connect kind id
  | ended c kind => exact fun h => h.endConnect kind
  | deadline c kind t => exact fun h => h.deadline kind t
  | answered hn _ hsettled ih =>
    intro spared h
    refine (ih (h.answer (fun _ _ _ hs => .inl hs) ?_)).unspare hsettled
    intro k id _ _ hconnect
    cases hn.unique hconnect
    exact .inr ⟨rfl, rfl, rfl⟩
  | dropped hn hnot =>
    intro spared h
    refine h.answer (fun _ _ _ hs => hs) (fun k id _ hid hconnect => ?_)
    exact absurd hid (hnot k id (hn.unique hconnect))
  | sentLeDisconnect _ hout =>
    intro spared h
    have hnone := fun n hn => hout (h.leOut n hn)
    refine ((h.beginDisconnect hnone).did_other ?_).send_disconnect hnone
      (fun _ => Finset.mem_insert_self _ _) (fun hd => by cases hd)
    exact fun kind m hd => by cases hd
  | raisedLeDisconnect _ _ pending failures _ =>
    exact fun h => (h.did_other (fun _ _ hd => by cases hd)).setReset pending failures
  | endedLeDisconnect hn pending failures _ =>
    exact fun h =>
      ((h.answer_disconnect hn).endDisconnect (h.none_after_answer hn)).setReset pending failures
  | completed c => exact fun h => h.setReset false 0
  | sentDeviceDisconnect hnone =>
    intro spared h
    have hout := h.no_device (by rw [hnone]; simp)
    refine ((h.setPhase hout).did_other ?_).send_disconnect hout (fun hd => by cases hd)
      (fun _ => rfl)
    exact fun kind m hd => by cases hd
  | raisedDeviceDisconnect hnone phase _ =>
    exact fun h =>
      (h.setPhase (h.no_device (by rw [hnone]; simp))).did_other (fun _ _ hd => by cases hd)
  | endedDeviceDisconnect hn phase _ =>
    exact fun h => (h.answer_disconnect hn).setPhase (h.none_after_answer hn)
  | settled hphase => exact fun h => h.setPhase (h.no_device (by rw [hphase]; simp))
  | renewed c failures => exact fun h => h.renewed failures

end Orderly

end BlueFerry.Bearers
