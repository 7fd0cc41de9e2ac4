import BlueFerry.Bearers.Moves
import BlueFerry.Lib.Ledger

/-! # What is paid for

Every Connect of LE and every Disconnect of LE, but for the cancellation of an own dial, spends a
grant of the recovery budget. A reset is paid for when it is first wanted, and again after each
failure, so a pending reset that has not failed and is not under way has a grant to spend: that is
the `credit` of the invariant.
-/

namespace BlueFerry.Bearers

/-- A Connect or a Disconnect of LE, other than the cancellation of an own dial. -/
def Deed.spends : Deed → Bool
  | .connect kind _ => decide (kind = .le)
  | .disconnect target forced => decide (target = .le) && !forced
  | .budget _ => false

def Deed.grants : Deed → Bool
  | .budget (.granted _) => true
  | .budget (.sample _ _) => false
  | .connect _ _ => false
  | .disconnect _ _ => false

/-- The record of the budget. -/
def records (deeds : List Deed) : List Record :=
  deeds.filterMap fun
    | .budget record => some record
    | .connect _ _ => none
    | .disconnect _ _ => none

theorem records_cons {deed : Deed} (h : records [deed] = []) (deeds : List Deed) :
    records (deed :: deeds) = records deeds := by
  have happ : records (deed :: deeds) = records [deed] ++ records deeds := by
    rw [records, records, records, ← List.filterMap_append]
    rfl
  rw [happ, h, List.nil_append]

/-- Time passes for the budget. -/
theorem Tracks.later {budget : LeRecoveryBudget} {log : List Record} {now now' : ℚ}
    (h : Tracks budget log now) (hnow : now ≤ now') : Tracks budget log now' :=
  { h with keeps := h.keeps.later hnow, past := fun s hs => (h.past s hs).trans hnow }

structure Paid (c : Core) : Prop where
  tracks : Tracks c.budget (records c.deeds) c.now
  kept : Kept (records c.deeds)
  solvent : Ledger.Solvent Deed.spends Deed.grants c.deeds
  credit : c.resetPending = true → c.resetFailures = 0 → .le ∉ c.disconnecting →
    c.deeds.countP Deed.spends + 1 ≤ c.deeds.countP Deed.grants

namespace Paid

variable {c : Core}

theorem start (leEnabled : Bool) (now : ℚ) : Paid (World.start leEnabled now).core where
  tracks := tracks_start now
  kept := trivial
  solvent := Ledger.solvent_nil
  credit := nofun

theorem later (h : Paid c) {t : ℚ} (ht : c.now ≤ t) : Paid (c.later t) :=
  { h with tracks := h.tracks.later ht }

variable {deed : Deed} {disconnecting : Finset Kind} {failures : Nat} {pending : Bool}

theorem count_granted (c : Core) :
    (.budget (.granted c.now) :: c.deeds : List Deed).countP Deed.spends = c.deeds.countP Deed.spends ∧
      (.budget (.granted c.now) :: c.deeds : List Deed).countP Deed.grants =
        c.deeds.countP Deed.grants + 1 :=
  ⟨List.countP_cons_of_neg (by simp [Deed.spends]), List.countP_cons_of_pos rfl⟩

/-- A deed that neither spends nor earns. -/
theorem count_other (hspends : deed.spends = false) (hgrants : deed.grants = false)
    (deeds : List Deed) : (deed :: deeds).countP Deed.spends = deeds.countP Deed.spends ∧
      (deed :: deeds).countP Deed.grants = deeds.countP Deed.grants :=
  ⟨List.countP_cons_of_neg (by simp [hspends]), List.countP_cons_of_neg (by simp [hgrants])⟩

section

variable (h : Paid c)
include h

/-- A deed that costs nothing, whatever it means for the reset. -/
theorem free (hspends : deed.spends = false)
    (hgrants : deed.grants = false) (hrecord : records [deed] = [])
    (hcredit : pending = true → failures = 0 → .le ∉ disconnecting →
      c.deeds.countP Deed.spends + 1 ≤ c.deeds.countP Deed.grants) :
    Paid ((({ c with disconnecting := disconnecting } : Core).did deed).setReset pending
      failures) := by
  have hrecords := records_cons hrecord c.deeds
  obtain ⟨hs, hg⟩ := count_other hspends hgrants c.deeds
  refine ⟨?_, ?_, h.solvent.cons ?_, fun hp hf hd => ?_⟩
  · show Tracks c.budget (records (deed :: c.deeds)) c.now
    rw [hrecords]
    exact h.tracks
  · show Kept (records (deed :: c.deeds))
    rw [hrecords]
    exact h.kept
  · rw [hs, hg]
    exact h.solvent.count
  · show (deed :: c.deeds).countP Deed.spends + 1 ≤ (deed :: c.deeds).countP Deed.grants
    rw [hs, hg]
    exact hcredit hp hf hd

theorem did_free (hspends : deed.spends = false)
    (hgrants : deed.grants = false) (hrecord : records [deed] = []) : Paid (c.did deed) :=
  h.free hspends hgrants hrecord h.credit

theorem setReset (pending : Bool) (failures : Nat)
    (hcredit : pending = true → failures = 0 → .le ∉ c.disconnecting →
      c.deeds.countP Deed.spends + 1 ≤ c.deeds.countP Deed.grants) :
    Paid (c.setReset pending failures) := { h with credit := hcredit }

/-- What pays for a Disconnect is there. -/
theorem credit_of_pays (hpays : c.PaysDisconnect false) (hout : .le ∉ c.disconnecting) :
    c.deeds.countP Deed.spends + 1 ≤ c.deeds.countP Deed.grants := by
  rcases hpays with hforced | ⟨hpending, hfirst⟩ | ⟨-, t, rest, hdeeds⟩
  · cases hforced
  · exact h.credit hpending hfirst hout
  have hsolvent := h.solvent
  rw [hdeeds] at hsolvent ⊢
  have hcount := hsolvent.tail.count
  rw [List.countP_cons_of_neg (by simp [Deed.spends]), List.countP_cons_of_pos rfl]
  omega

/-- A deed that is paid for. What pays for it is used up. -/
theorem spend (hrecord : records [deed] = [])
    (hspends : deed.spends = true) (hgrants : deed.grants = false)
    (hcredit : c.deeds.countP Deed.spends + 1 ≤ c.deeds.countP Deed.grants)
    (hused : pending = true → failures = 0 → .le ∉ disconnecting →
      c.deeds.countP Deed.spends + 2 ≤ c.deeds.countP Deed.grants) :
    Paid ((({ c with disconnecting := disconnecting } : Core).did deed).setReset pending
      failures) := by
  have hrecords := records_cons hrecord c.deeds
  have hs : (deed :: c.deeds).countP Deed.spends = c.deeds.countP Deed.spends + 1 :=
    List.countP_cons_of_pos hspends
  have hg : (deed :: c.deeds).countP Deed.grants = c.deeds.countP Deed.grants :=
    List.countP_cons_of_neg (by simp [hgrants])
  refine ⟨?_, ?_, h.solvent.cons ?_, fun hp hf hd => ?_⟩
  · show Tracks c.budget (records (deed :: c.deeds)) c.now
    rw [hrecords]
    exact h.tracks
  · show Kept (records (deed :: c.deeds))
    rw [hrecords]
    exact h.kept
  · rw [hs, hg]
    exact hcredit
  show (deed :: c.deeds).countP Deed.spends + 1 ≤ (deed :: c.deeds).countP Deed.grants
  have hroom := hused hp hf hd
  rw [hs, hg]
  omega

/-- The budget grants a take. -/
theorem granted {budget : LeRecoveryBudget} (htake : c.budget.take c.now = (budget, true)) :
    Paid (({ c with budget := budget } : Core).did (.budget (.granted c.now))) ∧
      (c.deeds.countP Deed.spends + 1 ≤
        (.budget (.granted c.now) :: c.deeds : List Deed).countP Deed.grants) := by
  obtain ⟨hs, hg⟩ := count_granted c
  have hcount := h.solvent.count
  refine ⟨⟨(h.tracks.granted le_rfl htake).1, h.kept.granted h.tracks le_rfl htake,
    h.solvent.cons ?_, fun hp hf hd => ?_⟩, ?_⟩
  · omega
  · have hold := h.credit hp hf hd
    show (_ :: c.deeds).countP Deed.spends + 1 ≤ (_ :: c.deeds).countP Deed.grants
    omega
  · omega

/-- A Disconnect of LE is issued, after which nothing needs a credit. -/
theorem disconnect {force : Bool} (hpays : c.PaysDisconnect force)
    (hout : .le ∉ c.disconnecting) (hnone : pending = true → failures = 0 → .le ∈ disconnecting) :
    Paid ((({ c with disconnecting := disconnecting } : Core).did (.disconnect .le force)).setReset
      pending failures) := by
  have hvacuous : ∀ n, pending = true → failures = 0 → .le ∉ disconnecting →
      c.deeds.countP Deed.spends + n ≤ c.deeds.countP Deed.grants :=
    fun n hp hf hd => absurd (hnone hp hf) hd
  cases force with
  | true =>
    exact h.free rfl rfl rfl (hvacuous 1)
  | false =>
    exact h.spend rfl rfl rfl (h.credit_of_pays hpays hout) (hvacuous 2)

/-- A Connect of LE takes a grant and spends it. -/
theorem issueLe {budget : LeRecoveryBudget} {m : Meanwhile}
    (htake : c.budget.take c.now = (budget, true)) :
    Paid ((({ c with budget := budget } : Core).did (.budget (.granted c.now))).did
      (.connect .le m)) := by
  obtain ⟨hgranted, hroom⟩ := h.granted htake
  obtain ⟨hs, hg⟩ := count_granted c
  refine hgranted.spend rfl rfl rfl ?_ (fun hp hf hd => ?_)
  · show (_ :: c.deeds).countP Deed.spends + 1 ≤ (_ :: c.deeds).countP Deed.grants
    omega
  · have hold := h.credit hp hf hd
    show (_ :: c.deeds).countP Deed.spends + 2 ≤ (_ :: c.deeds).countP Deed.grants
    omega

/-- The budget is shown a sample of health. -/
theorem sampled (healthy : Bool) (proof : Option ℚ) :
    Paid (({ c with budget := c.budget.observeHealth healthy proof c.now } : Core).did
      (.budget (.sample c.now (LeRecoveryBudget.fresh healthy proof c.now)))) := by
  generalize hsample : Deed.budget (.sample c.now (LeRecoveryBudget.fresh healthy proof c.now)) =
    sample
  obtain ⟨hs, hg⟩ : (sample :: c.deeds).countP Deed.spends = c.deeds.countP Deed.spends ∧
      (sample :: c.deeds).countP Deed.grants = c.deeds.countP Deed.grants := by
    rw [← hsample]
    exact count_other rfl rfl c.deeds
  subst hsample
  refine ⟨h.tracks.sampled le_rfl healthy proof, h.kept.sampled h.tracks le_rfl healthy proof,
    h.solvent.cons ?_, fun hp hf hd => ?_⟩
  · rw [hs, hg]
    exact h.solvent.count
  · have hold := h.credit hp hf hd
    show (_ :: c.deeds).countP Deed.spends + 1 ≤ (_ :: c.deeds).countP Deed.grants
    omega

end

theorem absurd_ended (h : pending = false ∨ failures ≠ 0)
    (hp : pending = true) (hf : failures = 0) : False := by
  rcases h with hnot | hsome
  · rw [hp] at hnot
    cases hnot
  · exact hsome hf

theorem moves {c' : Core} (hmoves : Moves c c') : Paid c → Paid c' := by
  induction hmoves with
  | refl => exact id
  | trans _ _ ih ih' => exact fun h => ih' (ih h)
  | wait ht => exact fun h => h.later ht
  | sampled c healthy proof => exact fun h => h.sampled healthy proof
  | refused htake =>
    exact fun h => { h with tracks := h.tracks.refused le_rfl htake }
  | granted htake => exact fun h => (h.granted htake).1
  | pendReset htake =>
    exact fun h => (h.granted htake).1.setReset true _ (fun _ _ _ => (h.granted htake).2)
  | issueClassic hopen => exact fun h => h.did_free rfl rfl rfl
  | issueLe hopen htake ht => exact fun h => (h.issueLe htake).later ht
  | request hidle _ hsettled ih | answered hn _ hsettled ih => exact fun h => ih { h with }
  | @sentLeDisconnect c force hpays hout =>
    intro h
    have hsent : Paid ((({ c with disconnecting := insert .le c.disconnecting } : Core).did
        (.disconnect .le force)).setReset c.resetPending c.resetFailures) :=
      h.disconnect hpays hout (fun _ _ => Finset.mem_insert_self _ _)
    exact { hsent with }
  | raisedLeDisconnect hpays hout pending failures hend =>
    exact fun h => h.disconnect hpays hout (fun hp hf => (absurd_ended hend hp hf).elim)
  | endedLeDisconnect hn pending failures hend =>
    exact fun h =>
      { h with credit := fun hp hf => (absurd_ended hend hp hf).elim }
  | completed c => exact fun h => h.setReset false 0 (fun hp => by cases hp)
  | @sentDeviceDisconnect c hnone | @raisedDeviceDisconnect c hnone phase _ =>
    intro h
    have hsent : Paid (c.did (.disconnect .device false)) := h.did_free rfl rfl rfl
    exact { hsent with }
  | sent c kind id | ended c kind | deadline c kind t | dropped hn hnot
    | endedDeviceDisconnect hn phase _ | settled hphase => exact fun h => { h with }
  | renewed c failures => exact fun h => { h with credit := fun hp => by cases hp }

end Paid

/-! ## Every run -/

/-- The clock does not go back. -/
def ClockForward (w : World) (i : Input × Reading) : Prop := w.now ≤ i.2.now

instance (w : World) (i : Input × Reading) : Decidable (ClockForward w i) :=
  inferInstanceAs (Decidable (_ ≤ _))

theorem paid_run {leEnabled : Bool} {now : ℚ} {inputs : List (Input × Reading)}
    (hclock : Machine.Along step ClockForward (.start leEnabled now) inputs) :
    Paid (World.after leEnabled now inputs).core :=
  Machine.invariant step (P := fun w => Paid w.core)
    (fun w i hnow h => (h.later hnow).moves (moves_step w i)) hclock (Paid.start leEnabled now)

theorem not_grants_of_spends (deed : Deed) (h : deed.spends = true) : deed.grants = false := by
  cases deed with
  | connect kind m => rfl
  | disconnect target forced => rfl
  | budget record => cases h

/-- **What is asked of LE is paid for, and the budget is small.** Every Connect and every reset of
LE has a grant of its own from before it; more than four grants in ten minutes are on both sides of
three minutes of health; and without such a rest, the grant after the n-th keeps its distance. -/
theorem le_is_paid_for (leEnabled : Bool) (now : ℚ) (inputs : List (Input × Reading))
    (hclock : Machine.Along step ClockForward (.start leEnabled now) inputs) :
    let deeds := (World.after leEnabled now inputs).deeds
    (∃ pays, Ledger.Pays Deed.spends Deed.grants pays deeds) ∧
      (∀ t, 4 < Window.count 600 (grants (records deeds)) t →
        ∃ later earlier, records deeds = later ++ earlier ∧ Rested earlier ∧
          0 < Window.count 600 (grants later) t ∧ 0 < Window.count 600 (grants earlier) t) ∧
      ∀ newer mid older t t',
        records deeds = newer ++ .granted t' :: mid ++ .granted t :: older → grants mid = [] →
        (∀ a b, mid = a ++ b → ¬ Rested b) →
        t + spacing (Window.count 600 (grantsSince (.granted t :: older)) t) ≤ t' := by
  intro deeds
  have h : Paid (World.after leEnabled now inputs).core := paid_run hclock
  refine ⟨h.solvent.exists_payment not_grants_of_spends, fun t hmany => ?_, ?_⟩
  · have hkept : Kept ([] ++ records deeds ++ []) := by
      rw [List.nil_append, List.append_nil]
      exact h.kept
    exact hkept.rests hmany
  intro newer mid older t t' hsplit hmid hquiet
  have hkept : Kept (newer ++ .granted t' :: mid ++ .granted t :: older) := by
    rw [← hsplit]
    exact h.kept
  exact hkept.spaced hmid hquiet

/-- Classic is connected and LE is not, so that LE is dialled after a while. -/
def dialled : List (Input × Reading) :=
  [(.start, ⟨100, {}, fun n => { reply := .property (n = 0) }⟩),
    (.fired 0, ⟨103, {}, fun n => { reply := .property (n = 0) }⟩)]

theorem dialled_is_paid_for :
    (World.after true 0 dialled).deeds.countP Deed.spends = 1 ∧
      ∃ pays, Ledger.Pays Deed.spends Deed.grants pays (World.after true 0 dialled).deeds :=
  ⟨by decide +kernel, (le_is_paid_for true 0 dialled (by decide +kernel)).1⟩

end BlueFerry.Bearers
