import BlueFerry.Bearers.Supervisor

/-! # What the requests of the supervisor rest on

Most of what the supervisor keeps decides *when* it asks BlueZ for something. `Core` is the rest:
what is asked and not answered, what the supervisor takes to be under way, and what was paid for.
`Moves` are the ways in which it changes, and every step of the supervisor is made of them.

The handler of an answer still has to note what became of the request when it has taken it, and so
has a Connect that BlueZ refuses at once. So these two moves contain the moves of the handler, and
ask that the request be `Settled` in the end.
-/

namespace BlueFerry.Bearers

structure Core where
  generation : Nat
  serial : Nat
  connecting : Finset Kind
  ids : Kind → Option Nat
  deadlines : Kind → Option ℚ
  disconnecting : Finset Kind
  dial : Bool
  phase : Option Phase
  resetPending : Bool
  resetFailures : Nat
  requests : Slots Request
  budget : LeRecoveryBudget
  now : ℚ
  deeds : List Deed

def World.core (w : World) : Core where
  generation := w.supervisor.generation
  serial := w.supervisor.connectRequestSerial
  connecting := w.supervisor.connecting
  ids := w.supervisor.connectRequestIds
  deadlines := w.supervisor.connectObservationDeadlines
  disconnecting := w.supervisor.disconnecting
  dial := w.supervisor.leDialActive
  phase := w.supervisor.profileResetPhase
  resetPending := w.supervisor.leResetPending
  resetFailures := w.supervisor.leResetFailures
  requests := w.requests
  budget := w.budget
  now := w.now
  deeds := w.deeds

namespace Core

section

variable (c : Core) (kind : Kind)

/-- A new request for a bearer. -/
def begin : Core :=
  { c with
    connecting := insert kind c.connecting
    serial := c.serial + 1
    ids := Function.update c.ids kind (some (c.serial + 1))
    dial := if kind = .le then true else c.dial }

/-- The request for a bearer is over. -/
def endConnect : Core :=
  { c with
    connecting := c.connecting.erase kind
    ids := Function.update c.ids kind none
    deadlines := Function.update c.deadlines kind none
    dial := if kind = .le then false else c.dial }

/-- A Connect of the bearer is unanswered, and it is the current one. -/
def Waits (id : Nat) : Prop :=
  ∃ n, c.requests.Holds n (.connect kind c.generation id)

/-- If the request is still the current one, then it is known how it will end. -/
def Settled (generation id : Nat) : Prop :=
  generation = c.generation → c.ids kind = some id →
    (c.deadlines kind).isSome ∨ c.Waits kind id

end

/-- Everything of this generation is forgotten. -/
def renewed (c : Core) (failures : Nat) : Core :=
  { c with
    generation := c.generation + 1
    connecting := ∅
    ids := fun _ => none
    deadlines := fun _ => none
    disconnecting := ∅
    dial := false
    phase := none
    resetPending := false
    resetFailures := failures }

/-- No Disconnect is under way, and nothing else owns the connection. -/
structure Open (c : Core) (m : Meanwhile) : Prop where
  phase : c.phase = none
  disconnecting : c.disconnecting = ∅
  blocked : m.blocked = false
  busy : m.busy = false
  resetting : m.resetting = false
  own : m.ownUnanswered = true → ∃ n t, c.requests.Holds n (.disconnect t c.generation)

section

variable (c : Core)

/-- What pays for a Disconnect of LE: the grant for the pending reset, or after a failure one that
was taken for it. The cancellation of an own dial costs nothing. -/
def PaysDisconnect (force : Bool) : Prop :=
  force = true ∨ (c.resetPending = true ∧ c.resetFailures = 0) ∨
    (c.resetFailures ≠ 0 ∧ ∃ t rest, c.deeds = .budget (.granted t) :: rest)

/-- What is known of the reset of LE. -/
def setReset (pending : Bool) (failures : Nat) : Core :=
  { c with resetPending := pending, resetFailures := failures }

/-- The Disconnect of LE is over. -/
def endDisconnect : Core := { c with disconnecting := c.disconnecting.erase .le }

def setPhase (phase : Option Phase) : Core := { c with phase := phase }

def send (request : Request) : Core := { c with requests := c.requests.put request }

def did (deed : Deed) : Core := { c with deeds := deed :: c.deeds }

def answer (n : Nat) : Core := { c with requests := c.requests.take n }

/-- Time passes. -/
def later (t : ℚ) : Core := { c with now := t }

end

end Core

inductive Moves : Core → Core → Prop
  | refl (c : Core) : Moves c c
  | trans {a b c : Core} (h : Moves a b) (h' : Moves b c) : Moves a c
  | wait {c : Core} {t : ℚ} (h : c.now ≤ t) : Moves c (c.later t)
  | sampled (c : Core) (healthy : Bool) (proof : Option ℚ) :
      Moves c
        (({ c with budget := c.budget.observeHealth healthy proof c.now } : Core).did
          (.budget (.sample c.now (LeRecoveryBudget.fresh healthy proof c.now))))
  | refused {c : Core} {budget : LeRecoveryBudget} (h : c.budget.take c.now = (budget, false)) :
      Moves c { c with budget := budget }
  | granted {c : Core} {budget : LeRecoveryBudget} (h : c.budget.take c.now = (budget, true)) :
      Moves c (({ c with budget := budget } : Core).did (.budget (.granted c.now)))
  /-- a grant for a reset -/
  | pendReset {c : Core} {budget : LeRecoveryBudget} (h : c.budget.take c.now = (budget, true)) :
      Moves c
        ((({ c with budget := budget } : Core).did (.budget (.granted c.now))).setReset true
          c.resetFailures)
  | request {c c' : Core} {kind : Kind} (hidle : c.connecting = ∅) (h : Moves (c.begin kind) c')
      (hsettled : c'.Settled kind c.generation (c.serial + 1)) : Moves c c'
  | issueClassic {c : Core} {m : Meanwhile} (h : c.Open m) :
      Moves c (c.did (.connect .bredr m))
  /-- a Connect of LE is issued on a grant of its own -/
  | issueLe {c : Core} {budget : LeRecoveryBudget} {m : Meanwhile} {t : ℚ} (h : c.Open m)
      (htake : c.budget.take c.now = (budget, true)) (ht : c.now ≤ t) :
      Moves c
        (((({ c with budget := budget } : Core).did (.budget (.granted c.now))).did
          (.connect .le m)).later t)
  | sent (c : Core) (kind : Kind) (id : Nat) :
      Moves c (c.send (.connect kind c.generation id))
  | ended (c : Core) (kind : Kind) : Moves c (c.endConnect kind)
  | deadline (c : Core) (kind : Kind) (t : ℚ) :
      Moves c { c with deadlines := Function.update c.deadlines kind (some t) }
  | answered {c c' : Core} {n : Nat} {kind : Kind} {id : Nat}
      (hn : c.requests.Holds n (.connect kind c.generation id))
      (h : Moves (c.answer n) c') (hsettled : c'.Settled kind c.generation id) : Moves c c'
  /-- the answer is to a request that is not the current one -/
  | dropped {c : Core} {n : Nat} {r : Request} (hn : c.requests.Holds n r)
      (h : ∀ kind id, r = .connect kind c.generation id → c.ids kind ≠ some id) :
      Moves c (c.answer n)
  | sentLeDisconnect {c : Core} {force : Bool} (hpays : c.PaysDisconnect force)
      (hout : .le ∉ c.disconnecting) :
      Moves c
        ((({ c with disconnecting := insert .le c.disconnecting } : Core).did
          (.disconnect .le force)).send (.disconnect .le c.generation))
  | raisedLeDisconnect {c : Core} {force : Bool} (hpays : c.PaysDisconnect force)
      (hout : .le ∉ c.disconnecting) (pending : Bool) (failures : Nat)
      (h : pending = false ∨ failures ≠ 0) :
      Moves c ((c.did (.disconnect .le force)).setReset pending failures)
  | endedLeDisconnect {c : Core} {n : Nat} (hn : c.requests.Holds n (.disconnect .le c.generation))
      (pending : Bool) (failures : Nat) (h : pending = false ∨ failures ≠ 0) :
      Moves c (((c.answer n).endDisconnect).setReset pending failures)
  | completed (c : Core) : Moves c (c.setReset false 0)
  | sentDeviceDisconnect {c : Core} (h : c.phase = none) :
      Moves c
        (((c.setPhase (some .disconnecting)).did (.disconnect .device false)).send
          (.disconnect .device c.generation))
  | raisedDeviceDisconnect {c : Core} (h : c.phase = none) (phase : Option Phase)
      (hphase : phase ≠ some .disconnecting) :
      Moves c ((c.setPhase phase).did (.disconnect .device false))
  | endedDeviceDisconnect {c : Core} {n : Nat}
      (hn : c.requests.Holds n (.disconnect .device c.generation)) (phase : Option Phase)
      (hphase : phase ≠ some .disconnecting) :
      Moves c ((c.answer n).setPhase phase)
  | settled {c : Core} (h : c.phase = some .settling) : Moves c (c.setPhase none)
  | renewed (c : Core) (failures : Nat) : Moves c (c.renewed failures)

/-! ## What only takes time -/

/-- The core is as it was, at the same time or later. -/
def Quiet (w w' : World) : Prop := ∃ t, w.now ≤ t ∧ w'.core = w.core.later t

variable {w w' : World}

theorem Quiet.of_eq (h : w'.core = w.core) : Quiet w w' := ⟨w.now, le_rfl, h⟩

theorem Quiet.refl (w : World) : Quiet w w := .of_eq rfl

theorem Quiet.now_eq {t : ℚ} (h : w'.core = w.core.later t) : w'.now = t := congrArg Core.now h

theorem Quiet.le (h : Quiet w w') : w.now ≤ w'.now := by
  obtain ⟨t, ht, hcore⟩ := h
  rwa [Quiet.now_eq hcore]

theorem Quiet.trans {a b c : World} (h : Quiet a b) (h' : Quiet b c) : Quiet a c := by
  obtain ⟨t, ht, hb⟩ := h
  obtain ⟨u, hu, hc⟩ := h'
  rw [Quiet.now_eq hb] at hu
  exact ⟨u, ht.trans hu, by rw [hc, hb]; rfl⟩

theorem Quiet.after {a b c : World} (h' : Quiet b c) (h : Quiet a b) : Quiet a c := h.trans h'

theorem Quiet.moves (h : Quiet w w') : Moves w.core w'.core := by
  obtain ⟨t, ht, hcore⟩ := h
  rw [hcore]
  exact .wait ht

theorem Moves.quiet {c : Core} (h : Moves c w.core) (hq : Quiet w w') :
    Moves c w'.core := h.trans hq.moves

variable {generation id : Nat} {kind : Kind}

theorem Quiet.settled (hq : Quiet w w')
    (h : w.core.Settled kind generation id) : w'.core.Settled kind generation id := by
  obtain ⟨t, -, hcore⟩ := hq
  rw [hcore]
  exact h

/-- Made of moves, and in the end the request is settled. -/
structure Handles (c : Core) (w : World) (kind : Kind) (generation id : Nat) : Prop where
  moves : Moves c w.core
  settled : w.core.Settled kind generation id

theorem Handles.quiet {c : Core}
    (h : Handles c w kind generation id) (hq : Quiet w w') : Handles c w' kind generation id :=
  ⟨h.moves.quiet hq, hq.settled h.settled⟩

theorem Handles.after {c c' : Core}
    (h : Handles c' w kind generation id) (hm : Moves c c') : Handles c w kind generation id :=
  ⟨hm.trans h.moves, h.settled⟩

/-- A request that is not current is settled. -/
theorem Core.settled_of_not_current
    (h : w.supervisor.connectRequestIsCurrent kind generation id = false) :
    w.core.Settled kind generation id := by
  intro hgen hid
  simp [BearerSupervisor.connectRequestIsCurrent] at h
  exact absurd hid (h hgen)

end BlueFerry.Bearers
