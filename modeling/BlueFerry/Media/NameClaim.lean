import BlueFerry.Lib.Machine
import BlueFerry.Lib.Trace

/-! # The name of the media player

`NameClaim` and what `MprisPlayer` of `mpris.py` does with it: the players of one connection, each closed
before the next, share a claim on one bus name. A call that fails at once is answered from within, and a
listener may come back to the claim; both end in `_advance` again (`advance`).
-/

namespace BlueFerry.Media

inductive Call where
  | request | release
  deriving DecidableEq

/-- What has happened: a player wanted the name or gave it up, its listener was told, a bus call was made
or answered. -/
inductive Entry where
  | want (player : Nat) (wanted : Bool)
  | told (player : Nat) (held : Bool)
  | asked (call : Call)
  | answered
  deriving DecidableEq

structure Player where
  owned : Bool
  exported : Bool
  claiming : Bool
  closed : Bool

/-- The claim, the players by number, whether the media state calls for the name, and what has happened,
newest first. -/
structure World where
  wanted : Bool
  held : Bool
  busy : Option Call
  /-- the player whose `_claimed` it is -/
  listener : Option Nat
  players : Nat → Player
  latest : Nat
  shouldOwn : Bool
  calls : Nat
  log : List Entry

def World.initial : World where
  wanted := false
  held := false
  busy := none
  listener := none
  players := fun _ => ⟨false, false, false, true⟩
  latest := 0
  shouldOwn := false
  calls := 0
  log := []

/-! ## The code -/

def World.set (w : World) (p : Nat) (player : Player) : World :=
  { w with players := Function.update w.players p player }

section

/-! The methods that end in `_advance` take it as an argument. -/

variable (advance : World → World)

def want (wanted : Bool) (listener : Nat) (w : World) : World :=
  advance { w with
    wanted, listener := if wanted then some listener else none, log := .want listener wanted :: w.log }

/-- `_release` -/
def release (p : Nat) (w : World) : World :=
  let player := w.players p
  let w := w.set p { player with owned := false, claiming := false, exported := false }
  if player.owned || player.claiming then want advance false p w else w

/-- `_claimed` -/
def claimed (p : Nat) (held : Bool) (w : World) : World :=
  let player := { w.players p with claiming := false }
  if !held then w.set p { player with exported := false }
  else
    let w := w.set p { player with owned := true }
    if !w.shouldOwn then release advance p w else w

/-- `_report` -/
def report (held : Bool) (w : World) : World :=
  match w.listener with
  | none => w
  | some p => claimed advance p held { w with listener := none, log := .told p held :: w.log }

/-- `_requested`; the name is held by its primary owner (1) and by who owns it already (4). -/
def requested (result : Nat) (w : World) : World :=
  let w := { w with busy := none, held := result = 1 || result = 4, log := .answered :: w.log }
  advance (if !w.held && w.wanted then report advance false { w with wanted := false } else w)

/-- `_request_failed` -/
def requestFailed (w : World) : World :=
  let w := { w with busy := none, log := .answered :: w.log }
  advance (if w.wanted then report advance false { w with wanted := false } else w)

/-- `_released` -/
def released (w : World) : World :=
  advance { w with busy := none, held := false, log := .answered :: w.log }

variable (fails : Nat → Bool)

/-- `_call`; `fails n` is whether the `n`-th call raises at once. -/
def call (c : Call) (w : World) : World :=
  let asked := { w with busy := some c, calls := w.calls + 1, log := .asked c :: w.log }
  if fails w.calls then
    match c with
    | .request => requestFailed advance asked
    | .release => released advance asked
  else asked

/-- `_advance` -/
def advanceOnce (w : World) : World :=
  if w.busy.isSome then w
  else if w.wanted = w.held then if w.held then report advance true w else w
  else call advance fails (if w.wanted then .request else .release) w

end

/-- `_advance`, with fuel for its coming back to itself; three rounds do (`advance_add`). -/
def advance (fails : Nat → Bool) : Nat → World → World
  | 0, w => w
  | fuel + 1, w => advanceOnce (advance fails fuel) fails w

section

variable (fails : Nat → Bool)

/-- `_acquire` -/
def acquire (p : Nat) (w : World) : World :=
  let player := w.players p
  if player.claiming || player.owned then w
  else want (advance fails 3) true p (w.set p { player with claiming := true, exported := true })

def refresh (p : Nat) (w : World) : World :=
  if (w.players p).closed then w
  else if !w.shouldOwn then release (advance fails 3) p w
  else if !(w.players p).owned then acquire fails p w
  else w

def close (p : Nat) (w : World) : World :=
  let player := w.players p
  if player.closed then w
  else release (advance fails 3) p (w.set p { player with closed := true })

/-- `MprisPlayer.__init__` -/
def create (w : World) : World :=
  let p := w.latest + 1
  refresh fails p ({ w with latest := p }.set p ⟨false, false, false, false⟩)

inductive Input where
  /-- the media state changes; the players are told later, by `refresh` -/
  | media (shouldOwn : Bool)
  | refresh (player : Nat)
  | create
  | close (player : Nat)
  | reply (result : Nat)
  | error

def step (w : World) : Input → World
  | .media shouldOwn => { w with shouldOwn }
  | .refresh p => refresh fails p w
  | .create => create fails w
  | .close p => close fails p w
  | .reply result =>
    match w.busy with
    | none => w
    | some .request => requested (advance fails 3) result w
    | some .release => released (advance fails 3) w
  | .error =>
    match w.busy with
    | none => w
    | some .request => requestFailed (advance fails 3) w
    | some .release => released (advance fails 3) w

/-- The bus answers. -/
def Input.Answer : Input → Prop
  | .reply _ | .error => True
  | _ => False

/-- A player is created behind the closing of the one before. -/
def InTurn (w : World) : Input → Prop
  | .create => (w.players w.latest).closed = true
  | _ => True

end

/-! ## What is to hold -/

/-- The bus calls without an answer. -/
def outstanding : List Entry → Nat
  | [] => 0
  | .asked _ :: earlier => outstanding earlier + 1
  | .answered :: earlier => outstanding earlier - 1
  | _ :: earlier => outstanding earlier

/-- The player that the last `want` left to be told. -/
def awaiting : List Entry → Option Nat
  | [] | .told _ _ :: _ => none
  | .want p wanted :: _ => if wanted then some p else none
  | _ :: earlier => awaiting earlier

/-- The player that was told that it holds the name, and has not given it up since. -/
def holder : List Entry → Option Nat
  | [] => none
  | .told p held :: earlier => if held then some p else holder earlier
  | .want p false :: earlier => if holder earlier = some p then none else holder earlier
  | _ :: earlier => holder earlier

/-- One call at a time, a release only where no player was told and has not given up itself, and a listener
is told what its player asked for last and has not heard. -/
def Allowed : Entry → List Entry → Prop
  | .asked c, earlier => outstanding earlier = 0 ∧ (c = .release → holder earlier = none)
  | .told p _, earlier => awaiting earlier = some p
  | .want _ _, _ | .answered, _ => True

/-- What every reachable state is to meet; who waits is told by the second answer. -/
structure Safe (fails : Nat → Bool) (w : World) : Prop where
  allowed : Trace.Each Allowed w.log
  calls : outstanding w.log = if w.busy.isSome then 1 else 0
  told : w.busy = none → awaiting w.log = none
  soon : ∀ i j : Input, i.Answer → j.Answer → awaiting (Machine.run (step fails) w [i, j]).log = none
  owned : ∀ p, (w.players p).owned = true → w.held = true ∧ w.busy ≠ some .release
  settled : w.busy = none → w.held = w.wanted

/-! ## The invariant -/

/-- What holds between any two methods. -/
structure Sound (w : World) : Prop where
  others : ∀ p, p ≠ w.latest → (w.players p).closed = true ∧ (w.players p).owned = false
  closed : (w.players w.latest).closed = true →
    (w.players w.latest).owned = false ∧ (w.players w.latest).claiming = false
  owned : (w.players w.latest).owned = true → w.wanted = true ∧ w.held = true ∧ w.busy = none
  claiming : (w.players w.latest).claiming = true → w.wanted = true ∧ (w.players w.latest).owned = false
  listener : w.listener = if (w.players w.latest).claiming then some w.latest else none
  awaiting : awaiting w.log = w.listener
  holder : holder w.log = if (w.players w.latest).owned then some w.latest else none
  request : w.busy = some .request → w.held = false
  calls : outstanding w.log = if w.busy.isSome then 1 else 0
  allowed : Trace.Each Allowed w.log

/-- Where nothing is outstanding, nothing is left to ask for. -/
structure Settled (w : World) : Prop extends Sound w where
  settled : w.busy = none → w.held = w.wanted ∧ (w.players w.latest).claiming = false

@[simp] theorem set_players (w : World) (p : Nat) (player : Player) :
    (w.set p player).players p = player := Function.update_self ..

theorem Sound.initial : Sound .initial where
  others := fun _ _ => ⟨rfl, rfl⟩
  closed := fun _ => ⟨rfl, rfl⟩
  owned := nofun
  claiming := nofun
  listener := rfl
  awaiting := rfl
  holder := rfl
  request := nofun
  calls := rfl
  allowed := trivial

section

variable {w : World}

/-- While a call is out, or is about to be made, no player holds the name. -/
theorem Sound.not_owned (h : Sound w) (hout : w.busy ≠ none ∨ w.wanted ≠ w.held) :
    (w.players w.latest).owned = false := by
  by_contra howned
  obtain ⟨hwanted, hheld, hbusy⟩ := h.owned (Bool.eq_true_of_not_eq_false howned)
  simp [hwanted, hheld, hbusy] at hout

theorem Sound.unclaimed (h : Sound w) (hwanted : w.wanted = false) :
    (w.players w.latest).claiming = false := by
  by_contra hclaiming
  exact absurd (h.claiming (Bool.eq_true_of_not_eq_false hclaiming)).1 (by simp [hwanted])

theorem Sound.unheard (h : Sound w) (hnone : w.listener = none) :
    (w.players w.latest).claiming = false := by
  simpa [hnone] using h.listener

theorem Sound.newest (h : Sound w) {p : Nat} (hopen : ¬ (w.players p).closed = true) : p = w.latest := by
  by_contra hne
  exact hopen (h.others p hne).1

theorem others_set (h : Sound w) (player : Player) : ∀ p, p ≠ w.latest →
    ((w.set w.latest player).players p).closed = true ∧ ((w.set w.latest player).players p).owned = false := by
  intro p hp
  simp only [World.set, Function.update_of_ne hp]
  exact h.others p hp

theorem Sound.asked (h : Sound w) (hbusy : w.busy = none) (hne : w.wanted ≠ w.held) :
    Sound { w with
      busy := some (if w.wanted then .request else .release), calls := w.calls + 1,
      log := .asked (if w.wanted then .request else .release) :: w.log } := by
  have howned := h.not_owned (.inr hne)
  have hcalls : outstanding w.log = 0 := by rw [h.calls, hbusy]; rfl
  have hholder : Media.holder w.log = none := by rw [h.holder, howned]; rfl
  exact { h with
    owned := fun hown => nomatch howned.symm.trans hown
    request := by
      cases hwanted : w.wanted
      · nofun
      · exact fun _ => by simpa [hwanted] using hne.symm
    calls := by simp [outstanding, hcalls]
    allowed := ⟨⟨hcalls, fun _ => hholder⟩, h.allowed⟩ }

theorem Sound.answered (h : Sound w) (hbusy : w.busy ≠ none) (held : Bool) :
    Sound { w with busy := none, held, log := .answered :: w.log } :=
  { h with
    owned := fun howned => nomatch (h.not_owned (.inl hbusy)).symm.trans howned
    request := nofun
    calls := by
      rw [outstanding, h.calls, if_pos (Option.isSome_iff_ne_none.mpr hbusy)]
      rfl
    allowed := ⟨trivial, h.allowed⟩ }

/-- The listener is told, and the player drops its claim or owns the name. -/
theorem Sound.told (h : Sound w) (hbusy : w.busy = none) {p : Nat}
    (hlistener : w.listener = some p) (held exported wanted : Bool) (hheld : held = w.held)
    (hwanted : held = true → wanted = true) :
    p = w.latest ∧ Sound ({ w with wanted, listener := none, log := .told p held :: w.log }.set p
      { w.players p with claiming := false, owned := held, exported }) := by
  obtain ⟨hclaiming, rfl⟩ : (w.players w.latest).claiming = true ∧ p = w.latest := by
    have hsome := h.listener
    rw [hlistener] at hsome
    split at hsome
    · next hclaiming => exact ⟨hclaiming, Option.some.inj hsome⟩
    · nomatch hsome
  have howned := (h.claiming hclaiming).2
  refine ⟨rfl, others_set h _, ?_, ?_, ?_, ?_, rfl, ?_, ?_, h.calls, h.awaiting.trans hlistener, h.allowed⟩ <;>
    simp only [World.set, Function.update_self]
  · exact fun hclosed => absurd hclaiming (by simp [(h.closed hclosed).2])
  · exact fun hown => ⟨hwanted hown, hheld ▸ hown, hbusy⟩
  · nofun
  · rfl
  · simp [Media.holder, h.holder, howned]
  · simp [hbusy]

/-- The newest player asks for the name or gives it up. -/
theorem Sound.want (h : Sound w) (exported closed wanted : Bool)
    (howned : wanted = true → (w.players w.latest).owned = false) (hclosed : closed = true → wanted = false) :
    Sound { w.set w.latest ⟨false, exported, wanted, closed⟩ with
      wanted, listener := if wanted then some w.latest else none, log := .want w.latest wanted :: w.log } := by
  refine ⟨others_set h _, ?_, ?_, ?_, ?_, rfl, ?_, h.request, h.calls, trivial, h.allowed⟩ <;>
    simp only [World.set, Function.update_self]
  · exact fun h => ⟨trivial, hclosed h⟩
  · nofun
  · exact fun h => ⟨h, trivial⟩
  · cases hown : (w.players w.latest).owned <;> cases wanted <;>
      simp [Media.holder, h.holder, hown] at howned ⊢

end

/-! ## The way back to `_advance` -/

section

variable {w : World} (fails : Nat → Bool)

theorem advance_rest (h : w.busy ≠ none ∨ w.wanted = false ∧ w.held = false) (n : Nat) :
    advance fails (n + 1) w = w := by
  rcases h with hbusy | ⟨hwanted, hheld⟩
  · simp [advance, advanceOnce, Option.isSome_iff_ne_none, hbusy]
  · simp [advance, advanceOnce, hwanted, hheld]

/-- A listener that hears of a failure does not come back. -/
theorem advance_report (back : World → World) (hwanted : w.wanted = false) (hheld : w.held = false)
    (n : Nat) : advance fails (n + 1) (report back false w) = report id false w := by
  have hsame : report back false w = report id false w := by
    unfold report claimed
    rfl
  rw [hsame]
  refine advance_rest fails (.inr ?_) n
  unfold report
  split
  · exact ⟨hwanted, hheld⟩
  · exact ⟨hwanted, hheld⟩

theorem advance_call (hbusy : w.busy = none) (hne : w.wanted ≠ w.held) (n : Nat) :
    advance fails (n + 2) w =
      let asked := { w with
        busy := some (if w.wanted then .request else .release), calls := w.calls + 1,
        log := .asked (if w.wanted then .request else .release) :: w.log }
      if fails w.calls then
        if w.wanted then
          report id false { asked with wanted := false, busy := none, log := .answered :: asked.log }
        else { asked with busy := none, held := false, log := .answered :: asked.log }
      else asked := by
  rw [advance, advanceOnce, hbusy, if_neg (by simp), if_neg hne]
  unfold call
  cases hwanted : w.wanted
  · simp only [Bool.false_eq_true, if_false]
    split
    · exact advance_rest fails (.inr ⟨rfl, rfl⟩) n
    · rfl
  rw [hwanted] at hne
  simp only [if_true, requestFailed]
  split
  · exact advance_report fails _ rfl (by simpa using hne.symm) n
  · rfl

theorem advance_held (hbusy : w.busy = none) (hwanted : w.wanted = true) (hheld : w.held = true) (n : Nat) :
    advance fails (n + 3) w = report (advance fails (n + 2)) true w := by
  change advanceOnce (advance fails (n + 2)) fails w = _
  simp [advanceOnce, hbusy, hwanted, hheld]

theorem Sound.refused (h : Sound w) (hbusy : w.busy = none) (hheld : w.held = false) :
    Settled (report id false { w with wanted := false }) := by
  have howned : (w.players w.latest).owned = false := by
    by_contra howned
    simp [(h.owned (Bool.eq_true_of_not_eq_false howned)).2.1] at hheld
  unfold report
  split
  · next hnone =>
    have hidle := h.unheard hnone
    exact ⟨{ h with
      owned := fun h => nomatch howned.symm.trans h
      claiming := fun h => nomatch hidle.symm.trans h }, fun _ => ⟨hheld, hidle⟩⟩
  · next p hsome =>
    obtain ⟨rfl, htold⟩ := h.told hbusy hsome false false false hheld.symm nofun
    refine ⟨?_, fun _ => ⟨hheld, by simp [claimed, World.set]⟩⟩
    simpa [claimed, howned] using htold

theorem Sound.called (h : Sound w) (hbusy : w.busy = none) (hne : w.wanted ≠ w.held) (n : Nat) :
    Settled (advance fails (n + 2) w) := by
  have hasked := h.asked hbusy hne
  rw [advance_call fails hbusy hne]
  cases hwanted : w.wanted <;> rw [hwanted] at hasked hne <;>
    simp only [Bool.false_eq_true, if_false, if_true]
  · split
    · exact ⟨hasked.answered nofun false, fun _ => ⟨rfl, h.unclaimed hwanted⟩⟩
    · exact ⟨hasked, nofun⟩
  · split
    · have hheld : w.held = false := by simpa using hne.symm
      exact (hasked.answered nofun w.held).refused rfl hheld
    · exact ⟨hasked, nofun⟩

theorem set_set (w : World) (p : Nat) (a b : Player) : (w.set p a).set p b = w.set p b := by
  simp [World.set]

theorem set_same (w : World) (p : Nat) :
    w.set p { w.players p with closed := (w.players p).closed } = w := by
  simp [World.set]

/-- The newest player gives up what it has or waits for. -/
theorem Settled.release (h : Settled w) (closed : Bool) (n : Nat) :
    Settled (release (advance fails (n + 2)) w.latest
      (w.set w.latest { w.players w.latest with closed })) := by
  unfold Media.release want
  simp only [set_players, set_set]
  split
  · next hany =>
    have hgiven := h.toSound.want false closed false nofun (fun _ => rfl)
    by_cases hbusy : w.busy = none
    · have howned : (w.players w.latest).owned = true := by simpa [(h.settled hbusy).2] using hany
      exact hgiven.called fails hbusy (by simp [World.set, (h.owned howned).2.1]) n
    rw [advance_rest fails (.inl (by exact hbusy))]
    exact ⟨hgiven, fun hnone => absurd hnone hbusy⟩
  · next hnone =>
    simp only [Bool.or_eq_true, not_or, Bool.not_eq_true] at hnone
    refine ⟨{ h.toSound with
      others := others_set h.toSound _, closed := ?_, owned := ?_, claiming := ?_, listener := ?_,
      holder := ?_ }, ?_⟩ <;> simp only [World.set, Function.update_self]
    · exact fun _ => ⟨trivial, trivial⟩
    · nofun
    · nofun
    · simpa [hnone.2] using h.listener
    · simpa [hnone.1] using h.holder
    · exact fun hbusy => ⟨(h.settled hbusy).1, trivial⟩

theorem Settled.release_same (h : Settled w) (n : Nat) :
    Settled (Media.release (advance fails (n + 2)) w.latest w) := by
  have hrelease := h.release fails (w.players w.latest).closed n
  rwa [set_same] at hrelease

theorem Sound.advance (h : Sound w) : Settled (advance fails 3 w) := by
  by_cases hbusy : w.busy = none
  · by_cases hne : w.wanted = w.held
    · cases hheld : w.held
      · have hwanted := hne.trans hheld
        rw [advance_rest fails (.inr ⟨hwanted, hheld⟩)]
        exact ⟨h, fun _ => ⟨hne.symm, h.unclaimed hwanted⟩⟩
      rw [advance_held fails hbusy (hne.trans hheld) hheld]
      unfold report
      split
      · next hnone => exact ⟨h, fun _ => ⟨hne.symm, h.unheard hnone⟩⟩
      · next p hsome =>
        obtain ⟨rfl, htold⟩ := h.told hbusy hsome true (w.players p).exported w.wanted
          hheld.symm (fun _ => hne.trans hheld)
        have hsettled : Settled _ := ⟨htold, fun _ => ⟨hne.symm, by simp [World.set]⟩⟩
        unfold claimed
        simp only [Bool.not_true, Bool.false_eq_true, if_false]
        split
        · exact hsettled.release_same fails 0
        · exact hsettled
    · exact h.called fails hbusy hne 1
  · rw [advance_rest fails (.inl hbusy)]
    exact ⟨h, fun hnone => absurd hnone hbusy⟩

/-- A request that failed is reported, if the name is still wanted. -/
theorem Sound.failed (h : Sound w) (hbusy : w.busy = none) (hheld : w.held = false) : Settled (Media.advance fails 3
    (if w.wanted then report (Media.advance fails 3) false { w with wanted := false } else w)) := by
  split
  · have hreport := advance_report fails (Media.advance fails 3) (w := { w with wanted := false }) rfl hheld
    rw [hreport 2]
    exact h.refused hbusy hheld
  · exact h.advance fails

theorem Settled.refresh (h : Settled w) (p : Nat) : Settled (refresh fails p w) := by
  unfold Media.refresh
  split
  · exact h
  next hopen =>
  obtain rfl := h.newest hopen
  split
  · exact h.release_same fails 1
  split
  · next howned =>
    simp only [acquire]
    split
    · exact h
    have howned : (w.players w.latest).owned = false := by simpa using howned
    rw [howned]
    exact (h.toSound.want true _ true (fun _ => howned) (fun hclosed => absurd hclosed hopen)).advance fails
  · exact h

theorem Settled.create (h : Settled w) (hclosed : (w.players w.latest).closed = true) :
    Settled (create fails w) := by
  obtain ⟨howned, hclaiming⟩ := h.closed hclosed
  have hnext : Settled ({ w with latest := w.latest + 1 }.set (w.latest + 1)
      ⟨false, false, false, false⟩) := by
    refine ⟨{ h.toSound with
      others := fun q hq => ?_, closed := ?_, owned := ?_, claiming := ?_, listener := ?_, holder := ?_ },
      ?_⟩ <;> simp only [World.set, Function.update_self]
    · rw [Function.update_of_ne (by exact hq)]
      by_cases hlast : q = w.latest
      · exact hlast ▸ ⟨hclosed, howned⟩
      · exact h.others q hlast
    · nofun
    · nofun
    · nofun
    · simpa [hclaiming] using h.listener
    · simpa [howned] using h.holder
    · exact fun hbusy => ⟨(h.settled hbusy).1, trivial⟩
  exact hnext.refresh fails _

end

theorem Settled.step {w : World} (fails : Nat → Bool) (h : Settled w) {i : Input} (hi : InTurn w i) :
    Settled (step fails w i) := by
  cases i with
  | media shouldOwn => exact { h with }
  | refresh p => exact h.refresh fails p
  | create => exact h.create fails hi
  | close p =>
    simp only [Media.step, close]
    split
    · exact h
    · next hopen =>
      obtain rfl := h.newest hopen
      exact h.release fails true 1
  | reply result =>
    simp only [Media.step]
    split
    · exact h
    · next hbusy =>
      have hanswered (held : Bool) := h.toSound.answered (by simp [hbusy]) held
      unfold requested
      cases hheld : (decide (result = 1) || decide (result = 4))
      · exact (hanswered false).failed fails rfl rfl
      · exact (hanswered true).advance fails
    · next hbusy => exact (h.toSound.answered (by simp [hbusy]) false).advance fails
  | error =>
    simp only [Media.step]
    split
    · exact h
    · next hbusy =>
      exact (h.toSound.answered (by simp [hbusy]) w.held).failed fails rfl (h.request hbusy)
    · next hbusy => exact (h.toSound.answered (by simp [hbusy]) false).advance fails

/-! ## Who waits is told -/

section

variable {w : World} (fails : Nat → Bool)

/-- The way back leaves nobody waiting where nobody was. -/
theorem listener_advance (n : Nat) : ∀ {w : World}, w.listener = none → (advance fails n w).listener = none := by
  induction n with
  | zero => exact fun h => h
  | succ n ih =>
    intro w h
    unfold advance advanceOnce call requestFailed released report
    dsimp only
    split_ifs <;> simp [h, ih]

theorem listener_report (n : Nat) (held : Bool) : (report (advance fails n) held w).listener = none := by
  unfold report claimed release want
  split
  · assumption
  simp only [Bool.false_eq_true, if_false]
  split_ifs <;> simp [World.set, listener_advance]

theorem advance_heard (h : Sound w) (hbusy : w.busy = none) : (advance fails 3 w).listener = none ∨
    w.held = false ∧ w.listener ≠ none ∧ (advance fails 3 w).busy = some .request := by
  cases hclaiming : (w.players w.latest).claiming
  · exact .inl (listener_advance fails 3 (by simp [h.listener, hclaiming]))
  have hwanted := (h.claiming hclaiming).1
  cases hheld : w.held
  · rw [advance_call fails hbusy (by simp [hwanted, hheld])]
    simp only [hwanted, if_true]
    split
    · exact .inl (listener_report fails 0 false)
    · exact .inr ⟨trivial, by simp [h.listener, hclaiming], rfl⟩
  · rw [advance_held fails hbusy hwanted hheld]
    exact .inl (listener_report fails 2 true)

theorem failed_heard (h : Sound w) : (advance fails 3
    (if w.wanted then report (advance fails 3) false { w with wanted := false } else w)).listener = none := by
  refine listener_advance fails 3 ?_
  split
  · exact listener_report fails 3 false
  · next hwanted => simp [h.listener, h.unclaimed (by simpa using hwanted)]

/-- Who still waits after an answer waits for the answer to its request. -/
theorem answer_heard (h : Settled w) {i : Input} (hi : i.Answer) : (step fails w i).listener = none ∨
    w.busy = some .release ∧ w.listener ≠ none ∧ (step fails w i).busy = some .request := by
  have hreleased (hbusy : w.busy = some .release) : (released (advance fails 3) w).listener = none ∨
      w.busy = some .release ∧ w.listener ≠ none ∧
        (released (advance fails 3) w).busy = some .request :=
    (advance_heard fails (h.toSound.answered (by simp [hbusy]) false) rfl).imp_right
      fun hasked => ⟨hbusy, hasked.2⟩
  have hidle (hbusy : w.busy = none) : w.listener = none := by simp [h.listener, (h.settled hbusy).2]
  cases i with
  | reply result =>
    simp only [step]
    split
    · next hbusy => exact .inl (hidle hbusy)
    · next hbusy =>
      have hanswered (held : Bool) := h.toSound.answered (by simp [hbusy]) held
      unfold requested
      cases hheld : (decide (result = 1) || decide (result = 4))
      · exact .inl (failed_heard fails (hanswered false))
      · exact .inl ((advance_heard fails (hanswered true) rfl).resolve_right (by simp))
    · next hbusy => exact hreleased hbusy
  | error =>
    simp only [step]
    split
    · next hbusy => exact .inl (hidle hbusy)
    · next hbusy => exact .inl (failed_heard fails (h.toSound.answered (by simp [hbusy]) w.held))
    · next hbusy => exact hreleased hbusy
  | _ => exact hi.elim

theorem heard_soon (h : Settled w) {i j : Input} (hi : i.Answer) (hj : j.Answer) :
    awaiting (Machine.run (step fails) w [i, j]).log = none := by
  have hsettled {w : World} (h : Settled w) {i : Input} (hi : i.Answer) : Settled (step fails w i) :=
    h.step fails (by cases i <;> trivial)
  have hnext := hsettled h hi
  refine (hsettled hnext hj).awaiting.trans ?_
  rcases answer_heard fails hnext hj with hnone | ⟨hrelease, hwaits, -⟩
  · exact hnone
  rcases answer_heard fails h hi with hnone | ⟨-, -, hrequest⟩
  · exact absurd hnone hwaits
  · exact nomatch hrelease.symm.trans hrequest

theorem Settled.safe (h : Settled w) : Safe fails w where
  allowed := h.allowed
  calls := h.calls
  told := fun hbusy => by
    rw [h.awaiting, h.listener, (h.settled hbusy).2]
    rfl
  soon := fun _ _ => heard_soon fails h
  owned := fun p hp => by
    by_cases hlatest : p = w.latest
    · obtain ⟨-, hheld, hbusy⟩ := h.owned (hlatest ▸ hp)
      exact ⟨hheld, by simp [hbusy]⟩
    · simp [(h.others p hlatest).2] at hp
  settled := fun hbusy => (h.settled hbusy).1

end

/-- **The claim on the name is safe in every run.** -/
theorem name_claimed (fails : Nat → Bool) (inputs : List Input)
    (hturn : Machine.Along (step fails) InTurn .initial inputs) :
    Safe fails (Machine.run (step fails) .initial inputs) :=
  (Machine.invariant (step fails) (fun _ _ hi h => Settled.step fails h hi) hturn
    ⟨.initial, fun _ => ⟨rfl, rfl⟩⟩).safe fails

/-- A player is closed during its request, and the next one is told that it holds the name. -/
theorem name_claimed_successor :
    let w := Machine.run (step fun _ => false) .initial
      [.media true, .create, .close 1, .create, .reply 1]
    w.log = [.told 2 true, .answered, .want 2 true, .want 1 false, .asked .request, .want 1 true] ∧
      Safe (fun _ => false) w :=
  ⟨by decide +kernel, name_claimed _ _ ⟨trivial, rfl, trivial, rfl, trivial, trivial⟩⟩

end BlueFerry.Media
