import BlueFerry.Tether.Callbacks

/-! # What a tether takes down

Which active connections `NetworkManagerTether` deactivates, over every run: one that it was granted,
or one that the search of a stop found. What the search goes by comes from the answers to earlier calls,
so what is known is said of the log (`Granted`, `Offered`, `Learned`, `Listed`), and only grows.

A profile is learned when it is offered for the phone's own device and names the phone, or no address
at all: `_pan_profile` takes it for the phone's then.
-/

namespace BlueFerry.NmTether

open BlueFerry.Text

/-- `_same_phone` -/
def SamePhone (mac address : Str) : Prop := casefold (strip address) = casefold mac

/-- The connection was granted to an attempt. -/
def Granted (path : Str) (log : List Entry) : Prop :=
  ∃ g profile, .answer (.activate g profile) (.path path) ∈ log

/-- The profiles are available on a device that has the address of the phone. -/
def Offered (mac : Str) (paths : List Str) (log : List Entry) : Prop :=
  ∃ g device available rest address,
    .answer (.hwAddress g device available rest) (.text address) ∈ log ∧ SamePhone mac address ∧
      ∀ path ∈ paths, path ∈ available

/-- A profile of this id is offered, and its settings are those of a PAN client that names the phone,
or no address. -/
def Learned (mac uuid : Str) (log : List Entry) : Prop :=
  ∃ g head rest accepted s, Offered mac [head] log ∧
    .answer (.settings g head rest accepted) (.settings s) ∈ log ∧ s.uuid = uuid ∧
      s.connectionType = "bluetooth".toList ∧ s.bluetoothType = "panu".toList ∧
        ∀ address, s.bdaddr = some address → SamePhone mac address

/-- The connections are active ones, in the search of the stop `g`. -/
def Listed (g : Nat) (paths : List Str) (log : List Entry) : Prop :=
  .disconnect g ∈ log ∧ ∃ all, .answer (.activeConnections g) (.paths all) ∈ log ∧
    ∀ path ∈ paths, path ∈ all

/-- The first device of the active connection was asked for. -/
def Runs (g : Nat) (device head : Str) (rest : List Str) (log : List Entry) : Prop :=
  ∃ value devices, .answer (.active g head rest) (.active value) ∈ log ∧
    value.devices = device :: devices ∧ value.connectionType = "bluetooth".toList

/-- The search of the stop `g` found the connection: it has BlueFerry's own id or a learned one, or
runs on a device that has the address of the phone. -/
def Searched (mac own : Str) (g : Nat) (path : Str) (log : List Entry) : Prop :=
  Listed g [path] log ∧
    ((∃ rest value, .answer (.active g path rest) (.active value) ∈ log ∧
        (value.uuid = own ∨ Learned mac value.uuid log)) ∨
      ∃ device rest address, Runs g device path rest log ∧
        .answer (.activeAddress g device path rest) (.text address) ∈ log ∧ SamePhone mac address)

/-- The connection may be taken down. -/
def MayStop (mac own path : Str) (waiter : Option Nat) (log : List Entry) : Prop :=
  Granted path log ∨ ∃ g, waiter = some g ∧ Searched mac own g path log

/-- An entry that takes a connection down may do so. -/
def Justified (mac own : Str) (e : Entry) (earlier : List Entry) : Prop :=
  ∀ path waiter, e = .call (.deactivate path waiter) → MayStop mac own path waiter earlier

/-- What the callbacks of a pending call hold comes from earlier answers. -/
def Backed (mac : Str) (log : List Entry) : Call → Prop
  | .settings _ head rest accepted =>
    Offered mac (head :: rest) log ∧ ∀ entry ∈ accepted, Learned mac entry.uuid log
  | .activeConnections g => .disconnect g ∈ log
  | .active g head rest => Listed g (head :: rest) log
  | .activeAddress g device head rest => Listed g (head :: rest) log ∧ Runs g device head rest log
  | _ => True

/-! ## What is known stays known -/

section Mono

variable {mac own uuid path device head : Str} {g : Nat} {paths rest : List Str}
  {log log' : List Entry}

section

variable (hsub : log ⊆ log')
include hsub

theorem Granted.mono (h : Granted path log) : Granted path log' := by
  obtain ⟨g, profile, hmem⟩ := h
  exact ⟨g, profile, hsub hmem⟩

theorem Offered.mono (h : Offered mac paths log) : Offered mac paths log' := by
  obtain ⟨g, device, available, rest, address, hmem, hsame, hin⟩ := h
  exact ⟨g, device, available, rest, address, hsub hmem, hsame, hin⟩

theorem Learned.mono (h : Learned mac uuid log) : Learned mac uuid log' := by
  obtain ⟨g, head, rest, accepted, s, hoffered, hmem, hs⟩ := h
  exact ⟨g, head, rest, accepted, s, hoffered.mono hsub, hsub hmem, hs⟩

theorem Listed.mono (h : Listed g paths log) : Listed g paths log' := by
  obtain ⟨hstop, all, hmem, hin⟩ := h
  exact ⟨hsub hstop, all, hsub hmem, hin⟩

theorem Runs.mono (h : Runs g device head rest log) : Runs g device head rest log' := by
  obtain ⟨value, devices, hmem, hvalue⟩ := h
  exact ⟨value, devices, hsub hmem, hvalue⟩

theorem Backed.mono {c : Call} (h : Backed mac log c) : Backed mac log' c := by
  cases c with
  | settings g head rest accepted =>
    exact ⟨h.1.mono hsub, fun entry hentry => (h.2 entry hentry).mono hsub⟩
  | activeConnections g => exact hsub h
  | active g head rest => exact Listed.mono hsub h
  | activeAddress g device head rest => exact ⟨h.1.mono hsub, h.2.mono hsub⟩
  | _ => trivial

end

theorem Offered.first (h : Offered mac (head :: rest) log) : Offered mac [head] log := by
  obtain ⟨g, device, available, left, address, hmem, hsame, hin⟩ := h
  refine ⟨g, device, available, left, address, hmem, hsame, fun path hpath => hin path ?_⟩
  rw [List.mem_singleton.mp hpath]
  exact .head _

theorem Offered.others (h : Offered mac (head :: rest) log) : Offered mac rest log := by
  obtain ⟨g, device, available, left, address, hmem, hsame, hin⟩ := h
  exact ⟨g, device, available, left, address, hmem, hsame,
    fun path hpath => hin path (.tail _ hpath)⟩

theorem Listed.first (h : Listed g (head :: rest) log) : Listed g [head] log := by
  obtain ⟨hstop, all, hmem, hin⟩ := h
  refine ⟨hstop, all, hmem, fun path hpath => hin path ?_⟩
  rw [List.mem_singleton.mp hpath]
  exact .head _

theorem Listed.others (h : Listed g (head :: rest) log) : Listed g rest log := by
  obtain ⟨hstop, all, hmem, hin⟩ := h
  exact ⟨hstop, all, hmem, fun path hpath => hin path (.tail _ hpath)⟩

end Mono

/-! ## The invariant -/

/-- What the backend goes by comes from the answers it got. -/
structure Known (mac own : Str) (w : Nm) : Prop where
  phone : w.mac = mac
  ours : w.uuid = own
  active : ∀ path, w.activePath = some path → Granted path w.log
  uuids : ∀ uuid ∈ w.profileUuids, uuid = own ∨ Learned mac uuid w.log
  pending : ∀ c ∈ w.pending, Backed mac w.log c
  log : Trace.Each (Justified mac own) w.log

section Keeps

variable {mac own : Str} {g : Nat} {w : Nm}

/-- The call takes a connection down. -/
def Call.takesDown : Call → Bool
  | .deactivate _ _ => true
  | _ => false

variable {c : Call} {accepted : List Accepted}

theorem justified_call {log : List Entry} (hc : c.takesDown = false) :
    Justified mac own (.call c) log := by
  intro path waiter heq
  cases heq
  cases hc

section

variable (h : Known mac own w)
include h

theorem Known.samePhone {address : Str} (hsame : w.samePhone address = true) :
    SamePhone mac address := by
  rw [← h.phone]
  exact eq_of_beq hsame

/-- An entry that is no call. -/
theorem Known.noted {e : Entry} (he : ∀ c, e ≠ .call c) :
    Known mac own { w with log := e :: w.log } := by
  have hsub : w.log ⊆ e :: w.log := List.subset_cons_self _ _
  exact ⟨h.phone, h.ours, fun path hpath => (h.active path hpath).mono hsub,
    fun uuid huuid => (h.uuids uuid huuid).imp_right (Learned.mono hsub),
    fun x hx => (h.pending x hx).mono hsub, fun _ _ heq => absurd heq (he _), h.log⟩

/-- A call of an earlier attempt does nothing. -/
theorem Known.guard {w' : Nm} (h' : Known mac own w') :
    Known mac own (if g ≠ w.generation then w else w') := by
  split
  · exact h
  · exact h'

theorem Known.call (hc : Backed mac w.log c)
    (hjustified : Justified mac own (.call c) w.log) : Known mac own (w.call c) := by
  have hsub : w.log ⊆ (w.call c).log := List.subset_cons_self _ _
  refine ⟨h.phone, h.ours, fun path hpath => (h.active path hpath).mono hsub,
    fun uuid huuid => (h.uuids uuid huuid).imp_right (Learned.mono hsub), ?_, ⟨hjustified, h.log⟩⟩
  intro x hx
  rcases List.mem_append.mp hx with hx | hx
  · exact (h.pending x hx).mono hsub
  rw [List.mem_singleton.mp hx]
  exact hc.mono hsub

/-- A call whose callbacks hold nothing that matters. -/
theorem Known.plainCall (hc : ∀ log, Backed mac log c)
    (hplain : c.takesDown = false) : Known mac own (w.call c) :=
  h.call (hc w.log) (justified_call hplain)

theorem Known.tell (c : Callback) : Known mac own (w.tell c) := h.noted (fun _ => Entry.noConfusion)

theorem Known.dropStateMatch : Known mac own w.dropStateMatch := { h with }

theorem known_fail (name : Str) : Known mac own (w.fail g name) := by
  exact h.guard (h.dropStateMatch.tell _)

theorem known_activate (profile : Str) : Known mac own (w.activate g profile) := by
  exact h.guard (h.plainCall (fun _ => trivial) rfl)

theorem known_resolved (profile : Option Str) : Known mac own (w.resolved g profile) := by
  refine h.guard ?_
  cases profile with
  | none =>
    have h : Known mac own { w with profileUuid := w.uuid } := { h with }
    exact h.plainCall (fun _ => trivial) rfl
  | some profile => exact known_activate h profile

/-- The ids of the profiles that are accepted are learned. -/
theorem known_choose (haccepted : ∀ entry ∈ accepted, Learned mac entry.uuid w.log) :
    Known mac own (w.choose g accepted) := by
  cases accepted with
  | nil => exact known_resolved h none
  | cons entry rest =>
    unfold Nm.choose
    apply known_resolved
    refine { h with uuids := fun uuid huuid => ?_ }
    rcases List.mem_append.mp huuid with huuid | huuid
    · exact h.uuids uuid huuid
    obtain ⟨x, hx, hxuuid⟩ := List.mem_map.mp huuid
    rw [← hxuuid]
    exact .inr (haccepted x hx)

theorem known_inspect {candidates : List Str} (hcandidates : Offered mac candidates w.log)
    (haccepted : ∀ entry ∈ accepted, Learned mac entry.uuid w.log) :
    Known mac own (w.inspect g candidates accepted) := by
  refine h.guard ?_
  cases candidates with
  | nil => exact known_choose h haccepted
  | cons head rest =>
    exact h.call ⟨hcandidates, haccepted⟩ (justified_call rfl)

theorem known_scanDevices (paths : List Str) : Known mac own (w.scanDevices g paths) := by
  refine h.guard ?_
  cases paths with
  | nil => exact known_resolved h none
  | cons head rest => exact h.plainCall (fun _ => trivial) rfl

/-- A connection that is granted is the one to stop, or is taken down. -/
theorem known_activated {path : Str} (hpath : Granted path w.log) :
    Known mac own (w.activated g path) := by
  unfold Nm.activated
  split
  · exact h.call trivial (fun x waiter heq => by cases heq; exact .inl hpath)
  have h : Known mac own { w with activePath := some path, watching := true } :=
    { h with active := fun x hx => by cases hx; exact hpath }
  exact h.plainCall (fun _ => trivial) rfl

theorem known_report (interface : Str) : Known mac own (w.report g interface) := by
  exact h.guard (h.tell _)

theorem known_readInterface : Known mac own (w.readInterface g) := by
  unfold Nm.readInterface
  split
  · exact known_report h _
  · exact h.plainCall (fun _ => trivial) rfl

theorem known_observe (state reason : Int) : Known mac own (w.observe g state reason) := by
  have hended : Known mac own { w.dropStateMatch with activePath := none } :=
    { h with active := fun path hpath => (nomatch hpath) }
  unfold Nm.observe
  split
  · exact h
  split
  · have h : Known mac own { w with established := true } := { h with }
    exact known_readInterface h
  split
  · split <;> exact hended.tell _
  · exact h

theorem known_stopDone (waiter : Option Nat) : Known mac own (w.stopDone waiter) := by
  cases waiter with
  | none => exact h
  | some g =>
    unfold Nm.stopDone
    dsimp only
    split
    · exact h
    · exact h.tell _

theorem known_stopFailed (waiter : Option Nat) (token : Str) :
    Known mac own (w.stopFailed waiter token) := by
  cases waiter with
  | none => exact h
  | some g =>
    unfold Nm.stopFailed
    dsimp only
    split
    · exact h
    · exact h.tell _

/-- What the search found is taken down. -/
theorem known_found {path : Str} (hpath : Searched mac own g path w.log) :
    Known mac own (w.found g path) := by
  unfold Nm.found
  split
  · exact known_stopDone h _
  · exact h.call trivial (fun x waiter heq => by cases heq; exact .inr ⟨g, rfl, hpath⟩)

theorem known_check {paths : List Str} (hpaths : Listed g paths w.log) :
    Known mac own (w.check g paths) := by
  refine h.guard ?_
  cases paths with
  | nil => exact known_stopDone h _
  | cons head rest => exact h.call hpaths (justified_call rfl)

/-- A profile that `_pan_profile` takes is learned. -/
theorem learned_of_panProfile {head : Str} {rest : List Str} {s : Settings} {uuid : Str} {stamp : Int}
    (hoffered : Offered mac [head] w.log)
    (hanswer : .answer (.settings g head rest accepted) (.settings s) ∈ w.log)
    (hpan : w.panProfile s = some (uuid, stamp)) : Learned mac uuid w.log := by
  unfold Nm.panProfile at hpan
  by_cases htype : s.connectionType ≠ "bluetooth".toList
  · rw [if_pos htype] at hpan
    nomatch hpan
  rw [if_neg htype] at hpan
  by_cases hpanu : s.bluetoothType ≠ "panu".toList
  · rw [if_pos hpanu] at hpan
    nomatch hpan
  rw [if_neg hpanu] at hpan
  by_cases haddress : s.bdaddr.any (fun address => !w.samePhone address) = true
  · rw [if_pos haddress] at hpan
    nomatch hpan
  rw [if_neg haddress] at hpan
  by_cases hempty : s.uuid = []
  · rw [if_pos hempty] at hpan
    nomatch hpan
  rw [if_neg hempty] at hpan
  have huuid : s.uuid = uuid := congrArg Prod.fst (Option.some.inj hpan)
  refine ⟨g, head, rest, accepted, s, hoffered, hanswer, huuid, not_not.mp htype, not_not.mp hpanu, ?_⟩
  intro address hsome
  rw [hsome] at haddress
  apply h.samePhone
  simpa using haddress

/-- A pending call is taken off, and its answer is known. -/
theorem Known.take {n : Nat} (hn : w.pending[n]? = some c) (r : Reply) :
    Known mac own { w with pending := w.pending.eraseIdx n, log := .answer c r :: w.log } ∧
      Backed mac (.answer c r :: w.log) c := by
  have hnoted : Known mac own { w with log := .answer c r :: w.log } :=
    h.noted (fun _ => Entry.noConfusion)
  exact ⟨{ hnoted with pending := fun x hx => hnoted.pending x (List.mem_of_mem_eraseIdx hx) },
    hnoted.pending c (List.mem_of_getElem? hn)⟩

/-- What an answer leads to goes by that answer and by what the call held. -/
theorem known_answered {r : Reply} (hr : Answers c r = true)
    (hc : Backed mac w.log c) (hanswer : .answer c r ∈ w.log) : Known mac own (w.answered c r) := by
  cases c with
  | allDevices g =>
    cases r with
    | paths paths => exact known_scanDevices h _
    | error name => exact known_resolved h none
    | _ => cases hr
  | device g head rest =>
    cases r with
    | device deviceType available =>
      refine h.guard ?_
      split
      · exact known_scanDevices h rest
      · exact h.plainCall (fun _ => trivial) rfl
    | error name => exact known_scanDevices h rest
    | _ => cases hr
  | hwAddress g device available rest =>
    cases r with
    | text address =>
      refine h.guard ?_
      by_cases hsame : w.samePhone address = true
      · rw [if_pos hsame]
        have hoffered : Offered mac (available.take maxProfileCandidates) w.log :=
          ⟨g, device, available, rest, address, hanswer, h.samePhone hsame,
            fun path hpath => List.mem_of_mem_take hpath⟩
        exact known_inspect h hoffered nofun
      · rw [if_neg hsame]
        exact known_scanDevices h rest
    | error name => exact known_scanDevices h rest
    | _ => cases hr
  | settings g head rest accepted =>
    obtain ⟨hoffered, haccepted⟩ := hc
    cases r with
    | settings s =>
      refine h.guard ?_
      apply known_inspect h hoffered.others
      cases hpan : w.panProfile s with
      | none => exact haccepted
      | some profile =>
        obtain ⟨uuid, stamp⟩ := profile
        intro entry hentry
        rcases List.mem_append.mp hentry with hentry | hentry
        · exact haccepted entry hentry
        rw [List.mem_singleton.mp hentry]
        exact learned_of_panProfile h hoffered.first hanswer hpan
    | error name => exact known_inspect h hoffered.others haccepted
    | _ => cases hr
  | byUuid g =>
    cases r with
    | path profile => exact known_activate h profile
    | error name =>
      refine h.guard ?_
      split
      · exact h.plainCall (fun _ => trivial) rfl
      · exact known_fail h name
    | _ => cases hr
  | addConnection g =>
    cases r with
    | path profile => exact known_activate h profile
    | error name => exact known_fail h name
    | _ => cases hr
  | activate g profile =>
    cases r with
    | path path => exact known_activated h ⟨g, profile, hanswer⟩
    | error name => exact known_fail h name
    | _ => cases hr
  | state g path =>
    cases r with
    | state value => exact known_observe h value (-1)
    | error name => exact h
    | _ => cases hr
  | devices g path =>
    cases r with
    | paths paths =>
      refine h.guard ?_
      cases paths with
      | nil => exact known_report h []
      | cons device rest => exact h.plainCall (fun _ => trivial) rfl
    | error name => exact known_report h []
    | _ => cases hr
  | ipInterface g device =>
    cases r with
    | text interface => exact known_report h interface
    | error name => exact known_report h []
    | _ => cases hr
  | activeConnections g =>
    cases r with
    | paths paths =>
      have hlisted : Listed g (paths.take 64) w.log :=
        ⟨hc, paths, hanswer, fun path hpath => List.mem_of_mem_take hpath⟩
      exact known_check h hlisted
    | error name =>
      exact h.guard (known_stopFailed h _ _)
    | _ => cases hr
  | active g head rest =>
    cases r with
    | active value =>
      refine h.guard ?_
      by_cases huuid : value.uuid ∈ w.profileUuids
      · rw [if_pos huuid]
        exact known_found h ⟨hc.first, .inl ⟨rest, value, hanswer, h.uuids _ huuid⟩⟩
      rw [if_neg huuid]
      cases hdevices : value.devices with
      | nil => exact known_check h hc.others
      | cons device devices =>
        dsimp only
        by_cases htype : value.connectionType ≠ "bluetooth".toList
        · rw [if_pos htype]
          exact known_check h hc.others
        rw [if_neg htype]
        have hruns : Runs g device head rest w.log :=
          ⟨value, devices, hanswer, hdevices, not_not.mp htype⟩
        exact h.call ⟨hc, hruns⟩ (justified_call rfl)
    | error name => exact known_check h hc.others
    | _ => cases hr
  | activeAddress g device head rest =>
    obtain ⟨hlisted, hruns⟩ := hc
    cases r with
    | text address =>
      refine h.guard ?_
      by_cases hsame : w.samePhone address = true
      · rw [if_pos hsame]
        have hfound : Searched mac own g head w.log :=
          ⟨hlisted.first, .inr ⟨device, rest, address, hruns, hanswer, h.samePhone hsame⟩⟩
        exact known_found h hfound
      · rw [if_neg hsame]
        exact known_check h hlisted.others
    | error name => exact known_check h hlisted.others
    | _ => cases hr
  | deactivate path waiter =>
    cases r with
    | done => exact known_stopDone h waiter
    | error name =>
      unfold Nm.answered
      dsimp only
      split
      · exact known_stopDone h waiter
      · exact known_stopFailed h waiter _
    | _ => cases hr

/-- A method is called. -/
theorem Known.supersede (entry : Nat → Entry) (hentry : ∀ n c, entry n ≠ .call c) :
    Known mac own (w.supersede entry) :=
  { h.noted (hentry (w.generation + 1)) with }

theorem known_connect : Known mac own w.connect := by
  have h := h.supersede .connect (fun _ _ => Entry.noConfusion)
  exact h.plainCall (fun _ => trivial) rfl

/-- A stop takes down what was granted, or searches. -/
theorem known_disconnect : Known mac own w.disconnect := by
  have hnew := h.supersede .disconnect (fun _ _ => Entry.noConfusion)
  unfold Nm.disconnect
  cases hpath : w.activePath with
  | none => exact hnew.call (.head _) (justified_call rfl)
  | some path =>
    have hgranted : Granted path (w.supersede .disconnect).log := hnew.active path hpath
    have hnew : Known mac own { w.supersede .disconnect with activePath := none } :=
      { hnew with active := fun _ hsome => (nomatch hsome) }
    exact hnew.call trivial (fun x waiter heq => by cases heq; exact .inl hgranted)

theorem known_step (i : Input) : Known mac own (step w i) := by
  cases i with
  | connect => exact known_connect h
  | disconnect => exact known_disconnect h
  | cancel => exact h.supersede .cancel (fun _ _ => Entry.noConfusion)
  | stateChanged g state reason => exact known_observe h state reason
  | answer n r =>
    unfold step
    dsimp only
    cases hn : w.pending[n]? with
    | none => exact h
    | some c =>
      dsimp only
      by_cases hr : Answers c r = true
      · rw [if_pos hr]
        obtain ⟨htaken, hbacked⟩ := h.take hn r
        exact known_answered htaken hr hbacked (.head _)
      · rw [if_neg hr]
        exact h

end

end Keeps

/-! ## Runs -/

theorem known_init (mac own : Str) : Known mac own (Nm.init mac own) :=
  ⟨rfl, rfl, fun _ hpath => (nomatch hpath), fun _ huuid => .inl (List.mem_singleton.mp huuid),
    fun _ hc => (nomatch hc), trivial⟩

/-- **In every run, each connection that is taken down was granted, or found by the search of a stop.** -/
theorem known_run (mac own : Str) (inputs : List Input) :
    Known mac own (Machine.run step (Nm.init mac own) inputs) :=
  Machine.always step (P := Known mac own) (fun _ i h => known_step h i) inputs (known_init mac own)

/-- A connection is up and goes down again before its interface is known. -/
def lostWhileRead : List Input :=
  [.connect, .answer 0 (.error []), .answer 0 (.path "/profile".toList),
    .answer 0 (.path "/active".toList), .stateChanged 1 2 0, .stateChanged 1 4 0,
    .answer 1 (.error [])]

/-- A profile of the phone's device names no address; another device then runs under it. -/
def namesNobody : List Input :=
  [.connect, .answer 0 (.paths ["/dev".toList]), .answer 0 (.device 5 ["/profile".toList]),
    .answer 0 (.text "AA".toList),
    .answer 0 (.settings ⟨"bluetooth".toList, "panu".toList, none, "u".toList, 0⟩),
    .answer 0 (.error []), .disconnect, .answer 0 (.paths ["/other".toList]),
    .answer 0 (.active ⟨"u".toList, "bluetooth".toList, ["/dev2".toList]⟩)]

/-- The entry grants a connection, says the address that an active one runs on, or the address of a
profile. -/
def Entry.tellsOfPhone : Entry → Bool
  | .answer (.activate _ _) (.path _) => true
  | .answer (.activeAddress _ _ _ _) (.text _) => true
  | .answer (.settings _ _ _ _) (.settings s) => s.bdaddr.isSome
  | _ => false

end BlueFerry.NmTether
