import BlueFerry.Dbus.CallerGuard

/-! # What the quotas of the bus API bound

A run of the guard is a list of calls, of `forget()` calls and of signals from the bus, each with
the reading of the clock. Its log holds the accepted calls and what was forgotten.

The guard's queue for a key holds an end of the accepted calls that the key counts (`Accounted`):
for the whole service those are all of an action, for a connection those since it was last
forgotten. So no window of either holds more than its rule allows (`windows_limited`).
-/

namespace BlueFerry.Dbus

/-! ## Runs -/

inductive Event where
  | call (sender : Option String) (action : String) (answer : Option Credentials)
  | forget (sender : String)
  | nameOwnerChanged (name oldOwner newOwner : String)
  deriving DecidableEq

/-- What happens next, and the clock's reading. -/
structure Input where
  time : ℚ
  event : Event
  deriving DecidableEq

/-- What a run leaves in its log. -/
inductive Entry where
  | accepted (caller action : String) (time : ℚ)
  | forgotten (name : String)
  deriving DecidableEq

/-- The guard, the last reading of the clock, and the log, oldest first. -/
structure World where
  guard : CallerGuard
  now : ℚ
  log : List Entry

def World.start (expectedUid : Int) (now : ℚ) : World := ⟨.fresh expectedUid, now, []⟩

def step (w : World) (i : Input) : World :=
  match i.event with
  | .call sender action answer =>
    match w.guard.authorize sender action answer i.time with
    | (guard, .ok ()) => ⟨guard, i.time, w.log ++ [.accepted (sender.getD "") action i.time]⟩
    | (guard, .error _) => ⟨guard, i.time, w.log⟩
  | .forget sender => ⟨w.guard.forget sender, i.time, w.log ++ [.forgotten sender]⟩
  | .nameOwnerChanged name oldOwner newOwner =>
    if isConnection name ∧ oldOwner ≠ "" ∧ newOwner = "" then
      ⟨w.guard.nameOwnerChanged name oldOwner newOwner, i.time, w.log ++ [.forgotten name]⟩
    else ⟨w.guard.nameOwnerChanged name oldOwner newOwner, i.time, w.log⟩

/-- The clock does not go back. -/
def OnTime (w : World) (i : Input) : Prop := w.now ≤ i.time

/-- A `forget()` call is about a connection, as it is where the guard itself makes one. -/
def ForgetsConnection (i : Input) : Prop :=
  match i.event with
  | .call _ _ _ => True
  | .forget sender => isConnection sender = true
  | .nameOwnerChanged _ _ _ => True

/-- When the calls of an action were accepted, from anyone. -/
def acceptedOf (action : String) (log : List Entry) : List ℚ :=
  log.filterMap fun
    | .accepted _ action' time => if action' = action then some time else none
    | .forgotten _ => none

/-- When the calls of an action were accepted from a caller. -/
def acceptedFrom (caller action : String) (log : List Entry) : List ℚ :=
  log.filterMap fun
    | .accepted caller' action' time =>
      if caller' = caller ∧ action' = action then some time else none
    | .forgotten _ => none

/-- The log after a name was last forgotten. -/
def sinceForgotten (name : String) (log : List Entry) : List Entry :=
  log.foldl (fun after entry => if entry = .forgotten name then [] else after ++ [entry]) []

instance (w : World) (i : Input) : Decidable (OnTime w i) := inferInstanceAs (Decidable (_ ≤ _))

/-! ## What a call does to the queues -/

/-- Some of the oldest times of a queue may be gone, all of them too old. -/
def Pruned (now : ℚ) (before after : Key → List ℚ) : Prop :=
  ∀ key, after key = before key ∨ after key = Window.prune key.seconds now (before key)

variable {guard guard' : CallerGuard} {sender action : String}

variable {now time : ℚ} {rule : RateRule} {times : List ℚ} {w : World}

theorem checkRates_error {denied : Denied}
    (h : guard.checkRates sender action now = (guard', .error denied)) :
    Pruned now guard.attempts guard'.attempts := by
  unfold CallerGuard.checkRates at h
  split at h
  · cases h
    exact fun _ => Or.inl rfl
  rename_i rules hrules
  dsimp only at h
  split at h
  · rename_i attempts hcheck
    cases h
    intro key
    have hkey := checkWindows_pruned action now (scopedRules sender action rules) guard.attempts key
    rw [hcheck] at hkey
    exact hkey
  · cases h

theorem checkRates_ok (h : guard.checkRates sender action now = (guard', .ok ())) :
    ∃ rules pruned, rulesOf action = some rules ∧
      checkWindows action now (scopedRules sender action rules) guard.attempts = (pruned, true) ∧
      guard'.attempts = charge action now (scopedRules sender action rules) pruned := by
  unfold CallerGuard.checkRates at h
  split at h
  · cases h
  rename_i rules hrules
  dsimp only at h
  split at h
  · cases h
  rename_i attempts hcheck
  cases h
  exact ⟨rules, attempts, hrules, hcheck, rfl⟩

/-- A rejected call only drops what was too old anyway. -/
theorem authorize_error {sender : Option String} {answer : Option Credentials}
    {denied : Denied} (h : guard.authorize sender action answer now = (guard', .error denied)) :
    Pruned now guard.attempts guard'.attempts := by
  unfold CallerGuard.authorize at h
  dsimp only at h
  split at h
  · cases h
    exact fun _ => Or.inl rfl
  split at h
  · cases h
    exact fun _ => Or.inl rfl
  split at h
  · cases h
    exact fun _ => Or.inl rfl
  split at h
  · cases h
    exact fun _ => Or.inl rfl
  have hrates := checkRates_error h
  exact hrates

/-- An accepted call comes from a connection, found room in every window, and is charged to all. -/
theorem authorize_ok {sender : Option String} {answer : Option Credentials}
    (h : guard.authorize sender action answer now = (guard', .ok ())) :
    isConnection (sender.getD "") = true ∧ ∃ rules pruned, rulesOf action = some rules ∧
      checkWindows action now (scopedRules (sender.getD "") action rules) guard.attempts =
        (pruned, true) ∧
      guard'.attempts = charge action now (scopedRules (sender.getD "") action rules) pruned := by
  unfold CallerGuard.authorize at h
  dsimp only at h
  split at h
  · cases h
  rename_i hconnection
  refine ⟨by simpa using hconnection, ?_⟩
  split at h
  · cases h
  split at h
  · cases h
  split at h
  · cases h
  have hrates := checkRates_ok h
  exact hrates

theorem connection_ne_everyone {name : String} (h : isConnection name = true) :
    name ≠ everyone := by
  rintro rfl
  exact absurd h (by decide +kernel)

/-! ## What a log counts -/

theorem acceptedOf_append (action : String) (log more : List Entry) :
    acceptedOf action (log ++ more) = acceptedOf action log ++ acceptedOf action more :=
  List.filterMap_append

theorem acceptedFrom_append (caller action : String) (log more : List Entry) :
    acceptedFrom caller action (log ++ more) =
      acceptedFrom caller action log ++ acceptedFrom caller action more :=
  List.filterMap_append

theorem sinceForgotten_append (name : String) (log : List Entry) (entry : Entry) :
    sinceForgotten name (log ++ [entry]) =
      if entry = .forgotten name then [] else sinceForgotten name log ++ [entry] := by
  rw [sinceForgotten, List.foldl_append]
  rfl

/-- What a connection is charged for when an entry is added. -/
theorem charged_accepted (name action caller action' : String) (time : ℚ) (log : List Entry) :
    acceptedFrom name action (sinceForgotten name (log ++ [.accepted caller action' time])) =
      acceptedFrom name action (sinceForgotten name log) ++
        (if caller = name ∧ action' = action then [time] else []) := by
  rw [sinceForgotten_append, if_neg (by simp), acceptedFrom_append]
  by_cases h : caller = name ∧ action' = action
  · rw [if_pos h]
    simp [acceptedFrom, h]
  rw [if_neg h]
  simp [acceptedFrom, h]

theorem charged_forgotten (name action other : String) (log : List Entry) :
    acceptedFrom name action (sinceForgotten name (log ++ [.forgotten other])) =
      if other = name then [] else acceptedFrom name action (sinceForgotten name log) := by
  rw [sinceForgotten_append]
  by_cases h : other = name
  · rw [if_pos h, if_pos (congrArg Entry.forgotten h)]
    rfl
  rw [if_neg h, if_neg (fun heq => h (Entry.forgotten.inj heq)), acceptedFrom_append]
  simp [acceptedFrom]

/-! ## The invariant -/

/-- A queue holds an end of the times it counts, and those keep to the rule. -/
structure Fits (now : ℚ) (rule : RateRule) (kept times : List ℚ) : Prop where
  keeps : Window.Keeps rule.seconds now kept times
  limited : Window.Limited rule.attempts rule.seconds times

theorem Fits.nil (now : ℚ) (rule : RateRule) : Fits now rule [] [] :=
  ⟨Window.keeps_self _ _ _, Window.limited_nil _ _⟩

theorem Fits.later {now' : ℚ} {kept : List ℚ}
    (h : Fits now rule kept times) (hnow : now ≤ now') : Fits now' rule kept times :=
  ⟨h.keeps.later hnow, h.limited⟩

theorem Fits.pruned {scope : String}
    {before after : Key → List ℚ} (hpruned : Pruned now before after)
    (h : Fits now rule (before ⟨scope, action, rule.seconds⟩) times) :
    Fits now rule (after ⟨scope, action, rule.seconds⟩) times := by
  refine ⟨?_, h.limited⟩
  rcases hpruned ⟨scope, action, rule.seconds⟩ with hkey | hkey
  · rw [hkey]
    exact h.keeps
  rw [hkey]
  exact h.keeps.prune

theorem Fits.add {kept : List ℚ} (h : Fits now rule kept times)
    (hroom : kept.length < rule.attempts) : Fits now rule (kept ++ [now]) (times ++ [now]) :=
  ⟨h.keeps.add now, h.limited.add h.keeps hroom⟩

/-- Every queue against what it counts: the calls of an action from anyone, and those of a
connection since it was last forgotten. -/
structure Accounted (w : World) : Prop where
  service : ∀ action rules, rulesOf action = some rules → ∀ rule ∈ globalRulesOf action rules,
    Fits w.now rule (w.guard.attempts ⟨everyone, action, rule.seconds⟩) (acceptedOf action w.log)
  connection : ∀ action rules, rulesOf action = some rules → ∀ rule ∈ rules,
    ∀ name, isConnection name = true →
      Fits w.now rule (w.guard.attempts ⟨name, action, rule.seconds⟩)
        (acceptedFrom name action (sinceForgotten name w.log))

theorem accounted_start (expectedUid : Int) (now : ℚ) : Accounted (.start expectedUid now) where
  service := fun _ _ _ rule _ => Fits.nil now rule
  connection := fun _ _ _ rule _ _ _ => Fits.nil now rule

/-- A rejected call keeps the accounts. -/
theorem Accounted.rejected (h : Accounted w) (htime : w.now ≤ time)
    (hpruned : Pruned time w.guard.attempts guard.attempts) : Accounted ⟨guard, time, w.log⟩ where
  service := fun action rules hrules rule hrule =>
    ((h.service action rules hrules rule hrule).later htime).pruned hpruned
  connection := fun action rules hrules rule hrule name hname =>
    ((h.connection action rules hrules rule hrule name hname).later htime).pruned hpruned

/-- An accepted call keeps the accounts: each window it is charged to had room for it. -/
theorem Accounted.charged (h : Accounted w) (htime : w.now ≤ time)
    {caller : String} (hcaller : isConnection caller = true) {rules : List RateRule}
    (hrules : rulesOf action = some rules) {pruned : Key → List ℚ}
    (hcheck : checkWindows action time (scopedRules caller action rules) w.guard.attempts =
      (pruned, true))
    (hguard : guard.attempts = charge action time (scopedRules caller action rules) pruned) :
    Accounted ⟨guard, time, w.log ++ [.accepted caller action time]⟩ := by
  have hpruned : Pruned time w.guard.attempts pruned := by
    intro key
    have hkey := checkWindows_pruned action time (scopedRules caller action rules)
      w.guard.attempts key
    rw [hcheck] at hkey
    exact hkey
  have hkeep : Accounted ⟨⟨guard.expectedUid, guard.credentials, pruned⟩, time, w.log⟩ :=
    h.rejected htime hpruned
  have happly := charge_apply action time
    (scoped_nodup (connection_ne_everyone hcaller) hrules) pruned
  constructor
  · intro action' rules' hrules' rule hrule
    have hfits := hkeep.service action' rules' hrules' rule hrule
    rw [hguard, happly, acceptedOf_append]
    by_cases haction : action' = action
    · subst haction
      cases hrules.symm.trans hrules'
      have hmem : (everyone, rule) ∈ scopedRules caller action' rules :=
        List.mem_append_right _ (List.mem_map_of_mem hrule)
      have hin := List.mem_map_of_mem (f := fun entry => (entry.1, entry.2.seconds)) hmem
      rw [if_pos ⟨rfl, hin⟩]
      have hnew : acceptedOf action' [.accepted caller action' time] = [time] := by
        simp [acceptedOf]
      rw [hnew]
      exact hfits.add (checkWindows_room hcheck hmem)
    · have hnew : acceptedOf action' [.accepted caller action time] = [] := by
        simp [acceptedOf, Ne.symm haction]
      rw [if_neg (fun hin => haction hin.1), hnew, List.append_nil]
      exact hfits
  · intro action' rules' hrules' rule hrule name hname
    have hfits := hkeep.connection action' rules' hrules' rule hrule name hname
    rw [hguard, happly, charged_accepted]
    by_cases hsame : caller = name ∧ action = action'
    · obtain ⟨rfl, rfl⟩ := hsame
      cases hrules.symm.trans hrules'
      have hmem : (caller, rule) ∈ scopedRules caller action rules :=
        List.mem_append_left _ (List.mem_map_of_mem hrule)
      have hin := List.mem_map_of_mem (f := fun entry => (entry.1, entry.2.seconds)) hmem
      rw [if_pos ⟨rfl, hin⟩, if_pos ⟨rfl, rfl⟩]
      exact hfits.add (checkWindows_room hcheck hmem)
    -- the windows charged are those of the caller and of the whole service, for this action
    have hout : ¬ (action' = action ∧ (name, rule.seconds) ∈
        (scopedRules caller action rules).map (fun entry => (entry.1, entry.2.seconds))) := by
      rintro ⟨rfl, hin⟩
      obtain ⟨entry, hentry, hpair⟩ := List.mem_map.mp hin
      have hscope : entry.1 = name := congrArg Prod.fst hpair
      rcases List.mem_append.mp hentry with hentry | hentry
      · obtain ⟨_, _, rfl⟩ := List.mem_map.mp hentry
        exact hsame ⟨hscope, rfl⟩
      obtain ⟨_, _, rfl⟩ := List.mem_map.mp hentry
      exact connection_ne_everyone hname hscope.symm
    rw [if_neg hout, if_neg hsame, List.append_nil]
    exact hfits

/-- To forget a connection empties its own queues and no other. -/
theorem Accounted.forget (h : Accounted w) (htime : w.now ≤ time)
    (hsender : isConnection sender = true) :
    Accounted ⟨w.guard.forget sender, time, w.log ++ [.forgotten sender]⟩ := by
  constructor
  · intro action rules hrules rule hrule
    have hnew : acceptedOf action [.forgotten sender] = [] := rfl
    have hkey : (w.guard.forget sender).attempts ⟨everyone, action, rule.seconds⟩ =
        w.guard.attempts ⟨everyone, action, rule.seconds⟩ :=
      if_neg (fun heq => connection_ne_everyone hsender heq.symm)
    rw [acceptedOf_append, hnew, List.append_nil, hkey]
    exact (h.service action rules hrules rule hrule).later htime
  intro action rules hrules rule hrule name hname
  rw [charged_forgotten]
  by_cases heq : sender = name
  · have hkey : (w.guard.forget sender).attempts ⟨name, action, rule.seconds⟩ = [] :=
      if_pos heq.symm
    rw [if_pos heq, hkey]
    exact Fits.nil time rule
  have hkey : (w.guard.forget sender).attempts ⟨name, action, rule.seconds⟩ =
      w.guard.attempts ⟨name, action, rule.seconds⟩ := if_neg (fun h => heq h.symm)
  rw [if_neg heq, hkey]
  exact (h.connection action rules hrules rule hrule name hname).later htime

/-- **The accounts are kept by every step.** -/
theorem accounted_step (w : World) (i : Input) (hok : OnTime w i ∧ ForgetsConnection i)
    (h : Accounted w) : Accounted (step w i) := by
  rcases i with ⟨time, event⟩
  obtain ⟨htime, hforget⟩ := hok
  cases event with
  | call sender action answer =>
    rw [step]
    dsimp only
    split
    · rename_i guard hcall
      obtain ⟨hcaller, rules, pruned, hrules, hcheck, hguard⟩ := authorize_ok hcall
      exact h.charged htime hcaller hrules hcheck hguard
    · rename_i guard denied hcall
      exact h.rejected htime (authorize_error hcall)
  | forget sender => exact h.forget htime hforget
  | nameOwnerChanged name oldOwner newOwner =>
    rw [step]
    dsimp only
    split
    · rename_i hgone
      rw [CallerGuard.nameOwnerChanged, if_pos hgone]
      exact h.forget htime hgone.1
    · rename_i hstays
      rw [CallerGuard.nameOwnerChanged, if_neg hstays]
      exact h.rejected htime (fun _ => Or.inl rfl)

/-! ## The bounds -/

/-- A guard accepts, in every half-open window of a rule, no more calls of an action than the whole
service may make, and no more from a connection since it was last forgotten than it may make. -/
def WithinQuotas (log : List Entry) : Prop :=
  ∀ action rules, rulesOf action = some rules →
    (∀ rule ∈ globalRulesOf action rules,
      Window.Limited rule.attempts rule.seconds (acceptedOf action log)) ∧
    ∀ name, isConnection name = true → ∀ rule ∈ rules,
      Window.Limited rule.attempts rule.seconds
        (acceptedFrom name action (sinceForgotten name log))

/-- A rejected call changes nothing that a later decision counts. -/
def RejectionKeepsCounts (guard : CallerGuard) : Prop :=
  ∀ sender action answer now guard' denied,
    guard.authorize sender action answer now = (guard', .error denied) →
    ∀ key later, now ≤ later →
      Window.prune key.seconds later (guard'.attempts key) =
        Window.prune key.seconds later (guard.attempts key)

theorem rejection_keeps_counts (guard : CallerGuard) : RejectionKeepsCounts guard := by
  intro sender action answer now guard' denied h key later hlater
  rcases authorize_error h key with hkey | hkey
  · rw [hkey]
  · rw [hkey, Window.prune_prune hlater]

/-- **The quotas bound every run.** -/
theorem windows_limited (expectedUid : Int) (now : ℚ) (inputs : List Input)
    (hok : Machine.Along step (fun w i => OnTime w i ∧ ForgetsConnection i)
      (.start expectedUid now) inputs) :
    WithinQuotas (Machine.run step (.start expectedUid now) inputs).log ∧
      RejectionKeepsCounts (Machine.run step (.start expectedUid now) inputs).guard := by
  have h : Accounted (Machine.run step (.start expectedUid now) inputs) :=
    Machine.invariant step accounted_step hok (accounted_start expectedUid now)
  refine ⟨fun action rules hrules => ⟨?_, ?_⟩, rejection_keeps_counts _⟩
  · intro rule hrule
    exact (h.service action rules hrules rule hrule).limited
  · intro name hname rule hrule
    exact (h.connection action rules hrules rule hrule name hname).limited

/-! ## Where the plain reading fails -/

instance (i : Input) : Decidable (ForgetsConnection i) := by
  unfold ForgetsConnection
  split <;> infer_instance

/-- The user that the guard expects. -/
def ownUser : Option Credentials := some ⟨some 1000⟩

/-- A call of the guard's own user. -/
def callAt (time : ℚ) (caller action : String) : Input :=
  ⟨time, .call (some caller) action ownUser⟩

/-- A connection fetches as many photos as it may, is forgotten, and fetches one more. -/
def photosAcrossForget : List Input :=
  List.replicate 120 (callAt 0 ":1.7" "contact-photo") ++
    [⟨0, .forget ":1.7"⟩, callAt 0 ":1.7" "contact-photo"]

/-- The windows of the whole service are forgotten under their own name. -/
def unlockAcrossForget : List Input :=
  List.replicate 6 (callAt 0 ":1.7" "unlock") ++ [⟨0, .forget "*"⟩, callAt 0 ":1.8" "unlock"]

/-- The seventh call comes exactly when the first is ten minutes old. -/
def unlockAtTheEdge : List Input :=
  List.replicate 6 (callAt 0 ":1.7" "unlock") ++ [callAt 600 ":1.7" "unlock"]

theorem windows_limited_photos :
    WithinQuotas (Machine.run step (.start 1000 0) photosAcrossForget).log ∧
      RejectionKeepsCounts (Machine.run step (.start 1000 0) photosAcrossForget).guard :=
  windows_limited 1000 0 photosAcrossForget (by decide +kernel)

/-- The quotas of a connection over all of its calls, whatever was forgotten. -/
def WithinPlainQuotas (log : List Entry) : Prop :=
  ∀ action rules, rulesOf action = some rules →
    (∀ rule ∈ globalRulesOf action rules,
      Window.Limited rule.attempts rule.seconds (acceptedOf action log)) ∧
    ∀ name, isConnection name = true → ∀ rule ∈ rules,
      Window.Limited rule.attempts rule.seconds (acceptedFrom name action log)

/-- A forgotten connection starts afresh; so would the service, if its own name were forgotten; and
a window that holds both of its ends may hold one call more. -/
theorem forgotten_start_afresh :
    ¬ WithinPlainQuotas (Machine.run step (.start 1000 0) photosAcrossForget).log ∧
      ¬ WithinPlainQuotas (Machine.run step (.start 1000 0) unlockAcrossForget).log ∧
      rulesOf "unlock" = some [⟨6, 600⟩] ∧
      acceptedOf "unlock" (Machine.run step (.start 1000 0) unlockAtTheEdge).log =
        [0, 0, 0, 0, 0, 0, 600] := by
  refine ⟨fun h => ?_, fun h => ?_, by decide +kernel, by decide +kernel⟩
  · have hphotos := (h "contact-photo" [⟨120, 60⟩, ⟨1200, 3600⟩] (by decide +kernel)).2 ":1.7"
      (by decide +kernel) ⟨120, 60⟩ (by decide) 0
    exact absurd hphotos (by decide +kernel)
  · have hunlock := (h "unlock" [⟨6, 600⟩] (by decide +kernel)).1 ⟨6, 600⟩ (by decide +kernel) 0
    exact absurd hunlock (by decide +kernel)

end BlueFerry.Dbus
