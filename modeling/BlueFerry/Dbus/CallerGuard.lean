import BlueFerry.Lib.Machine
import BlueFerry.Lib.Window
import BlueFerry.Text.Basic

/-! # The guard of the session-bus API

`dbus_security.py`: a caller is let through when the bus vouches for its user and neither its own
quota nor the one of the whole service is used up. Times are seconds, as rational numbers, and the
answer of the bus to a question for credentials is an input of the call that asks.
-/

namespace BlueFerry.Dbus

/-! ## The rules -/

/-- `RateRule`. -/
structure RateRule where
  attempts : Nat
  seconds : ℚ
  deriving DecidableEq

/-- `_RULES`: the windows of one caller. -/
def callerRules : List (String × List RateRule) := [
  ("status", [⟨600, 60⟩]),
  ("read", [⟨240, 60⟩]),
  ("contact-photo", [⟨120, 60⟩, ⟨1200, 3600⟩]),
  ("send", [⟨30, 60⟩, ⟨200, 3600⟩]),
  ("contact-sync", [⟨6, 600⟩, ⟨20, 3600⟩]),
  ("call-history-sync", [⟨12, 600⟩, ⟨60, 3600⟩]),
  ("settings", [⟨30, 60⟩]),
  ("notification-click", [⟨30, 60⟩, ⟨300, 3600⟩]),
  ("conversation-delete", [⟨60, 60⟩, ⟨500, 3600⟩]),
  ("destructive", [⟨6, 600⟩]),
  ("unlock", [⟨6, 600⟩]),
  ("media-read", [⟨600, 60⟩]),
  ("media-command", [⟨60, 60⟩, ⟨1200, 3600⟩]),
  ("calls-dial", [⟨6, 60⟩, ⟨60, 3600⟩]),
  ("calls-answer", [⟨10, 60⟩, ⟨120, 3600⟩]),
  ("calls-control", [⟨60, 60⟩, ⟨600, 3600⟩]),
  ("calls-hangup", [⟨60, 60⟩, ⟨600, 3600⟩]),
  ("tether", [⟨10, 60⟩, ⟨60, 3600⟩]),
  ("audio-route", [⟨20, 60⟩, ⟨120, 3600⟩]),
  ("notifications-read", [⟨240, 60⟩]),
  ("notifications-pin", [⟨30, 60⟩, ⟨300, 3600⟩]),
  ("feature", [⟨20, 60⟩, ⟨120, 3600⟩]),
  ("reconnect", [⟨6, 60⟩, ⟨60, 3600⟩])]

/-- `_GLOBAL_RULES`: the windows of the whole service, where they differ from those of a caller. -/
def globalRules : List (String × List RateRule) := [
  ("contact-photo", [⟨600, 60⟩, ⟨6000, 3600⟩])]

/-- `_RULES.get(action)`. -/
def rulesOf (action : String) : Option (List RateRule) := callerRules.lookup action

/-- `_GLOBAL_RULES.get(action, rules)`. -/
def globalRulesOf (action : String) (rules : List RateRule) : List RateRule :=
  (globalRules.lookup action).getD rules

/-- No action has two windows of one length, in either table. -/
theorem lengths_nodup :
    (∀ entry ∈ callerRules, (entry.2.map RateRule.seconds).Nodup) ∧
      ∀ entry ∈ globalRules, (entry.2.map RateRule.seconds).Nodup := by
  decide +kernel

/-! ## The guard -/

/-- `(scope, action, rule.seconds)`; the scope is the name of a connection, or `*`. -/
structure Key where
  scope : String
  action : String
  seconds : ℚ
  deriving DecidableEq

/-- The scope of the windows of the whole service. -/
def everyone : String := "*"

/-- What is read of `GetConnectionCredentials`: `int(credentials["UnixUserID"])`, or `none` where
that raises. -/
structure Credentials where
  unixUserId : Option Int
  deriving DecidableEq

/-- `CallerGuard`: its fields, with an empty queue for a key that has none. -/
structure CallerGuard where
  expectedUid : Int
  credentials : String → Option Credentials
  attempts : Key → List ℚ

/-- A guard as it is made. -/
def CallerGuard.fresh (expectedUid : Int) : CallerGuard where
  expectedUid := expectedUid
  credentials := fun _ => none
  attempts := fun _ => []

/-- What `authorize` raises. -/
inductive Denied where
  | noIdentity
  | unverified
  | noUid
  | otherUid
  | unknownAction (action : String)
  | tooMany
  deriving DecidableEq

def Denied.message : Denied → String
  | noIdentity => "D-Bus caller identity is unavailable"
  | unverified => "D-Bus caller credentials could not be verified"
  | noUid => "D-Bus caller has no verified Unix UID"
  | otherUid => "D-Bus caller is not authorized"
  | unknownAction action => "unknown D-Bus authorization action: " ++ action
  | tooMany => "please wait a moment, then try again"

/-- A unique name of the bus. -/
def isConnection (name : String) : Bool := name.startsWith ":"

section

variable (guard : CallerGuard)

/-- `forget(sender)`. -/
def CallerGuard.forget (sender : String) : CallerGuard :=
  { guard with
    credentials := Function.update guard.credentials sender none
    attempts := fun key => if key.scope = sender then [] else guard.attempts key }

/-- `_name_owner_changed`. -/
def CallerGuard.nameOwnerChanged (name oldOwner newOwner : String) : CallerGuard :=
  if isConnection name ∧ oldOwner ≠ "" ∧ newOwner = "" then guard.forget name else guard

/-- `scoped` of `_check_rates`: every rule with the scope it is counted in. -/
def scopedRules (sender action : String) (rules : List RateRule) : List (String × RateRule) :=
  rules.map (fun rule => (sender, rule)) ++
    (globalRulesOf action rules).map (fun rule => (everyone, rule))

/-- The first loop of `_check_rates`: drop what is too old, and stop at a window that is full. -/
def checkWindows (action : String) (now : ℚ) :
    List (String × RateRule) → (Key → List ℚ) → (Key → List ℚ) × Bool
  | [], attempts => (attempts, true)
  | (scope, rule) :: rest, attempts =>
    let key : Key := ⟨scope, action, rule.seconds⟩
    let kept := Window.prune rule.seconds now (attempts key)
    let attempts := Function.update attempts key kept
    if rule.attempts ≤ kept.length then (attempts, false)
    else checkWindows action now rest attempts

/-- The second loop: charge every window. -/
def charge (action : String) (now : ℚ) (windows : List (String × RateRule))
    (attempts : Key → List ℚ) : Key → List ℚ :=
  windows.foldl (fun attempts entry =>
    let key : Key := ⟨entry.1, action, entry.2.seconds⟩
    Function.update attempts key (attempts key ++ [now])) attempts

/-- `_check_rates`. -/
def CallerGuard.checkRates (sender action : String) (now : ℚ) : CallerGuard × Except Denied Unit :=
  match rulesOf action with
  | none => (guard, .error (.unknownAction action))
  | some rules =>
    let windows := scopedRules sender action rules
    match checkWindows action now windows guard.attempts with
    | (attempts, false) => ({ guard with attempts := attempts }, .error .tooMany)
    | (attempts, true) =>
      ({ guard with attempts := charge action now windows attempts }, .ok ())

/-- `authorize`; `answer` is what the credential provider would return, `none` if it raised. -/
def CallerGuard.authorize (sender : Option String) (action : String)
    (answer : Option Credentials) (now : ℚ) : CallerGuard × Except Denied Unit :=
  let identity := sender.getD ""
  if !isConnection identity then (guard, .error .noIdentity)
  else
    match (guard.credentials identity).or answer with
    | none => (guard, .error .unverified)
    | some credentials =>
      let guard :=
        { guard with credentials := Function.update guard.credentials identity credentials }
      match credentials.unixUserId with
      | none => (guard, .error .noUid)
      | some uid =>
        if uid ≠ guard.expectedUid then (guard, .error .otherUid)
        else guard.checkRates identity action now

end

/-! ## The two loops -/

/-- The first loop only prunes. -/
theorem checkWindows_pruned (action : String) (now : ℚ) (windows : List (String × RateRule))
    (attempts : Key → List ℚ) (key : Key) :
    (checkWindows action now windows attempts).1 key = attempts key ∨
      (checkWindows action now windows attempts).1 key =
        Window.prune key.seconds now (attempts key) := by
  induction windows generalizing attempts with
  | nil => exact Or.inl rfl
  | cons entry rest ih =>
    rcases entry with ⟨scope, rule⟩
    have hone (attempts' : Key → List ℚ) (h : attempts' = Function.update attempts
        ⟨scope, action, rule.seconds⟩ (Window.prune rule.seconds now
          (attempts ⟨scope, action, rule.seconds⟩))) :
        attempts' key = attempts key ∨
          attempts' key = Window.prune key.seconds now (attempts key) := by
      subst h
      by_cases hkey : key = ⟨scope, action, rule.seconds⟩
      · subst hkey
        exact Or.inr (by rw [Function.update_self])
      · exact Or.inl (by rw [Function.update_of_ne hkey])
    rw [checkWindows]
    split
    · exact hone _ rfl
    rcases hone _ rfl with hsame | hpruned
    · rcases ih _ with h | h
      · exact Or.inl (h.trans hsame)
      · exact Or.inr (by rw [h, hsame])
    · rcases ih _ with h | h
      · exact Or.inr (h.trans hpruned)
      · exact Or.inr (by rw [h, hpruned, Window.prune_prune le_rfl])

/-- When the first loop ends, every window has room. -/
theorem checkWindows_room {action : String} {now : ℚ} {windows : List (String × RateRule)}
    {attempts attempts' : Key → List ℚ}
    (h : checkWindows action now windows attempts = (attempts', true)) {scope : String}
    {rule : RateRule} (hmem : (scope, rule) ∈ windows) :
    (attempts' ⟨scope, action, rule.seconds⟩).length < rule.attempts := by
  induction windows generalizing attempts with
  | nil => cases hmem
  | cons entry rest ih =>
    rcases entry with ⟨scope₁, rule₁⟩
    rw [checkWindows] at h
    split at h
    · cases h
    rename_i hroom
    rcases List.mem_cons.mp hmem with heq | hrest
    · cases heq
      -- a later rule may prune the same queue again, which leaves it no longer
      have hlater := checkWindows_pruned action now rest (Function.update attempts
        ⟨scope, action, rule.seconds⟩ (Window.prune rule.seconds now
          (attempts ⟨scope, action, rule.seconds⟩))) ⟨scope, action, rule.seconds⟩
      rw [h] at hlater
      simp only [Function.update_self, Window.prune_prune le_rfl, or_self] at hlater
      rw [hlater]
      omega
    · exact ih h hrest

/-- The second loop adds the call to the queues of its keys, once each. -/
theorem charge_apply (action : String) (now : ℚ) {windows : List (String × RateRule)}
    (hnodup : (windows.map (fun entry => (entry.1, entry.2.seconds))).Nodup)
    (attempts : Key → List ℚ) (key : Key) :
    charge action now windows attempts key =
      if key.action = action ∧ (key.scope, key.seconds) ∈
          windows.map (fun entry => (entry.1, entry.2.seconds))
      then attempts key ++ [now] else attempts key := by
  induction windows generalizing attempts with
  | nil => simp [charge]
  | cons entry rest ih =>
    rw [List.map_cons, List.nodup_cons] at hnodup
    have hstep : charge action now (entry :: rest) attempts =
        charge action now rest (Function.update attempts ⟨entry.1, action, entry.2.seconds⟩
          (attempts ⟨entry.1, action, entry.2.seconds⟩ ++ [now])) := rfl
    rw [hstep, ih hnodup.2]
    by_cases hkey : key = ⟨entry.1, action, entry.2.seconds⟩
    · subst hkey
      have hrest : (entry.1, entry.2.seconds) ∉
          rest.map (fun entry => (entry.1, entry.2.seconds)) := hnodup.1
      simp [hrest]
    have hne : ¬ (key.action = action ∧
        (key.scope, key.seconds) = (entry.1, entry.2.seconds)) := by
      rintro ⟨haction, hpair⟩
      apply hkey
      rcases key with ⟨scope, action', seconds⟩
      simp only [Prod.mk.injEq] at hpair haction
      rw [haction, hpair.1, hpair.2]
    have hcons : (key.action = action ∧ (key.scope, key.seconds) ∈
          (entry :: rest).map (fun entry => (entry.1, entry.2.seconds))) ↔
        (key.action = action ∧ (key.scope, key.seconds) ∈
          rest.map (fun entry => (entry.1, entry.2.seconds))) := by
      rw [List.map_cons, List.mem_cons, and_or_left, or_iff_right hne]
    rw [Function.update_of_ne hkey]
    exact (if_congr hcons rfl rfl).symm

/-- The windows of a call are told apart by their keys. -/
theorem scoped_nodup {sender action : String} {rules : List RateRule}
    (hsender : sender ≠ everyone) (hrules : rulesOf action = some rules) :
    ((scopedRules sender action rules).map (fun entry => (entry.1, entry.2.seconds))).Nodup := by
  have hcaller : (rules.map RateRule.seconds).Nodup := by
    exact lengths_nodup.1 (action, rules) (Text.mem_of_lookup hrules)
  have hglobal : ((globalRulesOf action rules).map RateRule.seconds).Nodup := by
    rw [globalRulesOf]
    cases hlookup : globalRules.lookup action with
    | none => exact hcaller
    | some selected => exact lengths_nodup.2 (action, selected) (Text.mem_of_lookup hlookup)
  have hscope (scope : String) (selected : List RateRule)
      (h : (selected.map RateRule.seconds).Nodup) :
      (selected.map (fun rule => (scope, rule.seconds))).Nodup := by
    have hmap := h.map (f := fun seconds => (scope, seconds)) (fun a b hab => (Prod.mk.inj hab).2)
    rwa [List.map_map] at hmap
  rw [scopedRules, List.map_append, List.map_map, List.map_map]
  refine List.nodup_append.mpr ⟨hscope sender rules hcaller, hscope everyone _ hglobal, ?_⟩
  rintro x hx y hy rfl
  obtain ⟨_, _, rfl⟩ := List.mem_map.mp hx
  obtain ⟨_, _, hpair⟩ := List.mem_map.mp hy
  exact hsender (congrArg Prod.fst hpair).symm

end BlueFerry.Dbus
