import BlueFerry.Text.Basic

/-! # Short LE links

`bearer_supervisor.py`, the report of a stale LE bond: LE links that drop within seconds, again and
again, while Classic stays connected. Nothing is ever done about it but the report.
-/

namespace BlueFerry.Bearers

open BlueFerry.Text

/-- Why BlueZ says that a link ended. -/
inductive Reason where
  | unknown
  | timeout
  | localHost
  | remote
  | authentication
  | suspend
  deriving DecidableEq

/-- `_LE_DISCONNECT_REASONS`. -/
def disconnectReason (name : Str) : Reason :=
  if name = "org.bluez.Reason.Timeout".toList then .timeout
  else if name = "org.bluez.Reason.Local".toList then .localHost
  else if name = "org.bluez.Reason.Remote".toList then .remote
  else if name = "org.bluez.Reason.Authentication".toList then .authentication
  else if name = "org.bluez.Reason.Suspend".toList then .suspend
  else .unknown

/-- `_COUNTED_LE_DISCONNECT_REASONS`. -/
def Reason.counted : Reason → Bool
  | .timeout | .remote | .authentication => true
  | .unknown | .localHost | .suspend => false

/-- The fields of `BearerSupervisor` that the report is made from. The drops are oldest first. -/
structure LeFlaps where
  flaps : List ℚ := []
  flapCount : Nat := 0
  burstStartedAt : Option ℚ := none
  bondSuspect : Bool := false
  disconnectSignalSeen : Bool := false
  linkUpAt : Option ℚ := none
  lastDropAt : Option ℚ := none
  lastPolledDropAt : Option ℚ := none
  lastDisconnectReason : Option Reason := none
  ownDisconnectAt : Option ℚ := none
  bredrLostAt : Option ℚ := none
  deriving DecidableEq

/-- What a drop is judged by, besides the drops before it: `_le_bond_detection_active()`, and since
when Classic is connected. -/
structure Sight where
  detection : Bool
  bredr : Option Bool
  bredrSince : Option ℚ
  deriving DecidableEq

namespace LeFlaps

section

variable (f : LeFlaps)

/-- `LE_FLAP_WINDOW_SECONDS`, or the wider window of polling. -/
def window : ℚ := if f.disconnectSignalSeen then 60 else 180

/-- `LE_FLAP_PERSIST_SECONDS`, or the longer time of polling. -/
def persist : ℚ := if f.disconnectSignalSeen then 180 else 540

/-- `_reset_le_burst`. -/
def resetBurst : LeFlaps :=
  { f with
    flaps := []
    burstStartedAt := none
    flapCount := if f.bondSuspect then f.flapCount else 0 }

/-- `_clear_le_flaps`, and whether the report flips. -/
def clear : LeFlaps × Bool :=
  ({ f with flaps := [], flapCount := 0, burstStartedAt := none, bondSuspect := false },
    f.bondSuspect)

/-- The end of `_record_le_drop`: a drop that counts, with Classic connected since then. -/
def addDrop (bredrSince : ℚ) (signalled : Bool) (now : ℚ) : LeFlaps × Bool :=
  let f :=
    match f.flaps.getLast? with
    | some last => if now - last > f.window then f.resetBurst else f
    | none => f
  let f :=
    match f.burstStartedAt with
    | some started => if bredrSince > started then f.resetBurst else f
    | none => f
  let started := f.burstStartedAt.getD now
  let f :=
    { f with
      burstStartedAt := some started
      flaps := (f.flaps ++ [now]).dropWhile (fun t => now - t > f.window)
      lastDropAt := some now
      lastPolledDropAt := if signalled then f.lastPolledDropAt else some now
      flapCount := f.flapCount + 1 }
  if f.bondSuspect ∨ f.flaps.length < 5 ∨ now - started < f.persist then (f, false)
  else ({ f with bondSuspect := true }, true)

/-- `_record_le_drop`, and whether the report flips. Without a reason, polling saw the drop. -/
def recordDrop (sight : Sight) (lifetime : Option ℚ) (reason : Option Reason)
    (now : ℚ) : LeFlaps × Bool :=
  if !sight.detection then (f.resetBurst, false)
  else if lifetime.any (fun age => age ≥ 15) then f.clear
  else if reason.any (fun reason => !reason.counted) then (f, false)
  else if reason.isSome && !lifetime.any (fun age => age ≤ 5) then (f.resetBurst, false)
  else
    match sight.bredr, sight.bredrSince with
    | some true, some since => f.addDrop since reason.isSome now
    | _, _ => (f.resetBurst, false)

/-- The first signal replaces the count of the drop that polling has just seen. -/
def replacePolled (now : ℚ) : LeFlaps :=
  match f.lastPolledDropAt with
  | none => f
  | some polled =>
    if !f.disconnectSignalSeen ∧ now - polled ≤ 10 ∧ f.flaps.getLast? = some polled ∧
        f.linkUpAt.all (fun up => up ≤ polled) then
      { f with
        flaps := f.flaps.dropLast
        flapCount := f.flapCount - 1
        burstStartedAt := if f.flaps.dropLast = [] then none else f.burstStartedAt }
    else f

/-- `_count_le_disconnect`, and whether the report flips. -/
def countDisconnect (sight : Sight) (reason : Reason) (now : ℚ) : LeFlaps × Bool :=
  let f := { f.replacePolled now with disconnectSignalSeen := true }
  let lifetime := f.linkUpAt.map (fun up => now - up)
  let f := { f with lastPolledDropAt := none, linkUpAt := none }
  if reason = .suspend then (f, false)
  else if reason = .localHost ∧ f.ownDisconnectAt.any (fun own => now - own < 10) then (f, false)
  else { f with lastDisconnectReason := some reason }.recordDrop sight lifetime (some reason) now

/-- `_clear_le_flaps_if_held`, and whether the report flips. -/
def clearIfHeld (leSince : Option ℚ) (now : ℚ) : LeFlaps × Bool :=
  if f.flaps = [] ∧ !f.bondSuspect then (f, false)
  else if (if f.disconnectSignalSeen then f.linkUpAt else leSince).any (fun t => now - t ≥ 15) then
    f.clear
  else (f, false)

/-- `_age_le_evidence`, and whether the report flips. -/
def age (detection : Bool) (now : ℚ) : LeFlaps × Bool :=
  let f :=
    if f.flaps.getLast?.any (fun last => now - last > f.window) ∧ !f.bondSuspect then f.resetBurst
    else f
  if !f.bondSuspect then (f, false)
  else if f.bredrLostAt.any (fun lost => now - lost ≥ 120) then f.clear
  else if f.lastDropAt.any (fun last => now - last ≥ 600) then f.clear
  else if !detection then f.clear
  else (f, false)

/-- What the report keeps of the link up, or of Classic lost, when a bearer is observed. -/
def observeLinkUp (now : ℚ) : LeFlaps :=
  { f with linkUpAt := some (f.linkUpAt.getD now) }

def observeClassic (previous value : Option Bool) (now : ℚ) : LeFlaps :=
  if value = some true then { f with bredrLostAt := none }
  else if previous = some true then { f with bredrLostAt := some now }.resetBurst
  else f

/-- What a restart of BlueZ leaves of it. -/
def restarted : LeFlaps :=
  { f.clear.1 with disconnectSignalSeen := false, linkUpAt := none, ownDisconnectAt := none }

end

end LeFlaps

end BlueFerry.Bearers
