import BlueFerry.Plugins.PopupsGuarded

/-! # Pending senders are waited for

Every pending sender has a call that is not answered (`Covered`), as long as every reply that brings
a popup has one argument and can be read (`Readable`): nothing catches what another one raises, and
its sender stays pending with nothing to wait for. While a reply is handled its own sender may be
uncovered (`CoveredBut`), and the handler either finishes it or sends the next call.
-/

namespace BlueFerry.PluginPopups

open BlueFerry.Text

/-- The pending entry that a call belongs to. -/
def Call.pending : Call → Option (Str × Nat)
  | .owner sender _ _ token => some (sender, token)
  | .user sender _ token => some (sender, token)
  | .fetch sender _ _ token => some (sender, token)
  | _ => none

/-- A call of this pending entry is not answered. -/
def Waits (s : State) (sender : Str) (token : Nat) : Prop :=
  ∃ id call, s.calls.Holds id call ∧ call.pending = some (sender, token)

def Covered (s : State) : Prop :=
  ∀ sender token, s.pending.get? sender = some token → Waits s sender token

/-- All but this entry are waited for. -/
def CoveredBut (sender : Str) (token : Nat) (s : State) : Prop :=
  ∀ a t, s.pending.get? a = some t → (a = sender ∧ t = token) ∨ Waits s a t

/-- A reply that brings a popup for a pending sender has one argument and, when it is short enough
to be read, reading it raises nothing but `SurfaceError`. -/
def Readable (env : Env) (s : State) : Input → Prop
  | .answers id (.args args) _ =>
    ∀ sender plugin left token, s.calls.get id = some (.fetch sender plugin left token) →
      s.pending.get? sender = some token →
        ∃ arg, args = [arg] ∧ ∀ text, arg = .text text →
          (Text.encode text).length ≤ maxReplyBytes → env.parsePending text ≠ .raises
  | _ => True

variable {env : Env} {s s' : State} {sender : Str} {token : Nat}

/-! ## What the handlers are made of -/

theorem Waits.congr {a : Str} {t : Nat} (h : Waits s a t) (hcalls : s'.calls = s.calls) :
    Waits s' a t := by
  obtain ⟨id, call, hholds, hcall⟩ := h
  exact ⟨id, call, by rw [hcalls]; exact hholds, hcall⟩

theorem Covered.congr (h : Covered s) (hpending : s'.pending = s.pending)
    (hcalls : s'.calls = s.calls) : Covered s' := by
  intro a t ha
  rw [hpending] at ha
  exact (h a t ha).congr hcalls

theorem CoveredBut.congr (h : CoveredBut sender token s) (hpending : s'.pending = s.pending)
    (hcalls : s'.calls = s.calls) : CoveredBut sender token s' := by
  intro a t ha
  rw [hpending] at ha
  exact (h a t ha).imp_right (fun hwaits => hwaits.congr hcalls)

theorem Waits.send {a : Str} {t : Nat} (h : Waits s a t) (call : Call) : Waits (s.send call) a t := by
  obtain ⟨id, call', hholds, hcall⟩ := h
  exact ⟨id, call', Slots.holds_put.mpr (.inr hholds), hcall⟩

theorem Covered.send (h : Covered s) (call : Call) : Covered (s.send call) :=
  fun a t ha => (h a t ha).send call

/-- The next call of the entry is sent. -/
theorem CoveredBut.send (h : CoveredBut sender token s) {call : Call}
    (hcall : call.pending = some (sender, token)) : Covered (s.send call) := by
  intro a t ha
  rcases h a t ha with ⟨rfl, rfl⟩ | hwaits
  · exact ⟨s.calls.next, call, Slots.holds_put.mpr (.inl ⟨rfl, rfl⟩), hcall⟩
  · exact hwaits.send call

/-- The entry is not there any more. -/
theorem CoveredBut.gone (h : CoveredBut sender token s)
    (hne : s.pending.get? sender ≠ some token) : Covered s := by
  intro a t ha
  rcases h a t ha with ⟨rfl, rfl⟩ | hwaits
  · exact absurd ha hne
  · exact hwaits

theorem CoveredBut.finish (h : CoveredBut sender token s) : Covered (s.finish sender token) := by
  by_cases hget : s.pending.get? sender = some token
  · unfold State.finish
    rw [if_pos hget]
    intro a t ha
    rw [Dict.get?_erase] at ha
    by_cases hsender : a = sender
    · rw [if_pos hsender] at ha
      nomatch ha
    rw [if_neg hsender] at ha
    rcases h a t ha with ⟨heq, -⟩ | hwaits
    · exact absurd heq hsender
    · exact hwaits.congr rfl
  · rw [finish_of_ne hget]
    exact h.gone hget

/-- An answered call leaves its own entry uncovered, and no other one. -/
theorem Covered.take (h : Covered s) {id : Nat} {call : Call} (hget : s.calls.get id = some call)
    (hcall : call.pending = some (sender, token)) :
    CoveredBut sender token { s with calls := s.calls.take id } := by
  intro a t ha
  obtain ⟨id', call', hholds, hcall'⟩ := h a t ha
  by_cases hid : id' = id
  · subst hid
    rw [Slots.Holds.unique hholds hget, hcall] at hcall'
    obtain ⟨hsender, htoken⟩ := Prod.mk.inj (Option.some.inj hcall')
    exact .inl ⟨hsender.symm, htoken.symm⟩
  · exact .inr ⟨id', call', Slots.holds_take.mpr ⟨hid, hholds⟩, hcall'⟩

theorem Covered.take_click (h : Covered s) {id : Nat} {call : Call}
    (hget : s.calls.get id = some call) (hcall : call.pending = none) :
    Covered { s with calls := s.calls.take id } := by
  intro a t ha
  obtain ⟨id', call', hholds, hcall'⟩ := h a t ha
  refine ⟨id', call', Slots.holds_take.mpr ⟨?_, hholds⟩, hcall'⟩
  rintro rfl
  rw [Slots.Holds.unique hholds hget, hcall] at hcall'
  nomatch hcall'

theorem CoveredBut.pendingCall (h : CoveredBut sender token s) {call : Call}
    (hcall : call.pending = some (sender, token)) (r : Raised) :
    Covered (s.pendingCall sender token call r) := by
  unfold State.pendingCall
  split
  · exact h.finish
  · exact h.send hcall

theorem CoveredBut.matchOwner (h : CoveredBut sender token s) (candidates : List Manifest)
    (r : Raised) : Covered (s.matchOwner sender candidates token r) := by
  unfold State.matchOwner
  by_cases hpending : s.pending.get? sender = some token
  · rw [if_neg (not_not.mpr hpending)]
    cases candidates with
    | nil =>
      have herase : CoveredBut sender token { s with verified := s.verified.erase sender } :=
        h.congr rfl rfl
      exact herase.finish
    | cons plugin rest => exact CoveredBut.pendingCall h rfl r
  · rw [if_pos hpending]
    exact h.gone hpending

theorem CoveredBut.sendFetch (h : CoveredBut sender token s) (plugin : Manifest) (left : Nat)
    (r : Raised) : Covered (s.sendFetch sender plugin left token r) := by
  unfold State.sendFetch
  split
  · exact h.finish
  have hnote : CoveredBut sender token
      (s.note (.fetchSent token s.calls.next sender plugin)) := h.congr rfl rfl
  exact hnote.send rfl

/-- **A fetch is sent, or its sender is pending no more.** -/
theorem CoveredBut.fetch (h : CoveredBut sender token s) (plugin : Manifest) (left : Nat)
    (r : Raised) : Covered (s.fetch env sender plugin left token r) := by
  unfold State.fetch
  by_cases hpending : s.pending.get? sender = some token
  · rw [if_neg (not_not.mpr hpending)]
    by_cases hleft : left = 0
    · rw [if_pos hleft]
      exact h.finish
    rw [if_neg hleft]
    have hlook : CoveredBut sender token (s.look env) :=
      h.congr (look_pending env s) (look_calls env s)
    by_cases henabled : (s.look env).enabled plugin.id plugin.busName = false
    · rw [if_pos henabled]
      exact hlook.finish
    rw [if_neg henabled]
    cases PluginPopups.room (s.look env).now (s.look env).recent plugin.id popupsPerMinute with
    | mk recent ok =>
      have hrecent : CoveredBut sender token { s.look env with recent := recent } :=
        hlook.congr rfl rfl
      cases ok with
      | false => exact hrecent.finish
      | true =>
        cases admitCall (s.look env).now (s.look env).fetches plugin.id fetchesPerMinute with
        | mk fetches ok =>
          cases ok with
          | false =>
            have hfetches : CoveredBut sender token
                { s.look env with recent := recent, fetches := fetches } :=
              hlook.congr rfl rfl
            exact hfetches.finish
          | true =>
            apply CoveredBut.sendFetch
            exact hlook.congr rfl rfl
  · rw [if_pos hpending]
    exact h.gone hpending

/-! ## Signals -/

/-- A sender that becomes pending is the one that is not waited for yet. -/
theorem Covered.begin (h : Covered s) (sender : Str) :
    CoveredBut sender s.tokens (s.begin sender) := by
  intro a t ha
  rw [State.begin, State.note, Dict.get?_set] at ha
  by_cases hsender : a = sender
  · rw [if_pos hsender] at ha
    exact .inl ⟨hsender, (Option.some.inj ha).symm⟩
  rw [if_neg hsender] at ha
  exact .inr ((h a t ha).congr rfl)

theorem Covered.changedKnown (h : Covered s) (sender : Str) (known : Manifest) (r : Raised) :
    Covered (s.changedKnown env sender known r) := by
  unfold State.changedKnown
  have hlook : Covered (s.look env) := h.congr (look_pending env s) (look_calls env s)
  by_cases henabled : (s.look env).enabled known.id known.busName = false
  · rw [if_pos henabled]
    exact hlook
  rw [if_neg henabled]
  cases PluginPopups.room (s.look env).now (s.look env).recent known.id popupsPerMinute with
  | mk recent ok =>
    cases ok with
    | false => exact hlook.congr rfl rfl
    | true =>
      cases PluginPopups.room (s.look env).now (s.look env).fetches known.id fetchesPerMinute with
      | mk fetches ok =>
        cases ok with
        | false => exact hlook.congr rfl rfl
        | true =>
          cases admitCall (s.look env).now (s.look env).lookups sender fetchesPerMinute with
          | mk lookups ok =>
            cases ok with
            | false => exact hlook.congr rfl rfl
            | true =>
              have hset : Covered { s.look env with
                  recent := recent, fetches := fetches, lookups := lookups } :=
                hlook.congr rfl rfl
              exact (hset.begin sender).matchOwner [known] r

theorem Covered.changedUnknown (h : Covered s) (sender : Str) (r : Raised) :
    Covered (s.changedUnknown env sender r) := by
  unfold State.changedUnknown
  cases admitCall s.now s.lookups sender lookupsPerMinute with
  | mk lookups ok =>
    cases ok with
    | false => exact h.congr rfl rfl
    | true =>
      have hset : Covered { s with lookups := lookups } := h.congr rfl rfl
      apply CoveredBut.matchOwner
      exact (hset.begin sender).congr (refresh_pending env _) (refresh_calls env _)

theorem Covered.onChanged (h : Covered s) (sender : Str) (r : Raised) :
    Covered (s.onChanged env sender r) := by
  unfold State.onChanged
  split
  · exact h
  split
  · exact h.congr rfl rfl
  split
  · exact h
  split
  · exact h.changedKnown sender _ r
  · exact h.changedUnknown sender r

/-! ## Replies -/

theorem CoveredBut.ownerReplied (h : CoveredBut sender token s) (plugin : Manifest)
    (rest : List Manifest) (name : Str) (r : Raised) :
    Covered (s.ownerReplied sender plugin rest token name r) := by
  unfold State.ownerReplied
  have hnote : CoveredBut sender token
      (s.note (.ownerTold (.notify token) plugin.busName name)) := h.congr rfl rfl
  dsimp only
  split
  · rename_i hne
    exact hnote.gone hne
  split
  · exact CoveredBut.pendingCall hnote rfl r
  · exact hnote.matchOwner rest r

theorem CoveredBut.userReplied (h : CoveredBut sender token s) (plugin : Manifest) (uid : Int)
    (r : Raised) : Covered (s.userReplied env sender plugin token uid r) := by
  unfold State.userReplied
  have hnote : CoveredBut sender token (s.note (.userTold (.notify token) sender uid)) :=
    h.congr rfl rfl
  dsimp only
  split
  · rename_i hne
    exact hnote.gone hne
  split
  · exact hnote.finish
  apply CoveredBut.fetch
  exact hnote.congr rfl rfl

theorem CoveredBut.deliver (h : CoveredBut sender token s) (plugin : Manifest) (note : Notification)
    (id : Nat) : CoveredBut sender token (s.deliver env plugin note token id) := by
  unfold State.deliver
  dsimp only
  have hlook : CoveredBut sender token (s.look env) :=
    h.congr (look_pending env s) (look_calls env s)
  split
  · exact hlook
  cases admitCall (s.look env).now (s.look env).recent plugin.id popupsPerMinute with
  | mk recent ok =>
    cases ok with
    | false | true => exact hlook.congr rfl rfl

/-- A reply that can be read finishes its sender, or the next fetch is sent. -/
theorem CoveredBut.fetchReplied (h : CoveredBut sender token s) {args : List Arg}
    (hreadable : s.pending.get? sender = some token →
      ∃ arg, args = [arg] ∧ ∀ text, arg = .text text →
        (Text.encode text).length ≤ maxReplyBytes → env.parsePending text ≠ .raises)
    (plugin : Manifest) (left id : Nat) (r : Raised) :
    Covered (s.fetchReplied env id sender plugin left token args r) := by
  by_cases hpending : s.pending.get? sender = some token
  · obtain ⟨arg, rfl, htext⟩ := hreadable hpending
    cases arg with
    | other => exact h.finish
    | text text =>
      unfold State.fetchReplied
      have hnote : CoveredBut sender token (s.note (.fetchAnswered id text)) := h.congr rfl rfl
      dsimp only
      rw [if_neg (not_not.mpr (show (s.note (.fetchAnswered id text)).pending.get? sender =
        some token from hpending))]
      by_cases hsize : (Text.encode text).length > maxReplyBytes
      · rw [if_pos hsize]
        exact hnote.finish
      rw [if_neg hsize]
      cases hparsed : env.parsePending text with
      | surfaceError => exact hnote.finish
      | raises => exact absurd hparsed (htext text rfl (not_lt.mp hsize))
      | pending note more =>
        cases note with
        | none =>
          dsimp only
          split
          · exact hnote.fetch plugin (left - 1) r
          · exact hnote.finish
        | some note =>
          dsimp only
          split
          · exact (hnote.deliver plugin note id).fetch plugin (left - 1) r
          · exact (hnote.deliver plugin note id).finish
  · have hgone := h.gone hpending
    unfold State.fetchReplied
    split
    · rw [if_pos (show (s.note _).pending.get? sender ≠ some token from hpending)]
      exact hgone.congr rfl rfl
    · rw [finish_of_ne hpending]
      exact hgone
    · exact hgone

/-! ## Clicks -/

section

variable (h : Covered s)
include h

theorem Covered.lookAgain (env : Env) (generation : Nat) :
    Covered (s.lookAgain env generation) := by
  unfold State.lookAgain
  split
  · exact h.congr (look_pending env s) (look_calls env s)
  · exact h

theorem Covered.clickCall (generation : Nat) (popup : PluginPopup) (call : Call)
    (raised : Option Str) (failure : State → Str → State)
    (hfailure : ∀ s' name, Covered s' → Covered (failure s' name)) :
    Covered (s.clickCall env generation popup call raised failure) := by
  unfold State.clickCall
  dsimp only
  have hagain := h.lookAgain env generation
  split
  · exact hagain
  cases raised with
  | none => exact hagain.send call
  | some name => exact hfailure _ name hagain

theorem Covered.missing (n : Nat) (popup : PluginPopup) (generation : Nat)
    (activate : Bool) (raised : Option Str) (name : Str) :
    Covered (State.missing env n popup generation activate raised s name) := by
  unfold State.missing
  split
  · exact h.clickCall generation popup _ raised _ (fun _ _ hs' => hs')
  · exact h

theorem Covered.lookup (n : Nat) (popup : PluginPopup) (generation : Nat)
    (activate : Bool) (r : Raised) : Covered (s.lookup env n popup generation activate r) := by
  exact h.clickCall generation popup _ r.first _
    (fun _ name hs' => hs'.missing n popup generation activate r.second name)

theorem Covered.invoke (popup : PluginPopup) (r : Raised) : Covered (s.invoke env popup r) := by
  unfold State.invoke
  have hlook : Covered (s.look env) := h.congr (look_pending env s) (look_calls env s)
  split
  · exact h
  dsimp only
  split
  · exact hlook
  apply Covered.lookup
  exact hlook.congr rfl rfl

theorem Covered.ownerFound (n : Nat) (popup : PluginPopup) (generation : Nat)
    (owner : Str) (r : Raised) : Covered (s.ownerFound env n popup generation owner r) := by
  unfold State.ownerFound
  have hnote : Covered (s.note (.ownerTold (.click n) popup.busName owner)) := h.congr rfl rfl
  have hagain := hnote.lookAgain env generation
  dsimp only
  split
  · exact hagain
  · exact hagain.clickCall generation popup _ r.first _ (fun _ _ hs' => hs')

theorem Covered.userChecked (n : Nat) (popup : PluginPopup) (generation : Nat) (owner : Str)
    (uid : Int) (r : Raised) : Covered (s.userChecked env n popup generation owner uid r) := by
  unfold State.userChecked State.sendAction
  have hnote : Covered (s.note (.userTold (.click n) owner uid)) := h.congr rfl rfl
  have hagain := hnote.lookAgain env generation
  have htwice := hagain.lookAgain env generation
  dsimp only
  split
  · exact hagain
  split
  · exact hagain
  split
  · exact htwice
  cases r.first with
  | some name => exact htwice
  | none =>
    apply Covered.send
    exact htwice.congr rfl rfl

theorem Covered.actionReplied (n : Nat) (popup : PluginPopup) (generation : Nat)
    (args : List Arg) : Covered (s.actionReplied env n popup generation args) := by
  unfold State.actionReplied
  have hagain := h.lookAgain env generation
  split
  · dsimp only
    split
    · exact hagain
    split
    · exact hagain
    split
    · split
      · exact hagain.congr rfl rfl
      · exact hagain
    · exact hagain
  · exact h

end

/-! ## Every step, and every run -/

/-- An answer that fits its call. -/
theorem Covered.answered (h : Covered s) {id : Nat} {call : Call} {answer : Answer}
    (hget : s.calls.get id = some call) (hfits : State.fits call answer = true) (r : Raised)
    (hreadable : Readable env s (.answers id answer r)) :
    Covered ({ s with calls := s.calls.take id }.answered env id call answer r) := by
  cases call with
  | owner sender plugin rest token =>
    have htake := h.take hget rfl
    cases answer with
    | name name => exact htake.ownerReplied plugin rest name r
    | error name => exact htake.matchOwner rest r
    | uid uid | args args => nomatch hfits
  | user sender plugin token =>
    have htake := h.take hget rfl
    cases answer with
    | uid uid => exact htake.userReplied plugin uid r
    | error name => exact htake.finish
    | name name | args args => nomatch hfits
  | fetch sender plugin left token =>
    have htake := h.take hget rfl
    cases answer with
    | args args => exact htake.fetchReplied (hreadable sender plugin left token hget) plugin left id r
    | error name => exact htake.finish
    | name name | uid uid => nomatch hfits
  | clickOwner n popup generation activate =>
    have htake := h.take_click hget rfl
    cases answer with
    | name owner => exact htake.ownerFound n popup generation owner r
    | error name => exact htake.missing n popup generation activate r.first name
    | uid uid | args args => nomatch hfits
  | startService n popup generation =>
    have htake := h.take_click hget rfl
    cases answer with
    | uid uid => exact htake.lookup n popup generation false r
    | error name => exact htake
    | name name | args args => nomatch hfits
  | clickUser n popup generation owner =>
    have htake := h.take_click hget rfl
    cases answer with
    | uid uid => exact htake.userChecked n popup generation owner uid r
    | error name => exact htake
    | name name | args args => nomatch hfits
  | invokeAction n popup generation =>
    have htake := h.take_click hget rfl
    cases answer with
    | args args => exact htake.actionReplied n popup generation args
    | error name => exact htake
    | name name | uid uid => nomatch hfits

/-- **Step lemma.** After a step that meets no unreadable reply, every pending sender is waited
for. -/
theorem Covered.step (h : Covered s) {i : Input} (hreadable : Readable env s i) :
    Covered (step env s i) := by
  cases i with
  | changed sender r => exact h.onChanged sender r
  | answers id answer r =>
    cases hget : s.calls.get id with
    | none =>
      rw [step_answers_none hget]
      exact h
    | some call =>
      rw [step_answers hget]
      split
      · rename_i hfits
        exact h.answered hget hfits r hreadable
      · exact h
  | click popup r => exact h.invoke popup r
  | tick d | disables ids | files pluginsFail disabledFail => exact h.congr rfl rfl
  | start fails =>
    show Covered (s.start fails)
    unfold State.start
    split
    · exact h
    · exact h.congr rfl rfl
  | stop => nofun

theorem covered_init : Covered {} := fun _ _ hget => nomatch hget

/-- **What stands before a popup, over whole runs.** Every entry of the log is valid, no closed
minute shows more than six popups of a plugin, no more than sixteen senders are pending, and along a
run without unreadable replies every pending sender is waited for. -/
theorem popups_are_checked (env : Env) (inputs : List Input)
    (hfew : (env.installed.map Manifest.id).dedup.length ≤ maxWindows) :
    let s := Machine.run (step env) {} inputs
    Trace.Each (Valid env) s.log ∧
    (∀ pluginId t, (shownTimes pluginId s.log).countP (fun x => t - minute ≤ x ∧ x ≤ t) ≤
      popupsPerMinute) ∧
    s.pending.items.length ≤ maxPendingSenders ∧
    (Machine.Along (step env) (Readable env) {} inputs → Covered s) := by
  have hsound : Sound env (Machine.run (step env) {} inputs) :=
    Machine.always (step env) (fun s i hs => hs.step hfew i) inputs (sound_init env)
  refine ⟨hsound.sourced.valid, fun pluginId t => ?_, hsound.sourced.few, fun hreadable => ?_⟩
  · have hlimited := hsound.paced.limited pluginId t
    unfold Window.count windowLength at hlimited
    refine le_trans (le_of_eq ?_) hlimited
    congr 1
    funext x
    apply decide_eq_decide.mpr
    constructor
    · intro hx
      omega
    · intro hx
      omega
  · exact Machine.invariant (step env) (fun s i hok hs => hs.step hok) hreadable covered_init

/-! ## Runs -/

/-- The daemon's user is 1000, one plugin is installed, and it answers with a popup. -/
def oneEnv : Env where
  installed := [⟨"calendar".toList, "Calendar".toList, "io.weirdware.Calendar".toList, []⟩]
  uid := 1000
  parsePending := fun text =>
    if text = "{}".toList then .pending none false
    else .pending (some { title := "Soon".toList, body := text }) false
  parseActionResult := fun _ => .surfaceError
  checkedOpenUri := fun _ _ _ => none

/-- A sender is checked and its reply has these arguments. -/
def oneFetch (args : List Arg) : List Input :=
  [.start false, .changed ":1.5".toList {}, .answers 0 (.name ":1.5".toList) {},
    .answers 1 (.uid 1000) {}, .answers 2 (.args args) {}]

theorem popups_are_checked_shown :
    shownTimes "calendar".toList
        (Machine.run (step oneEnv) {} (oneFetch [.text "At noon".toList])).log = [0] ∧
      Covered (Machine.run (step oneEnv) {} (oneFetch [.text "At noon".toList])) := by
  refine ⟨by decide +kernel, ?_⟩
  refine (popups_are_checked oneEnv (oneFetch [.text "At noon".toList]) (by decide)).2.2.2 ?_
  refine ⟨trivial, trivial, trivial, trivial, ?_, trivial⟩
  intro sender plugin left token _ _
  refine ⟨_, rfl, fun text heq _ => ?_⟩
  cases heq
  decide

/-- A plugin answers without an argument: what the handler raises is not caught, and the sender
stays pending, with no call that is waited for, whatever it signals. -/
theorem reply_without_text_is_kept :
    let s := Machine.run (step oneEnv) {} (oneFetch [])
    ¬ Covered s ∧ ∀ r, (step oneEnv s (.changed ":1.5".toList r)).pending.get? ":1.5".toList =
      some 0 ∧ (step oneEnv s (.changed ":1.5".toList r)).calls = s.calls := by
  have hnone : ∀ id, (Machine.run (step oneEnv) {} (oneFetch [])).calls.get id = none := by
    intro id
    by_cases hid : id < 3
    · interval_cases id <;> decide +kernel
    exact (Machine.run (step oneEnv) {} (oneFetch [])).calls.fresh id
      (le_trans (by decide +kernel) (not_lt.mp hid))
  refine ⟨fun hcovered => ?_, fun r => ⟨rfl, rfl⟩⟩
  obtain ⟨id, call, hholds, -⟩ := hcovered ":1.5".toList 0 (by decide +kernel)
  rw [Slots.Holds, hnone id] at hholds
  cases hholds

end BlueFerry.PluginPopups
