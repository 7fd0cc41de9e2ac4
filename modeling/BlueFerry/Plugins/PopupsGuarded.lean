import BlueFerry.Plugins.Popups

/-! # What stands before a popup

Every entry of the log is judged by what is before it (`Valid`): a fetch goes to a connection that
the bus has named as the owner of the plugin's name and as the daemon's own user in the same
exchange, a popup comes from such a fetch, and so does a click's action. `Sound` says what the state
keeps for that, and `Covered` that every pending sender has a call that is not answered; a reply
whose reading raises is the one thing that breaks it.
-/

namespace BlueFerry.PluginPopups

open BlueFerry.Text

/-! ## The log -/

/-- The event is in the log. -/
def Told (log : List Entry) (event : Event) : Prop := ∃ e ∈ log, e.event = event

/-- It is the entry of `stop`. -/
def isStop (e : Entry) : Prop := e.event = .stopped

/-- The event has happened, and `stop` was not called since. -/
def Current (log : List Entry) (event : Event) : Prop :=
  Trace.Since isStop (fun e _ => e.event = event) log

/-- The bus has named the connection as the owner of the name, and as the daemon's own user, in this
exchange. -/
def Checked (env : Env) (log : List Entry) (x : Exchange) (busName connection : Str) : Prop :=
  Told log (.ownerTold x busName connection) ∧ Told log (.userTold x connection env.uid)

/-- What an entry needs to have before it. -/
def Valid (env : Env) (e : Entry) (earlier : List Entry) : Prop :=
  match e.event with
  | .begun token _ => ∀ sender, ¬ Told earlier (.begun token sender)
  | .clicked n _ => ∀ popup, ¬ Told earlier (.clicked n popup)
  | .ownerTold (.notify token) _ _ => ∃ sender, Told earlier (.begun token sender)
  | .userTold (.notify token) connection _ => Told earlier (.begun token connection)
  | .ownerTold (.click n) busName _ => ∃ popup, Told earlier (.clicked n popup) ∧
      popup.busName = busName
  | .userTold (.click n) _ _ => ∃ popup, Told earlier (.clicked n popup)
  | .fetchSent token _ destination plugin =>
    Told earlier (.begun token destination) ∧
      Checked env earlier (.notify token) plugin.busName destination
  | .shown token call popup =>
    (∃ destination plugin text more, Told earlier (.fetchSent token call destination plugin) ∧
      plugin.id = popup.pluginId ∧ plugin.busName = popup.busName ∧
        Told earlier (.fetchAnswered call text) ∧
          env.parsePending text = .pending (some popup.note) more ∧
            Current earlier (.begun token destination)) ∧
      (∃ m ∈ env.installed, m.id = popup.pluginId ∧ m.busName = popup.busName) ∧
        popup.pluginId ∉ e.disabled
  | .actionSent n destination popup =>
    Told earlier (.clicked n popup) ∧ Checked env earlier (.click n) popup.busName destination
  | .uriOpened n _ => ∃ popup, Current earlier (.clicked n popup)
  | _ => True

/-- When popups of the plugin were shown, oldest first. -/
def shownTimes (pluginId : Str) (log : List Entry) : List Int :=
  (log.filterMap (fun e =>
    match e.event with
    | .shown _ _ popup => if popup.pluginId = pluginId then some e.now else none
    | _ => none)).reverse

variable {event : Event} {log : List Entry} {e : Entry} {table : Windows} {call : Call} {id : Nat}

theorem Told.cons (h : Told log event) (e : Entry) : Told (e :: log) event := by
  obtain ⟨x, hx, hevent⟩ := h
  exact ⟨x, .tail _ hx, hevent⟩

theorem Current.told (h : Current log event) : Told log event := by
  obtain ⟨e, he, -, hevent⟩ := Trace.Since.exists_mem h
  exact ⟨e, he, hevent⟩

theorem Current.cons (h : Current log event)
    (he : ¬ isStop e) : Current (e :: log) event := Trace.Since.later he h

theorem shownTimes_cons (pluginId : Str) (e : Entry) (log : List Entry)
    (h : ∀ token call popup, e.event = .shown token call popup → popup.pluginId ≠ pluginId) :
    shownTimes pluginId (e :: log) = shownTimes pluginId log := by
  unfold shownTimes
  rw [List.filterMap_cons]
  split
  · rfl
  rename_i t ht
  exfalso
  split at ht
  · rename_i token call popup hevent
    rw [if_neg (h token call popup hevent)] at ht
    nomatch ht
  · nomatch ht

variable {token : Nat} {popup : PluginPopup}

theorem shownTimes_shown {pluginId : Str} {call : Nat}
    (h : e.event = .shown token call popup) (hid : popup.pluginId = pluginId) :
    shownTimes pluginId (e :: log) = shownTimes pluginId log ++ [e.now] := by
  unfold shownTimes
  rw [List.filterMap_cons, h]
  dsimp only
  rw [if_pos hid, List.reverse_cons]

/-! ## Windows -/

/-- A closed minute is a half-open window that is one microsecond longer. -/
def windowLength : Int := minute + 1

theorem dropOld_eq (now : Int) (window : List Int) :
    dropOld now window = Window.prune windowLength now window := by
  unfold dropOld Window.prune windowLength
  congr 1
  funext x
  apply decide_eq_decide.mpr
  constructor
  · intro h
    omega
  · intro h
    omega

/-- What the table keeps of a key. -/
def kept (table : Windows) (key : Str) : List Int := (table.get? key).getD []

theorem room_fst (now : Int) (table : Windows) (key : Str) (limit : Nat) (j : Str) :
    kept (room now table key limit).1 j =
      if j = key then dropOld now (kept table key) else kept table j := by
  unfold room kept
  cases hkey : table.get? key with
  | none =>
    by_cases hj : j = key
    · rw [if_pos hj, hj, hkey]
      rfl
    · rw [if_neg hj]
  | some window =>
    dsimp only
    rw [Dict.get?_set]
    by_cases hj : j = key
    · rw [if_pos hj, if_pos hj]
      rfl
    · rw [if_neg hj, if_neg hj]

variable {now : Int} {κ ν : Type} {left : Nat}

theorem room_snd {key : Str} {limit : Nat} (hlimit : 0 < limit) :
    (room now table key limit).2 = true ↔ (dropOld now (kept table key)).length < limit := by
  unfold room kept
  cases table.get? key with
  | none => exact iff_of_true rfl hlimit
  | some window => exact decide_eq_true_iff

theorem room_keys (now : Int) (table : Windows) (key : Str) (limit : Nat) (j : Str) :
    j ∈ (room now table key limit).1.keys → j ∈ table.keys := by
  unfold room
  cases hkey : table.get? key with
  | none => exact id
  | some window =>
    dsimp only
    rw [Dict.mem_keys_set]
    rintro (rfl | hj)
    · exact Dict.mem_keys_iff.mpr ⟨window, hkey⟩
    · exact hj

theorem admitCall_eq (now : Int) (table : Windows) (key : Str) (limit : Nat) :
    admitCall now table key limit =
      if (room now table key limit).2 = true then
        (evict now ((room now table key limit).1.set key
          (kept (room now table key limit).1 key ++ [now])), true)
      else ((room now table key limit).1, false) := by
  unfold admitCall
  cases hroom : room now table key limit with
  | mk table' ok =>
    cases ok with
    | false => rfl
    | true => rfl

/-- A table within its bound loses nothing. -/
theorem evict_eq (h : table.items.length ≤ maxWindows) : evict now table = table := by
  unfold evict
  rw [if_neg (by omega)]

theorem length_keys [DecidableEq κ] (d : Dict κ ν) :
    d.keys.length = d.items.length := List.length_map _

/-- A table whose keys are among few ones is small. -/
theorem length_le_of_keys {ids : List Str} (h : ∀ j ∈ table.keys, j ∈ ids) :
    table.items.length ≤ ids.dedup.length := by
  rw [← length_keys]
  have hsub : table.keys ⊆ ids.dedup := fun j hj => List.mem_dedup.mpr (h j hj)
  exact (List.subperm_of_subset table.nodup hsub).length_le

theorem kept_set (table : Windows) (key j : Str) (times : List Int) :
    kept (table.set key times) j = if j = key then times else kept table j := by
  unfold kept
  rw [Dict.get?_set]
  by_cases h : j = key
  · rw [if_pos h, if_pos h]
    rfl
  · rw [if_neg h, if_neg h]

/-! ## Entries that change nothing else -/

/-- What is sent, told or opened; it begins no exchange, shows nothing and stops nothing. -/
def Plain : Event → Prop
  | .begun .. => False
  | .clicked .. => False
  | .shown .. => False
  | .stopped => False
  | _ => True

/-- The later log has more entries, and `stop` is none of them. -/
def Grows (s s' : State) : Prop :=
  s'.generation = s.generation ∧ ∃ new, s'.log = new ++ s.log ∧ ∀ e ∈ new, ¬ isStop e

theorem Grows.refl (s : State) : Grows s s := ⟨rfl, [], rfl, by simp⟩

theorem Grows.of_eq {s s' : State} (hgeneration : s'.generation = s.generation)
    (hlog : s'.log = s.log) : Grows s s' := ⟨hgeneration, [], hlog, by simp⟩

theorem Grows.of_cons {s s' : State} (hgeneration : s'.generation = s.generation)
    (hlog : s'.log = e :: s.log) (he : ¬ isStop e) : Grows s s' :=
  ⟨hgeneration, [e], hlog, by simpa using he⟩

theorem Told.grows {s s' : State} (h : Told s.log event) (hgrows : Grows s s') :
    Told s'.log event := by
  obtain ⟨-, new, hlog, -⟩ := hgrows
  obtain ⟨e, he, hevent⟩ := h
  exact ⟨e, by rw [hlog]; exact List.mem_append_right _ he, hevent⟩

theorem Current.grows {s s' : State} (h : Current s.log event)
    (hgrows : Grows s s') : Current s'.log event := by
  obtain ⟨-, new, hlog, hnew⟩ := hgrows
  rw [hlog]
  exact Trace.Since.append h hnew

theorem Checked.grows {env : Env} {s s' : State} {x : Exchange} {busName connection : Str}
    (h : Checked env s.log x busName connection) (hgrows : Grows s s') :
    Checked env s'.log x busName connection := ⟨h.1.grows hgrows, h.2.grows hgrows⟩

/-! ## What stands behind a call -/

/-- The click has happened, and its generation is the present one only while `stop` was not called
since. -/
structure Clicked (s : State) (n : Nat) (popup : PluginPopup) (generation : Nat) : Prop where
  told : Told s.log (.clicked n popup)
  le : generation ≤ s.generation
  current : generation = s.generation → Current s.log (.clicked n popup)

/-- What has happened before an unanswered call was sent. -/
def Backed (env : Env) (s : State) (id : Nat) : Call → Prop
  | .owner sender _ _ token => Told s.log (.begun token sender)
  | .user sender plugin token =>
    Told s.log (.begun token sender) ∧ Told s.log (.ownerTold (.notify token) plugin.busName sender)
  | .fetch sender plugin _ token =>
    Told s.log (.fetchSent token id sender plugin) ∧
      Checked env s.log (.notify token) plugin.busName sender
  | .clickOwner n popup generation _ => Clicked s n popup generation
  | .startService n popup generation => Clicked s n popup generation
  | .clickUser n popup generation owner =>
    Clicked s n popup generation ∧ Told s.log (.ownerTold (.click n) popup.busName owner)
  | .invokeAction n popup generation => Clicked s n popup generation

variable {n generation : Nat}

theorem Clicked.grows {s s' : State} (h : Clicked s n popup generation) (hgrows : Grows s s') :
    Clicked s' n popup generation where
  told := h.told.grows hgrows
  le := by rw [hgrows.1]; exact h.le
  current heq := (h.current (heq.trans hgrows.1)).grows hgrows

theorem Backed.grows {env : Env} {s s' : State} (h : Backed env s id call)
    (hgrows : Grows s s') : Backed env s' id call := by
  cases call with
  | owner sender plugin rest token => exact Told.grows h hgrows
  | user sender plugin token | fetch sender plugin left token
    | clickUser n popup generation owner => exact ⟨h.1.grows hgrows, h.2.grows hgrows⟩
  | clickOwner n popup generation activate | startService n popup generation
    | invokeAction n popup generation => exact Clicked.grows h hgrows

/-! ## The invariant -/

/-- What the exchanges rest on. -/
structure Sourced (env : Env) (s : State) : Prop where
  manifests : ∀ m ∈ s.manifests, m ∈ env.installed
  valid : Trace.Each (Valid env) s.log
  pending : ∀ sender token, s.pending.get? sender = some token → Current s.log (.begun token sender)
  few : s.pending.items.length ≤ maxPendingSenders
  calls : ∀ id call, s.calls.Holds id call → Backed env s id call
  tokens : ∀ token sender, Told s.log (.begun token sender) → token < s.tokens
  clicks : ∀ n popup, Told s.log (.clicked n popup) → n < s.clicks

/-- What the rate of the popups rests on. -/
structure Paced (env : Env) (s : State) : Prop where
  keys : ∀ j ∈ s.recent.keys, j ∈ env.installed.map Manifest.id
  keeps : ∀ j, Window.Keeps windowLength s.now (kept s.recent j) (shownTimes j s.log)
  limited : ∀ j, Window.Limited popupsPerMinute windowLength (shownTimes j s.log)

/-- What every step keeps. -/
structure Sound (env : Env) (s : State) : Prop where
  sourced : Sourced env s
  paced : Paced env s

variable {env : Env} {s s' : State}

theorem told_cons_iff : Told (e :: log) event ↔ e.event = event ∨ Told log event := by
  constructor
  · rintro ⟨x, hx, hevent⟩
    rcases List.mem_cons.mp hx with rfl | hx
    · exact .inl hevent
    · exact .inr ⟨x, hx, hevent⟩
  · rintro (hevent | ⟨x, hx, hevent⟩)
    · exact ⟨e, by simp, hevent⟩
    · exact ⟨x, .tail _ hx, hevent⟩

/-- The invariant reads nothing else. -/
theorem Sourced.congr (h : Sourced env s) (hmanifests : ∀ m ∈ s'.manifests, m ∈ env.installed)
    (heq : (s'.log, s'.pending, s'.calls, s'.generation, s'.tokens, s'.clicks) =
      (s.log, s.pending, s.calls, s.generation, s.tokens, s.clicks)) : Sourced env s' := by
  simp only [Prod.mk.injEq] at heq
  obtain ⟨hlog, hpending, hcalls, hgeneration, htokens, hclicks⟩ := heq
  refine ⟨hmanifests, ?_, ?_, ?_, ?_, ?_, ?_⟩
  · rw [hlog]
    exact h.valid
  · rw [hpending, hlog]
    exact h.pending
  · rw [hpending]
    exact h.few
  · rw [hcalls]
    exact fun id call hcall => (h.calls id call hcall).grows (.of_eq hgeneration hlog)
  · rw [hlog, htokens]
    exact h.tokens
  · rw [hlog, hclicks]
    exact h.clicks

theorem Paced.congr (h : Paced env s)
    (heq : (s'.recent, s'.log, s'.now) = (s.recent, s.log, s.now)) : Paced env s' := by
  simp only [Prod.mk.injEq] at heq
  obtain ⟨hrecent, hlog, hnow⟩ := heq
  refine ⟨?_, ?_, ?_⟩
  · rw [hrecent]
    exact h.keys
  · rw [hnow, hrecent, hlog]
    exact h.keeps
  · rw [hlog]
    exact h.limited

/-- The steps that change neither. -/
theorem Sound.congr (h : Sound env s) (heq : (s'.manifests, s'.log, s'.pending, s'.calls,
      s'.generation, s'.tokens, s'.clicks, s'.recent, s'.now) =
    (s.manifests, s.log, s.pending, s.calls, s.generation, s.tokens, s.clicks, s.recent, s.now)) :
    Sound env s' := by
  simp only [Prod.mk.injEq] at heq
  obtain ⟨hmanifests, hlog, hpending, hcalls, hgeneration, htokens, hclicks, hrecent, hnow⟩ := heq
  refine ⟨h.sourced.congr ?_ ?_, h.paced.congr ?_⟩
  · rw [hmanifests]
    exact h.sourced.manifests
  · simp [hlog, hpending, hcalls, hgeneration, htokens, hclicks]
  · simp [hrecent, hlog, hnow]

/-! ## What the handlers are made of -/

theorem grows_note (h : event ≠ .stopped) : Grows s (s.note event) := .of_cons rfl rfl h

theorem Sourced.note (h : Sourced env s) (event : Event)
    (hvalid : Valid env ⟨s.now, s.disabled, event⟩ s.log) (hstopped : event ≠ .stopped)
    (hbegun : ∀ token sender, event ≠ .begun token sender)
    (hclicked : ∀ n popup, event ≠ .clicked n popup) : Sourced env (s.note event) where
  manifests := h.manifests
  valid := ⟨hvalid, h.valid⟩
  pending sender token hget := (h.pending sender token hget).grows (grows_note hstopped)
  few := h.few
  calls id call hcall := (h.calls id call hcall).grows (grows_note hstopped)
  tokens token sender htold := by
    rcases told_cons_iff.mp htold with heq | htold
    · exact absurd heq (hbegun token sender)
    · exact h.tokens token sender htold
  clicks n popup htold := by
    rcases told_cons_iff.mp htold with heq | htold
    · exact absurd heq (hclicked n popup)
    · exact h.clicks n popup htold

theorem Paced.note (h : Paced env s) (event : Event)
    (hshown : ∀ token call popup, event ≠ .shown token call popup) : Paced env (s.note event) := by
  have hsame : ∀ j, shownTimes j (s.note event).log = shownTimes j s.log := fun j =>
    shownTimes_cons j _ s.log (fun token call popup heq => absurd heq (hshown token call popup))
  refine ⟨h.keys, fun j => ?_, fun j => ?_⟩
  · rw [hsame j]
    exact h.keeps j
  · rw [hsame j]
    exact h.limited j

theorem Sound.note (h : Sound env s) (event : Event) (hplain : Plain event)
    (hvalid : Valid env ⟨s.now, s.disabled, event⟩ s.log) : Sound env (s.note event) where
  sourced := by
    refine h.sourced.note event hvalid ?_ ?_ ?_
    · rintro rfl
      exact hplain
    · rintro token sender rfl
      exact hplain
    · rintro n popup rfl
      exact hplain
  paced := by
    refine h.paced.note event ?_
    rintro token call popup rfl
    exact hplain

theorem Sound.send (h : Sound env s) (hcall : Backed env s s.calls.next call) :
    Sound env (s.send call) where
  sourced :=
    { h.sourced with
      calls := by
        intro id call' hholds
        rcases Slots.holds_put.mp hholds with ⟨rfl, rfl⟩ | hholds
        · exact hcall.grows (.of_eq rfl rfl)
        · exact (h.sourced.calls id call' hholds).grows (.of_eq rfl rfl) }
  paced := h.paced.congr rfl

/-- An answered call is not waited for any more. -/
theorem Sound.take (h : Sound env s) (id : Nat) :
    Sound env { s with calls := s.calls.take id } where
  sourced :=
    { h.sourced with
      calls := by
        intro id' call hholds
        exact (h.sourced.calls id' call (Slots.holds_take.mp hholds).2).grows (.of_eq rfl rfl) }
  paced := h.paced.congr rfl

theorem length_erase_le [DecidableEq κ] (d : Dict κ ν) (k : κ) :
    (d.erase k).items.length ≤ d.items.length := List.length_filter_le _ _

theorem length_set_le [DecidableEq κ] (d : Dict κ ν) (k : κ) (v : ν) :
    (d.set k v).items.length ≤ d.items.length + 1 := by
  show (Dict.setItems d.items k v).length ≤ _
  unfold Dict.setItems
  by_cases h : k ∈ d.items.map Prod.fst
  · rw [if_pos h, List.length_map]
    omega
  · rw [if_neg h, List.length_append, List.length_singleton]

variable {sender : Str}

theorem finish_of_ne (h : s.pending.get? sender ≠ some token) :
    s.finish sender token = s := if_neg h

theorem Sound.finish (h : Sound env s) (sender : Str) (token : Nat) :
    Sound env (s.finish sender token) := by
  unfold State.finish
  by_cases hget : s.pending.get? sender = some token
  · rw [if_pos hget]
    refine ⟨{ h.sourced with pending := ?_, few := ?_, calls := ?_ }, (h.paced.congr rfl)⟩
    · intro a t ha
      rw [Dict.get?_erase] at ha
      by_cases hsender : a = sender
      · rw [if_pos hsender] at ha
        nomatch ha
      rw [if_neg hsender] at ha
      exact h.sourced.pending a t ha
    · exact (length_erase_le _ _).trans h.sourced.few
    · exact fun id call hcall => (h.sourced.calls id call hcall).grows (.of_eq rfl rfl)
  · rw [if_neg hget]
    exact h

/-! ### Enabled plugins -/

/-- Reading the manifests changes what is kept of them, and nothing else. -/
theorem refresh_eq (env : Env) (s : State) :
    s.refresh env = s ∨ ∃ manifests at', (∀ m ∈ manifests, m ∈ env.installed) ∧
      s.refresh env = { s with manifests := manifests, manifestsAt := at' } := by
  unfold State.refresh
  split
  · exact .inl rfl
  refine .inr ⟨_, _, ?_, rfl⟩
  split
  · simp
  · exact fun m hm => hm

theorem look_eq (env : Env) (s : State) :
    s.look env = s ∨ ∃ manifests at', (∀ m ∈ manifests, m ∈ env.installed) ∧
      s.look env = { s with manifests := manifests, manifestsAt := at' } := by
  unfold State.look
  split
  · exact .inl rfl
  · exact refresh_eq env s

theorem Sound.manifests (h : Sound env s) {manifests : List Manifest} {at' : Option Int}
    (hmanifests : ∀ m ∈ manifests, m ∈ env.installed) :
    Sound env { s with manifests := manifests, manifestsAt := at' } :=
  ⟨h.sourced.congr hmanifests rfl, (h.paced.congr rfl)⟩

theorem Sound.refresh (h : Sound env s) : Sound env (s.refresh env) := by
  rcases refresh_eq env s with heq | ⟨manifests, at', hmanifests, heq⟩
  · rw [heq]
    exact h
  rw [heq]
  exact h.manifests hmanifests

theorem Sound.look (h : Sound env s) : Sound env (s.look env) := by
  rcases look_eq env s with heq | ⟨manifests, at', hmanifests, heq⟩
  · rw [heq]
    exact h
  rw [heq]
  exact h.manifests hmanifests

section

variable (env : Env) (s : State)

@[simp] theorem refresh_pending : (s.refresh env).pending = s.pending := by
  rcases refresh_eq env s with heq | ⟨_, _, _, heq⟩ <;> rw [heq]

@[simp] theorem refresh_calls : (s.refresh env).calls = s.calls := by
  rcases refresh_eq env s with heq | ⟨_, _, _, heq⟩ <;> rw [heq]

@[simp] theorem look_log : (s.look env).log = s.log := by
  rcases look_eq env s with heq | ⟨_, _, _, heq⟩ <;> rw [heq]

@[simp] theorem look_pending : (s.look env).pending = s.pending := by
  rcases look_eq env s with heq | ⟨_, _, _, heq⟩ <;> rw [heq]

@[simp] theorem look_calls : (s.look env).calls = s.calls := by
  rcases look_eq env s with heq | ⟨_, _, _, heq⟩ <;> rw [heq]

@[simp] theorem look_generation : (s.look env).generation = s.generation := by
  rcases look_eq env s with heq | ⟨_, _, _, heq⟩ <;> rw [heq]

theorem grows_look : Grows s (s.look env) := .of_eq (look_generation env s) (look_log env s)

end

/-- An enabled plugin is installed, and it is not disabled. -/
theorem enabled_spec (h : Sound env s) {pluginId busName : Str}
    (henabled : s.enabled pluginId busName = true) :
    (∃ m ∈ env.installed, m.id = pluginId ∧ m.busName = busName) ∧ pluginId ∉ s.disabled := by
  obtain ⟨-, hany⟩ := Bool.and_eq_true_iff.mp henabled
  obtain ⟨m, hm, heq⟩ := List.any_eq_true.mp hany
  obtain ⟨hid, hbus⟩ := of_decide_eq_true heq
  unfold State.candidates at hm
  by_cases hfail : s.disabledFail = true
  · rw [if_pos hfail] at hm
    nomatch hm
  rw [if_neg hfail] at hm
  obtain ⟨hmem, hdisabled⟩ := List.mem_filter.mp hm
  refine ⟨⟨m, h.sourced.manifests m hmem, hid, hbus⟩, ?_⟩
  rw [← hid]
  exact of_decide_eq_true hdisabled

/-! ### Windows -/

/-- A look at a window drops what does not count any more. -/
theorem Sound.room (h : Sound env s) (key : Str) (limit : Nat) :
    Sound env { s with recent := (room s.now s.recent key limit).1 } where
  sourced := h.sourced.congr h.sourced.manifests rfl
  paced :=
    { keys := fun j hj => h.paced.keys j (room_keys _ _ _ _ _ hj)
      keeps := by
        intro j
        show Window.Keeps windowLength s.now (kept (PluginPopups.room s.now s.recent key limit).1 j)
          (shownTimes j s.log)
        rw [room_fst]
        by_cases hj : j = key
        · rw [if_pos hj, dropOld_eq, ← hj]
          exact (h.paced.keeps j).prune
        rw [if_neg hj]
        exact h.paced.keeps j
      limited := h.paced.limited }

/-- There are few installed plugins, as far as the table of the shown popups can tell. -/
def Few (env : Env) : Prop := (env.installed.map Manifest.id).dedup.length ≤ maxWindows

/-- **A popup that is shown within the rate keeps the rate.** -/
theorem Paced.shown (hfew : Few env) (h : Paced env s) {call : Nat} {recent : Windows}
    (hgranted : admitCall s.now s.recent popup.pluginId popupsPerMinute = (recent, true))
    (hid : popup.pluginId ∈ env.installed.map Manifest.id) :
    Paced env ({ s with recent }.note (.shown token call popup)) := by
  rw [admitCall_eq] at hgranted
  by_cases hroom : (room s.now s.recent popup.pluginId popupsPerMinute).2 = true
  · rw [if_pos hroom] at hgranted
    have hlt : (dropOld s.now (kept s.recent popup.pluginId)).length < popupsPerMinute :=
      (room_snd (by decide)).mp hroom
    have hkept : ∀ j, kept (room s.now s.recent popup.pluginId popupsPerMinute).1 j =
        if j = popup.pluginId then dropOld s.now (kept s.recent popup.pluginId)
        else kept s.recent j := room_fst _ _ _ _
    -- the table's keys are ids of installed plugins, so it loses nothing
    have hkeys : ∀ j ∈ ((room s.now s.recent popup.pluginId popupsPerMinute).1.set popup.pluginId
        (kept (room s.now s.recent popup.pluginId popupsPerMinute).1 popup.pluginId ++
          [s.now])).keys, j ∈ env.installed.map Manifest.id := by
      intro j hj
      rcases Dict.mem_keys_set.mp hj with rfl | hj
      · exact hid
      · exact h.keys j (room_keys _ _ _ _ _ hj)
    have hrecent := (Prod.mk.inj hgranted).1
    rw [evict_eq ((length_le_of_keys hkeys).trans hfew)] at hrecent
    subst hrecent
    have hkeep := (h.keeps popup.pluginId).prune
    rw [← dropOld_eq] at hkeep
    have hshown : shownTimes popup.pluginId
        (⟨s.now, s.disabled, .shown token call popup⟩ :: s.log) =
          shownTimes popup.pluginId s.log ++ [s.now] := shownTimes_shown rfl rfl
    have hother : ∀ j, j ≠ popup.pluginId →
        shownTimes j (⟨s.now, s.disabled, .shown token call popup⟩ :: s.log) =
          shownTimes j s.log := by
      intro j hj
      apply shownTimes_cons
      intro token' call' popup' heq
      cases heq
      exact Ne.symm hj
    refine ⟨hkeys, fun j => ?_, fun j => ?_⟩
    · show Window.Keeps windowLength s.now (kept (Dict.set _ _ _) j) (shownTimes j (_ :: s.log))
      rw [kept_set]
      by_cases hj : j = popup.pluginId
      · rw [if_pos hj, hj, hshown, hkept, if_pos rfl]
        exact hkeep.add s.now
      rw [if_neg hj, hkept, if_neg hj, hother j hj]
      exact h.keeps j
    show Window.Limited popupsPerMinute windowLength (shownTimes j (_ :: s.log))
    by_cases hj : j = popup.pluginId
    · rw [hj, hshown]
      exact (h.limited popup.pluginId).add hkeep hlt
    rw [hother j hj]
    exact h.limited j
  · rw [if_neg hroom] at hgranted
    nomatch (Prod.mk.inj hgranted).2

/-- A look that is refused leaves the table as a look does. -/
theorem admitCall_false {table' : Windows} {key : Str} {limit : Nat}
    (h : admitCall now table key limit = (table', false)) :
    table' = (room now table key limit).1 := by
  rw [admitCall_eq] at h
  by_cases hroom : (room now table key limit).2 = true
  · rw [if_pos hroom] at h
    nomatch (Prod.mk.inj h).2
  rw [if_neg hroom] at h
  exact (Prod.mk.inj h).1.symm

/-! ## A signal's exchange -/

theorem Sound.begin (h : Sound env s) (hfew : s.pending.items.length < maxPendingSenders)
    (sender : Str) : Sound env (s.begin sender) where
  sourced :=
    { manifests := h.sourced.manifests
      valid := ⟨fun a htold => absurd (h.sourced.tokens s.tokens a htold) (lt_irrefl _),
        h.sourced.valid⟩
      pending := by
        intro a t hget
        rw [State.begin, State.note, Dict.get?_set] at hget
        by_cases ha : a = sender
        · rw [if_pos ha] at hget
          rw [← Option.some.inj hget, ha]
          exact Trace.Since.here rfl
        · rw [if_neg ha] at hget
          exact (h.sourced.pending a t hget).cons nofun
      few := by
        have hset := length_set_le s.pending sender s.tokens
        show (s.pending.set sender s.tokens).items.length ≤ maxPendingSenders
        omega
      calls := fun id call hcall =>
        (h.sourced.calls id call hcall).grows (.of_cons rfl rfl nofun)
      tokens := by
        intro t a htold
        show t < s.tokens + 1
        rcases told_cons_iff.mp htold with heq | htold
        · have ht : s.tokens = t := (Event.begun.inj heq).1
          omega
        have ht := h.sourced.tokens t a htold
        omega
      clicks := by
        intro n popup htold
        rcases told_cons_iff.mp htold with heq | htold
        · nomatch heq
        · exact h.sourced.clicks n popup htold }
  paced := by
    have hset : Paced env { s with
        pending := s.pending.set sender s.tokens, tokens := s.tokens + 1 } :=
      h.paced.congr rfl
    exact hset.note (.begun s.tokens sender) nofun

theorem Sound.pendingCall (h : Sound env s) (call : Call) (hcall : Backed env s s.calls.next call)
    (r : Raised) : Sound env (s.pendingCall sender token call r) := by
  unfold State.pendingCall
  by_cases hraised : r.first.isSome = true
  · rw [if_pos hraised]
    exact h.finish sender token
  rw [if_neg hraised]
  exact h.send hcall

theorem Sound.matchOwner (h : Sound env s) (sender : Str) (candidates : List Manifest)
    (token : Nat) (r : Raised) : Sound env (s.matchOwner sender candidates token r) := by
  unfold State.matchOwner
  by_cases hpending : s.pending.get? sender = some token
  · rw [if_neg (not_not.mpr hpending)]
    cases candidates with
    | nil =>
      have herase : Sound env { s with verified := s.verified.erase sender } := h.congr rfl
      exact herase.finish sender token
    | cons plugin rest =>
      refine h.pendingCall _ ?_ r
      exact (h.sourced.pending sender token hpending).told
  · rw [if_pos hpending]
    exact h

variable {plugin : Manifest}

theorem Sound.sendFetch (h : Sound env s) (hbegun : Told s.log (.begun token sender))
    (hchecked : Checked env s.log (.notify token) plugin.busName sender) (r : Raised) :
    Sound env (s.sendFetch sender plugin left token r) := by
  unfold State.sendFetch
  by_cases hraised : r.first.isSome = true
  · rw [if_pos hraised]
    exact h.finish sender token
  rw [if_neg hraised]
  have hnote := h.note (.fetchSent token s.calls.next sender plugin) trivial ⟨hbegun, hchecked⟩
  refine hnote.send ⟨told_cons_iff.mpr (.inl rfl), ?_⟩
  exact hchecked.grows (grows_note nofun)

/-- **A fetch is sent to the connection that was checked.** -/
theorem Sound.fetch (h : Sound env s)
    (hchecked : Checked env s.log (.notify token) plugin.busName sender) (r : Raised) :
    Sound env (s.fetch env sender plugin left token r) := by
  unfold State.fetch
  by_cases hpending : s.pending.get? sender = some token
  · rw [if_neg (not_not.mpr hpending)]
    have hbegun := (h.sourced.pending sender token hpending).told
    by_cases hleft : left = 0
    · rw [if_pos hleft]
      exact h.finish sender token
    rw [if_neg hleft]
    dsimp only
    have hlook := h.look
    by_cases henabled : (s.look env).enabled plugin.id plugin.busName = false
    · rw [if_pos henabled]
      exact hlook.finish sender token
    rw [if_neg henabled]
    have hroom := hlook.room plugin.id popupsPerMinute
    cases hr : PluginPopups.room (s.look env).now (s.look env).recent plugin.id popupsPerMinute with
    | mk recent ok =>
      rw [hr] at hroom
      cases ok with
      | false => exact hroom.finish sender token
      | true =>
        cases hf : admitCall (s.look env).now (s.look env).fetches plugin.id fetchesPerMinute with
        | mk fetches ok =>
          cases ok with
          | false =>
            refine Sound.finish ?_ sender token
            exact hroom.congr rfl
          | true =>
            apply Sound.sendFetch
            · exact hroom.congr rfl
            · exact hbegun.grows (grows_look env s)
            · exact hchecked.grows (grows_look env s)
  · rw [if_pos hpending]
    exact h

theorem Sound.changedKnown (h : Sound env s) (hfew : s.pending.items.length < maxPendingSenders)
    (sender : Str) (known : Manifest) (r : Raised) :
    Sound env (s.changedKnown env sender known r) := by
  unfold State.changedKnown
  dsimp only
  have hlook := h.look
  by_cases henabled : (s.look env).enabled known.id known.busName = false
  · rw [if_pos henabled]
    exact hlook
  rw [if_neg henabled]
  have hroom := hlook.room known.id popupsPerMinute
  cases hr : PluginPopups.room (s.look env).now (s.look env).recent known.id popupsPerMinute with
  | mk recent ok =>
    rw [hr] at hroom
    cases ok with
    | false => exact hroom
    | true =>
      cases PluginPopups.room (s.look env).now (s.look env).fetches known.id fetchesPerMinute with
      | mk fetches ok =>
        cases ok with
        | false => exact hroom.congr rfl
        | true =>
          cases admitCall (s.look env).now (s.look env).lookups sender fetchesPerMinute with
          | mk lookups ok =>
            cases ok with
            | false => exact hroom.congr rfl
            | true =>
              apply Sound.matchOwner
              refine Sound.begin ?_ ?_ sender
              · exact hroom.congr rfl
              · rw [look_pending]
                exact hfew

theorem Sound.changedUnknown (h : Sound env s) (hfew : s.pending.items.length < maxPendingSenders)
    (sender : Str) (r : Raised) : Sound env (s.changedUnknown env sender r) := by
  unfold State.changedUnknown
  cases admitCall s.now s.lookups sender lookupsPerMinute with
  | mk lookups ok =>
    cases ok with
    | false => exact h.congr rfl
    | true =>
      apply Sound.matchOwner
      apply Sound.refresh
      have hlookups : Sound env { s with lookups := lookups } := h.congr rfl
      exact hlookups.begin hfew sender

theorem Sound.onChanged (h : Sound env s) (sender : Str) (r : Raised) :
    Sound env (s.onChanged env sender r) := by
  unfold State.onChanged
  by_cases hoff : sender = [] ∨ s.stopped = true
  · rw [if_pos hoff]
    exact h
  rw [if_neg hoff]
  by_cases hpending : (s.pending.get? sender).isSome = true
  · rw [if_pos hpending]
    exact h.congr rfl
  rw [if_neg hpending]
  by_cases hfull : s.pending.items.length ≥ maxPendingSenders
  · rw [if_pos hfull]
    exact h
  rw [if_neg hfull]
  cases s.verified.get? sender with
  | some known => exact h.changedKnown (not_le.mp hfull) sender known r
  | none => exact h.changedUnknown (not_le.mp hfull) sender r

/-! ## Replies to a signal's exchange -/

theorem Sound.ownerReplied {rest : List Manifest} (h : Sound env s)
    (hbegun : Told s.log (.begun token sender)) (name : Str) (r : Raised) :
    Sound env (s.ownerReplied sender plugin rest token name r) := by
  unfold State.ownerReplied
  have hnote := h.note (.ownerTold (.notify token) plugin.busName name) trivial ⟨sender, hbegun⟩
  dsimp only
  by_cases hpending :
      (s.note (.ownerTold (.notify token) plugin.busName name)).pending.get? sender = some token
  · rw [if_neg (not_not.mpr hpending)]
    by_cases hname : name = sender
    · rw [if_pos hname]
      refine hnote.pendingCall (.user sender plugin token) ⟨hbegun.cons _, ?_⟩ r
      exact told_cons_iff.mpr (.inl (by rw [hname]))
    · rw [if_neg hname]
      exact hnote.matchOwner sender rest token r
  · rw [if_pos hpending]
    exact hnote

theorem Sound.userReplied (h : Sound env s) (hbegun : Told s.log (.begun token sender))
    (howner : Told s.log (.ownerTold (.notify token) plugin.busName sender)) (uid : Int)
    (r : Raised) : Sound env (s.userReplied env sender plugin token uid r) := by
  unfold State.userReplied
  have hnote := h.note (.userTold (.notify token) sender uid) trivial hbegun
  dsimp only
  by_cases hpending :
      (s.note (.userTold (.notify token) sender uid)).pending.get? sender = some token
  · rw [if_neg (not_not.mpr hpending)]
    by_cases huid : uid = env.uid
    · rw [if_neg (not_not.mpr huid)]
      apply Sound.fetch
      · exact hnote.congr rfl
      · exact ⟨howner.cons _, told_cons_iff.mpr (.inl (by rw [huid]))⟩
    · rw [if_pos huid]
      exact hnote.finish sender token
  · rw [if_pos hpending]
    exact hnote

theorem grows_deliver (env : Env) (s : State) (plugin : Manifest) (note : Notification)
    (token id : Nat) : Grows s (s.deliver env plugin note token id) := by
  unfold State.deliver
  dsimp only
  by_cases henabled : (s.look env).enabled plugin.id plugin.busName = false
  · rw [if_pos henabled]
    exact grows_look env s
  rw [if_neg henabled]
  cases admitCall (s.look env).now (s.look env).recent plugin.id popupsPerMinute with
  | mk recent ok =>
    cases ok with
    | false => exact .of_eq (look_generation env s) (look_log env s)
    | true =>
      refine ⟨look_generation env s, [⟨(s.look env).now, (s.look env).disabled, .shown token id
        ⟨plugin.id, plugin.name, plugin.busName, note, plugin.pluginAlias⟩⟩], ?_, ?_⟩
      · rw [look_log]
        rfl
      · intro e he heq
        rw [List.mem_singleton.mp he] at heq
        nomatch heq

/-- **A popup is shown only for an enabled plugin, from the fetch that brought it.** -/
theorem Sound.deliver (hfew : Few env) {note : Notification} {text : Str} {more : Bool}
    (h : Sound env s) (hcurrent : Current s.log (.begun token sender))
    (hsent : Told s.log (.fetchSent token id sender plugin))
    (hanswered : Told s.log (.fetchAnswered id text))
    (hparsed : env.parsePending text = .pending (some note) more) :
    Sound env (s.deliver env plugin note token id) := by
  unfold State.deliver
  dsimp only
  have hlook := h.look
  have hgrows := grows_look env s
  by_cases henabled : (s.look env).enabled plugin.id plugin.busName = false
  · rw [if_pos henabled]
    exact hlook
  rw [if_neg henabled]
  obtain ⟨hinstalled, hdisabled⟩ := enabled_spec hlook (Bool.not_eq_false _ ▸ henabled)
  have hroom := hlook.room plugin.id popupsPerMinute
  cases hgranted : admitCall (s.look env).now (s.look env).recent plugin.id popupsPerMinute with
  | mk recent ok =>
    cases ok with
    | false =>
      rw [admitCall_false hgranted]
      exact hroom
    | true =>
      have hsourced : Sourced env { s.look env with recent := recent } :=
        hlook.sourced.congr hlook.sourced.manifests rfl
      constructor
      · refine hsourced.note _ ⟨⟨sender, plugin, text, more, hsent.grows hgrows, rfl, rfl,
          hanswered.grows hgrows, hparsed, hcurrent.grows hgrows⟩, hinstalled, hdisabled⟩
          ?_ ?_ ?_
        · nofun
        · nofun
        · nofun
      · refine hlook.paced.shown hfew hgranted ?_
        obtain ⟨m, hm, hid, -⟩ := hinstalled
        exact List.mem_map.mpr ⟨m, hm, hid⟩

theorem Sound.fetchReplied (hfew : Few env) (h : Sound env s)
    (hsent : Told s.log (.fetchSent token id sender plugin))
    (hchecked : Checked env s.log (.notify token) plugin.busName sender) (args : List Arg)
    (r : Raised) : Sound env (s.fetchReplied env id sender plugin left token args r) := by
  unfold State.fetchReplied
  split
  · rename_i text
    have hnote := h.note (.fetchAnswered id text) trivial trivial
    have hgrows : Grows s (s.note (.fetchAnswered id text)) := grows_note nofun
    dsimp only
    by_cases hpending : (s.note (.fetchAnswered id text)).pending.get? sender = some token
    · rw [if_neg (not_not.mpr hpending)]
      by_cases hsize : (Text.encode text).length > maxReplyBytes
      · rw [if_pos hsize]
        exact hnote.finish sender token
      rw [if_neg hsize]
      cases hparsed : env.parsePending text with
      | surfaceError => exact hnote.finish sender token
      | raises => exact hnote
      | pending note more =>
        cases note with
        | none =>
          dsimp only
          split
          · exact hnote.fetch (hchecked.grows hgrows) r
          · exact hnote.finish sender token
        | some note =>
          have hdeliver := Sound.deliver hfew hnote
            (hnote.sourced.pending sender token hpending) (hsent.grows hgrows)
            (told_cons_iff.mpr (.inl rfl)) hparsed
          dsimp only
          split
          · refine hdeliver.fetch ?_ r
            exact (hchecked.grows hgrows).grows (grows_deliver env _ plugin note token id)
          · exact hdeliver.finish sender token
    · rw [if_pos hpending]
      exact hnote
  · exact h.finish sender token
  · exact h

/-! ## Clicks -/

theorem Sound.lookAgain (h : Sound env s) (generation : Nat) :
    Sound env (s.lookAgain env generation) := by
  unfold State.lookAgain
  split
  · exact h.look
  · exact h

theorem grows_lookAgain (env : Env) (s : State) (generation : Nat) :
    Grows s (s.lookAgain env generation) := by
  unfold State.lookAgain
  split
  · exact grows_look env s
  · exact .refl s

section

variable (h : Sound env s)
include h

/-- What the failure does keeps the invariant as well. -/
theorem Sound.clickCall (call : Call) (hcall : ∀ s', Grows s s' → ∀ id, Backed env s' id call)
    (raised : Option Str) (failure : State → Str → State)
    (hfailure : ∀ s' name, Grows s s' → Sound env s' → Sound env (failure s' name)) :
    Sound env (s.clickCall env generation popup call raised failure) := by
  unfold State.clickCall
  dsimp only
  have hgrows := grows_lookAgain env s generation
  split
  · exact h.lookAgain generation
  cases raised with
  | none => exact (h.lookAgain generation).send (hcall _ hgrows _)
  | some name => exact hfailure _ name hgrows (h.lookAgain generation)

theorem Sound.missing (hclicked : Clicked s n popup generation) (activate : Bool)
    (raised : Option Str) (name : Str) :
    Sound env (State.missing env n popup generation activate raised s name) := by
  unfold State.missing
  split
  · apply Sound.clickCall h
    · exact fun s' hgrows id => hclicked.grows hgrows
    · exact fun s' name _ hs' => hs'
  · exact h

theorem Sound.lookup (hclicked : Clicked s n popup generation) (activate : Bool)
    (r : Raised) : Sound env (s.lookup env n popup generation activate r) := by
  apply Sound.clickCall h
  · exact fun s' hgrows id => hclicked.grows hgrows
  · exact fun s' name hgrows hs' => hs'.missing (hclicked.grows hgrows) activate r.second name

theorem Sound.invoke (popup : PluginPopup) (r : Raised) : Sound env (s.invoke env popup r) := by
  unfold State.invoke
  split
  · exact h
  dsimp only
  split
  · exact h.look
  have hlook := h.look
  have hbegun : Sound env ({ s.look env with clicks := (s.look env).clicks + 1 }.note
      (.clicked (s.look env).clicks popup)) :=
    { sourced :=
        { manifests := hlook.sourced.manifests
          valid := ⟨fun p htold => absurd (hlook.sourced.clicks _ p htold) (lt_irrefl _),
            hlook.sourced.valid⟩
          pending := fun sender token hget =>
            (hlook.sourced.pending sender token hget).cons nofun
          few := hlook.sourced.few
          calls := fun id call hcall =>
            (hlook.sourced.calls id call hcall).grows
              (.of_cons rfl rfl nofun)
          tokens := by
            intro token sender htold
            rcases told_cons_iff.mp htold with heq | htold
            · nomatch heq
            · exact hlook.sourced.tokens token sender htold
          clicks := by
            intro n p htold
            show n < (s.look env).clicks + 1
            rcases told_cons_iff.mp htold with heq | htold
            · have hn : (s.look env).clicks = n := (Event.clicked.inj heq).1
              omega
            have hn := hlook.sourced.clicks n p htold
            omega }
      paced := by
        have hset : Paced env { s.look env with clicks := (s.look env).clicks + 1 } :=
          hlook.paced.congr rfl
        exact hset.note _ nofun }
  refine hbegun.lookup ⟨told_cons_iff.mpr (.inl rfl), le_refl _, fun _ => ?_⟩ true r
  exact Trace.Since.here rfl

theorem Sound.ownerFound (hclicked : Clicked s n popup generation) (owner : Str)
    (r : Raised) : Sound env (s.ownerFound env n popup generation owner r) := by
  unfold State.ownerFound
  have hnote := h.note (.ownerTold (.click n) popup.busName owner) trivial
    ⟨popup, hclicked.told, rfl⟩
  have hgrows : Grows s (s.note (.ownerTold (.click n) popup.busName owner)) := grows_note nofun
  have hagain := hnote.lookAgain generation
  have hgrows' := grows_lookAgain env (s.note (.ownerTold (.click n) popup.busName owner)) generation
  dsimp only
  split
  · exact hagain
  apply Sound.clickCall hagain
  · intro s' hlater id
    refine ⟨((hclicked.grows hgrows).grows hgrows').grows hlater, ?_⟩
    have howner : Told (s.note (.ownerTold (.click n) popup.busName owner)).log
        (.ownerTold (.click n) popup.busName owner) := told_cons_iff.mpr (.inl rfl)
    exact (howner.grows hgrows').grows hlater
  · exact fun s' name _ hs' => hs'

/-- **A click's action is sent to the connection that was checked.** -/
theorem Sound.sendAction {owner : Str} (hclicked : Clicked s n popup generation)
    (hchecked : Checked env s.log (.click n) popup.busName owner) (raised : Option Str) :
    Sound env (s.sendAction env n popup generation owner raised) := by
  unfold State.sendAction
  have hagain := h.lookAgain generation
  have hgrows := grows_lookAgain env s generation
  dsimp only
  split
  · exact hagain
  cases raised with
  | none =>
    have hnote := hagain.note (.actionSent n owner popup) trivial
      ⟨hclicked.told.grows hgrows, hchecked.grows hgrows⟩
    exact hnote.send ((hclicked.grows hgrows).grows (grows_note nofun))
  | some name => exact hagain

theorem Sound.userChecked {owner : Str} (hclicked : Clicked s n popup generation)
    (howner : Told s.log (.ownerTold (.click n) popup.busName owner)) (uid : Int) (r : Raised) :
    Sound env (s.userChecked env n popup generation owner uid r) := by
  unfold State.userChecked
  have hnote := h.note (.userTold (.click n) owner uid) trivial ⟨popup, hclicked.told⟩
  have hgrows : Grows s (s.note (.userTold (.click n) owner uid)) := grows_note nofun
  have hagain := hnote.lookAgain generation
  have hgrows' := grows_lookAgain env (s.note (.userTold (.click n) owner uid)) generation
  dsimp only
  split
  · exact hagain
  by_cases huid : uid = env.uid
  · rw [if_neg (not_not.mpr huid)]
    apply Sound.sendAction hagain ((hclicked.grows hgrows).grows hgrows')
    have huser : Told (s.note (.userTold (.click n) owner uid)).log
        (.userTold (.click n) owner env.uid) := told_cons_iff.mpr (.inl (by rw [huid]))
    exact ⟨(howner.grows hgrows).grows hgrows', huser.grows hgrows'⟩
  · rw [if_pos huid]
    exact hagain

end

/-- What is true of `current` of a click. -/
theorem current_spec (h : ¬ s.current generation popup = false) : generation = s.generation := by
  rw [Bool.not_eq_false] at h
  exact of_decide_eq_true (Bool.and_eq_true_iff.mp h).1

theorem Sound.actionReplied (h : Sound env s) (hclicked : Clicked s n popup generation)
    (args : List Arg) : Sound env (s.actionReplied env n popup generation args) := by
  unfold State.actionReplied
  have hagain := h.lookAgain generation
  have hgrows := grows_lookAgain env s generation
  split
  · dsimp only
    split
    · exact hagain
    rename_i hcurrent
    split
    · exact hagain
    split
    · split
      · refine hagain.note _ trivial ⟨popup, ?_⟩
        exact (hclicked.grows hgrows).current (current_spec hcurrent)
      · exact hagain
    · exact hagain
  · exact h

/-! ## Every step -/

theorem Sound.answered (hfew : Few env) (h : Sound env s) (hcall : Backed env s id call)
    (answer : Answer) (r : Raised) : Sound env (s.answered env id call answer r) := by
  unfold State.answered
  split
  · exact h.ownerReplied hcall _ r
  · exact h.matchOwner _ _ _ r
  · exact h.userReplied hcall.1 hcall.2 _ r
  · exact h.finish _ _
  · exact Sound.fetchReplied hfew h hcall.1 hcall.2 _ r
  · exact h.finish _ _
  · exact h.ownerFound hcall _ r
  · exact h.missing hcall _ _ _
  · exact h.lookup hcall _ r
  · exact h
  · exact h.userChecked hcall.1 hcall.2 _ r
  · exact h
  · exact h.actionReplied hcall _
  · exact h
  · exact h

/-- `stop` forgets the pending senders, and the present generation is that of no click before. -/
theorem Sound.stop (h : Sound env s) : Sound env s.stop where
  sourced :=
    { manifests := h.sourced.manifests
      valid := ⟨trivial, h.sourced.valid⟩
      pending := nofun
      few := Nat.zero_le _
      calls := by
        intro id call hcall
        have hbacked := h.sourced.calls id call hcall
        have hclick : ∀ n popup generation, Clicked s n popup generation →
            Clicked s.stop n popup generation := by
          intro n popup generation hclicked
          have hle := hclicked.le
          refine ⟨hclicked.told.cons _, ?_, fun heq => ?_⟩
          · show generation ≤ s.generation + 1
            omega
          · have hgeneration : generation = s.generation + 1 := heq
            omega
        cases call with
        | owner sender plugin rest token => exact Told.cons hbacked _
        | user sender plugin token => exact ⟨hbacked.1.cons _, hbacked.2.cons _⟩
        | fetch sender plugin left token =>
          exact ⟨hbacked.1.cons _, hbacked.2.1.cons _, hbacked.2.2.cons _⟩
        | clickUser n popup generation owner =>
          exact ⟨hclick n popup generation hbacked.1, hbacked.2.cons _⟩
        | clickOwner n popup generation activate | startService n popup generation
          | invokeAction n popup generation => exact hclick n popup generation hbacked
      tokens := by
        intro token sender htold
        rcases told_cons_iff.mp htold with heq | htold
        · nomatch heq
        · exact h.sourced.tokens token sender htold
      clicks := by
        intro n popup htold
        rcases told_cons_iff.mp htold with heq | htold
        · nomatch heq
        · exact h.sourced.clicks n popup htold }
  paced := by
    have hset : Paced env { s with
        stopped := true, generation := s.generation + 1, pending := Dict.empty, fetchAgain := [],
        verified := Dict.empty, watched := false } := h.paced.congr rfl
    exact hset.note .stopped nofun

theorem step_answers_none {answer : Answer} {r : Raised}
    (h : s.calls.get id = none) : step env s (.answers id answer r) = s := by
  simp only [step, h]

theorem step_answers {answer : Answer} {r : Raised} (h : s.calls.get id = some call) :
    step env s (.answers id answer r) =
      if State.fits call answer then
        { s with calls := s.calls.take id }.answered env id call answer r
      else s := by
  simp only [step, h]

/-- **Step lemma.** Every step keeps what the exchanges and the rate rest on. -/
theorem Sound.step (hfew : Few env) (h : Sound env s) (i : Input) : Sound env (step env s i) := by
  cases i with
  | changed sender r => exact h.onChanged sender r
  | answers id answer r =>
    cases hget : s.calls.get id with
    | none =>
      rw [step_answers_none hget]
      exact h
    | some call =>
      rw [step_answers hget]
      split
      · refine (h.take id).answered hfew ?_ answer r
        exact (h.sourced.calls id call hget).grows (.of_eq rfl rfl)
      · exact h
  | click popup r => exact h.invoke popup r
  | tick d =>
    refine ⟨h.sourced.congr h.sourced.manifests rfl, ?_⟩
    refine ⟨h.paced.keys, fun j => ?_, h.paced.limited⟩
    refine (h.paced.keeps j).later ?_
    show s.now ≤ s.now + d
    omega
  | disables ids | files pluginsFail disabledFail => exact h.congr rfl
  | start fails =>
    show Sound env (s.start fails)
    unfold State.start
    split
    · exact h
    · exact h.congr rfl
  | stop => exact h.stop

theorem sound_init (env : Env) : Sound env {} where
  sourced :=
    { manifests := nofun
      valid := trivial
      pending := nofun
      few := Nat.zero_le _
      calls := nofun
      tokens := fun _ _ htold => by
        obtain ⟨e, he, -⟩ := htold
        nomatch he
      clicks := fun _ _ htold => by
        obtain ⟨e, he, -⟩ := htold
        nomatch he }
  paced :=
    { keys := nofun
      keeps := fun _ => Window.keeps_self _ _ _
      limited := fun _ => Window.limited_nil _ _ }

end BlueFerry.PluginPopups
