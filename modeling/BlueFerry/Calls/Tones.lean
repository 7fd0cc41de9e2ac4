import BlueFerry.Lib.Dict
import BlueFerry.Lib.Machine
import BlueFerry.Text.Basic

/-! # Keypad tones

`CallController` hands oFono one `SendTones` at a time and keeps the other requests in a queue. oFono
plays tones into whichever call is active, so a request is dropped when the call that it was typed
for is not active any more.

The queue knows a call by its identifier only, and oFono gives the identifier of a call that has
ended to the next one. Tones that wait at that moment go to the next call (`tones_misdirected`); in
every other run each request is settled once, in order, and reaches its own call (`tones_served`).
-/

namespace BlueFerry.Calls

open BlueFerry.Text
open Machine (Along)

/-! ## Calls -/

inductive CallState where
  | active | held | dialing | alerting | incoming | waiting | disconnected | unknown
  deriving DecidableEq

/-- A value that arrives from D-Bus: a string, or anything else. -/
inductive Value where
  | str (s : Str)
  | other

def callStates : List (Str × CallState) :=
  [("active".toList, .active), ("held".toList, .held), ("dialing".toList, .dialing),
    ("alerting".toList, .alerting), ("incoming".toList, .incoming), ("waiting".toList, .waiting),
    ("disconnected".toList, .disconnected)]

def parseCallState : Option Value → CallState
  | some (.str s) => (callStates.lookup s).getD .unknown
  | _ => .unknown

/-- `[A-Za-z0-9_]` -/
def isWord (c : Char) : Bool := isLetter c || isDigit c || c == '_'

/-- `[A-Za-z0-9_]{1,64}` -/
def isCallId (s : Str) : Bool := 1 ≤ s.length && s.length ≤ 64 && s.all isWord

/-- `/`, or words that each follow a `/`. -/
def validObjectPath (path : Str) : Bool :=
  path.length ≤ 255 &&
    match splitChar '/' path with
    | [] :: words => words == [[]] || words.all (fun w => !w.isEmpty && w.all isWord) && !words.isEmpty
    | _ => false

/-- The identifier of a call is the last part of its path. -/
def callIdFromPath : Value → Option Str
  | .other => none
  | .str path =>
    let candidate := (splitChar '/' (rstrip (· == '/') path)).getLastD []
    if validObjectPath path && isCallId candidate then some candidate else none

/-- A tracked call. `serial` says which call of the run it is: two calls can have one identifier. -/
structure CallRecord where
  callId : Str
  state : CallState
  serial : Nat

/-- The tracked calls, each under its own identifier. -/
structure Tracked where
  items : Dict Str CallRecord
  keyed : ∀ id r, items.get? id = some r → r.callId = id

namespace Tracked

def empty : Tracked := ⟨Dict.empty, fun _ _ h => nomatch h⟩

def get? (calls : Tracked) (id : Str) : Option CallRecord := calls.items.get? id

section

variable (calls : Tracked)

def put (r : CallRecord) : Tracked where
  items := calls.items.set r.callId r
  keyed := by
    intro id r' h
    rw [Dict.get?_set] at h
    split at h
    · next heq => rw [← Option.some.inj h, heq]
    · exact calls.keyed id r' h

def pop (id : Str) : Tracked where
  items := calls.items.erase id
  keyed := by
    intro id' r h
    rw [Dict.get?_erase] at h
    split at h
    · nomatch h
    · exact calls.keyed id' r h

/-- The call under an identifier, by its number in the run. -/
def serial? (id : Str) : Option Nat := (calls.get? id).map CallRecord.serial

theorem serial?_put (r : CallRecord) (id : Str) :
    (calls.put r).serial? id = if id = r.callId then some r.serial else calls.serial? id := by
  unfold serial? get? put
  rw [Dict.get?_set]
  split <;> rfl

theorem serial?_pop (id' id : Str) :
    (calls.pop id').serial? id = if id = id' then none else calls.serial? id := by
  unfold serial? get? pop
  rw [Dict.get?_erase]
  split <;> rfl

end

end Tracked

/-! ## Tones -/

/-- What a caller is told. -/
inductive CallsError where
  | invalidArguments (message : String)
  | disabled (message : String)
  | unavailable (message : String)
  | notFound (message : String)
  | operationFailed (operation : String)

inductive Outcome where
  | success
  | failure (error : CallsError)

/-- A request for tones: its number among the accepted ones, and the call that it was typed for. -/
structure Tones where
  number : Nat
  modem : Str
  callId : Str
  tones : Str
  serial : Nat

/-- The requests that wait and the ones that oFono has not answered. The other fields only record:
the accepted requests, the ones handed to oFono, each with the call as it is tracked then, and the
callbacks. -/
structure ToneLine where
  queue : List Tones
  busy : Bool
  unanswered : List Tones
  accepted : List Tones
  handed : List (Tones × CallRecord)
  outcomes : List (Nat × Outcome)

inductive CallsState where
  | disabled | unavailable | searching | connecting | ready | bluezConflict
  deriving DecidableEq

/-- `taken` counts the calls that have been tracked. -/
structure CallController where
  enabled : Bool
  state : CallsState
  boundPath : Option Str
  calls : Tracked
  snapshotChanges : Option (List Str)
  taken : Nat
  line : ToneLine

def ToneLine.settle (line : ToneLine) (t : Tones) (outcome : Outcome) : ToneLine :=
  { line with outcomes := line.outcomes ++ [(t.number, outcome)] }

/-- The oldest waiting tones whose call is active are handed to oFono; those before them are dropped. -/
def handOut (calls : Tracked) (line : ToneLine) : List Tones → ToneLine
  | [] => { line with queue := [] }
  | t :: rest =>
    match (calls.get? t.callId).filter (fun r => r.state = .active) with
    | none =>
      let error := CallsError.invalidArguments "the call is no longer active"
      handOut calls (line.settle t (.failure error)) rest
    | some record =>
      { line with
        queue := rest, busy := true
        unanswered := line.unanswered ++ [t], handed := line.handed ++ [(t, record)] }

section

variable (s : CallController)

def nextTones : CallController :=
  if s.line.busy then s else { s with line := handOut s.calls s.line s.line.queue }

def validateDtmf : Value → Except CallsError Str
  | .other => .error (.invalidArguments "DTMF tones are invalid")
  | .str value =>
    let compact := strip value
    if 1 ≤ compact.length ∧ compact.length ≤ 32 ∧
        compact.all (fun c => isDigit c || c == '*' || c == '#') = true then .ok compact
    else .error (.invalidArguments "DTMF tones must be 1-32 characters of 0-9, * and #")

def CallsState.detail : CallsState → String
  | .unavailable => "oFono is not running"
  | .searching => "oFono has no hands-free modem for the iPhone"
  | .connecting => "the iPhone's hands-free modem is not online yet"
  | .bluezConflict => "bluetoothd's own HFP plugin holds the call channel"
  | _ => "call control is not ready"

def requireReady : Except CallsError Str :=
  if s.enabled = false then
    .error (.disabled ("phone calls are disabled; enable them in the iPhone settings or with " ++
      "'blueferry calls enable'"))
  else
    match s.state, s.boundPath with
    | .ready, some modem => .ok modem
    | state, _ => .error (.unavailable ("phone calls are unavailable: " ++ state.detail))

def find (callId : Str) : Except CallsError CallRecord :=
  let selected := strip callId
  if isCallId selected then
    match s.calls.get? selected with
    | some record => .ok record
    | none => .error (.notFound "call no longer exists")
  else .error (.invalidArguments "call identifier is invalid")

/-- The request that `send_tones` accepts. -/
def toneRequest (callId : Str) (tones : Value) : Except CallsError Tones := do
  let selected ← validateDtmf tones
  let modem ← requireReady s
  let record ← find s callId
  if record.state ≠ .active then
    .error (.invalidArguments "DTMF tones need an active call")
  else if 32 ≤ s.line.queue.length then
    .error (.invalidArguments "too many keypad tones are waiting; try again")
  else .ok ⟨s.line.accepted.length, modem, record.callId, selected, record.serial⟩

def ToneLine.accept (line : ToneLine) (t : Tones) : ToneLine :=
  { line with queue := line.queue ++ [t], accepted := line.accepted ++ [t] }

def sendTones (callId : Str) (tones : Value) : Except CallsError CallController :=
  (toneRequest s callId tones).map (fun t => nextTones { s with line := s.line.accept t })

/-- oFono answers one of the requests that it was handed. A call that raises is answered with an
error before anything else happens. -/
def answered (place : Nat) (error : Bool) : CallController :=
  match s.line.unanswered[place]? with
  | none => s
  | some t =>
    let outcome := if error then .failure (.operationFailed "Call") else .success
    let line := s.line.settle t outcome
    nextTones { s with
      line := { line with busy := false, unanswered := line.unanswered.eraseIdx place } }

/-! ## The tracked calls -/

def CallController.changed (id : Str) : CallController :=
  { s with snapshotChanges := s.snapshotChanges.map (fun ids => id :: ids) }

def onCallProperty (id key : Str) (value : Value) : CallController :=
  let s := s.changed id
  match s.calls.get? id with
  | none => s
  | some current =>
    if key = "State".toList then
      { s with calls := s.calls.put { current with state := parseCallState (some value) } }
    else s

/-- A call as oFono announces it. `properties` is `none` for what is not a mapping; `watched` says
that its signals could be watched. -/
structure Announcement where
  path : Value
  properties : Option (Dict Str Value)
  watched : Bool

def onCallAdded (a : Announcement) : CallController :=
  match callIdFromPath a.path, a.properties with
  | some id, some properties =>
    let s := s.changed id
    if (s.calls.get? id).isSome then
      properties.items.foldl (fun s e => onCallProperty s id e.1 e.2) s
    else if 16 ≤ s.calls.items.items.length ∨ a.watched = false then s
    else
      let state := parseCallState (properties.get? "State".toList)
      { s with calls := s.calls.put ⟨id, state, s.taken⟩, taken := s.taken + 1 }
  | _, _ => s

def onCallRemoved (path : Value) : CallController :=
  match callIdFromPath path with
  | none => s
  | some id => { s.changed id with calls := s.calls.pop id }

/-- The calls that have changed since `GetCalls` was sent are newer than its reply. -/
def onExistingCalls (calls : List Announcement) : CallController :=
  let changed := s.snapshotChanges.getD []
  let news := calls.filter (fun a => (callIdFromPath a.path).all (fun id => !changed.contains id))
  news.foldl onCallAdded { s with snapshotChanges := none }

def unbind : CallController :=
  { s with snapshotChanges := none, boundPath := none, calls := .empty }

def bind (path : Str) (watched : Bool) : CallController :=
  if watched then { unbind s with snapshotChanges := some [], boundPath := some path } else unbind s

/-! ## Runs -/

inductive Input where
  | sendTones (callId : Str) (tones : Value)
  | answered (place : Nat) (error : Bool)
  | callAdded (call : Announcement)
  | callProperty (id key : Str) (value : Value)
  | callRemoved (path : Value)
  | existingCalls (calls : List Announcement)
  | existingCallsFailed
  | bind (path : Str) (watched : Bool)
  | unbind
  | setState (state : CallsState)
  | setEnabled (enabled : Bool)

/-- What oFono reports about calls counts only while the modem is bound. -/
def guarded (next : CallController) : CallController :=
  if s.boundPath.isSome then next else s

def step : Input → CallController
  | .sendTones callId tones => ((sendTones s callId tones).toOption).getD s
  | .answered place error => answered s place error
  | .callAdded call => guarded s (onCallAdded s call)
  | .callProperty id key value => guarded s (onCallProperty s id key value)
  | .callRemoved path => guarded s (onCallRemoved s path)
  | .existingCalls calls => guarded s (onExistingCalls s calls)
  | .existingCallsFailed => guarded s { s with snapshotChanges := none }
  | .bind path watched => bind s path watched
  | .unbind => unbind s
  | .setState state => { s with state := state }
  | .setEnabled enabled => { s with enabled := enabled }

def initial : CallController where
  enabled := true
  state := .unavailable
  boundPath := none
  calls := .empty
  snapshotChanges := none
  taken := 0
  line := ⟨[], false, [], [], [], []⟩

/-- What oFono announces. -/
def Input.announced : Input → List Announcement
  | .callAdded call => [call]
  | .existingCalls calls => calls
  | _ => []

/-- No call is announced under the identifier of one that has ended while tones typed for it wait. -/
def Orderly (i : Input) : Prop :=
  ∀ t ∈ s.line.queue, s.calls.get? t.callId = none →
    ∀ a ∈ i.announced, callIdFromPath a.path ≠ some t.callId

end

instance (s : CallController) (i : Input) : Decidable (Orderly s i) :=
  inferInstanceAs (Decidable (∀ t ∈ s.line.queue, s.calls.get? t.callId = none →
    ∀ a ∈ i.announced, callIdFromPath a.path ≠ some t.callId))

/-! ## What a caller can rely on -/

/-- The callbacks of a request. -/
def ToneLine.told (line : ToneLine) (n : Nat) : Nat := (line.outcomes.map Prod.fst).count n

/-- The places where a request waits. -/
def ToneLine.waits (line : ToneLine) (n : Nat) : Nat :=
  (line.unanswered.map Tones.number).count n + (line.queue.map Tones.number).count n

/-- Every accepted request waits or is told once, and is told once oFono has answered what it was
handed, one at a time. It is handed the tones in order, while their own call is active. -/
structure Served (line : ToneLine) : Prop where
  once : ∀ n < line.accepted.length, line.told n + line.waits n = 1 ∧
    (line.unanswered = [] → line.told n = 1)
  single : line.unanswered.length ≤ 1
  order : (line.handed.map Prod.fst).Sublist line.accepted
  active : ∀ e ∈ line.handed, e.2.state = .active ∧ e.2.serial = e.1.serial

/-- The tones go to their own call, also those that still wait: a tracked call under the identifier
of theirs is theirs. -/
structure Fair (calls : Tracked) (line : ToneLine) : Prop where
  once : ∀ n, line.told n + line.waits n = if n < line.accepted.length then 1 else 0
  busy : line.unanswered.length = if line.busy then 1 else 0
  order : (line.handed.map Prod.fst ++ line.queue).Sublist line.accepted
  active : ∀ e ∈ line.handed, e.2.state = .active ∧ e.2.serial = e.1.serial
  same : ∀ t ∈ line.queue, ∀ n, calls.serial? t.callId = some n → n = t.serial

/-- Tones wait only behind others. -/
def Sound (s : CallController) : Prop :=
  Fair s.calls s.line ∧ (s.line.busy = false → s.line.queue = [])

variable {s : CallController}

theorem Sound.served (h : Sound s) : Served s.line where
  once := by
    intro n hn
    have honce := h.1.once n
    rw [if_pos hn] at honce
    refine ⟨honce, fun hnone => ?_⟩
    have hbusy : s.line.busy = false := by
      have := h.1.busy
      rw [hnone] at this
      cases hb : s.line.busy with
      | false => rfl
      | true => simp [hb] at this
    have hwaits : s.line.waits n = 0 := by
      unfold ToneLine.waits
      rw [hnone, h.2 hbusy]
      rfl
    omega
  single := by
    rw [h.1.busy]
    split <;> omega
  order := (List.sublist_append_left _ _).trans h.1.order
  active := h.1.active

/-- **Handing out.** Each of the waiting requests up to the first whose call is active is told that
it is not; that one is handed to oFono. -/
theorem handOut_fair {calls : Tracked} {queue : List Tones} {line : ToneLine}
    (h : Fair calls { line with queue := queue }) (hidle : line.busy = false) :
    Fair calls (handOut calls line queue) ∧
      ((handOut calls line queue).busy = false → (handOut calls line queue).queue = []) := by
  induction queue generalizing line with
  | nil => exact ⟨h, fun _ => rfl⟩
  | cons t rest ih =>
    have hrest := (List.sublist_cons_self t rest).append_left (line.handed.map Prod.fst)
    have hsame := fun t' ht' => h.same t' (List.mem_cons_of_mem t ht')
    unfold handOut
    cases hcall : (calls.get? t.callId).filter (fun r => r.state = .active) with
    | none =>
      refine ih ⟨fun n => Eq.trans ?_ (h.once n), h.busy, hrest.trans h.order, h.active, hsame⟩
        hidle
      simp only [ToneLine.told, ToneLine.waits, ToneLine.settle, List.map_append, List.map_cons,
        List.map_nil, List.count_append, List.count_cons, List.count_nil]
      omega
    | some record =>
      obtain ⟨hget, hactive⟩ := Option.filter_eq_some_iff.mp hcall
      have hserial : calls.serial? t.callId = some record.serial := by
        rw [Tracked.serial?, hget]
        rfl
      have hown := h.same t (.head _) record.serial hserial
      refine ⟨⟨fun n => Eq.trans ?_ (h.once n), ?_, ?_, ?_, hsame⟩, nofun⟩
      · simp only [ToneLine.told, ToneLine.waits, List.map_append, List.map_cons, List.map_nil,
          List.count_append, List.count_cons, List.count_nil]
        omega
      · have hbusy := h.busy
        simp only [hidle, Bool.false_eq_true, if_false] at hbusy
        simp [hbusy]
      · have horder := h.order
        simpa using horder
      intro e he
      rcases List.mem_append.mp he with he | he
      · exact h.active e he
      rw [List.mem_singleton.mp he]
      exact ⟨of_decide_eq_true hactive, hown⟩

theorem nextTones_sound (h : Fair s.calls s.line) : Sound (nextTones s) := by
  unfold nextTones
  by_cases hbusy : s.line.busy = true
  · rw [if_pos hbusy]
    exact ⟨h, fun hfree => absurd (hfree.symm.trans hbusy) Bool.false_ne_true⟩
  rw [if_neg hbusy]
  exact handOut_fair h (Bool.eq_false_iff.mpr hbusy)

/-- A request is typed for a call that is tracked under its own identifier. -/
theorem toneRequest_ok {callId : Str} {tones : Value} {t : Tones}
    (h : toneRequest s callId tones = .ok t) :
    t.number = s.line.accepted.length ∧ s.calls.serial? t.callId = some t.serial := by
  simp only [toneRequest, Bind.bind, Except.bind] at h
  split at h
  · cases h
  split at h
  · cases h
  split at h
  · cases h
  next record hfind =>
  split at h
  · cases h
  split at h
  · cases h
  cases h
  refine ⟨rfl, ?_⟩
  simp only [find] at hfind
  split at hfind
  · split at hfind
    · next hget =>
      cases hfind
      have hkey : record.callId = strip callId := s.calls.keyed _ _ hget
      show (s.calls.get? record.callId).map CallRecord.serial = _
      rw [hkey, hget]
      rfl
    · cases hfind
  · cases hfind

theorem accept_fair {calls : Tracked} {line : ToneLine} {t : Tones} (h : Fair calls line)
    (hnumber : t.number = line.accepted.length) (hcall : calls.serial? t.callId = some t.serial) :
    Fair calls (line.accept t) where
  once := by
    intro n
    have honce := h.once n
    simp only [ToneLine.accept, ToneLine.told, ToneLine.waits, List.map_append, List.map_cons,
      List.map_nil, List.count_append, List.count_cons, List.count_nil, List.length_append,
      List.length_cons, List.length_nil, hnumber, beq_iff_eq] at honce ⊢
    split at honce <;> split <;> split <;> omega
  busy := h.busy
  order := by
    have horder := h.order.append_right [t]
    rwa [List.append_assoc] at horder
  active := h.active
  same := by
    intro t' ht' n hn
    rcases List.mem_append.mp ht' with ht' | ht'
    · exact h.same t' ht' n hn
    rw [List.mem_singleton.mp ht'] at hn ⊢
    exact (Option.some.inj (hcall.symm.trans hn)).symm

theorem answered_sound (h : Sound s) (place : Nat) (error : Bool) :
    Sound (answered s place error) := by
  unfold answered
  cases hplace : s.line.unanswered[place]? with
  | none => exact h
  | some t =>
    -- There is one request at most that oFono has not answered.
    obtain ⟨hlt, hget⟩ := List.getElem?_eq_some_iff.mp hplace
    have hone : s.line.unanswered = [t] := by
      have hbusy := h.1.busy
      match hlist : s.line.unanswered with
      | [] => simp [hlist] at hlt
      | [u] => simp_all
      | _ :: _ :: _ =>
        rw [hlist] at hbusy
        split at hbusy <;> simp at hbusy
    have hzero : place = 0 := by
      simp [hone] at hlt
      exact hlt
    refine nextTones_sound ⟨fun n => Eq.trans ?_ (h.1.once n), ?_, h.1.order, h.1.active, h.1.same⟩
    · simp only [ToneLine.told, ToneLine.waits, ToneLine.settle, hone, hzero, List.map_append,
        List.map_cons, List.map_nil, List.count_append, List.count_cons, List.count_nil,
        List.eraseIdx_zero, List.tail_cons]
      omega
    · simp [ToneLine.settle, hone, hzero]

/-! ## Tracking keeps the calls apart -/

/-- The tones stay as they are, and under the identifier of each that waits is the call that was
there, or none. -/
def Aside (s s' : CallController) : Prop :=
  s'.line = s.line ∧ ∀ t ∈ s.line.queue,
    s'.calls.serial? t.callId = none ∨ s'.calls.serial? t.callId = s.calls.serial? t.callId

theorem Sound.aside {s' : CallController} (h : Sound s) (haside : Aside s s') : Sound s' := by
  obtain ⟨hline, hcalls⟩ := haside
  unfold Sound
  rw [hline]
  refine ⟨⟨h.1.once, h.1.busy, h.1.order, h.1.active, fun t ht n hn => ?_⟩, h.2⟩
  rcases hcalls t ht with hnone | hsame
  · rw [hnone] at hn
    cases hn
  · exact h.1.same t ht n (hsame ▸ hn)

/-- What is under these identifiers stays, and so do the tones. -/
def Stays (ids : Str → Prop) (s s' : CallController) : Prop :=
  s'.line = s.line ∧ ∀ id, ids id → s'.calls.serial? id = s.calls.serial? id

theorem Stays.trans {ids : Str → Prop} {t u : CallController} (h : Stays ids s t)
    (h' : Stays ids t u) : Stays ids s u :=
  ⟨h'.1.trans h.1, fun id hid => (h'.2 id hid).trans (h.2 id hid)⟩

theorem Stays.refl (ids : Str → Prop) (s : CallController) : Stays ids s s := ⟨rfl, fun _ _ => rfl⟩

theorem Stays.aside {s' : CallController}
    (h : Stays (fun id => ∃ t ∈ s.line.queue, t.callId = id) s s') : Aside s s' :=
  ⟨h.1, fun t ht => .inr (h.2 t.callId ⟨t, ht, rfl⟩)⟩

/-- A state of a call that is set leaves it the same call. -/
theorem onCallProperty_stays (ids : Str → Prop) (s : CallController) (id key : Str)
    (value : Value) : Stays ids s (onCallProperty s id key value) := by
  simp only [onCallProperty]
  split
  · exact .refl ids _
  next current hget =>
    split
    · refine ⟨rfl, fun id' _ => ?_⟩
      have hkey : current.callId = id := s.calls.keyed _ _ hget
      show (s.calls.put _).serial? id' = _
      rw [Tracked.serial?_put, hkey]
      by_cases heq : id' = id
      · rw [if_pos heq, heq]
        exact (congrArg (Option.map CallRecord.serial) hget).symm
      · rw [if_neg heq]
    · exact .refl ids _

/-- Another call is taken up under an identifier only if none is tracked there. -/
theorem onCallAdded_stays {ids : Str → Prop} {a : Announcement}
    (h : ∀ id, ids id → s.calls.serial? id = none → callIdFromPath a.path ≠ some id) :
    Stays ids s (onCallAdded s a) := by
  unfold onCallAdded
  split
  · next id properties hpath _ =>
    simp only
    split
    · -- by induction on the properties, which are set one after the other
      generalize properties.items = items
      have hrefl : Stays ids s (s.changed id) := .refl ids _
      generalize s.changed id = s' at hrefl ⊢
      induction items generalizing s' with
      | nil => exact hrefl
      | cons e items ih => exact ih _ (hrefl.trans (onCallProperty_stays ids s' id e.1 e.2))
    · next htracked =>
      split
      · exact .refl ids _
      refine ⟨rfl, fun id' hid => ?_⟩
      show (s.calls.put _).serial? id' = _
      have hnone : s.calls.serial? id = none := by
        simpa [CallController.changed, Tracked.serial?] using htracked
      rw [Tracked.serial?_put, if_neg]
      intro heq
      exact h id' hid (by rw [heq, hnone]) (by rw [heq, hpath])
  · exact .refl ids s

theorem onCallAdded_foldl_stays {ids : Str → Prop} {calls : List Announcement}
    (h : ∀ id, ids id → s.calls.serial? id = none →
      ∀ a ∈ calls, callIdFromPath a.path ≠ some id) : Stays ids s (calls.foldl onCallAdded s) := by
  induction calls generalizing s with
  | nil => exact .refl ids s
  | cons a calls ih =>
    have hfirst : Stays ids s (onCallAdded s a) :=
      onCallAdded_stays (fun id hid hnone => h id hid hnone a (.head _))
    refine hfirst.trans (ih (fun id hid hnone b hb => ?_))
    rw [hfirst.2 id hid] at hnone
    exact h id hid hnone b (List.mem_cons_of_mem a hb)

theorem onCallRemoved_aside (s : CallController) (path : Value) :
    Aside s (onCallRemoved s path) := by
  unfold onCallRemoved
  split
  · exact (Stays.refl _ s).aside
  next id _ =>
    refine ⟨rfl, fun t _ => ?_⟩
    rw [Tracked.serial?_pop]
    split
    · exact .inl rfl
    · exact .inr rfl

theorem bind_aside (s : CallController) (path : Str) (watched : Bool) :
    Aside s (bind s path watched) := by
  unfold bind
  split <;> exact ⟨rfl, fun _ _ => .inl rfl⟩

theorem guarded_sound {next : CallController} (h : Sound s) (haside : Aside s next) :
    Sound (guarded s next) := by
  unfold guarded
  split
  · exact h.aside haside
  · exact h

/-! ## Runs of the controller -/

/-- **One step.** -/
theorem step_sound (s : CallController) (i : Input) (hok : Orderly s i) (h : Sound s) :
    Sound (step s i) := by
  have hfresh : ∀ id, (∃ t ∈ s.line.queue, t.callId = id) → s.calls.serial? id = none →
      ∀ a ∈ i.announced, callIdFromPath a.path ≠ some id := by
    rintro id ⟨t, ht, rfl⟩ hserial
    exact hok t ht (Option.map_eq_none_iff.mp hserial)
  cases i with
  | sendTones callId tones =>
    simp only [step, sendTones]
    cases hrequest : toneRequest s callId tones with
    | error e => exact h
    | ok t =>
      obtain ⟨hnumber, hcall⟩ := toneRequest_ok hrequest
      exact nextTones_sound (accept_fair h.1 hnumber hcall)
  | answered place error => exact answered_sound h place error
  | callAdded call =>
    have hstays := onCallAdded_stays (fun id hid hnone => hfresh id hid hnone call (.head _))
    exact guarded_sound h hstays.aside
  | callProperty id key value =>
    exact guarded_sound h (onCallProperty_stays _ s id key value).aside
  | callRemoved path => exact guarded_sound h (onCallRemoved_aside s path)
  | existingCalls calls =>
    have hstays : Stays (fun id => ∃ t ∈ s.line.queue, t.callId = id) s (onExistingCalls s calls) :=
      onCallAdded_foldl_stays
        (fun id hid hnone a ha => hfresh id hid hnone a (List.mem_filter.mp ha).1)
    exact guarded_sound h hstays.aside
  | existingCallsFailed => exact guarded_sound h (Stays.refl _ s).aside
  | bind path watched => exact h.aside (bind_aside s path watched)
  | unbind => exact h.aside ⟨rfl, fun _ _ => .inl rfl⟩
  | setState state | setEnabled enabled => exact h.aside (Stays.refl _ s).aside

theorem initial_sound : Sound initial where
  left := ⟨fun _ => rfl, rfl, .refl _, nofun, nofun⟩
  right := fun _ => rfl

/-- **Tones.** In every run in which no call is announced under the identifier of one that has ended
while tones typed for it wait, each accepted request is told once, in order and one at a time, and
its tones are played only while its own call is active. -/
theorem tones_served (inputs : List Input) (h : Along step Orderly initial inputs) :
    Served (Machine.run step initial inputs).line :=
  (Machine.invariant step step_sound h initial_sound).served

/-! ## A reused identifier -/

def callPath : Str := "/hfp/voicecall01".toList

def activeCall : Announcement where
  path := .str callPath
  properties := some (Dict.empty.set "State".toList (.str "active".toList))
  watched := true

/-- A call is active, and two tones are typed for it. -/
def typed : List Input :=
  [.setState .ready, .bind "/hfp".toList true, .existingCalls [], .callAdded activeCall,
    .sendTones "voicecall01".toList (.str "1".toList),
    .sendTones "voicecall01".toList (.str "2".toList)]

/-- The two tones are played one after the other. -/
theorem tones_served_typed :
    Served (Machine.run step initial (typed ++ [.answered 0 false, .answered 0 true])).line :=
  tones_served _ (by decide)

/-- The call ends and another one gets its identifier while the second tone waits. That tone is
played into the other call. -/
theorem tones_misdirected :
    ¬ Served (Machine.run step initial (typed ++
      [.callRemoved (.str callPath), .callAdded activeCall, .answered 0 false])).line := by
  intro h
  have hserial : ∀ e ∈ (Machine.run step initial (typed ++ [.callRemoved (.str callPath),
      .callAdded activeCall, .answered 0 false])).line.handed, e.2.serial = e.1.serial :=
    fun e he => (h.active e he).2
  revert hserial
  decide

end BlueFerry.Calls
