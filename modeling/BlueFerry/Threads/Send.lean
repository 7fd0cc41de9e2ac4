import BlueFerry.Threads.Recipients

/-! # Replying to a conversation

`send_to_thread` resolves the route of a conversation twice (`_thread_route`): when the reply is
requested, and again when its turn in the Bluetooth queue has come, which a job that does nothing
holds for it. Between the two the history, the saved rosters, contacts and the connection may
change in any way. `Sender` is the state of this exchange and `step` one event of it; a message
leaves only as a `Push` that the worker runs.

A reply to a group is bound to the roster that was shown by a token; `groupConfirmationToken_inj`
says which rosters share one. `Approves` is what a resolved route is known to be.
-/

namespace BlueFerry.Threads

open BlueFerry.Text
open BlueFerry.Groups
open BlueFerry.Recipients (InvalidRecipient validateRecipient)

/-! ## Confirmation tokens -/

/-- `group_confirmation_token`: the warning and the sorted recipients, one a line. Empty
recipients are left out. -/
def groupConfirmationToken (recipients : List Str) (rosterWarningId : Str) : Str :=
  joinLines (rosterWarningId :: sorted ((recipients.filter (· ≠ [])).dedup))

variable {recipients : List Str} {thread : Thread} {lib : Library}

/-- **Equal tokens name the same warning and the same recipients**, up to empty ones. -/
theorem groupConfirmationToken_inj {recipients' : List Str} {warning warning' : Str}
    (hr : ∀ r ∈ recipients, '\n' ∉ r) (hr' : ∀ r ∈ recipients', '\n' ∉ r)
    (hw : '\n' ∉ warning) (hw' : '\n' ∉ warning')
    (h : groupConfirmationToken recipients warning = groupConfirmationToken recipients' warning') :
    warning = warning' ∧ ∀ r, r ≠ [] → (r ∈ recipients ↔ r ∈ recipients') := by
  have hlines : ∀ (values : List Str) (w : Str), (∀ r ∈ values, '\n' ∉ r) → '\n' ∉ w →
      ∀ l ∈ w :: sorted ((values.filter (· ≠ [])).dedup), '\n' ∉ l := by
    intro values w hvalues hw l hl
    rcases List.mem_cons.mp hl with rfl | hl
    · exact hw
    rw [mem_sorted, List.mem_dedup] at hl
    exact hvalues l (List.mem_of_mem_filter hl)
  have heq := joinLines_inj (hlines recipients warning hr hw) (hlines recipients' warning' hr' hw')
    (List.cons_ne_nil _ _) (List.cons_ne_nil _ _) h
  rw [List.cons.injEq] at heq
  refine ⟨heq.1, ?_⟩
  intro r hne
  have hmem : r ∈ sorted ((recipients.filter (· ≠ [])).dedup)
      ↔ r ∈ sorted ((recipients'.filter (· ≠ [])).dedup) := by rw [heq.2]
  simpa [mem_sorted, List.mem_dedup, List.mem_filter, hne] using hmem

/-- What a reply is resolved against: the rows and rosters that the projection reads, contacts,
stars, the connection, the rosters that were confirmed before, and whether the worker takes
jobs. -/
structure World where
  events : List Stored
  routes : List Stored
  resolver : Resolver
  stars : List Str
  connected : Bool
  confirmed : Str → Str → Bool
  workerAccepts : Bool

/-- `MAX_CONVERSATION_EVENTS`. -/
def maxConversationEvents : Nat := 2000

/-- `_project_conversations`: with stars, only the starred conversations and those with a recent
message are kept. -/
def project (lib : Library) (w : World) : List Thread :=
  let threads := buildThreads lib w.resolver (w.events ++ w.routes)
  if w.stars = [] then threads
  else
    let recent := (w.events.drop (w.events.length - maxConversationEvents)).map Stored.handle
    threads.filter (fun thread => (conversationKeys thread).any (· ∈ w.stars)
      || thread.messages.any (fun message => message.handle ∈ recent))

/-- Why a reply is refused. -/
inductive SendError where
  /-- `group confirmation token is too long` -/
  | tokenTooLong
  /-- `thread key must be non-empty` -/
  | emptyKey
  /-- `thread key is too long` -/
  | keyTooLong
  /-- `message body must be non-empty` -/
  | emptyBody
  /-- `message body exceeds … UTF-8 bytes` -/
  | bodyTooLong
  /-- `thread no longer exists in local history` -/
  | threadGone
  /-- `a newer message arrived; review the conversation before replying` -/
  | newerMessage
  /-- `thread has no unambiguous reply destination` -/
  | noDestination
  /-- `Bluetooth message connection is unavailable. Check BlueFerry's connection status.` -/
  | disconnected
  /-- `thread has an invalid group route: …` -/
  | invalidRoute (error : InvalidRecipient)
  /-- `group thread must have 2 to 20 recipients` -/
  | groupSize
  /-- `group thread contains duplicate recipients` -/
  | duplicateRecipients
  /-- `this client cannot confirm group recipients; update or restart BlueFerry before replying to
  this group` -/
  | clientCannotConfirm
  /-- `the group changed; refresh the conversation and review the recipients before sending` -/
  | groupChanged
  /-- `confirm the displayed participant list before replying to this group` -/
  | confirmRecipients
  /-- `one-to-one thread has an invalid recipient set` -/
  | invalidRecipientSet
  /-- `the conversation changed; review it before sending` -/
  | conversationChanged
  /-- the worker refused the job, or the projection could not be read -/
  | notReady
  /-- `Send failed: …` -/
  | operationFailed
  deriving DecidableEq

/-- The arguments of `send_to_thread`. -/
structure Request where
  threadKey : Str
  body : Str
  confirmGroup : Bool
  expectedGroupToken : Str
  deriving DecidableEq

/-- `SENDER_REPLY_TOKEN_PREFIX`. -/
def senderTokenPrefix : Str := "sender:".toList

/-- The user confirmed a reply to the sender alone. -/
def confirmsSender (thread : Thread) (r : Request) : Bool :=
  !thread.isGroup && r.confirmGroup && startsWith r.expectedGroupToken senderTokenPrefix

/-- The checks on a conversation before its recipients are looked at. -/
def checkThread (thread : Thread) (r : Request) : Except SendError Unit :=
  if confirmsSender thread r then
    if thread.senderReplyToken = some r.expectedGroupToken then .ok () else .error .newerMessage
  else if thread.replyReady = false ∨ thread.recipients = [] then .error .noDestination
  else .ok ()

/-- The checks on the recipients of a group and on its token. -/
def groupRoute (w : World) (thread : Thread) (r : Request) :
    Except SendError (Thread × List Str × Option Str) :=
  match thread.recipients.mapM validateRecipient with
  | .error e => .error (.invalidRoute e)
  | .ok recipients =>
    let token := groupConfirmationToken thread.recipients thread.rosterWarningId
    if ¬ (2 ≤ recipients.length ∧ recipients.length ≤ 20) then .error .groupSize
    else if ¬ recipients.Nodup then .error .duplicateRecipients
    else if r.expectedGroupToken = [] then .error .clientCannotConfirm
    else if r.expectedGroupToken ≠ token then .error .groupChanged
    else if r.confirmGroup = false ∧ w.confirmed thread.key token = false then
      .error .confirmRecipients
    else .ok (thread, recipients, some token)

/-- `_thread_route`. -/
def threadRoute (lib : Library) (w : World) (r : Request) :
    Except SendError (Thread × List Str × Option Str) :=
  match (project lib w).find? (fun thread => r.threadKey ∈ conversationKeys thread) with
  | none => .error .threadGone
  | some thread =>
    match checkThread thread r with
    | .error e => .error e
    | .ok () =>
      if w.connected = false then .error .disconnected
      else if thread.isGroup then groupRoute w thread r
      else
        match thread.recipients with
        | [recipient] => .ok (thread, [recipient], none)
        | _ => .error .invalidRecipientSet

/-- `MAX_OUTGOING_BODY_BYTES`. -/
def maxOutgoingBodyBytes : Nat := 256 * 1024

/-- `MAX_GROUP_CONFIRMATION_TOKEN_CHARS`. -/
def maxTokenChars : Nat := 8192

/-- The checks of `send_to_thread` on its arguments. -/
def checkRequest (r : Request) : Except SendError Unit :=
  if maxTokenChars < r.expectedGroupToken.length then .error .tokenTooLong
  else if strip r.threadKey = [] then .error .emptyKey
  else if 1024 < r.threadKey.length then .error .keyTooLong
  else if strip r.body = [] then .error .emptyBody
  else if maxOutgoingBodyBytes < utf8Size r.body then .error .bodyTooLong
  else .ok ()

/-! ## The exchange -/

/-- A reply that was taken, with the recipients it was taken for. -/
structure Accepted where
  request : Request
  recipients : List Str
  deriving DecidableEq

/-- A transfer to `recipients`; for a group, the conversation and the token that a success
confirms. -/
structure Push where
  accepted : Accepted
  recipients : List Str
  confirms : Option (Str × Str)
  deriving DecidableEq

/-- A job of the Bluetooth worker. -/
inductive Job where
  /-- `lambda: None`, which holds the reply's place -/
  | turn (a : Accepted)
  | push (p : Push)
  deriving DecidableEq

/-- A callback of the main loop. -/
inductive Callback where
  | dequeued (a : Accepted)
  | succeeded (p : Push)
  | failed (p : Push)
  deriving DecidableEq

/-- The state of the exchange. `pushed` holds the transfers that the worker has run. -/
structure Sender where
  world : World
  queue : List Job := []
  callbacks : List Callback := []
  refreshing : List Accepted := []
  pushed : List Push := []
  failures : List (Request × SendError) := []

/-- An event of the exchange. -/
inductive Input where
  /-- anything a reply is resolved against changes -/
  | change (w : World)
  /-- `send_to_thread` is called -/
  | request (r : Request)
  /-- the worker runs its next job; `ok` is the outcome of a transfer -/
  | work (ok : Bool)
  /-- the main loop runs its next callback -/
  | deliver
  /-- a refresh of the projection ends -/
  | refreshed (index : Nat) (ok : Bool)

/-- `send_to_thread` up to the queue. -/
def accept (lib : Library) (w : World) (r : Request) : Except SendError Accepted :=
  match checkRequest r with
  | .error e => .error e
  | .ok () =>
    match threadRoute lib w r with
    | .error e => .error e
    | .ok route => .ok ⟨r, route.2.1⟩

/-- `send`: the reply is resolved again, and leaves only for the recipients it was taken for. -/
def send (lib : Library) (w : World) (a : Accepted) : Except SendError Push :=
  match threadRoute lib w a.request with
  | .error e => .error e
  | .ok (thread, recipients, token) =>
    if recipients ≠ a.recipients then .error .conversationChanged
    else
      match token with
      | none => .ok ⟨a, recipients.take 1, none⟩
      | some t => .ok ⟨a, recipients, some (thread.key, t)⟩

namespace Sender

def fail (s : Sender) (r : Request) (e : SendError) : Sender :=
  { s with failures := s.failures ++ [(r, e)] }

/-- `_queue`. -/
def submit (s : Sender) (r : Request) (job : Job) : Sender :=
  if s.world.workerAccepts then { s with queue := s.queue ++ [job] } else s.fail r .notReady

/-- Runs `send` for a reply whose turn has come. -/
def runSend (lib : Library) (s : Sender) (a : Accepted) : Sender :=
  match Threads.send lib s.world a with
  | .error e => s.fail a.request e
  | .ok p => s.submit a.request (.push p)

/-- `_remember_confirmed_group`. -/
def remember (s : Sender) (p : Push) : Sender :=
  match p.confirms with
  | none => s
  | some (key, token) =>
    { s with world := { s.world with
        confirmed := fun k t => decide (k = key ∧ t = token) || s.world.confirmed k t } }

end Sender

/-- One event. `refresh` is whether the caller refreshes the projection before a reply leaves. -/
def step (lib : Library) (refresh : Bool) (s : Sender) : Input → Sender
  | .change w => { s with world := w }
  | .request r =>
    match accept lib s.world r with
    | .error e => s.fail r e
    | .ok a => s.submit r (.turn a)
  | .work ok =>
    match s.queue with
    | [] => s
    | .turn a :: queue => { s with queue := queue, callbacks := s.callbacks ++ [.dequeued a] }
    | .push p :: queue =>
      { s with
        queue := queue
        pushed := s.pushed ++ [p]
        callbacks := s.callbacks ++ [if ok then .succeeded p else .failed p] }
  | .deliver =>
    match s.callbacks with
    | [] => s
    | .dequeued a :: callbacks =>
      let s' := { s with callbacks := callbacks }
      if refresh then { s' with refreshing := s'.refreshing ++ [a] } else s'.runSend lib a
    | .succeeded p :: callbacks => ({ s with callbacks := callbacks }).remember p
    | .failed p :: callbacks =>
      ({ s with callbacks := callbacks }).fail p.accepted.request .operationFailed
  | .refreshed index ok =>
    match s.refreshing[index]? with
    | none => s
    | some a =>
      let s' := { s with refreshing := s.refreshing.eraseIdx index }
      if ok then s'.runSend lib a else s'.fail a.request .notReady

/-- The reply for which an event runs `send`, that is, whose queued job is executed. -/
def executed (refresh : Bool) (s : Sender) : Input → Option Accepted
  | .deliver =>
    match s.callbacks with
    | .dequeued a :: _ => if refresh then none else some a
    | _ => none
  | .refreshed index true => s.refreshing[index]?
  | _ => none

/-! ## What a resolved route is -/

/-- A conversation that a reply may leave for, with the addresses it goes to. -/
structure Approves (w : World) (thread : Thread) (r : Request) (recipients : List Str) : Prop where
  found : r.threadKey ∈ conversationKeys thread
  connected : w.connected = true
  /-- it is ready, or the user confirmed a reply to the sender of exactly these messages -/
  answerable : thread.replyReady = true
    ∨ confirmsSender thread r = true ∧ thread.senderReplyToken = some r.expectedGroupToken
  /-- a group's addresses are its displayed roster, normalised -/
  roster : thread.isGroup = true → thread.recipients.mapM validateRecipient = .ok recipients
  /-- the token names the displayed roster and its warning -/
  token : thread.isGroup = true →
    r.expectedGroupToken = groupConfirmationToken thread.recipients thread.rosterWarningId
  confirmed : thread.isGroup = true →
    r.confirmGroup = true ∨ w.confirmed thread.key r.expectedGroupToken = true
  single : thread.isGroup = false → thread.recipients = recipients ∧ recipients.length = 1

variable {r : Request} {w : World}

theorem checkThread_ok (h : checkThread thread r = .ok ()) : thread.replyReady = true
      ∨ confirmsSender thread r = true ∧ thread.senderReplyToken = some r.expectedGroupToken := by
  unfold checkThread at h
  by_cases hconfirms : confirmsSender thread r = true
  · rw [if_pos hconfirms] at h
    by_cases htoken : thread.senderReplyToken = some r.expectedGroupToken
    · exact Or.inr ⟨hconfirms, htoken⟩
    rw [if_neg htoken] at h
    cases h
  rw [if_neg hconfirms] at h
  by_cases hready : thread.replyReady = true
  · exact Or.inl hready
  rw [if_pos (Or.inl (Bool.eq_false_of_not_eq_true hready))] at h
  cases h

theorem groupRoute_ok {thread' : Thread}
    {token : Option Str} (h : groupRoute w thread r = .ok (thread', recipients, token)) :
    thread' = thread ∧ thread.recipients.mapM validateRecipient = .ok recipients
      ∧ token = some r.expectedGroupToken
      ∧ r.expectedGroupToken = groupConfirmationToken thread.recipients thread.rosterWarningId
      ∧ (r.confirmGroup = true ∨ w.confirmed thread.key r.expectedGroupToken = true) := by
  unfold groupRoute at h
  split at h
  · cases h
  · next normalized hnormalized =>
    dsimp only at h
    split at h
    · cases h
    split at h
    · cases h
    split at h
    · cases h
    split at h
    · cases h
    · next htoken =>
      rw [not_not] at htoken
      split at h
      · cases h
      · next hconfirmed =>
        rw [Except.ok.injEq, Prod.mk.injEq, Prod.mk.injEq] at h
        rcases h with ⟨rfl, rfl, rfl⟩
        refine ⟨rfl, hnormalized, by rw [htoken], htoken, ?_⟩
        rw [← htoken] at hconfirmed
        by_cases hc : r.confirmGroup = true
        · exact Or.inl hc
        refine Or.inr ?_
        by_contra hstored
        exact hconfirmed ⟨Bool.eq_false_of_not_eq_true hc, Bool.eq_false_of_not_eq_true hstored⟩

/-- **A route that resolves is one the conversation approves.** -/
theorem threadRoute_ok {token : Option Str}
    (h : threadRoute lib w r = .ok (thread, recipients, token)) :
    thread ∈ project lib w ∧ Approves w thread r recipients
      ∧ (token = none → recipients.length = 1) := by
  unfold threadRoute at h
  split at h
  · cases h
  · next found hfound =>
    have hkey : r.threadKey ∈ conversationKeys found := by
      have := List.find?_some hfound
      exact of_decide_eq_true this
    have hmem := List.mem_of_find?_eq_some hfound
    split at h
    · cases h
    · next hcheck =>
      have hanswerable := checkThread_ok hcheck
      split at h
      · cases h
      · next hconnected =>
        have hconnected' : w.connected = true := by simpa using hconnected
        split at h
        · next hgroup =>
          rcases groupRoute_ok h with ⟨rfl, hroster, htoken, hexpected, hconfirmed⟩
          refine ⟨hmem, ?_, ?_⟩
          · exact ⟨hkey, hconnected', hanswerable, fun _ => hroster, fun _ => hexpected,
              fun _ => hconfirmed, fun hsingle => absurd hsingle (by simp [hgroup])⟩
          · intro hnone
            rw [htoken] at hnone
            cases hnone
        · next hgroup =>
          split at h
          · next recipient hrecipients =>
            rw [Except.ok.injEq, Prod.mk.injEq, Prod.mk.injEq] at h
            rcases h with ⟨rfl, rfl, rfl⟩
            refine ⟨hmem, ?_, fun _ => rfl⟩
            exact ⟨hkey, hconnected', hanswerable, fun hg => absurd hg hgroup,
              fun hg => absurd hg hgroup, fun hg => absurd hg hgroup,
              fun _ => ⟨hrecipients, rfl⟩⟩
          · cases h

theorem accept_ok {a : Accepted} (h : accept lib w r = .ok a) :
    a.request = r ∧ ∃ thread ∈ project lib w, Approves w thread r a.recipients := by
  unfold accept at h
  split at h
  · cases h
  split at h
  · cases h
  · next route hroute =>
    rw [Except.ok.injEq] at h
    subst h
    rcases route with ⟨thread, recipients, token⟩
    rcases threadRoute_ok hroute with ⟨hmem, happroves, _⟩
    exact ⟨rfl, thread, hmem, happroves⟩

theorem send_ok {a : Accepted} {p : Push} (h : send lib w a = .ok p) :
    p.accepted = a ∧ p.recipients = a.recipients
      ∧ ∃ thread ∈ project lib w, Approves w thread a.request p.recipients := by
  unfold send at h
  split at h
  · cases h
  · next thread recipients token hroute =>
    rcases threadRoute_ok hroute with ⟨hmem, happroves, hlength⟩
    split at h
    · cases h
    · next hsame =>
      rw [not_not] at hsame
      split at h
      · rw [Except.ok.injEq] at h
        subst h
        have htake : recipients.take 1 = recipients := List.take_of_length_le (by rw [hlength rfl])
        refine ⟨rfl, htake.trans hsame, thread, hmem, ?_⟩
        show Approves w thread a.request (recipients.take 1)
        rw [htake]
        exact happroves
      · rw [Except.ok.injEq] at h
        subst h
        exact ⟨rfl, hsame, thread, hmem, happroves⟩

end BlueFerry.Threads
