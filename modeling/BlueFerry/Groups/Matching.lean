import BlueFerry.Text.Utf8
import BlueFerry.Groups.Names

/-! # Matching notifications with messages

A MAP message carries the text and one sender address, its Messages notification carries the
text and a title and a subtitle. `matching` finds the messages whose text a notification can be
(the whole text, or a text cut at one of the sizes that were requested over time) within a
minute of it. `groupMembersFromAncs` and `namedGroupFromAncs` read the two layouts of a group
notification (`grouping.py`).
-/

namespace BlueFerry.Groups

open BlueFerry.Text

/-! ## The index of messages -/

/-- `CORRELATION_WINDOW_SECONDS`, in microseconds. -/
def correlationWindow : Int := 60000000

/-- `ANCS_MESSAGE_CAPS_REQUESTED`. -/
def messageCaps : List Nat := [256, 1024]

/-- `_UTF8_CUT_SLACK`. -/
def utf8CutSlack : Nat := 3

/-- `_cut_to_bytes`: the longest prefix of whole characters that fits in `cap` bytes. -/
def cutToBytes : Str → Nat → Str
  | [], _ => []
  | c :: s, cap => if c.utf8Size ≤ cap then c :: cutToBytes s (cap - c.utf8Size) else []

/-- An entry of `_MessageCandidates`, with the text it is indexed by. -/
structure Candidate where
  time : Int
  index : Nat
  body : Str
  deriving DecidableEq

/-- `_MessageCandidates.__init__`: the received messages with a time. -/
def messageCandidates (lib : Library) (events : List Event) : List Candidate :=
  events.zipIdx.filterMap (fun p =>
    if p.1.kind = .smsReceived then (seenAtOf lib p.1.toStored).map (fun t => ⟨t, p.2, p.1.body⟩)
    else none)

/-- The order of the entries of a bucket: by time, then by position. -/
def Candidate.before (a b : Candidate) : Prop :=
  a.time < b.time ∨ a.time = b.time ∧ a.index ≤ b.index

instance (a b : Candidate) : Decidable (a.before b) := inferInstanceAs (Decidable (_ ∨ _))

/-- The entries that may be the message of a notification: those with the whole text first, then,
for each size at which the text may have been cut, those that begin with it. -/
def buckets (candidates : List Candidate) (body : Str) : List (List Candidate) :=
  let truncated := rstrip (· == replacement) body
  let size := utf8Size truncated
  (candidates.filter (·.body = body)) ::
    (messageCaps.filter (fun cap => cap - utf8CutSlack ≤ size ∧ size ≤ cap)).map (fun cap =>
      candidates.filter (fun c => cap < utf8Size c.body ∧ cutToBytes c.body cap = truncated))

/-- Whether an entry lies in the window around an instant, both ends included. -/
def Candidate.within (instant : Int) (c : Candidate) : Bool :=
  decide (instant - correlationWindow ≤ c.time) && decide (c.time ≤ instant + correlationWindow)

/-- `matching`. No caller excludes an index; `limit=None` is `none`. -/
def matching (candidates : List Candidate) (body : Str) (instant : Int) (limit : Option Nat) :
    List Nat :=
  let found := (buckets candidates body).flatMap (fun bucket =>
    ((bucket.insertionSort Candidate.before).filter (Candidate.within instant)).map
      Candidate.index)
  match limit with
  | none => found
  | some n => found.take n

/-! ## Reading a notification -/

/-- `_member_names`. -/
def memberNames (names : List Str) : List Str :=
  sortedBy casefold ((names.map strip).filter (fun name =>
    name ≠ [] ∧ casefold name ≠ "you".toList ∧ casefold name ≠ "me".toList))

/-- `_TO_PREFIX`: `To\s+`, in any case; the text after it. -/
def afterTo (s : Str) : Option Str :=
  match s with
  | t :: o :: c :: rest =>
    if (t = 'T' ∨ t = 't') ∧ (o = 'O' ∨ o = 'o') ∧ isSpace c then some (lstrip isSpace rest)
    else none
  | _ => none

section

variable (ev : Stored)

/-- `group_members_from_ancs`. The separator of the source takes the white space around a comma
or an ampersand; `memberNames` strips it. -/
def groupMembersFromAncs : Option (List Str) :=
  if ev.appId ≠ messagesAppId then none
  else
    let title := strip ev.title
    let subtitle := strip ev.subtitle
    if title = [] ∨ '&' ∉ subtitle then none
    else
      (afterTo subtitle).map (fun remainder =>
        memberNames (title :: splitWhere (fun c => c == ',' || c == '&') remainder))

/-- `bool(group_members_from_ancs(event))`. -/
def hasMembers : Bool := ((groupMembersFromAncs ev).getD []) ≠ []

/-- `named_group_from_ancs`. -/
def namedGroupFromAncs : Option Str :=
  if ev.appId ≠ messagesAppId then none
  else
    let title := strip ev.title
    let subtitle := strip ev.subtitle
    if title = [] ∨ subtitle = [] ∨ hasMembers ev then none else some subtitle

/-- The group layout of a notification. -/
inductive Layout where
  | unnamed (members : List Str)
  | named (name : Str)
  deriving DecidableEq

/-- `members` and `named_group` of the loop over group notifications. -/
def layoutOf : Option Layout :=
  match groupMembersFromAncs ev with
  | some (m :: ms) => some (.unnamed (m :: ms))
  | _ => (namedGroupFromAncs ev).map .named

/-- The time of a notification that has a text. -/
def noticeTime (lib : Library) (ev : Stored) : Option Int :=
  if ev.body = [] then none else seenAtOf lib ev

/-- `_names_agree`: no title and no contact name contradict each other. -/
def namesAgree (notification sms : Stored) : Bool :=
  let title := strip notification.title
  let trusted := strip sms.contactName
  title = [] || trusted = [] || casefold title == casefold trusted

/-- `sender_name_verified`. -/
def nameVerified (notification sms : Stored) : Bool :=
  let title := strip notification.title
  let trusted := strip sms.contactName
  title ≠ [] && trusted ≠ [] && casefold title == casefold trusted

/-- `_notification_evidence`. -/
def notificationEvidence : Str × Str := (strip ev.title, strip ev.subtitle)

end

/-- Whether a Messages notification could describe the message at an index. -/
def describes (lib : Library) (rows : List Event) (candidates : List Candidate) (index : Nat)
    (n : Event) : Bool :=
  n.kind = .ancsNotification && n.appId = messagesAppId &&
    match noticeTime lib n.toStored with
    | none => false
    | some time =>
      index ∈ matching candidates n.body time none
        && rows[index]?.any (fun sms => namesAgree n.toStored sms.toStored)

/-- `evidence_by_sms`: copies of one notification count once. -/
def evidenceBySms (lib : Library) (rows : List Event) (candidates : List Candidate)
    (index : Nat) : List (Str × Str) :=
  ((rows.filter (describes lib rows candidates index)).map
    (fun n => notificationEvidence n.toStored)).dedup

end BlueFerry.Groups
