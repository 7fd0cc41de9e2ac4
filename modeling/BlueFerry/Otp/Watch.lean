import BlueFerry.Lib.Window
import BlueFerry.Otp.Sink

/-! # An onlooker of the one-time code sink

`Watch` goes along with the sink and never forgets: it keeps every message whose code was ever to be
checked, and marks it when a read report names its handle or when the context shows it to be one of
a group, at any message, notification or read report after its arrival. A code that is handed to
the writer although its message was marked is `late`.

`Holds` is the condition under which the sink keeps its rules: the read reports find the records of
the messages they are about, a fallback is tried for a message that is still pending, and no copy is
made while the rate limit has forgotten a code that a fallback has copied within the minute.
-/

namespace BlueFerry.Otp

open BlueFerry.Text BlueFerry.Groups

structure Watch where
  sink : OtpSink
  clock : Int
  requests : List Candidate
  evidence : List Nat
  late : List Handed

namespace Watch

/-- The messages that a step shows to be read or to be of a group; `s` is the sink after it. -/
def noted (cfg : Config) (s : OtpSink) (i : Input) (requests : List Candidate) : List Nat :=
  let grouped := fun (p : Candidate) => s.context.isGroup cfg.lib i.now p.event
  match i.action with
  | .message _ | .ancs _ => (requests.filter grouped).map Candidate.sequence
  | .read handle =>
    (requests.filter (fun p => decide (p.event.row.handle = handle) || grouped p)).map
      Candidate.sequence
  | _ => []

def start (now : Int) (desktop : Desktop) : Watch := ⟨.start desktop, now, [], [], []⟩

def step (cfg : Config) (w : Watch) (i : Input) : Watch :=
  let s := w.sink.step cfg i
  let requests :=
    w.requests ++ s.pendingCandidates.filter (fun p => w.sink.requestSequence < p.sequence)
  { sink := s
    clock := i.now
    requests := requests
    evidence := w.evidence ++ noted cfg s i requests
    late := w.late
      ++ (s.handed.drop w.sink.handed.length).filter (fun c => decide (c.sequence ∈ w.evidence)) }

end Watch

namespace OtpSink

/-- The first copy of a code, within the last minute. -/
def FirstWithin (s : OtpSink) (now : Int) (sequence : Nat) (e : Handed) : Prop :=
  e ∈ s.handed ∧ e.fallback = false ∧ e.sequence = sequence ∧ now - COPY_WINDOW ≤ e.time

/-- The rate limit still counts every code that a fallback has copied within the last minute. -/
def Counted (s : OtpSink) (now : Int) : Prop :=
  ∀ c ∈ s.handed, c.fallback = true → now - COPY_WINDOW ≤ c.time →
    ∃ e, s.FirstWithin now c.sequence e ∧ e.time ≤ c.time

/-- The job is pending, and no newer code was copied. -/
def Open (s : OtpSink) (job : Job) : Prop :=
  s.isPending job.sequence = true ∧ s.lastCopiedSequence < job.sequence

/-- The jobs that a step may copy. -/
def jobs (s : OtpSink) (i : Input) : List Job :=
  match i.action with
  | .check id _ => (s.checks.get id).toList
  | .reply id _ => (s.lookups.get id).toList
  | .probed executable _ =>
    (s.writer.ready.filter (fun e => e.1 = executable)).map (fun e => e.2.job)
  | _ => []

/-- `_confirm` is about to try an X11 helper. -/
def fallsBack (cfg : Config) (s : OtpSink) (now : Int) (c : Confirm) : Bool :=
  s.wantsFallback c && s.mayAskAgain c && !s.context.isGroup cfg.lib now c.prepared.job.event
    && isRecent now c.prepared.timestamp

end OtpSink

/-- The condition on a step; it names what the sink does not look after. -/
structure Holds (cfg : Config) (s : OtpSink) (i : Input) : Prop where
  /-- a read report finds the record of a message that is pending -/
  heard : ∀ handle, i.action = .read handle → ∀ p ∈ s.pendingCandidates,
    p.event.row.handle = handle → i.now ≤ p.deadline → s.context.Keeps i.now p.event
  /-- nothing is copied while the rate limit has forgotten a code -/
  counted : ∀ job ∈ s.jobs i, s.Open job → s.Counted i.now
  /-- a fallback is for a pending message, and counted -/
  pending : ∀ id c, i.action = .confirm id → s.confirms.Holds id c →
    s.fallsBack cfg i.now c = true →
    s.isPending c.prepared.job.sequence = true ∧ s.Counted i.now ∧
      ∃ e, s.FirstWithin i.now c.prepared.job.sequence e

/-! ## The invariant -/

/-- The message came as a live, unread push, from no contact. -/
def SmsEvent.Live (e : SmsEvent) : Prop :=
  e.row.kind = .smsReceived ∧ e.messagePath ≠ [] ∧ e.isRead = false ∧ e.row.contactName = []

/-- The times of the first copies. -/
def firstTimes (handed : List Handed) : List Int :=
  (handed.filter (fun c => !c.fallback)).map Handed.time

/-- The message of the job is one of the requests, under its number. -/
def Known (requests : List Candidate) (job : Job) : Prop :=
  ∃ p ∈ requests, p.sequence = job.sequence ∧ p.event = job.event

/-- What holds of the sink at a time, given the messages that were to be checked and the ones that
are marked. -/
structure Sound (requests : List Candidate) (evidence : List Nat) (now : Int) (s : OtpSink) :
    Prop where
  numbered : ∀ p ∈ requests, p.sequence ≤ s.requestSequence
  distinct : (requests.map Candidate.sequence).Nodup
  live : ∀ p ∈ requests, p.event.Live
  marked : ∀ q ∈ evidence, q ≤ s.requestSequence
  pending : ∀ p ∈ s.pendingCandidates, p ∈ requests ∧ p.sequence ∉ evidence
  checks : ∀ id job, s.checks.Holds id job → Known requests job
  lookups : ∀ id job, s.lookups.Holds id job → Known requests job
  ready : ∀ e ∈ s.writer.ready, Known requests e.2.job
  confirms : ∀ id c, s.confirms.Holds id c → Known requests c.prepared.job
  handed : ∀ c ∈ s.handed, Known requests c.prepared.job
  times : ∀ c ∈ s.handed, c.time ≤ now
  ages : ∀ c ∈ s.handed, OtpSink.isRecent c.time c.prepared.timestamp = true
  copied : ∀ c ∈ s.handed, c.ticket ≠ none → c.sequence ≤ s.lastCopiedSequence
  ordered : s.handed.Pairwise (fun a b => a.ticket ≠ none → b.ticket ≠ none →
    a.sequence ≤ b.sequence)
  tickets : ∀ id c, s.confirms.Holds id c → c.ticket < s.writer.tickets
  owned : ∀ id c o, s.confirms.Holds id c → s.writer.owner = some o → o.id = c.ticket →
    c.prepared.job.sequence = s.lastCopiedSequence
  limited : Window.Limited MAX_COPIES_PER_WINDOW (COPY_WINDOW + 1) (firstTimes s.handed)
  kept : Window.Keeps (COPY_WINDOW + 1) now s.recentCopies (firstTimes s.handed)
  anchored : ∀ c ∈ s.handed, ∀ d ∈ s.handed, c.fallback = true → d.time - COPY_WINDOW ≤ c.time →
    ∃ e, s.FirstWithin d.time c.sequence e ∧ e.time ≤ c.time

end BlueFerry.Otp
