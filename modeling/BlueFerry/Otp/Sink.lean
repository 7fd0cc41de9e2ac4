import BlueFerry.Lib.Machine
import BlueFerry.Lib.Slots
import BlueFerry.Otp.Context
import BlueFerry.Otp.Writer

/-! # The one-time code sink

`OtpClipboardSink` (`sinks/otp_clipboard.py`) copies the code of a new message after a while: a
timer gives the notification of a group time to come, the phone is asked for the time of the
message, the writer is asked what its helper can do, and another timer looks whether the copy went
well, and tries an X11 helper if it did not. Every one of these steps comes at any time and in any
order; `Slots` and the writer hold what is out.

One step is one callback, with one reading of the clock. `handed` lists the calls of
`ClipboardWriter.copy`. Which code a text has (`extract_otp`) and the library of the grouping code
are left open; `hasResolver` says whether the phone can be asked.
-/

namespace BlueFerry.Otp

open BlueFerry.Text BlueFerry.Groups

/-- `MAX_CODE_AGE`, in microseconds. -/
def MAX_CODE_AGE : Int := 300000000

def MAX_COPIES_PER_WINDOW : Nat := 3

/-- `COPY_WINDOW`, in microseconds. -/
def COPY_WINDOW : Int := 60000000

def MAX_SEEN_HANDLES : Nat := 64

/-- What the sink is built with. -/
structure Config where
  lib : Library
  extractOtp : Str → Option Str
  hasResolver : Bool

/-- A message whose code may be copied, under its number. -/
structure Job where
  sequence : Nat
  event : SmsEvent
  code : Str

/-- A job with the time its message was sent at. -/
structure Prepared where
  job : Job
  timestamp : Option Int

/-- What a confirmation timer looks at. -/
structure Confirm where
  prepared : Prepared
  ticket : Nat
  tool : Tool
  retried : Bool

/-- An entry of `_pending_candidates`. -/
structure Candidate where
  sequence : Nat
  event : SmsEvent
  deadline : Int

/-- A call of `ClipboardWriter.copy`, and the ticket that it gave. -/
structure Handed where
  prepared : Prepared
  time : Int
  fallback : Bool
  ticket : Option Nat

def Handed.sequence (c : Handed) : Nat := c.prepared.job.sequence

/-! ## Inputs -/

/-- How `_resolve_metadata` goes: it raises, it answers before it returns, or it answers later. -/
inductive Lookup where
  | raised
  | answered (metadata : Option OtpMetadata)
  | waiting

inductive Action where
  /-- a message, a notification, a read report -/
  | message (e : SmsEvent)
  | ancs (e : AncsEvent)
  | read (handle : Str)
  /-- the timer of a check, and how the phone is asked then -/
  | check (id : Nat) (lookup : Lookup)
  | reply (id : Nat) (metadata : Option OtpMetadata)
  | probed (executable : Str) (sensitive : Option Bool)
  | confirm (id : Nat)
  /-- a helper exits, or its time on the clipboard is over -/
  | exited (ticket : Nat) (code : Int)
  | expired (ticket : Nat)
  | close

/-- A callback: when it runs, and what its calls of the writer meet, the copies in their order. -/
structure Input where
  now : Int
  action : Action
  preparing : Desktop
  copying : Nat → Desktop

/-! ## The state -/

structure OtpSink where
  context : OtpContext
  closed : Bool
  requestSequence : Nat
  lastCopiedSequence : Nat
  recentCopies : List Int
  recentAttempts : List Int
  seen : List Str
  pendingCandidates : List Candidate
  checks : Slots Job
  lookups : Slots Job
  confirms : Slots Confirm
  writer : ClipboardWriter Prepared
  handed : List Handed

namespace OtpSink

/-- A new sink, which starts the probe of its writer. -/
def start (desktop : Desktop) : OtpSink :=
  ⟨.empty, false, 0, 0, [], [], [], [], .empty, .empty, .empty, .start desktop, []⟩

/-! ## What is checked -/

/-- `_is_recent` -/
def isRecent (now : Int) : Option Int → Bool
  | none => false
  | some timestamp =>
    decide (now - timestamp ≤ MAX_CODE_AGE) && decide (0 ≤ now - timestamp)

/-- `while times and now - times[0] > COPY_WINDOW: times.popleft()` -/
def withinWindow (now : Int) (times : List Int) : List Int :=
  times.dropWhile (fun x => COPY_WINDOW < now - x)

/-- `_is_new_incoming`, up to the handles that were seen. -/
def isNewIncoming (s : OtpSink) (e : SmsEvent) : Bool :=
  decide (e.row.kind = .smsReceived) && decide (e.messagePath ≠ []) && !e.isRead
    && decide (e.row.contactName = []) && decide (e.row.groupKey = [])
    && decide (e.row.handle ≠ []) && decide (e.row.handle ∉ s.seen)

/-- The handle is remembered, the oldest ones are not. -/
def see (s : OtpSink) (handle : Str) : OtpSink :=
  { s with seen := (s.seen ++ [handle]).drop ((s.seen ++ [handle]).length - MAX_SEEN_HANDLES) }

/-- `sequence in _pending_candidates` -/
def isPending (s : OtpSink) (sequence : Nat) : Bool :=
  s.pendingCandidates.any (fun p => p.sequence == sequence)

/-- `_eligible` before the context is asked about a group. -/
def mayAsk (s : OtpSink) (job : Job) : Bool :=
  !s.closed && s.isPending job.sequence && decide (s.lastCopiedSequence < job.sequence)
    && !s.context.isRead job.event && decide (job.event.row.contactName = [])

section

variable (cfg : Config) (s : OtpSink) (now : Int)

/-- `_eligible` -/
def eligible (job : Job) : Bool :=
  s.mayAsk job && !s.context.isGroup cfg.lib now job.event

/-- The sink after `_eligible`. -/
def asked (s : OtpSink) (now : Int) (job : Job) : OtpSink :=
  if s.mayAsk job then { s with context := s.context.asked now job.event } else s

/-- The loop of `_invalidate_candidates`: the context after it, and the candidates that are left. -/
def invalidated (cfg : Config) (now : Int) : OtpContext → List Candidate → OtpContext × List Candidate
  | c, [] => (c, [])
  | c, p :: pending =>
    if p.deadline < now ∨ c.isRead p.event then invalidated cfg now c pending
    else
      let (c', kept) := invalidated cfg now (c.asked now p.event) pending
      if c.isGroup cfg.lib now p.event then (c', kept) else (c', p :: kept)

/-- `_invalidate_candidates` -/
def invalidateCandidates : OtpSink :=
  let (context, pending) := invalidated cfg now s.context s.pendingCandidates
  { s with context := context, pendingCandidates := pending }

/-! ## Messages, notifications and read reports -/

/-- The end of `handle`: the code of a new message is to be checked, unless too many are. -/
def request (s : OtpSink) (now : Int) (e : SmsEvent) (code : Str) : OtpSink :=
  let attempts := withinWindow now s.recentAttempts
  if MAX_COPIES_PER_WINDOW ≤ attempts.length then { s with recentAttempts := attempts }
  else
    { s with
      recentAttempts := attempts ++ [now]
      requestSequence := s.requestSequence + 1
      pendingCandidates :=
        s.pendingCandidates ++ [⟨s.requestSequence + 1, e, now + MAX_CODE_AGE⟩]
      checks := s.checks.put ⟨s.requestSequence + 1, e, code⟩ }

/-- `handle` of a message that is new. -/
def incoming (e : SmsEvent) : OtpSink :=
  match cfg.extractOtp e.row.body with
  | none => s
  | some code =>
    if s.context.isRead e then s
    else
      let found := s.context.isGroup cfg.lib now e
      let s := { s with context := s.context.asked now e }
      if found then s else s.request now e code

def handle (cfg : Config) (s : OtpSink) (now : Int) (e : SmsEvent) : OtpSink :=
  if s.closed then s
  else
    let s := { s with context := s.context.message now e }.invalidateCandidates cfg now
    if s.isNewIncoming e then (s.see e.row.handle).incoming cfg now e else s

def handleAncs (e : AncsEvent) : OtpSink :=
  if s.closed then s
  else { s with context := s.context.ancs now e }.invalidateCandidates cfg now

def messageRead (handle : Str) : OtpSink :=
  { s with context := s.context.read handle }.invalidateCandidates cfg now

/-! ## Copying -/

/-- `_copy_prepared` past its checks. -/
def copyNow (s : OtpSink) (now : Int) (p : Prepared) (desktop : Desktop) : OtpSink :=
  let (writer, ticket) := s.writer.copy false desktop
  let s := { s with
    recentCopies := withinWindow now s.recentCopies ++ [now]
    writer := writer
    handed := s.handed ++ [⟨p, now, false, ticket.map ClipboardTicket.id⟩] }
  match ticket with
  | none => s
  | some ticket =>
    { s with
      lastCopiedSequence := p.job.sequence
      confirms := s.confirms.put ⟨p, ticket.id, ticket.tool, false⟩ }

/-- `_copy_prepared` -/
def copyPrepared (p : Prepared) (desktop : Desktop) : OtpSink :=
  let fit := s.eligible cfg now p.job
  let s := s.asked now p.job
  if !fit || !isRecent now p.timestamp then s
  else if MAX_COPIES_PER_WINDOW ≤ (withinWindow now s.recentCopies).length then
    { s with recentCopies := withinWindow now s.recentCopies }
  else s.copyNow now p desktop

/-- `_copy_recent`; the writer is asked first, and may have nothing to wait for. -/
def copyRecent (p : Prepared) (preparing copying : Desktop) : OtpSink :=
  let fit := s.eligible cfg now p.job
  let s := s.asked now p.job
  if !fit || !isRecent now p.timestamp then s
  else
    let (writer, atOnce) := s.writer.prepare p preparing
    let s := { s with writer := writer }
    if atOnce then s.copyPrepared cfg now p copying else s

/-- `_metadata_ready` -/
def metadataReady (job : Job) (metadata : Option OtpMetadata)
    (preparing copying : Desktop) : OtpSink :=
  match metadata with
  | none => s
  | some metadata =>
    if metadata.isRead then s
    else
      let fit := s.eligible cfg now job
      let s := s.asked now job
      if fit then s.copyRecent cfg now ⟨job, metadata.timestamp⟩ preparing copying else s

/-- `_check_metadata` -/
def checkMetadata (job : Job) (lookup : Lookup) (preparing copying : Desktop) : OtpSink :=
  let fit := s.eligible cfg now job
  let s := s.asked now job
  if !fit then s
  else if cfg.hasResolver then
    match lookup with
    | .raised => s
    | .answered metadata => s.metadataReady cfg now job metadata preparing copying
    | .waiting => { s with lookups := s.lookups.put job }
  else s.copyRecent cfg now ⟨job, job.event.timestamp⟩ preparing copying

/-! ## Confirmations -/

/-- The condition under which `_confirm` tries an X11 helper. -/
def wantsFallback (s : OtpSink) (c : Confirm) : Bool :=
  decide (s.writer.state c.ticket = .failed) && decide (c.tool = .wlCopy) && !c.retried

/-- `_confirm` before the context is asked about a group. -/
def mayAskAgain (s : OtpSink) (c : Confirm) : Bool :=
  !s.closed && !s.context.isRead c.prepared.job.event

/-- The fallback of `_confirm`. -/
def fallBack (s : OtpSink) (now : Int) (p : Prepared) (desktop : Desktop) : OtpSink :=
  let (writer, ticket) := s.writer.copy true desktop
  let s := { s with
    writer := writer
    handed := s.handed ++ [⟨p, now, true, ticket.map ClipboardTicket.id⟩] }
  match ticket with
  | none => s
  | some ticket => { s with confirms := s.confirms.put ⟨p, ticket.id, ticket.tool, true⟩ }

/-- `_confirm`; what it logs and shows is left out. -/
def confirm (c : Confirm) (desktop : Desktop) : OtpSink :=
  if s.wantsFallback c then
    if s.mayAskAgain c then
      let found := s.context.isGroup cfg.lib now c.prepared.job.event
      let s := { s with context := s.context.asked now c.prepared.job.event }
      if found || !isRecent now c.prepared.timestamp then s
      else s.fallBack now c.prepared desktop
    else s
  else s

end

/-- `close` -/
def close (s : OtpSink) : OtpSink :=
  { s with
    closed := true
    checks := s.checks.clear
    confirms := s.confirms.clear
    pendingCandidates := []
    context := .empty
    writer := s.writer.close }

/-! ## Steps -/

/-- The loop of `_probed` over what was waiting. -/
def copyAll (cfg : Config) (now : Int) (copying : Nat → Desktop) :
    OtpSink → Nat → List Prepared → OtpSink
  | s, _, [] => s
  | s, n, p :: waiting =>
    copyAll cfg now copying (s.copyPrepared cfg now p (copying n)) (n + 1) waiting

def step (cfg : Config) (s : OtpSink) (i : Input) : OtpSink :=
  match i.action with
  | .message e => s.handle cfg i.now e
  | .ancs e => s.handleAncs cfg i.now e
  | .read handle => s.messageRead cfg i.now handle
  | .check id lookup =>
    match s.checks.get id with
    | none => s
    | some job =>
      checkMetadata cfg { s with checks := s.checks.take id } i.now job lookup i.preparing
        (i.copying 0)
  | .reply id metadata =>
    match s.lookups.get id with
    | none => s
    | some job =>
      metadataReady cfg { s with lookups := s.lookups.take id } i.now job metadata i.preparing
        (i.copying 0)
  | .probed executable sensitive =>
    let (writer, waiting) := s.writer.probed executable sensitive
    copyAll cfg i.now i.copying { s with writer := writer } 0 waiting
  | .confirm id =>
    match s.confirms.get id with
    | none => s
    | some c => OtpSink.confirm cfg { s with confirms := s.confirms.take id } i.now c (i.copying 0)
  | .exited ticket code => { s with writer := s.writer.exited ticket code }
  | .expired ticket => { s with writer := s.writer.expire ticket }
  | .close => s.close

end OtpSink

end BlueFerry.Otp
