import BlueFerry.Lib.Trace
import BlueFerry.Ancs.Requests

/-! # What the log says of the requests

A `Watch` is a family of facts about the requests, the waiting notifications and the entries of the
log. What each operation asks of it is said once (`Lawful`), and one move keeps it (`On.move`) where
the facts hold of the requests that are made, of the packet that is written and of the content that
is answered.
-/

namespace BlueFerry.Ancs

open BlueFerry.Text

/-- The entry neither invalidates nor is restricted. -/
def Entry.neutral : Entry → Bool
  | .invalidated _ => false
  | .wrote _ _ _ => false
  | .emitted _ => false
  | _ => true

theorem neutral_of_isCall {e : Entry} (h : e.isCall = true) : e.neutral = true := by
  cases e <;> first | rfl | cases h

/-- The entry is a write. -/
def Entry.isWrite : Entry → Bool
  | .wrote _ _ _ => true
  | _ => false

theorem isWrite_of_neutral {e : Entry} (h : e.neutral = true) : e.isWrite = false := by
  cases e with
  | wrote packet action actions => cases h
  | _ => rfl

/-- The event shows these attributes, with or without their labels. -/
def AncsEvent.Shows (e : AncsEvent) (attrs : NotificationAttributes) : Prop :=
  e.notificationId = attrs.id ∧ e.appId = attrs.appId ∧ e.title = attrs.title
    ∧ e.subtitle = attrs.subtitle ∧ e.body = attrs.message
    ∧ (e.positiveActionLabel = attrs.positiveActionLabel ∧ e.negativeActionLabel
        = attrs.negativeActionLabel ∨ e.positiveActionLabel = [] ∧ e.negativeActionLabel = [])

instance (e : AncsEvent) (attrs : NotificationAttributes) : Decidable (e.Shows attrs) :=
  inferInstanceAs (Decidable (_ ∧ _ ∧ _ ∧ _ ∧ _ ∧ (_ ∧ _ ∨ _ ∧ _)))

variable {c c' d : Core} {r : PendingRequest} {new : List Entry}

namespace Core

/-- The log gains these entries, the writes among them are counted, and arrivals are numbered on. -/
structure Grows (c c' : Core) (new : List Entry) : Prop where
  log : c'.log = new ++ c.log
  nextWrite : c'.nextWrite = c.nextWrite + new.countP (·.isWrite)
  serials : c.serials ≤ c'.serials

/-- Besides, nothing is invalidated. -/
structure Goes (c c' : Core) (new : List Entry) : Prop extends c.Grows c' new where
  valid : ∀ e ∈ new, ∀ uid, e ≠ .invalidated uid

/-- Requests and waiting notifications may be gone, and nothing that matters is noted. -/
def Fades (c c' : Core) : Prop :=
  ∃ new, (∀ e ∈ new, e.neutral = true) ∧ c.Shrinks c' new ∧ c'.nextWrite = c.nextWrite ∧
    c.serials ≤ c'.serials

theorem goes_of_neutral (hnew : ∀ e ∈ new, e.neutral = true) (hlog : c'.log = new ++ c.log)
    (hnext : c'.nextWrite = c.nextWrite) (hserials : c.serials ≤ c'.serials) : c.Goes c' new where
  log := hlog
  nextWrite := by
    have hnone : new.countP (·.isWrite) = 0 :=
      List.countP_eq_zero.mpr (fun e he => by simp [isWrite_of_neutral (hnew e he)])
    rw [hnone, hnext, Nat.add_zero]
  serials := hserials
  valid := by
    rintro e he uid rfl
    exact absurd (hnew _ he) Bool.false_ne_true

theorem goes_silent (hlog : c'.log = c.log) (hnext : c'.nextWrite = c.nextWrite)
    (hserials : c.serials ≤ c'.serials) : c.Goes c' [] :=
  ⟨⟨hlog, hnext, hserials⟩, fun _ he => absurd he List.not_mem_nil⟩

theorem Fades.trans (h : c.Fades c') (h' : c'.Fades d) : c.Fades d := by
  obtain ⟨new, hnew, hs, hnext, hserials⟩ := h
  obtain ⟨new', hnew', hs', hnext', hserials'⟩ := h'
  refine ⟨new' ++ new, fun e he => ?_, hs.trans hs', hnext'.trans hnext, hserials.trans hserials'⟩
  rcases List.mem_append.mp he with he | he
  · exact hnew' e he
  · exact hnew e he

/-- Only fields that do not count are changed. -/
theorem fades_of_eq (hqueue : c'.queue = c.queue) (hactive : c'.active = c.active)
    (hpending : c'.pendingAppLookups = c.pendingAppLookups) (hlog : c'.log = c.log)
    (hnext : c'.nextWrite = c.nextWrite) (hserials : c'.serials = c.serials) : c.Fades c' := by
  refine ⟨[], by simp, ⟨by rw [hqueue]; exact List.Subset.refl _, by simp [hactive], ?_, hlog⟩, hnext,
    hserials.ge⟩
  rintro w ⟨p, hp, hw⟩
  exact ⟨p, hpending ▸ hp, hw⟩

theorem fades_note {e : Entry} (he : e.neutral = true) : c.Fades (c.note e) :=
  ⟨[e], by simpa using he, (Shrinks.refl c).note e, rfl, le_rfl⟩

/-- The entries of a reset, or of an arrival, are callbacks but for one. -/
theorem neutral_of_calls {after before : List Entry} {e : Entry} (he : e.neutral = true)
    (hafter : ∀ e ∈ after, e.isCall = true) (hbefore : ∀ e ∈ before, e.isCall = true) :
    ∀ x ∈ after ++ e :: before, x.neutral = true := by
  intro x hx
  rcases List.mem_append.mp hx with hx | hx
  · exact neutral_of_isCall (hafter x hx)
  rcases List.mem_cons.mp hx with rfl | hx
  · exact he
  · exact neutral_of_isCall (hbefore x hx)

theorem fades_resetActions (c : Core) : c.Fades c.resetActions := by
  obtain ⟨after, before, hafter, hbefore, heq⟩ := c.resetActions_eq
  rw [heq]
  exact ⟨_, neutral_of_calls (e := .actionsReset) rfl hafter hbefore,
    ⟨fun r hr => (mem_removeIf hr).1, fun r hr => hr, fun w hw => hw, by simp⟩, rfl, le_rfl⟩

theorem fades_arrive (n : Notification) (c : Core) : c.Fades (Client.arrive n c) := by
  obtain ⟨after, before, hafter, hbefore, heq⟩ := c.arrive_eq n
  rw [heq]
  exact ⟨_, neutral_of_calls (e := .arrived n.id c.serials) rfl hafter hbefore,
    ⟨fun r hr => (mem_removeIf hr).1, fun r hr => hr, fun w hw => hw, by simp⟩, rfl,
      Nat.le_succ _⟩

theorem fades_finishActive (c : Core) : c.Fades c.finishActive := by
  refine ⟨[], by simp, c.finishActive_shrinks, ?_, ?_⟩
  · unfold finishActive
    split <;> rfl
  · unfold finishActive
    split <;> exact le_rfl

theorem fades_resetRequests (c : Core) : c.Fades c.resetRequests := by
  obtain ⟨calls, hcalls, heq⟩ := ({ c with busyRetry := false } : Core).dropQueuedActions_eq
    (fun _ => true) .disconnected
  have hfields : c.resetRequests.nextWrite = c.nextWrite ∧ c.resetRequests.serials = c.serials := by
    unfold resetRequests
    dsimp only
    rw [heq]
    unfold finishActive
    split <;> exact ⟨rfl, rfl⟩
  obtain ⟨new, hnew, hs⟩ := c.resetRequests_shrinks
  exact ⟨new, fun e he => neutral_of_isCall (hnew e he), hs, hfields.1, hfields.2.ge⟩

theorem fades_deactivate (c : Core) : c.Fades { c with active := none } :=
  ⟨[], by simp, ⟨List.Subset.refl _, by simp, fun _ hw => hw, rfl⟩, rfl, le_rfl⟩

theorem fades_probeAnswered (env : Env) (a : Arrival) (appId : Str) (observed : List Str)
    (nextRid : Nat) (c : Core) : c.Fades (c.probeAnswered env a appId observed nextRid) :=
  (c.fades_finishActive.trans (fades_note rfl)).trans (fades_of_eq rfl rfl rfl rfl rfl rfl)

end Core

/-! ## The facts -/

structure Watch where
  base : Core → Prop
  /-- of a request that is queued or active -/
  held : Core → PendingRequest → Prop
  /-- of a request whose packet was written -/
  sent : Core → PendingRequest → Prop
  waits : Core → NotificationAttributes → Prop
  entry : Entry → List Entry → Prop

namespace Watch

/-- What the operations ask of the facts. -/
structure Lawful (W : Watch) : Prop where
  base : ∀ {c c' new}, c.Grows c' new → W.base c → W.base c'
  held : ∀ {c c' new r}, c.Goes c' new → W.held c r → W.held c' r
  sent : ∀ {c c' new r}, c.Goes c' new → W.sent c r → W.sent c' r
  waits : ∀ {c c' new attrs}, c.Goes c' new → W.waits c attrs → W.waits c' attrs
  heldKept : ∀ {c c' uid r}, c.Grows c' [.invalidated uid] →
    Core.isAbout uid r = false ∨ r.discarded = true → W.held c r → W.held c' r
  sentKept : ∀ {c c' uid r}, c.Grows c' [.invalidated uid] → Core.isAbout uid r = false →
    W.sent c r → W.sent c' r
  waitsKept : ∀ {c c' uid attrs}, c.Grows c' [.invalidated uid] →
    uid.any (· != attrs.id) = true → W.waits c attrs → W.waits c' attrs
  retired : ∀ {c r}, W.held c r → W.held c { r with discarded := true, key := .retired r.key }
  drained : ∀ {c r}, r.discarded = true → W.sent c r
  retried : ∀ {c r} (n : Nat), W.held c r → W.held c { r with busyRetries := n }
  fed : ∀ {c r assembler assembler' data}, r.assembler = some assembler →
    assembler.feed data = (assembler', .ok none) → W.held c r ∧ W.sent c r →
    W.held c { r with assembler := some assembler' } ∧ W.sent c { r with assembler := some assembler' }
  /-- a request about no notification -/
  plain : ∀ {c r k}, r.Is k → r.notification = none → W.held c r
  neutral : ∀ {e earlier}, e.neutral = true → W.entry e earlier
  invalidated : ∀ {uid earlier}, W.entry (.invalidated uid) earlier
  shows : ∀ {c attrs event}, W.waits c attrs → event.Shows attrs → W.entry (.emitted event) c.log

/-- The facts hold of all that is queued, active or waiting, and of every entry. -/
structure On (W : Watch) (c : Core) : Prop where
  base : W.base c
  wanted : ∀ r ∈ c.queue, r.discarded = false
  held : ∀ r, c.Holds r → W.held c r
  sent : ∀ r, c.active = some r → W.sent c r
  waits : ∀ w, c.IsWaiting w → W.waits c w.attrs
  log : Trace.Each W.entry c.log

variable {W : Watch}

namespace On

section

variable (hW : W.Lawful)
include hW

theorem shrinks (h : W.On c) (hs : c.Shrinks c' new) (hg : c.Goes c' new)
    (hlog : Trace.Each W.entry c'.log) : W.On c' where
  base := hW.base hg.toGrows h.base
  wanted := fun r hr => h.wanted r (hs.queue hr)
  held := fun r hr => hW.held hg (h.held r (hs.holds hr))
  sent := fun r hr => hW.sent hg (h.sent r (hs.active r hr))
  waits := fun w hw => hW.waits hg (h.waits w (hs.waiting w hw))
  log := hlog

theorem fades (h : W.On c) (hf : c.Fades c') : W.On c' := by
  obtain ⟨new, hnew, hs, hnext, hserials⟩ := hf
  refine h.shrinks hW hs (Core.goes_of_neutral hnew hs.log hnext hserials) ?_
  rw [hs.log]
  exact h.log.append (fun e he _ => hW.neutral (hnew e he))

theorem congr (h : W.On c) (hqueue : c'.queue = c.queue) (hactive : c'.active = c.active)
    (hpending : c'.pendingAppLookups = c.pendingAppLookups) (hlog : c'.log = c.log)
    (hnext : c'.nextWrite = c.nextWrite) (hserials : c'.serials = c.serials) : W.On c' :=
  h.fades hW (Core.fades_of_eq hqueue hactive hpending hlog hnext hserials)

theorem discard (h : W.On c) (uid : Option Nat) : W.On (c.discardNotificationRequests uid) := by
  have hd := c.discards_discardNotificationRequests uid
  have hg : c.Grows (c.discardNotificationRequests uid) [.invalidated uid] := by
    have hfields : (c.discardNotificationRequests uid).nextWrite = c.nextWrite ∧
        (c.discardNotificationRequests uid).serials = c.serials := by
      unfold Core.discardNotificationRequests Core.retireActive
      split
      · exact ⟨rfl, rfl⟩
      · split <;> exact ⟨rfl, rfl⟩
    exact ⟨hd.log, hfields.1, hfields.2.ge⟩
  refine ⟨hW.base hg h.base, fun r hr => h.wanted r (hd.queue r hr).1, ?_, ?_, ?_, ?_⟩
  · rintro r (hr | hr)
    · obtain ⟨hr, hkept⟩ := hd.queue r hr
      exact hW.heldKept hg (Or.inl hkept) (h.held r (Or.inl hr))
    · obtain ⟨r₀, hr₀, ⟨rfl, hkept⟩ | rfl⟩ := hd.active r hr
      · exact hW.heldKept hg hkept (h.held r (Or.inr hr₀))
      · exact hW.heldKept hg (Or.inr rfl) (hW.retired (h.held r₀ (Or.inr hr₀)))
  · intro r hr
    obtain ⟨r₀, hr₀, ⟨rfl, hkept | hdrained⟩ | rfl⟩ := hd.active r hr
    · exact hW.sentKept hg hkept (h.sent r hr₀)
    · exact hW.drained hdrained
    · exact hW.drained rfl
  · intro w hw
    obtain ⟨hw, hkept⟩ := hd.waiting w hw
    exact hW.waitsKept hg hkept (h.waits w hw)
  · rw [hd.log]
    exact ⟨hW.invalidated, h.log⟩

theorem endSession (h : W.On c) : W.On c.endSession := by
  have hseen : W.On ({ c with liveEventsSeen := false } : Core) := h.congr hW rfl rfl rfl rfl rfl rfl
  have hended := (hseen.fades hW (Core.fades_note (e := .sessionEnded) rfl)).discard hW none
  exact hended.fades hW (Core.fades_note rfl)

/-- A replay resets the actions and ends the session. -/
theorem replay (h : W.On c) : W.On (Client.replay c) := by
  obtain ⟨d, hd, heq⟩ := c.replay_cases
  have hd : W.On d := by
    rcases hd with ⟨-, rfl⟩ | rfl
    · exact h
    · exact h.fades hW c.fades_resetActions
  rw [heq]
  split
  · exact hd.endSession hW
  · exact hd

theorem enqueue (h : W.On c) {front : Bool} (henqueue : c.enqueue r front = some c')
    (hw : r.discarded = false) (hr : W.held c r) : W.On c' := by
  have heq := Core.enqueue_eq henqueue
  have hactive : c'.active = c.active := by rw [heq]
  have hg : c.Goes c' [] := by
    rw [heq]
    exact ⟨⟨rfl, rfl, le_rfl⟩, by simp⟩
  refine ⟨hW.base hg.toGrows h.base, fun x hx => ?_, ?_, fun x hx => hW.sent hg (h.sent x (hactive ▸ hx)),
    fun w hw => hW.waits hg (h.waits w ?_), by rw [heq]; exact h.log⟩
  · rcases Core.enqueue_mem henqueue hx with rfl | hx
    · exact hw
    · exact h.wanted x hx
  · rintro x (hx | hx)
    · rcases Core.enqueue_mem henqueue hx with rfl | hx
      · exact hW.held hg hr
      · exact hW.held hg (h.held x (Or.inl hx))
    · exact hW.held hg (h.held x (Or.inr (hactive ▸ hx)))
  · rw [heq] at hw
    exact hw

theorem emitted (h : W.On c) {event : AncsEvent} {attrs : NotificationAttributes}
    (hshows : event.Shows attrs) (hattrs : W.waits c attrs) : W.On (c.note (.emitted event)) :=
  h.shrinks hW ((Core.Shrinks.refl c).note _) ⟨⟨rfl, rfl, le_rfl⟩, by simp⟩
    ⟨hW.shows hattrs hshows, h.log⟩

/-- An event is emitted, perhaps with an offer. -/
theorem emit (h : W.On c) (env : Env) (w : Waiting) (appName : Str)
    (hw : W.waits c w.attrs) : W.On (c.emit env w appName) := by
  unfold Core.emit
  dsimp only
  split
  · split
    · exact h.emitted hW ⟨rfl, rfl, rfl, rfl, rfl, Or.inl ⟨rfl, rfl⟩⟩ hw
    have hoffered : ∀ event : AncsEvent, c.Fades (c.rememberActionable event w.serial) :=
      fun event => ⟨_, by simp [Entry.neutral], c.rememberActionable_shrinks event w.serial, rfl,
        le_rfl⟩
    refine (h.fades hW (hoffered _)).emitted hW ⟨rfl, rfl, rfl, rfl, rfl, Or.inl ⟨rfl, rfl⟩⟩ ?_
    have hg : ∀ event : AncsEvent, c.Goes (c.rememberActionable event w.serial)
        [.offered c.nextToken event.notificationId w.serial] :=
      fun event => ⟨⟨rfl, rfl, le_rfl⟩, by simp⟩
    exact hW.waits (hg _) hw
  · exact h.emitted hW ⟨rfl, rfl, rfl, rfl, rfl, Or.inr ⟨rfl, rfl⟩⟩ hw

/-- The head of the queue is written. -/
theorem startWrite (h : W.On c) {rest : List PendingRequest}
    (hqueue : c.queue = r :: rest) (actions : Bool) (token : Option Nat)
    (hentry : W.entry (.wrote r.packet r.action actions) c.log) (hsent : W.sent (({ c with
      queue := rest, active := some r, cpWriteToken := token, nextWrite := c.nextWrite + 1 } :
        Core).note (.wrote r.packet r.action actions)) r) :
    W.On (({ c with
      queue := rest, active := some r, cpWriteToken := token, nextWrite := c.nextWrite + 1 } :
        Core).note (.wrote r.packet r.action actions)) := by
  have hg : c.Goes (({ c with
      queue := rest, active := some r, cpWriteToken := token, nextWrite := c.nextWrite + 1 } :
        Core).note (.wrote r.packet r.action actions)) [.wrote r.packet r.action actions] :=
    ⟨⟨rfl, rfl, le_rfl⟩, by simp⟩
  have hmem : ∀ x, x ∈ r :: rest → x ∈ c.queue := fun x hx => by rwa [hqueue]
  refine ⟨hW.base hg.toGrows h.base, fun x hx => h.wanted x (hmem x (List.mem_cons_of_mem r hx)), ?_,
    ?_, fun w hw => hW.waits hg (h.waits w hw), hentry, h.log⟩
  · rintro x (hx | hx)
    · exact hW.held hg (h.held x (Or.inl (hmem x (List.mem_cons_of_mem r hx))))
    · cases hx
      exact hW.held hg (h.held r (Or.inl (hmem r (.head _))))
  · intro x hx
    cases hx
    exact hsent

/-- The active request goes back to the queue. -/
theorem retry (h : W.On c) (hactive : c.active = some r) (hw : r.discarded = false)
    (n : Nat) (writes : List Write) (token : Option Nat) :
    W.On (Client.pushFront { r with busyRetries := n }
      { c with writes, cpWriteToken := token, active := none }) := by
  have hidle : W.On { c with writes, cpWriteToken := token, active := none } :=
    (h.fades hW c.fades_deactivate).congr hW rfl rfl rfl rfl rfl rfl
  have hr : W.held { c with writes, cpWriteToken := token, active := none } r :=
    hW.held (c := c) (Core.goes_silent rfl rfl le_rfl) (h.held r (Or.inr hactive))
  unfold Client.pushFront
  split
  · have hg : Core.Goes { c with writes, cpWriteToken := token, active := none }
        { c with
          writes, cpWriteToken := token, active := none
          queue := { r with busyRetries := n } :: c.queue, busyRetry := true } [] :=
      ⟨⟨rfl, rfl, le_rfl⟩, by simp⟩
    refine ⟨hW.base hg.toGrows hidle.base, ?_, ?_, fun x hx => (by cases hx),
      fun w hw => hW.waits hg (hidle.waits w hw), hidle.log⟩
    · intro x hx
      rcases List.mem_cons.mp hx with rfl | hx
      · exact hw
      · exact h.wanted x hx
    rintro x (hx | hx)
    · rcases List.mem_cons.mp hx with rfl | hx
      · exact hW.held hg (hW.retried n hr)
      · exact hW.held hg (hidle.held x (Or.inl hx))
    · cases hx
  · exact hidle

theorem feed (h : W.On c) (hactive : c.active = some r)
    {assembler assembler' : DataSourceAssembler} {data : Bytes} (hr : r.assembler = some assembler)
    (hfeed : assembler.feed data = (assembler', .ok none)) :
    W.On { c with active := some { r with assembler := some assembler' } } := by
  have hg : c.Goes { c with active := some { r with assembler := some assembler' } } [] :=
    ⟨⟨rfl, rfl, le_rfl⟩, by simp⟩
  obtain ⟨hheld, hsent⟩ := hW.fed hr hfeed ⟨h.held r (Or.inr hactive), h.sent r hactive⟩
  refine ⟨hW.base hg.toGrows h.base, h.wanted, ?_, ?_, fun w hw => hW.waits hg (h.waits w hw), h.log⟩
  · rintro x (hx | hx)
    · exact hW.held hg (h.held x (Or.inl hx))
    · cases hx
      exact hW.held hg hheld
  · intro x hx
    cases hx
    exact hW.sent hg hsent

theorem addWaiting (h : W.On c) (w : Waiting) (hw : W.waits c w.attrs) (appId : Str) :
    W.On (Client.addWaiting appId w c) := by
  have hg : c.Goes (Client.addWaiting appId w c) [] := Core.goes_silent rfl rfl le_rfl
  refine ⟨hW.base hg.toGrows h.base, h.wanted, fun r hr => hW.held hg (h.held r hr),
    fun r hr => hW.sent hg (h.sent r hr), fun x hx => hW.waits hg ?_, h.log⟩
  obtain ⟨p, hp, hx⟩ := hx
  rcases List.mem_append.mp hp with hp | hp
  · exact h.waits x ⟨p, List.mem_of_mem_filter hp, hx⟩
  rw [List.mem_singleton.mp hp] at hx
  rcases List.mem_append.mp hx with hx | hx
  · exact h.waits x (Core.isWaiting_of_mem_waitingFor hx)
  rw [List.mem_singleton.mp hx]
  exact hw

/-- **One move** keeps the facts, if they hold of what it makes, writes and hears. -/
theorem move {env : Env} {allow : Delicate → Core → Prop}
    {heard : PendingRequest → Bytes → Prop} {s s' : Client} (hmove : Move env allow heard s s')
    (h : W.On s.core) (hprobe : ∀ n categories nextRid rid, n.id < 2 ^ 32 →
      W.held (s.core.arrivedLive n categories nextRid)
        (Client.probeRequest rid ⟨n, s.core.serials⟩))
    (hfull : ∀ r a ev appId observed nextRid rid, Answered heard s.core r ev →
      r.notification = some a → r.appProbe = true →
      policyAccepts env.includeNonMessageNotifications (env.includeAppNotification appId) appId = true →
      W.held (s.core.probeAnswered env a appId observed nextRid) (Client.fullRequest env rid a appId))
    (hwrite : ∀ r rest, s.core.queue = r :: rest → s.isBlocked = false →
      W.entry (.wrote r.packet r.action env.notificationActions) s.core.log ∧
        W.sent (s.startWrite env r rest).core r)
    (hcontent : ∀ r a attrs, ContentAnswered heard s.core r a attrs → W.waits s.core attrs) :
    W.On s'.core := by
  have hfinished := h.fades hW s.core.fades_finishActive
  have hfinish : s.core.Goes s.core.finishActive [] := by
    obtain ⟨new, hnew, hs, hnext, hserials⟩ := s.core.fades_finishActive
    exact Core.goes_silent (by simp) hnext hserials
  cases hmove with
  | transport tr _ => exact h
  | called callback => exact h.fades hW (Core.fades_note rfl)
  | clear tr _ =>
    have hreset := h.fades hW s.core.fades_resetRequests
    exact (hreset.fades hW (Core.fades_resetActions _)).endSession hW
  | subscribe => exact (h.fades hW (Core.fades_resetActions _)).endSession hW
  | refresh tr _ => exact hfinished.endSession hW
  | reset tr _ => exact h.fades hW (Core.fades_resetActions _)
  | removed n _ _ => exact (h.fades hW (Core.fades_arrive n _)).discard hW (some n.id)
  | replayed n _ _ => exact (h.fades hW (Core.fades_arrive n _)).replay hW
  | live n categories nextRid rid hid _ =>
    have hlive : W.On (s.core.arrivedLive n categories nextRid) :=
      (h.fades hW (Core.fades_arrive n _)).congr hW rfl rfl rfl rfl rfl rfl
    show W.On (((s.core.arrivedLive n categories nextRid).enqueue
      (Client.probeRequest rid ⟨n, s.core.serials⟩) false).getD _)
    cases hqueued : (s.core.arrivedLive n categories nextRid).enqueue
        (Client.probeRequest rid ⟨n, s.core.serials⟩) false with
    | none => exact hlive
    | some c => exact hlive.enqueue hW hqueued rfl (hprobe n categories nextRid rid hid)
  | askApp r front c hr henqueue =>
    rcases hr with ⟨rid, rfl⟩ | ⟨rid, appId, rfl⟩
    · exact h.enqueue hW henqueue rfl (hW.plain (is_authorizationProbe rid) rfl)
    · exact h.enqueue hW henqueue rfl (hW.plain (is_appNameRequest rid appId) rfl)
  | write r rest hqueue hfree =>
    obtain ⟨hentry, hsent⟩ := hwrite r rest hqueue hfree
    exact h.startWrite hW hqueue _ _ hentry hsent
  | retry r writes token n hactive hw _ _ _ => exact h.retry hW hactive hw n writes token
  | deactivate => exact h.fades hW s.core.fades_deactivate
  | emitWaiting w appName hw => exact h.emit hW env w appName (h.waits w hw)
  | forgetWaiting pending hp =>
    refine h.fades hW ⟨[], by simp, ⟨List.Subset.refl _, fun _ hr => hr, ?_, rfl⟩, rfl, le_rfl⟩
    rintro w ⟨p, hmem, hw⟩
    exact hp p hmem w hw
  | feed r assembler assembler' data hactive hr _ hfeed => exact h.feed hW hactive hr hfeed
  | probed r a ev appId observed nextRid _ _ _ _ =>
    exact h.fades hW (Core.fades_probeAnswered env a appId observed nextRid _)
  | accepted r a ev appId observed nextRid rid c hanswer hn hp _ hpolicy henqueue =>
    exact (h.fades hW (Core.fades_probeAnswered env a appId observed nextRid _)).enqueue hW henqueue
      rfl (hfull r a ev appId observed nextRid rid hanswer hn hp hpolicy)
  | emitContent r a attrs cache appName hc =>
    have hcached : W.On ({ s.core.finishActive with appNameCache := cache } : Core) :=
      hfinished.congr hW rfl rfl rfl rfl rfl rfl
    refine hcached.emit hW env ⟨attrs, a.serial⟩ appName ?_
    exact hW.waits (Core.goes_silent hfinish.log hfinish.nextWrite hfinish.serials)
      (hcontent r a attrs hc)
  | contentWaits r a attrs hc =>
    exact hfinished.addWaiting hW ⟨attrs, a.serial⟩ (hW.waits hfinish (hcontent r a attrs hc)) attrs.appId
  | perform rid a entry c _ _ _ henqueue =>
    have hqueued := h.enqueue hW henqueue rfl (hW.plain (is_actionRequest rid a) rfl)
    exact hqueued.congr hW rfl rfl rfl rfl rfl rfl
  | _ => exact h.congr hW rfl rfl rfl rfl rfl rfl

end

end On

end Watch

end BlueFerry.Ancs
