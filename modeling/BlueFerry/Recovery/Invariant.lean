import BlueFerry.Lib.Machine
import BlueFerry.Lib.Trace
import BlueFerry.Recovery.Controller

/-! # What a power cycle leaves behind

The controller is turned off only with the attempt and the journal on disk (`Safe`), and from then on
until the latch is set there is a journal from which the next process goes on. The invariant follows
the three copies of this: the log, the settings file, and the process with its worker.

The cooldown is counted between the recorded attempts: the power-off itself comes a little later,
when the worker has taken up the job. The latch is kept by the process: a new process starts from
the journal alone.
-/

namespace BlueFerry.Recovery

open BlueFerry.Text World

/-! ## The statement -/

/-- BlueZ shows the controller under a unique bus name, with an address. -/
def Named (cfg : Config) (owner : Str) (address : Str) : Prop :=
  cfg.uniqueName owner = true ∧ address ≠ []

/-- The reply carries the names that D-Bus and BlueZ promise. -/
def ReadReply.IsNamed (cfg : Config) : ReadReply → Prop
  | .objects owner o => ∀ props ∈ o.adapter, Named cfg owner (upper props.address)
  | .vanished => True
  | .failed => True

/-- The answer to a look at the controller. -/
def Action.readReply : Action → Option ReadReply
  | .readReplied _ reply => some reply
  | .work (.read reply) => some reply
  | _ => none

/-- The answer to `GetId`. -/
def Action.busId : Action → Option Str
  | .work (.busId id) => id
  | _ => none

/-- The clock does not go backwards, and the replies carry the names that D-Bus and BlueZ promise. -/
def Lawful (cfg : Config) (w : World) (input : Env × Action) : Prop :=
  w.clock ≤ input.1.wall ∧ input.1.wall ≤ input.1.wallLater
    ∧ (∀ reply ∈ input.2.readReply, reply.IsNamed cfg) ∧ ∀ id ∈ input.2.busId, id ≠ []

instance (cfg : Config) (owner address : Str) : Decidable (Named cfg owner address) :=
  inferInstanceAs (Decidable (_ ∧ _))

instance (cfg : Config) : ∀ reply : ReadReply, Decidable (reply.IsNamed cfg)
  | .objects owner o =>
    inferInstanceAs (Decidable (∀ props ∈ o.adapter, Named cfg owner (upper props.address)))
  | .vanished => .isTrue trivial
  | .failed => .isTrue trivial

instance (cfg : Config) (w : World) (input : Env × Action) : Decidable (Lawful cfg w input) :=
  inferInstanceAs (Decidable (_ ∧ _ ∧ _ ∧ _))

/-- The settings file holds a journal of this attempt that the next process can load. -/
def Journaled (cfg : Config) (disk : Disk) (attempt : Nat) : Prop :=
  ∃ t, loadRestore cfg disk.restore = some t ∧ t.attempt = attempt

/-- The latch of the attempt was set by the process that runs. -/
def Latched (attempt : Nat) (log : List Entry) : Prop :=
  Trace.Since (· = .restarted) (fun e _ => e = .completed attempt) log

/-- **What a power-off and a power-on respect.** -/
def Safe (cfg : Config) : Entry → List Entry → Prop
  | .powerOff d, earlier =>
    (∃ recorded, d.disk.record.lastAttempt = some recorded ∧ recorded ≤ d.time
        ∧ .attempted d.attempt recorded ∈ earlier
        ∧ ∀ d' recorded', .powerOff d' ∈ earlier → d'.disk.record.lastAttempt = some recorded' →
            recorded' + hourlyLimitSeconds ≤ recorded)
      ∧ d.disk.record.spent = some true
      ∧ Journaled cfg d.disk d.attempt
      ∧ (∃ t, d.restore = some t ∧ t.attempt = d.attempt ∧ t.completed = false)
      ∧ d.cleanupPending = false
  | .powerOn attempt, earlier => ¬ Latched attempt earlier
  | .attempted _ _, _ => True
  | .completed _, _ => True
  | .restarted, _ => True

/-- The first process on a settings file. A journal that is already there counts as attempt 0. -/
def boot (cfg : Config) (env : Env) (disk : Disk) : World :=
  World.restart cfg env ⟨disk, { record := disk.record }, 1, env.wallLater, []⟩

/-! ## Journals -/

/-- The transaction can be written so that it can be loaded again. -/
structure WellFormed (cfg : Config) (t : PowerRestore) : Prop where
  named : Named cfg t.expected.owner t.expected.address
  busId : t.busId ≠ []
  adapterInstance : t.adapterInstance ≠ []

variable {cfg : Config}

theorem Named.owner_ne {owner address : Str} (h : Named cfg owner address) : owner ≠ [] := by
  rintro rfl
  have hname := h.1
  simp [Config.uniqueName, startsWith] at hname

theorem instanceText_ne (device inode : Nat) : instanceText device inode ≠ [] := by
  simp [instanceText]

variable {t : PowerRestore}

theorem journaled_journalOf (h : WellFormed cfg t) (phase : Phase) {disk : Disk}
    (hdisk : disk.restore = .journal (journalOf cfg t phase)) : Journaled cfg disk t.attempt := by
  have howner := h.named.owner_ne
  have haddress := h.named.2
  rw [Journaled, hdisk, loadRestore, if_neg, if_neg, if_neg]
  · exact ⟨_, rfl, rfl⟩
  · simpa [journalOf] using h.named.1
  · simp [journalOf, howner, haddress, h.busId, h.adapterInstance]
  · simp [journalOf]

theorem loadRestore_spec {saved : Saved} (h : loadRestore cfg saved = some t) :
    WellFormed cfg t ∧ t.completed = false ∧ ∃ j, saved = .journal j ∧ j.attempt = t.attempt := by
  cases saved with
  | absent | damaged => exact absurd h (by simp [loadRestore])
  | journal j =>
    rw [loadRestore] at h
    split_ifs at h with hpath hfields hname
    obtain rfl := Option.some.inj h
    push Not at hfields
    refine ⟨⟨⟨?_, hfields.2.1⟩, hfields.2.2.1, hfields.2.2.2⟩, rfl, j, rfl, rfl⟩
    simpa using hname

/-! ## The invariant -/

/-- The attempt whose power-off is still to come. -/
def Process.cycling (p : Process) : Option Nat :=
  match p.job with
  | some (.cycle _ n) => some n
  | some (.cycleBus _ n) => some n
  | some (.cycleRead _ _ _) => p.transaction.map (·.attempt)
  | _ => none

/-- The attempt that has no transaction yet, and the controller it is for. -/
def Process.queued (p : Process) : Option (AdapterState × Nat) :=
  match p.job with
  | some (.cycle e n) => some (e, n)
  | some (.cycleBus e n) => some (e, n)
  | _ => none

/-- Until its power-off, an attempt is the last one, and it is on record as spent. -/
structure Cycling (w : World) (n : Nat) : Prop where
  active : w.proc.active = true
  pending : w.proc.operationPending = true
  last : n + 1 = w.attempts
  spent : w.proc.record.spent = some true ∧ w.disk.record.spent = some true
  recorded : ∃ a, .attempted n a ∈ w.log ∧ w.proc.record.lastAttempt = some a
    ∧ w.disk.record.lastAttempt = some a
  unpowered : ∀ d, .powerOff d ∈ w.log → d.attempt ≠ n

/-- An attempt that is queued names its controller, and nothing else belongs to it. -/
structure Queued (cfg : Config) (w : World) (e : AdapterState) (n : Nat) : Prop where
  named : Named cfg e.owner e.address
  open' : .completed n ∉ w.log
  other : ∀ t, w.proc.transaction = some t → t.attempt ≠ n

variable {w v : World}

theorem Cycling.of_eq {n : Nat} (h : Cycling w n)
    (heq : (v.proc.active, v.proc.operationPending, v.attempts, v.proc.record, v.disk.record, v.log) =
      (w.proc.active, w.proc.operationPending, w.attempts, w.proc.record, w.disk.record, w.log)) :
    Cycling v n := by
  simp only [Prod.mk.injEq] at heq
  obtain ⟨hactive, hpending, hattempts, hrecord, hdisk, hlog⟩ := heq
  constructor
  · rw [hactive]; exact h.active
  · rw [hpending]; exact h.pending
  · rw [hattempts]; exact h.last
  · rw [hrecord, hdisk]; exact h.spent
  · rw [hlog, hrecord, hdisk]; exact h.recorded
  · rw [hlog]; exact h.unpowered

theorem Queued.of_eq {e : AdapterState} {n : Nat} (h : Queued cfg w e n) (hlog : v.log = w.log)
    (htransaction : v.proc.transaction = w.proc.transaction) : Queued cfg v e n := by
  constructor
  · exact h.named
  · rw [hlog]; exact h.open'
  · rw [htransaction]; exact h.other

/-- **The invariant of the recovery.** -/
structure Inv (cfg : Config) (w : World) : Prop where
  numbered : ∀ n a, .attempted n a ∈ w.log → n < w.attempts
  once : ∀ n a b, .attempted n a ∈ w.log → .attempted n b ∈ w.log → a = b
  spaced : ∀ n a m b, .attempted n a ∈ w.log → .attempted m b ∈ w.log → n < m →
    a + hourlyLimitSeconds ≤ b
  past : ∀ n a, .attempted n a ∈ w.log → a ≤ w.clock
  memory : ∀ n a t, .attempted n a ∈ w.log → w.proc.record.lastAttempt = some t → a ≤ t
  stored : ∀ n a t, .attempted n a ∈ w.log → w.disk.record.lastAttempt = some t → a ≤ t
  closed : ∀ n, .completed n ∈ w.log → n < w.attempts
  recorded : ∀ d, .powerOff d ∈ w.log →
    ∃ r, d.disk.record.lastAttempt = some r ∧ .attempted d.attempt r ∈ w.log
  filed : ∀ j, w.disk.restore = .journal j → j.attempt < w.attempts
  formed : ∀ t, w.proc.transaction = some t → WellFormed cfg t ∧ t.attempt < w.attempts
  backed : w.proc.held = true → ∃ t, w.proc.transaction = some t
  released : ∀ t, w.proc.transaction = some t → w.proc.held = false → t.completed = true
  latched : ∀ t, w.proc.transaction = some t → t.completed = true → .completed t.attempt ∈ w.log
  unlatched : ∀ t, w.proc.transaction = some t → t.completed = false → ¬ Latched t.attempt w.log
  holds : ∀ t, w.proc.transaction = some t → t.completed = false → Journaled cfg w.disk t.attempt
  stale : w.proc.staleRecord = true → w.proc.held = false
  powered : ∀ d, .powerOff d ∈ w.log → .completed d.attempt ∉ w.log →
    ∃ t, w.proc.transaction = some t ∧ t.attempt = d.attempt ∧ t.completed = false
  cycling : ∀ n, w.proc.cycling = some n → Cycling w n
  queued : ∀ e n, w.proc.queued = some (e, n) → Queued cfg w e n
  bus : ∀ e n, w.proc.job = some (.cycleBus e n) →
    w.proc.held = false ∧ w.proc.staleRecord = false
  reading : ∀ e r i, w.proc.job = some (.cycleRead e r i) → w.proc.staleRecord = false
  safe : Trace.Each (Safe cfg) w.log

/-! ## What the invariant does not see -/

/-- The two worlds agree on what the invariant reads; the flags of an operation matter only while an
attempt is on its way. -/
structure Same (w v : World) : Prop where
  disk : v.disk = w.disk
  attempts : v.attempts = w.attempts
  log : v.log = w.log
  clock : w.clock ≤ v.clock
  record : v.proc.record = w.proc.record
  transaction : v.proc.transaction = w.proc.transaction
  held : v.proc.held = w.proc.held
  stale : v.proc.staleRecord = w.proc.staleRecord
  job : v.proc.job = w.proc.job
  flags : w.proc.cycling ≠ none →
    v.proc.active = w.proc.active ∧ v.proc.operationPending = w.proc.operationPending

theorem Same.cycling_eq (h : Same w v) : v.proc.cycling = w.proc.cycling := by
  unfold Process.cycling
  rw [h.job, h.transaction]

theorem Same.queued_eq (h : Same w v) : v.proc.queued = w.proc.queued := by
  unfold Process.queued
  rw [h.job]

theorem Inv.same (h : Inv cfg w) (hv : Same w v) : Inv cfg v where
  numbered := by rw [hv.log, hv.attempts]; exact h.numbered
  once := by rw [hv.log]; exact h.once
  spaced := by rw [hv.log]; exact h.spaced
  past := by
    rw [hv.log]
    exact fun n a ha => le_trans (h.past n a ha) hv.clock
  memory := by rw [hv.log, hv.record]; exact h.memory
  stored := by rw [hv.log, hv.disk]; exact h.stored
  closed := by rw [hv.log, hv.attempts]; exact h.closed
  recorded := by rw [hv.log]; exact h.recorded
  filed := by rw [hv.disk, hv.attempts]; exact h.filed
  formed := by rw [hv.transaction, hv.attempts]; exact h.formed
  backed := by rw [hv.transaction, hv.held]; exact h.backed
  released := by rw [hv.transaction, hv.held]; exact h.released
  latched := by rw [hv.transaction, hv.log]; exact h.latched
  unlatched := by rw [hv.transaction, hv.log]; exact h.unlatched
  holds := by rw [hv.transaction, hv.disk]; exact h.holds
  stale := by rw [hv.held, hv.stale]; exact h.stale
  powered := by rw [hv.log, hv.transaction]; exact h.powered
  cycling := by
    intro n hn
    rw [hv.cycling_eq] at hn
    obtain ⟨hactive, hpending⟩ := hv.flags (by rw [hn]; simp)
    exact (h.cycling n hn).of_eq
      (by rw [hactive, hpending, hv.attempts, hv.record, hv.disk, hv.log])
  queued := by
    intro e n hn
    rw [hv.queued_eq] at hn
    exact (h.queued e n hn).of_eq hv.log hv.transaction
  bus := by rw [hv.job, hv.held, hv.stale]; exact h.bus
  reading := by rw [hv.job, hv.stale]; exact h.reading
  safe := by rw [hv.log]; exact h.safe

/-- While a transaction is open, `_restore` is that transaction. -/
theorem Inv.held_of_open (h : Inv cfg w) (ht : w.proc.transaction = some t)
    (hopen : t.completed = false) : w.proc.held = true := by
  by_contra hheld
  have hdone := h.released t ht (by simpa using hheld)
  rw [hopen] at hdone
  exact absurd hdone (by simp)

theorem Same.refl (w : World) : Same w w :=
  ⟨rfl, rfl, rfl, le_refl _, rfl, rfl, rfl, rfl, rfl, fun _ => ⟨rfl, rfl⟩⟩

theorem Same.trans {u : World} (h : Same w v) (h' : Same v u) : Same w u where
  disk := h'.disk.trans h.disk
  attempts := h'.attempts.trans h.attempts
  log := h'.log.trans h.log
  clock := le_trans h.clock h'.clock
  record := h'.record.trans h.record
  transaction := h'.transaction.trans h.transaction
  held := h'.held.trans h.held
  stale := h'.stale.trans h.stale
  job := h'.job.trans h.job
  flags := fun hc => by
    have hc' : v.proc.cycling ≠ none := by rw [h.cycling_eq]; exact hc
    exact ⟨(h'.flags hc').1.trans (h.flags hc).1, (h'.flags hc').2.trans (h.flags hc).2⟩

theorem same_updateWindow (f : Window → Window) (w : World) : Same w (w.updateWindow f) :=
  { Same.refl w with }

theorem same_invalidate (env : Env) (suspended : Option Bool) (w : World) :
    Same w (w.invalidate env suspended) := by
  unfold World.invalidate
  simp only
  split_ifs
  all_goals exact { Same.refl w with }

theorem same_readAsync (env : Env) (purpose : ReadPurpose) (generation : Nat) (w : World) :
    Same w (w.readAsync env purpose generation) := by
  unfold World.readAsync
  split_ifs
  · exact same_invalidate env none w
  · exact { Same.refl w with }

/-- The end of an operation, while no attempt is on its way. -/
theorem same_finished (env : Env) (hidle : w.proc.cycling = none) : Same w (w.finished env) := by
  have hflags : ∀ {p : Prop}, w.proc.cycling ≠ none → p := fun hc => absurd hidle hc
  have hpending : Same w { w with proc := { w.proc with operationPending := false } } :=
    { Same.refl w with flags := hflags }
  have hinactive : Same w { w with proc := { w.proc with
      operationPending := false, active := false, reserved := false } } :=
    { Same.refl w with flags := hflags }
  unfold World.finished
  simp only
  split_ifs
  · exact hpending
  · have hinvalid := hinactive.trans (same_invalidate env (some w.proc.suspended) _)
    exact { hinvalid with flags := hflags }
  · exact hinactive.trans (same_invalidate env (some w.proc.suspended) _)

theorem same_snapshotFailed (env : Env) (generation : Nat) (w : World) :
    Same w (w.snapshotFailed env generation) := by
  unfold World.snapshotFailed
  split_ifs
  · exact Same.refl w
  · exact same_invalidate env none w

/-! ## The journal -/

/-- A job that is no power cycle before its power-off. -/
def Job.Plain : Job → Prop
  | .cycle _ _ => False
  | .cycleBus _ _ => False
  | .cycleRead _ _ _ => False
  | _ => True

theorem inv_setJob (h : Inv cfg w) {job : Job} (hjob : job.Plain) : Inv cfg (w.setJob job) := by
  have hcycling : (w.setJob job).proc.cycling = none := by
    cases job <;> first | exact hjob.elim | rfl
  have hqueued : (w.setJob job).proc.queued = none := by
    cases job <;> first | exact hjob.elim | rfl
  exact { h with
    cycling := fun n hn => absurd hn (by rw [hcycling]; simp)
    queued := fun e n hn => absurd hn (by rw [hqueued]; simp)
    bus := fun e n hn => by
      obtain rfl := Option.some.inj hn
      exact hjob.elim
    reading := fun e r i hn => by
      obtain rfl := Option.some.inj hn
      exact hjob.elim }

theorem restore_of_held {p : Process} (h : p.held = true) : p.restore = p.transaction := by
  rw [Process.restore, if_pos h]

/-- A journal is cleaned up only when no transaction is open. -/
theorem Inv.completed_of_cleanupPending (h : Inv cfg w) (hpending : w.proc.cleanupPending = true)
    (ht : w.proc.transaction = some t) : t.completed = true := by
  by_contra hopen
  have hheld : w.proc.held = true := h.held_of_open ht (by simpa using hopen)
  have hstale : w.proc.staleRecord = false := by
    by_contra hstale
    rw [h.stale (by simpa using hstale)] at hheld
    exact absurd hheld (by simp)
  rw [Process.cleanupPending, restore_of_held hheld, ht, hstale] at hpending
  exact hopen (by simpa using hpending)

theorem inv_cleanupJournal (h : Inv cfg w) (result : Write) :
    Inv cfg (w.cleanupJournal result) := by
  unfold World.cleanupJournal
  split_ifs with hpending
  · exact h
  have hdone : ∀ t, w.proc.transaction = some t → t.completed = true :=
    fun t ht => h.completed_of_cleanupPending (by simpa using hpending) ht
  have hclosed : ∀ (disk : Disk) t, w.proc.transaction = some t → t.completed = false →
      Journaled cfg disk t.attempt := by
    intro disk t ht hopen
    rw [hdone t ht] at hopen
    exact absurd hopen (by simp)
  cases result with
  | done =>
    exact { h with
      filed := fun j hj => absurd hj (by simp [Write.stored])
      backed := fun hheld => absurd hheld (by simp)
      released := fun t ht _ => hdone t ht
      holds := hclosed _
      stale := fun hstale => absurd hstale (by simp)
      cycling := fun n hn => (h.cycling n hn).of_eq rfl
      queued := fun e n hn => (h.queued e n hn).of_eq rfl rfl
      bus := fun _ _ _ => ⟨rfl, rfl⟩
      reading := fun _ _ _ _ => rfl }
  | lost => exact h
  | unsynced =>
    exact { h with
      filed := fun j hj => absurd hj (by simp [Write.stored])
      holds := hclosed _
      cycling := fun n hn => (h.cycling n hn).of_eq rfl
      queued := fun e n hn => (h.queued e n hn).of_eq rfl rfl }

theorem not_latched_cons {attempt : Nat} {e : Entry} {log : List Entry}
    (he : e ≠ .completed attempt) (h : ¬ Latched attempt log) : ¬ Latched attempt (e :: log) := by
  rintro (hhere | ⟨-, hlater⟩)
  · exact he hhere
  · exact h hlater

/-- Setting the latch settles the attempt. -/
theorem inv_latch (h : Inv cfg w) (ht : w.proc.transaction = some t) : Inv cfg (w.latch t) where
  numbered := fun n a ha => h.numbered n a (by simpa [World.latch] using ha)
  once := fun n a b ha hb =>
    h.once n a b (by simpa [World.latch] using ha) (by simpa [World.latch] using hb)
  spaced := fun n a m b ha hb =>
    h.spaced n a m b (by simpa [World.latch] using ha) (by simpa [World.latch] using hb)
  past := fun n a ha => h.past n a (by simpa [World.latch] using ha)
  memory := fun n a s ha => h.memory n a s (by simpa [World.latch] using ha)
  stored := fun n a s ha => h.stored n a s (by simpa [World.latch] using ha)
  closed := by
    intro n hn
    rcases List.mem_cons.mp hn with heq | hn
    · obtain rfl : n = t.attempt := by simpa using heq
      exact (h.formed t ht).2
    · exact h.closed n hn
  recorded := by
    intro d hd
    obtain ⟨r, hr, hrec⟩ := h.recorded d (by simpa [World.latch] using hd)
    exact ⟨r, hr, .tail _ hrec⟩
  filed := h.filed
  formed := by
    intro t' ht'
    obtain rfl := Option.some.inj ht'
    obtain ⟨hformed, hlt⟩ := h.formed t ht
    exact ⟨⟨hformed.named, hformed.busId, hformed.adapterInstance⟩, hlt⟩
  backed := fun _ => ⟨_, rfl⟩
  released := fun t' ht' _ => by
    obtain rfl := Option.some.inj ht'
    rfl
  latched := fun t' ht' _ => by
    obtain rfl := Option.some.inj ht'
    exact .head _ ..
  unlatched := fun t' ht' hopen => by
    obtain rfl := Option.some.inj ht'
    exact absurd hopen (by simp)
  holds := fun t' ht' hopen => by
    obtain rfl := Option.some.inj ht'
    exact absurd hopen (by simp)
  stale := h.stale
  powered := by
    -- the open attempt is the one that is latched here
    intro d hd hopen
    have hd' : .powerOff d ∈ w.log := by simpa [World.latch] using hd
    obtain ⟨t', ht', hattempt, -⟩ := h.powered d hd' (fun hin => hopen (.tail _ hin))
    obtain rfl : t = t' := Option.some.inj (ht.symm.trans ht')
    exact absurd (List.mem_cons_self ..) (hattempt ▸ hopen)
  cycling := by
    intro n hn
    have hn' : w.proc.cycling = some n := by
      revert hn
      unfold Process.cycling World.latch
      rw [ht]
      exact id
    have hc := h.cycling n hn'
    refine { hc with recorded := ?_, unpowered := ?_ }
    · obtain ⟨a, ha, hrec⟩ := hc.recorded
      exact ⟨a, .tail _ ha, hrec⟩
    · exact fun d hd => hc.unpowered d (by simpa [World.latch] using hd)
  queued := by
    intro e n hn
    have hq := h.queued e n hn
    refine ⟨hq.named, ?_, ?_⟩
    · intro hin
      rcases List.mem_cons.mp hin with heq | hin
      · exact hq.other t ht (by simpa using heq.symm)
      · exact hq.open' hin
    · intro t' ht'
      obtain rfl := Option.some.inj ht'
      exact hq.other t ht
  bus := h.bus
  reading := h.reading
  safe := ⟨trivial, h.safe⟩

theorem inv_completeRestore (h : Inv cfg w) (result : Write) (ht : w.proc.transaction = some t) :
    Inv cfg (w.completeRestore result t) := by
  unfold World.completeRestore
  simp only
  split_ifs
  · exact inv_cleanupJournal (inv_latch h ht) result
  · exact inv_latch h ht

theorem inv_abandon (h : Inv cfg w) (env : Env) (ht : w.proc.transaction = some t) :
    Inv cfg (w.abandon env t) :=
  inv_setJob (inv_completeRestore h env.cleans ht) trivial

/-- Seeing the controller off changes nothing that counts. -/
theorem inv_sawOff (h : Inv cfg w) (ht : w.proc.transaction = some t) :
    Inv cfg { w with proc := { w.proc with transaction := some { t with sawOff := true } } } :=
  { h with
    formed := fun t' ht' => by
      obtain rfl := Option.some.inj ht'
      obtain ⟨hformed, hlt⟩ := h.formed t ht
      exact ⟨⟨hformed.named, hformed.busId, hformed.adapterInstance⟩, hlt⟩
    backed := fun _ => ⟨_, rfl⟩
    released := fun t' ht' => by
      obtain rfl := Option.some.inj ht'
      exact h.released t ht
    latched := fun t' ht' => by
      obtain rfl := Option.some.inj ht'
      exact h.latched t ht
    unlatched := fun t' ht' => by
      obtain rfl := Option.some.inj ht'
      exact h.unlatched t ht
    holds := fun t' ht' => by
      obtain rfl := Option.some.inj ht'
      exact h.holds t ht
    powered := fun d hd hopen => by
      obtain ⟨t', ht', hattempt, hopen'⟩ := h.powered d hd hopen
      obtain rfl : t = t' := Option.some.inj (ht.symm.trans ht')
      exact ⟨_, rfl, hattempt, hopen'⟩
    cycling := fun n hn => by
      have hn' : w.proc.cycling = some n := by
        revert hn
        unfold Process.cycling
        rw [ht]
        exact id
      exact (h.cycling n hn').of_eq rfl
    queued := fun e n hn => by
      have hq := h.queued e n hn
      refine { hq with other := ?_ }
      intro t' ht'
      obtain rfl := Option.some.inj ht'
      exact hq.other t ht }

/-- Writing the journal of the open transaction again. -/
theorem inv_persistRestore (h : Inv cfg w) (result : Write) (ht : w.proc.transaction = some t)
    (phase : Phase) : Inv cfg (w.persistRestore cfg result t phase) := by
  obtain ⟨hformed, hlt⟩ := h.formed t ht
  have hfiled : ∀ j, Saved.journal (journalOf cfg t phase) = .journal j → j.attempt < w.attempts := by
    intro j hj
    obtain rfl := Saved.journal.inj hj
    exact hlt
  have hholds : ∀ t', w.proc.transaction = some t' → t'.completed = false →
      Journaled cfg { w.disk with restore := .journal (journalOf cfg t phase) } t'.attempt := by
    intro t' ht' _
    obtain rfl : t = t' := Option.some.inj (ht.symm.trans ht')
    exact journaled_journalOf hformed phase rfl
  cases result with
  | lost => exact h
  | done | unsynced =>
    exact { h with
      filed := hfiled
      holds := hholds
      cycling := fun n hn => (h.cycling n hn).of_eq rfl
      queued := fun e n hn => (h.queued e n hn).of_eq rfl rfl }

/-! ## The log and the record -/

/-- Logging a power-off or a power-on, when no attempt waits for its power-off any more. -/
theorem Inv.cons (h : Inv cfg w) {e : Entry} (hidle : w.proc.cycling = none)
    (hattempted : ∀ n a, e ≠ .attempted n a) (hcompleted : ∀ n, e ≠ .completed n)
    (hpowered : ∀ d, e = .powerOff d →
      (∃ r, d.disk.record.lastAttempt = some r ∧ .attempted d.attempt r ∈ w.log)
        ∧ ∃ t, w.proc.transaction = some t ∧ t.attempt = d.attempt ∧ t.completed = false)
    (hsafe : Safe cfg e w.log) : Inv cfg { w with log := e :: w.log } := by
  have hold : ∀ n a, Entry.attempted n a ∈ e :: w.log → Entry.attempted n a ∈ w.log := by
    intro n a ha
    exact (List.mem_cons.mp ha).resolve_left (fun heq => hattempted n a heq.symm)
  have hdone : ∀ n, Entry.completed n ∈ e :: w.log → Entry.completed n ∈ w.log := by
    intro n hn
    exact (List.mem_cons.mp hn).resolve_left (fun heq => hcompleted n heq.symm)
  exact { h with
    numbered := fun n a ha => h.numbered n a (hold n a ha)
    once := fun n a b ha hb => h.once n a b (hold n a ha) (hold n b hb)
    spaced := fun n a m b ha hb => h.spaced n a m b (hold n a ha) (hold m b hb)
    past := fun n a ha => h.past n a (hold n a ha)
    memory := fun n a t ha => h.memory n a t (hold n a ha)
    stored := fun n a t ha => h.stored n a t (hold n a ha)
    closed := fun n hn => h.closed n (hdone n hn)
    recorded := fun d hd => by
      rcases List.mem_cons.mp hd with heq | hd
      · obtain ⟨r, hr, hrec⟩ := (hpowered d heq.symm).1
        exact ⟨r, hr, .tail _ hrec⟩
      obtain ⟨r, hr, hrec⟩ := h.recorded d hd
      exact ⟨r, hr, .tail _ hrec⟩
    latched := fun t ht hd => .tail _ (h.latched t ht hd)
    unlatched := fun t ht hopen =>
      not_latched_cons (hcompleted t.attempt) (h.unlatched t ht hopen)
    powered := fun d hd hopen => by
      rcases List.mem_cons.mp hd with heq | hd
      · exact (hpowered d heq.symm).2
      · exact h.powered d hd (fun hin => hopen (.tail _ hin))
    cycling := fun n hn => absurd hn (by rw [hidle]; simp)
    queued := fun q n hn => by
      have hq := h.queued q n hn
      exact { hq with open' := fun hin => hq.open' (hdone n hin) }
    safe := ⟨hsafe, h.safe⟩ }

/-- Writing the record: the last attempt in it is not older than any attempt, and while an attempt
is on its way it stays spent. -/
theorem inv_save (h : Inv cfg w) (result : Write) (record : AttemptRecord)
    (hlast : ∀ n a t, .attempted n a ∈ w.log → record.lastAttempt = some t → a ≤ t)
    (hspent : ∀ n, w.proc.cycling = some n →
      record.spent = some true ∧ record.lastAttempt = w.proc.record.lastAttempt) :
    Inv cfg (w.save result record).1 := by
  have hcycling : ∀ (disk : Disk) (memory : AttemptRecord),
      (disk.record = record ∨ disk.record = w.disk.record) →
      (memory = record ∨ memory = w.proc.record) → ∀ n, w.proc.cycling = some n →
      Cycling { w with disk, proc := { w.proc with record := memory } } n := by
    intro disk memory hdisk hmemory n hn
    have hc := h.cycling n hn
    obtain ⟨hspent, hlast⟩ := hspent n hn
    obtain ⟨a, ha, hmem, hsto⟩ := hc.recorded
    refine { hc with spent := ⟨?_, ?_⟩, recorded := ⟨a, ha, ?_, ?_⟩ }
    · rcases hmemory with rfl | rfl
      · exact hspent
      · exact hc.spent.1
    · rcases hdisk with heq | heq
      · rw [heq]; exact hspent
      · rw [heq]; exact hc.spent.2
    · rcases hmemory with rfl | rfl
      · rw [hlast]; exact hmem
      · exact hmem
    · rcases hdisk with heq | heq
      · rw [heq, hlast]; exact hmem
      · rw [heq]; exact hsto
  cases result with
  | lost => exact h
  | done =>
    exact { h with
      memory := hlast
      stored := hlast
      cycling := hcycling _ record (.inl rfl) (.inl rfl)
      queued := fun e n hn => (h.queued e n hn).of_eq rfl rfl }
  | unsynced =>
    exact { h with
      stored := hlast
      cycling := hcycling _ w.proc.record (.inl rfl) (.inr rfl)
      queued := fun e n hn => (h.queued e n hn).of_eq rfl rfl }

end BlueFerry.Recovery
