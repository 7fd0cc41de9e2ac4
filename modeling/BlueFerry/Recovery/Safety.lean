import BlueFerry.Recovery.Invariant

/-! # Every run of the recovery is safe

Each step of the worker, each handler of the main loop and a restart keep the invariant; so it holds
along every run.
-/

namespace BlueFerry.Recovery

open BlueFerry.Text World

variable {cfg : Config} {w : World} {env : Env}

/-! ## The worker -/

theorem inv_beginRestore (h : Inv cfg w) (env : Env) : Inv cfg (w.beginRestore env) := by
  have hclean := inv_cleanupJournal h env.cleans
  unfold World.beginRestore
  simp only
  split
  · exact inv_setJob hclean trivial
  · split_ifs <;> exact inv_setJob hclean trivial

variable {t : PowerRestore} {e current : AdapterState} {n : Nat}

theorem inv_beginRestorationState (h : Inv cfg w) (env : Env) (stat : Stat) (again : Bool) (ht : w.proc.transaction = some t) :
    Inv cfg (w.beginRestorationState env stat again t) := by
  unfold World.beginRestorationState
  split
  · exact inv_abandon h env ht
  · exact inv_setJob h trivial
  split_ifs
  · exact inv_abandon h env ht
  · exact inv_setJob h trivial

theorem inv_restoreFrom (h : Inv cfg w) (env : Env) (ht : w.proc.transaction = some t)
    (current : AdapterState) : Inv cfg (w.restoreFrom cfg env t current) := by
  unfold World.restoreFrom
  split_ifs
  · exact inv_setJob h trivial
  · exact inv_abandon h env ht
  · exact inv_abandon h env ht
  · exact inv_abandon h env ht
  have hoff := inv_sawOff h ht
  have hjournal := inv_persistRestore hoff env.journals rfl .on
  exact inv_beginRestorationState hjournal env env.statAgain true rfl

/-- The power-on is sent for an open transaction only. -/
theorem inv_powerOn (h : Inv cfg w) (env : Env) (ht : w.proc.transaction = some t)
    (current : AdapterState) : Inv cfg (w.powerOn env t current) := by
  unfold World.powerOn
  split_ifs with hstop
  · exact inv_abandon h env ht
  · exact inv_setJob h trivial
  have hopen : t.completed = false := by
    by_contra hdone
    exact hstop (.inl (by simpa using hdone))
  exact (inv_setJob h (show Job.Plain .powerOn from trivial)).cons rfl (by simp) (by simp) (by simp)
    (h.unlatched t ht hopen)

theorem inv_restorationState (h : Inv cfg w) (env : Env) (again : Bool)
    (ht : w.proc.transaction = some t) (result : ReadResult) :
    Inv cfg (w.restorationState cfg env again t result) := by
  unfold World.restorationState
  split
  · exact inv_abandon h env ht
  · exact inv_setJob h trivial
  split_ifs
  · exact inv_abandon h env ht
  · exact inv_abandon h env ht
  · exact inv_powerOn h env ht _
  · exact inv_restoreFrom h env ht _

/-- `cycle` goes on only when nothing is left to restore or to clean up. -/
theorem inv_beginCycleJob (h : Inv cfg w)
    (hjob : w.proc.job = some (.cycle e n)) (hrestore : w.proc.restorePending = false)
    (hcleanup : w.proc.cleanupPending = false) : Inv cfg (w.setJob (.cycleBus e n)) := by
  have hcycling : w.proc.cycling = some n := by rw [Process.cycling, hjob]
  have hqueued : w.proc.queued = some (e, n) := by rw [Process.queued, hjob]
  rw [Process.cleanupPending, Bool.or_eq_false_iff] at hcleanup
  have hheld : w.proc.held = false := by
    by_contra hheld
    rw [Bool.not_eq_false] at hheld
    obtain ⟨t, ht⟩ := h.backed hheld
    rw [Process.restorePending, restore_of_held hheld, ht] at hrestore
    rw [restore_of_held hheld, ht] at hcleanup
    -- the transaction is either open or completed
    cases hdone : t.completed with
    | true => simp [hdone] at hcleanup
    | false => simp [hdone] at hrestore
  exact { h with
    cycling := fun m hm => by
      obtain rfl : n = m := Option.some.inj hm
      exact (h.cycling n hcycling).of_eq rfl
    queued := fun e' m hm => by
      obtain ⟨rfl, rfl⟩ := Prod.mk.inj (Option.some.inj hm)
      exact (h.queued e n hqueued).of_eq rfl rfl
    bus := fun _ _ _ => ⟨hheld, hcleanup.1⟩
    reading := fun _ _ _ hread => absurd hread (by simp [World.setJob]) }

/-- The transaction of an attempt, with its journal on disk. -/
theorem inv_transaction (h : Inv cfg w) {busId : Str}
    (hjob : w.proc.job = some (.cycleBus e n)) (hbus : busId ≠ []) (device inode revision incarnation : Nat) :
    Inv cfg { w with
      disk := { w.disk with restore := .journal (journalOf cfg
        { expected := e, busId, adapterInstance := instanceText device inode, attempt := n } .off) }
      proc := { w.proc with
        transaction := some
          { expected := e, busId, adapterInstance := instanceText device inode, attempt := n }
        held := true
        job := some (.cycleRead e revision incarnation) } } := by
  have hc : Cycling w n := h.cycling n (by rw [Process.cycling, hjob])
  have hq : Queued cfg w e n := h.queued e n (by rw [Process.queued, hjob])
  have hlt : n < w.attempts := by
    have hlast := hc.last
    omega
  have hformed : WellFormed cfg
      { expected := e, busId, adapterInstance := instanceText device inode, attempt := n } :=
    ⟨hq.named, hbus, instanceText_ne device inode⟩
  have hunlatched : ¬ Latched n w.log := by
    intro hlatched
    obtain ⟨e, he, _, rfl⟩ := hlatched.exists_mem
    exact hq.open' he
  exact { h with
    filed := fun j hj => by
      obtain rfl := Saved.journal.inj hj
      exact hlt
    formed := fun t ht => by
      obtain rfl := Option.some.inj ht
      exact ⟨hformed, hlt⟩
    backed := fun _ => ⟨_, rfl⟩
    released := fun _ _ hheld => absurd hheld (by simp)
    latched := fun t ht hdone => by
      obtain rfl := Option.some.inj ht
      exact absurd hdone (by simp)
    unlatched := fun t ht _ => by
      obtain rfl := Option.some.inj ht
      exact hunlatched
    holds := fun t ht _ => by
      obtain rfl := Option.some.inj ht
      exact journaled_journalOf hformed .off rfl
    stale := fun hstale => absurd hstale (by simp [(h.bus e n hjob).2])
    powered := fun d hd hopen => by
      -- an open attempt would have kept the journal before
      obtain ⟨t, ht, -, hopen'⟩ := h.powered d hd hopen
      exact absurd (h.held_of_open ht hopen') (by simp [(h.bus e n hjob).1])
    cycling := fun m hm => by
      obtain rfl : n = m := Option.some.inj hm
      exact hc.of_eq rfl
    queued := fun _ _ hn => absurd hn (by simp [Process.queued])
    bus := fun _ _ hn => absurd hn (by simp)
    reading := fun _ _ _ _ => (h.bus e n hjob).2 }

/-- Giving up ends the job, whatever it was. -/
theorem abandon_setJob (env : Env) (t : PowerRestore) (job : Job) (w : World) :
    (w.setJob job).abandon env t = w.abandon env t := by
  have hpending : ∀ v : World, (v.setJob job).proc.cleanupPending = v.proc.cleanupPending :=
    fun _ => rfl
  have hclean : ∀ v : World,
      (v.setJob job).cleanupJournal env.cleans = (v.cleanupJournal env.cleans).setJob job := by
    intro v
    unfold World.cleanupJournal
    rw [hpending v]
    split_ifs
    · rfl
    · cases env.cleans <;> rfl
  have hlatch : (w.setJob job).latch t = (w.latch t).setJob job := rfl
  unfold World.abandon World.completeRestore
  rw [hlatch]
  simp only
  rw [hclean]
  show World.setJob _ (if (w.latch t).proc.held then _ else _) = _
  split_ifs <;> rfl

theorem inv_journalCycle (h : Inv cfg w) (env : Env) {busId : Str}
    (hjob : w.proc.job = some (.cycleBus e n)) (hbus : busId ≠ []) :
    Inv cfg (w.journalCycle cfg env e n busId) := by
  unfold World.journalCycle
  split
  · exact inv_setJob h trivial
  · exact inv_setJob h trivial
  rename_i device inode _
  have htransaction := inv_transaction h hjob hbus device inode w.proc.revision w.proc.incarnation
  simp only
  split_ifs with hfail hstat
  · -- the journal may be on disk, but the process does not hold it: nothing is open
    have hnone : ∀ t, w.proc.transaction = some t → t.completed = true := by
      intro t ht
      exact h.released t ht (h.bus e n hjob).1
    have hfiled := htransaction.filed
    refine inv_setJob ?_ trivial
    cases hwrite : env.journals with
    | done => exact absurd hwrite hfail
    | lost => exact h
    | unsynced =>
      exact { h with
        filed := hfiled
        holds := fun t ht hopen => absurd (hnone t ht) (by simp [hopen])
        cycling := fun m hm => (h.cycling m hm).of_eq rfl
        queued := fun e' m hm => (h.queued e' m hm).of_eq rfl rfl }
  · have hdone : env.journals = .done := by simpa using hfail
    rw [hdone, ← abandon_setJob env _ .finished]
    exact inv_abandon (inv_setJob htransaction (show Job.Plain .finished from trivial)) env rfl
  · have hdone : env.journals = .done := by simpa using hfail
    rw [hdone]
    exact htransaction

/-- **The power-off is sent with everything in place.** -/
theorem inv_powerOff (h : Inv cfg w) (hclock : w.clock = env.wallLater)
    {revision incarnation : Nat} (hjob : w.proc.job = some (.cycleRead e revision incarnation)) (ht : w.proc.transaction = some t) (result : ReadResult) :
    Inv cfg (w.powerOff env e t result) := by
  unfold World.powerOff
  split
  · exact inv_abandon h env ht
  · exact inv_abandon h env ht
  split_ifs with hstop
  · exact inv_abandon h env ht
  have hopen : t.completed = false := by
    by_contra hdone
    exact hstop (.inr (.inr (.inr (.inr (by simpa using hdone)))))
  have hheld : w.proc.held = true := h.held_of_open ht hopen
  have hrestore : w.proc.restore = some t := by rw [restore_of_held hheld, ht]
  have hc : Cycling w t.attempt := by
    apply h.cycling
    rw [Process.cycling, hjob, ht]
    rfl
  obtain ⟨a, ha, -, hstored⟩ := hc.recorded
  refine (inv_setJob h (show Job.Plain .powerOff from trivial)).cons rfl (by simp) (by simp) ?_ ?_
  · rintro d hd
    obtain rfl := Entry.powerOff.inj hd
    exact ⟨⟨a, hstored, ha⟩, t, ht, rfl, hopen⟩
  refine ⟨⟨a, hstored, hclock ▸ h.past _ _ ha, ha, ?_⟩, hc.spent.2, h.holds t ht hopen,
    ⟨t, hrestore, rfl, hopen⟩, ?_⟩
  · -- an earlier power-off belongs to an earlier attempt
    intro d' r' hd' hr'
    obtain ⟨r, hr, hrec⟩ := h.recorded d' hd'
    obtain rfl : r' = r := Option.some.inj (hr'.symm.trans hr)
    have hne := hc.unpowered d' hd'
    have hlt := h.numbered _ _ hrec
    have hlast := hc.last
    exact h.spaced _ _ _ _ hrec ha (by omega)
  · rw [Process.cleanupPending, hrestore, h.reading _ _ _ hjob]
    simpa using hopen

theorem inv_work (h : Inv cfg w) (hclock : w.clock = env.wallLater) {reply : Reply}
    (hbus : ∀ id, reply = .busId (some id) → id ≠ []) : Inv cfg (w.work cfg env reply) := by
  unfold World.work
  split
  · rename_i e n hjob
    split_ifs with hpending
    · exact inv_setJob h trivial
    rw [Bool.or_eq_true, not_or] at hpending
    exact inv_beginCycleJob h hjob (by simpa using hpending.1) (by simpa using hpending.2)
  · exact inv_setJob h trivial
  · rename_i hjob
    exact inv_journalCycle h env hjob (hbus _ rfl)
  · rename_i hjob
    split
    · exact h
    rename_i t ht
    exact inv_powerOff h hclock hjob ht _
  · exact inv_beginRestore h env
  · exact inv_beginRestore h env
  · exact inv_setJob h trivial
  · split
    · exact h
    rename_i t ht
    split_ifs
    · exact inv_abandon h env ht
    · exact inv_beginRestorationState h env env.stat false ht
  · split
    · exact h
    rename_i t ht
    exact inv_restorationState h env _ ht _
  · split
    · exact h
    rename_i t ht
    split_ifs
    · exact inv_abandon h env ht
    · exact inv_setJob h trivial
  · exact h

/-! ## The main loop -/

/-- An attempt that is on its way keeps the recovery active, with its operation pending. -/
theorem Inv.idle_of_inactive (h : Inv cfg w) (hactive : w.proc.active = false) :
    w.proc.cycling = none := by
  by_contra hne
  obtain ⟨n, hn⟩ := Option.ne_none_iff_exists'.mp hne
  have hc := (h.cycling n hn).active
  rw [hactive] at hc
  exact absurd hc (by simp)

theorem Inv.idle_of_not_pending (h : Inv cfg w) (hpending : w.proc.operationPending = false) :
    w.proc.cycling = none := by
  by_contra hne
  obtain ⟨n, hn⟩ := Option.ne_none_iff_exists'.mp hne
  have hc := (h.cycling n hn).pending
  rw [hpending] at hc
  exact absurd hc (by simp)

theorem inv_submitRestore (h : Inv cfg w) (env : Env) : Inv cfg (w.submitRestore env) := by
  unfold World.submitRestore
  simp only
  split_ifs with hpending
  · exact h
  · have hidle : w.proc.cycling = none := h.idle_of_not_pending (by simpa using hpending)
    have hsame : Same w { w with proc := { w.proc with operationPending := true } } :=
      { Same.refl w with flags := fun hc => absurd hidle hc }
    exact h.same (hsame.trans (same_finished env (hsame.cycling_eq.trans hidle)))
  have hidle : w.proc.cycling = none := h.idle_of_not_pending (by simpa using hpending)
  have hsame : Same w { w with proc := { w.proc with operationPending := true } } :=
    { Same.refl w with flags := fun hc => absurd hidle hc }
  exact inv_setJob (h.same hsame) trivial

theorem inv_continueRestoration (h : Inv cfg w) (env : Env) :
    Inv cfg (w.continueRestoration env) := by
  unfold World.continueRestoration
  simp only
  split_ifs with hactive hreserve
  · exact inv_submitRestore h env
  · exact h
  all_goals
    have hidle : w.proc.cycling = none := h.idle_of_inactive (by simpa using hactive)
    have hsame : Same w { w with proc := { w.proc with reserved := true, active := true } } :=
      { Same.refl w with flags := fun hc => absurd hidle hc }
  · exact h.same (hsame.trans (same_finished env (hsame.cycling_eq.trans hidle)))
  · exact inv_submitRestore (h.same hsame) env

theorem inv_start (h : Inv cfg w) (env : Env) : Inv cfg (w.start env) := by
  have hsame : Same w { w with proc := { w.proc with running := true } } := { Same.refl w with }
  unfold World.start
  simp only
  split_ifs
  · exact h
  · exact h
  · exact inv_continueRestoration (h.same hsame) env
  · exact h.same hsame

theorem inv_tick (h : Inv cfg w) (env : Env) : Inv cfg (w.tick env) := by
  unfold World.tick
  simp only
  split_ifs
  · exact h
  · exact h
  · exact h
  · exact h.same (same_invalidate env none w)
  · exact inv_continueRestoration h env
  · exact inv_cleanupJournal h env.cleans
  have hsame : ∀ v : World, Same v { v with proc := { v.proc with snapshotPending := true } } :=
    fun v => { Same.refl v with }
  exact ((inv_cleanupJournal h env.cleans).same (hsame _)).same (same_readAsync env .snapshot _ _)

/-- The record is rearmed only while no attempt is on its way. -/
theorem inv_checkHealthy (h : Inv cfg w) (hidle : w.proc.cycling = none) (env : Env)
    (state : AdapterState) (proof : Option ℚ) : Inv cfg (w.checkHealthy cfg env state proof).1 := by
  have hwindow : ∀ f, Inv cfg (w.updateWindow f) := fun f => h.same (same_updateWindow f w)
  have hsave : ∀ (f g : Window → Window) (record : AttemptRecord),
      record.lastAttempt = w.proc.record.lastAttempt →
      Inv cfg ((((w.updateWindow f).updateWindow g).save env.saves record).1) := by
    intro f g record hlast
    refine inv_save ((hwindow f).same (same_updateWindow g _)) env.saves record ?_ ?_
    · intro n a t ha ht
      exact h.memory n a t ha (hlast ▸ ht)
    · intro n hn
      exact absurd (hidle.symm.trans hn) (by simp)
  unfold World.checkHealthy
  simp only
  split_ifs
  all_goals dsimp only
  · exact hwindow _
  · exact hwindow _
  · exact (hwindow _).same (same_updateWindow _ _)
  · exact hsave _ _ _ rfl
  · exact hsave _ _ _ rfl
  · exact (hwindow _).same (same_updateWindow _ _)

theorem same_startProbe (env : Env) (state : AdapterState) (w : World) :
    Same w (w.startProbe env state) := by
  unfold World.startProbe
  split_ifs
  · exact same_updateWindow _ w
  · exact { Same.refl w with }

theorem same_checkWindows (env : Env) (state : AdapterState) (leSince : ℚ) (w : World) :
    Same w (w.checkWindows env state leSince).1 := by
  unfold World.checkWindows
  split_ifs
  · exact Same.refl w
  · split
    · exact Same.refl w
    · exact Same.refl w
    dsimp only
    exact same_updateWindow _ w
  split
  · split_ifs
    · exact Same.refl w
    · exact same_startProbe env state w
  · exact Same.refl w

theorem same_checkOutage (env : Env) (state : AdapterState) (o : Observation) (w : World) :
    Same w (w.checkOutage cfg env state o).1 := by
  have hone : ∀ f, Same w (w.updateWindow f) := fun f => same_updateWindow f w
  have htwo : ∀ f g, Same w ((w.updateWindow f).updateWindow g) :=
    fun f g => (hone f).trans (same_updateWindow g _)
  unfold World.checkOutage
  simp only
  split
  · dsimp only
    exact hone _
  split
  · dsimp only
    exact htwo _ _
  · exact (htwo _ _).trans (same_checkWindows env state _ _)

theorem inv_check (h : Inv cfg w) (hidle : w.proc.cycling = none) (env : Env)
    (state : AdapterState) : Inv cfg (w.check cfg env state).1 := by
  have hsame : Same w (if w.proc.window.identity = some (state.owner, state.address) then w
      else (w.invalidate env none).updateWindow (fun win =>
        { win with identity := some (state.owner, state.address) })) := by
    split_ifs
    · exact Same.refl w
    · exact (same_invalidate env none w).trans (same_updateWindow _ _)
  unfold World.check
  simp only
  generalize (if w.proc.window.identity = some (state.owner, state.address) then w
      else (w.invalidate env none).updateWindow (fun win =>
        { win with identity := some (state.owner, state.address) })) = v at hsame
  have hv : Inv cfg v := h.same hsame
  split
  · exact hv.same (same_invalidate env none v)
  have hwindow : ∀ f, Same v (v.updateWindow f) := fun f => same_updateWindow f v
  split
  · dsimp only
    exact hv.same (hwindow _)
  split
  · exact inv_checkHealthy (hv.same (hwindow _))
      ((hwindow _).cycling_eq.trans (hsame.cycling_eq.trans hidle)) env state _
  · exact hv.same ((hwindow _).trans (same_checkOutage env state _ _))

theorem inv_snapshotReady (h : Inv cfg w) (env : Env) (state : AdapterState) (generation : Nat) :
    Inv cfg (w.snapshotReady cfg env state generation) := by
  have hsame : Same w { w with proc := { w.proc with snapshotPending := false } } :=
    { Same.refl w with }
  unfold World.snapshotReady
  simp only
  split_ifs with hstale hbusy
  · exact h
  · exact h.same hsame
  push Not at hbusy
  have hidle : w.proc.cycling = none := h.idle_of_inactive (by simpa using hbusy.1)
  have hcheck := inv_check (h.same hsame) (hsame.cycling_eq.trans hidle) env state
  split
  · rename_i v heq
    rw [heq] at hcheck
    exact hcheck
  · rename_i v heq
    rw [heq] at hcheck
    exact hcheck.same (same_snapshotFailed env _ _)

/-! ## The attempt -/

/-- Recording an attempt, more than the cooldown after every other one. -/
theorem inv_attempted (h : Inv cfg w) (hjob : w.proc.job = none) {time : ℚ} (hnow : time ≤ w.clock)
    (hspace : ∀ n a, .attempted n a ∈ w.log → a + hourlyLimitSeconds ≤ time)
    (hmemory : w.proc.record.lastAttempt = some time)
    (hstored : w.disk.record.lastAttempt = some time) (active operationPending cancelled : Bool) :
    Inv cfg { w with
      attempts := w.attempts + 1
      log := .attempted w.attempts time :: w.log
      proc := { w.proc with active, operationPending, cancelled } } := by
  have hcases : ∀ n a, Entry.attempted n a ∈ Entry.attempted w.attempts time :: w.log →
      (n = w.attempts ∧ a = time) ∨ Entry.attempted n a ∈ w.log := by
    intro n a ha
    rcases List.mem_cons.mp ha with heq | ha
    · exact .inl (by simpa using heq)
    · exact .inr ha
  have hlast : ∀ n a t, Entry.attempted n a ∈ Entry.attempted w.attempts time :: w.log →
      some time = some t → a ≤ t := by
    rintro n a t ha ht
    obtain rfl := Option.some.inj ht
    rcases hcases n a ha with ⟨-, rfl⟩ | ha
    · exact le_refl _
    · exact h.memory n a _ ha hmemory
  exact { h with
    numbered := fun n a ha => by
      rcases hcases n a ha with ⟨rfl, -⟩ | ha
      · exact Nat.lt_succ_self _
      · exact Nat.lt_succ_of_lt (h.numbered n a ha)
    once := fun n a b ha hb => by
      rcases hcases n a ha with ⟨rfl, rfl⟩ | hold
      · rcases hcases _ b hb with ⟨-, rfl⟩ | hold
        · rfl
        · exact absurd (h.numbered _ b hold) (lt_irrefl _)
      · rcases hcases n b hb with ⟨rfl, rfl⟩ | hold'
        · exact absurd (h.numbered _ a hold) (lt_irrefl _)
        · exact h.once n a b hold hold'
    spaced := fun n a m b ha hb hlt => by
      rcases hcases m b hb with ⟨rfl, rfl⟩ | hb
      · rcases hcases n a ha with ⟨rfl, -⟩ | ha
        · exact absurd hlt (lt_irrefl _)
        · exact hspace n a ha
      rcases hcases n a ha with ⟨rfl, -⟩ | ha
      · -- no attempt has a number after the newest one
        have hm := h.numbered m b hb
        omega
      · exact h.spaced n a m b ha hb hlt
    past := fun n a ha => by
      rcases hcases n a ha with ⟨-, rfl⟩ | ha
      · exact hnow
      · exact h.past n a ha
    memory := fun n a t ha ht => hlast n a t ha (hmemory ▸ ht)
    stored := fun n a t ha ht => hlast n a t ha (hstored ▸ ht)
    closed := fun n hn => Nat.lt_succ_of_lt (h.closed n (by simpa using hn))
    recorded := fun d hd => by
      obtain ⟨r, hr, hrec⟩ := h.recorded d (by simpa using hd)
      exact ⟨r, hr, .tail _ hrec⟩
    filed := fun j hj => Nat.lt_succ_of_lt (h.filed j hj)
    formed := fun t ht => ⟨(h.formed t ht).1, Nat.lt_succ_of_lt (h.formed t ht).2⟩
    latched := fun t ht hd => .tail _ (h.latched t ht hd)
    unlatched := fun t ht hopen => not_latched_cons (by simp) (h.unlatched t ht hopen)
    powered := fun d hd hopen =>
      h.powered d (by simpa using hd) (fun hin => hopen (.tail _ hin))
    cycling := fun n hn => absurd hn (by simp [Process.cycling, hjob])
    queued := fun e n hn => absurd hn (by simp [Process.queued, hjob])
    safe := ⟨trivial, h.safe⟩ }

/-- The job of the attempt that was recorded last. -/
theorem inv_setJob_cycle (h : Inv cfg w) {time : ℚ}
    (hlast : n + 1 = w.attempts) (hnamed : Named cfg current.owner current.address)
    (hactive : w.proc.active = true) (hpending : w.proc.operationPending = true)
    (hspent : w.proc.record.spent = some true ∧ w.disk.record.spent = some true)
    (hrecorded : .attempted n time ∈ w.log ∧ w.proc.record.lastAttempt = some time
      ∧ w.disk.record.lastAttempt = some time)
    (hunpowered : ∀ d, .powerOff d ∈ w.log → d.attempt ≠ n) (hopen : .completed n ∉ w.log)
    (hother : ∀ t, w.proc.transaction = some t → t.attempt ≠ n) :
    Inv cfg (w.setJob (.cycle current n)) :=
  { h with
    cycling := fun m hm => by
      obtain rfl : n = m := Option.some.inj hm
      exact ⟨hactive, hpending, hlast, hspent, ⟨time, hrecorded⟩, hunpowered⟩
    queued := fun e m hm => by
      obtain ⟨rfl, rfl⟩ := Prod.mk.inj (Option.some.inj hm)
      exact ⟨hnamed, hopen, hother⟩
    bus := fun _ _ hn => absurd hn (by simp [World.setJob])
    reading := fun _ _ _ hn => absurd hn (by simp [World.setJob]) }

theorem inv_beginCycle (h : Inv cfg w) (hjob : w.proc.job = none) (hclock : w.clock = env.wallLater)
    (hspace : ∀ n a, .attempted n a ∈ w.log → a + hourlyLimitSeconds ≤ env.wallLater)
    (hspent : w.proc.record.spent = some true ∧ w.disk.record.spent = some true)
    (hlast : w.proc.record.lastAttempt = some env.wallLater
      ∧ w.disk.record.lastAttempt = some env.wallLater) (hnamed : Named cfg current.owner current.address) :
    Inv cfg (w.beginCycle env current) := by
  have hattempted := inv_attempted h hjob (le_of_eq hclock.symm) hspace hlast.1 hlast.2 true true false
  unfold World.beginCycle
  simp only
  split_ifs
  · refine hattempted.same (same_finished env ?_)
    simp [Process.cycling, hjob]
  refine inv_setJob_cycle hattempted rfl hnamed rfl rfl hspent
    ⟨List.mem_cons_self .., hlast⟩ ?_ ?_ ?_
  · intro d hd
    obtain ⟨r, -, hrec⟩ := h.recorded d (by simpa using hd)
    exact ne_of_lt (h.numbered _ _ hrec)
  · intro hin
    exact absurd (h.closed _ (by simpa using hin)) (lt_irrefl _)
  · intro t ht
    exact ne_of_lt (h.formed t ht).2

/-- What `_allowed` says of the record. -/
theorem allowed_spec {state : AdapterState} {p : Process} (h : allowed cfg env state p = true) :
    ∃ last, p.record.lastAttempt = some last ∧ hourlyLimitSeconds ≤ env.wall - last := by
  rw [allowed, Bool.and_eq_true] at h
  cases hlast : p.record.lastAttempt with
  | none => simp [hlast] at h
  | some last =>
    refine ⟨last, rfl, ?_⟩
    simpa [hlast] using h.2

theorem inv_attemptCycle (h : Inv cfg w) (hclock : w.clock = env.wallLater)
    (hwall : env.wall ≤ env.wallLater) {expected : AdapterState}
    (hnamed : Named cfg current.owner current.address) :
    Inv cfg (w.attemptCycle cfg env expected current) := by
  have hsame : ∀ f, Same w (w.updateWindow f) := fun f => same_updateWindow f w
  unfold World.attemptCycle
  simp only
  split
  · exact h.same ((hsame _).trans (same_invalidate env none _))
  split
  · exact h.same (hsame _)
  rename_i hgo
  push Not at hgo
  obtain ⟨-, -, -, -, -, hallowed, hreserve⟩ := hgo
  obtain ⟨last, hlast, hcooldown⟩ := allowed_spec (by simpa using hallowed)
  have hjob : w.proc.job = none := by
    simp only [reserveIfIdle, ne_eq, Bool.not_eq_false, Bool.and_eq_true,
      Option.isNone_iff_eq_none] at hreserve
    exact hreserve.1.1.2
  have hidle : w.proc.cycling = none := by rw [Process.cycling, hjob]
  -- every attempt is at least the cooldown before this reading of the clock
  have hspace : ∀ n a, Entry.attempted n a ∈ w.log →
      a + hourlyLimitSeconds ≤ env.wallLater := by
    intro n a ha
    have hle := h.memory n a last ha hlast
    linarith
  have hreserved : ∀ f, Same w { w.updateWindow f with proc :=
      { (w.updateWindow f).proc with reserved := true } } := fun f =>
    { Same.refl w with }
  have hpast : ∀ n a t, Entry.attempted n a ∈ w.log → some env.wallLater = some t → a ≤ t := by
    intro n a t ha ht
    obtain rfl := Option.some.inj ht
    exact hclock ▸ h.past n a ha
  have hsave := inv_save (h.same (hreserved (fun win => { win with probing := false }))) env.saves
    { w.proc.record with spent := some true, lastAttempt := some env.wallLater } hpast
    (fun n hn => absurd (hidle.symm.trans hn) (by simp))
  cases hwrite : env.saves with
  | lost | unsynced =>
    rw [hwrite] at hsave
    exact hsave.same { Same.refl _ with }
  | done =>
    rw [hwrite] at hsave
    exact inv_beginCycle hsave hjob hclock hspace ⟨rfl, rfl⟩ ⟨rfl, rfl⟩ hnamed

theorem inv_afterProbe (h : Inv cfg w) (hclock : w.clock = env.wallLater)
    (hwall : env.wall ≤ env.wallLater) (generation : Nat) (expected : AdapterState) (probedAt : ℚ)
    {current : Option AdapterState} (hnamed : ∀ s, current = some s → Named cfg s.owner s.address) :
    Inv cfg (w.afterProbe cfg env generation expected probedAt current) := by
  unfold World.afterProbe
  split_ifs
  · exact h
  · exact h.same (same_updateWindow _ w)
  split
  · exact h.same (same_readAsync env _ _ w)
  · exact inv_attemptCycle h hclock hwall (hnamed _ rfl)

/-! ## Replies and ends -/

theorem readResult_named {revision incarnation : Nat} {reply : ReadReply} {p : Process}
    {s : AdapterState} (hreply : reply.IsNamed cfg)
    (h : readResult revision incarnation reply p = .state s) : Named cfg s.owner s.address := by
  cases reply with
  | vanished | failed => exact absurd h (by simp [readResult])
  | objects owner o =>
    cases hadapter : o.adapter with
    | none => simp [readResult, stateFromObjects, hadapter] at h
    | some props =>
      simp only [readResult, stateFromObjects, hadapter, Option.map_some] at h
      split_ifs at h
      obtain rfl := ReadResult.state.inj h
      exact hreply props hadapter

section

variable (h : Inv cfg w)
include h

theorem inv_readReplied (hclock : w.clock = env.wallLater)
    (hwall : env.wall ≤ env.wallLater) (index : Nat) {reply : ReadReply}
    (hreply : reply.IsNamed cfg) : Inv cfg (w.readReplied cfg env index reply) := by
  unfold World.readReplied
  split
  · exact h
  have hsame : Same w { w with proc := { w.proc with reads := w.proc.reads.eraseIdx index } } :=
    { Same.refl w with }
  simp only
  split
  · exact inv_snapshotReady (h.same hsame) env _ _
  · rename_i s _ _ hread _
    refine inv_afterProbe (h.same hsame) hclock hwall _ _ _ ?_
    intro s' hs'
    obtain rfl := Option.some.inj hs'
    exact readResult_named hreply hread
  · exact (h.same hsame).same (same_snapshotFailed env _ _)

theorem inv_probed (hclock : w.clock = env.wallLater) (hwall : env.wall ≤ env.wallLater)
    (index : Nat) (result : Option ℚ) : Inv cfg (w.probed cfg env index result) := by
  unfold World.probed
  split
  · exact h
  have hsame : Same w { w with proc := { w.proc with probes := w.proc.probes.eraseIdx index } } :=
    { Same.refl w with }
  simp only
  split
  · unfold World.probeFailed
    split_ifs
    · exact h.same hsame
    · exact (h.same hsame).same (same_updateWindow _ _)
  · exact inv_afterProbe (h.same hsame) hclock hwall _ _ _ (by simp)

/-- Dropping the job is always possible. -/
theorem inv_dropJob : Inv cfg { w with proc := { w.proc with job := none } } :=
  { h with
    cycling := fun _ hn => absurd hn (by simp [Process.cycling])
    queued := fun _ _ hn => absurd hn (by simp [Process.queued])
    bus := fun _ _ hn => absurd hn (by simp)
    reading := fun _ _ _ hn => absurd hn (by simp) }

section

variable (env : Env)

theorem inv_delivered : Inv cfg (w.delivered env) := by
  unfold World.delivered
  split_ifs
  · exact (inv_dropJob h).same (same_finished env rfl)
  · exact h

theorem inv_stop : Inv cfg (w.stop env) := by
  have hsame : Same w { w with proc := { w.proc with running := false } } := { Same.refl w with }
  exact h.same (hsame.trans (same_invalidate env none _))

theorem inv_forgetPhone : Inv cfg (w.forgetPhone env) := by
  have hv : Inv cfg (w.invalidate env none) := h.same (same_invalidate env none w)
  unfold World.forgetPhone
  simp only
  refine inv_save hv env.saves _ ?_ ?_
  · exact fun n a t ha ht => hv.memory n a t ha ht
  · exact fun _ _ => ⟨rfl, rfl⟩

theorem inv_shutdown : Inv cfg (w.shutdown env) := by
  have hv := inv_stop h env
  have hclosed : ∀ v : World, Same v { v with proc := { v.proc with closed := true } } :=
    fun v => { Same.refl v with }
  unfold World.shutdown
  simp only
  split
  · exact (inv_dropJob hv).same (hclosed _)
  · exact (inv_dropJob hv).same (hclosed _)
  · exact hv.same (hclosed _)

theorem inv_finishShutdown : Inv cfg (w.finishShutdown env) := by
  unfold World.finishShutdown
  split_ifs
  · exact h
  · exact h
  · exact inv_beginRestore h env
  · exact inv_cleanupJournal h env.cleans

theorem inv_propertiesChanged (result : Write) (powered : Option Bool) :
    Inv cfg (w.propertiesChanged result powered) := by
  have hrevision : ∀ v : World, Same v { v with proc := { v.proc with revision := v.proc.revision + 1 } } :=
    fun v => { Same.refl v with }
  have htransaction : ∀ t, w.proc.restore = some t → w.proc.transaction = some t := by
    intro t ht
    unfold Process.restore at ht
    split_ifs at ht
    exact ht
  unfold World.propertiesChanged
  simp only
  split
  · rename_i t ht
    exact (inv_sawOff h (htransaction t ht)).same (hrevision _)
  · rename_i t ht
    split_ifs
    · exact (inv_completeRestore h result (htransaction t ht)).same (hrevision _)
    · exact h.same (hrevision _)
  · exact h.same (hrevision _)

/-- **A new process goes on from the journal.** -/
theorem inv_restart : Inv cfg (w.restart cfg env) := by
  have hold : ∀ n a, Entry.attempted n a ∈ Entry.restarted :: w.log → Entry.attempted n a ∈ w.log :=
    fun n a ha => by simpa using ha
  have hload : ∀ t, loadRestore cfg w.disk.restore = some t →
      WellFormed cfg t ∧ t.attempt < w.attempts ∧ t.completed = false := by
    intro t ht
    obtain ⟨hformed, hopen, j, hj, hattempt⟩ := loadRestore_spec ht
    exact ⟨hformed, hattempt ▸ h.filed j hj, hopen⟩
  have hclosed : ∀ t, loadRestore cfg w.disk.restore = some t → t.completed ≠ true := by
    intro t ht
    rw [(hload t ht).2.2]
    simp
  exact
    { numbered := fun n a ha => h.numbered n a (hold n a ha)
      once := fun n a b ha hb => h.once n a b (hold n a ha) (hold n b hb)
      spaced := fun n a m b ha hb => h.spaced n a m b (hold n a ha) (hold m b hb)
      past := fun n a ha => h.past n a (hold n a ha)
      memory := fun n a t ha => h.stored n a t (hold n a ha)
      stored := fun n a t ha => h.stored n a t (hold n a ha)
      closed := fun n hn => h.closed n (by simpa [World.restart] using hn)
      recorded := fun d hd => by
        obtain ⟨r, hr, hrec⟩ := h.recorded d (by simpa [World.restart] using hd)
        exact ⟨r, hr, .tail _ hrec⟩
      filed := h.filed
      formed := fun t ht => ⟨(hload t ht).1, (hload t ht).2.1⟩
      backed := fun hheld => Option.isSome_iff_exists.mp hheld
      released := fun t ht hheld => by
        have hsome : (loadRestore cfg w.disk.restore).isSome = true := by
          rw [show loadRestore cfg w.disk.restore = some t from ht]
          rfl
        exact absurd (hheld.symm.trans hsome) (by simp)
      latched := fun t ht hdone => absurd hdone (hclosed t ht)
      unlatched := fun t _ _ hlatched => by
        rcases hlatched with hhere | ⟨hblocks, -⟩
        · exact absurd hhere (by simp)
        · exact hblocks rfl
      holds := fun t ht _ => ⟨t, ht, rfl⟩
      stale := fun hstale => by
        have hnone : (loadRestore cfg w.disk.restore).isNone = true :=
          ((Bool.and_eq_true _ _).mp hstale).2
        show (loadRestore cfg w.disk.restore).isSome = false
        rw [Option.isNone_iff_eq_none.mp hnone]
        rfl
      powered := fun d hd hopen => by
        -- the open attempt was held, so its journal is there to be loaded
        obtain ⟨t, ht, hattempt, hopen'⟩ := h.powered d (by simpa [World.restart] using hd)
          (fun hin => hopen (.tail _ hin))
        obtain ⟨t', hload', hattempt'⟩ := h.holds t ht hopen'
        exact ⟨t', hload', hattempt'.trans hattempt, (hload t' hload').2.2⟩
      cycling := fun _ hn => absurd hn (by simp [Process.cycling, World.restart])
      queued := fun _ _ hn => absurd hn (by simp [Process.queued, World.restart])
      bus := fun _ _ hn => absurd hn (by simp [World.restart])
      reading := fun _ _ _ hn => absurd hn (by simp [World.restart])
      safe := ⟨trivial, h.safe⟩ }

end

end

/-! ## Runs -/

theorem inv_act (h : Inv cfg w) (hclock : w.clock = env.wallLater) (hwall : env.wall ≤ env.wallLater)
    {action : Action} (hread : ∀ reply ∈ action.readReply, reply.IsNamed cfg)
    (hbus : ∀ id ∈ action.busId, id ≠ []) : Inv cfg (w.act cfg env action) := by
  cases action with
  | start => exact inv_start h env
  | tick => exact inv_tick h env
  | readReplied index reply => exact inv_readReplied h hclock hwall index (hread reply rfl)
  | probed index result => exact inv_probed h hclock hwall index result
  | delivered => exact inv_delivered h env
  | invalidate suspended => exact h.same (same_invalidate env suspended w)
  | stop => exact inv_stop h env
  | forgetPhone => exact inv_forgetPhone h env
  | propertiesChanged powered => exact inv_propertiesChanged h env.cleans powered
  | topologyChanged incarnation =>
    exact h.same { Same.refl w with }
  | work reply =>
    refine inv_work h hclock ?_
    rintro id rfl
    exact hbus id rfl
  | shutdown => exact inv_shutdown h env
  | finishShutdown => exact inv_finishShutdown h env
  | restart => exact inv_restart h env

theorem inv_step {input : Env × Action} (hlawful : Lawful cfg w input) (h : Inv cfg w) :
    Inv cfg (step cfg w input) := by
  obtain ⟨env, action⟩ := input
  obtain ⟨hclock, hwall, hread, hbus⟩ := hlawful
  have hlater : Same w { w with clock := env.wallLater } :=
    { Same.refl w with clock := le_trans hclock hwall }
  exact inv_act (h.same hlater) rfl hwall hread hbus

theorem inv_boot (env : Env) {disk : Disk} (hdisk : ∀ j, disk.restore = .journal j → j.attempt = 0) :
    Inv cfg (boot cfg env disk) := by
  have hempty : Inv cfg ⟨disk, { record := disk.record }, 1, env.wallLater, []⟩ :=
    { numbered := fun _ _ ha => absurd ha (by simp)
      once := fun _ _ _ ha => absurd ha (by simp)
      spaced := fun _ _ _ _ ha => absurd ha (by simp)
      past := fun _ _ ha => absurd ha (by simp)
      memory := fun _ _ _ ha => absurd ha (by simp)
      stored := fun _ _ _ ha => absurd ha (by simp)
      closed := fun _ hn => absurd hn (by simp)
      recorded := fun _ hd => absurd hd (by simp)
      filed := fun j hj => by
        have hzero := hdisk j hj
        show j.attempt < 1
        omega
      formed := fun _ ht => absurd ht (by simp)
      backed := fun hheld => absurd hheld (by simp)
      released := fun _ ht => absurd ht (by simp)
      latched := fun _ ht => absurd ht (by simp)
      unlatched := fun _ ht => absurd ht (by simp)
      holds := fun _ ht => absurd ht (by simp)
      stale := fun hstale => absurd hstale (by simp)
      powered := fun _ hd => absurd hd (by simp)
      cycling := fun _ hn => absurd hn (by simp [Process.cycling])
      queued := fun _ _ hn => absurd hn (by simp [Process.queued])
      bus := fun _ _ hn => absurd hn (by simp)
      reading := fun _ _ _ hn => absurd hn (by simp)
      safe := trivial }
  exact inv_restart hempty env

def sampleConfig : Config where
  path := "/org/bluez/hci0".toList
  device := "/org/bluez/hci0/dev_11_22_33_44_55_66".toList
  phone := "11:22:33:44:55:66".toList
  validBusName := fun name => name == ":1.5".toList

/-- The settings of a phone whose notifications have been verified. -/
def sampleDisk : Disk where
  record :=
    { adapter := some "AA:BB:CC:DD:EE:FF".toList
      phone := some "11:22:33:44:55:66".toList
      verified := true
      spent := some false }
  restore := .absent

/-- The controller with the phone as its only device. -/
def controller (powered : Bool) : ReadReply :=
  .objects ":1.5".toList
    { adapter := some
        { address := "AA:BB:CC:DD:EE:FF".toList
          powered
          powerState := if powered then .on else .off
          discovering := some false
          discoverable := some false }
      phone := some ⟨some true, some true, some true, none, none, none⟩
      others := [] }

section

variable (seconds : ℚ)

/-- Both clocks run evenly; the kernel's directory stays the same. -/
def envAt : Env where
  clock := seconds
  wall := 10000 + seconds
  wallLater := 10000 + seconds
  resetLe := some true
  stat := .found 21 7
  statAgain := .found 21 7

/-- A look at the controller while notifications stay away. -/
def outageAt : List (Env × Action) :=
  let env := { envAt seconds with observed := some ⟨false, none, true, false⟩ }
  [(env, .tick), (env, .readReplied 0 (controller true))]

/-- A look at the controller while notifications arrive. -/
def healthyAt : List (Env × Action) :=
  let env := { envAt seconds with observed := some ⟨true, some seconds, true, false⟩ }
  [(env, .tick), (env, .readReplied 0 (controller true))]

/-- Five minutes of outage with a soft reset, the probe, and the attempt on record. -/
def attemptFrom : List (Env × Action) :=
  let env := { envAt (seconds + 311) with observed := some ⟨false, none, true, false⟩ }
  [0, 90, 180, 270, 300].flatMap (fun s => outageAt (seconds + s))
    ++ [(env, .probed 0 (some (seconds + 310))), (env, .readReplied 0 (controller true))]

/-- The worker turns the controller off and on again. -/
def cycleAt (cleans : Write) : List (Env × Action) :=
  let env := { envAt seconds with cleans }
  [ .work .begin, .work (.busId (some "b1".toList)), .work (.read (controller true))
  , .work (.set true), .work (.busId (some "b1".toList)), .work (.read (controller false))
  , .work (.read (controller false)), .work (.set true), .delivered ].map (fun a => (env, a))

end

/-- The process is held up for an hour between the record of an attempt and its power-off. -/
def delayedRun : List (Env × Action) :=
  [(envAt 0, .start)] ++ attemptFrom 0 ++ cycleAt 3900 .done
    ++ [3910, 4000, 4090, 4180, 4270, 4360, 4450, 4510].flatMap healthyAt
    ++ attemptFrom 4520 ++ cycleAt 4832 .done

/-- The journal cannot be removed, the daemon is restarted, and the user has turned the controller
off. -/
def restartedRun : List (Env × Action) :=
  [(envAt 0, .start)] ++ attemptFrom 0 ++ cycleAt 312 .lost
    ++ [ (envAt 400, .restart), (envAt 401, .start), (envAt 401, .work .begin)
       , (envAt 402, .work (.busId (some "b1".toList))), (envAt 402, .work (.read (controller false)))
       , (envAt 402, .work (.read (controller false))) ]

/-- The times at which the controller was turned off, the latest first. -/
def powerOffTimes (log : List Entry) : List ℚ :=
  log.filterMap (fun e => match e with | .powerOff d => some d.time | _ => none)

end BlueFerry.Recovery
