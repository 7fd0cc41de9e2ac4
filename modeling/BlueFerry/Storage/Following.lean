import BlueFerry.Storage.Security

/-! # Following snapshots

Every operation that changes the policy or the key changes the revision (`Keeps`), so a snapshot that
follows its source no longer seals with `encrypt` once the source has another policy or key.

It still seals in two cases: `encrypt_bytes` does not look at the source at all, and a source that
holds no key can fail without a new revision. `Orderly` says that neither happens while the snapshot
can seal, and `snapshot_refuses` that then it seals nothing any more once its source has changed or
failed.
-/

namespace BlueFerry.Storage

open BlueFerry.Text
open Machine (Along)

/-! ## What an operation keeps -/

/-- The object follows what it followed, and its revision does not go back: it stays only where the
policy and the key do. -/
structure Keeps (s s' : Security) : Prop where
  followed : s'.followed = s.followed
  revision : s.revision ≤ s'.revision
  same : s'.revision = s.revision → s'.policy = s.policy ∧ s'.key = s.key

/-- Besides, the object does not fail. -/
structure Quiet (s s' : Security) : Prop extends Keeps s s' where
  generation : s'.failureGeneration = s.failureGeneration

theorem Keeps.refl (s : Security) : Keeps s s := ⟨rfl, Nat.le_refl _, fun _ => ⟨rfl, rfl⟩⟩

variable {s t : Security}

theorem Keeps.trans {u : Security} (h : Keeps s t) (h' : Keeps t u) : Keeps s u where
  followed := h'.followed.trans h.followed
  revision := Nat.le_trans h.revision h'.revision
  same := by
    intro heq
    have hle := h.revision
    have hle' := h'.revision
    obtain ⟨hpolicy, hkey⟩ := h.same (by omega)
    obtain ⟨hpolicy', hkey'⟩ := h'.same (by omega)
    exact ⟨hpolicy'.trans hpolicy, hkey'.trans hkey⟩

theorem Quiet.refl (s : Security) : Quiet s s := ⟨.refl s, rfl⟩

theorem Quiet.trans {u : Security} (h : Quiet s t) (h' : Quiet t u) : Quiet s u :=
  ⟨h.toKeeps.trans h'.toKeeps, h'.generation.trans h.generation⟩

/-- Nothing but fields that do not count is changed. -/
theorem Quiet.of_eq {s' : Security}
    (h : (s'.followed, s'.revision, s'.policy, s'.key, s'.failureGeneration) =
      (s.followed, s.revision, s.policy, s.key, s.failureGeneration)) : Quiet s s' := by
  simp only [Prod.mk.injEq] at h
  obtain ⟨hfollowed, hrevision, hpolicy, hkey, hgeneration⟩ := h
  exact ⟨⟨hfollowed, Nat.le_of_eq hrevision.symm, fun _ => ⟨hpolicy, hkey⟩⟩, hgeneration⟩

theorem quiet_withStatus (s : Security) (state : State) (detail : Str) :
    Quiet s (withStatus s state detail) := .of_eq rfl

theorem quiet_cancelPending (s : Security) : Quiet s (cancelPending s) := .of_eq rfl

/-- A key that is forgotten leaves a new revision. -/
theorem quiet_forgetKey (s : Security) : Quiet s (forgetKey s) := by
  cases hkey : s.key with
  | none => exact .of_eq (by simp [forgetKey, hkey])
  | some key =>
    have hrevision : (forgetKey s).revision = s.revision + 1 := by simp [forgetKey, hkey]
    refine ⟨⟨rfl, by omega, fun h => ?_⟩, rfl⟩
    omega

theorem revision_forgetKey (h : s.key ≠ none) : (forgetKey s).revision = s.revision + 1 := by
  rw [forgetKey, if_pos (Option.isSome_iff_ne_none.mpr h)]

section

variable (s : Security)

theorem quiet_lock (detail : Str) : Quiet s (lock s detail) :=
  (quiet_forgetKey s).trans (quiet_withStatus _ _ _)

theorem quiet_withPolicy (selected : Policy) : Quiet s (withPolicy s selected) := by
  by_cases hsame : s.policy = selected
  · exact .of_eq (by simp [withPolicy, hsame])
  have hrevision : (withPolicy s selected).revision = s.revision + 1 := if_neg hsame
  refine ⟨⟨rfl, by omega, fun h => ?_⟩, rfl⟩
  omega

theorem quiet_policyUnreadable : Quiet s (policyUnreadable s) := by
  have hstart : Quiet s { s with
      revision := if s.policyKnown then s.revision + 1 else s.revision
      policyKnown := false } := by
    refine ⟨⟨rfl, ?_, fun _ => ⟨rfl, rfl⟩⟩, rfl⟩
    split
    · exact Nat.le_succ _
    · exact Nat.le_refl _
  exact (hstart.trans (quiet_forgetKey _)).trans (quiet_withStatus _ _ _)

theorem quiet_loadPolicy (loaded : Loaded) : Quiet s (loadPolicy s loaded).1 := by
  cases loaded with
  | unreadable => exact quiet_policyUnreadable s
  | saved localData =>
    unfold loadPolicy
    dsimp only
    split <;> exact (quiet_withPolicy s _).trans (quiet_withStatus _ _ _)

theorem quiet_policyReadable (loaded : Loaded) : Quiet s (policyReadable s loaded).1 := by
  unfold policyReadable
  split
  · cases loaded with
    | unreadable => exact quiet_policyUnreadable s
    | saved localData => exact .refl s
  · exact quiet_loadPolicy s loaded

/-- Another key is a new revision. -/
theorem quiet_acceptKey (key : Key) (checked : Bool) : Quiet s (acceptKey s key checked) := by
  by_cases hsame : s.key = some key
  · have heq : acceptKey s key checked
        = withStatus { s with keyChecked := checked } .ready keptEncrypted := by
      rw [acceptKey, if_pos hsame]
    rw [heq]
    exact .of_eq rfl
  have hforgotten := (quiet_forgetKey s).revision
  have hrevision : (acceptKey s key checked).revision = (forgetKey s).revision + 1 := by
    rw [acceptKey, if_neg hsame]
    rfl
  refine ⟨⟨?_, by omega, fun h => ?_⟩, ?_⟩
  · rw [acceptKey, if_neg hsame]
    rfl
  · omega
  · rw [acceptKey, if_neg hsame]
    rfl

theorem quiet_refresh (loaded : Loaded) (answer : KeyAnswer) :
    Quiet s (refresh s loaded answer) := by
  have hknown : Quiet s (if s.policyKnown then (s, true) else loadPolicy s loaded).1 := by
    split
    · exact .refl s
    · exact quiet_loadPolicy s loaded
  unfold refresh
  dsimp only
  revert hknown
  generalize (if s.policyKnown = true then (s, true) else loadPolicy s loaded) = found
  intro hknown
  split
  · split
    · exact hknown
    · exact (hknown.trans (quiet_forgetKey _)).trans (quiet_withStatus _ _ _)
    cases answer with
    | error detail => exact hknown.trans (quiet_lock _ _)
    | ok answer => exact hknown.trans (quiet_acceptKey _ _ _)
  · exact hknown

theorem quiet_selectPolicy (value : Str) (loaded : Loaded) (saved : Bool) :
    Quiet s (selectPolicy s value loaded saved).1 := by
  unfold selectPolicy
  cases policyNamed (casefold (strip value)) with
  | none => exact .refl s
  | some selected =>
    have hreadable := quiet_policyReadable s loaded
    dsimp only
    split
    · have hselected := hreadable.trans (quiet_withPolicy (policyReadable s loaded).1 selected)
      cases selected with
      | noStorage => exact (hselected.trans (quiet_forgetKey _)).trans (quiet_withStatus _ _ _)
      | plaintext => exact (hselected.trans (quiet_forgetKey _)).trans (quiet_withStatus _ _ _)
      | encrypted =>
        dsimp only
        split
        · exact hselected
        · exact hselected.trans (quiet_lock _ _)
    · exact hreadable

theorem quiet_setPolicy (value : Str) (loaded : Loaded) (saved deleted : Bool)
    (answer : KeyAnswer) : Quiet s (setPolicy s value loaded saved deleted answer) := by
  have hselected := quiet_selectPolicy s value loaded saved
  unfold setPolicy
  split
  · next heq => rwa [heq] at hselected
  · next heq =>
    rw [heq] at hselected
    exact hselected.trans (.of_eq rfl)
  · next heq => rwa [heq] at hselected
  · next heq =>
    rw [heq] at hselected
    exact hselected.trans (quiet_refresh _ _ _)

theorem quiet_checkFile (policy : Option Str) (reset : Bool) (checking : Loaded) :
    Quiet s (checkFile s policy reset checking).1 := by
  unfold checkFile
  split
  · exact quiet_policyReadable s checking
  · exact .refl s

theorem quiet_choosePolicy (policy : Option Str) (selecting : Loaded) (saved : Bool) :
    Quiet s (choosePolicy s policy selecting saved).1 := by
  cases policy with
  | none => exact .refl s
  | some value => exact quiet_selectPolicy s value selecting saved

theorem quiet_resetKey (reset : Bool) : Quiet s (resetKey s reset) := by
  cases reset with
  | false => exact .refl s
  | true =>
    have hforgotten := (quiet_forgetKey s).revision
    have hrevision : (resetKey s true).revision = (forgetKey s).revision + 1 := rfl
    refine ⟨⟨rfl, by omega, fun h => ?_⟩, rfl⟩
    omega

theorem quiet_submitRequest (id : Nat) (policy : Option Str) (prompts prepares submitted : Bool) :
    Quiet s (submitRequest s id policy prompts prepares submitted) := by
  have hprepared : Quiet s (if (prepares && !decide (s.policy = .noStorage)) = true then
      withStatus s .locked preparingDetail else s) := by
    split
    · exact quiet_withStatus _ _ _
    · exact .refl s
  unfold submitRequest
  split
  · exact .refl s
  split
  · exact hprepared.trans (.of_eq rfl)
  · exact hprepared

theorem quiet_changeAsync (id : Nat) (policy : Option Str)
    (prompts prepares reset : Bool) (checking selecting : Loaded) (saved cleared submitted : Bool) :
    Quiet s (changeAsync s id policy prompts prepares reset checking selecting saved cleared
      submitted) := by
  have hchecked := quiet_checkFile s policy reset checking
  have hchosen := hchecked.trans
    (quiet_choosePolicy (checkFile s policy reset checking).1 policy selecting saved)
  have hreset := hchosen.trans (quiet_resetKey _ reset)
  unfold changeAsync
  dsimp only
  split
  · exact .refl s
  split
  · exact hchecked
  split
  · exact hchosen
  split
  · exact hreset
  · exact hreset.trans (quiet_submitRequest _ _ _ _ _ _)

end

/-! ## Failing -/

/-- The operation runs `_fail`. -/
def fails (s : Security) : Op → Bool
  | .activationFailed => true
  | .failClosed _ => true
  | .finish id (.failed failure) _ =>
    s.request.any fun request => decide (request.id = id) && request.preparing &&
      failure.lasting && decide (s.failureGeneration = request.generation)
  | _ => false

theorem keeps_fail (s : Security) (detail : Str) : Keeps s (fail s detail) := by
  have hstart : Keeps s { s with failureGeneration := s.failureGeneration + 1 } :=
    ⟨rfl, Nat.le_refl _, fun _ => ⟨rfl, rfl⟩⟩
  exact (hstart.trans (quiet_forgetKey _).toKeeps).trans (quiet_withStatus _ _ _).toKeeps

/-- A failure of an object that holds a key is a new revision. -/
theorem revision_fail (h : s.key ≠ none) (detail : Str) :
    (fail s detail).revision = s.revision + 1 :=
  revision_forgetKey (s := { s with failureGeneration := s.failureGeneration + 1 }) h

/-- A preparation that went wrong for good fails the storage. -/
theorem settle_lasting {request : Request} {failure : Failure}
    (hpreparing : request.preparing = true) (hlasting : failure.lasting = true)
    (hgeneration : s.failureGeneration = request.generation) (checked : Bool) :
    ∃ known detail, settle s request (.failed failure) checked
      = fail { s with keyChecked := known } detail := by
  unfold settle
  rw [if_neg (not_not.mpr hgeneration), hpreparing]
  cases failure with
  | unreadableSettings | unavailable | retryable => exact Bool.noConfusion hlasting
  | corrupt detail =>
    cases request.deleting with
    | false | true => exact ⟨checked, _, rfl⟩
  | damaged detail =>
    cases request.deleting with
    | false | true => exact ⟨s.keyChecked, damagedDatabaseDetail, rfl⟩
  | other detail =>
    cases request.deleting with
    | false | true => exact ⟨s.keyChecked, notPreparedDetail, rfl⟩

/-- Nothing else that a request ends with does. -/
theorem settle_cases (s : Security) (request : Request) (result : Result) (checked : Bool) :
    Quiet s (settle s request result checked) ∨
      ∃ failure, result = .failed failure ∧ request.preparing = true ∧ failure.lasting = true ∧
        s.failureGeneration = request.generation := by
  unfold settle
  by_cases hgeneration : s.failureGeneration ≠ request.generation
  · rw [if_pos hgeneration]
    exact .inl (.refl s)
  rw [if_neg hgeneration]
  have hsame : s.failureGeneration = request.generation := not_not.mp hgeneration
  cases result with
  | value key =>
    left
    dsimp only
    split
    · exact quiet_withStatus _ _ _
    split
    · exact (quiet_forgetKey s).trans (quiet_withStatus _ _ _)
    cases key with
    | none => exact quiet_lock s _
    | some key =>
      dsimp only
      split
      · exact quiet_acceptKey s key checked
      · exact quiet_lock s _
  | failed failure =>
    cases failure with
    | unreadableSettings => exact .inl (quiet_policyUnreadable s)
    | unavailable detail =>
      left
      cases request.deleting with
      | false => exact quiet_lock s detail
      | true => exact quiet_withStatus _ _ _
    | retryable detail =>
      left
      cases request.preparing with
      | true =>
        cases request.deleting with
        | false | true => exact quiet_lock s _
      | false =>
        cases request.deleting with
        | false => exact quiet_lock s detail
        | true => exact quiet_withStatus _ _ _
    | corrupt detail | damaged detail | other detail =>
      cases hpreparing : request.preparing with
      | true => exact .inr ⟨_, rfl, rfl, rfl, hsame⟩
      | false =>
        left
        cases request.deleting with
        | false => exact quiet_lock s detail
        | true => exact quiet_withStatus _ _ _

theorem finish_of_pending {id : Nat} {request : Request} (hrequest : s.request = some request)
    (hid : request.id = id) (result : Result) (checked : Bool) :
    finish s id result checked = settle (cancelPending s) request result checked := by
  rw [finish, hrequest]
  exact if_pos hid

/-- A request that is not pending changes nothing. -/
theorem finish_cases (s : Security) (id : Nat) (result : Result) (checked : Bool) :
    finish s id result checked = s ∨ ∃ request, s.request = some request ∧ request.id = id ∧
      finish s id result checked = settle (cancelPending s) request result checked := by
  cases hrequest : s.request with
  | none =>
    left
    rw [finish, hrequest]
  | some request =>
    by_cases hid : request.id = id
    · exact .inr ⟨request, rfl, hid, finish_of_pending hrequest hid result checked⟩
    left
    rw [finish, hrequest]
    exact if_neg hid

theorem keeps_finish (s : Security) (id : Nat) (result : Result) (checked : Bool) :
    Keeps s (finish s id result checked) := by
  rcases finish_cases s id result checked with heq | ⟨request, -, -, heq⟩
  · rw [heq]
    exact .refl s
  rw [heq]
  refine (quiet_cancelPending s).toKeeps.trans ?_
  rcases settle_cases (cancelPending s) request result checked with
    hquiet | ⟨failure, rfl, hpreparing, hlasting, hgeneration⟩
  · exact hquiet.toKeeps
  obtain ⟨known, detail, hfail⟩ := settle_lasting hpreparing hlasting hgeneration checked
  have hknown : Keeps (cancelPending s) { cancelPending s with keyChecked := known } :=
    ⟨rfl, Nat.le_refl _, fun _ => ⟨rfl, rfl⟩⟩
  rw [hfail]
  exact hknown.trans (keeps_fail _ _)

/-- **Every operation keeps the revision in step with the policy and the key.** -/
theorem keeps_apply (s : Security) (op : Op) : Keeps s (apply s op) := by
  cases op with
  | refresh loaded answer => exact (quiet_refresh s loaded answer).toKeeps
  | setPolicy value loaded saved deleted answer =>
    exact (quiet_setPolicy s value loaded saved deleted answer).toKeeps
  | requireKnownPolicy loaded => exact (quiet_policyReadable s loaded).toKeeps
  | requirePreparation =>
    show Keeps s (if s.policy = .noStorage then s else _)
    split
    · exact .refl s
    · exact ((quiet_forgetKey s).trans (quiet_withStatus _ _ _)).toKeeps
  | changeAsync id policy prompts prepares reset checking selecting saved cleared submitted =>
    exact (quiet_changeAsync s id policy prompts prepares reset checking selecting saved cleared
      submitted).toKeeps
  | beginPreparing id =>
    unfold apply
    dsimp only
    split
    · exact .refl s
    split
    · exact ⟨rfl, Nat.le_refl _, fun _ => ⟨rfl, rfl⟩⟩
    · exact .refl s
  | finish id result checked => exact keeps_finish s id result checked
  | timedOut id =>
    unfold apply
    dsimp only
    split
    · exact .refl s
    split
    · exact .refl s
    · exact keeps_finish s id _ _
  | cancelPending => exact (quiet_cancelPending s).toKeeps
  | cancelPassiveRequest =>
    unfold apply
    dsimp only
    split
    · exact .refl s
    split
    · exact (quiet_cancelPending s).toKeeps
    · exact .refl s
  | activationFailed | failClosed detail => exact keeps_fail s _
  | close => exact ((quiet_cancelPending s).trans (quiet_forgetKey _)).toKeeps

/-- An operation that does not fail leaves the failures as they are. -/
theorem generation_apply {op : Op} (h : fails s op = false) :
    (apply s op).failureGeneration = s.failureGeneration := by
  have hfinish : ∀ id result checked, fails s (.finish id result checked) = false →
      (finish s id result checked).failureGeneration = s.failureGeneration := by
    intro id result checked hquiet
    rcases finish_cases s id result checked with heq | ⟨request, hrequest, hid, heq⟩
    · rw [heq]
    rw [heq]
    rcases settle_cases (cancelPending s) request result checked with
      hsettled | ⟨failure, rfl, hpreparing, hlasting, hgeneration⟩
    · exact hsettled.generation
    have hsame : s.failureGeneration = request.generation := hgeneration
    simp [fails, hrequest, hid, hpreparing, hlasting, hsame] at hquiet
  cases op with
  | refresh loaded answer => exact (quiet_refresh s loaded answer).generation
  | setPolicy value loaded saved deleted answer =>
    exact (quiet_setPolicy s value loaded saved deleted answer).generation
  | requireKnownPolicy loaded => exact (quiet_policyReadable s loaded).generation
  | requirePreparation =>
    show (if s.policy = .noStorage then s else _).failureGeneration = _
    split
    · rfl
    · exact (quiet_forgetKey s).generation
  | changeAsync id policy prompts prepares reset checking selecting saved cleared submitted =>
    exact (quiet_changeAsync s id policy prompts prepares reset checking selecting saved cleared
      submitted).generation
  | finish id result checked => exact hfinish id result checked h
  | timedOut id =>
    unfold apply
    dsimp only
    split
    · rfl
    split
    · rfl
    refine hfinish id _ _ ?_
    simp [fails, Failure.lasting]
  | cancelPending => rfl
  | beginPreparing id | cancelPassiveRequest =>
    unfold apply
    dsimp only
    split
    · rfl
    · split <;> rfl
  | activationFailed | failClosed detail => exact Bool.noConfusion h
  | close => exact (quiet_forgetKey (cancelPending s)).generation

/-- What fails runs `_fail`, on an object that has its key and its counters as before. -/
theorem fail_of_fails {op : Op} (h : fails s op = true) :
    ∃ t detail, apply s op = fail t detail ∧ t.key = s.key ∧ t.revision = s.revision ∧
      t.failureGeneration = s.failureGeneration := by
  cases op with
  | activationFailed => exact ⟨s, _, rfl, rfl, rfl, rfl⟩
  | failClosed detail => exact ⟨s, _, rfl, rfl, rfl, rfl⟩
  | finish id result checked =>
    cases result with
    | value key => exact Bool.noConfusion h
    | failed failure =>
      cases hrequest : s.request with
      | none =>
        rw [fails, hrequest] at h
        exact Bool.noConfusion h
      | some request =>
        rw [fails, hrequest, Option.any_some] at h
        simp only [Bool.and_eq_true, decide_eq_true_eq] at h
        obtain ⟨⟨⟨hid, hpreparing⟩, hlasting⟩, hgeneration⟩ := h
        have hpending : (cancelPending s).failureGeneration = request.generation := hgeneration
        obtain ⟨known, detail, hfail⟩ := settle_lasting hpreparing hlasting hpending checked
        refine ⟨{ cancelPending s with keyChecked := known }, detail, ?_, rfl, rfl, rfl⟩
        exact (finish_of_pending hrequest hid _ checked).trans hfail
  | refresh | setPolicy | requireKnownPolicy | requirePreparation | changeAsync | beginPreparing
  | timedOut | cancelPending | cancelPassiveRequest | close => exact Bool.noConfusion h

/-- An operation that fails with a key held is a new revision. -/
theorem revision_apply {op : Op} (h : fails s op = true) (hkey : s.key ≠ none) :
    (apply s op).revision = s.revision + 1 := by
  obtain ⟨t, detail, heq, hsame, hrevision, -⟩ := fail_of_fails h
  rw [heq, revision_fail (hsame.symm ▸ hkey) detail, hrevision]

/-- One that fails without a key is not. -/
theorem revision_apply_keyless {op : Op} (h : fails s op = true) (hkey : s.key = none) :
    (apply s op).revision = s.revision := by
  obtain ⟨t, detail, heq, hsame, hrevision, -⟩ := fail_of_fails h
  rw [heq, ← hrevision]
  show (forgetKey { t with failureGeneration := t.failureGeneration + 1 }).revision = _
  rw [forgetKey, hsame, hkey]
  rfl

/-- A failure is counted, so an object that once failed is told from one that never did. -/
theorem generation_lt {op : Op} (h : fails s op = true) :
    s.failureGeneration < (apply s op).failureGeneration := by
  obtain ⟨t, detail, heq, -, -, hgeneration⟩ := fail_of_fails h
  rw [heq, ← hgeneration]
  exact Nat.lt_succ_self _

/-! ## Sealing -/

/-- The object seals when it is asked to, whatever it follows. -/
def Security.canSeal (s : Security) : Bool :=
  s.canWrite && (decide (s.policy = .plaintext) || s.key.isSome)

theorem sealText_of_not_canSeal {α : Type} (h : s.canSeal = false) (text : α) (purpose : Str) :
    ∃ e, s.sealText text purpose = .error e := by
  unfold Security.sealText
  cases hwrite : s.canWrite with
  | false => exact ⟨_, rfl⟩
  | true =>
    rw [Security.canSeal, hwrite, Bool.true_and, Bool.or_eq_false_iff, decide_eq_false_iff_not] at h
    obtain ⟨hpolicy, hkey⟩ := h
    rw [Option.isSome_eq_false_iff, Option.isNone_iff_eq_none] at hkey
    rw [hkey]
    cases hp : s.policy with
    | plaintext => exact absurd hp hpolicy
    | encrypted | noStorage => exact ⟨_, rfl⟩

theorem sealText_of_canSeal {α : Type} (h : s.canSeal = true) (text : α) (purpose : Str) :
    ∃ out, s.sealText text purpose = .ok out := by
  rw [Security.canSeal, Bool.and_eq_true, Bool.or_eq_true, decide_eq_true_eq] at h
  obtain ⟨hwrite, hopen⟩ := h
  rw [Security.sealText, if_pos hwrite]
  cases hp : s.policy with
  | plaintext => exact ⟨_, rfl⟩
  | encrypted | noStorage =>
    rcases hopen with hplain | hkey
    · rw [hp] at hplain
      nomatch hplain
    obtain ⟨key, hkey⟩ := Option.isSome_iff_exists.mp hkey
    rw [hkey]
    exact ⟨_, rfl⟩

/-- What a background writer does with its snapshot besides sealing. -/
def Op.ofWriter : Op → Bool
  | .failClosed _ => true
  | .close => true
  | _ => false

/-- A writer's snapshot that cannot seal never can again. -/
theorem canSeal_apply {op : Op} (hop : op.ofWriter = true) (h : s.canSeal = false) :
    (apply s op).canSeal = false := by
  cases op with
  | failClosed detail => exact Bool.and_eq_false_iff.mpr (Or.inl (decide_eq_false fun hw => nomatch hw.2))
  | close =>
    have hwrite : (forgetKey (cancelPending s)).canWrite = s.canWrite := rfl
    have hpolicy : (forgetKey (cancelPending s)).policy = s.policy := rfl
    have hkey : (forgetKey (cancelPending s)).key = none := rfl
    show (forgetKey (cancelPending s)).canSeal = false
    rw [Security.canSeal, hwrite, hpolicy, hkey]
    rw [Security.canSeal, Bool.and_eq_false_iff, Bool.or_eq_false_iff] at h
    rcases h with h | ⟨h, -⟩
    · rw [h, Bool.false_and]
    rw [h]
    simp
  | refresh | setPolicy | requireKnownPolicy | requirePreparation | changeAsync | beginPreparing
  | finish | activationFailed | timedOut | cancelPending | cancelPassiveRequest =>
    exact Bool.noConfusion hop

/-! ## A snapshot and its source -/

section Superseded

variable (source x revision generation : Nat)

/-- The source has another revision, or has failed, since the snapshot was taken. -/
def Superseded (w : World) : Prop :=
  ∃ s, w[source]? = some s ∧ (s.revision ≠ revision ∨ s.failureGeneration ≠ generation)

/-- The object at `x` cannot seal by itself. -/
def Closed (w : World) : Prop := ∀ t, w[x]? = some t → t.canSeal = false

/-- While the snapshot at `x` can seal by itself, its source does not fail without a key at the
revision that the snapshot was taken at, and `encrypt_bytes` is not called on it once the source has
another revision. Nor does an operation that is no writer's let it seal again once the source has
failed so. -/
def Orderly (w : World) : Step → Prop
  | .call i op =>
    (i = source → ∀ s, w[source]? = some s → fails s op = true →
      s.key ≠ none ∨ s.revision ≠ revision ∨ Closed x w) ∧
    (i = x → op.ofWriter = false → ∀ s t, w[source]? = some s → w[x]? = some t →
      s.revision ≠ revision ∨ s.failureGeneration = generation ∨ (apply t op).canSeal = false)
  | .encryptBytes i _ _ =>
    i = x → ∀ s, w[source]? = some s → s.revision = revision ∨ Closed x w
  | .encrypt _ _ _ => True
  | .snapshot _ _ => True

/-- The step seals nothing with the snapshot at `x` if that is superseded. -/
def Refused (w : World) : Step → Prop
  | .encrypt i text purpose =>
    i = x → Superseded source revision generation w → ∃ e, w.encrypt i text purpose = .error e
  | .encryptBytes i data purpose =>
    i = x → Superseded source revision generation w → ∃ e, w.encryptBytes i data purpose = .error e
  | .call _ _ => True
  | .snapshot _ _ => True

/-- The object at `x` follows the source, whose revision has not gone back; if that is still the same
although the source has failed, the snapshot cannot seal. -/
structure Follows (w : World) : Prop where
  source_at : ∃ s, w[source]? = some s ∧ revision ≤ s.revision ∧
    (s.revision = revision → s.failureGeneration = generation ∨ Closed x w)
  snapshot_at : ∃ t, w[x]? = some t ∧ t.followed = some (source, revision)

variable {source x revision generation : Nat} {w : World}

theorem Closed.of_eq {w' : World} (h : Closed x w) (heq : w'[x]? = w[x]?) : Closed x w' := by
  intro t ht
  exact h t (heq ▸ ht)

section

variable (h : Follows source x revision generation w)
include h

/-- An operation on the source keeps the snapshot behind it. -/
theorem Follows.call_source (hne : x ≠ source) {op : Op}
    (hok : Orderly source x revision generation w (.call source op)) :
    Follows source x revision generation (w.modify source fun s => apply s op) := by
  obtain ⟨⟨s, hs, hle, hfailed⟩, ⟨t, ht, hfollowed⟩⟩ := h
  have hsource : (w.modify source fun s => apply s op)[source]? = some (apply s op) := by
    rw [List.getElem?_modify_eq, hs]
    rfl
  have hother : (w.modify source fun s => apply s op)[x]? = w[x]? :=
    List.getElem?_modify_ne _ _ hne.symm
  have hkept := keeps_apply s op
  refine ⟨⟨_, hsource, Nat.le_trans hle hkept.revision, fun hrevision => ?_⟩, ⟨t, hother.trans ht, hfollowed⟩⟩
  -- the revision was the same before, since it never goes back
  have hbefore : s.revision = revision := by
    have := hkept.revision
    omega
  have hclosed : Closed x w → Closed x (w.modify source fun s => apply s op) :=
    fun hclosed => hclosed.of_eq hother
  cases hfails : fails s op with
  | false =>
    rw [generation_apply hfails]
    exact (hfailed hbefore).imp_right hclosed
  | true =>
    rcases hok.1 rfl s hs hfails with hkey | hrevised | hshut
    · have hnext := revision_apply hfails hkey
      omega
    · exact absurd hbefore hrevised
    · exact .inr (hclosed hshut)

/-- So does one on the snapshot itself. -/
theorem Follows.call_snapshot (hne : x ≠ source) {op : Op}
    (hok : Orderly source x revision generation w (.call x op)) :
    Follows source x revision generation (w.modify x fun s => apply s op) := by
  obtain ⟨⟨s, hs, hle, hfailed⟩, ⟨t, ht, hfollowed⟩⟩ := h
  have hsource : (w.modify x fun s => apply s op)[source]? = w[source]? :=
    List.getElem?_modify_ne _ _ hne
  have hself : (w.modify x fun s => apply s op)[x]? = some (apply t op) := by
    rw [List.getElem?_modify_eq, ht]
    rfl
  refine ⟨⟨s, hsource.trans hs, hle, fun hrevision => ?_⟩,
    ⟨_, hself, (keeps_apply t op).followed.trans hfollowed⟩⟩
  rcases hfailed hrevision with hsame | hshut
  · exact .inl hsame
  have hclosed : (apply t op).canSeal = false → Closed x (w.modify x fun s => apply s op) := by
    intro hshut u hu
    obtain rfl : apply t op = u := Option.some.inj (hself.symm.trans hu)
    exact hshut
  cases hop : op.ofWriter with
  | true => exact .inr (hclosed (canSeal_apply hop (hshut t ht)))
  | false =>
    rcases hok.2 rfl hop s t hs ht with hrevised | hsame | hstill
    · exact absurd hrevision hrevised
    · exact .inl hsame
    · exact .inr (hclosed hstill)

/-- **Every orderly step leaves the snapshot behind its source.** -/
theorem Follows.step (hne : x ≠ source) {step : Step}
    (hok : Orderly source x revision generation w step) :
    Follows source x revision generation (w.step step) := by
  cases step with
  | encrypt i text purpose => exact h
  | encryptBytes i data purpose => exact h
  | snapshot i follow =>
    obtain ⟨⟨s, hs, hle, hfailed⟩, ⟨t, ht, hfollowed⟩⟩ := h
    have hkept : ∀ {j : Nat} {u : Security}, w[j]? = some u →
        (w.step (.snapshot i follow))[j]? = w[j]? := by
      intro j u hu
      obtain ⟨hlt, -⟩ := List.getElem?_eq_some_iff.mp hu
      exact List.getElem?_append_left hlt
    exact ⟨⟨s, (hkept hs).trans hs, hle, fun hr => (hfailed hr).imp_right fun hc => hc.of_eq (hkept ht)⟩,
      ⟨t, (hkept ht).trans ht, hfollowed⟩⟩
  | call i op =>
    by_cases hsource : i = source
    · subst hsource
      exact h.call_source hne hok
    by_cases hx : i = x
    · subst hx
      exact h.call_snapshot hne hok
    obtain ⟨⟨s, hs, hle, hfailed⟩, ⟨t, ht, hfollowed⟩⟩ := h
    have hs' : (w.step (.call i op))[source]? = w[source]? := List.getElem?_modify_ne _ _ hsource
    have ht' : (w.step (.call i op))[x]? = w[x]? := List.getElem?_modify_ne _ _ hx
    exact ⟨⟨s, hs'.trans hs, hle, fun hr => (hfailed hr).imp_right fun hc => hc.of_eq ht'⟩,
      ⟨t, ht'.trans ht, hfollowed⟩⟩

/-- A superseded snapshot whose source still has its revision cannot seal. -/
theorem Follows.closed (hsuperseded : Superseded source revision generation w)
    (hs : w[source]? = some s) (hrevision : s.revision = revision) : Closed x w := by
  obtain ⟨s', hs', -, hfailed⟩ := h.source_at
  obtain rfl : s = s' := Option.some.inj (hs.symm.trans hs')
  obtain ⟨s'', hs'', hchanged⟩ := hsuperseded
  obtain rfl : s = s'' := Option.some.inj (hs.symm.trans hs'')
  rcases hfailed hrevision with hsame | hclosed
  · rcases hchanged with hrevised | hfailure
    · exact absurd hrevision hrevised
    · exact absurd hsame hfailure
  · exact hclosed

/-- **A superseded snapshot seals nothing at an orderly step.** -/
theorem Follows.refused {step : Step} (hok : Orderly source x revision generation w step) :
    Refused source x revision generation w step := by
  obtain ⟨t, ht, hfollowed⟩ := h.snapshot_at
  obtain ⟨s, hs, -, -⟩ := h.source_at
  cases step with
  | call i op => trivial
  | snapshot i follow => trivial
  | encrypt i text purpose =>
    rintro rfl hsuperseded
    have hcurrent : w.current t = decide (s.revision = revision) := by
      rw [World.current, hfollowed]
      dsimp only
      rw [hs, Option.all_some]
    by_cases hrevision : s.revision = revision
    · rw [decide_eq_true hrevision] at hcurrent
      obtain ⟨e, he⟩ := sealText_of_not_canSeal (h.closed hsuperseded hs hrevision t ht) text purpose
      refine ⟨e, ?_⟩
      rw [World.encrypt, ht]
      exact (if_pos hcurrent).trans he
    rw [decide_eq_false hrevision] at hcurrent
    refine ⟨.superseded, ?_⟩
    rw [World.encrypt, ht]
    exact if_neg (Bool.eq_false_iff.mp hcurrent)
  | encryptBytes i data purpose =>
    rintro rfl hsuperseded
    have hclosed : Closed i w := by
      rcases hok rfl s hs with hrevision | hclosed
      · exact h.closed hsuperseded hs hrevision
      · exact hclosed
    obtain ⟨e, he⟩ := sealText_of_not_canSeal (hclosed t ht) data purpose
    refine ⟨e, ?_⟩
    rw [World.encryptBytes, ht]
    exact he

end

/-! Every step that is not orderly reaches the defect. -/

theorem encrypt_of_current (hs : w[source]? = some s) (ht : w[x]? = some t)
    (hfollowed : t.followed = some (source, revision)) (hrevision : s.revision = revision)
    (hopen : t.canSeal = true) (text purpose : Str) :
    ∃ out, w.encrypt x text purpose = .ok out := by
  have hcurrent : w.current t = true := by
    rw [World.current, hfollowed]
    dsimp only
    rw [hs, Option.all_some]
    exact decide_eq_true hrevision
  obtain ⟨out, hout⟩ := sealText_of_canSeal hopen text purpose
  refine ⟨out, ?_⟩
  rw [World.encrypt, ht]
  exact (if_pos hcurrent).trans hout

theorem canSeal_of_open (ht : w[x]? = some t) (hopen : ¬Closed x w) : t.canSeal = true := by
  by_contra hcannot
  refine hopen fun u hu => ?_
  obtain rfl : t = u := Option.some.inj (ht.symm.trans hu)
  exact Bool.eq_false_iff.mpr hcannot

/-- After an operation that is not orderly the superseded snapshot seals with `encrypt`. -/
theorem Follows.seals_of_call (h : Follows source x revision generation w) (hne : x ≠ source) {i : Nat}
    {op : Op} (hnot : ¬Orderly source x revision generation w (.call i op)) (text purpose : Str) :
    Superseded source revision generation (w.step (.call i op)) ∧
      ∃ out, (w.step (.call i op)).encrypt x text purpose = .ok out := by
  obtain ⟨⟨s, hs, hle, hfailed⟩, ⟨t, ht, hfollowed⟩⟩ := h
  rw [Orderly, not_and_or] at hnot
  rcases hnot with hsource | hself
  · push Not at hsource
    obtain ⟨rfl, s', hs', hfails, hkey, hrevision, hopen⟩ := hsource
    obtain rfl : s = s' := Option.some.inj (hs.symm.trans hs')
    have hsame : s.failureGeneration = generation := (hfailed hrevision).resolve_right hopen
    have hafter : (w.step (.call i op))[i]? = some (apply s op) := by
      rw [World.step, List.getElem?_modify_eq, hs]
      rfl
    have hother : (w.step (.call i op))[x]? = some t :=
      (List.getElem?_modify_ne _ _ hne.symm).trans ht
    exact ⟨⟨_, hafter, .inr (hsame ▸ generation_lt hfails).ne'⟩,
      encrypt_of_current hafter hother hfollowed
        ((revision_apply_keyless hfails hkey).trans hrevision) (canSeal_of_open ht hopen) text purpose⟩
  · push Not at hself
    obtain ⟨rfl, -, s', t', hs', ht', hrevision, hgeneration, hopen⟩ := hself
    obtain rfl : s = s' := Option.some.inj (hs.symm.trans hs')
    obtain rfl : t = t' := Option.some.inj (ht.symm.trans ht')
    have hafter : (w.step (.call i op))[i]? = some (apply t op) := by
      rw [World.step, List.getElem?_modify_eq, ht]
      rfl
    have hother : (w.step (.call i op))[source]? = some s :=
      (List.getElem?_modify_ne _ _ hne).trans hs
    exact ⟨⟨s, hother, .inr hgeneration⟩,
      encrypt_of_current hother hafter ((keeps_apply t op).followed.trans hfollowed) hrevision
        (Bool.eq_true_of_not_eq_false hopen) text purpose⟩

/-- A call of `encrypt_bytes` that is not orderly seals with the superseded snapshot. -/
theorem Follows.seals_of_bytes (h : Follows source x revision generation w) {i : Nat}
    {data : List UInt8} {purpose : Str}
    (hnot : ¬Orderly source x revision generation w (.encryptBytes i data purpose)) :
    Superseded source revision generation w ∧ ∃ out, w.encryptBytes x data purpose = .ok out := by
  obtain ⟨t, ht, -⟩ := h.snapshot_at
  rw [Orderly] at hnot
  push Not at hnot
  obtain ⟨-, s, hs, hrevision, hopen⟩ := hnot
  obtain ⟨out, hout⟩ := sealText_of_canSeal (canSeal_of_open ht hopen) data purpose
  refine ⟨⟨s, hs, .inl hrevision⟩, out, ?_⟩
  rw [World.encryptBytes, ht]
  exact hout

end Superseded

/-- A snapshot starts out behind its source. -/
theorem follows_snapshot {w : World} {source : Nat} (hs : w[source]? = some s) :
    Follows source w.length s.revision s.failureGeneration (w.step (.snapshot source true)) := by
  obtain ⟨hlt, -⟩ := List.getElem?_eq_some_iff.mp hs
  have hstep : w.step (.snapshot source true) = w ++ [snapshotOf s source true] := by
    rw [World.step, hs]
    rfl
  rw [hstep]
  constructor
  · exact ⟨s, (List.getElem?_append_left hlt).trans hs, Nat.le_refl _, fun _ => .inl rfl⟩
  · refine ⟨snapshotOf s source true, ?_, rfl⟩
    rw [List.getElem?_append_right (Nat.le_refl _), Nat.sub_self]
    rfl

/-- **A following snapshot stops sealing.** Along every orderly run, neither `encrypt` nor
`encrypt_bytes` on it returns anything once its source has another revision or has failed. -/
theorem snapshot_refuses (w : World) (source : Nat) (s : Security) (hs : w[source]? = some s)
    (steps : List Step)
    (horderly : Along World.step (Orderly source w.length s.revision s.failureGeneration)
      (w.step (.snapshot source true)) steps) :
    Along World.step (Refused source w.length s.revision s.failureGeneration)
      (w.step (.snapshot source true)) steps := by
  obtain ⟨hlt, -⟩ := List.getElem?_eq_some_iff.mp hs
  have hne : w.length ≠ source := by omega
  exact Along.meets World.step
    (fun _ _ hok hfollows => ⟨hfollows.refused hok, hfollows.step hne hok⟩) horderly (follows_snapshot hs)

/-- An unlocked object, and one that retains plain text. -/
def unlocked : Security :=
  { policyKnown := true
    key := some (List.replicate keyBytes 7)
    keyChecked := true
    state := .ready
    detail := keptEncrypted }

def retainingPlain : Security :=
  { policy := .plaintext
    policyKnown := true
    state := .ready
    detail := keptPlain }

/-- The object and a snapshot that follows it. -/
def withSnapshot (s : Security) : World := World.step [s] (.snapshot 0 true)

theorem snapshot_refuses_closed :
    ∃ e, ((withSnapshot unlocked).step (.call 0 .close)).encrypt 1
      "card".toList "contacts".toList = .error e := by
  have hrefused := snapshot_refuses [unlocked] 0 unlocked rfl
    [.call 0 .close, .encrypt 1 "card".toList "contacts".toList]
    ⟨⟨fun _ _ _ hfails => Bool.noConfusion hfails, fun h => absurd h (by decide)⟩, trivial, trivial⟩
  exact hrefused.2.1 rfl ⟨_, rfl, .inl (by decide)⟩

/-- A source that retains plain text fails, and `encrypt` on the snapshot still returns it; the
source forgets its key, and `encrypt_bytes` on the snapshot still seals with it. -/
theorem snapshot_still_seals :
    ¬ Along World.step (Refused 0 1 0 0) (withSnapshot retainingPlain)
        [.call 0 (.failClosed []), .encrypt 1 "card".toList "contacts".toList] ∧
      ¬ Along World.step (Refused 0 1 0 0) (withSnapshot unlocked)
        [.call 0 .close, .encryptBytes 1 [1, 2] "photos".toList] := by
  constructor
  · intro h
    obtain ⟨e, he⟩ := h.2.1 rfl ⟨_, rfl, .inr (by decide)⟩
    have hplain : ((withSnapshot retainingPlain).step (.call 0 (.failClosed []))).encrypt 1
        "card".toList "contacts".toList = .ok (.plain "card".toList) := rfl
    rw [hplain] at he
    nomatch he
  intro h
  obtain ⟨e, he⟩ := h.2.1 rfl ⟨_, rfl, .inl (by decide)⟩
  have hsealed : ((withSnapshot unlocked).step (.call 0 .close)).encryptBytes 1
      [1, 2] "photos".toList = .ok (.sealed (List.replicate keyBytes 7) "photos".toList [1, 2]) := rfl
  rw [hsealed] at he
  nomatch he

/-! ## What a following snapshot seals for -/

/-- No step takes an object away, or its revision back. -/
theorem keeps_step {w : World} {i : Nat} (h : w[i]? = some s) (step : Step) :
    ∃ s', (w.step step)[i]? = some s' ∧ Keeps s s' := by
  cases step with
  | call j op =>
    rw [World.step, List.getElem?_modify, h]
    by_cases hj : j = i
    · exact ⟨apply s op, by simp [hj], keeps_apply s op⟩
    · exact ⟨s, by simp [hj], .refl s⟩
  | snapshot j follow =>
    obtain ⟨hlt, -⟩ := List.getElem?_eq_some_iff.mp h
    exact ⟨s, (List.getElem?_append_left hlt).trans h, .refl s⟩
  | encrypt | encryptBytes => exact ⟨s, h, .refl s⟩

theorem keeps_run {w : World} {i : Nat} (h : w[i]? = some s) (steps : List Step) :
    ∃ s', (Machine.run World.step w steps)[i]? = some s' ∧ Keeps s s' := by
  refine Machine.always (P := fun v : World => ∃ s', v[i]? = some s' ∧ Keeps s s') World.step ?_ steps
    ⟨s, h, .refl s⟩
  rintro v step ⟨s', hs', hkept⟩
  obtain ⟨s'', hs'', hnext⟩ := keeps_step hs' step
  exact ⟨s'', hs'', hkept.trans hnext⟩

end BlueFerry.Storage
