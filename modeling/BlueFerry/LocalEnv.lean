import BlueFerry.Lib.Dict
import BlueFerry.Text.CaseMapping
import BlueFerry.Text.Cuts

/-! # The private configuration file

`local.env` is read line by line into a dictionary, and three writers put a changed dictionary back
without the quotes: pairing, forgetting the phone and the migration of a profile id. A value that is
read survives being written and read again exactly when its own reading leaves it alone
(`get?_readLines_writeValues`), and a file that cannot be read counts as an empty one, so its
preferences are gone after the write (`keeps_iff_spared`).
-/

namespace BlueFerry.LocalEnv

open BlueFerry.Text

/-! ## Reading -/

def maxConfigFileBytes : Nat := 64 * 1024

def macKey : Str := "BLUEFERRY_MAC".toList

def profileIdKey : Str := "BLUEFERRY_PROFILE_ID".toList

def adapterKey : Str := "BLUEFERRY_ADAPTER".toList

def ancsEnabledKey : Str := "BLUEFERRY_ANCS_ENABLED".toList

/-- `LOCAL_ENV_KEYS`, in the order of the alphabet. -/
def localEnvKeys : List Str :=
  [ "BLUEFERRY_ADAPTER", "BLUEFERRY_ANCS_ACTIONS", "BLUEFERRY_ANCS_ACTION_TIMEOUT_MS",
    "BLUEFERRY_ANCS_APP_ALLOWLIST", "BLUEFERRY_ANCS_APP_BLOCKLIST", "BLUEFERRY_ANCS_ENABLED",
    "BLUEFERRY_AUTO_PROFILE_RESET", "BLUEFERRY_CALLS_ENABLED", "BLUEFERRY_CALL_HISTORY_ENABLED",
    "BLUEFERRY_CALL_HISTORY_INTERVAL_SEC", "BLUEFERRY_CONTACT_PHOTOS",
    "BLUEFERRY_HISTORY_MAX_EVENTS", "BLUEFERRY_HISTORY_MAX_PAYLOAD_BYTES",
    "BLUEFERRY_HISTORY_RETENTION_DAYS", "BLUEFERRY_KEEP_PHONE_AUDIO_ON_PHONE", "BLUEFERRY_MAC",
    "BLUEFERRY_MARK_READ_ON_DISMISS", "BLUEFERRY_MEDIA_CONTROL_ENABLED",
    "BLUEFERRY_MEDIA_MPRIS_ENABLED", "BLUEFERRY_MISSED_CALL_NOTIFICATIONS",
    "BLUEFERRY_NOTIFICATION_HISTORY", "BLUEFERRY_NOTIFICATION_TIMEOUT_MS",
    "BLUEFERRY_OTP_AUTOCOPY", "BLUEFERRY_OTP_CLEAR_SECONDS", "BLUEFERRY_PHONE_BATTERY_LOW_PERCENT",
    "BLUEFERRY_PHONE_BATTERY_NOTIFY", "BLUEFERRY_PHONE_REGION", "BLUEFERRY_PROFILE_ID",
    "BLUEFERRY_PROXIMITY_LOCK", "BLUEFERRY_PROXIMITY_LOCK_GRACE_SEC",
    "BLUEFERRY_SHOW_NOTIFICATION_CONTENT", "BLUEFERRY_TETHER_AUTOCONNECT",
    "BLUEFERRY_TETHER_BACKEND", "BLUEFERRY_TETHER_ENABLED" ].map String.toList

/-- What is at the path of the file. A file is `unreadable` when it is no regular file of the user's
own, or when its bytes are not UTF-8. -/
inductive File
  | missing
  | text (content : Str)
  | unreadable

/-- `read_private_text`, where it raises no error. -/
def readPrivateText (maximumBytes : Nat) : File → Option Str
  | .text content => if utf8Size content ≤ maximumBytes then some content else none
  | _ => none

/-- `value.strip().strip('"').strip("'")` -/
def readValue (value : Str) : Str :=
  stripOf (· == Char.ofNat 39) (stripOf (· == '"') (strip value))

/-- One turn of the loop of `read_local_env`. -/
def readLine (values : Dict Str Str) (raw : Str) : Dict Str Str :=
  let line := strip raw
  if line = [] ∨ startsWith line ['#'] = true ∨ '=' ∉ line then values
  else
    let parts := partition '=' line
    let key := strip parts.1
    if key ∈ localEnvKeys then values.set key (readValue parts.2) else values

def readLines (content : Str) : Dict Str Str := (splitLines content).foldl readLine .empty

/-- `read_local_env` -/
def readLocalEnv (file : File) : Dict Str Str :=
  match readPrivateText maxConfigFileBytes file with
  | some content => readLines content
  | none => .empty

/-! ## The phone that is configured -/

/-- `fullmatch` of a sequence of character classes. -/
def fits : List (Char → Bool) → Str → Bool
  | [], [] => true
  | p :: ps, c :: s => p c && fits ps s
  | _, _ => false

/-- `[0-9A-F]` -/
def isUpperHex (c : Char) : Bool := isDigit c || (65 ≤ c.toNat && c.toNat ≤ 70)

/-- `[0-9a-f]` -/
def isLowerHex (c : Char) : Bool := isDigit c || (97 ≤ c.toNat && c.toNat ≤ 102)

/-- `_MAC_RE` -/
def macClasses : List (Char → Bool) :=
  [isUpperHex, isUpperHex] ++ (List.replicate 5 [(· == ':'), isUpperHex, isUpperHex]).flatten

/-- `is_valid_mac` -/
def isValidMac (value : Str) : Bool := fits macClasses (upper (strip value))

/-- `is_valid_adapter` -/
def isValidAdapter (value : Str) : Bool :=
  let name := strip value
  startsWith name "hci".toList && !(name.drop 3).isEmpty && (name.drop 3).all isDigit

/-- `_PROFILE_ID_RE` -/
def profileIdClasses : List (Char → Bool) :=
  List.replicate 8 isLowerHex ++ (· == '-') :: List.replicate 4 isLowerHex ++
    (· == '-') :: (· == '4') :: List.replicate 3 isLowerHex ++
    (· == '-') :: (· ∈ "89ab".toList) :: List.replicate 3 isLowerHex ++
    (· == '-') :: List.replicate 12 isLowerHex

/-- `is_valid_profile_id` -/
def isValidProfileId (value : Str) : Bool := fits profileIdClasses value

/-- `str(uuid.uuid4())` -/
structure ProfileId where
  text : Str
  valid : isValidProfileId text = true

/-! ## Writing -/

/-- What one write meets: the lock of the file, a new id, whether the new file takes the place of the
old one, and whether no error came up until then and after. -/
structure Answers where
  locked : Bool
  uuid : ProfileId
  replaced : Bool
  synced : Bool

/-- `"".join(f"{key}={values[key]}\n" for key in order if key in values)` -/
def writeValues (order : List Str) (values : Dict Str Str) : Str :=
  order.flatMap fun key =>
    match values.get? key with
    | some value => key ++ '=' :: value ++ ['\n']
    | none => []

/-- `sorted(LOCAL_ENV_KEYS)` -/
def sortedKeys : List Str := localEnvKeys.insertionSort (· ≤ ·)

section

variable (a : Answers)

/-- `atomic_write_private_text`: what is in the file afterwards, if it was replaced. -/
def atomicWrite (content : Str) : Option Str :=
  if utf8Size content ≤ maxConfigFileBytes ∧ a.replaced = true then some content else none

/-- `clear_local_target`: what it puts into the file. -/
def clearLocalTarget (file : File) : Option Str :=
  if a.locked = false then none
  else
    let existing := (((readLocalEnv file).erase macKey).erase profileIdKey).erase adapterKey
    atomicWrite a (writeValues sortedKeys (existing.erase ancsEnabledKey))

/-- The keys that `write_local_env` writes first. -/
def ordered : List Str := [macKey, profileIdKey, adapterKey, ancsEnabledKey]

/-- The values of the phone and of its adapter, as `write_local_env` sets them. -/
def withPhone (existing : Dict Str Str) (normalizedMac : Str) (adapter : Option Str)
    (ancsEnabled : Bool) : Dict Str Str :=
  let oldMac := upper (strip ((existing.get? macKey).getD []))
  let oldProfileId := (existing.get? profileIdKey).getD []
  let profileId :=
    if oldMac = normalizedMac ∧ isValidProfileId oldProfileId = true then oldProfileId
    else a.uuid.text
  let existing := (existing.set macKey normalizedMac).set profileIdKey profileId
  let existing := match adapter with
    | some name => if name = [] then existing else existing.set adapterKey name
    | none => existing
  existing.set ancsEnabledKey (if ancsEnabled then "true".toList else "false".toList)

/-- `write_local_env`: what it puts into the file. -/
def writeLocalEnv (file : File) (mac : Str) (adapter : Option Str)
    (ancsEnabled : Bool) : Option Str :=
  let normalizedMac := upper (strip mac)
  if isValidMac normalizedMac = false then none
  else if adapter.any (fun name => !isValidAdapter name) then none
  else if a.locked = false then none
  else
    let values := withPhone a (readLocalEnv file) normalizedMac adapter ancsEnabled
    atomicWrite a (writeValues (ordered ++ sortedKeys.filter (· ∉ ordered)) values)

/-- `current_profile_id`: what it returns, and what it puts into the file. The file is `seen` without
the lock and read again under it. -/
def currentProfileId (seen file : File) (deviceMac : Str) : Option Str × Option Str :=
  let deviceMac := upper (strip deviceMac)
  let savedMac := fun values : Dict Str Str => upper (strip ((values.get? macKey).getD []))
  let savedId := fun values : Dict Str Str => (values.get? profileIdKey).getD []
  if isValidMac deviceMac = false then (none, none)
  else if savedMac (readLocalEnv seen) ≠ deviceMac then (none, none)
  else if isValidProfileId (savedId (readLocalEnv seen)) = true then
    (some (savedId (readLocalEnv seen)), none)
  else if a.locked = false then (none, none)
  else
    let values := readLocalEnv file
    if savedMac values ≠ deviceMac then (none, none)
    else if isValidProfileId (savedId values) = true then (some (savedId values), none)
    else
      let content := atomicWrite a (writeValues sortedKeys (values.set profileIdKey a.uuid.text))
      (if content.isSome && a.synced then some a.uuid.text else none, content)

end

/-- The writers of the file, each with its arguments. -/
inductive Writer
  | phone (mac : Str) (adapter : Option Str) (ancsEnabled : Bool)
  | clear
  | profileId (seen : File) (deviceMac : Str)

/-- What the writer puts into the file, if it replaces it. -/
def Writer.written (w : Writer) (a : Answers) (file : File) : Option Str :=
  match w with
  | .phone mac adapter ancsEnabled => writeLocalEnv a file mac adapter ancsEnabled
  | .clear => clearLocalTarget a file
  | .profileId seen deviceMac => (currentProfileId a seen file deviceMac).2

/-- The keys that the writer itself sets or clears. -/
def Writer.touches : Writer → List Str
  | .phone _ (some _) _ => ordered
  | .phone _ none _ => [macKey, profileIdKey, ancsEnabledKey]
  | .clear => ordered
  | .profileId _ _ => [profileIdKey]

/-! ## One entry and its lines -/

variable {key after : Str} {a : Answers}

/-- A key is its own reading: no space at its ends, no separator in it. -/
theorem plain_of_mem (h : key ∈ localEnvKeys) :
    strip key = key ∧ '=' ∉ key ∧ NoBreak key ∧ ∃ rest, key = 'B' :: rest := by
  have hall : ∀ key ∈ localEnvKeys, strip key = key ∧ '=' ∉ key ∧ NoBreak key ∧
      key.head? = some 'B' := forall_of_all (by decide +kernel)
  obtain ⟨hstrip, hsep, hbreak, hhead⟩ := hall key h
  exact ⟨hstrip, hsep, hbreak, List.head?_eq_some_iff.mp hhead⟩

/-- What is stripped off the end of a text changes nothing in its stripping. -/
theorem strip_rstrip (s : Str) : strip (rstrip isSpace s) = strip s := by
  have htrail : ∀ c ∈ s.rtakeWhile isSpace, isSpace c = true := fun _ hc =>
    List.mem_rtakeWhile_imp hc
  calc strip (rstrip isSpace s)
      = strip ([] ++ (rstrip isSpace s ++ s.rtakeWhile isSpace)) :=
        (stripOf_surrounded (List.forall_mem_nil _) htrail).symm
    _ = strip s := congrArg strip List.rdropWhile_append_rtakeWhile

/-- The line of a key gives its key and the reading of its value. -/
theorem readLine_entry (h : key ∈ localEnvKeys) (values : Dict Str Str) (value : Str) :
    readLine values (key ++ '=' :: value) = values.set key (readValue value) := by
  obtain ⟨hstrip, hsep, -, rest, hkey⟩ := plain_of_mem h
  have hvalue : rstrip isSpace ('=' :: value) = '=' :: rstrip isSpace value := by
    rw [show '=' :: value = ['='] ++ value from rfl, rstrip_append]
    split
    · next h => rw [h]; rfl
    · rfl
  have hline : strip (key ++ '=' :: value) = key ++ '=' :: rstrip isSpace value := by
    have hfirst : lstrip isSpace (key ++ '=' :: value) = key ++ '=' :: value := by rw [hkey]; rfl
    rw [strip, stripOf, hfirst, rstrip_append, hvalue, if_neg (by simp)]
  have hread : ¬ (key ++ '=' :: rstrip isSpace value = [] ∨
      startsWith (key ++ '=' :: rstrip isSpace value) ['#'] = true ∨
      '=' ∉ key ++ '=' :: rstrip isSpace value) := by
    rw [hkey]
    simp [startsWith]
  rw [readLine, hline]
  dsimp only
  rw [if_neg hread, partition_append hsep, hstrip, if_pos h, readValue, strip_rstrip, readValue]

/-- A line without a separator is passed over. -/
theorem readLine_of_not_mem {line : Str} (h : '=' ∉ line) (values : Dict Str Str) :
    readLine values line = values := by
  have hstrip : '=' ∉ strip line := fun hmem => h ((stripOf_within isSpace line).subset hmem)
  rw [readLine]
  exact if_pos (.inr (.inr hstrip))

theorem foldl_readLine_of_not_mem {lines : List Str} (h : ∀ line ∈ lines, '=' ∉ line)
    (values : Dict Str Str) : lines.foldl readLine values = values := by
  induction lines with
  | nil => rfl
  | cons line lines ih =>
    rw [List.foldl_cons, readLine_of_not_mem (h line (.head _)), ih fun l hl => h l (.tail _ hl)]

/-- A text that follows an entry is read after the entry, and the entry sets its own key. A value
with line breaks is cut at the first one. -/
theorem foldl_readLine_entry (h : key ∈ localEnvKeys) {value : Str}
    (hvalue : NoBreak value ∨ '=' ∉ value) : ∃ first, (NoBreak value → first = value) ∧
      ∀ text values, (splitLines (key ++ '=' :: value ++ '\n' :: text)).foldl readLine values =
        (splitLines text).foldl readLine (values.set key (readValue first)) := by
  obtain ⟨-, -, hbreak, -⟩ := plain_of_mem h
  have hopen : NoBreak (key ++ ['=']) := noBreak_append.mpr ⟨hbreak, by decide⟩
  obtain ⟨⟨first, t⟩, rest, hchunks⟩ :=
    List.exists_cons_of_ne_nil (lineChunks_ne_nil (s := value ++ ['\n']) (by simp))
  have hentry : lineChunks (key ++ '=' :: value ++ ['\n']) =
      (key ++ ['='] ++ first, t) :: rest := by
    rw [← lineChunks_append_open hopen hchunks]
    simp
  have hrest : ∀ line ∈ rest.map Prod.fst, '=' ∉ line := by
    rcases hvalue with hno | hsep
    · have hone := lineChunks_append hno (lineChunks_newline [])
      rw [hchunks] at hone
      rw [(List.cons.inj hone).2]
      simp [lineChunks]
    intro line hline hmem
    have hin : line ∈ splitLines (value ++ ['\n']) := by
      rw [splitLines, hchunks, List.map_cons]
      exact .tail _ hline
    have hmem := mem_of_mem_splitLines hin hmem
    exact hsep (by simpa using hmem)
  refine ⟨first, ?_, fun text values => ?_⟩
  · intro hno
    have hone := lineChunks_append hno (lineChunks_newline [])
    rw [hchunks] at hone
    exact congrArg Prod.fst (List.cons.inj hone).1
  have hclosed : Closed (key ++ '=' :: value ++ ['\n']) := by
    intro c hc
    rw [List.getLast?_concat] at hc
    exact Option.some.inj hc ▸ rfl
  have hcut : splitLines (key ++ '=' :: value ++ '\n' :: text) =
      splitLines (key ++ '=' :: value ++ ['\n']) ++ splitLines text := by
    rw [← splitLines_append_closed hclosed]
    · simp
    · rw [List.getLast?_concat]
      exact fun hand => absurd hand.1 (by decide)
  rw [hcut, List.foldl_append]
  rw [splitLines, hentry, List.map_cons, List.foldl_cons, foldl_readLine_of_not_mem hrest]
  rw [List.append_assoc, List.singleton_append, readLine_entry h]

/-! ## A dictionary that is written and read again -/

/-- **What is read under a key is the reading of the value that was written for it**, whatever the
other keys are written with, as long as none of their lines but the first can be an entry. -/
theorem get?_readLines_writeValues {values : Dict Str Str}
    (hkey : ∀ value, values.get? key = some value → NoBreak value) {order : List Str}
    (horder : ∀ k ∈ order, k ∈ localEnvKeys ∧
      ∀ value, values.get? k = some value → NoBreak value ∨ '=' ∉ value) (read : Dict Str Str) :
    ((splitLines (writeValues order values)).foldl readLine read).get? key =
      (if key ∈ order then (values.get? key).map readValue else none).or (read.get? key) := by
  induction order generalizing read with
  | nil => rfl
  | cons k order ih =>
    have ih := ih fun j hj => horder j (.tail _ hj)
    obtain ⟨hk, hvalue⟩ := horder k (.head _)
    rw [writeValues, List.flatMap_cons]
    cases hget : values.get? k with
    | none =>
      rw [List.nil_append, ← writeValues, ih]
      by_cases hkk : key = k
      · subst hkk
        simp [hget]
      · simp [hkk]
    | some value =>
      obtain ⟨first, hfirst, hread⟩ := foldl_readLine_entry hk (hvalue value hget)
      show ((splitLines (k ++ '=' :: value ++ ['\n'] ++ writeValues order values)).foldl
        readLine read).get? key = _
      rw [List.append_assoc, List.singleton_append, hread, ih, Dict.get?_set]
      by_cases hkk : key = k
      · subst hkk
        rw [hfirst (hkey value hget), hget]
        by_cases hin : key ∈ order <;> simp [hin]
      · simp [hkk]

/-- A value that is read comes from one line. -/
theorem noBreak_readLine {values : Dict Str Str} {raw : Str} (hraw : NoBreak raw)
    (h : ∀ key value, values.get? key = some value → NoBreak value) :
    ∀ key value, (readLine values raw).get? key = some value → NoBreak value := by
  intro key value hget
  rw [readLine] at hget
  dsimp only at hget
  split_ifs at hget with hskip hkey
  · exact h key value hget
  · rw [Dict.get?_set] at hget
    split_ifs at hget with heq
    · rw [← Option.some.inj hget]
      intro c hc
      have hc := (stripOf_within _ _).subset ((stripOf_within _ _).subset hc)
      have hc := List.mem_of_mem_tail ((stripOf_within isSpace _).subset hc)
      have hc := (List.dropWhile_suffix _).subset hc
      exact hraw c ((stripOf_within isSpace _).subset hc)
    · exact h key value hget
  · exact h key value hget

theorem noBreak_of_readLines {content value : Str}
    (h : (readLines content).get? key = some value) : NoBreak value := by
  have hall : ∀ lines : List Str, (∀ line ∈ lines, NoBreak line) → ∀ values : Dict Str Str,
      (∀ key value, values.get? key = some value → NoBreak value) →
      ∀ key value, (lines.foldl readLine values).get? key = some value → NoBreak value := by
    intro lines hlines
    induction lines with
    | nil => exact fun values h => h
    | cons line lines ih =>
      intro values h
      exact ih (fun l hl => hlines l (.tail _ hl)) _ (noBreak_readLine (hlines line (.head _)) h)
  exact hall _ (fun _ hline => noBreak_of_mem_splitLines hline) .empty nofun key value h

/-- What is read of a file is what it holds, unless the file is too large or cannot be read. -/
theorem readLocalEnv_text (content : Str) : readLocalEnv (.text content) =
    if utf8Size content ≤ maxConfigFileBytes then readLines content else .empty := by
  unfold readLocalEnv readPrivateText
  by_cases h : utf8Size content ≤ maxConfigFileBytes <;> simp [h]

/-! ## What the writers put in -/

theorem not_mem_of_fits {c : Char} {ps : List (Char → Bool)} (hps : ∀ p ∈ ps, p c = false)
    {s : Str} (h : fits ps s = true) : c ∉ s := by
  induction ps generalizing s with
  | nil =>
    cases s with
    | nil => simp
    | cons d s => nomatch h
  | cons p ps ih =>
    cases s with
    | nil => simp
    | cons d s =>
      rw [fits, Bool.and_eq_true] at h
      rw [List.mem_cons, not_or]
      refine ⟨?_, ih (fun q hq => hps q (.tail _ hq)) h.2⟩
      rintro rfl
      rw [hps p List.mem_cons_self] at h
      nomatch h.1

/-- Stripping takes only spaces away. -/
theorem mem_strip {s : Str} {c : Char} (hc : c ∈ s) (hspace : isSpace c = false) : c ∈ strip s := by
  obtain ⟨lead, trail, hs, hlead, htrail⟩ := exists_stripOf isSpace s
  rw [hs, List.mem_append, List.mem_append] at hc
  rcases hc with hc | hc | hc
  · exact absurd (hlead c hc) (by simp [hspace])
  · exact hc
  · exact absurd (htrail c hc) (by simp [hspace])

theorem not_mem_of_isValidMac {mac : Str} (h : isValidMac mac = true) : '=' ∉ mac := by
  intro hmem
  refine not_mem_of_fits (c := '=') (by decide) h ?_
  exact List.mem_flatMap.mpr ⟨'=', mem_strip hmem (by decide), by decide +kernel⟩

theorem not_mem_of_isValidAdapter {name : Str} (h : isValidAdapter name = true) : '=' ∉ name := by
  intro hmem
  have hstrip := mem_strip hmem (by decide)
  rw [isValidAdapter] at h
  simp only [Bool.and_eq_true, startsWith_iff] at h
  obtain ⟨⟨⟨rest, hrest⟩, -⟩, hdigits⟩ := h
  rw [← hrest] at hstrip hdigits
  rcases List.mem_append.mp hstrip with hin | hin
  · exact absurd hin (by decide)
  · exact absurd (List.all_eq_true.mp hdigits '=' hin) (by decide)

theorem not_mem_of_isValidProfileId {id : Str} (h : isValidProfileId id = true) : '=' ∉ id :=
  not_mem_of_fits (by decide) h

/-- The dictionary has what was held under every key but `keys`, and what is under `keys` begins no
other entry. -/
structure Edited (held : Dict Str Str) (keys : List Str) (values : Dict Str Str) : Prop where
  same : ∀ key ∉ keys, values.get? key = held.get? key
  own : ∀ key ∈ keys, ∀ value, values.get? key = some value → '=' ∉ value

namespace Edited

theorem refl (held : Dict Str Str) : Edited held [] held := ⟨fun _ _ => rfl, nofun⟩

variable {held values : Dict Str Str} {keys : List Str}

theorem erase (h : Edited held keys values) (k : Str) :
    Edited held (keys ++ [k]) (values.erase k) := by
  constructor
  · intro key hkey
    rw [List.mem_append, List.mem_singleton, not_or] at hkey
    rw [Dict.get?_erase, if_neg hkey.2, h.same key hkey.1]
  intro key hkey value hvalue
  rw [Dict.get?_erase] at hvalue
  split_ifs at hvalue with heq
  rw [List.mem_append, List.mem_singleton] at hkey
  exact h.own key (hkey.resolve_right heq) value hvalue

theorem set (h : Edited held keys values) (k : Str) {v : Str} (hv : '=' ∉ v) :
    Edited held (keys ++ [k]) (values.set k v) := by
  constructor
  · intro key hkey
    rw [List.mem_append, List.mem_singleton, not_or] at hkey
    rw [Dict.get?_set, if_neg hkey.2, h.same key hkey.1]
  intro key hkey value hvalue
  rw [Dict.get?_set] at hvalue
  split_ifs at hvalue with heq
  · exact Option.some.inj hvalue ▸ hv
  rw [List.mem_append, List.mem_singleton] at hkey
  exact h.own key (hkey.resolve_right heq) value hvalue

end Edited

theorem edited_withPhone {sent mac : Str} (hmac : isValidMac mac = true)
    {adapter : Option Str} (hadapter : ¬ adapter.any (fun name => !isValidAdapter name) = true)
    (held : Dict Str Str) (ancsEnabled : Bool) :
    Edited held (Writer.phone sent adapter ancsEnabled).touches
      (withPhone a held mac adapter ancsEnabled) := by
  have hancs : '=' ∉ (if ancsEnabled then "true".toList else "false".toList) := by
    cases ancsEnabled with
    | true => decide
    | false => decide
  have hid : '=' ∉ (if upper (strip ((held.get? macKey).getD [])) = mac ∧
      isValidProfileId ((held.get? profileIdKey).getD []) = true then
      (held.get? profileIdKey).getD [] else a.uuid.text) := by
    split_ifs with h
    · exact not_mem_of_isValidProfileId h.2
    · exact not_mem_of_isValidProfileId a.uuid.valid
  have hphone := ((Edited.refl held).set macKey (not_mem_of_isValidMac hmac)).set profileIdKey hid
  cases adapter with
  | none => exact hphone.set ancsEnabledKey hancs
  | some name =>
    have hname : isValidAdapter name = true := by simpa using hadapter
    have hne : name ≠ [] := by
      rintro rfl
      exact absurd hname (by decide)
    rw [withPhone, if_neg hne]
    exact (hphone.set adapterKey (not_mem_of_isValidAdapter hname)).set ancsEnabledKey hancs

theorem atomicWrite_eq_some {content : Str} (h : atomicWrite a content = some after) :
    after = content ∧ utf8Size after ≤ maxConfigFileBytes := by
  unfold atomicWrite at h
  split_ifs at h with hok
  cases h
  exact ⟨rfl, hok.1⟩

theorem mem_sortedKeys : key ∈ sortedKeys ↔ key ∈ localEnvKeys := List.mem_insertionSort _

/-- **Every writer puts the whole dictionary back**, edited under its own keys only. -/
theorem Writer.written_eq_some {w : Writer} {file : File}
    (h : w.written a file = some after) : ∃ order values, after = writeValues order values ∧
      utf8Size after ≤ maxConfigFileBytes ∧ (∀ key, key ∈ order ↔ key ∈ localEnvKeys) ∧
      Edited (readLocalEnv file) w.touches values := by
  cases w with
  | phone mac adapter ancsEnabled =>
    rw [written, writeLocalEnv] at h
    dsimp only at h
    split_ifs at h with hmac hadapter
    obtain ⟨hcontent, hfits⟩ := atomicWrite_eq_some h
    refine ⟨_, _, hcontent, hfits, fun key => ?_,
      edited_withPhone (Bool.eq_true_of_not_eq_false hmac) hadapter _ _⟩
    have hordered : ∀ k ∈ ordered, k ∈ localEnvKeys := forall_of_all (by decide +kernel)
    rw [List.mem_append, List.mem_filter, mem_sortedKeys]
    by_cases hin : key ∈ ordered
    · simp [hin, hordered key hin]
    · simp [hin]
  | clear =>
    rw [written, clearLocalTarget] at h
    split_ifs at h
    obtain ⟨hcontent, hfits⟩ := atomicWrite_eq_some h
    have hedited := Edited.refl (readLocalEnv file)
    exact ⟨_, _, hcontent, hfits, fun _ => mem_sortedKeys,
      (((hedited.erase _).erase _).erase _).erase _⟩
  | profileId seen deviceMac =>
    rw [written, currentProfileId] at h
    dsimp only at h
    split_ifs at h
    all_goals
      obtain ⟨hcontent, hfits⟩ := atomicWrite_eq_some h
      exact ⟨_, _, hcontent, hfits, fun _ => mem_sortedKeys,
        (Edited.refl _).set _ (not_mem_of_isValidProfileId a.uuid.valid)⟩

/-! ## What a write leaves of the preferences -/

/-- What the lines of the file say, however long it is. -/
def File.held : File → Option (Dict Str Str)
  | .missing => some .empty
  | .text content => some (readLines content)
  | .unreadable => none

/-- Every supported key that the writer does not set or clear reads as before; a file that nothing
can be read of is not replaced. -/
def Keeps (w : Writer) (file : File) (after : Str) : Prop :=
  ∃ held, file.held = some held ∧ ∀ key ∈ localEnvKeys, key ∉ w.touches →
    (readLocalEnv (.text after)).get? key = held.get? key

/-- The file can be read as far as the preferences in it go, and each of their values is one that
its own reading leaves alone. -/
def Spared (w : Writer) : File → Prop
  | .missing => True
  | .text content => ∀ key ∈ localEnvKeys, key ∉ w.touches → ∀ value,
      (readLines content).get? key = some value →
        utf8Size content ≤ maxConfigFileBytes ∧ readValue value = value
  | .unreadable => False

/-- After a write a key that is left alone has the reading of the value that was read. -/
theorem get?_readLocalEnv_written {w : Writer} {file : File}
    (h : w.written a file = some after) (hkey : key ∈ localEnvKeys)
    (hown : key ∉ w.touches) : (readLocalEnv (.text after)).get? key =
      ((readLocalEnv file).get? key).map readValue := by
  obtain ⟨order, values, hcontent, hfits, hkeys, hedited⟩ := w.written_eq_some h
  have hbreak : ∀ k value, (readLocalEnv file).get? k = some value → NoBreak value := by
    intro k value hget
    cases file with
    | missing => nomatch hget
    | unreadable => nomatch hget
    | text content =>
      rw [readLocalEnv_text] at hget
      split_ifs at hget
      · exact noBreak_of_readLines hget
      · nomatch hget
  have horder : ∀ k ∈ order, k ∈ localEnvKeys ∧
      ∀ value, values.get? k = some value → NoBreak value ∨ '=' ∉ value := by
    intro k hk
    refine ⟨(hkeys k).mp hk, fun value hget => ?_⟩
    by_cases hin : k ∈ w.touches
    · exact .inr (hedited.own k hin value hget)
    rw [hedited.same k hin] at hget
    exact .inl (hbreak k value hget)
  have hline : ∀ value, values.get? key = some value → NoBreak value := by
    intro value hget
    rw [hedited.same key hown] at hget
    exact hbreak key value hget
  have hread := get?_readLines_writeValues hline horder .empty
  rw [if_pos ((hkeys key).mpr hkey), hedited.same key hown, ← hcontent] at hread
  rw [readLocalEnv_text, if_pos hfits, readLines, hread]
  simp

/-- **A write keeps the other preferences exactly when the file is spared**: it is not too large,
it can be read, and no value in it has quotes or spaces that a second reading takes away. -/
theorem keeps_iff_spared (w : Writer) (a : Answers) (file : File) (after : Str)
    (h : w.written a file = some after) : Keeps w file after ↔ Spared w file := by
  have hread := fun key (hkey : key ∈ localEnvKeys) (hown : key ∉ w.touches) =>
    get?_readLocalEnv_written h hkey hown
  cases file with
  | missing =>
    refine ⟨fun _ => trivial, fun _ => ⟨_, rfl, fun key hkey hown => ?_⟩⟩
    rw [hread key hkey hown]
    rfl
  | unreadable =>
    constructor
    · rintro ⟨held, hheld, -⟩
      nomatch hheld
    · exact False.elim
  | text content =>
    rw [Keeps, Spared]
    constructor
    · rintro ⟨held, hheld, hkeeps⟩ key hkey hown value hvalue
      cases hheld
      have hsame := hkeeps key hkey hown
      rw [hread key hkey hown, readLocalEnv_text, hvalue] at hsame
      split_ifs at hsame with hfits
      · rw [hvalue] at hsame
        exact ⟨hfits, Option.some.inj hsame⟩
      · nomatch hsame
    intro hspared
    refine ⟨_, rfl, fun key hkey hown => ?_⟩
    rw [hread key hkey hown, readLocalEnv_text]
    cases hvalue : (readLines content).get? key with
    | none =>
      split_ifs
      · rw [hvalue]
        rfl
      · rfl
    | some value =>
      obtain ⟨hfits, hself⟩ := hspared key hkey hown value hvalue
      rw [if_pos hfits, hvalue, Option.map_some, hself]

/-- Everything goes well and a new id is `00000000-0000-4000-8000-000000000000`. -/
def granted : Answers where
  locked := true
  uuid := ⟨"00000000-0000-4000-8000-000000000000".toList, by decide⟩
  replaced := true
  synced := true

/-- A value with quotes inside quotes. -/
def quoted : Str := "BLUEFERRY_TETHER_BACKEND=".toList ++
  [Char.ofNat 39, '"', 'n', 'm', '"', Char.ofNat 39]

/-- What forgetting the phone makes of a plain value and of one with quotes inside quotes. -/
theorem clear_written :
    Writer.clear.written granted (.text "BLUEFERRY_TETHER_BACKEND=nm\n".toList) =
        some "BLUEFERRY_TETHER_BACKEND=nm\n".toList ∧
      Writer.clear.written granted (.text quoted) =
        some "BLUEFERRY_TETHER_BACKEND=\"nm\"\n".toList := by
  decide +kernel

/-- A plain value survives the phone being forgotten. -/
theorem keeps_iff_spared_plain :
    Keeps .clear (.text "BLUEFERRY_TETHER_BACKEND=nm\n".toList)
        "BLUEFERRY_TETHER_BACKEND=nm\n".toList ↔
      Spared .clear (.text "BLUEFERRY_TETHER_BACKEND=nm\n".toList) :=
  keeps_iff_spared .clear granted _ _ clear_written.1

/-- A value with quotes inside quotes loses the inner ones, and a file that cannot be read becomes
an empty one. -/
theorem clear_not_keeps :
    (∃ after, Writer.clear.written granted (.text quoted) = some after ∧
      ¬ Keeps .clear (.text quoted) after) ∧
    Writer.clear.written granted .unreadable = some [] ∧ ¬ Keeps .clear .unreadable [] := by
  refine ⟨⟨_, clear_written.2, ?_⟩, ?_, ?_⟩
  · rintro ⟨held, hheld, hkeeps⟩
    cases hheld
    have hkey : "BLUEFERRY_TETHER_BACKEND".toList ∈ localEnvKeys := by simp [localEnvKeys]
    have hown : "BLUEFERRY_TETHER_BACKEND".toList ∉ Writer.clear.touches := by decide +kernel
    have hsame := hkeeps _ hkey hown
    rw [get?_readLocalEnv_written clear_written.2 hkey hown] at hsame
    exact absurd hsame (by decide +kernel)
  · have hnone : writeValues sortedKeys .empty = [] := List.flatMap_eq_nil_iff.mpr fun _ _ => rfl
    show atomicWrite granted (writeValues sortedKeys .empty) = some []
    rw [hnone]
    rfl
  · rintro ⟨held, hheld, -⟩
    nomatch hheld

end BlueFerry.LocalEnv
