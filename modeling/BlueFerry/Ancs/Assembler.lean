import BlueFerry.Ancs.Parsers

/-! # Fragmentation of Data Source responses

The assembler and the parsers are two walks over the same grammar. `WellFormed` is that grammar,
for each of the three requests that the client makes:

* every split of a well-formed response is put together again (`feedAll_of_wellFormed`);
* whatever the assembler hands out is well formed (`wellFormed_of_feed`);
* what is well formed is accepted by the parser of its request (`accepted_of_wellFormed`).
-/

namespace BlueFerry.Ancs

open BlueFerry.Text

/-! ## Requests -/

/-- The action labels of a request: supported ones, and none of them twice. -/
structure LabelIds where
  ids : List UInt8
  supported : ∀ id ∈ ids, id ∈ actionLabelAttributeIds
  nodup : ids.Nodup

/-- The requests that are answered on the Data Source. -/
inductive Request where
  /-- `build_get_notification_app_identifier` -/
  | appIdentifier (uid : Nat)
  /-- `build_get_notification_attributes` -/
  | attributes (uid : Nat) (labels : LabelIds)
  /-- `build_get_app_attributes` -/
  | appAttributes (appId : Str)

namespace Request

def command : Request → UInt8
  | appIdentifier _ => CommandID.getNotificationAttributes
  | attributes _ _ => CommandID.getNotificationAttributes
  | appAttributes _ => CommandID.getAppAttributes

/-- The attributes asked for, in order. -/
def attributeIds : Request → List UInt8
  | appIdentifier _ => [NotificationAttributeID.appIdentifier]
  | attributes _ labels =>
    [NotificationAttributeID.appIdentifier, NotificationAttributeID.title,
      NotificationAttributeID.subtitle, NotificationAttributeID.message] ++ labels.ids
  | appAttributes _ => [displayName]

def notificationId : Request → Option Nat
  | appIdentifier uid => some uid
  | attributes uid _ => some uid
  | appAttributes _ => none

def appId : Request → Option Str
  | appIdentifier _ => none
  | attributes _ _ => none
  | appAttributes appId => some appId

/-- The assembler that the client makes for a request, with some bytes received. -/
def assembler (r : Request) (buffer : Bytes) : DataSourceAssembler :=
  { command := r.command, attributeIds := r.attributeIds, notificationId := r.notificationId
    appId := r.appId, buffer }

/-- The bytes after the command that name the request. -/
def Identifies : Request → Bytes → Prop
  | appAttributes appId, ident =>
    ∃ name, ident = name ++ [0] ∧ (0 : UInt8) ∉ name ∧ decodeReplace name = appId
  | appIdentifier uid, ident => ∃ b₀ b₁ b₂ b₃, ident = [b₀, b₁, b₂, b₃] ∧ u32le b₀ b₁ b₂ b₃ = uid
  | attributes uid _, ident => ∃ b₀ b₁ b₂ b₃, ident = [b₀, b₁, b₂, b₃] ∧ u32le b₀ b₁ b₂ b₃ = uid

/-- **The buffer is accepted by the parser of the request**, with the id or the app identifier
that was asked for. -/
def Accepted (r : Request) (buffer : Bytes) : Prop :=
  ∃ body, DataSourceEvent.parse buffer = .ok { type := r.command, body }
    ∧ match r with
      | appIdentifier uid => ∃ app, parseNotificationAppIdentifier body = .ok (uid, app)
      | attributes uid labels =>
        ∃ attrs, NotificationAttributes.parse body labels.ids = .ok attrs ∧ attrs.id = uid
      | appAttributes appId => ∃ attrs, AppAttributes.parse body = .ok attrs ∧ attrs.appId = appId

end Request

/-! ## The grammar of a response -/

/-- An attribute's bytes. -/
def encodeAttr (id : UInt8) (value : Bytes) : Bytes :=
  id :: UInt8.ofNat (value.length % 256) :: UInt8.ofNat (value.length / 256) :: value

def encodeAttrs (attrs : List (UInt8 × Bytes)) : Bytes :=
  attrs.flatMap (fun a => encodeAttr a.1 a.2)

/-- Every value has a length that two bytes can hold. -/
def Sized (attrs : List (UInt8 × Bytes)) : Prop := ∀ a ∈ attrs, a.2.length < 65536

instance (attrs : List (UInt8 × Bytes)) : Decidable (Sized attrs) :=
  inferInstanceAs (Decidable (∀ a ∈ attrs, _))

/-- A well-formed response to a request. -/
structure WellFormed (r : Request) (ident : Bytes) (attrs : List (UInt8 × Bytes))
    (response : Bytes) : Prop where
  identifies : r.Identifies ident
  ids : attrs.map Prod.fst = r.attributeIds
  sized : Sized attrs
  eq : response = (r.command :: ident) ++ encodeAttrs attrs

theorem u16le_length {n : Nat} (h : n < 65536) :
    u16le (UInt8.ofNat (n % 256)) (UInt8.ofNat (n / 256)) = n := by
  rw [u16le, toNat_ofNat_of_lt (by omega), toNat_ofNat_of_lt (by omega)]
  omega

theorem encodeAttrs_cons (id : UInt8) (value : Bytes) (attrs : List (UInt8 × Bytes)) :
    encodeAttrs ((id, value) :: attrs) = encodeAttr id value ++ encodeAttrs attrs := by
  simp [encodeAttrs]

theorem length_encodeAttr (id : UInt8) (value : Bytes) :
    (encodeAttr id value).length = value.length + 3 := by
  simp [encodeAttr]

theorem dropWhile_append_nul {name : Bytes} (h : (0 : UInt8) ∉ name) (rest : Bytes) :
    (name ++ 0 :: rest).takeWhile (· != 0) = name
      ∧ ((name ++ 0 :: rest).dropWhile (· != 0)).tail = rest := by
  have hall : ∀ b ∈ name, (b != 0) = true := by
    intro b hb
    rw [bne_iff_ne]
    rintro rfl
    exact h hb
  rw [List.takeWhile_append_of_pos hall, List.dropWhile_append_of_pos hall]
  simp

/-! ## The end of the attributes -/

variable {attrs : List (UInt8 × Bytes)} {data ident buffer : Bytes}

namespace DataSourceAssembler

/-- **The walk over a start of well-formed attributes** ends at their end once it is there. -/
theorem attributesEnd_take (h : Sized attrs) (pre : Bytes) (n : Nat) (hpre : pre.length ≤ n) :
    attributesEnd ((pre ++ encodeAttrs attrs).take n) (attrs.map Prod.fst) pre.length
      = if (pre ++ encodeAttrs attrs).length ≤ n then .ok (some (pre ++ encodeAttrs attrs).length)
        else .ok none := by
  induction attrs generalizing pre with
  | nil => simp [attributesEnd, encodeAttrs, hpre]
  | cons a attrs ih =>
    obtain ⟨id, value⟩ := a
    have hvalue : value.length < 65536 := h (id, value) (.head _)
    have hrest : Sized attrs := fun b hb => h b (.tail _ hb)
    have hlen : (pre ++ encodeAttrs ((id, value) :: attrs)).length
        = pre.length + 3 + value.length + (encodeAttrs attrs).length := by
      rw [encodeAttrs_cons, List.length_append, List.length_append, length_encodeAttr]
      omega
    have hdrop : ((pre ++ encodeAttrs ((id, value) :: attrs)).take n).drop pre.length
        = (encodeAttr id value ++ encodeAttrs attrs).take (n - pre.length) := by
      rw [List.drop_take, List.drop_left, encodeAttrs_cons]
    rw [List.map_cons, attributesEnd, hdrop]
    by_cases hhead : n < pre.length + 3
    · -- fewer than the three bytes of the header are there
      rw [if_neg (by omega)]
      have hshort : n - pre.length = 0 ∨ n - pre.length = 1 ∨ n - pre.length = 2 := by omega
      rcases hshort with hn | hn | hn <;> simp [hn, encodeAttr]
    obtain ⟨m, hm⟩ : ∃ m, n - pre.length = m + 3 := ⟨n - pre.length - 3, by omega⟩
    have htake : (encodeAttr id value ++ encodeAttrs attrs).take (n - pre.length)
        = id :: UInt8.ofNat (value.length % 256) :: UInt8.ofNat (value.length / 256)
          :: (value ++ encodeAttrs attrs).take m := by
      rw [hm]
      rfl
    rw [htake]
    simp only [ne_eq, not_true_eq_false, if_false, u16le_length hvalue, List.length_take, hlen]
    by_cases hbody : n < pre.length + 3 + value.length
    · rw [if_pos (by omega), if_neg (by omega)]
    rw [if_neg (by omega)]
    -- the walk goes on behind this attribute
    have hassoc : pre ++ encodeAttrs ((id, value) :: attrs)
        = (pre ++ encodeAttr id value) ++ encodeAttrs attrs := by
      rw [encodeAttrs_cons, List.append_assoc]
    have hpre' : (pre ++ encodeAttr id value).length = pre.length + 3 + value.length := by
      rw [List.length_append, length_encodeAttr]
      omega
    have hnext := ih hrest (pre ++ encodeAttr id value) (by omega)
    rw [hpre', ← hassoc, hlen] at hnext
    exact hnext

variable {ids : List UInt8} {command : UInt8} {r : Request}

/-- **What the walk ends in is made of the expected attributes.** -/
theorem encodeAttrs_of_attributesEnd {cursor : Nat}
    (h : attributesEnd data ids cursor = .ok (some data.length)) :
    ∃ attrs, attrs.map Prod.fst = ids ∧ Sized attrs ∧ data.drop cursor = encodeAttrs attrs := by
  induction ids generalizing cursor with
  | nil =>
    simp only [attributesEnd, Except.ok.injEq, Option.some.injEq] at h
    exact ⟨[], rfl, by simp [Sized], by simp [h, encodeAttrs]⟩
  | cons expected ids ih =>
    rw [attributesEnd] at h
    split at h
    case h_2 => exact absurd h (by simp)
    case h_1 attrId lo hi rest hdata =>
      split_ifs at h with hid hlen
      · exact absurd h (by simp)
      obtain ⟨attrs, hids, hsized, hattrs⟩ := ih h
      rw [ne_eq, not_not] at hid
      have hsize : u16le lo hi < 65536 := by
        have hlo := lo.toNat_lt
        have hhi := hi.toNat_lt
        unfold u16le
        omega
      have hrest : rest.length = data.length - cursor - 3 := by
        have hl := congrArg List.length hdata
        simp only [List.length_drop, List.length_cons] at hl
        omega
      have hvalue : (rest.take (u16le lo hi)).length = u16le lo hi := by
        rw [List.length_take]
        omega
      have htail : rest.drop (u16le lo hi) = encodeAttrs attrs := by
        rw [← hattrs, Nat.add_assoc, ← List.drop_drop, hdata, Nat.add_comm 3]
        rfl
      have hlo : UInt8.ofNat (u16le lo hi % 256) = lo := by
        apply UInt8.toNat_inj.mp
        have := lo.toNat_lt
        rw [toNat_ofNat_of_lt (by omega)]
        unfold u16le
        omega
      have hhi : UInt8.ofNat (u16le lo hi / 256) = hi := by
        apply UInt8.toNat_inj.mp
        have := lo.toNat_lt
        rw [toNat_ofNat_of_lt (by omega)]
        unfold u16le
        omega
      refine ⟨(expected, rest.take (u16le lo hi)) :: attrs, by simp [hids], ?_, ?_⟩
      · intro a ha
        rcases List.mem_cons.mp ha with rfl | ha
        · show (rest.take (u16le lo hi)).length < 65536
          omega
        · exact hsized a ha
      · rw [encodeAttrs_cons, encodeAttr, hvalue, hlo, hhi, hdata, hid, ← htail]
        simp

/-! ## The length of a response -/

/-- The bytes of a start of a response, behind its command. -/
theorem take_cons_append {n : Nat} (hn : 0 < n) (command : UInt8) (ident rest : Bytes) :
    ((command :: ident) ++ rest).take n = command :: (ident ++ rest).take (n - 1) := by
  obtain ⟨m, rfl⟩ : ∃ m, n = m + 1 := ⟨n - 1, by omega⟩
  rfl

theorem notificationId_length {b₀ b₁ b₂ b₃ : UInt8} {uid : Nat}
    (hids : attrs.map Prod.fst = ids) (hsized : Sized attrs)
    (hcommand : command = CommandID.getNotificationAttributes) (hid : u32le b₀ b₁ b₂ b₃ = uid)
    (n : Nat) : completeLength
        { command, attributeIds := ids, notificationId := some uid
          buffer := ([command, b₀, b₁, b₂, b₃] ++ encodeAttrs attrs).take n }
      = if ([command, b₀, b₁, b₂, b₃] ++ encodeAttrs attrs).length ≤ n
        then .ok (some ([command, b₀, b₁, b₂, b₃] ++ encodeAttrs attrs).length) else .ok none := by
  have hwalk := attributesEnd_take hsized [command, b₀, b₁, b₂, b₃] n
  rw [hids] at hwalk
  by_cases hn : n < 5
  · -- the id is not complete yet
    rw [if_neg (by simp; omega)]
    have hcases : n = 0 ∨ n = 1 ∨ n = 2 ∨ n = 3 ∨ n = 4 := by omega
    rcases hcases with rfl | rfl | rfl | rfl | rfl <;>
      simp [completeLength, hcommand]
  obtain ⟨m, rfl⟩ : ∃ m, n = m + 5 := ⟨n - 5, by omega⟩
  rw [← hwalk (by simp)]
  simp only [completeLength, List.cons_append, List.nil_append, List.take_succ_cons, hcommand, hid]
  simp [CommandID.getNotificationAttributes]

theorem appId_length {name : Bytes} {appId : Str}
    (hids : attrs.map Prod.fst = ids) (hsized : Sized attrs)
    (hcommand : command = CommandID.getAppAttributes) (hzero : (0 : UInt8) ∉ name)
    (hname : decodeReplace name = appId) (n : Nat) : completeLength
        { command, attributeIds := ids, appId := some appId
          buffer := (command :: (name ++ [0]) ++ encodeAttrs attrs).take n }
      = if (command :: (name ++ [0]) ++ encodeAttrs attrs).length ≤ n
        then .ok (some (command :: (name ++ [0]) ++ encodeAttrs attrs).length) else .ok none := by
  have hwalk := attributesEnd_take hsized (command :: (name ++ [0])) n
  rw [hids] at hwalk
  by_cases hn0 : n = 0
  · subst hn0
    rw [if_neg (by simp)]
    rfl
  have htake := take_cons_append (by omega : 0 < n) command (name ++ [0]) (encodeAttrs attrs)
  by_cases hn : n < name.length + 2
  · -- the NUL is not there yet
    have hmiss : (0 : UInt8) ∉ ((name ++ [0]) ++ encodeAttrs attrs).take (n - 1) := by
      rw [List.append_assoc, List.take_append_of_le_length (by omega)]
      exact fun hmem => hzero (List.mem_of_mem_take hmem)
    rw [if_neg (by simp; omega), htake]
    simp only [completeLength, hcommand, hmiss]
    simp [CommandID.getAppAttributes, CommandID.getNotificationAttributes]
  have hhave : ((name ++ [0]) ++ encodeAttrs attrs).take (n - 1)
      = name ++ 0 :: (encodeAttrs attrs).take (n - 1 - (name.length + 1)) := by
    rw [List.take_append, List.take_of_length_le (by simp; omega)]
    simp
  have hwhile := (dropWhile_append_nul hzero
    ((encodeAttrs attrs).take (n - 1 - (name.length + 1)))).1
  have hnul : (0 : UInt8) ∈ name ++ 0 :: (encodeAttrs attrs).take (n - 1 - (name.length + 1)) := by
    simp
  have hpos : 1 + name.length + 1 = (command :: (name ++ [0])).length := by
    simp only [List.length_cons, List.length_append, List.length_nil]
    omega
  rw [← hwalk (by simp; omega), htake, hhave]
  simp only [completeLength, hcommand, hwhile, hname, hnul, not_true_eq_false, if_false]
  rw [hcommand] at hpos
  rw [hpos]
  simp [CommandID.getAppAttributes, CommandID.getNotificationAttributes]

/-- **The end of a response is found as soon as it is there, and not before.** -/
theorem completeLength_take {response : Bytes} (h : WellFormed r ident attrs response)
    (n : Nat) : (r.assembler (response.take n)).completeLength
      = if response.length ≤ n then .ok (some response.length) else .ok none := by
  obtain ⟨hident, hids, hsized, rfl⟩ := h
  cases r with
  | appIdentifier uid | attributes uid labels =>
    obtain ⟨b₀, b₁, b₂, b₃, rfl, hid⟩ := hident
    exact notificationId_length hids hsized rfl hid n
  | appAttributes appId =>
    obtain ⟨name, rfl, hzero, hname⟩ := hident
    exact appId_length hids hsized rfl hzero hname n

/-! ## Feeding packets -/

/-- What `feed` returns for one packet after the other. -/
def feedAll (a : DataSourceAssembler) : List Bytes → List (Except AssemblyError (Option Bytes))
  | [] => []
  | packet :: packets => (a.feed packet).2 :: feedAll (a.feed packet).1 packets

theorem feed_fst (r : Request) (buffer fragment : Bytes) :
    ((r.assembler buffer).feed fragment).1 = r.assembler (buffer ++ fragment) := rfl

theorem feed_snd_eq (r : Request) (buffer fragment : Bytes) :
    ((r.assembler buffer).feed fragment).2 = (r.assembler (buffer ++ fragment)).received := rfl

/-- One packet of a well-formed response within the limit. -/
theorem feed_snd {response : Bytes} (h : WellFormed r ident attrs response)
    (hmax : response.length ≤ maxDataSourceResponse) {fragment rest : Bytes}
    (heq : buffer ++ fragment ++ rest = response) : ((r.assembler buffer).feed fragment).2
      = if rest = [] then .ok (some response) else .ok none := by
  have hlen : (buffer ++ fragment).length + rest.length = response.length := by
    simp only [← heq, List.length_append]
  have htake : buffer ++ fragment = response.take (buffer ++ fragment).length := by
    rw [← heq, List.take_left]
  have hcomplete := completeLength_take h (buffer ++ fragment).length
  rw [← htake] at hcomplete
  rw [feed_snd_eq, received, hcomplete, if_neg]
  · by_cases hrest : rest = []
    · subst hrest
      rw [List.append_nil] at heq
      simp [heq, Request.assembler]
    · have hpos : 0 < rest.length := List.length_pos_iff.mpr hrest
      rw [if_neg (by omega), if_neg hrest]
  · show ¬ maxDataSourceResponse < (buffer ++ fragment).length
    omega

/-- **Fragmentation does not matter.** Every split of a well-formed response within the limit into
packets that are not empty gives nothing before the last packet, and the response with it. -/
theorem feedAll_of_wellFormed {response : Bytes}
    (h : WellFormed r ident attrs response) (hmax : response.length ≤ maxDataSourceResponse)
    {packets : List Bytes} (hpackets : ∀ p ∈ packets, p ≠ []) (hne : packets ≠ [])
    (heq : buffer ++ packets.flatten = response) : feedAll (r.assembler buffer) packets
      = List.replicate (packets.length - 1) (.ok none) ++ [.ok (some response)] := by
  induction packets generalizing buffer with
  | nil => exact absurd rfl hne
  | cons p ps ih =>
    have hsplit : buffer ++ p ++ ps.flatten = response := by
      rw [← heq, List.flatten_cons, List.append_assoc]
    rw [feedAll, feed_fst, feed_snd h hmax hsplit]
    by_cases hps : ps = []
    · subst hps
      rfl
    have hflat : ps.flatten ≠ [] := by
      obtain ⟨q, qs, rfl⟩ := List.exists_cons_of_ne_nil hps
      rw [List.flatten_cons]
      intro hnil
      exact hpackets q (by simp) (List.append_eq_nil_iff.mp hnil).1
    have hrest := ih (fun q hq => hpackets q (.tail _ hq)) hps hsplit
    have hlen : (p :: ps).length - 1 = (ps.length - 1) + 1 := by
      have hpos := List.length_pos_iff.mpr hps
      simp only [List.length_cons]
      omega
    rw [if_neg hflat, hrest, hlen, List.replicate_succ]
    rfl

/-! ## What is handed out -/

/-- A complete response to a notification request, taken apart. -/
theorem exists_of_notification_complete {uid : Nat}
    (hcommand : command = CommandID.getNotificationAttributes)
    (h : completeLength { command, attributeIds := ids, notificationId := some uid, buffer }
      = .ok (some buffer.length)) :
    ∃ b₀ b₁ b₂ b₃ attrs, u32le b₀ b₁ b₂ b₃ = uid ∧ attrs.map Prod.fst = ids ∧ Sized attrs
      ∧ buffer = (command :: [b₀, b₁, b₂, b₃]) ++ encodeAttrs attrs := by
  unfold completeLength at h
  split at h
  case h_1 => exact absurd h (by simp)
  case h_2 first rest hbuffer =>
    subst hbuffer
    split_ifs at h with hfirst
    rw [ne_eq, not_not] at hfirst
    split at h
    case h_2 => exact absurd h (by simp)
    case h_1 _ b₀ b₁ b₂ b₃ rest' =>
      split_ifs at h with hid
      obtain ⟨attrs, hids, hsized, hattrs⟩ := encodeAttrs_of_attributesEnd h
      have huid : uid = u32le b₀ b₁ b₂ b₃ := by simpa using hid
      refine ⟨b₀, b₁, b₂, b₃, attrs, huid.symm, hids, hsized, ?_⟩
      rw [← hattrs]
      rw [show first = command from hfirst]
      rfl

/-- A complete response to an app request, taken apart. -/
theorem exists_of_app_complete {appId : Str} (hcommand : command = CommandID.getAppAttributes)
    (h : completeLength { command, attributeIds := ids, appId := some appId, buffer }
      = .ok (some buffer.length)) :
    ∃ name attrs, (0 : UInt8) ∉ name ∧ decodeReplace name = appId ∧ attrs.map Prod.fst = ids
      ∧ Sized attrs ∧ buffer = (command :: (name ++ [0])) ++ encodeAttrs attrs := by
  unfold completeLength at h
  split at h
  case h_1 => exact absurd h (by simp)
  case h_2 first rest hbuffer =>
    subst hbuffer
    have hne : ¬ CommandID.getAppAttributes = CommandID.getNotificationAttributes := by decide
    subst hcommand
    simp only [hne, if_true, if_false] at h
    split_ifs at h with hfirst hnul happ
    swap
    · exact absurd h (by simp)
    rw [ne_eq, not_not] at hfirst
    obtain ⟨attrs, hids, hsized, hattrs⟩ := encodeAttrs_of_attributesEnd h
    obtain ⟨name, tail, rfl, hzero⟩ := List.eq_append_cons_of_mem hnul
    have hname := (dropWhile_append_nul hzero tail).1
    rw [hname] at hattrs happ
    have hdecode : appId = decodeReplace name := by simpa using happ
    have htail : (first :: (name ++ 0 :: tail)).drop (1 + name.length + 1) = tail := by
      rw [show 1 + name.length + 1 = name.length + 1 + 1 by omega, List.drop_succ_cons,
        List.drop_append]
      simp
    refine ⟨name, attrs, hzero, hdecode.symm, hids, hsized, ?_⟩
    rw [← hattrs, htail, ← hfirst]
    simp

theorem wellFormed_of_completeLength
    (h : (r.assembler buffer).completeLength = .ok (some buffer.length)) :
    ∃ ident attrs, WellFormed r ident attrs buffer := by
  cases r with
  | appIdentifier uid | attributes uid labels =>
    obtain ⟨b₀, b₁, b₂, b₃, attrs, hid, hids, hsized, heq⟩ := exists_of_notification_complete rfl h
    exact ⟨_, attrs, ⟨b₀, b₁, b₂, b₃, rfl, hid⟩, hids, hsized, heq⟩
  | appAttributes appId =>
    obtain ⟨name, attrs, hzero, hname, hids, hsized, heq⟩ := exists_of_app_complete rfl h
    exact ⟨_, attrs, ⟨name, rfl, hzero, hname⟩, hids, hsized, heq⟩

/-- **What is handed out is well formed.** -/
theorem wellFormed_of_feed {fragment : Bytes}
    (h : ((r.assembler buffer).feed fragment).2 = .ok (some data)) :
    ∃ ident attrs, WellFormed r ident attrs data := by
  rw [feed_snd_eq, received] at h
  split_ifs at h
  split at h
  · exact absurd h (by simp)
  · exact absurd h (by simp)
  rename_i length hlength
  split_ifs at h with heq
  rw [ne_eq, not_not] at heq
  rw [Except.ok.injEq, Option.some.injEq] at h
  subst h
  rw [← heq] at hlength
  exact wellFormed_of_completeLength hlength

end DataSourceAssembler

/-! ## The parsers accept what is well formed -/

theorem parseAttrString_encodeAttr (id : UInt8) {value : Bytes} (h : value.length < 65536)
    (rest : Bytes) : parseAttrString (encodeAttr id value ++ rest) = .ok (decodeReplace value, rest) := by
  simp only [parseAttrString, encodeAttr, List.cons_append, u16le_length h]
  rw [if_neg (by simp), List.take_left, List.drop_left]

theorem parseAttrString_encodeAttrs {id : UInt8} {value : Bytes}
    (h : Sized ((id, value) :: attrs)) :
    parseAttrString (encodeAttrs ((id, value) :: attrs)) = .ok (decodeReplace value, encodeAttrs attrs) := by
  rw [encodeAttrs_cons, parseAttrString_encodeAttr id (h (id, value) (.head _))]

theorem Sized.tail {a : UInt8 × Bytes} (h : Sized (a :: attrs)) :
    Sized attrs := fun b hb => h b (List.mem_cons_of_mem _ hb)

/-- The loop over the labels reads every label that was asked for, and nothing is left. -/
theorem parseLabels_encodeAttrs (hsized : Sized attrs)
    (hsupported : ∀ a ∈ attrs, a.1 ∈ actionLabelAttributeIds) (hnodup : (attrs.map Prod.fst).Nodup)
    {labels : List (UInt8 × Str)} (hlabels : ∀ a ∈ attrs, (labels.lookup a.1).isSome = false) :
    ∃ labels', parseLabels (attrs.map Prod.fst) labels (encodeAttrs attrs) = .ok (labels', []) := by
  induction attrs generalizing labels with
  | nil => exact ⟨labels, rfl⟩
  | cons a attrs ih =>
    obtain ⟨id, value⟩ := a
    rw [List.map_cons, List.nodup_cons] at hnodup
    have hid := hsupported (id, value) (.head _)
    have hnew := hlabels (id, value) (.head _)
    have hhead : (encodeAttrs ((id, value) :: attrs)).head? = some id := by
      rw [encodeAttrs_cons, encodeAttr]
      rfl
    -- the labels that are left are other labels than this one
    have hrest : ∀ b ∈ attrs,
        (((id, cleanActionLabel (decodeReplace value)) :: labels).lookup b.1).isSome = false := by
      intro b hb
      have hne : (b.1 == id) = false := by
        rw [beq_eq_false_iff_ne]
        rintro rfl
        exact hnodup.1 (List.mem_map.mpr ⟨b, hb, rfl⟩)
      rw [List.lookup_cons, hne]
      exact hlabels b (.tail _ hb)
    obtain ⟨labels', hparse⟩ := ih hsized.tail
      (fun b hb => hsupported b (.tail _ hb)) hnodup.2 hrest
    refine ⟨labels', ?_⟩
    rw [List.map_cons, parseLabels, if_neg, if_neg, parseAttrString_encodeAttrs hsized]
    · exact hparse
    · simp [hhead]
    · simp [hid, hnew]

/-- **What is well formed is accepted by the parser of its request.** -/
theorem accepted_of_wellFormed {r : Request} (h : WellFormed r ident attrs data) :
    r.Accepted data := by
  obtain ⟨hident, hids, hsized, rfl⟩ := h
  refine ⟨ident ++ encodeAttrs attrs, rfl, ?_⟩
  cases r with
  | appIdentifier uid =>
    obtain ⟨b₀, b₁, b₂, b₃, rfl, rfl⟩ := hident
    obtain ⟨⟨id, value⟩, rfl, -⟩ := List.map_eq_singleton_iff.mp hids
    have hlen : ¬ (([b₀, b₁, b₂, b₃] ++ encodeAttrs [(id, value)] : Bytes)).length < 7 := by
      simp only [List.length_append, encodeAttrs_cons, length_encodeAttr, List.length_cons]
      omega
    refine ⟨decodeReplace value, ?_⟩
    unfold parseNotificationAppIdentifier
    rw [if_neg hlen]
    simp only [List.cons_append, List.nil_append, parseAttrString_encodeAttrs hsized]
    rfl
  | attributes uid labels =>
    obtain ⟨b₀, b₁, b₂, b₃, rfl, rfl⟩ := hident
    obtain ⟨⟨id₀, app⟩, attrs, rfl, -, hids⟩ := List.map_eq_cons_iff.mp hids
    obtain ⟨⟨id₁, title⟩, attrs, rfl, -, hids⟩ := List.map_eq_cons_iff.mp hids
    obtain ⟨⟨id₂, subtitle⟩, attrs, rfl, -, hids⟩ := List.map_eq_cons_iff.mp hids
    obtain ⟨⟨id₃, message⟩, attrs, rfl, -, hids⟩ := List.map_eq_cons_iff.mp hids
    have hids' : attrs.map Prod.fst = labels.ids := hids
    obtain ⟨read, hlabels⟩ := parseLabels_encodeAttrs hsized.tail.tail.tail.tail
      (fun a ha => labels.supported a.1 (hids' ▸ List.mem_map_of_mem ha))
      (hids' ▸ labels.nodup) (by simp : ∀ a ∈ attrs, ([].lookup a.1).isSome = false)
    rw [hids'] at hlabels
    refine ⟨{
      id := u32le b₀ b₁ b₂ b₃, appId := decodeReplace app, title := decodeReplace title
      subtitle := decodeReplace subtitle, message := decodeReplace message
      positiveActionLabel := (read.lookup NotificationAttributeID.positiveActionLabel).getD []
      negativeActionLabel := (read.lookup NotificationAttributeID.negativeActionLabel).getD [] },
      ?_, rfl⟩
    simp only [NotificationAttributes.parse, List.cons_append, List.nil_append, bind, Except.bind,
      parseAttrString_encodeAttrs hsized, parseAttrString_encodeAttrs hsized.tail,
      parseAttrString_encodeAttrs hsized.tail.tail,
      parseAttrString_encodeAttrs hsized.tail.tail.tail, hlabels]
    rfl
  | appAttributes appId =>
    obtain ⟨name, rfl, hzero, rfl⟩ := hident
    obtain ⟨⟨id, value⟩, rfl, -⟩ := List.map_eq_singleton_iff.mp hids
    have hvalue : value.length < 65536 := hsized (id, value) (.head _)
    have hbody : (name ++ [0]) ++ encodeAttrs [(id, value)] = name ++ 0 :: encodeAttr id value := by
      simp [encodeAttrs]
    have hparts := dropWhile_append_nul hzero (encodeAttr id value)
    refine ⟨{ appId := decodeReplace name, appName := decodeReplace value }, ?_, rfl⟩
    rw [hbody, AppAttributes.parse, if_neg (by simp), hparts.1, hparts.2]
    simp only [encodeAttr, u16le_length hvalue, List.take_length, ne_eq, not_true_eq_false, if_false]

/-! ## Fragmentation -/

/-- Everything the assembler of a request ever hands out is accepted by the request's parser. -/
theorem accepted_of_mem_feedAll {r : Request} {packets : List Bytes}
    (h : .ok (some data) ∈ (r.assembler buffer).feedAll packets) : r.Accepted data := by
  induction packets generalizing buffer with
  | nil => exact absurd h (by simp [DataSourceAssembler.feedAll])
  | cons p ps ih =>
    rw [DataSourceAssembler.feedAll, List.mem_cons] at h
    rcases h with h | h
    · obtain ⟨ident, attrs, hdata⟩ := DataSourceAssembler.wellFormed_of_feed h.symm
      exact accepted_of_wellFormed hdata
    rw [DataSourceAssembler.feed_fst] at h
    exact ih h

/-- **The assembler is independent of fragmentation.** For each request of the client, every
well-formed response within the size limit and every split of it into packets that are not empty,
nothing is returned before the last packet and the whole response with it; and whatever packets
arrive, a buffer that is returned as complete is accepted by the parser of the request with the
notification id or app identifier that was asked for. -/
theorem assembler_fragmentation (r : Request) :
    (∀ ident attrs response packets, WellFormed r ident attrs response →
        response.length ≤ maxDataSourceResponse → (∀ p ∈ packets, p ≠ []) →
        packets.flatten = response →
        (r.assembler []).feedAll packets
          = List.replicate (packets.length - 1) (.ok none) ++ [.ok (some response)])
      ∧ ∀ packets buffer, .ok (some buffer) ∈ (r.assembler []).feedAll packets →
          r.Accepted buffer := by
  constructor
  · intro ident attrs response packets h hmax hpackets hflat
    have hne : packets ≠ [] := by
      rintro rfl
      have heq := h.eq
      rw [← hflat] at heq
      exact absurd heq (by simp)
    exact DataSourceAssembler.feedAll_of_wellFormed h hmax hpackets hne hflat
  · intro packets buffer hbuffer
    exact accepted_of_mem_feedAll hbuffer

theorem assembler_fragmentation_probe :
    ((Request.appIdentifier 7).assembler []).feedAll [[0, 7], [0, 0, 0, 0], [1], [0, 97]]
      = [.ok none, .ok none, .ok none, .ok (some [0, 7, 0, 0, 0, 0, 1, 0, 97])] :=
  (assembler_fragmentation (.appIdentifier 7)).1 [7, 0, 0, 0] [(0, [97])] _ _
    ⟨⟨7, 0, 0, 0, rfl, rfl⟩, rfl, by decide, rfl⟩ (by decide) (by decide) rfl

/-- An app identifier of the greatest length makes a well-formed response that is refused. -/
theorem assembler_refuses_long_response :
    ∃ ident attrs response, WellFormed (.appIdentifier 7) ident attrs response
      ∧ ((Request.appIdentifier 7).assembler []).feedAll [response] = [.error .tooLarge] := by
  have hlen : (List.replicate 65535 (97 : UInt8)).length = 65535 := List.length_replicate
  generalize List.replicate 65535 (97 : UInt8) = value at hlen
  have hsized : Sized [(NotificationAttributeID.appIdentifier, value)] := by
    intro a ha
    rw [List.mem_singleton.mp ha]
    show value.length < 65536
    omega
  refine ⟨[7, 0, 0, 0], [(NotificationAttributeID.appIdentifier, value)], _,
    ⟨⟨7, 0, 0, 0, rfl, by decide⟩, rfl, hsized, rfl⟩, ?_⟩
  rw [DataSourceAssembler.feedAll, DataSourceAssembler.feed_snd_eq, DataSourceAssembler.received,
    if_pos]
  · rfl
  · simp only [Request.assembler, encodeAttrs_cons, List.length_append, length_encodeAttr,
      List.length_cons, maxDataSourceResponse]
    omega

end BlueFerry.Ancs
