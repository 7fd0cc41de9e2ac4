import Mathlib.Data.List.Sort
import BlueFerry.Text.CaseMapping
import BlueFerry.Obex.Recipients

/-! # Addresses as identities

`canonicalAddress` (`events.py`) gives a safe messaging address its typed identity: a phone
number by its digits, an email address by its folded spelling, a short code as it is. Display
names have none. Thread and group keys are built from these identities; the spelling a message
is sent to is kept beside them.
-/

namespace BlueFerry.Groups

open BlueFerry.Text
open BlueFerry.Recipients

/-! ## Sorting, as Python's `sorted` does it -/

/-- `sorted(values, key=key)`: stable, by code points. -/
def sortedBy {α : Type} (key : α → Str) (values : List α) : List α :=
  values.insertionSort (fun a b => key a ≤ key b)

/-- `sorted(values)` of strings. -/
def sorted (values : List Str) : List Str := sortedBy id values

@[simp]
theorem mem_sortedBy {α : Type} {key : α → Str} {values : List α} {a : α} :
    a ∈ sortedBy key values ↔ a ∈ values :=
  (List.perm_insertionSort _ values).mem_iff

@[simp]
theorem mem_sorted {values : List Str} {a : Str} : a ∈ sorted values ↔ a ∈ values := mem_sortedBy

/-! ## The shapes of an address -/

/-- `_PHONE_SHAPED`: `[+0-9(][0-9 ()\-.+]*`. -/
def phoneShapedText (s : Str) : Bool :=
  match s with
  | [] => false
  | c :: rest =>
    (isDigit c || c ∈ "+(".toList) && rest.all (fun c => isDigit c || c ∈ " ()-.+".toList)

/-- `normalize_phone`. -/
def normalizePhone (raw : Str) : Option Str :=
  if phoneShapedText (strip raw) then
    let digits := raw.filter isDigit
    if 7 ≤ digits.length then some digits else none
  else none

/-- `is_phone_shaped`. -/
def isPhoneShaped (raw : Str) : Bool := phoneShapedText (strip raw)

/-- `_EMAIL_SHAPED`: neither side may hold an at sign, so the first one divides them. -/
def emailShapedText (s : Str) : Bool :=
  let parts := partition '@' s
  '@' ∈ s && !parts.1.isEmpty && parts.1.all emailLocalChar
    && parts.2.all domainChar && parts.2.head?.any alphanumeric && parts.2.getLast?.any alphanumeric

/-- `is_email_shaped`. -/
def isEmailShaped (raw : Str) : Bool := emailShapedText (strip raw)

/-- `_SHORT_CODE`: `[0-9]{3,6}`. -/
def shortCode (s : Str) : Bool := decide (3 ≤ s.length) && decide (s.length ≤ 6) && s.all isDigit

/-- `canonical_address`. -/
def canonicalAddress (raw : Str) : Option Str :=
  let value := strip raw
  match normalizePhone value with
  | some phone => some ("phone:".toList ++ phone)
  | none =>
    if isEmailShaped value then some ("email:".toList ++ casefold value)
    else if shortCode value then some ("short:".toList ++ value)
    else none

example : canonicalAddress "+1 (555) 123-4567".toList = canonicalAddress "15551234567".toList := by
  decide +kernel

theorem canonicalAddress_strip (a : Str) : canonicalAddress (strip a) = canonicalAddress a := by
  have hstrip : strip (strip a) = strip a := stripOf_stripOf isSpace a
  unfold canonicalAddress
  rw [hstrip]

/-! ## What is sent to

An address is normalised once for sending (`validate_recipient`) and once as an identity. The two
agree: a phone number keeps its digits, and an email address the spelling that is folded. -/

theorem phoneShapedText_no_at {s : Str} (h : '@' ∈ s) : phoneShapedText s = false := by
  cases s with
  | nil => rfl
  | cons c rest =>
    rcases List.mem_cons.mp h with rfl | h
    · rfl
    have hall : rest.all (fun c => isDigit c || c ∈ " ()-.+".toList) = false := by
      rw [List.all_eq_false]
      exact ⟨'@', h, by decide⟩
    simp only [phoneShapedText, hall, Bool.and_false]

/-- A phone number that can be sent to looks like one. -/
theorem phoneShapedText_of_phoneShaped {s : Str} (h : phoneShaped s = true) :
    phoneShapedText s = true := by
  have htail : ∀ rest : Str, rest.all phoneTail = true →
      rest.all (fun c => isDigit c || c ∈ " ()-.+".toList) = true := by
    intro rest hrest
    rw [List.all_eq_true] at hrest ⊢
    intro c hc
    have htail := hrest c hc
    simp only [phoneTail, Bool.or_eq_true, decide_eq_true_eq] at htail ⊢
    rcases htail with hdigit | hmark
    · exact Or.inl hdigit
    refine Or.inr ?_
    have hsub : ∀ d ∈ " ()-.".toList, d ∈ " ()-.+".toList := forall_of_all (by decide)
    exact hsub c hmark
  unfold phoneShaped at h
  split at h
  · cases h
  next d rest hs =>
    simp only [Bool.and_eq_true] at h
    obtain ⟨⟨⟨hd, -⟩, -⟩, hrest⟩ := h
    by_cases hplus : s.head? = some '+'
    · rw [if_pos hplus] at hs
      cases s with
      | nil => cases hs
      | cons c t =>
        obtain rfl : t = d :: rest := hs
        obtain rfl : c = '+' := Option.some.inj hplus
        simp only [phoneShapedText, List.all_cons, hd, htail rest hrest]
        rfl
    · rw [if_neg hplus] at hs
      rw [hs]
      simp only [phoneShapedText, hd, htail rest hrest, Bool.true_or, Bool.and_self]

theorem casefold_toLower {s : Str} (h : ∀ c ∈ s, domainChar c = true) :
    casefold (s.map Char.toLower) = casefold s := by
  induction s with
  | nil => rfl
  | cons c s ih =>
    have hc := h c (.head _)
    have hlower := toLower_domainChar hc
    rw [List.map_cons, casefold_cons, casefold_cons, ih (fun d hd => h d (List.mem_cons_of_mem c hd)),
      casefoldChar_ascii (domainChar_lt hc), casefoldChar_ascii (addressChar_lt hlower.1),
      hlower.2.2.1]

/-- An email address keeps its identity when its domain is lower-cased. -/
theorem canonicalAddress_toLower {local' domain : Str} (hlocal : '@' ∉ local')
    (hdomain : ∀ c ∈ domain, domainChar c = true) {identity : Str}
    (hstrip : strip (local' ++ '@' :: domain) = local' ++ '@' :: domain)
    (hstrip' : strip (local' ++ '@' :: domain.map Char.toLower) =
      local' ++ '@' :: domain.map Char.toLower)
    (h : canonicalAddress (local' ++ '@' :: domain) = some identity) :
    canonicalAddress (local' ++ '@' :: domain.map Char.toLower) = some identity := by
  have hphone : ∀ d : Str, strip (local' ++ '@' :: d) = local' ++ '@' :: d →
      normalizePhone (local' ++ '@' :: d) = none := by
    intro d hd
    unfold normalizePhone
    rw [hd, phoneShapedText_no_at (by simp)]
    rfl
  have hshort : ∀ d : Str, shortCode (local' ++ '@' :: d) = false := by
    intro d
    have hall : (local' ++ '@' :: d).all isDigit = false :=
      List.all_eq_false.mpr ⟨'@', by simp, by decide⟩
    simp only [shortCode, hall, Bool.and_false]
  simp only [canonicalAddress, hstrip, hphone domain hstrip, hshort, isEmailShaped] at h
  simp only [canonicalAddress, hstrip', hphone _ hstrip', hshort, isEmailShaped]
  by_cases hshape : emailShapedText (local' ++ '@' :: domain) = true
  · rw [if_pos hshape, Option.some.injEq] at h
    have hlower : emailShapedText (local' ++ '@' :: domain.map Char.toLower) = true := by
      simp only [emailShapedText, partition_append hlocal, Bool.and_eq_true, List.all_eq_true,
        List.head?_map, List.getLast?_map, Option.any_map] at hshape ⊢
      obtain ⟨⟨⟨⟨⟨-, hne⟩, hchars⟩, -⟩, hhead⟩, hlast⟩ := hshape
      refine ⟨⟨⟨⟨⟨by simp, hne⟩, hchars⟩, ?_⟩, ?_⟩, ?_⟩
      · intro c hc
        obtain ⟨d, hd, rfl⟩ := List.mem_map.mp hc
        have hlower := toLower_domainChar (hdomain d hd)
        by_cases hdot : d = '.'
        · rw [hdot]
          decide
        · simp only [domainChar, hlower.2.2.2.2.1 hdot, Bool.true_or]
      · obtain ⟨d, hd, halpha⟩ := (Option.any_eq_true _ _).mp hhead
        exact (Option.any_eq_true _ _).mpr ⟨d, hd,
          (toLower_domainChar (hdomain d (List.mem_of_mem_head? hd))).2.2.2.2.2 halpha⟩
      · obtain ⟨d, hd, halpha⟩ := (Option.any_eq_true _ _).mp hlast
        exact (Option.any_eq_true _ _).mpr ⟨d, hd,
          (toLower_domainChar (hdomain d (List.mem_of_mem_getLast? hd))).2.2.2.2.2 halpha⟩
    have hfold : casefold (local' ++ '@' :: domain.map Char.toLower) =
        casefold (local' ++ '@' :: domain) := by
      unfold casefold
      rw [List.flatMap_append, List.flatMap_append, List.flatMap_cons, List.flatMap_cons]
      congr 2
      exact casefold_toLower hdomain
    rw [if_pos hlower, hfold, h]
  · rw [if_neg hshape, if_neg Bool.false_ne_true] at h
    cases h

/-- A phone number keeps its identity when its separators go. -/
theorem canonicalAddress_digits {value identity : Str} (hshape : phoneShaped value = true)
    (hlength : 0 < (value.filter isDigit).length) (hstrip : strip value = value)
    (hstrip' : strip ((if value.head? = some '+' then ['+'] else []) ++ value.filter isDigit) =
      (if value.head? = some '+' then ['+'] else []) ++ value.filter isDigit)
    (h : canonicalAddress value = some identity) :
    canonicalAddress ((if value.head? = some '+' then ['+'] else []) ++ value.filter isDigit) =
      some identity := by
  generalize hsent : (if value.head? = some '+' then ['+'] else []) ++ value.filter isDigit = sent
    at hstrip' ⊢
  have hdigits : sent.filter isDigit = value.filter isDigit := by
    have hplus : (if value.head? = some '+' then ['+'] else []).filter isDigit = [] := by
      split <;> decide
    rw [← hsent, List.filter_append, hplus, List.filter_filter]
    simp
  have hphone : normalizePhone sent = normalizePhone value := by
    have hsentShape : phoneShapedText sent = true := by
      obtain ⟨d, rest, hrest⟩ := List.exists_cons_of_length_pos hlength
      have hall : ∀ c ∈ d :: rest, isDigit c = true :=
        fun c hc => (List.mem_filter.mp (hrest ▸ hc)).2
      have hd := hall d (.head _)
      have htail : rest.all (fun c => isDigit c || c ∈ " ()-.+".toList) = true := by
        rw [List.all_eq_true]
        exact fun c hc => by rw [hall c (List.mem_cons_of_mem d hc), Bool.true_or]
      rw [← hsent, hrest]
      split
      · simp only [phoneShapedText, List.cons_append, List.nil_append, List.all_cons, hd, htail]
        rfl
      · simp only [phoneShapedText, List.nil_append, hd, htail, Bool.true_or, Bool.and_self]
    simp only [normalizePhone, hstrip, hstrip', hsentShape, phoneShapedText_of_phoneShaped hshape,
      hdigits]
  -- a number that is too short for a phone number is a short code, which has no separators
  cases hvalue : normalizePhone value with
  | some phone =>
    simp only [canonicalAddress, hstrip, hvalue] at h
    simp only [canonicalAddress, hstrip', hphone, hvalue]
    exact h
  | none =>
    have hemail : isEmailShaped value = false := by
      rw [isEmailShaped, hstrip]
      by_cases hat : '@' ∈ value
      · exact absurd hshape (by rw [phoneShaped_no_at hat]; exact Bool.false_ne_true)
      · simp only [emailShapedText, hat, decide_false, Bool.false_and]
    have hsame : shortCode value = true → sent = value := by
      intro hcode
      simp only [shortCode, Bool.and_eq_true, decide_eq_true_eq] at hcode
      have hfilter : value.filter isDigit = value :=
        List.filter_eq_self.mpr (List.all_eq_true.mp hcode.2)
      have hplus : value.head? ≠ some '+' := by
        intro hhead
        have hdigit := List.all_eq_true.mp hcode.2 '+' (List.mem_of_mem_head? hhead)
        exact absurd hdigit (by decide)
      rw [← hsent, hfilter, if_neg hplus, List.nil_append]
    by_cases hcode : shortCode value = true
    · rw [hsame hcode]
      exact h
    · simp [canonicalAddress, hstrip, hvalue, hemail, hcode] at h

/-- **An address that is normalised for sending keeps its identity**, and is not changed again. -/
theorem validation_keeps_identity {r n : Str} (h : validateRecipient r = .ok n) :
    validateRecipient n = .ok n ∧
      ∀ identity, canonicalAddress r = some identity → canonicalAddress n = some identity := by
  refine ⟨validateRecipient_idem h, fun identity hidentity => ?_⟩
  have hstrip : strip n = n := stripped_of_addressChars (addressChar_of_validateRecipient h)
  have hstrip' : strip (strip r) = strip r := stripOf_stripOf isSpace r
  rw [← canonicalAddress_strip] at hidentity
  generalize hvalue : strip r = value at hidentity hstrip'
  unfold validateRecipient at h
  rw [hvalue] at h
  dsimp only at h
  by_cases hshape : phoneShaped value = true
  · rw [if_pos hshape] at h
    split at h
    · next hlength =>
      obtain rfl := Except.ok.inj h
      exact canonicalAddress_digits hshape (by omega) hstrip' hstrip hidentity
    · cases h
  rw [if_neg hshape] at h
  split at h
  · next email hemail =>
    obtain rfl := Except.ok.inj h
    obtain ⟨local', domain, rfl, rfl, -, hcount, hparts⟩ := normalizeEmail_eq_some.mp hemail
    have hlocal : '@' ∉ local' := by
      rw [← List.count_eq_zero]
      rw [List.count_append, List.count_cons_self] at hcount
      omega
    exact canonicalAddress_toLower hlocal (domainChar_of_parts hparts) hstrip' hstrip hidentity
  · cases h

/-- The domain is lower-cased, and the address is the same one. -/
theorem validation_keeps_identity_mail :
    validateRecipient "Ann@Mail.Example".toList = .ok "Ann@mail.example".toList ∧
      canonicalAddress "Ann@mail.example".toList = canonicalAddress "Ann@Mail.Example".toList := by
  have hvalid : validateRecipient "Ann@Mail.Example".toList = .ok "Ann@mail.example".toList := by
    decide +kernel
  have hidentity : canonicalAddress "Ann@Mail.Example".toList =
      some "email:ann@mail.example".toList := by decide +kernel
  exact ⟨hvalid, ((validation_keeps_identity hvalid).2 _ hidentity).trans hidentity.symm⟩

/-! ## Senders spelled on a keypad -/

/-- `_KEYPAD`: the digit a capital letter is typed with. -/
def keypad (c : Char) : Char :=
  match ("ABCDEFGHIJKLMNOPQRSTUVWXYZ".toList.zip "22233344455566677778889999".toList).lookup c with
  | some d => d
  | none => c

/-- `spelled_on_keypad`. -/
def spelledOnKeypad (name senderAddress : Str) : Bool :=
  let spelled := (name.filter alphanumeric).map Char.toUpper
  spelled.any isLetter && spelled.map keypad == senderAddress

example : spelledOnKeypad "mbna".toList "6262".toList = true := by decide +kernel

end BlueFerry.Groups
