import BlueFerry.Text.Lines

/-! # Recipient addresses

`validateRecipient` is the only way an address reaches an outgoing message
(`recipients.py`). It accepts a plain phone number or a conservative ASCII email address and
returns the normalised form; the regular expressions of the source are the predicates
`phoneShaped`, `emailLocal` and `emailDomainLabel`.

The two facts the message builder rests on are that an accepted address is a fixed point
(`validateRecipient_idem`) and holds no line break (`noBreak_of_validateRecipient`).
-/

namespace BlueFerry.Recipients

open BlueFerry.Text

/-- Why a recipient list is refused. The first two carry the candidate their message quotes. -/
inductive InvalidRecipient where
  /-- `implausible phone-number length: …` -/
  | implausibleLength (candidate : Str)
  /-- `not a valid phone number or email address: …` -/
  | notAnAddress (candidate : Str)
  /-- `a group message requires 2 to 20 recipients` -/
  | groupSize
  /-- `group recipients must be unique` -/
  | notUnique
  deriving DecidableEq

/-! ## The accepted shapes -/

def phoneTail (c : Char) : Bool := isDigit c || c ∈ " ()-.".toList

/-- `_PHONE_RE`: `\+?[0-9][0-9 ()\-.]{2,29}`. -/
def phoneShaped (s : Str) : Bool :=
  match (if s.head? = some '+' then s.tail else s) with
  | [] => false
  | d :: rest =>
    isDigit d && decide (2 ≤ rest.length) && decide (rest.length ≤ 29) && rest.all phoneTail

def alphanumeric (c : Char) : Bool := isLetter c || isDigit c

def emailLocalChar (c : Char) : Bool :=
  alphanumeric c || c ∈ "!#$%&'*+/=?^_`\x7b|\x7d~.-".toList

/-- `_EMAIL_LOCAL_RE`. -/
def emailLocal (s : Str) : Bool := !s.isEmpty && s.all emailLocalChar

/-- `_EMAIL_DOMAIN_LABEL_RE`: 1 to 63 letters, digits and hyphens, no hyphen at either end. -/
def emailDomainLabel (s : Str) : Bool :=
  decide (s.length ≤ 63) && s.all (fun c => alphanumeric c || c == '-')
    && (s.head?.any alphanumeric) && (s.getLast?.any alphanumeric)

/-- The checks of `_normalize_email` on the two sides of the at sign. -/
structure EmailParts (local' domain : Str) : Prop where
  local_ne : local' ≠ []
  local_len : local'.length ≤ 64
  domain_ne : domain ≠ []
  domain_len : domain.length ≤ 253
  no_dot_start : local'.head? ≠ some '.'
  no_dot_end : local'.getLast? ≠ some '.'
  no_dots : ¬ ['.', '.'] <:+: local'
  local_chars : emailLocal local' = true
  labels : ∀ label ∈ splitChar '.' domain, emailDomainLabel label = true

instance (local' domain : Str) : Decidable (EmailParts local' domain) :=
  decidable_of_iff
    (local' ≠ [] ∧ local'.length ≤ 64 ∧ domain ≠ [] ∧ domain.length ≤ 253
      ∧ local'.head? ≠ some '.' ∧ local'.getLast? ≠ some '.' ∧ ¬ ['.', '.'] <:+: local'
      ∧ emailLocal local' = true ∧ ∀ label ∈ splitChar '.' domain, emailDomainLabel label = true)
    ⟨fun ⟨h₁, h₂, h₃, h₄, h₅, h₆, h₇, h₈, h₉⟩ => ⟨h₁, h₂, h₃, h₄, h₅, h₆, h₇, h₈, h₉⟩,
      fun ⟨h₁, h₂, h₃, h₄, h₅, h₆, h₇, h₈, h₉⟩ => ⟨h₁, h₂, h₃, h₄, h₅, h₆, h₇, h₈, h₉⟩⟩

/-- `_normalize_email`. -/
def normalizeEmail (candidate : Str) : Option Str :=
  if 254 < candidate.length ∨ candidate.count '@' ≠ 1 then none
  else
    let parts := partition '@' candidate
    if EmailParts parts.1 parts.2 then some (parts.1 ++ '@' :: parts.2.map Char.toLower)
    else none

/-- `validate_recipient`. -/
def validateRecipient (recipient : Str) : Except InvalidRecipient Str :=
  let candidate := strip recipient
  if phoneShaped candidate then
    let digits := candidate.filter isDigit
    if 3 ≤ digits.length ∧ digits.length ≤ 20 then
      .ok ((if candidate.head? = some '+' then ['+'] else []) ++ digits)
    else .error (.implausibleLength candidate)
  else
    match normalizeEmail candidate with
    | some email => .ok email
    | none => .error (.notAnAddress candidate)

/-! ## Accepted addresses -/

/-- The characters of a normalised address: printable ASCII. -/
def addressChar (c : Char) : Bool := 33 ≤ c.toNat && c.toNat ≤ 126

variable {c : Char} {s n r : Str}

theorem addressChar_lt (h : addressChar c = true) : c.toNat < 128 := by
  simp only [addressChar, Bool.and_eq_true, decide_eq_true_eq] at h
  omega

theorem not_space_of_addressChar (h : addressChar c = true) : isSpace c = false :=
  ascii_cases (p := fun c => addressChar c = true → isSpace c = false) (by decide)
    (addressChar_lt h) h

theorem not_break_of_addressChar (h : addressChar c = true) : isLineBreak c = false :=
  ascii_cases (p := fun c => addressChar c = true → isLineBreak c = false) (by decide)
    (addressChar_lt h) h

theorem isDigit_lt (h : isDigit c = true) : c.toNat < 128 := by
  simp only [isDigit, Bool.and_eq_true, decide_eq_true_eq] at h
  omega

theorem addressChar_of_isDigit (h : isDigit c = true) : addressChar c = true :=
  ascii_cases (p := fun c => isDigit c = true → addressChar c = true) (by decide)
    (isDigit_lt h) h

theorem alphanumeric_lt (h : alphanumeric c = true) : c.toNat < 128 := by
  simp only [alphanumeric, isLetter, isDigit, Bool.or_eq_true, Bool.and_eq_true,
    decide_eq_true_eq] at h
  omega

theorem emailLocalChar_lt (h : emailLocalChar c = true) : c.toNat < 128 := by
  simp only [emailLocalChar, Bool.or_eq_true, decide_eq_true_eq] at h
  rcases h with h | h
  · exact alphanumeric_lt h
  have hlt : ∀ d ∈ "!#$%&'*+/=?^_`\x7b|\x7d~.-".toList, d.toNat < 128 :=
    forall_of_all (by decide)
  exact hlt c h

theorem emailLocalChar_spec (h : emailLocalChar c = true) : addressChar c = true ∧ c ≠ '@' :=
  ascii_cases (p := fun c => emailLocalChar c = true → addressChar c = true ∧ c ≠ '@')
    (by decide +kernel) (emailLocalChar_lt h) h

theorem stripped_of_addressChars (h : ∀ c ∈ s, addressChar c = true) : strip s = s :=
  stripOf_eq_self
    (fun c hc => not_space_of_addressChar (h c (List.mem_of_mem_head? hc)))
    (fun c hc => not_space_of_addressChar (h c (List.mem_of_mem_getLast? hc)))

/-! ### Phone numbers -/

/-- The digits of an accepted phone number, behind its plus sign, are accepted unchanged. -/
theorem validateRecipient_digits (plus : Bool) {digits : Str}
    (hd : ∀ c ∈ digits, isDigit c = true) (h3 : 3 ≤ digits.length) (h20 : digits.length ≤ 20) :
    validateRecipient ((if plus then ['+'] else []) ++ digits)
      = .ok ((if plus then ['+'] else []) ++ digits) := by
  set n := (if plus then ['+'] else []) ++ digits with hn
  have hstrip : strip n = n := by
    refine stripped_of_addressChars (fun c hc => ?_)
    rw [hn, List.mem_append] at hc
    rcases hc with hc | hc
    · cases plus <;> simp at hc
      rw [hc]
      decide
    · exact addressChar_of_isDigit (hd c hc)
  have hfilter : digits.filter isDigit = digits := List.filter_eq_self.mpr hd
  obtain ⟨d, rest, rfl⟩ : ∃ d rest, digits = d :: rest := by
    cases digits with
    | nil => simp at h3
    | cons d rest => exact ⟨d, rest, rfl⟩
  have hdig : isDigit d = true := hd d (.head _)
  have hd' : d ≠ '+' := by
    rintro rfl
    exact absurd hdig (by decide)
  have hrest : rest.all phoneTail = true := by
    rw [List.all_eq_true]
    intro c hc
    simp [phoneTail, hd c (List.mem_cons_of_mem _ hc)]
  have hshape : phoneShaped n = true := by
    have hlen : 2 ≤ rest.length ∧ rest.length ≤ 29 := by
      rw [List.length_cons] at h3 h20
      omega
    cases plus <;> simp [hn, phoneShaped, hd', hdig, hrest, hlen]
  have hdigits : n.filter isDigit = d :: rest := by
    rw [hn, List.filter_append, hfilter]
    cases plus <;> rfl
  have hhead : (if n.head? = some '+' then ['+'] else []) = (if plus then ['+'] else []) := by
    cases plus <;> simp [hn, hd']
  simp only [validateRecipient, hstrip, hshape, if_true, hdigits, hhead]
  rw [if_pos ⟨h3, h20⟩, hn]

/-! ### Email addresses -/

/-- What `normalizeEmail` has checked when it returns an address. -/
theorem normalizeEmail_eq_some :
    normalizeEmail s = some n ↔ ∃ local' domain : Str, s = local' ++ '@' :: domain
      ∧ n = local' ++ '@' :: domain.map Char.toLower
      ∧ s.length ≤ 254 ∧ s.count '@' = 1 ∧ EmailParts local' domain := by
  constructor
  · intro h
    unfold normalizeEmail at h
    by_cases h₁ : 254 < s.length ∨ s.count '@' ≠ 1
    · simp [h₁] at h
    rw [if_neg h₁] at h
    obtain ⟨hlen, hcount⟩ : s.length ≤ 254 ∧ s.count '@' = 1 := by
      simpa only [not_or, not_lt, not_not] using h₁
    by_cases h₂ : EmailParts (partition '@' s).1 (partition '@' s).2
    · rw [if_pos h₂] at h
      obtain ⟨before, after, rfl⟩ := List.append_of_mem (List.count_pos_iff.mp (by omega : 0 < s.count '@'))
      have hnot : '@' ∉ before := by
        rw [← List.count_eq_zero]
        rw [List.count_append, List.count_cons_self] at hcount
        omega
      rw [partition_append hnot] at h h₂
      exact ⟨before, after, rfl, (Option.some.inj h).symm, hlen, hcount, h₂⟩
    · simp [h₂] at h
  · rintro ⟨local', domain, rfl, rfl, hlen, hcount, hparts⟩
    have hnot : '@' ∉ local' := by
      rw [← List.count_eq_zero]
      rw [List.count_append, List.count_cons_self] at hcount
      omega
    rw [normalizeEmail, if_neg (by omega), partition_append hnot, if_pos hparts]

/-- The characters of an accepted domain. -/
def domainChar (c : Char) : Bool := alphanumeric c || c == '-' || c == '.'

theorem domainChar_lt (h : domainChar c = true) : c.toNat < 128 := by
  simp only [domainChar, Bool.or_eq_true, beq_iff_eq] at h
  rcases h with (h | rfl) | rfl
  · exact alphanumeric_lt h
  · decide
  · decide

/-- Lower-casing an accepted domain keeps its shape. -/
theorem toLower_domainChar (h : domainChar c = true) :
    addressChar c.toLower = true ∧ c.toLower ≠ '@' ∧ c.toLower.toLower = c.toLower
      ∧ (c.toLower = '.' ↔ c = '.') ∧ (c ≠ '.' → (alphanumeric c.toLower || c.toLower == '-') = true)
      ∧ (alphanumeric c = true → alphanumeric c.toLower = true) :=
  ascii_cases (p := fun c => domainChar c = true →
      addressChar c.toLower = true ∧ c.toLower ≠ '@' ∧ c.toLower.toLower = c.toLower
      ∧ (c.toLower = '.' ↔ c = '.') ∧ (c ≠ '.' → (alphanumeric c.toLower || c.toLower == '-') = true)
      ∧ (alphanumeric c = true → alphanumeric c.toLower = true))
    (by decide +kernel) (domainChar_lt h) h

theorem domainChar_of_label {label : Str} (h : emailDomainLabel label = true)
    (hc : c ∈ label) : domainChar c = true ∧ c ≠ '.' := by
  simp only [emailDomainLabel, Bool.and_eq_true, List.all_eq_true] at h
  have hclass := h.1.1.2 c hc
  refine ⟨by simp only [domainChar, hclass, Bool.true_or], ?_⟩
  rintro rfl
  exact absurd hclass (by decide)

theorem domainChar_of_parts {local' domain : Str} (h : EmailParts local' domain) :
    ∀ c ∈ domain, domainChar c = true := by
  intro c hc
  rcases mem_splitChar '.' hc with rfl | ⟨label, hl, hcl⟩
  · decide
  · exact (domainChar_of_label (h.labels label hl) hcl).1

theorem emailDomainLabel_toLower {label : Str} (h : emailDomainLabel label = true) :
    emailDomainLabel (label.map Char.toLower) = true := by
  have hchars : ∀ c ∈ label, domainChar c = true ∧ c ≠ '.' := fun c hc => domainChar_of_label h hc
  simp only [emailDomainLabel, Bool.and_eq_true, decide_eq_true_eq, List.all_eq_true,
    List.length_map, List.head?_map, List.getLast?_map, Option.any_map] at h ⊢
  obtain ⟨⟨⟨hlen, -⟩, hhead⟩, hlast⟩ := h
  refine ⟨⟨⟨hlen, ?_⟩, ?_⟩, ?_⟩
  · intro c hc
    obtain ⟨d, hd, rfl⟩ := List.mem_map.mp hc
    exact (toLower_domainChar (hchars d hd).1).2.2.2.2.1 (hchars d hd).2
  · obtain ⟨d, hd, hda⟩ := (Option.any_eq_true _ _).mp hhead
    exact (Option.any_eq_true _ _).mpr ⟨d, hd,
      (toLower_domainChar (hchars d (List.mem_of_mem_head? hd)).1).2.2.2.2.2 hda⟩
  · obtain ⟨d, hd, hda⟩ := (Option.any_eq_true _ _).mp hlast
    exact (Option.any_eq_true _ _).mpr ⟨d, hd,
      (toLower_domainChar (hchars d (List.mem_of_mem_getLast? hd)).1).2.2.2.2.2 hda⟩

/-- The checks pass again on the lower-cased domain. -/
theorem EmailParts.toLower {local' domain : Str} (h : EmailParts local' domain) :
    EmailParts local' (domain.map Char.toLower) where
  local_ne := h.local_ne
  local_len := h.local_len
  domain_ne := by simpa using h.domain_ne
  domain_len := by simpa using h.domain_len
  no_dot_start := h.no_dot_start
  no_dot_end := h.no_dot_end
  no_dots := h.no_dots
  local_chars := h.local_chars
  labels := by
    intro label hl
    rw [splitChar_map (fun c hc => (toLower_domainChar (domainChar_of_parts h c hc)).2.2.2.1)] at hl
    obtain ⟨m, hm, rfl⟩ := List.mem_map.mp hl
    exact emailDomainLabel_toLower (h.labels m hm)

/-- The characters of a normalised email address. -/
theorem addressChar_of_normalizeEmail (h : normalizeEmail s = some n) :
    ∀ c ∈ n, addressChar c = true := by
  obtain ⟨local', domain, -, rfl, -, -, hparts⟩ := normalizeEmail_eq_some.mp h
  intro c hc
  rw [List.mem_append, List.mem_cons] at hc
  rcases hc with hc | rfl | hc
  · have hlocal := hparts.local_chars
    simp only [emailLocal, Bool.and_eq_true, List.all_eq_true] at hlocal
    exact (emailLocalChar_spec (hlocal.2 c hc)).1
  · decide
  · obtain ⟨d, hd, rfl⟩ := List.mem_map.mp hc
    exact (toLower_domainChar (domainChar_of_parts hparts d hd)).1

theorem normalizeEmail_idem (h : normalizeEmail s = some n) : normalizeEmail n = some n := by
  obtain ⟨local', domain, rfl, rfl, hlen, hcount, hparts⟩ := normalizeEmail_eq_some.mp h
  have hdomain := domainChar_of_parts hparts
  refine normalizeEmail_eq_some.mpr
    ⟨local', domain.map Char.toLower, rfl, ?_, ?_, ?_, hparts.toLower⟩
  · congr 2
    rw [List.map_map]
    refine (List.map_congr_left (fun c hc => ?_)).symm
    exact (toLower_domainChar (hdomain c hc)).2.2.1
  · simpa using hlen
  have hzero : (domain.map Char.toLower).count '@' = 0 := by
    rw [List.count_eq_zero]
    intro hmem
    obtain ⟨d, hd, hat⟩ := List.mem_map.mp hmem
    exact (toLower_domainChar (hdomain d hd)).2.1 hat
  rw [List.count_append, List.count_cons_self] at hcount ⊢
  omega

theorem phoneShaped_no_at (h : '@' ∈ s) : phoneShaped s = false := by
  unfold phoneShaped
  split
  · rfl
  next d rest hs =>
    have hin : '@' ∈ d :: rest := by
      by_cases hplus : s.head? = some '+'
      · rw [if_pos hplus] at hs
        cases s with
        | nil => cases h
        | cons c t =>
          obtain rfl : t = d :: rest := hs
          rcases List.mem_cons.mp h with rfl | h
          · exact absurd hplus (by simp)
          · exact h
      · rw [if_neg hplus] at hs
        rwa [hs] at h
    rcases List.mem_cons.mp hin with rfl | hin
    · rfl
    have hall : rest.all phoneTail = false := by
      rw [List.all_eq_false]
      exact ⟨'@', hin, by decide⟩
    simp [hall]

/-- The two kinds of normalised address. -/
theorem validateRecipient_eq_ok (h : validateRecipient r = .ok n) :
    (∃ (plus : Bool) (digits : Str), n = (if plus then ['+'] else []) ++ digits
      ∧ (∀ c ∈ digits, isDigit c = true) ∧ 3 ≤ digits.length ∧ digits.length ≤ 20)
    ∨ ∃ s, normalizeEmail s = some n := by
  unfold validateRecipient at h
  by_cases hp : phoneShaped (strip r) = true
  · simp only [hp, if_true] at h
    by_cases hlen : 3 ≤ ((strip r).filter isDigit).length ∧ ((strip r).filter isDigit).length ≤ 20
    · rw [if_pos hlen, Except.ok.injEq] at h
      refine Or.inl ⟨decide ((strip r).head? = some '+'), (strip r).filter isDigit, ?_,
        fun c hc => (List.mem_filter.mp hc).2, hlen⟩
      simpa using h.symm
    · simp [hlen] at h
  simp only [hp] at h
  cases he : normalizeEmail (strip r) with
  | none => simp [he] at h
  | some email =>
    simp only [he] at h
    obtain rfl : email = n := by simpa using h
    exact Or.inr ⟨_, he⟩

/-- **A normalised address is printable ASCII**, so it cannot end a line. -/
theorem addressChar_of_validateRecipient (h : validateRecipient r = .ok n) :
    ∀ c ∈ n, addressChar c = true := by
  rcases validateRecipient_eq_ok h with ⟨plus, digits, rfl, hd, -, -⟩ | ⟨s, hs⟩
  · intro c hc
    rcases List.mem_append.mp hc with hc | hc
    · cases plus <;> simp at hc
      rw [hc]
      decide
    · exact addressChar_of_isDigit (hd c hc)
  · exact addressChar_of_normalizeEmail hs

/-- **Validation is idempotent**: what it returns, it accepts and leaves as it is. -/
theorem validateRecipient_idem (h : validateRecipient r = .ok n) : validateRecipient n = .ok n := by
  have hstrip : strip n = n := stripped_of_addressChars (addressChar_of_validateRecipient h)
  rcases validateRecipient_eq_ok h with ⟨plus, digits, rfl, hd, h3, h20⟩ | ⟨s, hs⟩
  · exact validateRecipient_digits plus hd h3 h20
  have hidem := normalizeEmail_idem hs
  have hat : phoneShaped n = false := by
    obtain ⟨local', domain, -, rfl, -⟩ := normalizeEmail_eq_some.mp hs
    exact phoneShaped_no_at (by simp)
  simp only [validateRecipient, hstrip, hat, hidem]
  rfl

theorem noBreak_of_validateRecipient (h : validateRecipient r = .ok n) : NoBreak n :=
  fun c hc => not_break_of_addressChar (addressChar_of_validateRecipient h c hc)

end BlueFerry.Recipients
