import BlueFerry.Contacts.Details

/-! # When a card can be kept

The parse goes over the lines of a card with a limit for each kind of line, so a line counts only until
its limit is reached by those before it that gave something (`Reads`). What it raises on are values that
a codec cannot decode. What it returns is always within the limits of `from_storage`, so it reads back
as it was (`fromStorage_toStorage`), and it can be stored unless a lone surrogate is in it
(`encodable_toStorage`).

So a card can be kept if and only if the lines that count decode, and decode to whole strings
(`card_is_safe_iff`).
-/

namespace BlueFerry.Contacts

open BlueFerry.Text
open BlueFerry.Text.Points (Whole whole_ofStr)

/-! ## What can be encoded -/

mutual

/-- The strings of a value, which its JSON text holds as they are (`ensure_ascii=False`). -/
def Stored.strings : Stored → List Points
  | .str s => [s]
  | .list items => stringsOfItems items
  | .object items => stringsOfFields items
  | .other => []

def stringsOfItems : List Stored → List Points
  | [] => []
  | item :: items => item.strings ++ stringsOfItems items

def stringsOfFields : List (String × Stored) → List Points
  | [] => []
  | (_, value) :: items => value.strings ++ stringsOfFields items

end

/-- The JSON text of the value can be encoded as UTF-8. -/
def Encodable (value : Stored) : Prop := ∀ s ∈ value.strings, Whole s

def LabeledValue.Encodable (item : LabeledValue) : Prop :=
  Whole item.label ∧ Whole item.value

def PostalAddress.Encodable (item : PostalAddress) : Prop :=
  Whole item.label ∧ ∀ field ∈ item.fields, Whole field

/-- No string of the details holds a lone surrogate. -/
structure ContactDetails.Encodable (d : ContactDetails) : Prop where
  phones : ∀ item ∈ d.phones, item.Encodable ∧ Whole item.number
  emails : ∀ item ∈ d.emails, item.Encodable
  addresses : ∀ item ∈ d.addresses, item.Encodable
  organization : Whole d.organization
  title : Whole d.title

theorem mem_stringsOfItems {items : List Stored} {s : Points} :
    s ∈ stringsOfItems items ↔ ∃ item ∈ items, s ∈ item.strings := by
  induction items with
  | nil => simp [stringsOfItems]
  | cons item items ih => simp [stringsOfItems, ih]

theorem stringsOfFields_append (items items' : List (String × Stored)) :
    stringsOfFields (items ++ items') = stringsOfFields items ++ stringsOfFields items' := by
  induction items with
  | nil => rfl
  | cons item items ih => rw [List.cons_append, stringsOfFields, ih, stringsOfFields, List.append_assoc]

theorem strings_rowOf (parts : List Points) : (rowOf parts).strings = parts := by
  rw [rowOf, Stored.strings]
  induction parts with
  | nil => rfl
  | cons part parts ih =>
    rw [List.map_cons, stringsOfItems, ih]
    rfl

variable {α : Type}

theorem encodable_rows (name : String) (items : List α) (row : α → List Points) :
    (∀ s ∈ stringsOfFields (fieldOf name items (.list (items.map (fun item => rowOf (row item))))),
        Whole s) ↔ ∀ item ∈ items, ∀ s ∈ row item, Whole s := by
  have hstrings : ∀ s, s ∈ stringsOfItems (items.map (fun item => rowOf (row item))) ↔
      ∃ item ∈ items, s ∈ row item := by
    intro s
    rw [mem_stringsOfItems]
    constructor
    · rintro ⟨value, hvalue, hs⟩
      obtain ⟨item, hitem, rfl⟩ := List.mem_map.mp hvalue
      exact ⟨item, hitem, by rwa [strings_rowOf] at hs⟩
    · rintro ⟨item, hitem, hs⟩
      exact ⟨_, List.mem_map_of_mem hitem, by rwa [strings_rowOf]⟩
  cases items with
  | nil => simp [fieldOf, stringsOfFields]
  | cons item items =>
    have hfield : stringsOfFields (fieldOf name (item :: items)
        (.list ((item :: items).map (fun item => rowOf (row item))))) =
        stringsOfItems ((item :: items).map (fun item => rowOf (row item))) := by
      simp [fieldOf, stringsOfFields, Stored.strings]
    rw [hfield]
    constructor
    · exact fun h found hfound s hs => h s ((hstrings s).mpr ⟨found, hfound, hs⟩)
    · intro h s hs
      obtain ⟨found, hfound, hs⟩ := (hstrings s).mp hs
      exact h found hfound s hs

theorem encodable_text (name : String) (s : Points) :
    (∀ t ∈ stringsOfFields (fieldOf name s (.str s)), Whole t) ↔ Whole s := by
  cases s with
  | nil => simp [fieldOf, stringsOfFields, Whole]
  | cons point s => simp [fieldOf, stringsOfFields, Stored.strings]

/-- **Details can be stored unless they hold a lone surrogate.** -/
theorem encodable_toStorage (d : ContactDetails) : Encodable d.toStorage ↔ d.Encodable := by
  unfold Encodable ContactDetails.toStorage
  rw [Stored.strings]
  simp only [stringsOfFields_append, List.forall_mem_append, encodable_rows, encodable_text]
  have hkind : ∀ kind : Kind, Whole (Points.ofStr kind.text) := fun kind => whole_ofStr kind.text
  simp only [List.forall_mem_cons, hkind, true_and, List.not_mem_nil, false_implies, implies_true,
    and_true]
  constructor
  · rintro ⟨⟨⟨⟨hphones, hemails⟩, haddresses⟩, horganization⟩, htitle⟩
    refine ⟨fun item hitem => ?_, hemails, haddresses, horganization, htitle⟩
    obtain ⟨hlabel, hvalue, hnumber⟩ := hphones item hitem
    exact ⟨⟨hlabel, hvalue⟩, hnumber⟩
  rintro ⟨hphones, hemails, haddresses, horganization, htitle⟩
  refine ⟨⟨⟨⟨fun item hitem => ?_, hemails⟩, haddresses⟩, horganization⟩, htitle⟩
  obtain ⟨⟨hlabel, hvalue⟩, hnumber⟩ := hphones item hitem
  exact ⟨hlabel, hvalue, hnumber⟩

/-! ## What is stored reads back as it was -/

/-- What `from_storage` asks of a label. -/
def Labelled (kinds : List Kind) (kind : Kind) (label : Points) : Prop :=
  kind ∈ kinds ∧ label.length ≤ maxContactLabelChars

def LabeledValue.PhoneChecked (item : LabeledValue) : Prop :=
  Labelled phoneKinds item.kind item.label ∧ (item.value ≠ [] ∧
    item.value.length ≤ maxContactAddressChars) ∧ item.number.length ≤ maxContactAddressChars

def LabeledValue.EmailChecked (item : LabeledValue) : Prop :=
  Labelled emailKinds item.kind item.label ∧ (item.value.length ≤ maxContactAddressChars ∧
    emailShaped item.value = true) ∧ item.number = []

def PostalAddress.Checked (item : PostalAddress) : Prop :=
  Labelled addressKinds item.kind item.label ∧
    (item.fields.length = postalFields ∧ item.fields.all List.isEmpty = false) ∧
    ∀ field ∈ item.fields, field.length ≤ maxContactDetailChars

/-- Details within the limits of storage. -/
structure ContactDetails.Checked (d : ContactDetails) : Prop where
  phones : d.phones.length ≤ maxContactAddressesPerCard ∧ ∀ item ∈ d.phones, item.PhoneChecked
  emails : d.emails.length ≤ maxContactAddressesPerCard ∧ ∀ item ∈ d.emails, item.EmailChecked
  addresses : d.addresses.length ≤ maxContactPostalAddressesPerCard ∧
    ∀ item ∈ d.addresses, item.Checked
  organization : d.organization.length ≤ maxContactDetailChars
  title : d.title.length ≤ maxContactDetailChars

theorem kindOf_text {kinds : List Kind} {kind : Kind} (h : kind ∈ kinds) :
    kindOf kinds (.ofStr kind.text) = some kind := by
  have hall : ∀ k : Kind, k ∈ phoneKinds := by
    intro k
    cases k <;> decide
  have hinj : ∀ k ∈ phoneKinds, ∀ k' ∈ phoneKinds, Points.ofStr k.text = Points.ofStr k'.text → k = k' := by
    decide
  unfold kindOf
  cases hfind : kinds.find? (fun k => decide (Points.ofStr k.text = Points.ofStr kind.text)) with
  | none =>
    have hnone := List.find?_eq_none.mp hfind kind h
    simp at hnone
  | some k =>
    have hk := List.find?_some hfind
    rw [hinj k (hall k) kind (hall kind) (of_decide_eq_true hk)]

theorem storedPhone_row {item : LabeledValue} (h : item.PhoneChecked) :
    storedPhone [.ofStr item.kind.text, item.label, item.value, item.number] = some item := by
  obtain ⟨⟨hkind, hlabel⟩, ⟨hvalue, hlen⟩, hnumber⟩ := h
  rw [storedPhone, kindOf_text hkind, Option.bind_some, if_neg (by simp [hvalue, hlen]),
    if_pos hnumber, List.take_of_length_le hlabel]

theorem storedEmail_row {item : LabeledValue} (h : item.EmailChecked) :
    storedEmail [.ofStr item.kind.text, item.label, item.value] = some item := by
  obtain ⟨⟨hkind, hlabel⟩, ⟨hlen, hshaped⟩, hnumber⟩ := h
  rw [storedEmail, kindOf_text hkind, Option.bind_some, if_neg (by simp [hlen, hshaped]),
    List.take_of_length_le hlabel]
  obtain ⟨kind, label, value, number⟩ := item
  dsimp only at hnumber ⊢
  rw [hnumber]

theorem storedAddress_row {item : PostalAddress} (h : item.Checked) :
    storedAddress (.ofStr item.kind.text :: item.label :: item.fields) = some item := by
  obtain ⟨⟨hkind, hlabel⟩, ⟨hlen, hsome⟩, hfields⟩ := h
  have hmap : item.fields.map (List.take maxContactDetailChars) = item.fields := by
    calc item.fields.map (List.take maxContactDetailChars)
        = item.fields.map id :=
          List.map_congr_left (fun field hf => List.take_of_length_le (hfields field hf))
      _ = item.fields := List.map_id _
  rw [storedAddress, if_neg (by simp [hlen]), kindOf_text hkind, Option.bind_some, hmap]
  dsimp only
  rw [hsome, if_neg Bool.false_ne_true, List.take_of_length_le hlabel]

theorem stringsOf_rowOf (parts : List Points) : stringsOf (rowOf parts) = some parts := by
  rw [rowOf, stringsOf]
  induction parts with
  | nil => rfl
  | cons part parts ih =>
    rw [List.map_cons, List.mapM_cons, ih]
    rfl

/-- Rows that are each read back are read back together. -/
theorem rows_read {items : List α} {row : α → List Points} {read : List Points → Option α}
    {maximum : Nat} {field : Option Stored} (hfield : field = if items.isEmpty then none
      else some (.list (items.map (fun item => rowOf (row item)))))
    (hlen : items.length ≤ maximum) (hread : ∀ item ∈ items, read (row item) = some item) :
    (rows field maximum).filterMap read = items := by
  subst hfield
  cases items with
  | nil => rfl
  | cons first items =>
    rw [List.isEmpty_cons, if_neg Bool.false_ne_true, rows, List.take_of_length_le (by simpa using hlen),
      List.filterMap_map]
    have hrows : (first :: items).filterMap (stringsOf ∘ fun item => rowOf (row item)) =
        (first :: items).map row := by
      rw [← List.filterMap_eq_map]
      apply List.filterMap_congr
      intro item _
      exact stringsOf_rowOf (row item)
    rw [hrows, List.filterMap_map]
    calc (first :: items).filterMap (read ∘ row)
        = (first :: items).filterMap some := List.filterMap_congr hread
      _ = first :: items := List.filterMap_some

theorem lookup_fieldOf (name : String) (items : List α) (value : Stored)
    (rest : List (String × Stored)) (hrest : rest.lookup name = none) :
    (fieldOf name items value ++ rest).lookup name = if items.isEmpty then none else some value := by
  unfold fieldOf
  cases items with
  | nil => simpa using hrest
  | cons item items => simp

theorem lookup_fieldOf_ne {name name' : String} (hne : name ≠ name') (items : List α)
    (value : Stored) (rest : List (String × Stored)) :
    (fieldOf name' items value ++ rest).lookup name = rest.lookup name := by
  unfold fieldOf
  cases items with
  | nil => rfl
  | cons item items =>
    rw [List.isEmpty_cons, if_neg Bool.false_ne_true, List.singleton_append, List.lookup_cons,
      beq_false_of_ne hne]

theorem text_field {s : Points} {field : Option Stored}
    (hfield : field = if s.isEmpty then none else some (.str s))
    (hlen : s.length ≤ maxContactDetailChars) : text field = s := by
  subst hfield
  cases s with
  | nil => rfl
  | cons point s => exact List.take_of_length_le hlen

variable {d : ContactDetails}

/-- **Details within the limits read back as they were.** -/
theorem fromStorage_toStorage (h : d.Checked) : fromStorage d.toStorage = d := by
  have hitems : d.toStorage = .object
      (fieldOf "phones" d.phones (.list (d.phones.map (fun item =>
          rowOf [.ofStr item.kind.text, item.label, item.value, item.number]))) ++
        (fieldOf "emails" d.emails (.list (d.emails.map (fun item =>
            rowOf [.ofStr item.kind.text, item.label, item.value]))) ++
          (fieldOf "addresses" d.addresses (.list (d.addresses.map (fun item =>
              rowOf (.ofStr item.kind.text :: item.label :: item.fields)))) ++
            (fieldOf "organization" d.organization (.str d.organization) ++
              (fieldOf "title" d.title (.str d.title) ++ []))))) := by
    unfold ContactDetails.toStorage
    simp only [List.append_assoc, List.append_nil]
  rw [hitems, fromStorage]
  obtain ⟨hphones, hemails, haddresses, horganization, htitle⟩ := h
  obtain ⟨phones, emails, addresses, organization, title⟩ := d
  rw [ContactDetails.mk.injEq]
  refine ⟨rows_read (lookup_fieldOf "phones" phones _ _ ?_) hphones.1
      (fun item hitem => storedPhone_row (hphones.2 item hitem)),
    rows_read ?_ hemails.1 (fun item hitem => storedEmail_row (hemails.2 item hitem)),
    rows_read ?_ haddresses.1 (fun item hitem => storedAddress_row (haddresses.2 item hitem)),
    text_field ?_ horganization, text_field ?_ htitle⟩
  · rw [lookup_fieldOf_ne (by decide), lookup_fieldOf_ne (by decide), lookup_fieldOf_ne (by decide),
      lookup_fieldOf_ne (by decide), List.lookup_nil]
  · rw [lookup_fieldOf_ne (by decide)]
    apply lookup_fieldOf
    rw [lookup_fieldOf_ne (by decide), lookup_fieldOf_ne (by decide), lookup_fieldOf_ne (by decide),
      List.lookup_nil]
  · rw [lookup_fieldOf_ne (by decide), lookup_fieldOf_ne (by decide)]
    apply lookup_fieldOf
    rw [lookup_fieldOf_ne (by decide), lookup_fieldOf_ne (by decide), List.lookup_nil]
  · rw [lookup_fieldOf_ne (by decide), lookup_fieldOf_ne (by decide), lookup_fieldOf_ne (by decide)]
    apply lookup_fieldOf
    rw [lookup_fieldOf_ne (by decide), List.lookup_nil]
  · rw [lookup_fieldOf_ne (by decide), lookup_fieldOf_ne (by decide), lookup_fieldOf_ne (by decide),
      lookup_fieldOf_ne (by decide)]
    exact lookup_fieldOf "title" title _ [] rfl

/-! ## What is read is within the limits -/

variable {p : Property}

section Read

variable {platform : Platform} {labels : Dict Str Label}

/-- The labels of a card are within the limit. -/
def LabelsChecked (labels : Dict Str Label) : Prop :=
  ∀ group label, labels.get? group = some label →
    label.2.1.length ≤ maxContactLabelChars ∧ label.2.2.length ≤ maxContactLabelChars

theorem appleLabel_checked (value : Points) :
    (appleLabel value).2.1.length ≤ maxContactLabelChars ∧
      (appleLabel value).2.2.length ≤ maxContactLabelChars := by
  have htake : ∀ s : Points, (s.take maxContactLabelChars).length ≤ maxContactLabelChars :=
    fun s => List.length_take_le _ s
  unfold appleLabel
  dsimp only
  split_ifs
  · split
    · exact ⟨Nat.zero_le _, htake _⟩
    · exact ⟨htake _, htake _⟩
  · exact ⟨htake _, htake _⟩

theorem labelled_checked (h : LabelsChecked labels) {kinds : List Kind} {kind : Kind}
    (hkind : kind ∈ kinds) (hcustom : Kind.custom ∈ kinds) (group : Str) :
    Labelled kinds (labelled kind group labels kinds).1 (labelled kind group labels kinds).2 := by
  unfold labelled
  split
  · rename_i labelKind label text hlabel
    have hget : labels.get? group = some (labelKind, label, text) := by
      by_cases hgroup : group = []
      · rw [if_pos hgroup] at hlabel
        nomatch hlabel
      · rwa [if_neg hgroup] at hlabel
    obtain ⟨hown, htext⟩ := h group _ hget
    by_cases hin : labelKind ∈ kinds
    · rw [if_pos hin]
      exact ⟨hin, hown⟩
    rw [if_neg hin]
    exact ⟨hcustom, htext⟩
  · exact ⟨hkind, Nat.zero_le _⟩

theorem phoneKind_mem (tokens : List Str) : phoneKind tokens ∈ phoneKinds := by
  unfold phoneKind
  split_ifs <;> decide

theorem placeKind_mem (tokens : List Str) : placeKind tokens ∈ emailKinds := by
  unfold placeKind
  split_ifs <;> decide

/-- The digits of a string, and the plus sign before them, are no more than it has characters. -/
theorem length_plus_digits (raw : Str) :
    ((if startsWith (strip raw) ['+'] then ['+'] else []) ++ raw.filter isDigit).length ≤
      raw.length := by
  rw [List.length_append]
  by_cases hplus : startsWith (strip raw) ['+'] = true
  · rw [if_pos hplus]
    have hmem : '+' ∈ raw := by
      have hin : '+' ∈ strip raw :=
        ((startsWith_iff _ _).mp hplus).subset (List.mem_singleton_self '+')
      exact (stripOf_within isSpace raw).subset hin
    have hlt : (raw.filter isDigit).length < raw.length :=
      List.length_filter_lt_length_iff_exists.mpr ⟨'+', hmem, by decide⟩
    rw [List.length_singleton]
    omega
  · rw [if_neg hplus]
    have hle := List.length_filter_le isDigit raw
    rw [List.length_nil]
    omega

/-- A slash is no digit, and neither is the space in its place. -/
theorem filter_slashes (raw : Str) :
    (raw.map (fun c => if c = '/' then ' ' else c)).filter isDigit = raw.filter isDigit := by
  induction raw with
  | nil => rfl
  | cons c raw ih =>
    rw [List.map_cons, List.filter_cons, List.filter_cons, ih]
    by_cases hslash : c = '/'
    · rw [if_pos hslash, hslash]
      rfl
    · rw [if_neg hslash]

theorem digits_of_spelling {raw digits : Str}
    (h : Groups.normalizePhone (phoneSpelling raw) = some digits) : digits = raw.filter isDigit := by
  unfold phoneSpelling at h
  by_cases hshaped : Groups.isPhoneShaped (raw.map (fun c => if c = '/' then ' ' else c)) = true
  · rw [if_pos hshaped] at h
    unfold Groups.normalizePhone at h
    dsimp only at h
    split_ifs at h
    rw [← Option.some.inj h, filter_slashes]
  · rw [if_neg hshaped] at h
    nomatch h

theorem length_contactPhone {raw number : Str} (h : contactPhone platform raw = some number) :
    number.length ≤ raw.length := by
  have hlen := length_plus_digits raw
  unfold contactPhone at h
  generalize (if startsWith (strip raw) ['+'] then ['+'] else []) = plus at h hlen
  split at h
  · rename_i digits hdigits
    rw [← Option.some.inj h]
    rw [digits_of_spelling hdigits]
    exact hlen
  · split_ifs at h with hnone
    rw [← Option.some.inj h]
    exact hlen

theorem length_chars? {s : Points} {cs : Str} (h : Points.chars? s = some cs) :
    cs.length = s.length := by
  rw [Points.ofStr_of_chars? h, Points.ofStr, List.length_map]

theorem length_numberOf (text : Points) : (numberOf platform text).length ≤ text.length := by
  unfold numberOf
  rw [Points.ofStr, List.length_map]
  cases hchars : Points.chars? text with
  | none => exact Nat.zero_le _
  | some cs =>
    rw [Option.bind_some, ← length_chars? hchars]
    cases hphone : contactPhone platform cs with
    | none => exact Nat.zero_le _
    | some number => exact length_contactPhone hphone

theorem telOf_checked (h : LabelsChecked labels) {item : LabeledValue}
    (hread : telOf platform labels p = some (some item)) : item.PhoneChecked := by
  obtain ⟨decoded, -, heq⟩ := Option.map_eq_some_iff.mp hread
  dsimp only at heq
  split_ifs at heq with hnone
  obtain ⟨hne, hlen⟩ := not_or.mp hnone
  rw [← Option.some.inj heq]
  refine ⟨labelled_checked h (phoneKind_mem _) (by decide) _, ⟨hne, not_lt.mp hlen⟩, ?_⟩
  exact le_trans (length_numberOf _) (not_lt.mp hlen)

theorem emailOf_checked (h : LabelsChecked labels) {item : LabeledValue}
    (hread : emailOf platform labels p = some (some item)) : item.EmailChecked := by
  obtain ⟨decoded, -, heq⟩ := Option.map_eq_some_iff.mp hread
  dsimp only at heq
  split_ifs at heq with hnone
  obtain ⟨hlen, hshaped⟩ := not_or.mp hnone
  rw [← Option.some.inj heq]
  exact ⟨labelled_checked h (placeKind_mem _) (by decide) _,
    ⟨not_lt.mp hlen, Bool.not_eq_false _ ▸ hshaped⟩, rfl⟩

theorem addressOf_checked (h : LabelsChecked labels) {item : PostalAddress}
    (hread : addressOf platform labels p = some (some item)) : item.Checked := by
  obtain ⟨decoded, -, heq⟩ := Option.map_eq_some_iff.mp hread
  dsimp only at heq
  split_ifs at heq with hnone
  rw [← Option.some.inj heq]
  refine ⟨labelled_checked h (placeKind_mem _) (by decide) _, ⟨?_, ?_⟩, ?_⟩
  · rw [List.length_take, List.length_append, List.length_replicate]
    omega
  · exact Bool.not_eq_true _ ▸ hnone
  intro field hfield
  rcases List.mem_append.mp (List.mem_of_mem_take hfield) with hpart | hfill
  · obtain ⟨part, -, rfl⟩ := List.mem_map.mp hpart
    exact List.length_take_le _ _
  rw [List.eq_of_mem_replicate hfill]
  exact Nat.zero_le _

theorem organizationOf_checked {s : Points} (hread : organizationOf platform p = some (some s)) :
    s ≠ [] ∧ s.length ≤ maxContactDetailChars := by
  obtain ⟨decoded, -, heq⟩ := Option.map_eq_some_iff.mp hread
  dsimp only at heq
  split_ifs at heq with hnone
  rw [← Option.some.inj heq]
  exact ⟨hnone, List.length_take_le _ _⟩

theorem titleOf_checked {s : Points} (hread : titleOf platform p = some (some s)) :
    s ≠ [] ∧ s.length ≤ maxContactDetailChars := by
  obtain ⟨decoded, -, heq⟩ := Option.map_eq_some_iff.mp hread
  dsimp only at heq
  split_ifs at heq with hnone
  rw [← Option.some.inj heq]
  exact ⟨hnone, List.length_take_le _ _⟩

end Read

/-! ## The lines that count -/

variable {lines : List Property}

section Count

variable {α : Type} {name : Str} {limit : Nat} {read : Property → Option (Option α)} {clean : α → Prop}

/-- The line is of this name and gives something. -/
def gives (name : Str) (read : Property → Option (Option α)) (p : Property) : Bool :=
  decide (p.name = name) && (read p).any Option.isSome

/-- Each line of this name decodes, to something clean if it gives anything, unless there are `limit`
before it that give something, `n` of them given. -/
def ReadsFrom (name : Str) (limit : Nat) (read : Property → Option (Option α)) (clean : α → Prop)
    (n : Nat) (lines : List Property) : Prop :=
  ∀ before p after, lines = before ++ p :: after → p.name = name →
    n + before.countP (gives name read) < limit →
      ∃ kept, read p = some kept ∧ ∀ item, kept = some item → clean item

/-- The lines of this name that count decode, and what they give is clean. -/
def Reads (name : Str) (limit : Nat) (read : Property → Option (Option α)) (clean : α → Prop)
    (lines : List Property) : Prop := ReadsFrom name limit read clean 0 lines

/-- What the lines of one name give. -/
def gather (name : Str) (limit : Nat) (read : Property → Option (Option α)) (found : List α) :
    List Property → Option (List α)
  | [] => some found
  | p :: lines =>
    if p.name = name ∧ found.length < limit then
      (read p).bind (fun kept => gather name limit read (found ++ kept.toList) lines)
    else gather name limit read found lines

theorem subset_gather {found items : List α} (h : gather name limit read found lines = some items) :
    found ⊆ items := by
  induction lines generalizing found with
  | nil =>
    rw [← Option.some.inj h]
    exact List.Subset.refl found
  | cons p lines ih =>
    rw [gather] at h
    by_cases hcount : p.name = name ∧ found.length < limit
    · rw [if_pos hcount] at h
      obtain ⟨kept, -, h⟩ := Option.bind_eq_some_iff.mp h
      exact List.Subset.trans (List.subset_append_left found _) (ih h)
    · rw [if_neg hcount] at h
      exact ih h

/-- The first line of those that follow. -/
theorem readsFrom_cons {n : Nat} : ReadsFrom name limit read clean n (p :: lines) ↔
      (p.name = name → n < limit → ∃ kept, read p = some kept ∧ ∀ item, kept = some item → clean item) ∧
      ReadsFrom name limit read clean (n + if gives name read p then 1 else 0) lines := by
  constructor
  · intro h
    refine ⟨fun hname hroom => h [] p lines rfl hname (by simpa using hroom), ?_⟩
    intro before q after heq hname hroom
    apply h (p :: before) q after (by rw [heq, List.cons_append]) hname
    rw [List.countP_cons]
    omega
  rintro ⟨hfirst, hrest⟩ before q after heq hname hroom
  cases before with
  | nil =>
    obtain ⟨rfl, -⟩ := List.cons.inj heq
    exact hfirst hname (by simpa using hroom)
  | cons r before =>
    obtain ⟨rfl, hlines⟩ := List.cons.inj heq
    apply hrest before q after hlines hname
    rw [List.countP_cons] at hroom
    omega

/-- Once the limit is reached, no line counts. -/
theorem readsFrom_full {n : Nat} (h : limit ≤ n) (lines : List Property) :
    ReadsFrom name limit read clean n lines := by
  intro before p after _ _ hroom
  omega

/-- **The lines of one name give clean items if and only if the ones that count do.** -/
theorem gather_iff (lines : List Property) (found : List α) (hfound : ∀ item ∈ found, clean item) :
    (∃ items, gather name limit read found lines = some items ∧ ∀ item ∈ items, clean item) ↔
      ReadsFrom name limit read clean found.length lines := by
  induction lines generalizing found with
  | nil =>
    constructor
    · intro _ before p after heq
      exact absurd heq (by simp)
    · exact fun _ => ⟨found, rfl, hfound⟩
  | cons p lines ih =>
    rw [gather, readsFrom_cons]
    by_cases hcount : p.name = name ∧ found.length < limit
    · rw [if_pos hcount]
      cases hread : read p with
      | none =>
        constructor
        · rintro ⟨items, hitems, -⟩
          nomatch hitems
        · rintro ⟨hfirst, -⟩
          obtain ⟨kept, hkept, -⟩ := hfirst hcount.1 hcount.2
          nomatch hkept
      | some kept =>
        have hlen : (found ++ kept.toList).length =
            found.length + if gives name read p then 1 else 0 := by
          cases kept with
          | none => simp [gives, hread]
          | some item => simp [gives, hread, hcount.1]
        rw [Option.bind_some]
        by_cases hclean : ∀ item, kept = some item → clean item
        · have hall : ∀ item ∈ found ++ kept.toList, clean item := by
            intro item hitem
            rcases List.mem_append.mp hitem with hitem | hitem
            · exact hfound item hitem
            · exact hclean item (Option.mem_toList.mp hitem)
          rw [ih _ hall, hlen]
          exact ⟨fun h => ⟨fun _ _ => ⟨kept, rfl, hclean⟩, h⟩, fun h => h.2⟩
        -- what is found stays, so it is not clean in the end either
        push Not at hclean
        obtain ⟨item, hitem, hnot⟩ := hclean
        constructor
        · rintro ⟨items, hitems, hall⟩
          have hmem : item ∈ found ++ kept.toList :=
            List.mem_append_right _ (Option.mem_toList.mpr hitem)
          exact absurd (hall item (subset_gather hitems hmem)) hnot
        rintro ⟨hfirst, -⟩
        obtain ⟨kept', hkept, hclean⟩ := hfirst hcount.1 hcount.2
        rw [← Option.some.inj hkept] at hclean
        exact absurd (hclean item hitem) hnot
    · rw [if_neg hcount, ih found hfound]
      have hfirst : p.name = name → found.length < limit →
          ∃ kept, read p = some kept ∧ ∀ item, kept = some item → clean item :=
        fun hname hroom => absurd ⟨hname, hroom⟩ hcount
      by_cases hname : p.name = name
      · have hfull : limit ≤ found.length := by
          by_contra hroom
          exact hcount ⟨hname, not_le.mp hroom⟩
        exact ⟨fun _ => ⟨hfirst, readsFrom_full (by omega) lines⟩, fun _ => readsFrom_full hfull lines⟩
      · have hgives : gives name read p = false := by simp [gives, hname]
        rw [hgives, if_neg Bool.false_ne_true, Nat.add_zero]
        exact ⟨fun h => ⟨hfirst, h⟩, fun h => h.2⟩

end Count

/-! ## The loop over the lines -/

section Loop

variable {platform : Platform} {labels : Dict Str Label}

/-- A text as the list of what was found for it. -/
def asList (s : Points) : List Points := if s = [] then [] else [s]

/-- What each kind of line gives, from `d` on. -/
@[mk_iff]
structure Gathered (platform : Platform) (labels : Dict Str Label) (lines : List Property)
    (d d' : ContactDetails) : Prop where
  phones : gather "TEL".toList maxContactAddressesPerCard (telOf platform labels) d.phones lines =
    some d'.phones
  emails : gather "EMAIL".toList maxContactAddressesPerCard (emailOf platform labels) d.emails lines =
    some d'.emails
  addresses : gather "ADR".toList maxContactPostalAddressesPerCard (addressOf platform labels)
    d.addresses lines = some d'.addresses
  organization : gather "ORG".toList 1 (organizationOf platform) (asList d.organization) lines =
    some (asList d'.organization)
  title : gather "TITLE".toList 1 (titleOf platform) (asList d.title) lines =
    some (asList d'.title)

theorem asList_inj {s t : Points} (h : asList s = asList t) : s = t := by
  unfold asList at h
  by_cases hs : s = []
  · by_cases ht : t = []
    · rw [hs, ht]
    rw [if_pos hs, if_neg ht] at h
    nomatch h
  by_cases ht : t = []
  · rw [if_neg hs, if_pos ht] at h
    nomatch h
  rw [if_neg hs, if_neg ht] at h
  exact (List.cons.inj h).1

/-- Another line gives nothing. -/
theorem gather_other {α : Type} {name : Str} {limit : Nat} {read : Property → Option (Option α)}
    {found : List α} (h : ¬ (p.name = name ∧ found.length < limit)) :
    gather name limit read found (p :: lines) = gather name limit read found lines := by
  rw [gather, if_neg h]

/-- A line that counts gives what it reads. -/
theorem gather_counted {α : Type} {name : Str} {limit : Nat} {read : Property → Option (Option α)}
    {found items : List α} (h : p.name = name ∧ found.length < limit) :
    gather name limit read found (p :: lines) = some items ↔ ∃ kept, read p = some kept ∧
      gather name limit read (found ++ kept.toList) lines = some items := by
  rw [gather, if_pos h, Option.bind_eq_some_iff]

theorem length_asList (s : Points) : (asList s).length < 1 ↔ s = [] := by
  unfold asList
  by_cases hs : s = []
  · simp [hs]
  · simp [hs]

/-- What a line gives for a text that is not there yet. -/
theorem asList_kept {s : Points} {kept : Option Points} (hs : s = [])
    (hkept : ∀ t, kept = some t → t ≠ []) : asList s ++ kept.toList = asList (kept.getD []) := by
  subst hs
  cases kept with
  | none => rfl
  | some t =>
    have hne := hkept t rfl
    simp [asList, hne]

/-- A line that counts gives a text that is not there yet. -/
theorem gather_text {name : Str} {read : Property → Option (Option Points)} {s : Points}
    {items : List Points} (h : p.name = name ∧ s = []) (hread : ∀ t, read p = some (some t) → t ≠ []) :
    gather name 1 read (asList s) (p :: lines) = some items ↔ ∃ kept, read p = some kept ∧
      gather name 1 read (asList (kept.getD [])) lines = some items := by
  rw [gather_counted ⟨h.1, (length_asList s).mpr h.2⟩]
  refine exists_congr fun kept => and_congr_right fun hkept => ?_
  rw [asList_kept h.2 fun t ht => hread t (ht ▸ hkept)]

/-- A line of one name is none of another. -/
theorem gather_named {α : Type} {a b : Str} {limit : Nat} {read : Property → Option (Option α)}
    {found : List α} (h : p.name = a) (hne : a ≠ b) :
    gather b limit read found (p :: lines) = gather b limit read found lines :=
  gather_other fun hboth => hne (h.symm.trans hboth.1)

variable {d' : ContactDetails}

theorem gathered_phones (h : p.name = "TEL".toList ∧ d.phones.length < maxContactAddressesPerCard) :
    Gathered platform labels (p :: lines) d d' ↔
      ∃ kept, telOf platform labels p = some kept ∧
        Gathered platform labels lines { d with phones := d.phones ++ kept.toList } d' := by
  simp (disch := decide) only [gathered_iff, gather_counted h, gather_named h.1]
  constructor
  · rintro ⟨⟨kept, hkept, h1⟩, h2, h3, h4, h5⟩
    exact ⟨kept, hkept, h1, h2, h3, h4, h5⟩
  · rintro ⟨kept, hkept, h1, h2, h3, h4, h5⟩
    exact ⟨⟨kept, hkept, h1⟩, h2, h3, h4, h5⟩

theorem gathered_emails
    (h : p.name = "EMAIL".toList ∧ d.emails.length < maxContactAddressesPerCard) :
    Gathered platform labels (p :: lines) d d' ↔
      ∃ kept, emailOf platform labels p = some kept ∧
        Gathered platform labels lines { d with emails := d.emails ++ kept.toList } d' := by
  simp (disch := decide) only [gathered_iff, gather_counted h, gather_named h.1]
  constructor
  · rintro ⟨h1, ⟨kept, hkept, h2⟩, h3, h4, h5⟩
    exact ⟨kept, hkept, h1, h2, h3, h4, h5⟩
  · rintro ⟨kept, hkept, h1, h2, h3, h4, h5⟩
    exact ⟨h1, ⟨kept, hkept, h2⟩, h3, h4, h5⟩

theorem gathered_addresses
    (h : p.name = "ADR".toList ∧ d.addresses.length < maxContactPostalAddressesPerCard) :
    Gathered platform labels (p :: lines) d d' ↔
      ∃ kept, addressOf platform labels p = some kept ∧
        Gathered platform labels lines { d with addresses := d.addresses ++ kept.toList } d' := by
  simp (disch := decide) only [gathered_iff, gather_counted h, gather_named h.1]
  constructor
  · rintro ⟨h1, h2, ⟨kept, hkept, h3⟩, h4, h5⟩
    exact ⟨kept, hkept, h1, h2, h3, h4, h5⟩
  · rintro ⟨kept, hkept, h1, h2, h3, h4, h5⟩
    exact ⟨h1, h2, ⟨kept, hkept, h3⟩, h4, h5⟩

theorem gathered_organization
    (h : p.name = "ORG".toList ∧ d.organization = []) : Gathered platform labels (p :: lines) d d' ↔
      ∃ kept, organizationOf platform p = some kept ∧
        Gathered platform labels lines { d with organization := kept.getD [] } d' := by
  simp (disch := decide) only [gathered_iff, gather_text h fun _ ht => (organizationOf_checked ht).1,
    gather_named h.1]
  constructor
  · rintro ⟨h1, h2, h3, ⟨kept, hkept, h4⟩, h5⟩
    exact ⟨kept, hkept, h1, h2, h3, h4, h5⟩
  · rintro ⟨kept, hkept, h1, h2, h3, h4, h5⟩
    exact ⟨h1, h2, h3, ⟨kept, hkept, h4⟩, h5⟩

theorem gathered_title (h : p.name = "TITLE".toList ∧ d.title = []) :
    Gathered platform labels (p :: lines) d d' ↔
      ∃ kept, titleOf platform p = some kept ∧
        Gathered platform labels lines { d with title := kept.getD [] } d' := by
  simp (disch := decide) only [gathered_iff, gather_text h fun _ ht => (titleOf_checked ht).1,
    gather_named h.1]
  constructor
  · rintro ⟨h1, h2, h3, h4, ⟨kept, hkept, h5⟩⟩
    exact ⟨kept, hkept, h1, h2, h3, h4, h5⟩
  · rintro ⟨kept, hkept, h1, h2, h3, h4, h5⟩
    exact ⟨h1, h2, h3, h4, ⟨kept, hkept, h5⟩⟩

/-- **One pass is five**: each kind of line has its own limit and its own place in the details. -/
theorem foldlM_addLine (lines : List Property) (d d' : ContactDetails) :
    lines.foldlM (addLine platform labels) d = some d' ↔ Gathered platform labels lines d d' := by
  induction lines generalizing d with
  | nil =>
    constructor
    · intro h
      rw [← Option.some.inj h]
      exact ⟨rfl, rfl, rfl, rfl, rfl⟩
    rintro ⟨hphones, hemails, haddresses, horganization, htitle⟩
    obtain ⟨phones, emails, addresses, organization, title⟩ := d
    obtain ⟨phones', emails', addresses', organization', title'⟩ := d'
    have h1 : phones = phones' := Option.some.inj hphones
    have h2 : emails = emails' := Option.some.inj hemails
    have h3 : addresses = addresses' := Option.some.inj haddresses
    have h4 : organization = organization' := asList_inj (Option.some.inj horganization)
    have h5 : title = title' := asList_inj (Option.some.inj htitle)
    subst h1 h2 h3 h4 h5
    rfl
  | cons p lines ih =>
    rw [List.foldlM_cons, Option.bind_eq_bind, addLine]
    by_cases htel : p.name = "TEL".toList ∧ d.phones.length < maxContactAddressesPerCard
    · rw [if_pos htel, Option.bind_map, Option.bind_eq_some_iff, gathered_phones htel]
      exact exists_congr (fun kept => and_congr_right (fun _ => ih _))
    rw [if_neg htel]
    by_cases hemail : p.name = "EMAIL".toList ∧ d.emails.length < maxContactAddressesPerCard
    · rw [if_pos hemail, Option.bind_map, Option.bind_eq_some_iff, gathered_emails hemail]
      exact exists_congr (fun kept => and_congr_right (fun _ => ih _))
    rw [if_neg hemail]
    by_cases hadr : p.name = "ADR".toList ∧ d.addresses.length < maxContactPostalAddressesPerCard
    · rw [if_pos hadr, Option.bind_map, Option.bind_eq_some_iff, gathered_addresses hadr]
      exact exists_congr (fun kept => and_congr_right (fun _ => ih _))
    rw [if_neg hadr]
    by_cases horg : p.name = "ORG".toList ∧ d.organization = []
    · rw [if_pos horg, Option.bind_map, Option.bind_eq_some_iff, gathered_organization horg]
      exact exists_congr (fun kept => and_congr_right (fun _ => ih _))
    rw [if_neg horg]
    by_cases htitle : p.name = "TITLE".toList ∧ d.title = []
    · rw [if_pos htitle, Option.bind_map, Option.bind_eq_some_iff, gathered_title htitle]
      exact exists_congr (fun kept => and_congr_right (fun _ => ih _))
    rw [if_neg htitle]
    have hnone : ∀ s : Points, ∀ name : Str, ¬ (p.name = name ∧ s = []) →
        ¬ (p.name = name ∧ (asList s).length < 1) :=
      fun s _ h hboth => h ⟨hboth.1, (length_asList s).mp hboth.2⟩
    rw [Option.bind_some, ih]
    constructor
    · rintro ⟨h1, h2, h3, h4, h5⟩
      exact ⟨by rwa [gather_other htel], by rwa [gather_other hemail], by rwa [gather_other hadr],
        by rwa [gather_other (hnone _ _ horg)], by rwa [gather_other (hnone _ _ htitle)]⟩
    rintro ⟨h1, h2, h3, h4, h5⟩
    exact ⟨by rwa [gather_other htel] at h1, by rwa [gather_other hemail] at h2,
      by rwa [gather_other hadr] at h3, by rwa [gather_other (hnone _ _ horg)] at h4,
      by rwa [gather_other (hnone _ _ htitle)] at h5⟩

end Loop

/-! ## The labels of a card -/

section Scan

variable {platform : Platform}

/-- The properties of some lines, without those that cannot be parsed. -/
def propertiesOf (platform : Platform) (raws : List Str) : List Property :=
  raws.filterMap (fun raw => (property platform (strip raw)).join)

/-- The lines that are no labels. -/
def linesOf (properties : List Property) : List Property := properties.filter (fun p => !isLabel p)

/-- The labels, without those that cannot be decoded. -/
def labelsFrom (platform : Platform) (labels : Dict Str Label) (properties : List Property) :
    Dict Str Label :=
  (properties.filter isLabel).foldl (fun labels p =>
    match p.decode platform p.value with
    | some decoded => labels.set p.group (appleLabel decoded)
    | none => labels) labels

/-- The charsets of all lines can be looked up, and the labels decoded. -/
def Scans (platform : Platform) (raws : List Str) : Prop :=
  (∀ raw ∈ raws, property platform (strip raw) ≠ none) ∧
    ∀ p ∈ propertiesOf platform raws, isLabel p = true → p.decode platform p.value ≠ none

/-- **The first pass** succeeds if and only if each line can be parsed and each label decoded. -/
theorem foldlM_scanLine (raws : List Str) (lines : List Property) (labels : Dict Str Label)
    (found : List Property × Dict Str Label) :
    raws.foldlM (scanLine platform) (lines, labels) = some found ↔
      Scans platform raws ∧
        found = (lines ++ linesOf (propertiesOf platform raws),
          labelsFrom platform labels (propertiesOf platform raws)) := by
  induction raws generalizing lines labels with
  | nil =>
    constructor
    · intro h
      refine ⟨⟨fun raw hraw => absurd hraw List.not_mem_nil,
        fun p hp => absurd hp List.not_mem_nil⟩, ?_⟩
      rw [← Option.some.inj h, propertiesOf, List.filterMap_nil, linesOf, List.filter_nil,
        List.append_nil]
      rfl
    · rintro ⟨-, rfl⟩
      rw [propertiesOf, List.filterMap_nil, linesOf, List.filter_nil, List.append_nil]
      rfl
  | cons raw raws ih =>
    rw [List.foldlM_cons, Option.bind_eq_bind, scanLine]
    cases hp : property platform (strip raw) with
    | none =>
      constructor
      · exact fun h => nomatch h
      · rintro ⟨⟨hall, -⟩, -⟩
        exact absurd hp (hall raw (.head _))
    | some parsed =>
      cases parsed with
      | none =>
        have hprops : propertiesOf platform (raw :: raws) = propertiesOf platform raws := by
          simp [propertiesOf, hp]
        have hscans : Scans platform (raw :: raws) ↔ Scans platform raws := by
          unfold Scans
          rw [hprops, List.forall_mem_cons, hp]
          simp
        rw [hprops, hscans]
        exact ih lines labels
      | some p =>
        have hprops : propertiesOf platform (raw :: raws) = p :: propertiesOf platform raws := by
          simp [propertiesOf, hp]
        have hscans : Scans platform (raw :: raws) ↔
            (isLabel p = true → p.decode platform p.value ≠ none) ∧ Scans platform raws := by
          unfold Scans
          rw [hprops, List.forall_mem_cons, List.forall_mem_cons, hp]
          constructor
          · rintro ⟨⟨-, hall⟩, hfirst, hlabels⟩
            exact ⟨hfirst, hall, hlabels⟩
          · rintro ⟨hfirst, hall, hlabels⟩
            exact ⟨⟨Option.some_ne_none _, hall⟩, hfirst, hlabels⟩
        rw [Option.bind_some, hprops, hscans]
        dsimp only
        by_cases hlabel : isLabel p = true
        · rw [if_pos hlabel]
          have hlines : linesOf (p :: propertiesOf platform raws) =
              linesOf (propertiesOf platform raws) := by
            simp [linesOf, hlabel]
          cases hdecoded : p.decode platform p.value with
          | none =>
            constructor
            · exact fun h => nomatch h
            · rintro ⟨⟨hfirst, -⟩, -⟩
              exact absurd rfl (hfirst hlabel)
          | some decoded =>
            have hlabels : labelsFrom platform labels (p :: propertiesOf platform raws) =
                labelsFrom platform (labels.set p.group (appleLabel decoded))
                  (propertiesOf platform raws) := by
              rw [labelsFrom, List.filter_cons, if_pos hlabel, List.foldl_cons, hdecoded]
              rfl
            rw [Option.map_some, Option.bind_some, ih, hlines, hlabels]
            simp
        · rw [if_neg hlabel, Option.bind_some, ih]
          have hlines : linesOf (p :: propertiesOf platform raws) =
              p :: linesOf (propertiesOf platform raws) := by
            simp [linesOf, hlabel]
          have hlabels : labelsFrom platform labels (p :: propertiesOf platform raws) =
              labelsFrom platform labels (propertiesOf platform raws) := by
            rw [labelsFrom, List.filter_cons, if_neg hlabel]
            rfl
          rw [hlines, hlabels, List.append_assoc, List.singleton_append]
          simp [hlabel]

/-- The labels of a body. -/
def labelsOf (platform : Platform) (body : Str) : Dict Str Label :=
  labelsFrom platform Dict.empty (propertiesOf platform (splitLines body))

/-- The lines of a body that are no labels. -/
def otherLines (platform : Platform) (body : Str) : List Property :=
  linesOf (propertiesOf platform (splitLines body))

theorem labelsChecked_labelsOf (body : Str) : LabelsChecked (labelsOf platform body) := by
  unfold labelsOf labelsFrom
  generalize (propertiesOf platform (splitLines body)).filter isLabel = properties
  have hempty : LabelsChecked Dict.empty := fun _ _ h => nomatch h
  generalize (Dict.empty : Dict Str Label) = labels at hempty ⊢
  induction properties generalizing labels with
  | nil => exact hempty
  | cons p properties ih =>
    rw [List.foldl_cons]
    apply ih
    cases p.decode platform p.value with
    | none => exact hempty
    | some decoded =>
      intro group label hget
      rw [Dict.get?_set] at hget
      by_cases hgroup : group = p.group
      · rw [if_pos hgroup] at hget
        rw [← Option.some.inj hget]
        exact appleLabel_checked decoded
      · rw [if_neg hgroup] at hget
        exact hempty group label hget

end Scan

/-! ## Cards that can be kept -/

/-- What a list of lines gives is what they read, within the limit. -/
theorem gather_all {name : Str} {limit : Nat} {read : Property → Option (Option α)}
    {good : α → Prop} (hread : ∀ p item, read p = some (some item) → good item)
    {found items : List α} (hfound : ∀ item ∈ found, good item) (hlen : found.length ≤ limit)
    (h : gather name limit read found lines = some items) :
    items.length ≤ limit ∧ ∀ item ∈ items, good item := by
  induction lines generalizing found with
  | nil =>
    rw [← Option.some.inj h]
    exact ⟨hlen, hfound⟩
  | cons p lines ih =>
    rw [gather] at h
    by_cases hcount : p.name = name ∧ found.length < limit
    · rw [if_pos hcount] at h
      obtain ⟨kept, hkept, h⟩ := Option.bind_eq_some_iff.mp h
      cases kept with
      | none => exact ih (by simpa using hfound) (by simpa using hlen) h
      | some item =>
        apply ih _ _ h
        · intro item' hitem
          rcases List.mem_append.mp hitem with hitem | hitem
          · exact hfound item' hitem
          rw [List.mem_singleton.mp hitem]
          exact hread p item hkept
        · rw [List.length_append, Option.toList_some, List.length_singleton]
          have hroom := hcount.2
          omega
    · rw [if_neg hcount] at h
      exact ih hfound hlen h

/-- **What the parse returns is within the limits of storage.** -/
theorem checked_parse {platform : Platform} {body : Str}
    (h : parseCardDetails platform body = some d) : d.Checked := by
  obtain ⟨found, hscan, hlines⟩ := Option.bind_eq_some_iff.mp h
  obtain ⟨-, rfl⟩ := (foldlM_scanLine _ _ _ _).mp hscan
  obtain ⟨hphones, hemails, haddresses, horganization, htitle⟩ := (foldlM_addLine _ _ _).mp hlines
  have hlabels : LabelsChecked (labelsOf platform body) := labelsChecked_labelsOf body
  have htext : ∀ {name : Str} {read : Property → Option (Option Points)} {s : Points},
      (∀ p item, read p = some (some item) → item.length ≤ maxContactDetailChars) →
      gather name 1 read (asList []) (linesOf (propertiesOf platform (splitLines body))) =
        some (asList s) → s.length ≤ maxContactDetailChars := by
    intro name read s hread hgather
    obtain ⟨-, hall⟩ := gather_all hread (fun _ hitem => absurd hitem List.not_mem_nil)
      (Nat.zero_le 1) hgather
    by_cases hs : s = []
    · rw [hs]
      exact Nat.zero_le _
    apply hall s
    rw [asList, if_neg hs]
    exact List.mem_singleton_self s
  exact {
    phones := gather_all (fun _ _ => telOf_checked hlabels)
      (fun _ hitem => absurd hitem List.not_mem_nil) (Nat.zero_le _) hphones
    emails := gather_all (fun _ _ => emailOf_checked hlabels)
      (fun _ hitem => absurd hitem List.not_mem_nil) (Nat.zero_le _) hemails
    addresses := gather_all (fun _ _ => addressOf_checked hlabels)
      (fun _ hitem => absurd hitem List.not_mem_nil) (Nat.zero_le _) haddresses
    organization := htext (fun _ _ hread => (organizationOf_checked hread).2) horganization
    title := htext (fun _ _ hread => (titleOf_checked hread).2) htitle }

/-- The values of a card that count decode, and those that are kept hold no lone surrogate. -/
structure Decodes (platform : Platform) (body : Str) : Prop where
  scans : Scans platform (splitLines body)
  phones : Reads "TEL".toList maxContactAddressesPerCard
    (telOf platform (labelsOf platform body)) (fun item => item.Encodable ∧ Whole item.number)
    (otherLines platform body)
  emails : Reads "EMAIL".toList maxContactAddressesPerCard
    (emailOf platform (labelsOf platform body)) LabeledValue.Encodable (otherLines platform body)
  addresses : Reads "ADR".toList maxContactPostalAddressesPerCard
    (addressOf platform (labelsOf platform body)) PostalAddress.Encodable (otherLines platform body)
  organization : Reads "ORG".toList 1 (organizationOf platform) Whole (otherLines platform body)
  title : Reads "TITLE".toList 1 (titleOf platform) Whole (otherLines platform body)

/-- What one kind of line gives is clean if and only if its lines read so. -/
theorem reads_iff {name : Str} {limit : Nat} {read : Property → Option (Option α)}
    {clean : α → Prop} (lines : List Property) :
    (∃ items, gather name limit read [] lines = some items ∧ ∀ item ∈ items, clean item) ↔
      Reads name limit read clean lines :=
  gather_iff lines [] (fun _ hitem => absurd hitem List.not_mem_nil)

/-- A text from what was gathered for it. -/
theorem whole_asList {s : Points} : (∀ t ∈ asList s, Whole t) ↔ Whole s := by
  unfold asList
  by_cases hs : s = []
  · simp [hs, Whole]
  · simp [hs]

/-- What is gathered for a text is that of one. -/
theorem exists_asList {items : List Points} (hlen : items.length ≤ 1)
    (hne : ∀ s ∈ items, s ≠ []) : ∃ s, items = asList s := by
  match items, hlen with
  | [], _ => exact ⟨[], rfl⟩
  | [s], _ => exact ⟨s, by rw [asList, if_neg (hne s (List.mem_singleton_self s))]⟩

/-- **A card can be kept if and only if the values that count decode**: the parse then returns
details, their JSON text can be encoded, and they are read back from it as they were. -/
theorem card_is_safe_iff (platform : Platform) (body : Str) :
    (∃ d, parseCardDetails platform body = some d ∧ Encodable d.toStorage ∧
      fromStorage d.toStorage = d) ↔ Decodes platform body := by
  constructor
  · rintro ⟨d, hparse, hencodable, -⟩
    obtain ⟨found, hscan, hlines⟩ := Option.bind_eq_some_iff.mp hparse
    obtain ⟨hscans, rfl⟩ := (foldlM_scanLine _ _ _ _).mp hscan
    obtain ⟨hphones, hemails, haddresses, horganization, htitle⟩ := (foldlM_addLine _ _ _).mp hlines
    obtain ⟨hp, he, ha, ho, ht⟩ := (encodable_toStorage d).mp hencodable
    exact {
      scans := hscans
      phones := (reads_iff _).mp ⟨_, hphones, hp⟩
      emails := (reads_iff _).mp ⟨_, hemails, he⟩
      addresses := (reads_iff _).mp ⟨_, haddresses, ha⟩
      organization := (reads_iff _).mp ⟨_, horganization, whole_asList.mpr ho⟩
      title := (reads_iff _).mp ⟨_, htitle, whole_asList.mpr ht⟩ }
  · rintro ⟨hscans, hphones, hemails, haddresses, horganization, htitle⟩
    obtain ⟨phones, hphones, hp⟩ := (reads_iff _).mpr hphones
    obtain ⟨emails, hemails, he⟩ := (reads_iff _).mpr hemails
    obtain ⟨addresses, haddresses, ha⟩ := (reads_iff _).mpr haddresses
    obtain ⟨organizations, horganization, ho⟩ := (reads_iff _).mpr horganization
    obtain ⟨titles, htitle, ht⟩ := (reads_iff _).mpr htitle
    obtain ⟨hfew, hne⟩ := gather_all (fun _ _ hread => (organizationOf_checked hread).1)
      (fun _ hitem => absurd hitem List.not_mem_nil) (Nat.zero_le 1) horganization
    obtain ⟨organization, rfl⟩ := exists_asList hfew hne
    obtain ⟨hfew, hne⟩ := gather_all (fun _ _ hread => (titleOf_checked hread).1)
      (fun _ hitem => absurd hitem List.not_mem_nil) (Nat.zero_le 1) htitle
    obtain ⟨title, rfl⟩ := exists_asList hfew hne
    have hparse : parseCardDetails platform body =
        some ⟨phones, emails, addresses, organization, title⟩ := by
      apply Option.bind_eq_some_iff.mpr
      exact ⟨_, (foldlM_scanLine _ _ _ _).mpr ⟨hscans, rfl⟩,
        (foldlM_addLine _ _ _).mpr ⟨hphones, hemails, haddresses, horganization, htitle⟩⟩
    refine ⟨_, hparse, (encodable_toStorage _).mpr ⟨hp, he, ha, ?_, ?_⟩,
      fromStorage_toStorage (checked_parse hparse)⟩
    · exact whole_asList.mp ho
    · exact whole_asList.mp ht

/-- A platform that finds two codecs: UTF-8, and `hex`, which is none for text. -/
def hexPlatform : Platform where
  lookup name := if name = "hex".toList then .found name else .unknown
  decode name bytes :=
    if name = "hex".toList then none else some (Points.ofStr (decodeReplace bytes))
  fullNational _ := false

/-- **A card can make the parse raise**, with a charset that is none. -/
theorem hex_card_raises :
    parseCardDetails hexPlatform "TEL;ENCODING=QUOTED-PRINTABLE;CHARSET=hex:31".toList = none := by
  decide +kernel

end BlueFerry.Contacts
