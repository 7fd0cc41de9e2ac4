import BlueFerry.Text.Basic

/-! # JSON texts

`json.dumps` of strings and of lists, with `ensure_ascii` and the separators `","` and `":"`: a
string stands between quotes, and every character outside the printable ASCII ones is escaped, one
above `\uFFFF` as two surrogates.

What is written can be read again: `Separable f` says that the text of a value shows where it ends
and which value it is, whatever comes after it.
-/

namespace BlueFerry.Text

/-- The characters with an escape of two characters. -/
def shortEscapes : List (Char × Char) :=
  [('"', '"'), ('\\', '\\'), ('\n', 'n'), ('\r', 'r'), ('\t', 't'), ('\x08', 'b'), ('\x0c', 'f')]

/-- `"\\u{0:04x}".format(n)` -/
def unicodeEscape (n : Nat) : Str :=
  ['\\', 'u', Nat.digitChar (n / 4096), Nat.digitChar (n / 256 % 16), Nat.digitChar (n / 16 % 16),
    Nat.digitChar (n % 16)]

/-- One character between the quotes. -/
def escapeChar (c : Char) : Str :=
  match shortEscapes.lookup c with
  | some e => ['\\', e]
  | none =>
    if 32 ≤ c.toNat ∧ c.toNat ≤ 126 then [c]
    else if c.toNat < 0x10000 then unicodeEscape c.toNat
    else
      unicodeEscape (0xD800 + (c.toNat - 0x10000) / 1024)
        ++ unicodeEscape (0xDC00 + (c.toNat - 0x10000) % 1024)

/-- `json.dumps` of a string. -/
def dumpsString (s : Str) : Str := '"' :: (s.flatMap escapeChar ++ ['"'])

/-- One character between the quotes, without `ensure_ascii`. -/
def escapePlain (c : Char) : Str :=
  match shortEscapes.lookup c with
  | some e => ['\\', e]
  | none => if c.toNat < 32 then unicodeEscape c.toNat else [c]

/-- `json.dumps` of a string, without `ensure_ascii`. -/
def dumpsPlain (s : Str) : Str := '"' :: (s.flatMap escapePlain ++ ['"'])

/-- `json.dumps` of an integer. -/
def dumpsInt : Int → Str
  | .ofNat n => Nat.toDigits 10 n
  | .negSucc n => '-' :: Nat.toDigits 10 (n + 1)

/-- `json.dumps` of a boolean. -/
def dumpsBool (b : Bool) : Str := if b then "true".toList else "false".toList

/-- The text of the further items of a list, to its end. -/
def dumpsTail {α : Type} (f : α → Str) (items : List α) : Str :=
  items.flatMap (fun item => ',' :: f item) ++ [']']

/-- `json.dumps` of a list, the items written by `f`. -/
def dumpsList {α : Type} (f : α → Str) : List α → Str
  | [] => ['[', ']']
  | item :: items => '[' :: (f item ++ dumpsTail f items)

/-- `json.dumps` of a dictionary, from its keys and the texts of its values. -/
def dumpsObject (fields : List (Str × Str)) : Str :=
  '\x7b' :: ((fields.map (fun e => dumpsPlain e.1 ++ ':' :: e.2)).intersperse [',']).flatten
    ++ ['\x7d']

/-- What `f` writes ends where it seems to end. -/
def Separable {α : Type} (f : α → Str) : Prop :=
  ∀ a b r s, f a ++ r = f b ++ s → a = b ∧ r = s

/-! ## Characters -/

variable {n : Nat} {r s : Str} {c e : Char}

theorem digitChar_inj {m : Nat} (hm : m < 16) (hn : n < 16)
    (h : Nat.digitChar m = Nat.digitChar n) : m = n := by
  have hall : ∀ i ∈ List.range 16, ∀ j ∈ List.range 16,
      Nat.digitChar i = Nat.digitChar j → i = j := by decide
  exact hall m (List.mem_range.mpr hm) n (List.mem_range.mpr hn) h

theorem unicodeEscape_append_inj {m : Nat} (hm : m < 0x10000) (hn : n < 0x10000)
    (h : unicodeEscape m ++ r = unicodeEscape n ++ s) : m = n ∧ r = s := by
  simp only [unicodeEscape, List.cons_append, List.nil_append, List.cons.injEq, true_and] at h
  obtain ⟨h₁, h₂, h₃, h₄, hrest⟩ := h
  have d₁ := digitChar_inj (by omega) (by omega) h₁
  have d₂ := digitChar_inj (by omega) (by omega) h₂
  have d₃ := digitChar_inj (by omega) (by omega) h₃
  have d₄ := digitChar_inj (by omega) (by omega) h₄
  exact ⟨by omega, hrest⟩

theorem shortEscapes_inj {d : Char} (hc : shortEscapes.lookup c = some e)
    (hd : shortEscapes.lookup d = some e) : c = d := by
  have hall : ∀ p ∈ shortEscapes, ∀ q ∈ shortEscapes, p.2 = q.2 → p.1 = q.1 := by decide
  exact hall _ (mem_of_lookup hc) _ (mem_of_lookup hd) rfl

theorem shortEscapes_ne_u (h : shortEscapes.lookup c = some e) : e ≠ 'u' := by
  have hall : ∀ p ∈ shortEscapes, p.2 ≠ 'u' := by decide
  exact hall _ (mem_of_lookup h)

/-- A character stands for itself only where it is neither a quote nor a backslash. -/
theorem plain_of_lookup (h : shortEscapes.lookup c = none) : c ≠ '"' ∧ c ≠ '\\' := by
  constructor
  · rintro rfl
    cases h
  · rintro rfl
    cases h

theorem toNat_valid (c : Char) :
    c.toNat < 0xD800 ∨ (0xDFFF < c.toNat ∧ c.toNat < 0x110000) := c.valid

/-- The ways to write a character. -/
inductive Written : Char → Str → Prop
  | short {c e : Char} (h : shortEscapes.lookup c = some e) : Written c ['\\', e]
  | plain {c : Char} (h : c ≠ '\\') (hquote : c ≠ '"') : Written c [c]
  | unicode {c : Char} (h : c.toNat < 0x10000) : Written c (unicodeEscape c.toNat)
  | pair {c : Char} {m n : Nat} (hm : 0xD800 ≤ m ∧ m < 0xDC00) (hn : n < 0x10000)
      (h : c.toNat = 0x10000 + 1024 * (m - 0xD800) + (n - 0xDC00)) :
      Written c (unicodeEscape m ++ unicodeEscape n)

theorem written_escapeChar (c : Char) : Written c (escapeChar c) := by
  unfold escapeChar
  split
  · rename_i e he
    exact .short he
  rename_i hnone
  obtain ⟨hquote, hslash⟩ := plain_of_lookup hnone
  split
  · exact .plain hslash hquote
  split
  · rename_i hlow
    exact .unicode hlow
  have hvalid := toNat_valid c
  exact .pair (by omega) (by omega) (by omega)

/-- A character that stands for itself is not the beginning of an escape. -/
theorem not_escape (h : c ≠ '\\') : [c] ++ r ≠ '\\' :: e :: s := by
  intro heq
  exact h (List.cons.inj heq).1

theorem short_ne_unicode (h : shortEscapes.lookup c = some e) :
    ['\\', e] ++ r ≠ unicodeEscape n ++ s := by
  intro heq
  simp only [unicodeEscape, List.cons_append, List.nil_append, List.cons.injEq] at heq
  exact shortEscapes_ne_u h heq.2.1

theorem unicode_ne_pair {m : Nat} (hc : c.toNat < 0x10000) (hm : 0xD800 ≤ m ∧ m < 0xDC00) :
    unicodeEscape c.toNat ++ r ≠ unicodeEscape m ++ unicodeEscape n ++ s := by
  intro heq
  rw [List.append_assoc] at heq
  have hunit := (unicodeEscape_append_inj hc (by omega) heq).1
  have hvalid := toNat_valid c
  omega

/-- **A written character ends where it seems to end.** -/
theorem separable_escapeChar : Separable escapeChar := by
  intro a b r s heq
  have ha := written_escapeChar a
  have hb := written_escapeChar b
  generalize escapeChar a = ta at ha heq
  generalize escapeChar b = tb at hb heq
  cases ha with
  | short he =>
    cases hb with
    | short hf =>
      obtain ⟨hchar, hrest⟩ := List.cons.inj (List.cons.inj heq).2
      rw [hchar] at he
      exact ⟨shortEscapes_inj he hf, hrest⟩
    | plain hf => exact absurd heq.symm (not_escape hf)
    | unicode => exact absurd heq (short_ne_unicode he)
    | pair =>
      rw [List.append_assoc] at heq
      exact absurd heq (short_ne_unicode he)
  | plain he =>
    cases hb with
    | plain hf => exact ⟨(List.cons.inj heq).1, (List.cons.inj heq).2⟩
    | short hf | unicode | pair => exact absurd heq (not_escape he)
  | unicode ha =>
    cases hb with
    | short hf => exact absurd heq.symm (short_ne_unicode hf)
    | plain hf => exact absurd heq.symm (not_escape hf)
    | unicode hb =>
      obtain ⟨hunit, hrest⟩ := unicodeEscape_append_inj ha hb heq
      exact ⟨Char.toNat_inj.mp hunit, hrest⟩
    | pair hm => exact absurd heq (unicode_ne_pair ha hm)
  | @pair m n hm hn ha =>
    cases hb with
    | short hf =>
      rw [List.append_assoc] at heq
      exact absurd heq.symm (short_ne_unicode hf)
    | plain hf => exact absurd heq.symm (not_escape hf)
    | unicode hb => exact absurd heq.symm (unicode_ne_pair hb hm)
    | @pair m' n' hm' hn' hb =>
      rw [List.append_assoc, List.append_assoc] at heq
      obtain ⟨hfirst, heq⟩ := unicodeEscape_append_inj (by omega) (by omega) heq
      obtain ⟨hsecond, hrest⟩ := unicodeEscape_append_inj hn hn' heq
      refine ⟨Char.toNat_inj.mp ?_, hrest⟩
      rw [ha, hb, hfirst, hsecond]

/-- A quote ends a string: no character is written with one at its beginning. -/
theorem escapeChar_ne_quote (c : Char) (r s : Str) : escapeChar c ++ r ≠ '"' :: s := by
  intro heq
  have hc := written_escapeChar c
  generalize escapeChar c = t at hc heq
  cases hc with
  | plain he hquote => exact hquote (List.cons.inj heq).1
  | short he | unicode | pair => cases (List.cons.inj heq).1

/-! ## Strings and lists -/

/-- **The text of a string shows which string it is.** -/
theorem separable_dumpsString : Separable dumpsString := by
  intro a b r s heq
  have key : ∀ (a b r s : Str), a.flatMap escapeChar ++ '"' :: r = b.flatMap escapeChar ++ '"' :: s →
      a = b ∧ r = s := by
    intro a
    induction a with
    | nil =>
      intro b r s h
      cases b with
      | nil => exact ⟨rfl, (List.cons.inj h).2⟩
      | cons d b =>
        rw [List.flatMap_cons, List.append_assoc] at h
        exact absurd h.symm (escapeChar_ne_quote d _ _)
    | cons c a ih =>
      intro b r s h
      cases b with
      | nil =>
        rw [List.flatMap_cons, List.append_assoc] at h
        exact absurd h (escapeChar_ne_quote c _ _)
      | cons d b =>
        rw [List.flatMap_cons, List.flatMap_cons, List.append_assoc, List.append_assoc] at h
        obtain ⟨hchar, h⟩ := separable_escapeChar c d _ _ h
        obtain ⟨hrest, hend⟩ := ih b r s h
        exact ⟨by rw [hchar, hrest], hend⟩
  simp only [dumpsString, List.cons_append, List.append_assoc, List.nil_append, List.cons.injEq,
    true_and] at heq
  exact key a b r s heq

theorem Separable.dumpsTail {α : Type} {f : α → Str} (hf : Separable f) :
    Separable (dumpsTail f) := by
  intro xs
  induction xs with
  | nil =>
    intro ys r s h
    cases ys with
    | nil => exact ⟨rfl, (List.cons.inj h).2⟩
    | cons y ys => cases (List.cons.inj h).1
  | cons x xs ih =>
    intro ys r s h
    cases ys with
    | nil => cases (List.cons.inj h).1
    | cons y ys =>
      simp only [Text.dumpsTail, List.flatMap_cons, List.cons_append, List.append_assoc,
        List.cons.injEq, true_and] at h
      obtain ⟨hitem, h⟩ := hf x y _ _ h
      have htail := ih ys r s (by
        simp only [Text.dumpsTail, List.append_assoc]
        exact h)
      exact ⟨by rw [hitem, htail.1], htail.2⟩

/-- A list of values that do not begin with a closing bracket. -/
theorem Separable.dumpsList {α : Type} {f : α → Str} (hf : Separable f)
    (hopen : ∀ a r s, f a ++ r ≠ ']' :: s) : Separable (dumpsList f) := by
  intro xs ys r s h
  cases xs with
  | nil =>
    cases ys with
    | nil => exact ⟨rfl, (List.cons.inj (List.cons.inj h).2).2⟩
    | cons y ys =>
      simp only [Text.dumpsList, List.cons_append, List.append_assoc, List.cons.injEq,
        true_and] at h
      exact absurd h.symm (hopen y _ _)
  | cons x xs =>
    cases ys with
    | nil =>
      simp only [Text.dumpsList, List.cons_append, List.append_assoc, List.cons.injEq,
        true_and] at h
      exact absurd h (hopen x _ _)
    | cons y ys =>
      simp only [Text.dumpsList, List.cons_append, List.append_assoc, List.cons.injEq,
        true_and] at h
      obtain ⟨hitem, h⟩ := hf x y _ _ h
      obtain ⟨hitems, hrest⟩ := hf.dumpsTail xs ys r s h
      exact ⟨by rw [hitem, hitems], hrest⟩

theorem separable_dumpsStrings : Separable (dumpsList dumpsString) := by
  refine separable_dumpsString.dumpsList ?_
  intro a r s heq
  cases (List.cons.inj heq).1

end BlueFerry.Text
