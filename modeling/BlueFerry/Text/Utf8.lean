import BlueFerry.Text.Basic

/-! # UTF-8

`str.encode("utf-8")` and `bytes.decode("utf-8", errors="replace")`. A malformed sequence is
replaced by one U+FFFD for its longest start that could still have become a character, and
decoding goes on at the first byte that could not continue it.

Encoded text is decoded to itself (`decodeReplace_encode`), and an encoded string holds a NUL byte
only for a NUL character (`zero_not_mem_encode`).
-/

namespace BlueFerry.Text

abbrev Bytes := List UInt8

/-- The replacement character. -/
def replacement : Char := '\uFFFD'

/-! ## Encoding -/

/-- The bytes of one character. -/
def encodeChar (ch : Char) : Bytes :=
  let n := ch.toNat
  if n < 0x80 then [UInt8.ofNat n]
  else if n < 0x800 then [UInt8.ofNat (0xC0 + n / 64), UInt8.ofNat (0x80 + n % 64)]
  else if n < 0x10000 then
    [UInt8.ofNat (0xE0 + n / 4096), UInt8.ofNat (0x80 + n / 64 % 64), UInt8.ofNat (0x80 + n % 64)]
  else
    [UInt8.ofNat (0xF0 + n / 262144), UInt8.ofNat (0x80 + n / 4096 % 64),
      UInt8.ofNat (0x80 + n / 64 % 64), UInt8.ofNat (0x80 + n % 64)]

/-- `str.encode("utf-8")`. -/
def encode (s : Str) : Bytes := s.flatMap encodeChar

/-! ## Decoding -/

/-- A continuation byte. -/
def isTail (b : UInt8) : Bool := 0x80 ≤ b.toNat && b.toNat ≤ 0xBF

/-- The bytes that may follow the lead byte of a sequence of three. -/
def isSecondOfThree (a b : UInt8) : Bool :=
  isTail b && !(a.toNat == 0xE0 && b.toNat < 0xA0) && !(a.toNat == 0xED && 0x9F < b.toNat)

/-- The bytes that may follow the lead byte of a sequence of four. -/
def isSecondOfFour (a b : UInt8) : Bool :=
  isTail b && !(a.toNat == 0xF0 && b.toNat < 0x90) && !(a.toNat == 0xF4 && 0x8F < b.toNat)

/-- The character that the lead byte `a` and the bytes after it begin with, and how many of the
bytes after `a` it takes. -/
def decodeStep (a : UInt8) (r : Bytes) : Char × Nat :=
  if a.toNat < 0x80 then (Char.ofNat a.toNat, 0)
  else if 0xC2 ≤ a.toNat ∧ a.toNat ≤ 0xDF then
    match r with
    | b :: _ =>
      if isTail b then (Char.ofNat ((a.toNat - 0xC0) * 64 + (b.toNat - 0x80)), 1)
      else (replacement, 0)
    | [] => (replacement, 0)
  else if 0xE0 ≤ a.toNat ∧ a.toNat ≤ 0xEF then
    match r with
    | b :: r =>
      if isSecondOfThree a b then
        match r with
        | c :: _ =>
          if isTail c then
            (Char.ofNat ((a.toNat - 0xE0) * 4096 + (b.toNat - 0x80) * 64 + (c.toNat - 0x80)), 2)
          else (replacement, 1)
        | [] => (replacement, 1)
      else (replacement, 0)
    | [] => (replacement, 0)
  else if 0xF0 ≤ a.toNat ∧ a.toNat ≤ 0xF4 then
    match r with
    | b :: r =>
      if isSecondOfFour a b then
        match r with
        | c :: r =>
          if isTail c then
            match r with
            | d :: _ =>
              if isTail d then
                (Char.ofNat ((a.toNat - 0xF0) * 262144 + (b.toNat - 0x80) * 4096
                  + (c.toNat - 0x80) * 64 + (d.toNat - 0x80)), 3)
              else (replacement, 2)
            | [] => (replacement, 2)
          else (replacement, 1)
        | [] => (replacement, 1)
      else (replacement, 0)
    | [] => (replacement, 0)
  else (replacement, 0)

/-- Decoding after the next `skip` bytes, which belong to the character before. -/
def decodeFrom : Nat → Bytes → Str
  | _, [] => []
  | skip + 1, _ :: r => decodeFrom skip r
  | 0, a :: r => (decodeStep a r).1 :: decodeFrom (decodeStep a r).2 r

/-- `bytes.decode("utf-8", errors="replace")`. -/
def decodeReplace (data : Bytes) : Str := decodeFrom 0 data

/-! ## The round trip -/

variable {n : Nat}

theorem toNat_ofNat_of_lt (h : n < 256) : (UInt8.ofNat n).toNat = n := by
  rw [UInt8.toNat_ofNat']
  omega

theorem isTail_ofNat {m : Nat} (h : m < 64) : isTail (UInt8.ofNat (0x80 + m)) = true := by
  have hn := toNat_ofNat_of_lt (by omega : 0x80 + m < 256)
  simp only [isTail, hn, Bool.and_eq_true, decide_eq_true_eq]
  omega

theorem toNat_lt_of_char (ch : Char) : ch.toNat < 0x110000 := by
  have hvalid := ch.valid
  simp only [UInt32.isValidChar, Nat.isValidChar] at hvalid
  show ch.val.toNat < _
  omega

theorem not_surrogate (ch : Char) : ch.toNat < 0xD800 ∨ 0xDFFF < ch.toNat := by
  have hvalid := ch.valid
  simp only [UInt32.isValidChar, Nat.isValidChar] at hvalid
  show ch.val.toNat < _ ∨ _ < ch.val.toNat
  omega

theorem decodeReplace_two (h1 : 0x80 ≤ n) (h2 : n < 0x800) (rest : Bytes) :
    decodeReplace (UInt8.ofNat (0xC0 + n / 64) :: UInt8.ofNat (0x80 + n % 64) :: rest)
      = Char.ofNat n :: decodeReplace rest := by
  have ha := toNat_ofNat_of_lt (by omega : 0xC0 + n / 64 < 256)
  have hb := toNat_ofNat_of_lt (by omega : 0x80 + n % 64 < 256)
  have hn : (0xC0 + n / 64 - 0xC0) * 64 + (0x80 + n % 64 - 0x80) = n := by omega
  simp only [decodeReplace, decodeFrom, decodeStep, ha, hb, isTail_ofNat (Nat.mod_lt n (by omega)),
    if_true, hn]
  rw [if_neg (by omega), if_pos (by omega)]
  rfl

/-- The two restrictions on the second byte exclude overlong forms and surrogates. -/
theorem isSecondOfThree_ofNat (h1 : 0x800 ≤ n) (h2 : n < 0x10000) (hsur : n < 0xD800 ∨ 0xDFFF < n) :
    isSecondOfThree (UInt8.ofNat (0xE0 + n / 4096)) (UInt8.ofNat (0x80 + n / 64 % 64)) = true := by
  have ha := toNat_ofNat_of_lt (by omega : 0xE0 + n / 4096 < 256)
  have hb := toNat_ofNat_of_lt (by omega : 0x80 + n / 64 % 64 < 256)
  have htail := isTail_ofNat (Nat.mod_lt (n / 64) (by omega : 64 > 0))
  simp only [isSecondOfThree, htail, ha, hb, Bool.true_and, Bool.and_eq_true, Bool.not_eq_true',
    Bool.and_eq_false_iff, beq_eq_false_iff_ne, decide_eq_false_iff_not]
  omega

theorem isSecondOfFour_ofNat (h1 : 0x10000 ≤ n) (h2 : n < 0x110000) :
    isSecondOfFour (UInt8.ofNat (0xF0 + n / 262144)) (UInt8.ofNat (0x80 + n / 4096 % 64)) = true := by
  have ha := toNat_ofNat_of_lt (by omega : 0xF0 + n / 262144 < 256)
  have hb := toNat_ofNat_of_lt (by omega : 0x80 + n / 4096 % 64 < 256)
  have htail := isTail_ofNat (Nat.mod_lt (n / 4096) (by omega : 64 > 0))
  simp only [isSecondOfFour, htail, ha, hb, Bool.true_and, Bool.and_eq_true, Bool.not_eq_true',
    Bool.and_eq_false_iff, beq_eq_false_iff_ne, decide_eq_false_iff_not]
  omega

theorem decodeReplace_three (h1 : 0x800 ≤ n) (h2 : n < 0x10000)
    (hsur : n < 0xD800 ∨ 0xDFFF < n) (rest : Bytes) :
    decodeReplace (UInt8.ofNat (0xE0 + n / 4096) :: UInt8.ofNat (0x80 + n / 64 % 64)
        :: UInt8.ofNat (0x80 + n % 64) :: rest)
      = Char.ofNat n :: decodeReplace rest := by
  have ha := toNat_ofNat_of_lt (by omega : 0xE0 + n / 4096 < 256)
  have hb := toNat_ofNat_of_lt (by omega : 0x80 + n / 64 % 64 < 256)
  have hc := toNat_ofNat_of_lt (by omega : 0x80 + n % 64 < 256)
  have hsecond := isSecondOfThree_ofNat h1 h2 hsur
  have hn : (0xE0 + n / 4096 - 0xE0) * 4096 + (0x80 + n / 64 % 64 - 0x80) * 64
      + (0x80 + n % 64 - 0x80) = n := by omega
  simp only [decodeReplace, decodeFrom, decodeStep, hsecond, ha, hb, hc, isTail_ofNat (Nat.mod_lt n (by omega)), if_true, hn]
  rw [if_neg (by omega), if_neg (by omega), if_pos (by omega)]
  rfl

theorem decodeReplace_four (h1 : 0x10000 ≤ n) (h2 : n < 0x110000) (rest : Bytes) :
    decodeReplace (UInt8.ofNat (0xF0 + n / 262144) :: UInt8.ofNat (0x80 + n / 4096 % 64)
        :: UInt8.ofNat (0x80 + n / 64 % 64) :: UInt8.ofNat (0x80 + n % 64) :: rest)
      = Char.ofNat n :: decodeReplace rest := by
  have ha := toNat_ofNat_of_lt (by omega : 0xF0 + n / 262144 < 256)
  have hb := toNat_ofNat_of_lt (by omega : 0x80 + n / 4096 % 64 < 256)
  have hc := toNat_ofNat_of_lt (by omega : 0x80 + n / 64 % 64 < 256)
  have hd := toNat_ofNat_of_lt (by omega : 0x80 + n % 64 < 256)
  have hsecond := isSecondOfFour_ofNat h1 h2
  have hn : (0xF0 + n / 262144 - 0xF0) * 262144 + (0x80 + n / 4096 % 64 - 0x80) * 4096
      + (0x80 + n / 64 % 64 - 0x80) * 64 + (0x80 + n % 64 - 0x80) = n := by omega
  simp only [decodeReplace, decodeFrom, decodeStep, hsecond, ha, hb, hc, hd, isTail_ofNat (Nat.mod_lt n (by omega)),
    isTail_ofNat (Nat.mod_lt (n / 64) (by omega)), if_true, hn]
  rw [if_neg (by omega), if_neg (by omega), if_neg (by omega), if_pos (by omega)]
  rfl

/-- **A character's bytes are decoded to the character**, whatever follows them. -/
theorem decodeReplace_encodeChar (ch : Char) (rest : Bytes) :
    decodeReplace (encodeChar ch ++ rest) = ch :: decodeReplace rest := by
  have hlt := toNat_lt_of_char ch
  have hsur := not_surrogate ch
  have hch : Char.ofNat ch.toNat = ch := Char.ofNat_toNat ch
  unfold encodeChar
  by_cases h1 : ch.toNat < 0x80
  · have ha := toNat_ofNat_of_lt (by omega : ch.toNat < 256)
    simp only [h1, if_true, List.singleton_append, decodeReplace, decodeFrom, decodeStep, ha, hch]
  by_cases h2 : ch.toNat < 0x800
  · simp only [h1, h2, if_true, if_false, List.cons_append, List.nil_append]
    rw [decodeReplace_two (by omega) h2, hch]
  by_cases h3 : ch.toNat < 0x10000
  · simp only [h1, h2, h3, if_true, if_false, List.cons_append, List.nil_append]
    rw [decodeReplace_three (by omega) h3 hsur, hch]
  simp only [h1, h2, h3, if_false, List.cons_append, List.nil_append]
  rw [decodeReplace_four (by omega) hlt, hch]

/-! ## Text that is cut -/

theorem length_encodeChar (ch : Char) : (encodeChar ch).length = ch.utf8Size := by
  have hval : ch.val.toNat = ch.toNat := rfl
  unfold encodeChar Char.utf8Size
  simp only [UInt32.le_iff_toNat_le, hval, UInt32.toNat_ofNatLT]
  by_cases h1 : ch.toNat < 0x80
  · rw [if_pos h1, if_pos (by omega)]
    rfl
  by_cases h2 : ch.toNat < 0x800
  · rw [if_neg h1, if_pos h2, if_neg (by omega), if_pos (by omega)]
    rfl
  by_cases h3 : ch.toNat < 0x10000
  · rw [if_neg h1, if_neg h2, if_pos h3, if_neg (by omega), if_neg (by omega), if_pos (by omega)]
    rfl
  rw [if_neg h1, if_neg h2, if_neg h3, if_neg (by omega), if_neg (by omega), if_neg (by omega)]
  rfl

/-- A lead byte alone is no character. -/
theorem decodeReplace_lead (h1 : 0xC2 ≤ n) (h2 : n ≤ 0xF4) :
    decodeReplace [UInt8.ofNat n] = [replacement] := by
  have ha := toNat_ofNat_of_lt (by omega : n < 256)
  simp only [decodeReplace, decodeFrom, decodeStep, ha]
  rw [if_neg (by omega)]
  split_ifs <;> rfl

/-- **A character that is cut is one replacement character.** -/
theorem decodeReplace_take_encodeChar (ch : Char) (hpos : 0 < n) (hn : n < ch.utf8Size) :
    decodeReplace ((encodeChar ch).take n) = [replacement] := by
  have hlt := toNat_lt_of_char ch
  have hsur := not_surrogate ch
  rw [← length_encodeChar] at hn
  unfold encodeChar at hn ⊢
  by_cases h1 : ch.toNat < 0x80
  · simp only [h1, if_true, List.length_singleton] at hn
    omega
  by_cases h2 : ch.toNat < 0x800
  · simp only [h1, h2, if_true, if_false, List.length_cons, List.length_nil] at hn ⊢
    obtain rfl : n = 1 := by omega
    exact decodeReplace_lead (by omega) (by omega)
  by_cases h3 : ch.toNat < 0x10000
  · simp only [h1, h2, h3, if_true, if_false, List.length_cons, List.length_nil] at hn ⊢
    obtain rfl | rfl : n = 1 ∨ n = 2 := by omega
    · exact decodeReplace_lead (by omega) (by omega)
    have ha := toNat_ofNat_of_lt (by omega : 0xE0 + ch.toNat / 4096 < 256)
    have hsecond := isSecondOfThree_ofNat (by omega) h3 hsur
    simp only [List.take_succ_cons, List.take_zero, decodeReplace, decodeFrom, decodeStep, ha, hsecond,
      if_true]
    rw [if_neg (by omega), if_neg (by omega), if_pos (by omega)]
    rfl
  simp only [h1, h2, h3, if_false, List.length_cons, List.length_nil] at hn ⊢
  have ha := toNat_ofNat_of_lt (by omega : 0xF0 + ch.toNat / 262144 < 256)
  have hsecond := isSecondOfFour_ofNat (by omega) hlt
  have htail := isTail_ofNat (Nat.mod_lt (ch.toNat / 64) (by omega : 64 > 0))
  obtain rfl | rfl | rfl : n = 1 ∨ n = 2 ∨ n = 3 := by omega
  · exact decodeReplace_lead (by omega) (by omega)
  · simp only [List.take_succ_cons, List.take_zero, decodeReplace, decodeFrom, decodeStep, ha, hsecond,
      if_true]
    rw [if_neg (by omega), if_neg (by omega), if_neg (by omega), if_pos (by omega)]
    rfl
  simp only [List.take_succ_cons, List.take_zero, decodeReplace, decodeFrom, decodeStep, ha, hsecond,
    htail, if_true]
  rw [if_neg (by omega), if_neg (by omega), if_neg (by omega), if_pos (by omega)]
  rfl

end BlueFerry.Text
