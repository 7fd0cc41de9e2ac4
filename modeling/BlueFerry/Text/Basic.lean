import Mathlib.Data.Char
import Mathlib.Data.List.DropRight
import Mathlib.Data.List.Lex
import Mathlib.Tactic

/-! # Strings

A string is the list of its characters. Python's own strings may hold a lone surrogate, which
`Char` cannot; such a string has no UTF-8 form, so it cannot be sent, stored or received.

The operations are those of `str`: `isSpace` and `isLineBreak` are the two classes of
characters that `str.strip()` and `str.splitlines()` act on.
-/

namespace BlueFerry.Text

/-- A string, as the list of its characters. -/
abbrev Str := List Char

instance instLawfulBEqStr : LawfulBEq Str := inferInstance

instance instLawfulBEqOptionStr : LawfulBEq (Option Str) := inferInstance

/-! ## Character classes -/

/-- `str.isspace()` of one character; `\s` of a regular expression is the same class. -/
def isSpace (c : Char) : Bool :=
  let n := c.toNat
  (9 ≤ n && n ≤ 13) || (28 ≤ n && n ≤ 32) || n == 0x85 || n == 0xA0 || n == 0x1680
    || (0x2000 ≤ n && n ≤ 0x200A) || n == 0x2028 || n == 0x2029 || n == 0x202F
    || n == 0x205F || n == 0x3000

/-- The characters at which `str.splitlines()` ends a line. -/
def isLineBreak (c : Char) : Bool :=
  let n := c.toNat
  (10 ≤ n && n ≤ 13) || (28 ≤ n && n ≤ 30) || n == 0x85 || n == 0x2028 || n == 0x2029

/-- `[0-9]`. -/
def isDigit (c : Char) : Bool := 48 ≤ c.toNat && c.toNat ≤ 57

/-- `[A-Za-z]`. -/
def isLetter (c : Char) : Bool :=
  (65 ≤ c.toNat && c.toNat ≤ 90) || (97 ≤ c.toNat && c.toNat ≤ 122)

variable {c sep : Char} {p : Char → Bool} {s : Str}

/-- A property of the ASCII characters is checked one by one. -/
theorem ascii_cases {p : Char → Prop} (h : ∀ n < 128, p (Char.ofNat n))
    (hc : c.toNat < 128) : p c := by
  rw [← Char.ofNat_toNat c]
  exact h _ hc

/-- The elements of a list are checked one by one, and no others: among the ways to decide a
statement about all characters is also one that goes through all of them. -/
theorem forall_of_all {α : Type} {p : α → Prop} [DecidablePred p] {l : List α}
    (h : l.all (fun x => decide (p x)) = true) : ∀ x ∈ l, p x := by
  simpa [List.all_eq_true] using h

theorem mem_of_lookup {α β : Type} [BEq α] [LawfulBEq α] {table : List (α × β)} {a : α} {b : β}
    (h : table.lookup a = some b) : (a, b) ∈ table := by
  obtain ⟨before, after, htable, -⟩ := List.lookup_eq_some_iff.mp h
  rw [htable]
  simp

/-! ## Stripping -/

section

variable (p : Char → Bool)

/-- `str.lstrip` of the characters in `p`. -/
def lstrip (s : Str) : Str := s.dropWhile p

/-- `str.rstrip` of the characters in `p`. -/
def rstrip (s : Str) : Str := s.rdropWhile p

/-- `str.strip` of the characters in `p`. -/
def stripOf (s : Str) : Str := rstrip p (lstrip p s)

/-- `str.strip()`. -/
def strip (s : Str) : Str := stripOf isSpace s

theorem lstrip_append (s t : Str) :
    lstrip p (s ++ t) = if lstrip p s = [] then lstrip p t else lstrip p s ++ t := by
  unfold lstrip
  rw [List.dropWhile_append]
  simp

theorem rstrip_append (s t : Str) :
    rstrip p (s ++ t) = if rstrip p t = [] then rstrip p s else s ++ rstrip p t := by
  unfold rstrip List.rdropWhile
  rw [List.reverse_append, List.dropWhile_append]
  by_cases h : List.dropWhile p t.reverse = []
  · simp [h]
  rw [if_neg (by simpa [List.isEmpty_iff] using h), if_neg (by simpa using h)]
  simp

end

theorem lstrip_eq_nil : lstrip p s = [] ↔ ∀ c ∈ s, p c = true := List.dropWhile_eq_nil_iff

theorem rstrip_eq_nil : rstrip p s = [] ↔ ∀ c ∈ s, p c = true := List.rdropWhile_eq_nil_iff

/-- What stripping takes off is in `p`. -/
theorem exists_stripOf (p : Char → Bool) (s : Str) : ∃ lead trail,
    s = lead ++ (stripOf p s ++ trail) ∧ (∀ c ∈ lead, p c = true) ∧ ∀ c ∈ trail, p c = true := by
  refine ⟨s.takeWhile p, (s.dropWhile p).rtakeWhile p, ?_,
    fun c hc => List.mem_takeWhile_imp hc, fun c hc => List.mem_rtakeWhile_imp hc⟩
  have hdrop : stripOf p s ++ (s.dropWhile p).rtakeWhile p = s.dropWhile p :=
    List.rdropWhile_append_rtakeWhile
  rw [hdrop, List.takeWhile_append_dropWhile]

/-- What is around a text in `p` is what stripping takes off. -/
theorem stripOf_surrounded {lead trail : Str} (hlead : ∀ c ∈ lead, p c = true)
    (htrail : ∀ c ∈ trail, p c = true) : stripOf p (lead ++ (s ++ trail)) = stripOf p s := by
  rw [stripOf, stripOf, lstrip_append, if_pos (lstrip_eq_nil.mpr hlead), lstrip_append]
  split
  · next hs => rw [hs, lstrip_eq_nil.mpr htrail]
  · rw [rstrip_append, if_pos (rstrip_eq_nil.mpr htrail)]

theorem stripOf_within (p : Char → Bool) (s : Str) : stripOf p s <:+: s := by
  obtain ⟨lead, trail, hs, -, -⟩ := exists_stripOf p s
  exact ⟨lead, trail, by rw [List.append_assoc]; exact hs.symm⟩

/-- A string neither of whose ends is in `p` is not changed by stripping. -/
theorem stripOf_eq_self (hhead : ∀ c, s.head? = some c → p c = false)
    (hlast : ∀ c, s.getLast? = some c → p c = false) : stripOf p s = s := by
  have hl : lstrip p s = s := by
    cases s with
    | nil => rfl
    | cons c s => rw [lstrip, List.dropWhile_cons_of_neg (by simp [hhead c rfl])]
  rw [stripOf, hl, rstrip, List.rdropWhile_eq_self_iff]
  intro hne
  simp [hlast _ (List.getLast?_eq_some_getLast hne)]

/-- A stripped string does not begin with a character in `p`. -/
theorem head_stripOf (hc : (stripOf p s).head? = some c) : p c = false := by
  have hbegins : stripOf p s <+: lstrip p s := List.rdropWhile_prefix p (lstrip p s)
  have hne : lstrip p s ≠ [] := by
    intro hnil
    rw [hnil] at hbegins
    rw [List.prefix_nil.mp hbegins] at hc
    nomatch hc
  have hhead : (lstrip p s).head hne = c := by
    obtain ⟨t, ht⟩ := hbegins
    have hsome : (lstrip p s).head? = some c := by rw [← ht, List.head?_append, hc, Option.some_or]
    exact Option.some.inj ((List.head?_eq_some_head hne).symm.trans hsome)
  rw [← hhead]
  exact List.head_dropWhile_not p hne

/-- A stripped string does not end with a character in `p`. -/
theorem getLast_stripOf (hc : (stripOf p s).getLast? = some c) : p c = false := by
  have hne : stripOf p s ≠ [] := by
    intro hnil
    rw [hnil] at hc
    nomatch hc
  have hlast := Option.some.inj ((List.getLast?_eq_some_getLast hne).symm.trans hc)
  have hnot := List.rdropWhile_last_not p (lstrip p s) hne
  rw [← hlast]
  exact Bool.not_eq_true _ ▸ hnot

/-- Stripping twice is stripping once. -/
theorem stripOf_stripOf (p : Char → Bool) (s : Str) : stripOf p (stripOf p s) = stripOf p s :=
  stripOf_eq_self (fun _ hc => head_stripOf hc) (fun _ hc => getLast_stripOf hc)

/-! ## Splitting and searching -/

/-- `str.startswith`. -/
def startsWith (s pre : Str) : Bool := pre.isPrefixOf s

/-- `str.partition` at one character, without the separator. -/
def partition (sep : Char) (s : Str) : Str × Str :=
  (s.takeWhile (· != sep), (s.dropWhile (· != sep)).tail)

/-- `str.split` at one character: the pieces between its occurrences. -/
def splitChar (sep : Char) : Str → List Str
  | [] => [[]]
  | c :: s =>
    if c = sep then [] :: splitChar sep s
    else match splitChar sep s with
      | [] => [[c]]
      | l :: ls => (c :: l) :: ls

/-- `sep.join(pieces)` for a separator of one character. -/
def join (sep : Char) (ls : List Str) : Str := List.intercalate [sep] ls

theorem startsWith_iff (s pre : Str) : startsWith s pre = true ↔ pre <+: s := by
  rw [startsWith, List.isPrefixOf_iff_prefix]

theorem partition_append {t : Str} (h : sep ∉ s) : partition sep (s ++ sep :: t) = (s, t) := by
  have hs : ∀ c ∈ s, (c != sep) = true := by
    intro c hc
    simp only [bne_iff_ne, ne_eq]
    rintro rfl
    exact h hc
  simp [partition, List.takeWhile_append_of_pos hs, List.dropWhile_append_of_pos hs]

theorem splitChar_ne_nil (sep : Char) (s : Str) : splitChar sep s ≠ [] := by
  cases s with
  | nil => simp [splitChar]
  | cons c s =>
    rw [splitChar]
    split_ifs
    · simp
    · split <;> simp

/-- A separator parts the pieces before it from those after it. -/
theorem splitChar_append_sep (sep : Char) (s t : Str) :
    splitChar sep (s ++ sep :: t) = splitChar sep s ++ splitChar sep t := by
  induction s with
  | nil => simp [splitChar]
  | cons c s ih =>
    rw [List.cons_append, splitChar, splitChar, ih]
    by_cases hc : c = sep
    · simp [hc]
    rw [if_neg hc, if_neg hc]
    cases hs : splitChar sep s with
    | nil => exact absurd hs (splitChar_ne_nil sep s)
    | cons l ls => rfl

theorem splitChar_of_not_mem {l : Str} (h : sep ∉ l) : splitChar sep l = [l] := by
  induction l with
  | nil => rfl
  | cons c l ih =>
    rw [List.mem_cons, not_or] at h
    rw [splitChar, if_neg (fun hc => h.1 hc.symm), ih h.2]

@[simp] theorem join_singleton (sep : Char) (l : Str) : join sep [l] = l :=
  List.intercalate_singleton

theorem join_cons {l : Str} {ls : List Str} (h : ls ≠ []) :
    join sep (l :: ls) = l ++ sep :: join sep ls := by
  rw [join, List.intercalate_cons_of_ne_nil h]
  simp [join]

/-- **Splitting undoes joining**, when no piece holds the separator. -/
theorem splitChar_join {ls : List Str} (hls : ∀ l ∈ ls, sep ∉ l) :
    splitChar sep (join sep ls) = if ls = [] then [[]] else ls := by
  induction ls with
  | nil => rfl
  | cons l ls ih =>
    have hl := splitChar_of_not_mem (hls l (.head _))
    have hrest := ih (fun m hm => hls m (.tail _ hm))
    by_cases hnil : ls = []
    · subst hnil
      simpa using hl
    rw [if_neg hnil] at hrest
    rw [join_cons hnil, splitChar_append_sep, hl, hrest, if_neg (by simp)]
    rfl

theorem mem_splitChar (sep : Char) (hc : c ∈ s) : c = sep ∨ ∃ l ∈ splitChar sep s, c ∈ l := by
  induction s with
  | nil => cases hc
  | cons d s ih =>
    rw [splitChar]
    by_cases hd : d = sep
    · rw [if_pos hd]
      rcases List.mem_cons.mp hc with rfl | hc
      · exact .inl hd
      rcases ih hc with h | ⟨l, hl, hcl⟩
      · exact .inl h
      · exact .inr ⟨l, .tail _ hl, hcl⟩
    rw [if_neg hd]
    cases hs : splitChar sep s with
    | nil => exact absurd hs (splitChar_ne_nil sep s)
    | cons m ms =>
      rw [hs] at ih
      rcases List.mem_cons.mp hc with rfl | hc
      · exact .inr ⟨c :: m, .head _, .head _⟩
      rcases ih hc with h | ⟨l, hl, hcl⟩
      · exact .inl h
      rcases List.mem_cons.mp hl with rfl | hl
      · exact .inr ⟨d :: l, .head _, .tail _ hcl⟩
      · exact .inr ⟨l, .tail _ hl, hcl⟩

/-- A map that neither makes nor removes separators commutes with splitting. -/
theorem splitChar_map {f : Char → Char} (hf : ∀ c ∈ s, (f c = sep ↔ c = sep)) :
    splitChar sep (s.map f) = (splitChar sep s).map (List.map f) := by
  induction s with
  | nil => rfl
  | cons c s ih =>
    have hs := ih (fun d hd => hf d (.tail _ hd))
    have hc := hf c (.head _)
    rw [List.map_cons, splitChar, splitChar, hs]
    by_cases h : c = sep
    · rw [if_pos (hc.mpr h), if_pos h]
      rfl
    rw [if_neg (fun hfc => h (hc.mp hfc)), if_neg h]
    cases splitChar sep s with
    | nil => rfl
    | cons l ls => rfl

/-! ## UTF-8 size -/

/-- `len(s.encode("utf-8"))`. -/
def utf8Size (s : Str) : Nat := (s.map Char.utf8Size).sum

end BlueFerry.Text
