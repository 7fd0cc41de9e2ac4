import BlueFerry.Text.CaseMapping
import BlueFerry.Text.CodePoints

/-! # Search folding

`text_fold.py`: compatibility forms are unified, accents are dropped and case is folded, character
by character, so that a query and the text it is looked up in have one spelling.

The Unicode database beyond its case mappings is the parameter `Unicode`; `Unicode.Lawful` is what is
used of it. The last section is about looking a list up in another.
-/

namespace BlueFerry.Text

structure Unicode where
  /-- `unicodedata.normalize("NFKD", text)` -/
  nfkd : Str → Str
  /-- `unicodedata.category(part) == "Mn"` -/
  isMark : Char → Bool
  /-- `\d` of a regular expression -/
  isDecimal : Char → Bool

/-- ASCII has no other form and no marks, no character but a line feed decomposes to one, and white
space decomposes to one white-space character. -/
structure Unicode.Lawful (u : Unicode) : Prop where
  ascii : ∀ c : Char, c.toNat < 128 → u.nfkd [c] = [c] ∧ u.isMark c = false
  newline : ∀ s : Str, '\n' ∈ u.nfkd s → '\n' ∈ s
  space : ∀ c : Char, isSpace c = true →
    ∃ d, u.nfkd [c] = [d] ∧ isSpace d = true ∧ u.isMark d = false

/-! ## The code -/

/-- `_fold_character` -/
def foldChar (u : Unicode) (c : Char) : Str :=
  (u.nfkd (casefoldChar c)).filter (fun part => !u.isMark part)

/-- `_fold_character` of a code point; a surrogate has no other spelling. -/
def foldCharacter (u : Unicode) : CodePoint → Points
  | .char c => Points.ofStr (foldChar u c)
  | .lone n => [.lone n]

/-- `c.isascii()` -/
def isAscii (c : Char) : Bool := decide (c.toNat < 128)

/-- `str.lower()` of an ASCII character -/
def lowerAscii : CodePoint → CodePoint
  | .char c => .char c.toLower
  | .lone n => .lone n

def fold (u : Unicode) (text : Points) : Points :=
  if text.all (CodePoint.is isAscii) then text.map lowerAscii
  else text.flatMap (foldCharacter u)

/-- The folded characters of a string without surrogates. -/
def folded (u : Unicode) (s : Str) : Str := s.flatMap (foldChar u)

/-! ## Character by character -/

section Characters

variable {u : Unicode}

theorem foldChar_ascii (hu : u.Lawful) {c : Char} (h : c.toNat < 128) :
    foldChar u c = [c.toLower] := by
  have hsmall : c.toLower.toNat < 128 := by
    have hall : ∀ n < 128, (Char.ofNat n).toLower.toNat < 128 := by decide
    exact ascii_cases (p := fun c => c.toLower.toNat < 128) hall h
  obtain ⟨hform, hmark⟩ := hu.ascii _ hsmall
  rw [foldChar, casefoldChar_ascii h, hform]
  simp [hmark]

/-- White space folds to one white-space character. -/
theorem foldChar_space (hu : u.Lawful) {c : Char} (h : isSpace c = true) :
    ∃ d, foldChar u c = [d] ∧ isSpace d = true := by
  obtain ⟨d, hform, hspace, hmark⟩ := hu.space c h
  refine ⟨d, ?_, hspace⟩
  rw [foldChar, casefoldChar_space h, hform]
  simp [hmark]

/-- Only a line feed folds to one. -/
theorem newline_of_mem_foldChar (hu : u.Lawful) {c : Char} (h : '\n' ∈ foldChar u c) : c = '\n' :=
  newline_of_mem_casefoldChar (hu.newline _ (List.mem_of_mem_filter h))

theorem foldCharacter_ascii (hu : u.Lawful) {point : CodePoint} (h : point.is isAscii = true) :
    foldCharacter u point = [lowerAscii point] := by
  cases point with
  | lone n => exact absurd h (by simp [CodePoint.is, CodePoint.char?])
  | char c =>
    have hc : c.toNat < 128 := by
      simpa [CodePoint.is, CodePoint.char?, isAscii] using h
    rw [foldCharacter, foldChar_ascii hu hc]
    rfl

/-- The short way for ASCII agrees with the long one. -/
theorem fold_eq (hu : u.Lawful) (text : Points) : fold u text = text.flatMap (foldCharacter u) := by
  unfold fold
  split
  · next hall =>
    rw [List.all_eq_true] at hall
    induction text with
    | nil => rfl
    | cons point text ih =>
      rw [List.map_cons, List.flatMap_cons, foldCharacter_ascii hu (hall _ (.head _)),
        ih (fun p hp => hall p (List.mem_cons_of_mem _ hp)), List.singleton_append]
  · rfl

theorem fold_append (hu : u.Lawful) (s t : Points) : fold u (s ++ t) = fold u s ++ fold u t := by
  rw [fold_eq hu, fold_eq hu, fold_eq hu, List.flatMap_append]

theorem fold_ofStr (hu : u.Lawful) (s : Str) : fold u (Points.ofStr s) = Points.ofStr (folded u s) := by
  rw [fold_eq hu, folded]
  induction s with
  | nil => rfl
  | cons c s ih =>
    rw [List.flatMap_cons, Points.ofStr, List.map_cons, List.flatMap_cons, Points.ofStr,
      List.map_append]
    exact congrArg (foldCharacter u (.char c) ++ ·) ih

@[simp] theorem folded_nil : folded u [] = [] := rfl

@[simp] theorem folded_append (s t : Str) : folded u (s ++ t) = folded u s ++ folded u t := by
  simp [folded, List.flatMap_append]

@[simp] theorem folded_cons (c : Char) (s : Str) : folded u (c :: s) = foldChar u c ++ folded u s := by
  simp [folded, List.flatMap_cons]

/-- Folding changes no number of white-space characters. -/
theorem length_folded_space (hu : u.Lawful) {g : Str} (h : ∀ c ∈ g, isSpace c = true) :
    (folded u g).length = g.length := by
  induction g with
  | nil => rfl
  | cons c g ih =>
    obtain ⟨d, hd, -⟩ := foldChar_space hu (h c (.head _))
    have hrest := ih (fun c' hc' => h c' (List.mem_cons_of_mem _ hc'))
    rw [folded_cons, hd, List.singleton_append, List.length_cons, List.length_cons, hrest]

theorem folded_space (hu : u.Lawful) {g : Str} (h : ∀ c ∈ g, isSpace c = true) :
    ∀ d ∈ folded u g, isSpace d = true := by
  intro d hd
  obtain ⟨c, hc, hdc⟩ := List.mem_flatMap.mp hd
  obtain ⟨d', hd', hspace⟩ := foldChar_space hu (h c hc)
  rw [hd'] at hdc
  rwa [List.mem_singleton.mp hdc]

end Characters

/-! ## Folding twice -/

section Twice

/-- What a decomposition holds has no other form and gets none when its case is folded; case folding
leaves no marks alone of what is not a mark. -/
structure Unicode.Decomposes (u : Unicode) : Prop where
  parts : ∀ s : Str, ∀ d ∈ u.nfkd s, u.nfkd [d] = [d]
  folded : ∀ d : Char, u.nfkd [d] = [d] → u.nfkd (casefoldChar d) = casefoldChar d
  marks : ∀ d : Char, u.isMark d = false → ∃ e ∈ casefoldChar d, u.isMark e = false

/-- No letter of the character's decomposition has another case folding. -/
def FoldsToFolded (u : Unicode) (c : Char) : Prop :=
  ∀ d ∈ u.nfkd (casefoldChar c), u.isMark d = false → casefoldChar d = [d]

theorem length_le_flatMap {α : Type} {f : α → List α} {l : List α} (hne : ∀ a ∈ l, f a ≠ []) :
    l.length ≤ (l.flatMap f).length := by
  induction l with
  | nil => simp
  | cons a l ih =>
    have hhead := List.length_pos_iff.mpr (hne a (by simp))
    have htail := ih (fun b hb => hne b (by simp [hb]))
    simp only [List.flatMap_cons, List.length_append, List.length_cons]
    omega

/-- Where nothing vanishes, a list is its own image only elementwise. -/
theorem flatMap_eq_self_iff {α : Type} {f : α → List α} {l : List α} (hne : ∀ a ∈ l, f a ≠ []) :
    l.flatMap f = l ↔ ∀ a ∈ l, f a = [a] := by
  induction l with
  | nil => simp
  | cons a l ih =>
    have hrest : ∀ b ∈ l, f b ≠ [] := fun b hb => hne b (by simp [hb])
    rw [List.forall_mem_cons, ← ih hrest, List.flatMap_cons]
    constructor
    · intro h
      have hlength := congrArg List.length h
      have hhead := List.length_pos_iff.mpr (hne a (by simp))
      have htail := length_le_flatMap hrest
      simp only [List.length_append, List.length_cons] at hlength
      have hsplit : f a ++ l.flatMap f = [a] ++ l := h
      exact List.append_inj hsplit (by simp only [List.length_singleton]; omega)
    · rintro ⟨hhead, htail⟩
      rw [hhead, htail, List.singleton_append]

variable {u : Unicode}

theorem foldChar_of_mem (hd : u.Decomposes) {c d : Char} (h : d ∈ foldChar u c) :
    foldChar u d ≠ [] ∧ (foldChar u d = [d] ↔ casefoldChar d = [d]) := by
  obtain ⟨hpart, hmark⟩ := List.mem_filter.mp h
  rw [foldChar, hd.folded d (hd.parts _ d hpart)]
  constructor
  · obtain ⟨e, he, hletter⟩ := hd.marks d (by simpa using hmark)
    exact List.ne_nil_of_mem (List.mem_filter.mpr ⟨he, by simp [hletter]⟩)
  constructor
  · intro hself
    have hmem : d ∈ (casefoldChar d).filter (fun part => !u.isMark part) := by simp [hself]
    exact casefoldChar_of_mem (List.mem_of_mem_filter hmem)
  · intro hself
    rw [hself, List.filter_singleton, hmark, cond_true]

theorem foldCharacter_of_mem (hu : u.Lawful) (hd : u.Decomposes) {text : Points} {point : CodePoint}
    (h : point ∈ fold u text) : foldCharacter u point ≠ [] ∧ (foldCharacter u point = [point] ↔
      ∀ d, point = .char d → casefoldChar d = [d]) := by
  cases point with
  | lone n => simp [foldCharacter]
  | char d =>
    rw [fold_eq hu] at h
    obtain ⟨source, -, hmem⟩ := List.mem_flatMap.mp h
    cases source with
    | lone n => simp [foldCharacter] at hmem
    | char c =>
      have hd := foldChar_of_mem hd (c := c) (d := d) (by simpa [foldCharacter, Points.ofStr] using hmem)
      simpa [foldCharacter, Points.ofStr, List.map_eq_singleton_iff] using hd

/-- A database for texts without marks that have no other form. -/
def markless : Unicode where
  nfkd := fun s => s
  isMark := fun _ => false
  isDecimal := isDigit

theorem markless_lawful : markless.Lawful where
  ascii := fun _ _ => ⟨rfl, rfl⟩
  newline := fun _ h => h
  space := fun c hc => ⟨c, rfl, hc, rfl⟩

theorem markless_decomposes : markless.Decomposes where
  parts := fun _ _ _ => rfl
  folded := fun _ _ => rfl
  marks := fun d _ => by
    obtain ⟨e, he⟩ := List.exists_mem_of_ne_nil _ (casefoldChar_ne_nil d)
    exact ⟨e, he, rfl⟩

end Twice

/-! ## Looking up -/

section Infix

variable {α : Type} {sep : α} {x : List α}

/-- What has no separator is found on one side of it. -/
theorem infix_append_sep (hx : sep ∉ x) (a b : List α) :
    x <:+: a ++ sep :: b ↔ x <:+: a ∨ x <:+: b := by
  constructor
  · rintro ⟨p, q, h⟩
    rcases List.append_eq_append_iff.mp h with ⟨t, ha, -⟩ | ⟨t, hpx, ht⟩
    · exact Or.inl ⟨p, t, ha.symm⟩
    cases t with
    | nil =>
      refine Or.inl ⟨p, [], ?_⟩
      rw [List.append_nil, hpx, List.append_nil]
    | cons e t =>
      obtain ⟨rfl, rfl⟩ := List.cons.inj ht
      -- the separator is behind `p`, so it is in `x` or ends `p`
      rcases List.append_eq_append_iff.mp hpx with ⟨t', -, hx'⟩ | ⟨t', hp, hx'⟩
      · exact absurd (hx' ▸ List.mem_append_right _ (.head _)) hx
      cases t' with
      | nil =>
        rw [List.nil_append] at hx'
        exact absurd (hx' ▸ List.mem_cons_self) hx
      | cons e' t' =>
        obtain ⟨-, rfl⟩ := List.cons.inj hx'
        exact Or.inr ⟨t', q, rfl⟩
  · rintro (h | h)
    · exact h.trans (List.infix_append' [] a (sep :: b))
    · exact h.trans ⟨a ++ [sep], [], by simp⟩

/-- **What has no separator is found in one of the joined pieces.** -/
theorem infix_intercalate (hne : x ≠ []) (hx : sep ∉ x) (pieces : List (List α)) :
    x <:+: List.intercalate [sep] pieces ↔ ∃ piece ∈ pieces, x <:+: piece := by
  induction pieces with
  | nil => simp [List.intercalate, hne]
  | cons piece pieces ih =>
    cases pieces with
    | nil => simp [List.intercalate]
    | cons next rest =>
      have hjoin : List.intercalate [sep] (piece :: next :: rest)
          = piece ++ sep :: List.intercalate [sep] (next :: rest) := by
        simp [List.intercalate]
      rw [hjoin, infix_append_sep hx, ih]
      simp

end Infix

end BlueFerry.Text
