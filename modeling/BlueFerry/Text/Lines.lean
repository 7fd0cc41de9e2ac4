import BlueFerry.Text.Basic

/-! # Lines of a string

`str.splitlines()` ends a line at each of ten characters and takes `"\r\n"` as one end.
`lineChunks` keeps every line with the terminator that ended it, so both forms of
`splitlines`, with and without the ends, are maps of it.

A text that is put together from lines by a join is split again into the same lines
(`splitLines_join_append`), as long as no line holds a line break of its own.
-/

namespace BlueFerry.Text

/-! ## Splitting -/

/-- The lines of `s`, each with its terminator; the last one may have none. -/
def lineChunks : Str → List (Str × Str)
  | [] => []
  | '\r' :: '\n' :: s => ([], ['\r', '\n']) :: lineChunks s
  | c :: s =>
    if isLineBreak c then ([], [c]) :: lineChunks s
    else match lineChunks s with
      | [] => [([c], [])]
      | (l, t) :: rest => (c :: l, t) :: rest

/-- `str.splitlines()`. -/
def splitLines (s : Str) : List Str := (lineChunks s).map Prod.fst

/-- `str.splitlines(keepends=True)`. -/
def splitLinesKeep (s : Str) : List Str := (lineChunks s).map (fun p => p.1 ++ p.2)

/-- `"\n".join(lines)`. -/
def joinLines (ls : List Str) : Str := join '\n' ls

def crlf : Str := ['\r', '\n']

/-- No character of `l` ends a line. -/
def NoBreak (l : Str) : Prop := ∀ c ∈ l, isLineBreak c = false

instance (l : Str) : Decidable (NoBreak l) :=
  List.decidableBAll (fun c => isLineBreak c = false) l

@[simp] theorem noBreak_nil : NoBreak [] := by
  intro c hc
  cases hc

variable {l : Str} {ls : List Str}

theorem noBreak_cons {c : Char} : NoBreak (c :: l) ↔ isLineBreak c = false ∧ NoBreak l := by
  simp [NoBreak]

theorem noBreak_append {m : Str} : NoBreak (l ++ m) ↔ NoBreak l ∧ NoBreak m := by
  simp only [NoBreak, List.mem_append]
  exact ⟨fun h => ⟨fun c hc => h c (Or.inl hc), fun c hc => h c (Or.inr hc)⟩,
    fun h c hc => hc.elim (h.1 c) (h.2 c)⟩

/-- Adding a character that ends no line extends the first line. -/
theorem lineChunks_cons {c : Char} (hc : isLineBreak c = false) (s : Str) :
    lineChunks (c :: s) = match lineChunks s with
      | [] => [([c], [])]
      | (l, t) :: rest => (c :: l, t) :: rest := by
  rw [lineChunks, if_neg (by simp [hc])]
  rintro s' rfl -
  simp [isLineBreak] at hc

theorem lineChunks_crlf (s : Str) : lineChunks (crlf ++ s) = ([], crlf) :: lineChunks s := by
  show lineChunks ('\r' :: '\n' :: s) = _
  rw [lineChunks]
  rfl

theorem lineChunks_newline (s : Str) : lineChunks ('\n' :: s) = ([], ['\n']) :: lineChunks s := by
  rw [lineChunks, if_pos (by decide)]
  intro s' h
  exact absurd h (by decide)

/-- A line before a text whose first line is empty becomes that first line. -/
theorem lineChunks_append (hl : NoBreak l) {s t : Str} {rest : List (Str × Str)}
    (hs : lineChunks s = ([], t) :: rest) : lineChunks (l ++ s) = (l, t) :: rest := by
  induction l with
  | nil => exact hs
  | cons c l ih =>
    rw [noBreak_cons] at hl
    rw [List.cons_append, lineChunks_cons hl.1, ih hl.2]

theorem lineChunks_of_noBreak (hl : NoBreak l) (hne : l ≠ []) : lineChunks l = [(l, [])] := by
  induction l with
  | nil => exact absurd rfl hne
  | cons c l ih =>
    rw [noBreak_cons] at hl
    rw [lineChunks_cons hl.1]
    cases l with
    | nil => rfl
    | cons d l => rw [ih hl.2 (by simp)]

/-- No line of a text holds a line break. -/
theorem noBreak_of_mem_lineChunks (s : Str) : ∀ p ∈ lineChunks s, NoBreak p.1 := by
  induction s using lineChunks.induct with
  | case1 => simp [lineChunks]
  | case2 s ih =>
    rw [lineChunks]
    intro p hp
    rcases List.mem_cons.mp hp with rfl | hp
    · exact noBreak_nil
    · exact ih p hp
  | case3 c s hnot hc ih =>
    rw [lineChunks.eq_3 _ _ hnot, if_pos hc]
    intro p hp
    rcases List.mem_cons.mp hp with rfl | hp
    · exact noBreak_nil
    · exact ih p hp
  | case4 c s hnot hc hnil ih =>
    rw [lineChunks.eq_3 _ _ hnot, if_neg hc, hnil]
    intro p hp
    rw [List.mem_singleton] at hp
    subst hp
    simpa [NoBreak] using hc
  | case5 c s hnot hc l t rest hcons ih =>
    rw [lineChunks.eq_3 _ _ hnot, if_neg hc, hcons]
    rw [hcons] at ih
    intro p hp
    rcases List.mem_cons.mp hp with rfl | hp
    · exact noBreak_cons.mpr ⟨by simpa using hc, ih _ (.head _)⟩
    · exact ih p (List.mem_cons_of_mem _ hp)

theorem noBreak_of_mem_splitLines {s : Str} (hl : l ∈ splitLines s) : NoBreak l := by
  obtain ⟨p, hp, rfl⟩ := List.mem_map.mp hl
  exact noBreak_of_mem_lineChunks s p hp

/-! ## Joining and splitting again -/

@[simp] theorem joinLines_nil : joinLines [] = [] := rfl

@[simp] theorem joinLines_singleton (l : Str) : joinLines [l] = l := join_singleton _ l

theorem joinLines_cons (h : ls ≠ []) :
    joinLines (l :: ls) = l ++ '\n' :: joinLines ls := join_cons h

theorem splitLines_append_newline (hl : NoBreak l) (s : Str) :
    splitLines (l ++ '\n' :: s) = l :: splitLines s := by
  rw [splitLines, lineChunks_append hl (lineChunks_newline s)]
  rfl

theorem splitLines_append_crlf (hl : NoBreak l) (s : Str) :
    splitLines (l ++ crlf ++ s) = l :: splitLines s := by
  rw [splitLines, List.append_assoc, lineChunks_append hl (lineChunks_crlf s)]
  rfl

/-- **Joined lines split again into themselves** when a line end follows them; the join of no
line at all leaves one empty line. -/
theorem splitLines_join_append (hls : ∀ l ∈ ls, NoBreak l) (s : Str) :
    splitLines (joinLines ls ++ crlf ++ s) = (if ls = [] then [[]] else ls) ++ splitLines s := by
  induction ls with
  | nil => exact splitLines_append_crlf noBreak_nil s
  | cons l ls ih =>
    have hl : NoBreak l := hls l (.head _)
    have hrest := ih (fun m hm => hls m (List.mem_cons_of_mem _ hm))
    by_cases hnil : ls = []
    · subst hnil
      simpa using splitLines_append_crlf hl s
    rw [if_neg hnil] at hrest
    rw [joinLines_cons hnil, if_neg (by simp), List.append_assoc, List.append_assoc,
      List.cons_append, splitLines_append_newline hl, ← List.append_assoc, hrest]
    rfl

/-- Joined lines split again into themselves when the last of them is not empty. -/
theorem splitLines_joinLines (hls : ∀ l ∈ ls, NoBreak l)
    (hlast : ∀ l, ls.getLast? = some l → l ≠ []) : splitLines (joinLines ls) = ls := by
  induction ls with
  | nil => rfl
  | cons l ls ih =>
    have hl : NoBreak l := hls l (.head _)
    by_cases hnil : ls = []
    · subst hnil
      rw [joinLines_singleton, splitLines, lineChunks_of_noBreak hl (hlast l rfl)]
      rfl
    · rw [joinLines_cons hnil, splitLines_append_newline hl,
        ih (fun m hm => hls m (List.mem_cons_of_mem _ hm))
          (fun m hm => hlast m (by rw [List.getLast?_cons_of_ne_nil hnil]; exact hm))]

/-! ## Lines ended by a newline only

A scan with `str.find("\n")`, and `^` of a multi-line regular expression, know no other line
end. The last of the `rawLines` is what follows the last newline. -/

/-- The pieces of `s` between newlines. -/
def rawLines (s : Str) : List Str := splitChar '\n' s

/-- A newline separates the pieces before it from those after it. -/
theorem rawLines_append_newline (s t : Str) :
    rawLines (s ++ '\n' :: t) = rawLines s ++ rawLines t := splitChar_append_sep _ s t

theorem rawLines_of_not_mem (h : '\n' ∉ l) : rawLines l = [l] :=
  splitChar_of_not_mem h

theorem newline_not_mem_of_noBreak (h : NoBreak l) : '\n' ∉ l := by
  intro hmem
  have := h _ hmem
  simp [isLineBreak] at this

theorem rawLines_joinLines (hls : ∀ l ∈ ls, '\n' ∉ l) :
    rawLines (joinLines ls) = if ls = [] then [[]] else ls := splitChar_join hls

/-- Joins of lines without newlines are equal only for equal lines. -/
theorem joinLines_inj {ms : List Str} (hl : ∀ l ∈ ls, '\n' ∉ l) (hm : ∀ l ∈ ms, '\n' ∉ l)
    (hlne : ls ≠ []) (hmne : ms ≠ []) (h : joinLines ls = joinLines ms) : ls = ms := by
  have := congrArg rawLines h
  rwa [rawLines_joinLines hl, rawLines_joinLines hm, if_neg hlne, if_neg hmne] at this

end BlueFerry.Text
