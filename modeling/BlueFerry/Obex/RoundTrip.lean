import BlueFerry.Obex.Injection

/-! # The round trip of the message format

What `parse` reads back from a built message. Both sides strip the outer carriage returns,
newlines and spaces; on a text made of lines this trims the lines at the two ends
(`trimStart`, `trimEnd`), so the comparison is one of lists of lines.

Unstuffing takes the space from every line that reads as stuffed, also where the text had that
space itself. `buildBmessage_roundTrip_iff` says exactly for which texts this changes them: the
first line with text in it is harmless, since stripping takes its leading spaces anyway.
-/

namespace BlueFerry.BMessage

open BlueFerry.Text BlueFerry.Recipients BlueFerry.MapSend BlueFerry.Vcard

/-! ## Stripping a text made of lines -/

theorem isOuter_newline : isOuter '\n' = true := by decide

/-- The lines left by stripping a text on the left. -/
def trimStart : List Str → List Str
  | [] => []
  | l :: ls => if lstrip isOuter l = [] then trimStart ls else lstrip isOuter l :: ls

/-- The lines left by stripping a text on the right. -/
def trimEnd : List Str → List Str
  | [] => []
  | l :: ls =>
    if trimEnd ls = [] then (if rstrip isOuter l = [] then [] else [rstrip isOuter l])
    else l :: trimEnd ls

theorem lstrip_joinLines (ls : List Str) :
    lstrip isOuter (joinLines ls) = joinLines (trimStart ls) := by
  induction ls with
  | nil => rfl
  | cons l ls ih =>
    rw [trimStart]
    by_cases hnil : ls = []
    · subst hnil
      rw [joinLines_singleton]
      split_ifs with h
      · rw [h]
        rfl
      · rw [joinLines_singleton]
    rw [joinLines_cons hnil, lstrip_append]
    split_ifs with h
    · -- the newline after a blank line is stripped with it
      rw [← ih]
      exact List.dropWhile_cons_of_pos isOuter_newline
    · rw [joinLines_cons hnil]

/-- The last of the lines left on the right has text in it. -/
theorem getLast_trimEnd (ls : List Str) : ∀ l, (trimEnd ls).getLast? = some l → l ≠ [] := by
  induction ls with
  | nil =>
    intro l hl
    exact absurd hl (by simp [trimEnd])
  | cons m ls ih =>
    intro l hl
    rw [trimEnd] at hl
    split_ifs at hl with h1 h2
    · exact absurd hl (by simp)
    · rw [List.getLast?_singleton, Option.some.injEq] at hl
      exact hl ▸ h2
    rw [List.getLast?_cons_of_ne_nil h1] at hl
    exact ih l hl

variable {ls : List Str}

theorem joinLines_ne_nil (hne : ls ≠ []) (hlast : ∀ l, ls.getLast? = some l → l ≠ []) :
    joinLines ls ≠ [] := by
  cases ls with
  | nil => exact absurd rfl hne
  | cons l ls =>
    cases ls with
    | nil =>
      rw [joinLines_singleton]
      exact hlast l rfl
    | cons m ms =>
      rw [joinLines_cons (by simp)]
      simp

theorem joinLines_trimEnd_eq_nil : joinLines (trimEnd ls) = [] ↔ trimEnd ls = [] := by
  constructor
  · intro h
    by_contra hne
    exact joinLines_ne_nil hne (getLast_trimEnd ls) h
  · intro h
    rw [h]
    rfl

theorem rstrip_joinLines (ls : List Str) :
    rstrip isOuter (joinLines ls) = joinLines (trimEnd ls) := by
  induction ls with
  | nil => rfl
  | cons l ls ih =>
    rw [trimEnd]
    by_cases hnil : ls = []
    · subst hnil
      rw [joinLines_singleton, if_pos (by rfl)]
      split_ifs with h
      · rw [h]
        rfl
      · rw [joinLines_singleton]
    have htail : rstrip isOuter ('\n' :: joinLines ls)
        = if trimEnd ls = [] then [] else '\n' :: joinLines (trimEnd ls) := by
      rw [show '\n' :: joinLines ls = ['\n'] ++ joinLines ls from rfl, rstrip_append, ih]
      split_ifs with h1 h2 h2
      · rfl
      · exact absurd (joinLines_trimEnd_eq_nil.mp h1) h2
      · exact absurd (joinLines_trimEnd_eq_nil.mpr h2) h1
      · rfl
    rw [joinLines_cons hnil, rstrip_append, htail]
    by_cases hend : trimEnd ls = []
    · rw [if_pos hend, if_pos rfl, if_pos hend]
      split_ifs with h
      · rw [h]
        rfl
      · rw [joinLines_singleton]
    · rw [if_neg hend, if_neg (by simp), if_neg hend, joinLines_cons hend]

/-- **Stripping a text of lines trims its lines.** -/
theorem stripOf_joinLines (ls : List Str) :
    stripOf isOuter (joinLines ls) = joinLines (trimEnd (trimStart ls)) := by
  rw [stripOf, lstrip_joinLines, rstrip_joinLines]

theorem noBreak_of_mem_trimStart (h : ∀ l ∈ ls, NoBreak l) : ∀ l ∈ trimStart ls, NoBreak l := by
  induction ls with
  | nil => exact h
  | cons l ls ih =>
    have htail : ∀ m ∈ ls, NoBreak m := fun m hm => h m (.tail _ hm)
    rw [trimStart]
    split_ifs
    · exact ih htail
    intro m hm
    rcases List.mem_cons.mp hm with rfl | hm
    · intro c hc
      exact h l (.head _) c ((List.dropWhile_suffix isOuter).subset hc)
    · exact htail m hm

theorem noBreak_of_mem_trimEnd (h : ∀ l ∈ ls, NoBreak l) : ∀ l ∈ trimEnd ls, NoBreak l := by
  induction ls with
  | nil => exact h
  | cons l ls ih =>
    have hhead : NoBreak l := h l (.head _)
    have htail := ih (fun m hm => h m (.tail _ hm))
    rw [trimEnd]
    split_ifs
    · simp
    · intro m hm c hc
      rw [List.mem_singleton.mp hm] at hc
      exact hhead c ((List.rdropWhile_prefix isOuter l).subset hc)
    intro m hm
    rcases List.mem_cons.mp hm with rfl | hm
    · exact hhead
    · exact htail m hm

/-! ## Stuffing and unstuffing a line -/

section

variable (line : Str)

/-- A line reads as stuffed: a space, and text that opens a marker. -/
def looksStuffed : Bool := line.head? == some ' ' && opensMarker line.tail

theorem unstuffLine_eq :
    unstuffLine line = if looksStuffed line = true then line.tail else line := by
  simp [unstuffLine, looksStuffed]

theorem opensMarker_nil : opensMarker [] = false := by decide

theorem head_of_opensMarker {line : Str} (h : opensMarker line = true) : line.head? ≠ some ' ' := by
  cases line with
  | nil => simp
  | cons c line =>
    rintro hc
    rw [List.head?_cons, Option.some.injEq] at hc
    rw [hc, opensMarker_space] at h
    exact absurd h (by decide)

/-- **Unstuffing a stuffed line is unstuffing the line itself**: the space that stuffing adds is
taken away again, and a space that the line had is taken with it or left. -/
theorem unstuffLine_stuffLine : unstuffLine (stuffLine line) = unstuffLine line := by
  rw [stuffLine]
  by_cases h : opensMarker line = true
  · have hspace : looksStuffed (' ' :: line) = true := by simp [looksStuffed, h]
    have hline : looksStuffed line = false := by simp [looksStuffed, head_of_opensMarker h]
    rw [if_pos h, unstuffLine_eq, if_pos hspace, unstuffLine_eq, hline]
    rfl
  · rw [if_neg h]

theorem unstuffLine_eq_self_iff : unstuffLine line = line ↔ looksStuffed line = false := by
  rw [unstuffLine_eq]
  split_ifs with h
  · rw [h]
    cases line with
    | nil => exact absurd h (by decide)
    | cons c line => simp
  · simpa using h

/-- Spaces at the end of a line do not matter for its marker. -/
theorem opensMarker_append_spaces {spaces : Str} (h : ∀ c ∈ spaces, c = ' ') :
    opensMarker (line ++ spaces) = opensMarker line := by
  have hup : ∀ c ∈ upper spaces, c = ' ' := by
    intro c hc
    induction spaces with
    | nil => exact absurd hc (by simp [upper])
    | cons d ds ih =>
      have hd : d = ' ' := h d (.head _)
      rw [upper_cons, hd, upperChar_space] at hc
      rcases List.mem_cons.mp hc with rfl | hc
      · rfl
      · exact ih (fun e he => h e (.tail _ he)) hc
  have hpre : ∀ pre : Str, ' ' ∉ pre →
      startsWith (upper (line ++ spaces)) pre = startsWith (upper line) pre := by
    intro pre hspace
    rw [Bool.eq_iff_iff, startsWith_iff, startsWith_iff, upper_append]
    constructor
    · intro hp
      rcases List.prefix_or_prefix_of_prefix hp (List.prefix_append _ _) with hle | ⟨r, hr⟩
      · exact hle
      -- the word would reach into the spaces, and it has none
      rw [← hr, List.prefix_append_right_inj] at hp
      cases r with
      | nil => rw [← hr, List.append_nil]
      | cons c r =>
        have hc : c = ' ' := hup c (hp.subset (.head _))
        exact absurd (by rw [← hr, hc]; simp : ' ' ∈ pre) hspace
    · intro hp
      exact hp.trans (List.prefix_append _ _)
  rw [opensMarker, opensMarker, hpre _ (by decide), hpre _ (by decide)]

theorem eq_space_of_isOuter {c : Char} (ho : isOuter c = true) (hb : isLineBreak c = false) :
    c = ' ' := by
  simp only [isOuter, Bool.or_eq_true, beq_iff_eq] at ho
  rcases ho with (rfl | rfl) | rfl
  · exact absurd hb (by decide)
  · exact absurd hb (by decide)
  · rfl

/-- Stripping a line on the right takes spaces from it. -/
theorem exists_spaces {l : Str} (hl : NoBreak l) :
    ∃ spaces : Str, (∀ c ∈ spaces, c = ' ') ∧ l = rstrip isOuter l ++ spaces := by
  refine ⟨l.rtakeWhile isOuter, ?_, List.rdropWhile_append_rtakeWhile.symm⟩
  intro c hc
  exact eq_space_of_isOuter (List.mem_rtakeWhile_imp hc)
    (hl c ((List.rtakeWhile_suffix isOuter l).subset hc))

theorem looksStuffed_rstrip {l : Str} (hl : NoBreak l) :
    looksStuffed (rstrip isOuter l) = looksStuffed l := by
  obtain ⟨spaces, hspaces, heq⟩ := exists_spaces hl
  conv_rhs => rw [heq]
  cases hr : rstrip isOuter l with
  | nil =>
    have htail : ∀ c ∈ spaces.tail, c = ' ' := fun c hc => hspaces c (List.mem_of_mem_tail hc)
    have hnone := opensMarker_append_spaces [] htail
    rw [List.nil_append, opensMarker_nil] at hnone
    simp [looksStuffed, hnone]
  | cons c r => simp [looksStuffed, opensMarker_append_spaces r hspaces]

theorem unstuffLine_eq_nil : unstuffLine line = [] ↔ line = [] := by
  rw [unstuffLine_eq]
  split_ifs with h
  · cases line with
    | nil => simp
    | cons c line =>
      have hmarker : opensMarker line = true := by
        simp only [looksStuffed, Bool.and_eq_true] at h
        exact h.2
      simp only [List.tail_cons, reduceCtorEq, iff_false]
      rintro rfl
      exact absurd hmarker (by decide)
  · exact Iff.rfl

/-- Unstuffing a line and stripping it on the right do not interfere. -/
theorem rstrip_unstuffLine {l : Str} (hl : NoBreak l) :
    rstrip isOuter (unstuffLine l) = unstuffLine (rstrip isOuter l) := by
  rw [unstuffLine_eq, unstuffLine_eq, looksStuffed_rstrip hl]
  split_ifs with h
  · cases l with
    | nil => rfl
    | cons c t =>
      have hstrip : rstrip isOuter t ≠ [] := by
        intro hnil
        obtain ⟨spaces, hspaces, heq⟩ := exists_spaces (noBreak_cons.mp hl).2
        simp only [looksStuffed, List.tail_cons, Bool.and_eq_true] at h
        rw [heq, hnil, opensMarker_append_spaces [] hspaces] at h
        exact absurd h.2 (by decide)
      rw [show c :: t = [c] ++ t from rfl, rstrip_append, if_neg hstrip]
      rfl
  · rfl

theorem trimEnd_map_unstuffLine (h : ∀ l ∈ ls, NoBreak l) :
    trimEnd (ls.map unstuffLine) = (trimEnd ls).map unstuffLine := by
  induction ls with
  | nil => rfl
  | cons l ls ih =>
    have hl := rstrip_unstuffLine (h l (.head _))
    rw [List.map_cons, trimEnd, trimEnd, ih (fun m hm => h m (.tail _ hm)), hl]
    simp only [List.map_eq_nil_iff, unstuffLine_eq_nil]
    split_ifs <;> rfl

/-! ## The lines that `parse` reads back -/

theorem lstrip_stuffLine : lstrip isOuter (stuffLine line) = lstrip isOuter line := by
  rw [stuffLine]
  split_ifs
  · exact List.dropWhile_cons_of_pos (by decide)
  · rfl

/-- Only the lines after the first one with text in it keep their stuffing. -/
theorem trimStart_map_stuffLine (ls : List Str) :
    trimStart (ls.map stuffLine)
      = (trimStart ls).take 1 ++ ((trimStart ls).drop 1).map stuffLine := by
  induction ls with
  | nil => rfl
  | cons l ls ih =>
    rw [List.map_cons, trimStart, trimStart, lstrip_stuffLine]
    split_ifs
    · exact ih
    · rfl

theorem looksStuffed_lstrip : looksStuffed (lstrip isOuter line) = false := by
  cases h : lstrip isOuter line with
  | nil => rfl
  | cons c l =>
    have hc : isOuter c = false := by
      have hidem : lstrip isOuter (c :: l) = c :: l := by
        rw [← h, lstrip, lstrip, List.dropWhile_idempotent]
      have hnot := List.dropWhile_eq_self_iff.mp hidem (by simp)
      simpa using hnot
    have hspace : c ≠ ' ' := by
      rintro rfl
      exact absurd hc (by decide)
    simp [looksStuffed, hspace]

end

/-- The first line left by stripping does not read as stuffed. -/
theorem looksStuffed_of_mem_take {l : Str} (h : l ∈ (trimStart ls).take 1) :
    looksStuffed l = false := by
  induction ls with
  | nil => exact absurd h (by simp [trimStart])
  | cons m ls ih =>
    rw [trimStart] at h
    split_ifs at h
    · exact ih h
    simp only [List.take_succ_cons, List.take_zero, List.mem_singleton] at h
    rw [h]
    exact looksStuffed_lstrip m

theorem stripOf_append_crlf (s : Str) : stripOf isOuter (s ++ crlf) = stripOf isOuter s := by
  have hcrlf : rstrip isOuter crlf = [] := by decide
  rw [stripOf, stripOf, lstrip_append]
  split_ifs with h
  · rw [h]
    decide
  · rw [rstrip_append, if_pos hcrlf]

/-- **What `parse` reads back**: the trimmed lines of the text, each of them unstuffed. -/
theorem unstuff_byteStuff (body : Str) :
    unstuff (byteStuff body ++ crlf)
      = joinLines ((trimEnd (trimStart (splitLines body))).map unstuffLine) := by
  set lines := splitLines body with hlines
  have hbreak : ∀ l ∈ trimStart (lines.map stuffLine), NoBreak l :=
    noBreak_of_mem_trimStart (noBreak_stuffed body)
  have hbreak' : ∀ l ∈ trimStart lines, NoBreak l :=
    noBreak_of_mem_trimStart (fun l hl => noBreak_of_mem_splitLines hl)
  have hsplit : splitLines (joinLines (trimEnd (trimStart (lines.map stuffLine))))
      = trimEnd (trimStart (lines.map stuffLine)) :=
    splitLines_joinLines (noBreak_of_mem_trimEnd hbreak) (getLast_trimEnd _)
  have hmap : (trimStart (lines.map stuffLine)).map unstuffLine
      = (trimStart lines).map unstuffLine := by
    rw [trimStart_map_stuffLine, List.map_append, List.map_map]
    conv_rhs => rw [← List.take_append_drop 1 (trimStart lines), List.map_append]
    congr 1
    exact List.map_congr_left (fun l _ => unstuffLine_stuffLine l)
  have hstrip : stripOf isOuter (byteStuff body ++ crlf)
      = joinLines (trimEnd (trimStart (lines.map stuffLine))) := by
    rw [stripOf_append_crlf, byteStuff, stripOf_joinLines]
  have hread : unstuff (byteStuff body ++ crlf)
      = joinLines ((trimEnd (trimStart (lines.map stuffLine))).map unstuffLine) := by
    simp only [unstuff, hstrip, hsplit]
    split_ifs with h
    · rw [joinLines_trimEnd_eq_nil.mp h]
      rfl
    · rfl
  rw [hread, ← trimEnd_map_unstuffLine hbreak, hmap, trimEnd_map_unstuffLine hbreak']

/-- The lines after the first one that has more in it than spaces. -/
def innerLines (body : Str) : List Str :=
  ((splitLines body).dropWhile (fun line => line.all (· == ' '))).tail

theorem lstrip_eq_nil_iff_blank {l : Str} (hl : NoBreak l) :
    lstrip isOuter l = [] ↔ l.all (· == ' ') = true := by
  rw [lstrip_eq_nil, List.all_eq_true]
  constructor
  · intro h c hc
    rw [beq_iff_eq]
    exact eq_space_of_isOuter (h c hc) (hl c hc)
  · intro h c hc
    rw [beq_iff_eq.mp (h c hc)]
    decide

theorem tail_trimStart (h : ∀ l ∈ ls, NoBreak l) :
    (trimStart ls).tail = (ls.dropWhile (fun line => line.all (· == ' '))).tail := by
  induction ls with
  | nil => rfl
  | cons l ls ih =>
    have hl := lstrip_eq_nil_iff_blank (h l (.head _))
    rw [trimStart, List.dropWhile_cons]
    by_cases hblank : lstrip isOuter l = []
    · rw [if_pos hblank, if_pos (hl.mp hblank)]
      exact ih (fun m hm => h m (.tail _ hm))
    rw [if_neg hblank, if_neg (fun hb => hblank (hl.mpr hb))]
    rfl

/-- A line with text in it is kept by trimming, perhaps without its last spaces. -/
theorem mem_trimEnd {l : Str} (hl : l ∈ ls) (htext : rstrip isOuter l ≠ []) :
    l ∈ trimEnd ls ∨ rstrip isOuter l ∈ trimEnd ls := by
  induction ls with
  | nil => exact absurd hl (by simp)
  | cons m ls ih =>
    rw [trimEnd]
    rcases List.mem_cons.mp hl with rfl | hl
    · split_ifs
      · exact .inr (.head _)
      · exact .inl (.head _)
    have hkept := ih hl
    have hne : trimEnd ls ≠ [] := by
      rintro hnil
      rw [hnil] at hkept
      simp at hkept
    rw [if_neg hne]
    exact hkept.imp (List.mem_cons_of_mem _) (List.mem_cons_of_mem _)

theorem looksStuffed_of_rstrip_eq_nil {l : Str} (hl : NoBreak l) (h : rstrip isOuter l = []) :
    looksStuffed l = false := by
  rw [← looksStuffed_rstrip hl, h]
  rfl

/-- The trimmed lines are all left by unstuffing iff no inner line of the text reads as stuffed. -/
theorem map_unstuffLine_eq_self_iff (body : Str) :
    (trimEnd (trimStart (splitLines body))).map unstuffLine = trimEnd (trimStart (splitLines body))
      ↔ ∀ line ∈ innerLines body, looksStuffed line = false := by
  have hbreak : ∀ l ∈ splitLines body, NoBreak l := fun l hl => noBreak_of_mem_splitLines hl
  have htrim := noBreak_of_mem_trimStart hbreak
  have hparts := (List.take_append_drop 1 (trimStart (splitLines body))).symm
  rw [innerLines, ← tail_trimStart hbreak, ← List.drop_one]
  constructor
  · intro h line hline
    have hmem : line ∈ trimStart (splitLines body) := List.mem_of_mem_drop hline
    by_cases htext : rstrip isOuter line = []
    · exact looksStuffed_of_rstrip_eq_nil (htrim line hmem) htext
    have hfix : ∀ l ∈ trimEnd (trimStart (splitLines body)), unstuffLine l = l := by
      rw [← List.map_inj_left, List.map_id']
      exact h
    rcases mem_trimEnd hmem htext with hkept | hkept
    · exact (unstuffLine_eq_self_iff line).mp (hfix line hkept)
    rw [← looksStuffed_rstrip (htrim line hmem)]
    exact (unstuffLine_eq_self_iff _).mp (hfix _ hkept)
  · intro h
    rw [← trimEnd_map_unstuffLine htrim]
    have hfix : ∀ l ∈ trimStart (splitLines body), unstuffLine l = l := by
      intro l hl
      rw [unstuffLine_eq_self_iff]
      rw [hparts] at hl
      rcases List.mem_append.mp hl with hl | hl
      · exact looksStuffed_of_mem_take hl
      · exact h l hl
    rw [List.map_congr_left hfix, List.map_id']

/-- **The round trip holds exactly for texts without an inner line that reads as stuffed.** -/
theorem unstuff_byteStuff_iff (body : Str) :
    unstuff (byteStuff body ++ crlf) = stripOf isOuter (joinLines (splitLines body))
      ↔ ∀ line ∈ innerLines body, looksStuffed line = false := by
  set lines := trimEnd (trimStart (splitLines body)) with hlines
  have hbreak : ∀ l ∈ lines, NoBreak l :=
    noBreak_of_mem_trimEnd (noBreak_of_mem_trimStart (fun l hl => noBreak_of_mem_splitLines hl))
  have hline : ∀ l ∈ lines, '\n' ∉ l := fun l hl => newline_not_mem_of_noBreak (hbreak l hl)
  have hline' : ∀ l ∈ lines.map unstuffLine, '\n' ∉ l := by
    intro l hl hmem
    obtain ⟨m, hm, rfl⟩ := List.mem_map.mp hl
    rw [unstuffLine] at hmem
    split_ifs at hmem
    · exact hline m hm (List.mem_of_mem_tail hmem)
    · exact hline m hm hmem
  rw [← map_unstuffLine_eq_self_iff, unstuff_byteStuff, stripOf_joinLines, ← hlines]
  constructor
  · intro h
    by_cases hnil : lines = []
    · rw [hnil]
      rfl
    · exact joinLines_inj hline' hline (by simpa using hnil) hnil h
  · intro h
    rw [h]

/-- **The round trip of the message format.** For every accepted recipient and every body within
the size limit, what is parsed from the built message is the body with its line breaks
normalised and stripped, iff no line after the first one with text reads as stuffed. -/
theorem buildBmessage_roundTrip_iff {recipient normalized body : Str}
    (h : validateRecipient recipient = .ok normalized)
    (hsize : utf8Size body ≤ maxOutgoingBodyBytes) :
    (∃ blob, buildBmessage recipient body = .ok blob
        ∧ (parse blob).body = some (stripOf isOuter (joinLines (splitLines body))))
      ↔ ∀ line ∈ innerLines body, looksStuffed line = false := by
  have hcards : CardLines (vcardLines normalized) :=
    cardLines_vcardLines (noBreak_of_validateRecipient h)
  have hbody : (parse (bmessageText (vcardLines normalized) (byteStuff body))).body
      = some (unstuff (byteStuff body ++ crlf)) := by
    simp only [parse, messageBody_bmessageText hcards, Option.map_some]
  rw [← unstuff_byteStuff_iff, buildBmessage_eq h hsize]
  constructor
  · rintro ⟨blob, hblob, hparse⟩
    rw [Except.ok.injEq] at hblob
    rw [← hblob, hbody, Option.some.injEq] at hparse
    exact hparse
  · intro hunstuff
    exact ⟨_, rfl, by rw [hbody, hunstuff]⟩

theorem buildBmessage_roundTrip_quoted :
    ∃ blob, buildBmessage "911".toList " END:a\n END\nBEGIN:VCARD\r\n".toList = .ok blob
      ∧ (parse blob).body = some (stripOf isOuter
          (joinLines (splitLines " END:a\n END\nBEGIN:VCARD\r\n".toList))) :=
  (buildBmessage_roundTrip_iff
    (by decide +kernel : validateRecipient "911".toList = .ok "911".toList) (by decide)).mpr
    (by decide)

/-- A quoted line that begins with a space and a marker loses its space. -/
theorem buildBmessage_loses_space :
    validateRecipient "911".toList = .ok "911".toList
      ∧ utf8Size "a\n BEGIN:x".toList ≤ maxOutgoingBodyBytes
      ∧ ¬ ∃ blob, buildBmessage "911".toList "a\n BEGIN:x".toList = .ok blob
          ∧ (parse blob).body
              = some (stripOf isOuter (joinLines (splitLines "a\n BEGIN:x".toList))) := by
  have hr : validateRecipient "911".toList = .ok "911".toList := by decide +kernel
  have hsize : utf8Size "a\n BEGIN:x".toList ≤ maxOutgoingBodyBytes := by decide
  refine ⟨hr, hsize, ?_⟩
  rintro ⟨blob, hblob, hparse⟩
  have hcards := cardLines_vcardLines (noBreak_of_validateRecipient hr)
  rw [buildBmessage_eq hr hsize, Except.ok.injEq] at hblob
  rw [← hblob] at hparse
  simp only [parse, messageBody_bmessageText hcards, Option.map_some, Option.some.injEq] at hparse
  exact absurd hparse (by decide)

end BlueFerry.BMessage
