import BlueFerry.Text.Lines

/-! # Cutting a text in two

A reader sees a text in parts, and a part may end within a line. A text falls into what ends with a
line break and what is left of the line after it (`exists_closed_open`). After a part that ends with
a line break the lines go on by themselves (`lineChunks_append_closed`), but for a `"\r\n"` that is
cut in two: its `"\n"` adds no line (`splitLines_append_cut_crlf`).
-/

namespace BlueFerry.Text

/-- The text is empty or ends with a line break. -/
def Closed (s : Str) : Prop := ∀ c, s.getLast? = some c → isLineBreak c = true

theorem closed_nil : Closed [] := fun _ h => nomatch h

variable {c : Char} {s t : Str}

theorem closed_cons (h : Closed (c :: s)) (hne : s ≠ []) : Closed s := by
  intro d hd
  apply h
  rw [List.getLast?_cons_of_ne_nil hne]
  exact hd

theorem closed_append (hs : Closed s) (ht : Closed t) : Closed (s ++ t) := by
  intro c hc
  cases t with
  | nil => exact hs c (by simpa using hc)
  | cons d t =>
    rw [List.getLast?_append_of_ne_nil _ (by simp)] at hc
    exact ht c hc

/-- A line break ends a line, unless it is the first half of a `"\r\n"`. -/
theorem lineChunks_break (hc : isLineBreak c = true)
    (h : ¬ (c = '\r' ∧ s.head? = some '\n')) : lineChunks (c :: s) = ([], [c]) :: lineChunks s := by
  rw [lineChunks, if_pos hc]
  rintro t rfl rfl
  exact h ⟨rfl, rfl⟩

/-- The rest of a line that was begun belongs to its first line. -/
theorem lineChunks_append_open {l : Str} (hl : NoBreak l) {m : Str} {rest : List (Str × Str)}
    (hs : lineChunks s = (m, t) :: rest) : lineChunks (l ++ s) = (l ++ m, t) :: rest := by
  induction l with
  | nil => exact hs
  | cons c l ih =>
    rw [noBreak_cons] at hl
    rw [List.cons_append, lineChunks_cons hl.1, ih hl.2]
    rfl

theorem lineChunks_ne_nil (h : s ≠ []) : lineChunks s ≠ [] := by
  unfold lineChunks
  split
  · exact absurd rfl h
  · simp
  split
  · simp
  · split <;> simp

/-- **After a line break the lines go on by themselves.** -/
theorem lineChunks_append_closed (hs : Closed s)
    (h : ¬ (s.getLast? = some '\r' ∧ t.head? = some '\n')) :
    lineChunks (s ++ t) = lineChunks s ++ lineChunks t := by
  induction s using lineChunks.induct with
  | case1 => rfl
  | case2 s ih =>
    have hrest : Closed s ∧ ¬ (s.getLast? = some '\r' ∧ t.head? = some '\n') := by
      cases s with
      | nil => exact ⟨closed_nil, by simp⟩
      | cons d s =>
        refine ⟨closed_cons (closed_cons hs (by simp)) (by simp), fun hcut => h ⟨?_, hcut.2⟩⟩
        rw [List.getLast?_cons_of_ne_nil (by simp), List.getLast?_cons_of_ne_nil (by simp)]
        exact hcut.1
    show lineChunks (crlf ++ (s ++ t)) = lineChunks (crlf ++ s) ++ lineChunks t
    rw [lineChunks_crlf, lineChunks_crlf, ih hrest.1 hrest.2, List.cons_append]
  | case3 c s hnot hc ih =>
    have hcut : ¬ (c = '\r' ∧ s.head? = some '\n') := by
      rintro ⟨rfl, hhead⟩
      obtain ⟨s', rfl⟩ := List.head?_eq_some_iff.mp hhead
      exact hnot s' rfl rfl
    cases s with
    | nil =>
      rw [List.cons_append, List.nil_append, lineChunks_break hc hcut, lineChunks_break hc]
      · rfl
      · rintro ⟨rfl, hhead⟩
        exact h ⟨rfl, hhead⟩
    | cons d s =>
      rw [List.cons_append, lineChunks_break hc hcut, lineChunks_break hc (by simpa using hcut),
        ih (closed_cons hs (by simp)), List.cons_append]
      rintro ⟨hlast, hhead⟩
      refine h ⟨?_, hhead⟩
      rw [List.getLast?_cons_of_ne_nil (by simp)]
      exact hlast
  | case4 c s hnot hc hnil ih =>
    -- a last character that ends no line
    have hs' : s = [] := by
      by_contra hne
      exact lineChunks_ne_nil hne hnil
    subst hs'
    exact absurd (hs c rfl) hc
  | case5 c s hnot hc l m rest hcons ih =>
    have hne : s ≠ [] := by
      rintro rfl
      cases hcons
    have hbreak : isLineBreak c = false := by simpa using hc
    have hrest : lineChunks (s ++ t) = lineChunks s ++ lineChunks t := by
      refine ih (closed_cons hs hne) (fun hcut => h ⟨?_, hcut.2⟩)
      rw [List.getLast?_cons_of_ne_nil hne]
      exact hcut.1
    rw [List.cons_append, lineChunks_cons hbreak, hrest, lineChunks_cons hbreak, hcons]
    rfl

theorem splitLines_append_closed (hs : Closed s)
    (h : ¬ (s.getLast? = some '\r' ∧ t.head? = some '\n')) :
    splitLines (s ++ t) = splitLines s ++ splitLines t := by
  rw [splitLines, lineChunks_append_closed hs h, List.map_append]
  rfl

theorem flatten_splitLinesKeep (s : Str) : (splitLinesKeep s).flatten = s := by
  induction s using lineChunks.induct with
  | case1 => rfl
  | case2 s ih =>
    rw [splitLinesKeep] at ih
    rw [splitLinesKeep, lineChunks]
    simp [ih]
  | case3 c s hnot hc ih =>
    rw [splitLinesKeep] at ih
    rw [splitLinesKeep, lineChunks.eq_3 _ _ hnot, if_pos hc]
    simp [ih]
  | case4 c s hnot hc hnil ih =>
    rw [splitLinesKeep, hnil] at ih
    rw [splitLinesKeep, lineChunks.eq_3 _ _ hnot, if_neg hc, hnil, ← ih]
    rfl
  | case5 c s hnot hc l m rest hcons ih =>
    rw [splitLinesKeep, hcons] at ih
    rw [splitLinesKeep, lineChunks.eq_3 _ _ hnot, if_neg hc, hcons]
    simpa using ih

/-- A line of a text has only characters of the text. -/
theorem mem_of_mem_splitLines {l : Str} (hl : l ∈ splitLines s) (hc : c ∈ l) : c ∈ s := by
  obtain ⟨p, hp, rfl⟩ := List.mem_map.mp hl
  rw [← flatten_splitLinesKeep s]
  exact List.mem_flatten.mpr ⟨_, List.mem_map.mpr ⟨p, hp, rfl⟩, List.mem_append_left _ hc⟩

/-- A character that ends no line extends the first line. -/
theorem splitLines_cons (hc : isLineBreak c = false) (s : Str) :
    splitLines (c :: s) = match splitLines s with
      | [] => [[c]]
      | l :: ls => (c :: l) :: ls := by
  rw [splitLines, splitLines, lineChunks_cons hc]
  cases lineChunks s with
  | nil => rfl
  | cons chunk rest => rfl

theorem splitLines_crlf (s : Str) : splitLines ('\r' :: '\n' :: s) = [] :: splitLines s := by
  rw [splitLines, lineChunks]
  rfl

theorem splitLines_break (hc : isLineBreak c = true)
    (h : ¬ (c = '\r' ∧ s.head? = some '\n')) : splitLines (c :: s) = [] :: splitLines s := by
  rw [splitLines, lineChunks_break hc h]
  rfl

/-- **The second half of a `"\r\n"` adds no line.** -/
theorem splitLines_append_cut_crlf (h : s.getLast? = some '\r') :
    splitLines (s ++ ['\n']) = splitLines s := by
  induction s using lineChunks.induct with
  | case1 => cases h
  | case2 s ih =>
    cases s with
    | nil => exact absurd (Option.some.inj h) (by decide)
    | cons d s =>
      rw [List.getLast?_cons_of_ne_nil (by simp), List.getLast?_cons_of_ne_nil (by simp)] at h
      rw [List.cons_append, List.cons_append, splitLines_crlf, splitLines_crlf, ih h]
  | case3 c s hnot hc ih =>
    cases s with
    | nil =>
      have hcr : c = '\r' := Option.some.inj h
      subst hcr
      rfl
    | cons d s =>
      have hcut : ¬ (c = '\r' ∧ (d :: s).head? = some '\n') := by
        rintro ⟨rfl, hhead⟩
        exact hnot s rfl (by rw [Option.some.inj hhead])
      rw [List.getLast?_cons_of_ne_nil (by simp)] at h
      rw [List.cons_append, splitLines_break hc hcut, splitLines_break hc (by simpa using hcut),
        ih h]
  | case4 c s hnot hc hnil ih =>
    have hs : s = [] := by
      by_contra hne
      exact lineChunks_ne_nil hne hnil
    subst hs
    have hcr : c = '\r' := Option.some.inj h
    subst hcr
    exact absurd rfl hc
  | case5 c s hnot hc l m rest hcons ih =>
    have hne : s ≠ [] := by
      rintro rfl
      cases hcons
    have hbreak : isLineBreak c = false := by simpa using hc
    rw [List.getLast?_cons_of_ne_nil hne] at h
    rw [List.cons_append, splitLines_cons hbreak, splitLines_cons hbreak, ih h]

/-- **A text is what ends with a line break and the line that is still open.** -/
theorem exists_closed_open (s : Str) : ∃ a l, s = a ++ l ∧ Closed a ∧ NoBreak l ∧
    lineChunks s = lineChunks a ++ (if l = [] then [] else [(l, [])]) ∧
    ∀ p ∈ lineChunks a, p.2 ≠ [] := by
  induction s using lineChunks.induct with
  | case1 => exact ⟨[], [], rfl, closed_nil, noBreak_nil, rfl,
    fun p hp => absurd hp List.not_mem_nil⟩
  | case2 s ih =>
    obtain ⟨a, l, rfl, ha, hl, hlines, hends⟩ := ih
    refine ⟨crlf ++ a, l, rfl, closed_append ?_ ha, hl, ?_, ?_⟩
    · intro c hc
      have hnl : c = '\n' := (Option.some.inj hc).symm
      subst hnl
      rfl
    · show lineChunks (crlf ++ (a ++ l)) = _
      rw [lineChunks_crlf, lineChunks_crlf, hlines, List.cons_append]
    rw [lineChunks_crlf]
    intro p hp
    rcases List.mem_cons.mp hp with rfl | hp
    · exact List.cons_ne_nil _ _
    · exact hends p hp
  | case3 c s hnot hc ih =>
    obtain ⟨a, l, rfl, ha, hl, hlines, hends⟩ := ih
    have hcut : ¬ (c = '\r' ∧ (a ++ l).head? = some '\n') := by
      rintro ⟨rfl, hhead⟩
      obtain ⟨s', hs'⟩ := List.head?_eq_some_iff.mp hhead
      exact hnot s' rfl hs'
    have hcut' : ¬ (c = '\r' ∧ a.head? = some '\n') := by
      rintro ⟨hcr, hhead⟩
      exact hcut ⟨hcr, by rw [List.head?_append, hhead]; rfl⟩
    refine ⟨c :: a, l, rfl, closed_append (s := [c]) ?_ ha, hl, ?_, ?_⟩
    · intro d hd
      rw [← Option.some.inj hd]
      exact hc
    · rw [lineChunks_break hc hcut, lineChunks_break hc hcut', hlines, List.cons_append]
    rw [lineChunks_break hc hcut']
    intro p hp
    rcases List.mem_cons.mp hp with rfl | hp
    · exact List.cons_ne_nil _ _
    · exact hends p hp
  | case4 c s hnot hc hnil ih =>
    have hs : s = [] := by
      by_contra hne
      exact lineChunks_ne_nil hne hnil
    subst hs
    have hbreak : isLineBreak c = false := by simpa using hc
    refine ⟨[], [c], rfl, closed_nil, noBreak_cons.mpr ⟨hbreak, noBreak_nil⟩, ?_,
      fun p hp => absurd hp List.not_mem_nil⟩
    rw [lineChunks_cons hbreak]
    rfl
  | case5 c s hnot hc l m rest hcons ih =>
    have hbreak : isLineBreak c = false := by simpa using hc
    obtain ⟨a, o, rfl, ha, ho, hlines, hends⟩ := ih
    cases a with
    | nil =>
      -- the whole text is one open line
      rw [List.nil_append] at hcons hlines ⊢
      have hne : o ≠ [] := by
        rintro rfl
        cases hcons
      refine ⟨[], c :: o, rfl, closed_nil, noBreak_cons.mpr ⟨hbreak, ho⟩, ?_,
        fun p hp => absurd hp List.not_mem_nil⟩
      rw [lineChunks_cons hbreak, lineChunks_of_noBreak ho hne]
      rfl
    | cons d a =>
      have hchunks : lineChunks (d :: a) ≠ [] := lineChunks_ne_nil (by simp)
      obtain ⟨first, more, hfirst⟩ := List.exists_cons_of_ne_nil hchunks
      have hcons' : lineChunks (c :: d :: a) = (c :: first.1, first.2) :: more := by
        rw [lineChunks_cons hbreak, hfirst]
      refine ⟨c :: d :: a, o, rfl, ?_, ho, ?_, ?_⟩
      · intro x hx
        rw [List.getLast?_cons_of_ne_nil (by simp)] at hx
        exact ha x hx
      · rw [lineChunks_cons hbreak, hlines, hfirst, hcons']
        rfl
      rw [hcons']
      rw [hfirst] at hends
      intro p hp
      rcases List.mem_cons.mp hp with rfl | hp
      · exact hends first (.head _)
      · exact hends p (.tail _ hp)

end BlueFerry.Text
