import BlueFerry.Vcard.Stream

/-! # Cards that cannot be told apart

What a card yields does not depend on how the text of the open property is divided into parts, nor on
what was kept of a property that is skipped, nor on anything but its being open once the card has
exceeded its budget. Cards that agree up to this are `Alike`; every operation keeps them so, and
they yield the same body.
-/

namespace BlueFerry.Vcard

open BlueFerry.Text

/-- The cards differ in nothing that shows. -/
inductive Card.Alike : Card → Card → Prop where
  | kept (c : Card) (parts : List Str) (h : parts.flatten = c.parts.flatten) :
      Alike c { c with parts := parts }
  | skipped (c : Card) (parts : List Str) (size : Nat) (h : c.skipped = true) :
      Alike c { c with parts := parts, propertySize := size }
  | overflowed (c d : Card) (hc : c.overflowed = true) (hd : d.overflowed = true)
      (hpresent : c.present = d.present) : Alike c d

variable {c d : Card}

namespace Card.Alike

theorem refl (c : Card) : Alike c c := kept c c.parts rfl

theorem present_eq (h : Alike c d) : c.present = d.present := by
  cases h with
  | kept parts h => rfl
  | skipped parts size h => rfl
  | overflowed _ hc hd hpresent => exact hpresent

theorem overflowed_eq (h : Alike c d) : c.overflowed = d.overflowed := by
  cases h with
  | kept parts h => rfl
  | skipped parts size h => rfl
  | overflowed _ hc hd hpresent => rw [hc, hd]

theorem symm (h : Alike c d) : Alike d c := by
  cases h with
  | kept parts h => exact kept { c with parts := parts } c.parts h.symm
  | skipped parts size h =>
    exact skipped { c with parts := parts, propertySize := size } c.parts c.propertySize h
  | overflowed _ hc hd hpresent => exact overflowed d c hd hc hpresent.symm

theorem trans {e : Card} (h : Alike c d) (h' : Alike d e) : Alike c e := by
  cases h' with
  | overflowed _ hd he hpresent =>
    exact overflowed c e (h.overflowed_eq.trans hd) he (h.present_eq.trans hpresent)
  | kept parts' hparts' =>
    cases h with
    | kept parts hparts => exact kept c parts' (hparts'.trans hparts)
    | skipped parts size hskip => exact skipped c parts' size hskip
    | overflowed _ hc hd hpresent => exact overflowed c _ hc hd hpresent
  | skipped parts' size' hskip' =>
    cases h with
    | kept parts hparts => exact skipped c parts' size' hskip'
    | skipped parts size hskip => exact skipped c parts' size' hskip
    | overflowed _ hc hd hpresent => exact overflowed c _ hc hd hpresent

end Card.Alike

/-! ## The end of the text that is kept -/

/-- A text without trailing space and then without one `=`. -/
def withoutBreak (s : Str) : Str :=
  let last := rstrip isSpace s
  if last.getLast? = some '=' then last.dropLast else last

theorem withoutBreak_append {s t : Str} (h : rstrip isSpace t ≠ []) :
    withoutBreak (s ++ t) = s ++ withoutBreak t := by
  unfold withoutBreak
  rw [rstrip_append, if_neg h]
  dsimp only
  rw [List.getLast?_append_of_ne_nil _ h]
  split
  · rw [List.dropLast_append_of_ne_nil h]
  · rfl

theorem length_withoutBreak_le (s : Str) : (withoutBreak s).length ≤ s.length := by
  have hstrip : (rstrip isSpace s).length ≤ s.length := (List.rdropWhile_prefix isSpace s).length_le
  unfold withoutBreak
  dsimp only
  split
  · rw [List.length_dropLast]
    omega
  · exact hstrip

/-- What is dropped from the end of a list. -/
theorem exists_rdropWhile {α : Type} (p : α → Bool) (l : List α) :
    ∃ r, l = l.rdropWhile p ++ r ∧ ∀ x ∈ r, p x = true := by
  induction l using List.reverseRecOn with
  | nil => exact ⟨[], rfl, fun x hx => nomatch hx⟩
  | append_singleton l a ih =>
    by_cases ha : p a = true
    · obtain ⟨r, hr, hall⟩ := ih
      refine ⟨r ++ [a], ?_, ?_⟩
      · rw [List.rdropWhile_concat_pos _ _ _ ha, ← List.append_assoc, ← hr]
      intro x hx
      rcases List.mem_append.mp hx with hx | hx
      · exact hall x hx
      rw [List.mem_singleton.mp hx]
      exact ha
    · refine ⟨[], ?_, fun x hx => nomatch hx⟩
      rw [List.rdropWhile_concat_neg _ _ _ ha, List.append_nil]

/-- **A soft break is taken off the text, however it is divided into parts.** -/
theorem dropSoftBreak_eq (c : Card) : ∃ parts, parts.flatten = withoutBreak c.parts.flatten ∧
    c.dropSoftBreak = { c with
      parts := parts
      propertySize := c.propertySize -
        (c.parts.flatten.length - (withoutBreak c.parts.flatten).length) } := by
  obtain ⟨blanks, hparts, hblanks⟩ :=
    exists_rdropWhile (fun part => (rstrip isSpace part).isEmpty) c.parts
  have hspace : rstrip isSpace blanks.flatten = [] := by
    refine List.rdropWhile_eq_nil_iff.mpr fun x hx => ?_
    obtain ⟨part, hpart, hx⟩ := List.mem_flatten.mp hx
    have hnil : rstrip isSpace part = [] := by simpa using hblanks part hpart
    exact List.rdropWhile_eq_nil_iff.mp hnil x hx
  have hlast := List.rdropWhile_last_not (fun part => (rstrip isSpace part).isEmpty) c.parts
  unfold Card.dropSoftBreak
  dsimp only
  generalize c.parts.rdropWhile (fun part => (rstrip isSpace part).isEmpty) = kept at hparts hlast ⊢
  have hdropped : ((c.parts.drop kept.length).map List.length).sum = blanks.flatten.length := by
    rw [hparts, List.drop_left, List.length_flatten]
  have htext : c.parts.flatten = kept.flatten ++ blanks.flatten := by
    rw [hparts, List.flatten_append]
  rw [hdropped]
  cases hkept : kept.getLast? with
  | none =>
    -- all parts are blank
    have hnil : kept = [] := List.getLast?_eq_none_iff.mp hkept
    have hbreak : withoutBreak c.parts.flatten = [] := by
      have hstrip : rstrip isSpace c.parts.flatten = [] := by
        rw [htext, rstrip_append, if_pos hspace, hnil]
        rfl
      rw [withoutBreak, hstrip]
      rfl
    refine ⟨[], hbreak.symm, ?_⟩
    rw [hbreak, htext, hnil]
    simp
  | some part =>
    obtain ⟨front, rfl⟩ := List.getLast?_eq_some_iff.mp hkept
    have hpart : rstrip isSpace part ≠ [] := by
      have hne := hlast (by simp)
      simpa using hne
    have hbreak : withoutBreak c.parts.flatten = front.flatten ++ withoutBreak part := by
      have hstrip : rstrip isSpace c.parts.flatten
          = rstrip isSpace (front.flatten ++ part) := by
        rw [htext, rstrip_append, if_pos hspace, List.flatten_append, List.flatten_singleton]
      rw [← withoutBreak_append hpart, withoutBreak, withoutBreak, hstrip]
    refine ⟨front ++ [withoutBreak part], ?_, ?_⟩
    · rw [hbreak, List.flatten_append, List.flatten_singleton]
    have hle := length_withoutBreak_le part
    have hsize : c.propertySize - blanks.flatten.length - (part.length - (withoutBreak part).length)
        = c.propertySize - (c.parts.flatten.length - (withoutBreak c.parts.flatten).length) := by
      rw [hbreak, htext, List.flatten_append, List.flatten_singleton, List.length_append,
        List.length_append, List.length_append]
      omega
    rw [List.dropLast_concat, ← hsize]
    rfl

/-! ## Adding text -/

/-- The text of a property with some more. -/
def Card.append (c : Card) (text : Str) : Card :=
  { c with
    parts := c.parts ++ (if text = [] then [] else [text])
    propertySize := c.propertySize + text.length }

theorem add_of_skipped (h : c.skipped = true) (text : Str) : c.add text = c := by
  rw [Card.add, if_pos h]

theorem append_eq (c : Card) (text : Str) : (if text = [] then c
      else { c with parts := c.parts ++ [text], propertySize := c.propertySize + text.length })
    = c.append text := by
  by_cases h : text = []
  · rw [if_pos h, Card.append, if_pos h, List.append_nil, h]
    rfl
  · rw [if_neg h, Card.append, if_neg h]

/-- Text of a property whose head was read counts against the budget. -/
theorem add_of_decided (hskip : c.skipped = false) (hdecided : c.decided = true) (text : Str) :
    c.add text = (c.append text).checkBudget := by
  have hdec : (c.append text).decided = true := hdecided
  have hsk : (c.append text).skipped = false := hskip
  rw [Card.add, if_neg (by simp [hskip])]
  dsimp only
  rw [append_eq, if_pos hdec, hdec, hsk]
  rfl

/-- Text of a property whose head is still open is read for its head. -/
theorem add_of_undecided (hskip : c.skipped = false) (hdecided : c.decided = false) (text : Str) :
    c.add text =
      if ((c.append text).readHead text).decided && !((c.append text).readHead text).skipped then
        ((c.append text).readHead text).checkBudget
      else (c.append text).readHead text := by
  have hdec : ¬ (c.append text).decided = true := by
    show ¬ c.decided = true
    simp [hdecided]
  rw [Card.add, if_neg (by simp [hskip])]
  dsimp only
  rw [append_eq, if_neg hdec]

/-! ## The division into parts does not show -/

/-- The cards differ in the division of the text of the open property. -/
def Card.Kept (c d : Card) : Prop :=
  ∃ parts, List.flatten parts = c.parts.flatten ∧ d = { c with parts := parts }

theorem Card.Kept.alike (h : c.Kept d) : c.Alike d := by
  obtain ⟨parts, hparts, rfl⟩ := h
  exact Card.Alike.kept c parts hparts

theorem kept_refl (c : Card) : c.Kept c := ⟨c.parts, rfl, rfl⟩

theorem kept_append (h : c.Kept d) (text : Str) : (c.append text).Kept (d.append text) := by
  obtain ⟨parts, hparts, rfl⟩ := h
  refine ⟨parts ++ (if text = [] then [] else [text]), ?_, rfl⟩
  rw [Card.append, List.flatten_append, hparts, List.flatten_append]

theorem kept_checkBudget (h : c.Kept d) : c.checkBudget.Kept d.checkBudget := by
  obtain ⟨parts, hparts, rfl⟩ := h
  unfold Card.checkBudget
  by_cases hover : c.limit < c.size + c.propertySize
  · rw [if_pos hover, if_pos hover]
    exact kept_refl _
  rw [if_neg hover, if_neg hover]
  exact ⟨parts, hparts, rfl⟩

theorem kept_decideHead (h : c.Kept d) (head : Str) :
    (c.decideHead head).Kept (d.decideHead head) := by
  obtain ⟨parts, hparts, rfl⟩ := h
  unfold Card.decideHead
  dsimp only
  split
  · exact kept_refl _
  · exact ⟨parts, hparts, rfl⟩

theorem kept_readHead (h : c.Kept d) (text : Str) : (c.readHead text).Kept (d.readHead text) := by
  obtain ⟨parts, hparts, rfl⟩ := h
  unfold Card.readHead
  dsimp only
  generalize scanHead c.quoted (text.take (maxHeadChars - c.head.length)) = scan
  obtain ⟨quoted, colon⟩ := scan
  cases colon with
  | some index =>
    exact kept_decideHead (c := { c with quoted := quoted })
      (d := { c with quoted := quoted, parts := parts }) ⟨parts, hparts, rfl⟩ _
  | none =>
    dsimp only
    split <;> exact ⟨parts, hparts, rfl⟩

theorem kept_add (h : c.Kept d) (text : Str) : (c.add text).Kept (d.add text) := by
  have hskip : d.skipped = c.skipped := by
    obtain ⟨parts, -, rfl⟩ := h
    rfl
  have hdecided : d.decided = c.decided := by
    obtain ⟨parts, -, rfl⟩ := h
    rfl
  by_cases hs : c.skipped = true
  · rw [add_of_skipped hs, add_of_skipped (hskip.trans hs)]
    exact h
  have hs' : c.skipped = false := by simpa using hs
  by_cases hd : c.decided = true
  · rw [add_of_decided hs' hd, add_of_decided (hskip.trans hs') (hdecided.trans hd)]
    exact kept_checkBudget (kept_append h text)
  have hd' : c.decided = false := by simpa using hd
  rw [add_of_undecided hs' hd', add_of_undecided (hskip.trans hs') (hdecided.trans hd')]
  have hread := kept_readHead (kept_append h text) text
  have hsame : ((d.append text).readHead text).decided = ((c.append text).readHead text).decided ∧
      ((d.append text).readHead text).skipped = ((c.append text).readHead text).skipped := by
    obtain ⟨parts, -, heq⟩ := hread
    rw [heq]
    exact ⟨rfl, rfl⟩
  rw [hsame.1, hsame.2]
  split
  · exact kept_checkBudget hread
  · exact hread

theorem kept_dropSoftBreak (h : c.Kept d) : c.dropSoftBreak.Kept d.dropSoftBreak := by
  obtain ⟨parts, hparts, rfl⟩ := h
  obtain ⟨kept, hkept, hc⟩ := dropSoftBreak_eq c
  obtain ⟨kept', hkept', hd⟩ := dropSoftBreak_eq { c with parts := parts }
  rw [hparts] at hkept' hd
  rw [hc, hd]
  exact ⟨kept', hkept'.trans hkept.symm, rfl⟩

theorem kept_closeProperty (h : c.Kept d) : c.closeProperty.Kept d.closeProperty := by
  obtain ⟨parts, hparts, rfl⟩ := h
  have hbudget := kept_checkBudget (c := { c with decided := true })
    (d := { c with parts := parts, decided := true }) ⟨parts, hparts, rfl⟩
  obtain ⟨parts', hparts', heq⟩ := hbudget
  unfold Card.closeProperty
  split
  · exact ⟨parts, hparts, rfl⟩
  rw [heq]
  dsimp only
  split
  · exact ⟨parts', hparts', rfl⟩
  rw [hparts']
  exact kept_refl _

/-! ## What is kept of a skipped property does not show -/

/-- The cards differ in what is left of a skipped property. -/
def Card.Skipped (c d : Card) : Prop :=
  c.skipped = true ∧ ∃ parts size, d = { c with parts := parts, propertySize := size }

theorem Card.Skipped.alike (h : c.Skipped d) : c.Alike d := by
  obtain ⟨hskip, parts, size, rfl⟩ := h
  exact Card.Alike.skipped c parts size hskip

theorem skipped_add (h : c.Skipped d) (text : Str) : (c.add text).Skipped (d.add text) := by
  obtain ⟨hskip, parts, size, rfl⟩ := h
  rw [add_of_skipped hskip, add_of_skipped (c := { c with parts := parts, propertySize := size }) hskip]
  exact ⟨hskip, parts, size, rfl⟩

theorem skipped_dropSoftBreak (h : c.Skipped d) : c.dropSoftBreak.Skipped d.dropSoftBreak := by
  obtain ⟨hskip, parts, size, rfl⟩ := h
  obtain ⟨kept, -, hc⟩ := dropSoftBreak_eq c
  obtain ⟨kept', -, hd⟩ := dropSoftBreak_eq { c with parts := parts, propertySize := size }
  rw [hc, hd]
  exact ⟨hskip, kept', _, rfl⟩

theorem closeProperty_of_skipped (h : c.skipped = true) : c.closeProperty = c := by
  rw [Card.closeProperty, if_pos (by simp [h])]

theorem closeProperty_of_overflowed (h : c.overflowed = true) : c.closeProperty = c := by
  rw [Card.closeProperty, if_pos (by simp [h])]

/-! ## Lines -/

/-- The property that a line goes on with or begins, and the text that the line adds to it. -/
def Card.opened (c : Card) (text : Str) : Card × Str :=
  let start := text.take wholeLineStart
  if c.softBreak && c.encoding.any (· ∈ quotedPrintableParameters) then
    ({ c.dropSoftBreak with propertySize := c.dropSoftBreak.propertySize + 1 }, text)
  else if c.present && text.head?.any isBlank then
    ({ c with propertySize := c.propertySize + 1 }, if c.version21 then text else text.tail)
  else if c.version21 && c.base64Open && ((strip start).isEmpty || base64Line start) then
    ({ c with base64Open := !(strip start).isEmpty, propertySize := c.propertySize + 1 }, text)
  else (c.closeProperty.resetProperty true, text)

/-- The end of a line. -/
def Card.endLine (c : Card) (text : Str) : Card := { c with softBreak := false }.noteLineEnd text

theorem startLine_of_overflowed (h : c.overflowed = true) (text : Str) : c.startLine text = c := by
  rw [Card.startLine, if_pos h]

theorem startLine_eq (h : c.overflowed = false) (text : Str) :
    c.startLine text = ((c.opened text).1.add (c.opened text).2).endLine text := by
  rw [Card.startLine, if_neg (by simp [h])]
  unfold Card.opened Card.endLine
  dsimp only
  split
  · rfl
  split
  · rfl
  · split <;> rfl

theorem kept_noteLineEnd (h : c.Kept d) (text : Str) :
    (c.noteLineEnd text).Kept (d.noteLineEnd text) := by
  obtain ⟨parts, hparts, rfl⟩ := h
  unfold Card.noteLineEnd
  dsimp only
  split <;> exact ⟨parts, hparts, rfl⟩

theorem skipped_noteLineEnd (h : c.Skipped d) (text : Str) :
    (c.noteLineEnd text).Skipped (d.noteLineEnd text) := by
  obtain ⟨hskip, parts, size, rfl⟩ := h
  unfold Card.noteLineEnd
  dsimp only
  split <;> exact ⟨hskip, parts, size, rfl⟩

theorem kept_endLine (h : c.Kept d) (text : Str) : (c.endLine text).Kept (d.endLine text) := by
  obtain ⟨parts, hparts, rfl⟩ := h
  exact kept_noteLineEnd (c := { c with softBreak := false })
    (d := { c with parts := parts, softBreak := false }) ⟨parts, hparts, rfl⟩ text

theorem skipped_endLine (h : c.Skipped d) (text : Str) :
    (c.endLine text).Skipped (d.endLine text) := by
  obtain ⟨hskip, parts, size, rfl⟩ := h
  exact skipped_noteLineEnd (c := { c with softBreak := false })
    (d := { c with parts := parts, propertySize := size, softBreak := false })
    ⟨hskip, parts, size, rfl⟩ text

theorem kept_opened (h : c.Kept d) (text : Str) :
    (c.opened text).1.Kept (d.opened text).1 ∧ (c.opened text).2 = (d.opened text).2 := by
  obtain ⟨parts, hparts, rfl⟩ := h
  have hdrop := kept_dropSoftBreak (c := c) ⟨parts, hparts, rfl⟩
  have hclose := kept_closeProperty (c := c) ⟨parts, hparts, rfl⟩
  obtain ⟨dropped, hdropped, heq⟩ := hdrop
  obtain ⟨closed, hclosed, heq'⟩ := hclose
  unfold Card.opened
  dsimp only
  rw [heq, heq']
  split
  · exact ⟨⟨dropped, hdropped, rfl⟩, rfl⟩
  split
  · exact ⟨⟨parts, hparts, rfl⟩, rfl⟩
  split
  · exact ⟨⟨parts, hparts, rfl⟩, rfl⟩
  · exact ⟨kept_refl _, rfl⟩

/-- A line that begins a property leaves nothing of a skipped one. -/
theorem skipped_opened (h : c.Skipped d) (text : Str) :
    ((c.opened text).1.Skipped (d.opened text).1 ∨ (c.opened text).1 = (d.opened text).1) ∧
      (c.opened text).2 = (d.opened text).2 := by
  have hdrop := skipped_dropSoftBreak h
  obtain ⟨hskip, parts, size, rfl⟩ := h
  have hclose : Card.closeProperty { c with parts := parts, propertySize := size } =
      { c with parts := parts, propertySize := size } := closeProperty_of_skipped hskip
  obtain ⟨hdropSkip, dropped, left, heq⟩ := hdrop
  unfold Card.opened
  dsimp only
  rw [heq, hclose, closeProperty_of_skipped hskip]
  split
  · exact ⟨Or.inl ⟨hdropSkip, dropped, left + 1, rfl⟩, rfl⟩
  split
  · exact ⟨Or.inl ⟨hskip, parts, size + 1, rfl⟩, rfl⟩
  split
  · exact ⟨Or.inl ⟨hskip, parts, size + 1, rfl⟩, rfl⟩
  · exact ⟨Or.inr rfl, rfl⟩

/-- **A line keeps cards alike.** -/
theorem alike_startLine (h : c.Alike d) (text : Str) :
    (c.startLine text).Alike (d.startLine text) := by
  by_cases hover : c.overflowed = true
  · have hover' : d.overflowed = true := h.overflowed_eq.symm.trans hover
    rw [startLine_of_overflowed hover, startLine_of_overflowed hover']
    exact h
  have hc : c.overflowed = false := by simpa using hover
  have hd : d.overflowed = false := h.overflowed_eq.symm.trans hc
  rw [startLine_eq hc, startLine_eq hd]
  cases h with
  | overflowed _ hover' _ _ => exact absurd hover' hover
  | kept parts hparts =>
    obtain ⟨hopened, htext⟩ := kept_opened (c := c) ⟨parts, hparts, rfl⟩ text
    rw [← htext]
    exact (kept_endLine (kept_add hopened _) text).alike
  | skipped parts size hskip =>
    obtain ⟨hopened, htext⟩ := skipped_opened (c := c) ⟨hskip, parts, size, rfl⟩ text
    rw [← htext]
    rcases hopened with hopened | hopened
    · exact (skipped_endLine (skipped_add hopened _) text).alike
    rw [hopened]
    exact Card.Alike.refl _

/-- **A further piece of a line keeps cards alike.** -/
theorem alike_addPiece (h : c.Alike d) (text : Str) :
    (c.addPiece text).Alike (d.addPiece text) := by
  unfold Card.addPiece
  rw [h.overflowed_eq]
  split
  · exact h
  · next hover =>
    cases h with
    | overflowed _ _ hover' _ => exact absurd hover' hover
    | kept parts hparts =>
      exact (kept_noteLineEnd (kept_add ⟨parts, hparts, rfl⟩ text) text).alike
    | skipped parts size hskip =>
      exact (skipped_noteLineEnd (skipped_add ⟨hskip, parts, size, rfl⟩ text) text).alike

/-- **Cards that are alike yield the same body.** -/
theorem finish_eq_of_alike (h : c.Alike d) : c.finish = d.finish := by
  unfold Card.finish
  cases h with
  | overflowed _ hc hd _ =>
    rw [closeProperty_of_overflowed hc, closeProperty_of_overflowed hd, if_pos hc, if_pos hd]
  | kept parts hparts =>
    obtain ⟨parts', -, heq⟩ := kept_closeProperty (c := c) ⟨parts, hparts, rfl⟩
    rw [heq]
  | skipped parts size hskip =>
    have hclose : Card.closeProperty { c with parts := parts, propertySize := size } =
        { c with parts := parts, propertySize := size } := closeProperty_of_skipped hskip
    rw [closeProperty_of_skipped hskip, hclose]

end BlueFerry.Vcard
