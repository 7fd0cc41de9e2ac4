import BlueFerry.Vcard.Passes

/-! # A streamed text and a whole one

A reader that cuts a text into chunks hands over long lines in pieces. The card adds the pieces as it
would add the line: once the head of a property was read, its text may come in parts
(`alike_addPiece_append`), and the first piece is long enough to read the head from, if the separator
is among the first 256 characters of the line (`SeparatorInWindow`).

So the bodies are those of the whole lines, for every text whose markers are shorter than 256
characters and whose longer lines have their separator in this window or go on with a property that
has had it (`InWindow`).
-/

namespace BlueFerry.Vcard

open BlueFerry.Text

/-! ## The end of a line in pieces -/

/-- What `_note_line_end` notes. -/
def noted (softBreak : Bool) (text : Str) : Bool :=
  if rstrip isSpace text = [] then softBreak else (rstrip isSpace text).getLast? == some '='

theorem noteLineEnd_eq (c : Card) (text : Str) :
    c.noteLineEnd text = { c with softBreak := noted c.softBreak text } := by
  unfold Card.noteLineEnd noted
  dsimp only
  split <;> rfl

theorem noted_append (softBreak : Bool) (s t : Str) :
    noted (noted softBreak s) t = noted softBreak (s ++ t) := by
  by_cases ht : rstrip isSpace t = []
  · have hspace : rstrip isSpace (s ++ t) = rstrip isSpace s := by rw [rstrip_append, if_pos ht]
    rw [noted, if_pos ht, noted, noted, hspace]
  have happend : rstrip isSpace (s ++ t) = s ++ rstrip isSpace t := by
    rw [rstrip_append, if_neg ht]
  have hne : rstrip isSpace (s ++ t) ≠ [] := by
    rw [happend]
    exact List.append_ne_nil_of_right_ne_nil _ ht
  rw [noted, if_neg ht, noted, if_neg hne, happend, List.getLast?_append_of_ne_nil _ ht]

section

variable (c : Card)

/-- Whether a line ends in a soft break is noted piece by piece. -/
theorem noteLineEnd_append (s t : Str) :
    (c.noteLineEnd s).noteLineEnd t = c.noteLineEnd (s ++ t) := by
  rw [noteLineEnd_eq, noteLineEnd_eq, noteLineEnd_eq, ← noted_append]

theorem append_noteLineEnd (s t : Str) :
    (c.noteLineEnd s).append t = (c.append t).noteLineEnd s := by
  rw [noteLineEnd_eq, noteLineEnd_eq]
  rfl

theorem checkBudget_noteLineEnd (s : Str) :
    (c.noteLineEnd s).checkBudget = c.checkBudget.noteLineEnd s := by
  rw [noteLineEnd_eq, noteLineEnd_eq]
  unfold Card.checkBudget
  split <;> rfl

@[simp] theorem overflowed_noteLineEnd (s : Str) : (c.noteLineEnd s).overflowed = c.overflowed := by
  rw [noteLineEnd_eq]

@[simp] theorem present_noteLineEnd (s : Str) : (c.noteLineEnd s).present = c.present := by
  rw [noteLineEnd_eq]

/-! ## Text in parts -/

theorem kept_append_append (s t : Str) : ((c.append s).append t).Kept (c.append (s ++ t)) := by
  refine ⟨c.parts ++ (if s ++ t = [] then [] else [s ++ t]), ?_, ?_⟩
  · have hflat : ∀ u : Str, (if u = [] then [] else [u] : List Str).flatten = u := by
      intro u
      by_cases hu : u = []
      · rw [if_pos hu, hu]
        rfl
      · rw [if_neg hu, List.flatten_singleton]
    rw [Card.append, Card.append, List.flatten_append, List.flatten_append, List.flatten_append,
      hflat, hflat, hflat, List.append_assoc]
  · rw [Card.append, Card.append, Card.append, List.length_append, Nat.add_assoc]

end

variable {c d : Card}

variable {s text : Str} {quoted : Bool}

/-- A property whose head was read takes the rest of its text in parts: it exceeds the budget with the
first part that does, or with the whole text. -/
theorem alike_grow (hover : c.overflowed = false) (hskip : c.skipped = false)
    (hdecided : c.decided = true) {t : Str} (h : (c.append t).Kept d) :
    ((c.checkBudget.noteLineEnd s).addPiece t).Alike (d.checkBudget.noteLineEnd (s ++ t)) := by
  by_cases hbudget : c.limit < c.size + c.propertySize
  · -- the first part is too much already
    have hc : c.checkBudget.overflowed = true := by
      rw [Card.checkBudget, if_pos hbudget]
    have hd : d.checkBudget.overflowed = true := by
      obtain ⟨parts, -, rfl⟩ := h
      rw [Card.checkBudget, if_pos]
      show c.limit < c.size + (c.propertySize + t.length)
      omega
    have hpresent : c.checkBudget.present = d.checkBudget.present := by
      have hsame : ∀ e : Card, e.checkBudget.present = e.present := by
        intro e
        unfold Card.checkBudget
        split <;> rfl
      obtain ⟨parts, -, rfl⟩ := h
      rw [hsame, hsame]
      rfl
    rw [Card.addPiece, if_pos (by simpa using hc)]
    exact Card.Alike.overflowed _ _ (by simpa using hc) (by simpa using hd) (by simpa using hpresent)
  · have hc : c.checkBudget = c := by
      rw [Card.checkBudget, if_neg hbudget]
    have hadd : (c.noteLineEnd s).add t = (c.append t).checkBudget.noteLineEnd s := by
      rw [add_of_decided, append_noteLineEnd, checkBudget_noteLineEnd]
      · rw [noteLineEnd_eq]
        exact hskip
      · rw [noteLineEnd_eq]
        exact hdecided
    rw [hc, Card.addPiece, if_neg (by simp [hover]), hadd, noteLineEnd_append]
    exact (kept_noteLineEnd (kept_checkBudget h) (s ++ t)).alike

/-- The text of the open property may come in parts. -/
def Card.Steady (c : Card) : Prop := c.overflowed = true ∨ c.skipped = true ∨ c.decided = true

/-- **Two pieces are added as one.** -/
theorem alike_addPiece_append (h : c.Steady) (s t : Str) :
    ((c.addPiece s).addPiece t).Alike (c.addPiece (s ++ t)) := by
  by_cases hover : c.overflowed = true
  · have hself : ∀ u, c.addPiece u = c := fun u => by rw [Card.addPiece, if_pos hover]
    rw [hself, hself, hself]
    exact Card.Alike.refl c
  have hno : c.overflowed = false := by simpa using hover
  by_cases hskip : c.skipped = true
  · have hself : ∀ e : Card, e.overflowed = false → e.skipped = true → ∀ u,
        e.addPiece u = e.noteLineEnd u := by
      intro e ho hs u
      rw [Card.addPiece, if_neg (by simp [ho]), add_of_skipped hs]
    rw [hself c hno hskip, hself c hno hskip, hself, noteLineEnd_append]
    · exact Card.Alike.refl _
    · rw [overflowed_noteLineEnd]
      exact hno
    · rw [noteLineEnd_eq]
      exact hskip
  have hs : c.skipped = false := by simpa using hskip
  have hd : c.decided = true := (h.resolve_left hover).resolve_left hskip
  have hadd : ∀ u, c.addPiece u = (c.append u).checkBudget.noteLineEnd u := by
    intro u
    rw [Card.addPiece, if_neg hover, add_of_decided hs hd]
  rw [hadd, hadd]
  exact alike_grow (c := c.append s) hno hs hd (kept_append_append c s t)

theorem steady_addPiece (h : c.Steady) (s : Str) : (c.addPiece s).Steady := by
  unfold Card.addPiece
  by_cases hover : c.overflowed = true
  · rw [if_pos hover]
    exact .inl hover
  rw [if_neg hover]
  by_cases hskip : c.skipped = true
  · refine .inr (.inl ?_)
    rw [add_of_skipped hskip, noteLineEnd_eq]
    exact hskip
  have hs : c.skipped = false := by simpa using hskip
  have hd : c.decided = true := (h.resolve_left hover).resolve_left hskip
  refine .inr (.inr ?_)
  rw [add_of_decided hs hd, noteLineEnd_eq]
  unfold Card.checkBudget
  split <;> exact hd

/-! ## The head of a property -/

/-- A separator that was found stays where it is when text follows. -/
theorem scanHead_append {i : Nat} (h : (scanHead quoted s).2 = some i)
    (t : Str) : scanHead quoted (s ++ t) = scanHead quoted s ∧ i < s.length := by
  induction s generalizing quoted i with
  | nil => nomatch h
  | cons c s ih =>
    rw [List.cons_append, scanHead, scanHead]
    rw [scanHead] at h
    by_cases hquote : c = '"'
    · rw [if_pos hquote] at h ⊢
      rw [if_pos hquote]
      obtain ⟨j, hj, rfl⟩ := Option.map_eq_some_iff.mp h
      obtain ⟨hscan, hlt⟩ := ih hj
      rw [hscan, List.length_cons]
      exact ⟨rfl, by omega⟩
    rw [if_neg hquote] at h ⊢
    rw [if_neg hquote]
    by_cases hcolon : c = ':' ∧ quoted = false
    · rw [if_pos hcolon] at h ⊢
      rw [if_pos hcolon, ← Option.some.inj h, List.length_cons]
      exact ⟨rfl, by omega⟩
    rw [if_neg hcolon] at h ⊢
    rw [if_neg hcolon]
    obtain ⟨j, hj, rfl⟩ := Option.map_eq_some_iff.mp h
    obtain ⟨hscan, hlt⟩ := ih hj
    rw [hscan, List.length_cons]
    exact ⟨rfl, by omega⟩

/-- What follows the first part of a text, when the head was read from it. -/
structure Card.Follows (c r s : Card) (t : Str) : Prop where
  decided : r.decided = true
  overflowed : r.overflowed = c.overflowed
  rest : (r.skipped = false ∧ (r.append t).Kept s) ∨ r.Skipped s

/-- A head is decided alike, whatever follows it. -/
theorem follows_decideHead (hskip : c.skipped = false) (head s t : Str) :
    c.Follows ((c.append s).decideHead head) ((c.append (s ++ t)).decideHead head) t := by
  obtain ⟨parts, hparts, heq⟩ := kept_append_append c s t
  have hsize : (c.append (s ++ t)).parts = parts := by rw [heq]
  unfold Card.decideHead
  by_cases hsel : upper (((splitChar '.' (strip ((splitUnquoted ';' false head).headD []))).getLast?).getD [])
      ∈ skippedProperties
  · rw [if_pos hsel, if_pos hsel]
    exact ⟨rfl, rfl, .inr ⟨rfl, [], _, rfl⟩⟩
  rw [if_neg hsel, if_neg hsel]
  refine ⟨rfl, rfl, .inl ⟨hskip, parts, hparts, ?_⟩⟩
  rw [hsize]
  simp only [Card.append, List.length_append, Nat.add_assoc]

theorem readHead_some {i : Nat}
    (h : scanHead c.quoted (text.take (maxHeadChars - c.head.length)) = (quoted, some i)) :
    c.readHead text = Card.decideHead { c with quoted := quoted }
      (c.head ++ (text.take (maxHeadChars - c.head.length)).take i) := by
  unfold Card.readHead
  dsimp only
  rw [h]

theorem readHead_none
    (h : scanHead c.quoted (text.take (maxHeadChars - c.head.length)) = (quoted, none))
    (hfull : maxHeadChars ≤ (c.head ++ text.take (maxHeadChars - c.head.length)).length) :
    c.readHead text = { c with
      quoted := quoted
      head := c.head ++ text.take (maxHeadChars - c.head.length)
      decided := true } := by
  unfold Card.readHead
  dsimp only
  rw [h]
  rw [if_pos (.inl hfull)]

/-- **A head is read from the text up to the separator**, or not at all when there is no room. -/
theorem follows_readHead (hskip : c.skipped = false) (h : (scanHead c.quoted s).2.isSome = true)
    (t : Str) : c.Follows ((c.append s).readHead s) ((c.append (s ++ t)).readHead (s ++ t)) t := by
  obtain ⟨j, hj⟩ := Option.isSome_iff_exists.mp h
  have htake : (s ++ t).take (maxHeadChars - c.head.length) =
      s.take (maxHeadChars - c.head.length) ++ t.take (maxHeadChars - c.head.length - s.length) :=
    List.take_append
  rcases hscan : scanHead c.quoted (s.take (maxHeadChars - c.head.length)) with ⟨quoted, colon⟩
  cases colon with
  | some i =>
    have hsome : (scanHead c.quoted (s.take (maxHeadChars - c.head.length))).2 = some i := by
      rw [hscan]
    obtain ⟨hsame, hlt⟩ := scanHead_append hsome (t.take (maxHeadChars - c.head.length - s.length))
    have hscan' : scanHead c.quoted ((s ++ t).take (maxHeadChars - c.head.length))
        = (quoted, some i) := by
      rw [htake, hsame, hscan]
    have hhead : ((s ++ t).take (maxHeadChars - c.head.length)).take i =
        (s.take (maxHeadChars - c.head.length)).take i := by
      rw [htake, List.take_append_of_le_length (le_of_lt hlt)]
    have hfirst := readHead_some (c := c.append s) hscan
    have hwhole := readHead_some (c := c.append (s ++ t)) hscan'
    have hsameHead : (c.append (s ++ t)).head ++
          ((s ++ t).take (maxHeadChars - (c.append (s ++ t)).head.length)).take i =
        c.head ++ (s.take (maxHeadChars - c.head.length)).take i :=
      congrArg (c.head ++ ·) hhead
    rw [hsameHead] at hwhole
    rw [hfirst, hwhole]
    have hfollows := follows_decideHead (c := { c with quoted := quoted }) hskip
      (c.head ++ (s.take (maxHeadChars - c.head.length)).take i) s t
    exact { hfollows with }
  | none =>
    -- the separator is beyond the room that is left for the head
    have hroom : maxHeadChars - c.head.length ≤ s.length := by
      by_contra hlong
      rw [List.take_of_length_le (by omega)] at hscan
      rw [hscan] at hj
      nomatch hj
    have hscan' : scanHead c.quoted ((s ++ t).take (maxHeadChars - c.head.length))
        = (quoted, none) := by
      rw [List.take_append_of_le_length hroom, hscan]
    have hfull : maxHeadChars ≤ (c.head ++ s.take (maxHeadChars - c.head.length)).length := by
      rw [List.length_append, List.length_take]
      omega
    have hfull' : maxHeadChars ≤ (c.head ++ (s ++ t).take (maxHeadChars - c.head.length)).length := by
      rw [List.take_append_of_le_length hroom]
      exact hfull
    obtain ⟨parts, hparts, heq⟩ := kept_append_append c s t
    have hsize : (c.append (s ++ t)).parts = parts := by rw [heq]
    rw [readHead_none (c := c.append s) hscan hfull,
      readHead_none (c := c.append (s ++ t)) hscan' hfull']
    refine ⟨rfl, rfl, .inl ⟨hskip, parts, hparts, ?_⟩⟩
    rw [hsize]
    simp only [Card.append, List.length_append, Nat.add_assoc, List.take_append_of_le_length hroom]

/-! ## A line in pieces -/

/-- The separator of the property is among the first characters of the line, or the line goes on with
a property that has had it, or nothing is read of the card any more. -/
def SeparatorInWindow (c : Card) (line : Str) : Prop :=
  c.overflowed = true ∨ (c.opened line).1.decided = true ∨
    (scanHead (c.opened line).1.quoted (c.opened (line.take wholeLineStart)).2).2.isSome = true

instance (c : Card) (line : Str) : Decidable (SeparatorInWindow c line) :=
  inferInstanceAs (Decidable (_ ∨ _ ∨ _))

/-- What a line opens depends on its first characters. -/
theorem opened_append (c : Card) (h : wholeLineStart ≤ s.length) (t : Str) :
    (c.opened (s ++ t)).1 = (c.opened s).1 ∧ (c.opened (s ++ t)).2 = (c.opened s).2 ++ t := by
  have hne : s ≠ [] := by
    rintro rfl
    exact absurd h (by decide)
  have htake : (s ++ t).take wholeLineStart = s.take wholeLineStart :=
    List.take_append_of_le_length h
  have hhead : (s ++ t).head? = s.head? := by
    rw [List.head?_append]
    cases s with
    | nil => exact absurd rfl hne
    | cons c s => rfl
  unfold Card.opened
  dsimp only
  rw [htake, hhead]
  split
  · exact ⟨rfl, rfl⟩
  split
  · refine ⟨rfl, ?_⟩
    split
    · rfl
    · rw [List.tail_append_of_ne_nil hne]
  · split <;> exact ⟨rfl, rfl⟩

theorem same_readHead (c : Card) (text : Str) :
    (c.readHead text).overflowed = c.overflowed ∧ (c.readHead text).present = c.present := by
  unfold Card.readHead
  dsimp only
  split
  · unfold Card.decideHead
    dsimp only
    split <;> exact ⟨rfl, rfl⟩
  · split <;> exact ⟨rfl, rfl⟩

theorem same_checkBudget (c : Card) :
    (c.overflowed = true → c.checkBudget.overflowed = true) ∧ c.checkBudget.present = c.present ∧
      c.checkBudget.decided = c.decided := by
  unfold Card.checkBudget
  split
  · exact ⟨fun _ => rfl, rfl, rfl⟩
  · exact ⟨id, rfl, rfl⟩

/-- Adding text to a card that exceeded its budget leaves it so. -/
theorem overflowed_add (h : c.overflowed = true) (text : Str) :
    (c.add text).overflowed = true ∧ (c.add text).present = c.present := by
  by_cases hskip : c.skipped = true
  · rw [add_of_skipped hskip]
    exact ⟨h, rfl⟩
  have hs : c.skipped = false := by simpa using hskip
  obtain ⟨hover, hpresent, -⟩ := same_checkBudget (c.append text)
  by_cases hdecided : c.decided = true
  · rw [add_of_decided hs hdecided]
    exact ⟨hover h, hpresent⟩
  rw [add_of_undecided hs (by simpa using hdecided)]
  obtain ⟨hread, hread'⟩ := same_readHead (c.append text) text
  split
  · obtain ⟨hover', hpresent', -⟩ := same_checkBudget ((c.append text).readHead text)
    exact ⟨hover' (hread.trans h), hpresent'.trans hread'⟩
  · exact ⟨hread.trans h, hread'⟩

theorem endLine_checkBudget (c : Card) (s : Str) :
    c.checkBudget.endLine s = (Card.checkBudget { c with softBreak := false }).noteLineEnd s := by
  unfold Card.endLine Card.checkBudget
  split <;> rfl

/-- The pieces of a skipped property leave the end of the line. -/
theorem endLine_addPiece_of_skipped (hover : c.overflowed = false) (hskip : c.skipped = true)
    (s t : Str) : (c.endLine s).addPiece t = c.endLine (s ++ t) := by
  have hs : (c.endLine s).skipped = true := by
    rw [Card.endLine, noteLineEnd_eq]
    exact hskip
  have ho : (c.endLine s).overflowed = false := by
    rw [Card.endLine, overflowed_noteLineEnd]
    exact hover
  rw [Card.addPiece, if_neg (by simp [ho]), add_of_skipped hs, Card.endLine, noteLineEnd_append]
  rfl

/-- A first part from which the head was read, or that has the head before it. -/
theorem alike_endLine_grow (hover : c.overflowed = false) (hskip : c.skipped = false)
    (hdecided : c.decided = true) {t : Str} (h : (c.append t).Kept d) :
    (c.checkBudget.endLine s).Steady ∧
      ((c.checkBudget.endLine s).addPiece t).Alike (d.checkBudget.endLine (s ++ t)) := by
  rw [endLine_checkBudget, endLine_checkBudget]
  constructor
  · refine .inr (.inr ?_)
    rw [noteLineEnd_eq]
    exact (same_checkBudget { c with softBreak := false }).2.2.trans hdecided
  obtain ⟨parts, hparts, rfl⟩ := h
  exact alike_grow (c := { c with softBreak := false })
    (d := { c.append t with parts := parts, softBreak := false }) hover hskip hdecided
    ⟨parts, hparts, rfl⟩

/-- **A line in two pieces is added as one.** -/
theorem alike_startLine_append (hlen : wholeLineStart ≤ s.length) (t : Str)
    (hwindow : SeparatorInWindow c (s ++ t)) :
    (c.startLine s).Steady ∧ ((c.startLine s).addPiece t).Alike (c.startLine (s ++ t)) := by
  by_cases hover : c.overflowed = true
  · rw [startLine_of_overflowed hover, startLine_of_overflowed hover, Card.addPiece, if_pos hover]
    exact ⟨.inl hover, Card.Alike.refl c⟩
  have hno : c.overflowed = false := by simpa using hover
  obtain ⟨hcard, htext⟩ := opened_append c hlen t
  have hstart : s = s.take wholeLineStart ++ s.drop wholeLineStart :=
    (List.take_append_drop _ _).symm
  have hfirst : (s ++ t).take wholeLineStart = s.take wholeLineStart :=
    List.take_append_of_le_length hlen
  obtain ⟨-, htextStart⟩ := opened_append c (s := s.take wholeLineStart)
    (by rw [List.length_take]; omega) (s.drop wholeLineStart)
  rw [← hstart] at htextStart
  rw [SeparatorInWindow, hcard, hfirst] at hwindow
  rw [startLine_eq hno, startLine_eq hno, hcard, htext]
  generalize (c.opened s).1 = d at hwindow ⊢
  by_cases hdover : d.overflowed = true
  · -- the property before was too long
    obtain ⟨ha, hpa⟩ := overflowed_add hdover (c.opened s).2
    obtain ⟨hb, hpb⟩ := overflowed_add hdover ((c.opened s).2 ++ t)
    have hend : ∀ (e : Card) (u : Str), (e.endLine u).overflowed = e.overflowed ∧
        (e.endLine u).present = e.present := by
      intro e u
      rw [Card.endLine, noteLineEnd_eq]
      exact ⟨rfl, rfl⟩
    have hover' : ((d.add (c.opened s).2).endLine s).overflowed = true := (hend _ s).1.trans ha
    refine ⟨.inl hover', ?_⟩
    rw [Card.addPiece, if_pos hover']
    refine Card.Alike.overflowed _ _ hover' ((hend _ _).1.trans hb) ?_
    rw [(hend _ _).2, (hend _ _).2, hpa, hpb]
  · have hdno : d.overflowed = false := by simpa using hdover
    by_cases hskip : d.skipped = true
    · rw [add_of_skipped hskip, add_of_skipped hskip, endLine_addPiece_of_skipped hdno hskip]
      refine ⟨.inr (.inl ?_), Card.Alike.refl _⟩
      rw [Card.endLine, noteLineEnd_eq]
      exact hskip
    have hs : d.skipped = false := by simpa using hskip
    by_cases hdecided : d.decided = true
    · rw [add_of_decided hs hdecided, add_of_decided hs hdecided]
      exact alike_endLine_grow (c := d.append (c.opened s).2) hdno hs hdecided
        (kept_append_append d _ t)
    have hcolon := (hwindow.resolve_left hover).resolve_left hdecided
    obtain ⟨j, hj⟩ := Option.isSome_iff_exists.mp hcolon
    have hcolon' : (scanHead d.quoted (c.opened s).2).2.isSome = true := by
      rw [htextStart, (scanHead_append hj _).1, hj]
      rfl
    obtain ⟨hread, hrover, hrest⟩ := follows_readHead hs hcolon' t
    have hd : d.decided = false := by simpa using hdecided
    rw [add_of_undecided hs hd, add_of_undecided hs hd, hread]
    generalize (d.append (c.opened s).2).readHead (c.opened s).2 = r at hread hrover hrest ⊢
    generalize (d.append ((c.opened s).2 ++ t)).readHead ((c.opened s).2 ++ t) = whole at hrest ⊢
    rcases hrest with ⟨hrskip, hkept⟩ | hskipped
    · obtain ⟨parts, hparts, heq⟩ := hkept
      have hsame : whole.decided = true ∧ whole.skipped = false := by
        rw [heq]
        exact ⟨hread, hrskip⟩
      have hcheck : (true && !false) = true := rfl
      rw [hsame.1, hsame.2, hrskip, if_pos hcheck, if_pos hcheck]
      exact alike_endLine_grow (hrover.trans hdno) hrskip hread ⟨parts, hparts, heq⟩
    have hrskip := hskipped.1
    have hwskip : whole.skipped = true := by
      obtain ⟨-, parts, size, heq⟩ := hskipped
      rw [heq]
      exact hrskip
    have hcheck : ∀ b, ¬ (b && !true) = true := fun b => by simp
    rw [hrskip, hwskip, if_neg (hcheck _), if_neg (hcheck _),
      endLine_addPiece_of_skipped (hrover.trans hdno) hrskip]
    refine ⟨.inr (.inl ?_), (skipped_endLine hskipped (s ++ t)).alike⟩
    rw [Card.endLine, noteLineEnd_eq]
    exact hrskip

/-! ## A line that fills the window -/

/-- Nothing is added by an empty piece, when the head is still open. -/
theorem addPiece_nil (hover : c.overflowed = false) (hskip : c.skipped = false)
    (hdecided : c.decided = false) (hopen : ¬ (maxHeadChars ≤ c.head.length ∨
      maxHeadChars < c.propertySize)) : c.addPiece [] = c := by
  have happend : c.append [] = c := by
    rw [Card.append, if_pos rfl, List.append_nil]
    rfl
  have hread : c.readHead [] = c := by
    unfold Card.readHead
    rw [List.take_nil]
    dsimp only [scanHead]
    rw [List.append_nil, if_neg hopen]
  have hadd : c.add [] = c := by
    rw [add_of_undecided hskip hdecided, happend, hread, if_neg (by simp [hdecided])]
  rw [Card.addPiece, if_neg (by simp [hover]), hadd, noteLineEnd_eq]
  rfl

/-- A line of which the head stays open leaves room for the rest of it. -/
theorem open_of_readHead (h : (c.readHead text).decided = false) :
    ¬ (maxHeadChars ≤ (c.readHead text).head.length ∨
      maxHeadChars < (c.readHead text).propertySize) := by
  unfold Card.readHead at h ⊢
  dsimp only at h ⊢
  split at h
  · unfold Card.decideHead at h
    dsimp only at h
    split at h <;> exact Bool.noConfusion h
  split at h
  · exact Bool.noConfusion h
  · next hopen =>
    rw [if_neg hopen]
    exact hopen

/-- The budget was checked with the text. -/
theorem checkBudget_add (text : Str) (hover : (c.add text).overflowed = false)
    (hskip : (c.add text).skipped = false) (hdecided : (c.add text).decided = true) :
    (c.add text).checkBudget = c.add text := by
  have hself : ∀ r : Card, r.checkBudget.overflowed = false → r.checkBudget.checkBudget = r.checkBudget := by
    intro r hr
    unfold Card.checkBudget at hr ⊢
    split at hr
    · exact Bool.noConfusion hr
    · next hno => rw [if_neg hno, if_neg hno]
  by_cases hs : c.skipped = true
  · rw [add_of_skipped hs] at hskip
    rw [hs] at hskip
    exact Bool.noConfusion hskip
  have hs' : c.skipped = false := by simpa using hs
  by_cases hd : c.decided = true
  · rw [add_of_decided hs' hd] at hover ⊢
    exact hself _ hover
  rw [add_of_undecided hs' (by simpa using hd)] at hover hskip hdecided ⊢
  by_cases hcheck : (((c.append text).readHead text).decided
      && !((c.append text).readHead text).skipped) = true
  · rw [if_pos hcheck] at hover ⊢
    exact hself _ hover
  rw [if_neg hcheck] at hskip hdecided
  rw [hskip, hdecided] at hcheck
  exact absurd rfl hcheck

/-- A line of which the head stays open takes an empty piece. -/
theorem startLine_nil_of_open (hover : (c.startLine s).overflowed = false)
    (hskip : (c.startLine s).skipped = false) (hdecided : (c.startLine s).decided = false) :
    (c.startLine s).addPiece [] = c.startLine s := by
  have hno : c.overflowed = false := by
    by_contra h
    have ho : c.overflowed = true := by simpa using h
    rw [startLine_of_overflowed ho] at hover
    rw [ho] at hover
    exact Bool.noConfusion hover
  refine addPiece_nil hover hskip hdecided ?_
  rw [startLine_eq hno, Card.endLine, noteLineEnd_eq] at hskip hdecided ⊢
  -- the line was read for its head, and the head is still open
  have hskip' : (c.opened s).1.skipped = false := by
    by_contra h
    have hs : (c.opened s).1.skipped = true := by simpa using h
    rw [add_of_skipped hs, hs] at hskip
    exact Bool.noConfusion hskip
  have hdecided' : (c.opened s).1.decided = false := by
    by_contra h
    have hd : (c.opened s).1.decided = true := by simpa using h
    rw [add_of_decided hskip' hd, (same_checkBudget _).2.2] at hdecided
    exact Bool.noConfusion (hd.symm.trans hdecided)
  rw [add_of_undecided hskip' hdecided'] at hdecided ⊢
  have hread : (((c.opened s).1.append (c.opened s).2).readHead (c.opened s).2).decided = false := by
    by_contra h
    have hd : (((c.opened s).1.append (c.opened s).2).readHead (c.opened s).2).decided = true := by
      simpa using h
    split at hdecided
    · rw [(same_checkBudget _).2.2, hd] at hdecided
      exact Bool.noConfusion hdecided
    rw [hd] at hdecided
    exact Bool.noConfusion hdecided
  have hcheck : ¬ ((((c.opened s).1.append (c.opened s).2).readHead (c.opened s).2).decided
      && !(((c.opened s).1.append (c.opened s).2).readHead (c.opened s).2).skipped) = true := by
    simp [hread]
  rw [if_neg hcheck]
  exact open_of_readHead hread

/-- **An empty piece adds nothing to a line.** -/
theorem startLine_addPiece_nil (c : Card) (s : Str) :
    (c.startLine s).addPiece [] = c.startLine s := by
  have hnote : ∀ e : Card, e.noteLineEnd [] = e := by
    intro e
    rw [noteLineEnd_eq]
    rfl
  by_cases hover : (c.startLine s).overflowed = true
  · rw [Card.addPiece, if_pos hover]
  have hno : (c.startLine s).overflowed = false := by simpa using hover
  by_cases hskip : (c.startLine s).skipped = true
  · rw [Card.addPiece, if_neg hover, add_of_skipped hskip, hnote]
  have hs : (c.startLine s).skipped = false := by simpa using hskip
  by_cases hdecided : (c.startLine s).decided = true
  · have hc : c.overflowed = false := by
      by_contra h
      have ho : c.overflowed = true := by simpa using h
      rw [startLine_of_overflowed ho] at hno
      rw [ho] at hno
      exact Bool.noConfusion hno
    have happend : (c.startLine s).append [] = c.startLine s := by
      rw [Card.append, if_pos rfl, List.append_nil]
      rfl
    rw [Card.addPiece, if_neg hover, add_of_decided hs hdecided, happend, hnote]
    rw [startLine_eq hc, Card.endLine] at hno hs hdecided ⊢
    rw [checkBudget_noteLineEnd]
    rw [noteLineEnd_eq] at hno hs hdecided
    have hsame := checkBudget_add (c.opened s).2 hno hs hdecided
    congr 1
    unfold Card.checkBudget at hsame ⊢
    split at hsame
    · next hlimit =>
      have htrue : ((c.opened s).1.add (c.opened s).2).overflowed = true := by
        rw [← hsame]
      exact Bool.noConfusion (htrue.symm.trans hno)
    · next hlimit => rw [if_neg hlimit]
  · exact startLine_nil_of_open hno hs (by simpa using hdecided)

/-! ## All pieces of a line -/

/-- Further pieces, one after the other. -/
def Card.addPieces (c : Card) (texts : List Str) : Card := texts.foldl Card.addPiece c

theorem alike_addPieces (h : c.Alike d) (texts : List Str) :
    (c.addPieces texts).Alike (d.addPieces texts) := by
  induction texts generalizing c d with
  | nil => exact h
  | cons text texts ih => exact ih (alike_addPiece h text)

/-- Pieces of a property whose head was read are added as one. -/
theorem alike_addPieces_flatten (h : c.Steady) (text : Str) (texts : List Str) :
    (c.addPieces (text :: texts)).Alike (c.addPiece (text :: texts).flatten) := by
  induction texts generalizing c text with
  | nil =>
    rw [List.flatten_singleton]
    exact Card.Alike.refl _
  | cons next texts ih =>
    have hrest := ih (steady_addPiece h text) next
    have hjoin := alike_addPiece_append h text (next :: texts).flatten
    exact hrest.trans hjoin

/-- **A line in pieces is added as one.** -/
theorem alike_pieces {start : Str} (hlen : wholeLineStart ≤ start.length) (texts : List Str)
    (last : Str)
    (hwindow : wholeLineStart < (start ++ texts.flatten ++ last).length →
      SeparatorInWindow c (start ++ texts.flatten ++ last)) :
    ((c.startLine start).addPieces (texts ++ [last])).Alike
      (c.startLine (start ++ texts.flatten ++ last)) := by
  have hflat : (texts ++ [last]).flatten = texts.flatten ++ last := by
    rw [List.flatten_append, List.flatten_singleton]
  have hne : texts ++ [last] ≠ [] := by simp
  by_cases hlong : wholeLineStart < (start ++ texts.flatten ++ last).length
  · have hline := hwindow hlong
    rw [List.append_assoc, ← hflat] at hline ⊢
    obtain ⟨hsteady, halike⟩ := alike_startLine_append hlen (texts ++ [last]).flatten hline
    obtain ⟨first, rest, hfirst⟩ := List.exists_cons_of_ne_nil hne
    rw [hfirst] at halike ⊢
    exact (alike_addPieces_flatten hsteady first rest).trans halike
  -- all of the line is in the first piece
  rw [List.append_assoc, ← hflat] at hlong ⊢
  rw [List.length_append] at hlong
  have hnil : (texts ++ [last]).flatten = [] := List.eq_nil_of_length_eq_zero (by omega)
  rw [hnil, List.append_nil]
  have hall : ∀ text ∈ texts ++ [last], text = [] := List.flatten_eq_nil_iff.mp hnil
  generalize texts ++ [last] = pieces at hall
  induction pieces with
  | nil => exact Card.Alike.refl _
  | cons piece pieces ih =>
    rw [hall piece List.mem_cons_self]
    show (((c.startLine start).addPiece []).addPieces pieces).Alike _
    rw [startLine_addPiece_nil]
    exact ih (fun text htext => hall text (.tail _ htext))

/-! ## The whole text -/

/-- The lines fit the window: no marker fills it, and a longer line of a card has its separator in it
or goes on with a property that has had it. -/
def InWindow (limit : Nat) : Option Card → List Str → Prop
  | _, [] => True
  | card, line :: lines =>
    let marker := markerOf (card.any Card.present) (whole line)
    (wholeLineStart ≤ line.length →
      marker ≠ "begin:vcard".toList ∧ marker ≠ "end:vcard".toList) ∧
    if marker = "begin:vcard".toList then InWindow limit (some { limit := limit }) lines
    else if marker = "end:vcard".toList then InWindow limit none lines
    else
      (∀ c ∈ card, wholeLineStart < line.length → SeparatorInWindow c line) ∧
        InWindow limit (card.map (Card.startLine · line)) lines

/-- Lines that are shorter than the window fit it. -/
theorem inWindow_of_short (limit : Nat) (card : Option Card) {lines : List Str}
    (h : ∀ line ∈ lines, line.length < wholeLineStart) : InWindow limit card lines := by
  induction lines generalizing card with
  | nil => trivial
  | cons line lines ih =>
    have hline := h line (.head _)
    have hrest := fun card => ih card (fun l hl => h l (.tail _ hl))
    rw [InWindow]
    refine ⟨fun hlen => by omega, ?_⟩
    split
    · exact hrest _
    split
    · exact hrest _
    · exact ⟨fun c _ hlen => by omega, hrest _⟩

/-- The open cards over the pieces and over the lines. -/
def Abreast (card card' : Option Card) : Prop := Option.Rel Card.Alike card card'

variable {card card' : Option Card}

theorem abreast_map (h : Abreast card card') {f g : Card → Card}
    (hf : ∀ c ∈ card', ∀ d, Card.Alike d c → (f d).Alike (g c)) :
    Abreast (card.map f) (card'.map g) := by
  cases h with
  | none => exact Option.Rel.none
  | some h => exact Option.Rel.some (hf _ rfl _ h)

theorem present_of_abreast (h : Abreast card card') :
    card.any Card.present = card'.any Card.present := by
  cases h with
  | none => rfl
  | some h => exact h.present_eq

theorem finish_of_abreast (h : Abreast card card') :
    card.bind Card.finish = card'.bind Card.finish := by
  cases h with
  | none => rfl
  | some h => exact finish_eq_of_alike h

/-- Pieces that go on with a line go to the open card. -/
theorem pieceBodies_middle (limit : Nat) (card : Option Card) (texts : List Str) (last : Str)
    (pieces : List Piece) :
    pieceBodies limit card (middle texts ++ ⟨last, true, true⟩ :: pieces) =
      pieceBodies limit (card.map (Card.addPieces · (texts ++ [last]))) pieces := by
  induction texts generalizing card with
  | nil =>
    show pieceBodies limit card (⟨last, true, true⟩ :: pieces) = _
    rw [pieceBodies, if_pos rfl]
    rfl
  | cons text texts ih =>
    show pieceBodies limit card (⟨text, true, false⟩ :: (middle texts ++ ⟨last, true, true⟩ :: pieces)) = _
    rw [pieceBodies, if_pos rfl, ih, Option.map_map]
    rfl

/-- **The bodies are those of the whole lines**, if the lines fit the window. -/
theorem pieceBodies_cutLines (limit : Nat) {lines : List Str} {groups : List (List Piece)}
    (hcut : List.Forall₂ CutLine lines groups) (h : Abreast card card')
    (hwindow : InWindow limit card' lines) :
    pieceBodies limit card groups.flatten = cardBodies limit card' lines := by
  induction hcut generalizing card card' with
  | nil => rfl
  | @cons line group lines groups hline hrest ih =>
    rw [InWindow] at hwindow
    obtain ⟨hshort, hwindow⟩ := hwindow
    have hmarker : markerOf (card'.any Card.present) (whole line) =
        if card'.any Card.present && line.head?.any isBlank then [] else casefold (strip line) := rfl
    rw [cardBodies, ← hmarker, List.flatten_cons]
    cases hline with
    | whole line =>
      -- the line came as it is
      rw [List.singleton_append, pieceBodies, if_neg (by simp [whole])]
      rw [present_of_abreast h, finish_of_abreast h]
      by_cases hbegin : markerOf (card'.any Card.present) (whole line) = "begin:vcard".toList
      · rw [if_pos hbegin] at hwindow ⊢
        rw [if_pos hbegin]
        exact ih (Option.Rel.some (Card.Alike.refl _)) hwindow
      rw [if_neg hbegin] at hwindow ⊢
      rw [if_neg hbegin]
      by_cases hend : markerOf (card'.any Card.present) (whole line) = "end:vcard".toList
      · rw [if_pos hend] at hwindow ⊢
        rw [if_pos hend]
        have hnone := ih (Option.Rel.none : Abreast none none) hwindow
        cases card'.bind Card.finish with
        | none => exact hnone
        | some body => exact congrArg (body :: ·) hnone
      · rw [if_neg hend] at hwindow ⊢
        rw [if_neg hend]
        exact ih (abreast_map h (fun c _ d hd => alike_startLine hd line)) hwindow.2
    | pieces start texts last hlen =>
      -- the line came in pieces, so it is no marker
      have hlong : wholeLineStart ≤ (start ++ texts.flatten ++ last).length := by
        rw [List.append_assoc, List.length_append]
        omega
      obtain ⟨hbegin, hend⟩ := hshort hlong
      rw [if_neg hbegin, if_neg hend] at hwindow ⊢
      have hpiece : markerOf (card.any Card.present) ⟨start, false, false⟩ = [] := by
        unfold markerOf
        split <;> rfl
      have hgroup : (⟨start, false, false⟩ :: middle texts ++ [⟨last, true, true⟩]) ++ groups.flatten
          = ⟨start, false, false⟩ :: (middle texts ++ ⟨last, true, true⟩ :: groups.flatten) := by
        simp
      rw [hgroup, pieceBodies, if_neg (by simp)]
      rw [hpiece, if_neg (by decide), if_neg (by decide), pieceBodies_middle, Option.map_map]
      refine ih (abreast_map h (fun c hc d hd => ?_)) hwindow.2
      exact (alike_addPieces (alike_startLine hd start) _).trans
        (alike_pieces hlen texts last (hwindow.1 c hc))

/-- The bodies of a text in chunks are those of the text, if its lines fit the window. -/
theorem iterVcardBodies_chunks {chunks : List Str} (h : ∀ chunk ∈ chunks, chunk ≠ [])
    (maximum maxCardChars : Int)
    (hwindow : InWindow maxCardChars.toNat none (splitLines chunks.flatten)) :
    Stream.iterVcardBodies chunks maximum maxCardChars =
      Stream.iterVcardBodies [chunks.flatten] maximum maxCardChars := by
  obtain ⟨groups, hgroups, hpieces⟩ := cutLines_linePieces h
  rw [iterVcardBodies_eq, iterVcardBodies_eq, linePieces_singleton, pieceBodies_whole, hpieces,
    pieceBodies_cutLines _ hgroups (Option.Rel.none : Abreast none none) hwindow]

/-- **The bodies do not depend on how the text is cut into chunks**, for every text whose markers are
shorter than the window of 256 characters and whose longer lines have their separator in it or go on
with a property that has had it. -/
theorem chunks_do_not_matter {chunks chunks' : List Str} (h : ∀ chunk ∈ chunks, chunk ≠ [])
    (h' : ∀ chunk ∈ chunks', chunk ≠ []) (htext : chunks.flatten = chunks'.flatten)
    (maximum maxCardChars : Int)
    (hwindow : InWindow maxCardChars.toNat none (splitLines chunks.flatten)) :
    Stream.iterVcardBodies chunks maximum maxCardChars =
      Stream.iterVcardBodies chunks' maximum maxCardChars := by
  have hwhole := iterVcardBodies_chunks h maximum maxCardChars hwindow
  rw [htext] at hwindow hwhole
  exact hwhole.trans (iterVcardBodies_chunks h' maximum maxCardChars hwindow).symm

/-- A card whose marker, line break and folded line are cut. -/
theorem chunks_do_not_matter_short :
    Stream.iterVcardBodies ["BEGIN:VC".toList, "ARD\r".toList, "\nFN:A\n".toList, " B\nEND:VCARD".toList]
        10 1000 =
      Stream.iterVcardBodies ["BEGIN:VCARD\r\nFN:A\n B\nEND:VCARD".toList] 10 1000 ∧
    Stream.iterVcardBodies ["BEGIN:VCARD\r\nFN:A\n B\nEND:VCARD".toList] 10 1000
      = ["FN:AB".toList] := by
  refine ⟨chunks_do_not_matter (by decide) (by decide) (by decide) 10 1000 ?_, by decide +kernel⟩
  refine inWindow_of_short _ none ?_
  decide

/-! ## The bounded reader -/

/-- `stream.readline(limit)` again and again; `room` is what the line may still have after its next
character. -/
def boundedLines (limit : Nat) : Nat → Str → List Str
  | _, [] => []
  | room, c :: s =>
    if c = '\n' ∨ room = 0 then [c] :: boundedLines limit (limit - 1) s
    else match boundedLines limit (room - 1) s with
      | [] => [[c]]
      | l :: ls => (c :: l) :: ls

/-- `iter_bounded_lines`. -/
def iterBoundedLines (stream : Str) (limit : Int) : List Str :=
  boundedLines (max 1 limit).toNat ((max 1 limit).toNat - 1) stream

/-- The bounded reader cuts the text into chunks that are not empty. -/
theorem boundedLines_spec (limit room : Nat) (s : Str) :
    (boundedLines limit room s).flatten = s ∧ ∀ chunk ∈ boundedLines limit room s, chunk ≠ [] := by
  induction s generalizing room with
  | nil => exact ⟨rfl, fun chunk h => nomatch h⟩
  | cons c s ih =>
    rw [boundedLines]
    by_cases hcut : c = '\n' ∨ room = 0
    · rw [if_pos hcut]
      obtain ⟨htext, hne⟩ := ih (limit - 1)
      refine ⟨?_, fun chunk h => ?_⟩
      · rw [List.flatten_cons, htext]
        rfl
      · rcases List.mem_cons.mp h with rfl | h
        · exact List.cons_ne_nil _ _
        · exact hne chunk h
    rw [if_neg hcut]
    obtain ⟨htext, hne⟩ := ih (room - 1)
    cases hlines : boundedLines limit (room - 1) s with
    | nil =>
      rw [hlines] at htext
      refine ⟨?_, fun chunk h => ?_⟩
      · rw [← htext]
        rfl
      · rw [List.mem_singleton.mp h]
        exact List.cons_ne_nil _ _
    | cons l ls =>
      rw [hlines] at htext hne
      refine ⟨?_, fun chunk h => ?_⟩
      · show c :: (l :: ls).flatten = c :: s
        rw [htext]
      · rcases List.mem_cons.mp h with rfl | h
        · exact List.cons_ne_nil _ _
        · exact hne chunk (.tail _ h)

end BlueFerry.Vcard
