import BlueFerry.Vcard.Chunks

/-! # A damaged card and the cards after it

A line `BEGIN:VCARD` is seen as a marker whatever comes before it, and the card that is open is
replaced by a new one: nothing of its state is left (`cardBodies_begin`). So the cards of a text that
goes on with such a line are those of the part before it and those of the part from it on.
-/

namespace BlueFerry.Vcard

open BlueFerry.Text

/-- `"BEGIN:VCARD"` -/
def beginVcard : Str := "BEGIN:VCARD".toList

/-- What ends a line. -/
def IsLineEnd (s : Str) : Prop := s = crlf ∨ ∃ c, isLineBreak c = true ∧ s = [c]

/-- What is put between a text and the line that follows it: nothing, if the text ends a line. -/
def Between (text s : Str) : Prop := (Closed text ∧ s = []) ∨ IsLineEnd s

theorem closed_of_isLineEnd {s : Str} (h : IsLineEnd s) : Closed s := by
  rcases h with rfl | ⟨c, hc, rfl⟩
  · intro c hc
    rw [← Option.some.inj hc]
    rfl
  · intro d hd
    rw [← Option.some.inj hd]
    exact hc

/-- A line end is one line, which is empty. -/
theorem splitLines_lineEnd {s : Str} (h : IsLineEnd s) : splitLines s = [[]] := by
  rcases h with rfl | ⟨c, hc, rfl⟩
  · rfl
  have hno : ¬ (c = '\r' ∧ ([] : Str).head? = some '\n') := fun hcut => nomatch hcut.2
  rw [splitLines_break hc hno]
  rfl

/-- An open line is ended by a line end. -/
theorem splitLines_append_lineEnd {l s : Str} (hl : NoBreak l) (h : IsLineEnd s) :
    splitLines (l ++ s) = [l] := by
  have hchunks : lineChunks s = ([], s) :: [] := by
    rcases h with rfl | ⟨c, hc, rfl⟩
    · rfl
    have hno : ¬ (c = '\r' ∧ ([] : Str).head? = some '\n') := fun hcut => nomatch hcut.2
    rw [lineChunks_break hc hno]
    rfl
  rw [splitLines, lineChunks_append_open hl hchunks, List.append_nil]
  rfl

/-- A line end adds an empty line at most. -/
theorem splitLines_between {text s : Str} (h : Between text s) :
    splitLines (text ++ s) = splitLines text ∨ splitLines (text ++ s) = splitLines text ++ [[]] := by
  rcases h with ⟨-, rfl⟩ | hs
  · exact Or.inl (by rw [List.append_nil])
  obtain ⟨a, l, rfl, ha, hl, hlines, -⟩ := exists_closed_open text
  by_cases hnil : l = []
  · subst hnil
    rw [List.append_nil]
    by_cases hcut : a.getLast? = some '\r' ∧ s.head? = some '\n'
    · -- the line end is the second half of one
      have hs' : s = ['\n'] := by
        rcases hs with rfl | ⟨c, -, rfl⟩
        · exact absurd (Option.some.inj hcut.2) (by decide)
        · rw [Option.some.inj hcut.2]
      rw [hs']
      exact Or.inl (splitLines_append_cut_crlf hcut.1)
    · right
      rw [splitLines_append_closed ha hcut, splitLines_lineEnd hs]
  · left
    have hhead : ∀ t : Str, ¬ (a.getLast? = some '\r' ∧ (l ++ t).head? = some '\n') :=
      fun t hcut => head?_append_open hl hnil hcut.2
    have hno : ¬ (a.getLast? = some '\r' ∧ l.head? = some '\n') := by
      have h0 := hhead []
      rwa [List.append_nil] at h0
    rw [List.append_assoc, splitLines_append_closed ha (hhead s), splitLines_append_closed ha hno,
      splitLines_append_lineEnd hl hs]
    rw [splitLines, splitLines, lineChunks_of_noBreak hl hnil]
    rfl

/-- An empty line yields nothing. -/
theorem cardBodies_append_nil (limit : Nat) (card : Option Card) (lines : List Str) :
    cardBodies limit card (lines ++ [[]]) = cardBodies limit card lines := by
  induction lines generalizing card with
  | nil =>
    rw [List.nil_append, cardBodies, cardBodies]
    have hmarker : (if (card.any Card.present && ([] : Str).head?.any isBlank) = true then []
        else casefold (strip [])) = [] := by
      split <;> rfl
    rw [hmarker, if_neg (by decide), if_neg (by decide)]
    rfl
  | cons line lines ih =>
    rw [List.cons_append, cardBodies, cardBodies]
    generalize (if (card.any Card.present && line.head?.any isBlank) = true then []
      else casefold (strip line)) = marker
    by_cases hbegin : marker = "begin:vcard".toList
    · rw [if_pos hbegin, if_pos hbegin, ih]
    rw [if_neg hbegin, if_neg hbegin]
    by_cases hend : marker = "end:vcard".toList
    · rw [if_pos hend, if_pos hend, ih]
    · rw [if_neg hend, if_neg hend, ih]

/-- A line that begins a card begins it whatever is open. -/
theorem cardBodies_begin_eq (limit : Nat) (card : Option Card) (lines : List Str) :
    cardBodies limit card (beginVcard :: lines) = cardBodies limit (some { limit := limit }) lines := by
  have hmarker : (if (card.any Card.present && beginVcard.head?.any isBlank) = true then []
      else casefold (strip beginVcard)) = "begin:vcard".toList := by
    have hblank : beginVcard.head?.any isBlank = false := by decide
    rw [hblank, Bool.and_false, if_neg Bool.false_ne_true]
    decide +kernel
  rw [cardBodies]
  rw [hmarker, if_pos rfl]

/-- **The cards before a line that begins a card and those from it on.** -/
theorem cardBodies_begin (limit : Nat) (card : Option Card) (before lines : List Str) :
    cardBodies limit card (before ++ beginVcard :: lines) =
      cardBodies limit card before ++ cardBodies limit none (beginVcard :: lines) := by
  induction before generalizing card with
  | nil =>
    rw [List.nil_append, cardBodies_begin_eq, cardBodies_begin_eq]
    rfl
  | cons line before ih =>
    rw [List.cons_append, cardBodies, cardBodies]
    generalize (if (card.any Card.present && line.head?.any isBlank) = true then []
      else casefold (strip line)) = marker
    by_cases hbegin : marker = "begin:vcard".toList
    · rw [if_pos hbegin, if_pos hbegin, ih]
    rw [if_neg hbegin, if_neg hbegin]
    by_cases hend : marker = "end:vcard".toList
    · rw [if_pos hend, if_pos hend]
      cases card.bind Card.finish with
      | none => exact ih none
      | some body => exact congrArg (body :: ·) (ih none)
    · rw [if_neg hend, if_neg hend, ih]

/-- A text that goes on with a line `BEGIN:VCARD`. -/
def followedBy (text s s' rest : Str) : Str := text ++ s ++ (beginVcard ++ s' ++ rest)

/-- The bodies of a text, when there is no maximum. -/
theorem cardBodies_followedBy (limit : Nat) {text s s' : Str} (rest : Str) (hs : Between text s)
    (hs' : IsLineEnd s') :
    cardBodies limit none (splitLines (followedBy text s s' rest)) =
      cardBodies limit none (splitLines text) ++
        cardBodies limit none (splitLines (beginVcard ++ s' ++ rest)) := by
  have hclosed : Closed (text ++ s) := by
    rcases hs with ⟨htext, rfl⟩ | hs
    · rw [List.append_nil]
      exact htext
    intro c hc
    have hne : s ≠ [] := by
      rcases hs with rfl | ⟨d, -, rfl⟩ <;> exact List.cons_ne_nil _ _
    rw [List.getLast?_append_of_ne_nil _ hne] at hc
    exact closed_of_isLineEnd hs c hc
  have hhead : (beginVcard ++ s' ++ rest).head? = some 'B' := rfl
  have hsplit : splitLines (followedBy text s s' rest) =
      splitLines (text ++ s) ++ splitLines (beginVcard ++ s' ++ rest) := by
    refine splitLines_append_closed hclosed (fun hcut => ?_)
    rw [hhead] at hcut
    exact absurd (Option.some.inj hcut.2) (by decide)
  -- the line is the first one of the second part
  obtain ⟨lines, hlines⟩ : ∃ lines, splitLines (beginVcard ++ s' ++ rest) = beginVcard :: lines := by
    have hbreak : NoBreak beginVcard := by decide
    rcases hs' with rfl | ⟨c, hc, rfl⟩
    · exact ⟨_, splitLines_append_crlf hbreak rest⟩
    have hne : [c] ++ rest ≠ [] := by simp
    obtain ⟨first, more, hfirst⟩ := List.exists_cons_of_ne_nil (lineChunks_ne_nil hne)
    have hnil : first.1 = [] := by
      by_cases hcut : c = '\r' ∧ rest.head? = some '\n'
      · obtain ⟨rfl, hnl⟩ := hcut
        obtain ⟨rest', rfl⟩ := List.head?_eq_some_iff.mp hnl
        have hcrlf := lineChunks_crlf rest'
        have heq := hfirst.symm.trans hcrlf
        rw [(List.cons.inj heq).1]
      · have hbr := lineChunks_break hc hcut
        have heq := hfirst.symm.trans hbr
        rw [(List.cons.inj heq).1]
    refine ⟨more.map Prod.fst, ?_⟩
    rw [splitLines, List.append_assoc,
      lineChunks_append_open hbreak (m := first.1) (t := first.2) hfirst, hnil, List.append_nil]
    rfl
  rw [hsplit, hlines, cardBodies_begin]
  rcases splitLines_between hs with heq | heq
  · rw [heq]
  · rw [heq, cardBodies_append_nil]

/-- **A damaged card neither swallows nor changes the cards after it**: as long as the maximum is not
reached, the bodies of any text that goes on with a line `BEGIN:VCARD` are the bodies of the text and
those from this line on. -/
theorem resynchronized {text s s' : Str} (rest : Str) (maximum maxCardChars : Int)
    (hs : Between text s) (hs' : IsLineEnd s')
    (hmaximum : ((Stream.iterVcardBodies [followedBy text s s' rest] maximum maxCardChars).length : Int)
      < maximum) :
    Stream.iterVcardBodies [followedBy text s s' rest] maximum maxCardChars =
      Stream.iterVcardBodies [text] maximum maxCardChars ++
        Stream.iterVcardBodies [beginVcard ++ s' ++ rest] maximum maxCardChars := by
  simp only [iterVcardBodies_eq, linePieces_singleton, pieceBodies_whole] at hmaximum ⊢
  rw [cardBodies_followedBy _ rest hs hs'] at hmaximum ⊢
  generalize cardBodies maxCardChars.toNat none (splitLines text) = first at hmaximum ⊢
  generalize cardBodies maxCardChars.toNat none (splitLines (beginVcard ++ s' ++ rest)) = second
    at hmaximum ⊢
  rw [List.length_take, List.length_append] at hmaximum
  have hall : first.length + second.length ≤ max 1 maximum.toNat := by omega
  rw [List.take_of_length_le (by rw [List.length_append]; omega), List.take_of_length_le (by omega),
    List.take_of_length_le (by omega)]

/-- A card without its end, in the middle of an encoded value. -/
theorem resynchronized_unterminated :
    Stream.iterVcardBodies [followedBy "BEGIN:VCARD\nFN;QUOTED-PRINTABLE:A=".toList "\n".toList
        "\n".toList "FN:B\nEND:VCARD".toList] 10 1000 =
      Stream.iterVcardBodies ["BEGIN:VCARD\nFN;QUOTED-PRINTABLE:A=".toList] 10 1000 ++
        Stream.iterVcardBodies [beginVcard ++ "\n".toList ++ "FN:B\nEND:VCARD".toList] 10 1000 ∧
    Stream.iterVcardBodies [beginVcard ++ "\n".toList ++ "FN:B\nEND:VCARD".toList] 10 1000
      = ["FN:B".toList] := by
  have hnewline : IsLineEnd "\n".toList := Or.inr ⟨'\n', rfl, rfl⟩
  refine ⟨resynchronized _ 10 1000 (Or.inr hnewline) hnewline ?_, by decide +kernel⟩
  decide +kernel

end BlueFerry.Vcard
