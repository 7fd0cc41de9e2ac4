import BlueFerry.Vcard.Alike

/-! # Two passes over one phone book

A photo is kept only where the property is skipped anyway, so the rest of the card does not see it
(`alike_startLine_photo`). The pass that keeps photos yields the bodies of the pass that does not
(`two_passes`), and what it yields for a card is read off the lines of this card.
-/

namespace BlueFerry.Vcard

open BlueFerry.Text

namespace PhotoCard

/-- A photo is kept of a skipped property only, and a property is skipped once its head was read. -/
structure Apart (c : PhotoCard) : Prop where
  retained : c.retaining = true → c.skipped = true
  decided : c.skipped = true → c.decided = true

/-- The card without its photo shows as this one. -/
def Shows (c : PhotoCard) (d : Card) : Prop := c.toCard = d ∨ d.Skipped c.toCard

/-! ## Adding text -/

/-- Measuring a photo changes the counters of the photo only. -/
theorem toCard_measurePhoto (c : PhotoCard) (text : Str) :
    (c.measurePhoto text).toCard = c.toCard ∧ (c.measurePhoto text).retaining = c.retaining := by
  unfold measurePhoto
  dsimp only
  split
  · exact ⟨rfl, rfl⟩
  split
  · exact ⟨rfl, rfl⟩
  split
  · split <;> exact ⟨rfl, rfl⟩
  · exact ⟨rfl, rfl⟩

variable {c : PhotoCard}

/-- A head is decided as without photos; the text of a photo that is kept stays. -/
theorem shows_decideHead (hretain : c.retaining = false) (head : Str) :
    (c.decideHead head).Shows (c.toCard.decideHead head) ∧ (c.decideHead head).Apart := by
  unfold decideHead Card.decideHead
  dsimp only
  split
  · split
    · exact ⟨.inr ⟨rfl, _, _, rfl⟩, ⟨fun _ => rfl, fun _ => rfl⟩⟩
    · exact ⟨.inl rfl, ⟨fun _ => rfl, fun _ => rfl⟩⟩
  · refine ⟨.inl rfl, ⟨fun h => ?_, fun _ => rfl⟩⟩
    rw [hretain] at h
    exact Bool.noConfusion h

theorem shows_of_toCard_eq {c' : PhotoCard} {d : Card} (h : c.Shows d)
    (heq : c'.toCard = c.toCard) : c'.Shows d := by
  unfold Shows
  rw [heq]
  exact h

theorem apart_of_eq {c' : PhotoCard} (h : c.Apart) (heq : c'.toCard = c.toCard)
    (hretain : c'.retaining = c.retaining) : c'.Apart := by
  constructor
  · rw [heq, hretain]
    exact h.retained
  · rw [heq]
    exact h.decided

theorem shows_readHead (hskip : c.skipped = false) (hretain : c.retaining = false) (text : Str) :
    (c.readHead text).Shows (c.toCard.readHead text) ∧ (c.readHead text).Apart := by
  unfold readHead Card.readHead
  dsimp only
  generalize scanHead c.quoted (text.take (maxHeadChars - c.head.length)) = scan
  obtain ⟨quoted, colon⟩ := scan
  have hnone : ∀ c' : PhotoCard, c'.skipped = false → c'.retaining = false → c'.Apart := by
    intro c' hs hr
    refine ⟨fun h => ?_, fun h => ?_⟩
    · rw [hr] at h
      exact Bool.noConfusion h
    · rw [hs] at h
      exact Bool.noConfusion h
  cases colon with
  | some index =>
    dsimp only
    obtain ⟨hshows, hapart⟩ := shows_decideHead (c := { c with quoted := quoted }) hretain
      (c.head ++ (text.take (maxHeadChars - c.head.length)).take index)
    split
    · obtain ⟨heq, hkeep⟩ := toCard_measurePhoto (decideHead { c with quoted := quoted }
        (c.head ++ (text.take (maxHeadChars - c.head.length)).take index)) (text.drop (index + 1))
      exact ⟨shows_of_toCard_eq hshows heq, apart_of_eq hapart heq hkeep⟩
    · exact ⟨hshows, hapart⟩
  | none =>
    dsimp only
    split <;> exact ⟨.inl rfl, hnone _ hskip hretain⟩

/-- The text of a property with some more. -/
def append (c : PhotoCard) (text : Str) : PhotoCard := { c with toCard := c.toCard.append text }

theorem append_eq (c : PhotoCard) (text : Str) : (if text = [] then c
      else { c with parts := c.parts ++ [text], propertySize := c.propertySize + text.length })
    = c.append text := by
  unfold append
  rw [← Vcard.append_eq]
  by_cases h : text = []
  · rw [if_pos h, if_pos h]
  · rw [if_neg h, if_neg h]

/-- What is dropped of a photo that is too large was skipped anyway. -/
theorem shows_oversized {d : Card} (hshows : c.Shows d) (hskip : c.skipped = true) :
    Shows { c with retaining := false, photoOversized := true, parts := [] } d := by
  rcases hshows with rfl | ⟨hd, parts, size, heq⟩
  · exact .inr ⟨hskip, [], c.propertySize, rfl⟩
  refine .inr ⟨hd, [], size, ?_⟩
  rw [heq]

/-- The end of `_add`. -/
def check (c : PhotoCard) : PhotoCard :=
  if c.retaining then
    if c.photoLimit < c.propertySize then
      { c with retaining := false, photoOversized := true, parts := [] }
    else c
  else if c.decided && !c.skipped then { c with toCard := c.toCard.checkBudget } else c

/-- The budgets are checked apart: that of the photo, and that of the lines. -/
theorem shows_check {d : Card} (hshows : c.Shows d) (hapart : c.Apart) :
    c.check.Shows (if d.decided && !d.skipped then d.checkBudget else d) ∧ c.check.Apart := by
  have hskip : d.skipped = c.skipped := by
    rcases hshows with rfl | ⟨hd, parts, size, heq⟩
    · rfl
    · rw [heq]
  by_cases hretain : c.retaining = true
  · have hs := hapart.retained hretain
    have hno : ¬ (d.decided && !d.skipped) = true := by simp [hskip, hs]
    rw [check, if_pos hretain, if_neg hno]
    split
    · refine ⟨shows_oversized hshows hs, ⟨fun h => Bool.noConfusion h, fun h => ?_⟩⟩
      exact hapart.decided h
    · exact ⟨hshows, hapart⟩
  rw [check, if_neg hretain]
  by_cases hs : c.skipped = true
  · have hno : ¬ (c.decided && !c.skipped) = true := by simp [hs]
    have hno' : ¬ (d.decided && !d.skipped) = true := by simp [hskip, hs]
    rw [if_neg hno, if_neg hno']
    exact ⟨hshows, hapart⟩
  -- not skipped: the two cards are the same
  have hsame : c.toCard = d := by
    rcases hshows with h | ⟨hd, -⟩
    · exact h
    · exact absurd (hskip ▸ hd) hs
  subst hsame
  split
  · refine ⟨.inl rfl, ⟨fun h => absurd h hretain, fun h => ?_⟩⟩
    exact absurd (h : c.toCard.checkBudget.skipped = true) (by
      unfold Card.checkBudget
      split
      · exact hs
      · exact hs)
  · exact ⟨.inl rfl, hapart⟩

/-- **Text is added as without photos.** -/
theorem shows_add (h : c.Apart) (text : Str) :
    (c.add text).Shows (c.toCard.add text) ∧ (c.add text).Apart := by
  unfold add
  by_cases hs : c.skipped = true
  · rw [add_of_skipped hs]
    by_cases hretain : c.retaining = true
    · -- the photo is kept, and its text added
      rw [if_neg (by simp [hretain])]
      dsimp only
      rw [append_eq]
      have hdecided : (c.append text).decided = true := h.decided hs
      rw [hdecided]
      have happend : (c.append text).Shows c.toCard := Or.inr ⟨hs, _, _, rfl⟩
      have hapart : (c.append text).Apart := ⟨fun _ => hs, fun _ => h.decided hs⟩
      have hno : (if (c.toCard.decided && !c.toCard.skipped) = true then c.toCard.checkBudget
          else c.toCard) = c.toCard := if_neg (by simp [hs])
      have hfinal : ∀ d : PhotoCard, d.Shows c.toCard → d.Apart →
          d.check.Shows c.toCard ∧ d.check.Apart := by
        intro d hd ha
        have hchecked := shows_check hd ha
        rw [hno] at hchecked
        exact hchecked
      simp only [Bool.not_true, Bool.false_eq_true, if_false]
      by_cases hmeasure : (c.append text).measuringPhoto = true
      · rw [if_pos hmeasure]
        obtain ⟨heq, hkeep⟩ := toCard_measurePhoto (c.append text) text
        exact hfinal _ (shows_of_toCard_eq happend heq) (apart_of_eq hapart heq hkeep)
      · rw [if_neg hmeasure]
        exact hfinal _ happend hapart
    · rw [if_pos (by simp [hs, hretain])]
      split
      · obtain ⟨heq, hkeep⟩ := toCard_measurePhoto c text
        exact ⟨.inl heq, apart_of_eq h heq hkeep⟩
      · exact ⟨.inl rfl, h⟩
  · have hskip : c.skipped = false := by simpa using hs
    have hretain : c.retaining = false := by
      by_contra hr
      exact hs (h.retained (by simpa using hr))
    rw [if_neg (by simp [hskip])]
    dsimp only
    rw [append_eq]
    by_cases hd : c.decided = true
    · have hdecided : (c.append text).decided = true := hd
      rw [add_of_decided hskip hd, hdecided]
      simp only [Bool.not_true, Bool.false_eq_true, if_false]
      have happart : (c.append text).Apart := ⟨h.retained, h.decided⟩
      have hcheck : (if (c.toCard.append text).decided && !(c.toCard.append text).skipped then
          (c.toCard.append text).checkBudget else c.toCard.append text)
          = (c.toCard.append text).checkBudget := if_pos (by
        show (c.decided && !c.skipped) = true
        rw [hd, hskip]
        rfl)
      rw [← hcheck]
      by_cases hmeasure : (c.append text).measuringPhoto = true
      · rw [if_pos hmeasure]
        obtain ⟨heq, hkeep⟩ := toCard_measurePhoto (c.append text) text
        exact shows_check (.inl heq) (apart_of_eq happart heq hkeep)
      · rw [if_neg hmeasure]
        exact shows_check (.inl rfl) happart
    · have hd' : c.decided = false := by simpa using hd
      have hdecided : (c.append text).decided = false := hd'
      rw [add_of_undecided hskip hd', hdecided]
      simp only [Bool.not_false, if_true]
      obtain ⟨hshows, hapart⟩ := shows_readHead (c := c.append text) hskip hretain text
      exact shows_check hshows hapart

/-! ## Lines and the end of a card -/

/-- A property is closed as without photos. -/
theorem toCard_closeProperty (h : c.Apart) :
    c.closeProperty.Shows c.toCard.closeProperty ∧ c.closeProperty.Apart ∧
      c.closeProperty.toCard.resetProperty true = c.toCard.closeProperty.resetProperty true := by
  unfold closeProperty
  by_cases hretain : (c.retaining && !c.overflowed) = true
  · rw [if_pos hretain]
    have hs : c.skipped = true := h.retained (by simp_all)
    have hclose : ({ c.toCard with parts := [] } : Card).closeProperty = { c.toCard with parts := [] } :=
      closeProperty_of_skipped hs
    dsimp only
    rw [hclose, closeProperty_of_skipped hs]
    exact ⟨.inr ⟨hs, [], c.propertySize, rfl⟩, ⟨fun hr => Bool.noConfusion hr, h.decided⟩, rfl⟩
  rw [if_neg hretain]
  refine ⟨.inl rfl, ⟨fun hr => ?_, fun hskip => ?_⟩, rfl⟩
  · -- then the card has exceeded its budget
    have hs := h.retained hr
    show c.toCard.closeProperty.skipped = true
    rw [closeProperty_of_skipped hs]
    exact hs
  by_cases hs : c.skipped = true
  · show c.toCard.closeProperty.decided = true
    rw [closeProperty_of_skipped hs]
    exact h.decided hs
  exfalso
  apply hs
  have hclosed : c.toCard.closeProperty.skipped = true := hskip
  unfold Card.closeProperty at hclosed
  dsimp only at hclosed
  split at hclosed
  · exact hclosed
  split at hclosed
  all_goals
    unfold Card.checkBudget at hclosed
    split at hclosed <;> exact hclosed

/-- The property that a line goes on with or begins. -/
def opened (c : PhotoCard) (text : Str) : PhotoCard × Str :=
  let start := text.take wholeLineStart
  if c.softBreak && c.encoding.any (· ∈ quotedPrintableParameters) then
    ({ c with toCard :=
      { c.toCard.dropSoftBreak with propertySize := c.toCard.dropSoftBreak.propertySize + 1 } }, text)
  else if c.present && text.head?.any isBlank then
    ({ c with propertySize := c.propertySize + 1 }, if c.version21 then text else text.tail)
  else if c.version21 && c.base64Open && ((strip start).isEmpty || base64Line start) then
    ({ c with base64Open := !(strip start).isEmpty, propertySize := c.propertySize + 1 }, text)
  else (c.closeProperty.resetProperty true, text)

theorem startLine_eq (h : c.overflowed = false) (text : Str) :
    c.startLine text = { (c.opened text).1.add (c.opened text).2 with
      toCard := ((c.opened text).1.add (c.opened text).2).toCard.endLine text } := by
  rw [startLine, if_neg (by simp [h])]
  unfold opened Card.endLine
  dsimp only
  split
  · rfl
  split
  · rfl
  · split <;> rfl

/-- A line opens the same property as without photos. -/
theorem toCard_opened (h : c.Apart) (text : Str) :
    (c.opened text).1.toCard = (c.toCard.opened text).1 ∧
      (c.opened text).2 = (c.toCard.opened text).2 ∧ (c.opened text).1.Apart := by
  obtain ⟨parts, -, hdrop⟩ := dropSoftBreak_eq c.toCard
  unfold opened Card.opened
  dsimp only
  split
  · refine ⟨rfl, rfl, ⟨fun hr => ?_, fun hskip => ?_⟩⟩
    · rw [hdrop]
      exact h.retained hr
    · have hs : c.toCard.dropSoftBreak.skipped = true := hskip
      rw [hdrop] at hs ⊢
      exact h.decided hs
  split
  · exact ⟨rfl, rfl, ⟨h.retained, h.decided⟩⟩
  split
  · exact ⟨rfl, rfl, ⟨h.retained, h.decided⟩⟩
  exact ⟨(toCard_closeProperty h).2.2, rfl,
    ⟨fun hr => Bool.noConfusion hr, fun hs => Bool.noConfusion hs⟩⟩

/-- The end of a line changes neither what is skipped nor what is decided. -/
theorem noteLineEnd_same (c : Card) (text : Str) :
    (c.noteLineEnd text).skipped = c.skipped ∧ (c.noteLineEnd text).decided = c.decided := by
  unfold Card.noteLineEnd
  dsimp only
  split <;> exact ⟨rfl, rfl⟩

theorem apart_noteLineEnd (h : c.Apart) (d : Card) (hskip : d.skipped = c.skipped)
    (hdecided : d.decided = c.decided) (text : Str) :
    Apart { c with toCard := d.noteLineEnd text } := by
  obtain ⟨hs, hd⟩ := noteLineEnd_same d text
  constructor
  · intro hr
    rw [hs, hskip]
    exact h.retained hr
  intro hskipped
  have hskipped' : (d.noteLineEnd text).skipped = true := hskipped
  rw [hs, hskip] at hskipped'
  rw [hd, hdecided]
  exact h.decided hskipped'

/-- **A line is added as without photos.** -/
theorem alike_startLine_photo (h : c.Apart) (text : Str) :
    (c.startLine text).toCard.Alike (c.toCard.startLine text) ∧ (c.startLine text).Apart := by
  by_cases hover : c.overflowed = true
  · rw [startLine, if_pos hover, startLine_of_overflowed hover]
    exact ⟨Card.Alike.refl _, h⟩
  have hno : c.overflowed = false := by simpa using hover
  obtain ⟨hopened, htext, hapart⟩ := toCard_opened h text
  obtain ⟨hshows, hadded⟩ := shows_add hapart (c.opened text).2
  rw [startLine_eq hno, Vcard.startLine_eq hno, ← hopened, ← htext]
  refine ⟨?_, apart_noteLineEnd hadded
    { ((c.opened text).1.add (c.opened text).2).toCard with softBreak := false } rfl rfl text⟩
  rcases hshows with heq | hskip
  · rw [← heq]
    exact Card.Alike.refl _
  · exact (skipped_endLine hskip text).alike.symm

theorem alike_addPiece_photo (h : c.Apart) (text : Str) :
    (c.addPiece text).toCard.Alike (c.toCard.addPiece text) ∧ (c.addPiece text).Apart := by
  unfold addPiece Card.addPiece
  by_cases hover : c.overflowed = true
  · rw [if_pos hover, if_pos hover]
    exact ⟨Card.Alike.refl _, h⟩
  rw [if_neg hover, if_neg hover]
  obtain ⟨hshows, hadded⟩ := shows_add h text
  refine ⟨?_, apart_noteLineEnd hadded _ rfl rfl text⟩
  rcases hshows with heq | hskip
  · rw [← heq]
    exact Card.Alike.refl _
  · exact (skipped_noteLineEnd hskip text).alike.symm

/-- **A card yields the body that it yields without photos.** -/
theorem body_finish (h : c.Apart) : c.finish.map Yielded.body = c.toCard.finish := by
  obtain ⟨hshows, -, -⟩ := toCard_closeProperty h
  unfold finish Card.finish
  dsimp only
  have hsame : c.closeProperty.overflowed = c.toCard.closeProperty.overflowed ∧
      c.closeProperty.lines = c.toCard.closeProperty.lines := by
    rcases hshows with heq | ⟨-, parts, size, heq⟩
    all_goals
      rw [heq]
      exact ⟨rfl, rfl⟩
  rw [hsame.1, hsame.2]
  split <;> rfl

end PhotoCard

/-! ## The whole text -/

/-- The open cards of the two passes. -/
def Beside (photo : Option PhotoCard) (card : Option Card) : Prop :=
  Option.Rel (fun c d => c.Apart ∧ c.toCard.Alike d) photo card

variable {card : Option Card} {photo : Option PhotoCard}

theorem present_of_beside (h : Beside photo card) :
    photo.any (fun c => c.present) = card.any Card.present := by
  cases h with
  | none => rfl
  | some h => exact h.2.present_eq

theorem finish_of_beside (h : Beside photo card) :
    (photo.bind PhotoCard.finish).map Yielded.body = card.bind Card.finish := by
  cases h with
  | none => rfl
  | some h => exact (PhotoCard.body_finish h.1).trans (finish_eq_of_alike h.2)

/-- **The bodies do not depend on the photo budget.** -/
theorem bodies_cardsOf (cardLimit photoLimit : Nat) (pieces : List Piece) (h : Beside photo card) :
    (cardsOf cardLimit photoLimit photo pieces).map Yielded.body
      = pieceBodies cardLimit card pieces := by
  induction pieces generalizing photo card with
  | nil => rfl
  | cons piece pieces ih =>
    rw [cardsOf, pieceBodies]
    by_cases hcontinued : piece.continued = true
    · rw [if_pos hcontinued, if_pos hcontinued]
      refine ih ?_
      cases h with
      | none => exact Option.Rel.none
      | some h =>
        obtain ⟨halike, hapart⟩ := PhotoCard.alike_addPiece_photo h.1 piece.text
        exact Option.Rel.some ⟨hapart, halike.trans (alike_addPiece h.2 piece.text)⟩
    rw [if_neg hcontinued, if_neg hcontinued]
    rw [present_of_beside h]
    generalize markerOf (card.any Card.present) piece = marker
    by_cases hbegin : marker = "begin:vcard".toList
    · rw [if_pos hbegin, if_pos hbegin]
      exact ih (Option.Rel.some ⟨⟨fun hr => Bool.noConfusion hr, fun hs => Bool.noConfusion hs⟩,
        Card.Alike.refl _⟩)
    rw [if_neg hbegin, if_neg hbegin]
    by_cases hend : marker = "end:vcard".toList
    · rw [if_pos hend, if_pos hend, ← finish_of_beside h]
      cases photo.bind PhotoCard.finish with
      | none => exact ih Option.Rel.none
      | some yielded => exact congrArg (yielded.body :: ·) (ih Option.Rel.none)
    rw [if_neg hend, if_neg hend]
    refine ih ?_
    cases h with
    | none => exact Option.Rel.none
    | some h =>
      obtain ⟨halike, hapart⟩ := PhotoCard.alike_startLine_photo h.1 piece.text
      exact Option.Rel.some ⟨hapart, halike.trans (alike_startLine h.2 piece.text)⟩

/-- `iter_vcard_bodies` without the card of the source. -/
theorem iterVcardBodies_eq (chunks : List Str) (maximum maxCardChars : Int) :
    Stream.iterVcardBodies chunks maximum maxCardChars =
      (pieceBodies maxCardChars.toNat none (linePieces chunks)).take (max 1 maximum.toNat) := by
  rw [Stream.iterVcardBodies, Stream.iterCards, List.map_take,
    bodies_cardsOf _ _ _ (Option.Rel.none : Beside none none)]

/-! ## Where a card comes from -/

/-- One piece between the markers of a card. -/
def PhotoCard.feed (c : PhotoCard) (piece : Piece) : PhotoCard :=
  if piece.continued then c.addPiece piece.text else c.startLine piece.text

/-- The card and its photo are read off the pieces between two markers of the text. -/
def ReadOff (cardLimit photoLimit : Nat) (pieces : List Piece) (yielded : Yielded) : Prop :=
  ∃ before opening inside closing after,
    pieces = before ++ opening :: inside ++ closing :: after ∧
    markerOf false opening = "begin:vcard".toList ∧
    markerOf false closing = "end:vcard".toList ∧
    (inside.foldl PhotoCard.feed
      { toCard := { limit := cardLimit }, photoLimit := photoLimit }).finish = some yielded

theorem markerOf_false {present : Bool} {piece : Piece} {marker : Str}
    (h : markerOf present piece = marker) (hne : marker ≠ []) : markerOf false piece = marker := by
  unfold markerOf at h ⊢
  by_cases hfolded : (present && piece.text.head?.any isBlank) = true
  · rw [if_pos hfolded] at h
    exact absurd h.symm hne
  rw [if_neg hfolded] at h
  exact h

/-- **Every card that is yielded is read off its own lines.** -/
theorem readOff_of_mem (cardLimit photoLimit : Nat) (pieces : List Piece) :
    ∀ (seen : List Piece) (card : Option PhotoCard),
      (∀ c, card = some c → ∃ before opening inside,
        seen = before ++ opening :: inside ∧ markerOf false opening = "begin:vcard".toList ∧
        inside.foldl PhotoCard.feed
          { toCard := { limit := cardLimit }, photoLimit := photoLimit } = c) →
      ∀ y ∈ cardsOf cardLimit photoLimit card pieces,
        ReadOff cardLimit photoLimit (seen ++ pieces) y := by
  induction pieces with
  | nil => exact fun _ _ _ y hy => absurd hy List.not_mem_nil
  | cons piece pieces ih =>
    intro seen card hcard y hy
    have hseen : seen ++ piece :: pieces = (seen ++ [piece]) ++ pieces := by simp
    -- what an open card becomes when the piece is fed to it
    have hfeed : ∀ f : PhotoCard → PhotoCard, (∀ c, c.feed piece = f c) →
        ∀ c, card.map f = some c → ∃ before opening inside,
          seen ++ [piece] = before ++ opening :: inside ∧
          markerOf false opening = "begin:vcard".toList ∧
          inside.foldl PhotoCard.feed
            { toCard := { limit := cardLimit }, photoLimit := photoLimit } = c := by
      intro f hf c hc
      obtain ⟨old, hold, rfl⟩ := Option.map_eq_some_iff.mp hc
      obtain ⟨before, opening, inside, rfl, hopening, hinside⟩ := hcard old hold
      refine ⟨before, opening, inside ++ [piece], by simp, hopening, ?_⟩
      rw [List.foldl_append, hinside, List.foldl_cons, List.foldl_nil, hf]
    rw [cardsOf] at hy
    by_cases hcontinued : piece.continued = true
    · rw [if_pos hcontinued] at hy
      rw [hseen]
      exact ih _ _ (hfeed _ (fun c => if_pos hcontinued)) y hy
    rw [if_neg hcontinued] at hy
    by_cases hbegin : markerOf (card.any (fun c => c.present)) piece = "begin:vcard".toList
    · rw [if_pos hbegin] at hy
      rw [hseen]
      refine ih _ _ ?_ y hy
      intro c hc
      refine ⟨seen, piece, [], rfl, markerOf_false hbegin (by decide), ?_⟩
      exact Option.some.inj hc
    rw [if_neg hbegin] at hy
    by_cases hend : markerOf (card.any (fun c => c.present)) piece = "end:vcard".toList
    · rw [if_pos hend] at hy
      have hrest : ∀ z ∈ cardsOf cardLimit photoLimit none pieces,
          ReadOff cardLimit photoLimit (seen ++ piece :: pieces) z := by
        rw [hseen]
        exact ih _ none (fun c hc => nomatch hc)
      cases hfinish : card.bind PhotoCard.finish with
      | none =>
        rw [hfinish] at hy
        exact hrest y hy
      | some yielded =>
        rw [hfinish] at hy
        rcases List.mem_cons.mp hy with rfl | hy
        · obtain ⟨c, hc, hcfinish⟩ := Option.bind_eq_some_iff.mp hfinish
          obtain ⟨before, opening, inside, rfl, hopening, hinside⟩ := hcard c hc
          exact ⟨before, opening, inside, piece, pieces, rfl, hopening,
            markerOf_false hend (by decide), hinside ▸ hcfinish⟩
        · exact hrest y hy
    · rw [if_neg hend] at hy
      rw [hseen]
      exact ih _ _ (hfeed _ (fun c => if_neg hcontinued)) y hy

/-- **The two passes over a phone book yield the same bodies in the same order**, whatever the chunks
and the budgets are. So they give the same records index by index, and the photo beside a record was
read off the lines of its own card. -/
theorem two_passes (chunks : List Str) (maximum maxCardChars maxPhotoChars : Int) :
    (Stream.iterVcardCards chunks maximum maxCardChars maxPhotoChars).map Yielded.body
      = Stream.iterVcardBodies chunks maximum maxCardChars ∧
    (∀ (Rec : Type) (parseCard : Str → Option Rec),
      ((Stream.iterVcardCards chunks maximum maxCardChars maxPhotoChars).filterMap
          (fun y => (parseCard y.body).map (fun record => (record, y.photo)))).map Prod.fst
        = (Stream.iterVcardBodies chunks maximum maxCardChars).filterMap parseCard) ∧
    ∀ y ∈ Stream.iterVcardCards chunks maximum maxCardChars maxPhotoChars,
      ReadOff maxCardChars.toNat (max 1 maxPhotoChars).toNat (linePieces chunks) y := by
  have hbodies : (Stream.iterVcardCards chunks maximum maxCardChars maxPhotoChars).map Yielded.body
      = Stream.iterVcardBodies chunks maximum maxCardChars := by
    rw [iterVcardBodies_eq, Stream.iterVcardCards, Stream.iterCards, List.map_take,
      bodies_cardsOf _ _ _ (Option.Rel.none : Beside none none)]
  refine ⟨hbodies, ?_, ?_⟩
  · intro Rec parseCard
    rw [← hbodies, List.map_filterMap, List.filterMap_map]
    congr 1
    funext y
    cases hparse : parseCard y.body with
    | none => simp [hparse]
    | some record => simp [hparse]
  · intro y hy
    have hmem := List.mem_of_mem_take hy
    exact readOff_of_mem _ _ (linePieces chunks) [] none (fun c hc => nomatch hc) y hmem

end BlueFerry.Vcard
