import BlueFerry.Vcard.Pieces

/-! # The cards of a streamed text

`_iter_cards` feeds the pieces of a text to one `_Card` after the other. `PhotoCard` is the whole
`_Card`: with a photo budget it keeps the first PHOTO property of its card apart from the lines of the
body, and counts the characters of its value.

`iterVcardBodies` and `iterVcardCards` are the two readers of a phone book, which go over it one after
the other.
-/

namespace BlueFerry.Vcard

open BlueFerry.Text

/-! ## A card and its photo -/

/-- `_PHOTO_WHITESPACE` -/
def photoWhitespace : Str := " \t\r\n".toList ++ [Char.ofNat 11, Char.ofNat 12]

/-- `_Card`. -/
structure PhotoCard extends Card where
  photoLimit : Nat
  photo : Option Str := none
  photoSeen : Bool := false
  /-- the first PHOTO existed, but exceeded `photoLimit` -/
  photoOversized : Bool := false
  photoValueChars : Nat := 0
  photoPaddingChars : Nat := 0
  photoPrefix : Option Str := some []
  /-- a skipped PHOTO is kept as `photo` -/
  retaining : Bool := false
  measuringPhoto : Bool := false

namespace PhotoCard

/-- `_reset_property`. -/
def resetProperty (c : PhotoCard) (present : Bool) : PhotoCard :=
  { c with toCard := c.toCard.resetProperty present, retaining := false, measuringPhoto := false }

/-- The end of `_measure_photo`. -/
def countPhoto (c : PhotoCard) (compact : Str) : PhotoCard :=
  { c with photoValueChars := c.photoValueChars + compact.length,
           photoPaddingChars := c.photoPaddingChars + compact.count '=' }

section

variable (c : PhotoCard) (text : Str)

/-- `_measure_photo`. -/
def measurePhoto : PhotoCard :=
  let compact := text.filter (fun x => !photoWhitespace.contains x)
  match c.photoPrefix with
  | none => c.countPhoto compact
  | some begun =>
    let room := maxHeadChars - begun.length
    let start := begun ++ compact.take room
    let rest := compact.drop room
    if start.length < 5 ∧ startsWith "data:".toList start = true then
      { c with photoPrefix := some start }
    else if startsWith start "data:".toList = true then
      if ',' ∉ start ∧ start.length < maxHeadChars then { c with photoPrefix := some start }
      else
        let payload := if ',' ∈ start then (partition ',' start).2 else start
        countPhoto { c with photoPrefix := none } (payload ++ rest)
    else countPhoto { c with photoPrefix := none } (start ++ rest)

/-- `photo_size`. -/
def photoSize (c : PhotoCard) : Nat := (c.photoValueChars - c.photoPaddingChars) * 3 / 4

/-- `_decide`. -/
def decideHead (c : PhotoCard) (head : Str) : PhotoCard :=
  let pieces := splitUnquoted ';' false head
  let encoding := pieces.tail.map (fun part => upper (strip part))
  let selected := upper (((splitChar '.' (strip (pieces.headD []))).getLast?).getD [])
  let c := { c with decided := true, head := [], encoding := encoding,
                    base64Open := encoding.any (· ∈ base64Parameters) }
  if selected ∈ skippedProperties then
    let c := { c with skipped := true }
    if selected = "PHOTO".toList ∧ 0 < c.photoLimit ∧ c.photoSeen = false then
      { c with photoSeen := true, retaining := true, measuringPhoto := true }
    else { c with parts := [] }
  else c

/-- `_read_head`. -/
def readHead : PhotoCard :=
  let scanned := text.take (maxHeadChars - c.head.length)
  let (quoted, colon) := scanHead c.quoted scanned
  let c := { c with quoted := quoted }
  match colon with
  | some index =>
    let c := c.decideHead (c.head ++ scanned.take index)
    if c.measuringPhoto then c.measurePhoto (text.drop (index + 1)) else c
  | none =>
    let c := { c with head := c.head ++ scanned }
    if maxHeadChars ≤ c.head.length ∨ maxHeadChars < c.propertySize then
      { c with decided := true }
    else c

/-- `_add`. -/
def add : PhotoCard :=
  if c.skipped && !c.retaining then (if c.measuringPhoto then c.measurePhoto text else c)
  else
    let c := if text = [] then c
      else { c with parts := c.parts ++ [text], propertySize := c.propertySize + text.length }
    let c := if !c.decided then c.readHead text
      else if c.measuringPhoto then c.measurePhoto text else c
    if c.retaining then
      -- too large to keep: the rest is consumed like any skipped value
      if c.photoLimit < c.propertySize then
        { c with retaining := false, photoOversized := true, parts := [] }
      else c
    else if c.decided && !c.skipped then { c with toCard := c.toCard.checkBudget } else c

/-- `_close_property`. -/
def closeProperty (c : PhotoCard) : PhotoCard :=
  let c := if c.retaining && !c.overflowed then
      { c with photo := some c.parts.flatten, retaining := false, parts := [] }
    else c
  { c with toCard := c.toCard.closeProperty }

/-- `start_line`. -/
def startLine : PhotoCard :=
  if c.overflowed then c
  else
    let start := text.take wholeLineStart
    let c :=
      if c.softBreak && c.encoding.any (· ∈ quotedPrintableParameters) then
        let c := { c with toCard := c.toCard.dropSoftBreak }
        { c with propertySize := c.propertySize + 1 }.add text
      else if c.present && text.head?.any isBlank then
        { c with propertySize := c.propertySize + 1 }.add
          (if c.version21 then text else text.tail)
      else if c.version21 && c.base64Open && ((strip start).isEmpty || base64Line start) then
        { c with base64Open := !(strip start).isEmpty, propertySize := c.propertySize + 1 }.add text
      else (c.closeProperty.resetProperty true).add text
    { c with toCard := { c.toCard with softBreak := false }.noteLineEnd text }

/-- `add_piece`. -/
def addPiece : PhotoCard :=
  if c.overflowed then c
  else
    let c := c.add text
    { c with toCard := c.toCard.noteLineEnd text }

end

end PhotoCard

/-! ## The two readers -/

/-- A card as it is yielded, and what `on_oversized_photo` is called with before. -/
structure Yielded where
  body : Str
  photo : Option Str
  oversized : Option Nat
  deriving DecidableEq

/-- The end of a card: nothing is yielded for one that exceeded its budget. -/
def PhotoCard.finish (c : PhotoCard) : Option Yielded :=
  let c := c.closeProperty
  if c.overflowed then none
  else some ⟨joinLines c.lines, c.photo, if c.photoOversized then some c.photoSize else none⟩

/-- A whole line that delimits cards; a folded continuation is none. -/
def markerOf (present : Bool) (piece : Piece) : Str :=
  if present && piece.text.head?.any isBlank then []
  else if piece.complete then casefold (strip piece.text) else []

/-- `_iter_cards`, from the card that is open. -/
def cardsOf (cardLimit photoLimit : Nat) : Option PhotoCard → List Piece → List Yielded
  | _, [] => []
  | card, piece :: pieces =>
    if piece.continued then
      cardsOf cardLimit photoLimit (card.map (PhotoCard.addPiece · piece.text)) pieces
    else
      let marker := markerOf (card.any (fun c => c.present)) piece
      if marker = "begin:vcard".toList then
        cardsOf cardLimit photoLimit
          (some { toCard := { limit := cardLimit }, photoLimit := photoLimit }) pieces
      else if marker = "end:vcard".toList then
        match card.bind PhotoCard.finish with
        | some yielded => yielded :: cardsOf cardLimit photoLimit none pieces
        | none => cardsOf cardLimit photoLimit none pieces
      else cardsOf cardLimit photoLimit (card.map (PhotoCard.startLine · piece.text)) pieces

namespace Stream

/-- `_iter_cards`: the count is checked only after a card was yielded. -/
def iterCards (chunks : List Str) (maximum maxCardChars maxPhotoChars : Int) : List Yielded :=
  (cardsOf maxCardChars.toNat maxPhotoChars.toNat none (linePieces chunks)).take
    (max 1 maximum.toNat)

/-- `iter_vcard_bodies`. A text is one chunk. -/
def iterVcardBodies (chunks : List Str) (maximum maxCardChars : Int) : List Str :=
  (iterCards chunks maximum maxCardChars 0).map Yielded.body

/-- `iter_vcard_cards`. -/
def iterVcardCards (chunks : List Str) (maximum maxCardChars maxPhotoChars : Int) : List Yielded :=
  iterCards chunks maximum maxCardChars (max 1 maxPhotoChars)

end Stream

/-! ## A card without its photo -/

/-- `add_piece`, for the card alone. -/
def Card.addPiece (c : Card) (text : Str) : Card :=
  if c.overflowed then c else (c.add text).noteLineEnd text

/-- The bodies of the cards, from the card that is open. -/
def pieceBodies (limit : Nat) : Option Card → List Piece → List Str
  | _, [] => []
  | card, piece :: pieces =>
    if piece.continued then pieceBodies limit (card.map (Card.addPiece · piece.text)) pieces
    else
      let marker := markerOf (card.any Card.present) piece
      if marker = "begin:vcard".toList then pieceBodies limit (some { limit := limit }) pieces
      else if marker = "end:vcard".toList then
        match card.bind Card.finish with
        | some body => body :: pieceBodies limit none pieces
        | none => pieceBodies limit none pieces
      else pieceBodies limit (card.map (Card.startLine · piece.text)) pieces

/-- Over whole lines these are the bodies of the lines. -/
theorem pieceBodies_whole (limit : Nat) (card : Option Card) (lines : List Str) :
    pieceBodies limit card (lines.map whole) = cardBodies limit card lines := by
  induction lines generalizing card with
  | nil => rfl
  | cons line lines ih =>
    rw [List.map_cons, pieceBodies, cardBodies, if_neg (by simp [whole])]
    dsimp only
    have hmarker : markerOf (card.any Card.present) (whole line) =
        if (card.any Card.present && line.head?.any isBlank) = true then []
        else casefold (strip line) := rfl
    rw [hmarker]
    generalize (if (card.any Card.present && line.head?.any isBlank) = true then []
      else casefold (strip line)) = marker
    by_cases hbegin : marker = "begin:vcard".toList
    · rw [if_pos hbegin, if_pos hbegin]
      exact ih _
    rw [if_neg hbegin, if_neg hbegin]
    by_cases hend : marker = "end:vcard".toList
    · rw [if_pos hend, if_pos hend]
      cases card.bind Card.finish with
      | none => exact ih _
      | some body => exact congrArg (body :: ·) (ih none)
    · rw [if_neg hend, if_neg hend]
      exact ih _

end BlueFerry.Vcard
