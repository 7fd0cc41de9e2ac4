import BlueFerry.Text.Cuts
import BlueFerry.Obex.Vcard

/-! # The pieces of a streamed text

`_line_pieces` takes a text in chunks and yields the pieces of its lines. A line that a chunk cuts is
kept until 256 of its characters are there, and is yielded in pieces from then on; a `"\r\n"` between
two chunks is one line break.

However the text is cut into chunks that are not empty, its lines come in order, each of them whole
or in pieces of which the first has at least 256 characters (`cutLines_linePieces`).
-/

namespace BlueFerry.Vcard

open BlueFerry.Text

/-! ## The scanner -/

/-- What `_line_pieces` yields. -/
structure Piece where
  text : Str
  continued : Bool
  complete : Bool
  deriving DecidableEq

/-- The variables of `_line_pieces`, and what it has yielded so far. -/
structure Scanner where
  yielded : List Piece := []
  pending : Option Piece := none
  continued : Bool := false
  afterCarriageReturn : Bool := false
  carry : Str := []

/-- One turn of the inner loop, for a line with its terminator. -/
def Scanner.takeLine (s : Scanner) (line : Str × Str) : Scanner :=
  let terminated := !line.2.isEmpty
  { s with
    yielded := s.yielded ++ s.pending.toList
    pending := some ⟨line.1, s.continued, terminated⟩
    continued := !terminated }

/-- A line that was cut shortly after its start is kept for the next chunk. -/
def Scanner.keepStart (s : Scanner) : Scanner :=
  match s.pending with
  | some piece =>
    if !piece.continued && !piece.complete && piece.text.length < wholeLineStart then
      { s with carry := piece.text, pending := none, continued := false }
    else s
  | none => s

/-- One turn of the outer loop. -/
def Scanner.feed (s : Scanner) (chunk : Str) : Scanner :=
  let chunk := if s.afterCarriageReturn && chunk.head? == some '\n' then chunk.tail else chunk
  ((lineChunks (s.carry ++ chunk)).foldl Scanner.takeLine
    { s with afterCarriageReturn := chunk.getLast? == some '\r', carry := [] }).keepStart

/-- After the last chunk. -/
def Scanner.finish (s : Scanner) : List Piece :=
  if s.carry ≠ [] then s.yielded ++ [⟨s.carry, false, true⟩]
  else s.yielded ++ (s.pending.map (fun piece => { piece with complete := true })).toList

/-- `_line_pieces`. -/
def linePieces (chunks : List Str) : List Piece := (chunks.foldl Scanner.feed {}).finish

/-! ## Lines and their pieces -/

/-- A line that is yielded as a whole. -/
def whole (l : Str) : Piece := ⟨l, false, true⟩

/-- Further pieces of a line that is not at its end. -/
def middle (texts : List Str) : List Piece := texts.map (fun text => ⟨text, true, false⟩)

/-- The pieces are those of the line. -/
inductive CutLine : Str → List Piece → Prop where
  | whole (l : Str) : CutLine l [whole l]
  | pieces (start : Str) (texts : List Str) (last : Str) (h : wholeLineStart ≤ start.length) :
      CutLine (start ++ texts.flatten ++ last) (⟨start, false, false⟩ :: middle texts ++ [⟨last, true, true⟩])

/-- The pieces are those of the lines, line by line. -/
def CutLines (lines : List Str) (pieces : List Piece) : Prop :=
  ∃ groups, List.Forall₂ CutLine lines groups ∧ pieces = groups.flatten

/-- The pieces are those of a line that is still open. -/
def OpenLine (l : Str) (pieces : List Piece) : Prop :=
  ∃ start texts, l = start ++ List.flatten texts ∧ wholeLineStart ≤ start.length ∧
    pieces = ⟨start, false, false⟩ :: middle texts

theorem cutLines_nil : CutLines [] [] := ⟨[], List.Forall₂.nil, rfl⟩

variable {ps : List Piece} {l chunk : Str}

theorem cutLines_append {ls ms : List Str} {qs : List Piece} (hl : CutLines ls ps)
    (hm : CutLines ms qs) : CutLines (ls ++ ms) (ps ++ qs) := by
  obtain ⟨gs, hgs, rfl⟩ := hl
  obtain ⟨hs, hhs, rfl⟩ := hm
  exact ⟨gs ++ hs, List.rel_append hgs hhs, List.flatten_append.symm⟩

theorem cutLines_singleton (h : CutLine l ps) : CutLines [l] ps :=
  ⟨[ps], List.Forall₂.cons h List.Forall₂.nil, (List.flatten_singleton).symm⟩

theorem cutLines_whole (ls : List Str) : CutLines ls (ls.map whole) := by
  induction ls with
  | nil => exact cutLines_nil
  | cons l ls ih => exact cutLines_append (cutLines_singleton (CutLine.whole l)) ih

theorem openLine_append (h : OpenLine l ps) (text : Str) :
    OpenLine (l ++ text) (ps ++ [⟨text, true, false⟩]) := by
  obtain ⟨start, texts, rfl, hlen, rfl⟩ := h
  refine ⟨start, texts ++ [text], ?_, hlen, ?_⟩
  · simp [List.append_assoc]
  · simp [middle]

theorem cutLine_of_openLine (h : OpenLine l ps) (text : Str) :
    CutLine (l ++ text) (ps ++ [⟨text, true, true⟩]) := by
  obtain ⟨start, texts, rfl, hlen, rfl⟩ := h
  exact CutLine.pieces start texts text hlen

/-- The last piece of a line ends it. -/
theorem complete_of_cutLines {ls : List Str} (h : CutLines ls ps) {piece : Piece}
    (hlast : ps.getLast? = some piece) : piece.complete = true := by
  obtain ⟨groups, hgroups, rfl⟩ := h
  induction hgroups with
  | nil => nomatch hlast
  | @cons l group ls groups hcut hrest ih =>
    by_cases hnil : groups.flatten = []
    · rw [List.flatten_cons, hnil, List.append_nil] at hlast
      cases hcut with
      | whole l =>
        rw [← Option.some.inj hlast]
        rfl
      | pieces start texts last hlen =>
        rw [List.getLast?_append_of_ne_nil _ (List.cons_ne_nil _ _)] at hlast
        rw [← Option.some.inj hlast, List.getLast_singleton]
    · rw [List.flatten_cons, List.getLast?_append_of_ne_nil _ hnil] at hlast
      exact ih hlast

/-! ## What the loops yield -/

/-- What was yielded and the piece that is still held back. -/
def Scanner.pieces (s : Scanner) : List Piece := s.yielded ++ s.pending.toList

/-- The pieces of one chunk, after a line that is continued or not. -/
def piecesOf : Bool → List (Str × Str) → List Piece
  | _, [] => []
  | continued, (l, t) :: rest => ⟨l, continued, !t.isEmpty⟩ :: piecesOf t.isEmpty rest

/-- A chunk adds its pieces, and the last of them is held back. -/
theorem foldl_takeLine (lines : List (Str × Str)) (s : Scanner) :
    (lines.foldl Scanner.takeLine s).pieces = s.pieces ++ piecesOf s.continued lines ∧
    (lines.foldl Scanner.takeLine s).carry = s.carry ∧
    (lines.foldl Scanner.takeLine s).afterCarriageReturn = s.afterCarriageReturn ∧
    (lines ≠ [] → (lines.foldl Scanner.takeLine s).pending = (piecesOf s.continued lines).getLast?) ∧
    (lines.foldl Scanner.takeLine s).continued =
      (lines.getLast?.map (fun line => line.2.isEmpty)).getD s.continued := by
  induction lines generalizing s with
  | nil =>
    refine ⟨(List.append_nil _).symm, rfl, rfl, fun h => absurd rfl h, rfl⟩
  | cons line rest ih =>
    obtain ⟨hpieces, hcarry, hcr, hpending, hcontinued⟩ := ih (s.takeLine line)
    have hnext : (s.takeLine line).continued = line.2.isEmpty := by
      simp [Scanner.takeLine]
    rw [List.foldl_cons]
    refine ⟨?_, hcarry, hcr, fun _ => ?_, ?_⟩
    · rw [hpieces, hnext]
      simp [Scanner.pieces, Scanner.takeLine, piecesOf]
    · by_cases hrest : rest = []
      · subst hrest
        rfl
      rw [hpending hrest, hnext, piecesOf, List.getLast?_cons_of_ne_nil]
      intro hnil
      obtain ⟨first, more, rfl⟩ := List.exists_cons_of_ne_nil hrest
      exact List.cons_ne_nil _ _ hnil
    rw [hcontinued, hnext]
    by_cases hrest : rest = []
    · subst hrest
      rfl
    rw [List.getLast?_cons_of_ne_nil hrest]
    obtain ⟨last, hlast⟩ := Option.ne_none_iff_exists'.mp (mt List.getLast?_eq_none_iff.mp hrest)
    rw [hlast]
    rfl

theorem piecesOf_append {lines more : List (Str × Str)} (h : ∀ p ∈ lines, p.2 ≠ []) :
    piecesOf false (lines ++ more) = (lines.map Prod.fst).map whole ++ piecesOf false more := by
  induction lines with
  | nil => rfl
  | cons line lines ih =>
    have hline : line.2.isEmpty = false := by
      simpa using h line (.head _)
    rw [List.cons_append, piecesOf, hline, ih (fun p hp => h p (List.mem_cons_of_mem _ hp))]
    rfl

/-- The line is cut, or ends here. -/
theorem piecesOf_singleton (continued : Bool) (l : Str) :
    piecesOf continued [(l, [])] = [⟨l, continued, false⟩] := rfl

/-! ## The invariant -/

/-- The closed lines are out, and the open one is kept as a short start or is out in pieces. -/
def Out (s : Scanner) (closed last : Str) : Prop :=
  (s.continued = false ∧ s.carry = last ∧ last.length < wholeLineStart ∧
      (last ≠ [] → s.pending = none) ∧ CutLines (splitLines closed) s.pieces) ∨
    (s.continued = true ∧ s.carry = [] ∧ last ≠ [] ∧ s.pending ≠ none ∧ ∃ front rest,
      CutLines (splitLines closed) front ∧ OpenLine last rest ∧ s.pieces = front ++ rest)

/-- The scanner has seen the text, which is a closed part and the line that is open. -/
structure Seen (text : Str) (s : Scanner) (closed last : Str) : Prop where
  split : text = closed ++ last
  endsLine : Closed closed
  noBreak : NoBreak last
  carriageReturn : s.afterCarriageReturn = true ↔ last = [] ∧ closed.getLast? = some '\r'
  out : Out s closed last

theorem seen_start : Seen [] {} [] [] where
  split := rfl
  endsLine := closed_nil
  noBreak := noBreak_nil
  carriageReturn := by simp
  out := Or.inl ⟨rfl, rfl, by simp [wholeLineStart], fun h => absurd rfl h, cutLines_nil⟩

variable {text closed last : Str} {s : Scanner}

/-- At the end, the pieces are those of the lines. -/
theorem cutLines_finish (h : Seen text s closed last) : CutLines (splitLines text) s.finish := by
  have hlines : splitLines text = splitLines closed ++ (if last = [] then [] else [last]) := by
    rw [h.split]
    by_cases hlast : last = []
    · rw [hlast, if_pos rfl, List.append_nil, List.append_nil]
    rw [if_neg hlast, splitLines_append_closed h.endsLine]
    · rw [splitLines, splitLines, lineChunks_of_noBreak h.noBreak hlast]
      rfl
    · rintro ⟨-, hhead⟩
      have hbreak := h.noBreak '\n' (List.mem_of_mem_head? (by rw [hhead]; rfl))
      exact absurd hbreak (by decide)
  rw [hlines]
  rcases h.out with ⟨-, hcarry, -, hpending, hcut⟩ | ⟨-, hcarry, hlast, hpending, front, rest,
    hfront, hopen, hpieces⟩
  · by_cases hlast : last = []
    · rw [if_pos hlast, List.append_nil, Scanner.finish, if_neg (by simp [hcarry, hlast])]
      -- the piece that is held back ends its line
      have hsame : s.yielded ++ (s.pending.map (fun piece => { piece with complete := true })).toList
          = s.pieces := by
        rw [Scanner.pieces]
        cases hp : s.pending with
        | none => rfl
        | some piece =>
          have hcomplete : piece.complete = true := by
            refine complete_of_cutLines hcut ?_
            rw [Scanner.pieces, hp]
            exact List.getLast?_concat ..
          obtain ⟨ptext, pcontinued, pcomplete⟩ := piece
          subst hcomplete
          rfl
      rw [hsame]
      exact hcut
    · rw [if_neg hlast, Scanner.finish, if_pos (by simpa [hcarry] using hlast), hcarry]
      rw [Scanner.pieces, hpending hlast] at hcut
      exact cutLines_append (by simpa using hcut) (cutLines_singleton (CutLine.whole last))
  · rw [if_neg hlast, Scanner.finish, if_neg (by simp [hcarry])]
    obtain ⟨piece, hp⟩ := Option.ne_none_iff_exists'.mp hpending
    obtain ⟨start, texts, rfl, hlen, rfl⟩ := hopen
    rw [Scanner.pieces, hp] at hpieces
    rw [hp]
    rcases List.eq_nil_or_concat texts with rfl | ⟨texts, text, rfl⟩
    · -- the line was never continued
      have hsplit : s.yielded ++ [piece] = front ++ [⟨start, false, false⟩] := hpieces
      obtain ⟨hyielded, hpiece⟩ := List.append_inj' hsplit rfl
      rw [hyielded, List.singleton_inj.mp hpiece]
      rw [List.flatten_nil, List.append_nil]
      exact cutLines_append hfront (cutLines_singleton (CutLine.whole start))
    have hsplit : s.yielded ++ [piece] =
        (front ++ ⟨start, false, false⟩ :: middle texts) ++ [⟨text, true, false⟩] := by
      rw [List.append_assoc]
      simpa [middle] using hpieces
    obtain ⟨hyielded, hpiece⟩ := List.append_inj' hsplit rfl
    rw [hyielded, List.singleton_inj.mp hpiece, List.append_assoc]
    refine cutLines_append hfront (cutLines_singleton ?_)
    have hcut := CutLine.pieces start texts text hlen
    simpa [List.append_assoc] using hcut

/-! ## One chunk -/

/-- What a chunk brings, without the second half of a line break. -/
def Scanner.fresh (s : Scanner) (chunk : Str) : Str :=
  if s.afterCarriageReturn && chunk.head? == some '\n' then chunk.tail else chunk

theorem feed_eq (s : Scanner) (chunk : Str) : s.feed chunk =
    ((lineChunks (s.carry ++ s.fresh chunk)).foldl Scanner.takeLine
      { s with
        afterCarriageReturn := (s.fresh chunk).getLast? == some '\r'
        carry := [] }).keepStart := rfl

@[simp] theorem afterCarriageReturn_keepStart (s : Scanner) :
    s.keepStart.afterCarriageReturn = s.afterCarriageReturn := by
  unfold Scanner.keepStart
  split
  · split
    · rfl
    · rfl
  · rfl

/-- The lines of a chunk are out, and its last line is open or not. -/
theorem out_keepStart (front : List Piece) (hfront : CutLines (splitLines closed) front)
    (hpieces : s.pieces = front ++ if last = [] then [] else [⟨last, false, false⟩])
    (hcarry : s.carry = []) (hcontinued : s.continued = !last.isEmpty)
    (hpending : last ≠ [] → s.pending = some ⟨last, false, false⟩) :
    Out s.keepStart closed last := by
  by_cases hlast : last = []
  · -- the piece that is held back ends its line
    subst hlast
    rw [if_pos rfl, List.append_nil] at hpieces
    have hkeep : s.keepStart = s := by
      unfold Scanner.keepStart
      cases hp : s.pending with
      | none => rfl
      | some piece =>
        have hcomplete : piece.complete = true := by
          refine complete_of_cutLines hfront ?_
          rw [← hpieces, Scanner.pieces, hp]
          exact List.getLast?_concat ..
        dsimp only
        rw [hcomplete, if_neg (by simp)]
    rw [hkeep]
    refine Or.inl ⟨hcontinued, hcarry, by simp [wholeLineStart], fun h => absurd rfl h, ?_⟩
    rw [hpieces]
    exact hfront
  · rw [if_neg hlast] at hpieces
    have hp := hpending hlast
    have hyielded : s.yielded = front := by
      rw [Scanner.pieces, hp] at hpieces
      exact List.append_cancel_right hpieces
    by_cases hshort : last.length < wholeLineStart
    · have hkeep : s.keepStart = { s with carry := last, pending := none, continued := false } := by
        unfold Scanner.keepStart
        rw [hp]
        dsimp only
        rw [if_pos (by simpa using hshort)]
      rw [hkeep]
      refine Or.inl ⟨rfl, rfl, hshort, fun _ => rfl, ?_⟩
      rw [Scanner.pieces, hyielded]
      simpa using hfront
    have hkeep : s.keepStart = s := by
      unfold Scanner.keepStart
      rw [hp]
      dsimp only
      rw [if_neg (by simpa using hshort)]
    rw [hkeep]
    have hcont : s.continued = true := by
      rw [hcontinued]
      simpa using hlast
    refine Or.inr ⟨hcont, hcarry, hlast, by rw [hp]; exact Option.some_ne_none _, front, _, hfront,
      ⟨last, [], ?_, not_lt.mp hshort, rfl⟩, hpieces⟩
    simp

/-- A further piece of an open line stays out. -/
theorem keepStart_of_continued {piece : Piece} (hpending : s.pending = some piece)
    (hcontinued : piece.continued = true) : s.keepStart = s := by
  unfold Scanner.keepStart
  rw [hpending]
  dsimp only
  rw [hcontinued, if_neg (by simp)]

/-- The last line of a text, if it is open. -/
theorem getLast?_lineChunks {more : Str} (hends : ∀ p ∈ lineChunks more, p.2 ≠ [])
    (hne : more ++ last ≠ []) :
    (lineChunks more ++ if last = [] then [] else [(last, [])]).getLast?.map
      (fun line : Str × Str => line.2.isEmpty) = some (!last.isEmpty) := by
  by_cases hlast : last = []
  · subst hlast
    rw [if_pos rfl, List.append_nil]
    have hmore : lineChunks more ≠ [] := lineChunks_ne_nil (by simpa using hne)
    obtain ⟨p, hp⟩ := Option.ne_none_iff_exists'.mp (mt List.getLast?_eq_none_iff.mp hmore)
    have hend := hends p (List.mem_of_getLast? hp)
    rw [hp]
    simpa using hend
  · rw [if_neg hlast, List.getLast?_concat]
    simpa using hlast

/-- A chunk after a short start: the start and the chunk are read as one. -/
theorem out_feed_carry {more last' : Str} {lines : List (Str × Str)} (hcarry : s.carry = [])
    (hcontinued : s.continued = false) (hcut : CutLines (splitLines closed) s.pieces)
    (hlines : lines = lineChunks more ++ if last' = [] then [] else [(last', [])])
    (hends : ∀ p ∈ lineChunks more, p.2 ≠ []) (hne : more ++ last' ≠ [])
    (hclosed : splitLines (closed ++ more) = splitLines closed ++ splitLines more) :
    Out (lines.foldl Scanner.takeLine s).keepStart (closed ++ more) last' := by
  obtain ⟨hpieces, hcarry', -, hpending, hcontinued'⟩ := foldl_takeLine lines s
  have hpiecesOf : piecesOf false lines = (splitLines more).map whole ++
      if last' = [] then [] else [⟨last', false, false⟩] := by
    rw [hlines, piecesOf_append hends]
    by_cases hlast' : last' = []
    · rw [if_pos hlast', if_pos hlast']
      rfl
    rw [if_neg hlast', if_neg hlast']
    rfl
  have hnonempty : lines ≠ [] := by
    rw [hlines]
    intro hnil
    obtain ⟨hmore, hlast⟩ := List.append_eq_nil_iff.mp hnil
    by_cases hlast' : last' = []
    · rw [hlast', List.append_nil] at hne
      exact lineChunks_ne_nil hne hmore
    rw [if_neg hlast'] at hlast
    exact List.cons_ne_nil _ _ hlast
  rw [hcontinued, hpiecesOf] at hpending hpieces
  refine out_keepStart (s.pieces ++ (splitLines more).map whole) ?_ ?_ ?_ ?_ ?_
  · rw [hclosed]
    exact cutLines_append hcut (cutLines_whole _)
  · rw [hpieces, List.append_assoc]
  · rw [hcarry', hcarry]
  · rw [hcontinued', hlines, getLast?_lineChunks hends hne]
    rfl
  · intro hlast'
    rw [hpending hnonempty, if_neg hlast', List.getLast?_concat]

/-- A chunk after pieces of an open line: its first line goes on with it. -/
theorem out_feed_continued {more last' t : Str} {rest : List (Str × Str)}
    {front pieces : List Piece} (hcarry : s.carry = []) (hcontinued : s.continued = true)
    (hfront : CutLines (splitLines closed) front) (hopen : OpenLine last pieces)
    (hpieces : s.pieces = front ++ pieces)
    (hlines : (last ++ l, t) :: rest = lineChunks more ++ if last' = [] then [] else [(last', [])])
    (hends : ∀ p ∈ lineChunks more, p.2 ≠ [])
    (hclosed : splitLines (closed ++ more) = splitLines closed ++ splitLines more) :
    Out (((l, t) :: rest).foldl Scanner.takeLine s).keepStart (closed ++ more) last' := by
  obtain ⟨hout, hcarry', -, hpending, hcontinued'⟩ := foldl_takeLine ((l, t) :: rest) s
  have hpending := hpending (List.cons_ne_nil _ _)
  rw [hcontinued] at hout hpending
  cases hmore : lineChunks more with
  | nil =>
    -- the chunk does not end the line
    have hnil : more = [] := by
      by_contra hne
      exact lineChunks_ne_nil hne hmore
    rw [hmore, List.nil_append] at hlines
    have hlast' : last' ≠ [] := by
      intro hlast'
      rw [if_pos hlast'] at hlines
      exact List.cons_ne_nil _ _ hlines
    rw [if_neg hlast'] at hlines
    obtain ⟨hfirst, rfl⟩ := List.cons.inj hlines
    obtain ⟨rfl, rfl⟩ := Prod.mk.inj hfirst
    rw [piecesOf_singleton] at hout hpending
    rw [keepStart_of_continued hpending rfl, hnil, List.append_nil]
    refine Or.inr ⟨hcontinued', by rw [hcarry', hcarry], hlast', ?_, front,
      pieces ++ [⟨l, true, false⟩], hfront, openLine_append hopen l, ?_⟩
    · rw [hpending]
      exact Option.some_ne_none _
    · rw [hout, hpieces, List.append_assoc]
  | cons first moreLines =>
    rw [hmore, List.cons_append] at hlines
    obtain ⟨hfirst, hrest⟩ := List.cons.inj hlines
    subst hfirst
    rw [hmore] at hends
    have ht : t ≠ [] := hends _ (.head _)
    have hempty : t.isEmpty = false := by simpa using ht
    have hends' : ∀ p ∈ moreLines, p.2 ≠ [] := fun p hp => hends p (List.mem_cons_of_mem _ hp)
    have hsplit : splitLines more = (last ++ l) :: moreLines.map Prod.fst := by
      rw [splitLines, hmore]
      rfl
    have hpiecesOf : piecesOf true ((l, t) :: rest) =
        ⟨l, true, true⟩ :: ((moreLines.map Prod.fst).map whole ++
          if last' = [] then [] else [⟨last', false, false⟩]) := by
      rw [piecesOf, hempty, hrest, piecesOf_append hends']
      by_cases hlast' : last' = []
      · rw [if_pos hlast', if_pos hlast']
        rfl
      rw [if_neg hlast', if_neg hlast']
      rfl
    rw [hpiecesOf] at hout hpending
    refine out_keepStart
      (front ++ ((pieces ++ [⟨l, true, true⟩]) ++ (moreLines.map Prod.fst).map whole))
      ?_ ?_ ?_ ?_ ?_
    · rw [hclosed, hsplit]
      exact cutLines_append hfront
        (cutLines_append (cutLines_singleton (cutLine_of_openLine hopen l)) (cutLines_whole _))
    · rw [hout, hpieces]
      simp [List.append_assoc]
    · rw [hcarry', hcarry]
    · have hne : more ++ last' ≠ [] := by
        intro hnil
        rw [(List.append_eq_nil_iff.mp hnil).1] at hmore
        cases hmore
      have hends'' : ∀ p ∈ lineChunks more, p.2 ≠ [] := by
        rw [hmore]
        exact hends
      have hlast := getLast?_lineChunks hends'' hne
      rw [hmore, List.cons_append, ← hrest] at hlast
      have hsame : ((l, t) :: rest).getLast?.map (fun line : Str × Str => line.2.isEmpty) =
          ((last ++ l, t) :: rest).getLast?.map (fun line => line.2.isEmpty) := by
        cases rest with
        | nil => rfl
        | cons second more => rfl
      rw [hcontinued', hsame, hlast]
      rfl
    · intro hlast'
      rw [hpending, if_neg hlast', ← List.cons_append, List.getLast?_concat]

/-- The head of a text that goes on an open line is no line break. -/
theorem head?_append_open (h : NoBreak last) (hne : last ≠ []) :
    (last ++ chunk).head? ≠ some '\n' := by
  intro hhead
  cases last with
  | nil => exact hne rfl
  | cons c last =>
    have hc : isLineBreak c = false := h c (.head _)
    rw [Option.some.inj hhead] at hc
    exact absurd hc (by decide)

/-- **A chunk is read in full**, whether it begins a line or goes on with one. -/
theorem seen_feed (h : Seen text s closed last) (hne : chunk ≠ [])
    (hfresh : s.fresh chunk = chunk) :
    ∃ closed' last', Seen (text ++ chunk) (s.feed chunk) closed' last' := by
  have hcut : ¬ (closed.getLast? = some '\r' ∧ (last ++ chunk).head? = some '\n') := by
    rintro ⟨hcr, hnl⟩
    by_cases hlast : last = []
    · -- then the second half of the line break was dropped
      have hafter : s.afterCarriageReturn = true := h.carriageReturn.mpr ⟨hlast, hcr⟩
      rw [hlast, List.nil_append] at hnl
      obtain ⟨rest, rfl⟩ := List.head?_eq_some_iff.mp hnl
      have hdrop : s.fresh ('\n' :: rest) = rest := by
        rw [Scanner.fresh, hafter]
        rfl
      rw [hdrop] at hfresh
      exact absurd hfresh (List.cons_ne_self _ _).symm
    · exact head?_append_open h.noBreak hlast hnl
  obtain ⟨more, last', hsplit, hmore, hlast', hchunks, hends⟩ := exists_closed_open (last ++ chunk)
  have hnonempty : more ++ last' ≠ [] := by
    rw [← hsplit]
    simp [hne]
  have hclosed : splitLines (closed ++ more) = splitLines closed ++ splitLines more := by
    refine splitLines_append_closed h.endsLine ?_
    rintro ⟨hcr, hnl⟩
    refine hcut ⟨hcr, ?_⟩
    rw [hsplit, List.head?_append, hnl]
    rfl
  refine ⟨closed ++ more, last', ?_, closed_append h.endsLine hmore, hlast', ?_, ?_⟩
  · rw [h.split, List.append_assoc, hsplit, List.append_assoc]
  · -- the chunk ends with a carriage return
    have hlast? : chunk.getLast? = (more ++ last').getLast? := by
      rw [← hsplit, List.getLast?_append_of_ne_nil _ hne]
    rw [feed_eq, afterCarriageReturn_keepStart, (foldl_takeLine _ _).2.2.1, hfresh, beq_iff_eq, hlast?]
    by_cases hnil : last' = []
    · have hmore' : more ≠ [] := by
        rintro rfl
        exact hnonempty (by rw [hnil]; rfl)
      rw [hnil, List.append_nil, List.getLast?_append_of_ne_nil _ hmore']
      exact (and_iff_right rfl).symm
    rw [List.getLast?_append_of_ne_nil _ hnil]
    refine iff_of_false ?_ (fun hcr => hnil hcr.1)
    intro hcr
    exact absurd (hlast' _ (List.mem_of_getLast? hcr)) (by decide)
  · rw [feed_eq, hfresh]
    rcases h.out with ⟨hcontinued, hcarry, -, -, hlines⟩ | ⟨hcontinued, hcarry, hlast, -, front,
      rest, hfront, hopen, hpieces⟩
    · rw [hcarry]
      exact out_feed_carry rfl hcontinued hlines hchunks hends hnonempty hclosed
    rw [hcarry, List.nil_append]
    obtain ⟨first, others, hfirst⟩ := List.exists_cons_of_ne_nil (lineChunks_ne_nil hne)
    have hwhole := lineChunks_append_open h.noBreak (m := first.1) (t := first.2) hfirst
    rw [hfirst]
    exact out_feed_continued rfl hcontinued hfront hopen hpieces (hwhole.symm.trans hchunks) hends
      hclosed

/-- The second half of a line break changes nothing, and what follows it is read as it is. -/
theorem seen_feed_half (h : Seen text s closed last)
    (hafter : s.afterCarriageReturn = true) (hhead : chunk.head? = some '\n') :
    Seen (text ++ ['\n']) { s with afterCarriageReturn := false } (closed ++ ['\n']) last ∧
      s.feed chunk = Scanner.feed { s with afterCarriageReturn := false } chunk.tail := by
  obtain ⟨hlast, hcr⟩ := h.carriageReturn.mp hafter
  constructor
  · refine ⟨?_, ?_, h.noBreak, ?_, ?_⟩
    · rw [h.split, hlast, List.append_nil, List.append_nil]
    · refine closed_append h.endsLine ?_
      intro c hc
      rw [← Option.some.inj hc]
      rfl
    · refine iff_of_false Bool.false_ne_true ?_
      rintro ⟨-, hlf⟩
      rw [List.getLast?_concat] at hlf
      exact absurd (Option.some.inj hlf) (by decide)
    have hsame : splitLines (closed ++ ['\n']) = splitLines closed :=
      splitLines_append_cut_crlf hcr
    unfold Out
    rw [hsame]
    exact h.out
  · have hfresh : s.fresh chunk = chunk.tail := by
      rw [Scanner.fresh, hafter, hhead]
      rfl
    have hfresh' : Scanner.fresh { s with afterCarriageReturn := false } chunk.tail = chunk.tail := rfl
    rw [feed_eq, feed_eq, hfresh, hfresh']

/-- A piece that ends its line is not kept back for the next chunk. -/
theorem keepStart_of_complete (h : ∀ piece, s.pending = some piece → piece.complete = true) :
    s.keepStart = s := by
  unfold Scanner.keepStart
  cases hp : s.pending with
  | none => rfl
  | some piece =>
    dsimp only
    rw [h piece hp, if_neg (by simp)]

/-- An empty chunk changes nothing after a closed line. -/
theorem feed_nil (h : Seen text s closed []) (hafter : s.afterCarriageReturn = false) :
    s.feed [] = s := by
  rcases h.out with ⟨-, hcarry, -, -, hlines⟩ | ⟨-, -, hlast, -⟩
  · have hsame : ({ s with afterCarriageReturn := false, carry := [] } : Scanner) = s := by
      rw [← hafter, ← hcarry]
    have hnil : s.fresh [] = [] := by simp [Scanner.fresh]
    rw [feed_eq, hnil, hcarry]
    show Scanner.keepStart { s with afterCarriageReturn := false, carry := [] } = s
    rw [hsame]
    refine keepStart_of_complete (fun piece hp => complete_of_cutLines hlines ?_)
    rw [Scanner.pieces, hp]
    exact List.getLast?_concat ..
  · exact absurd rfl hlast

/-- Every chunk that is not empty is read in full. -/
theorem seen_chunk (h : Seen text s closed last) (hne : chunk ≠ []) :
    ∃ closed' last', Seen (text ++ chunk) (s.feed chunk) closed' last' := by
  by_cases hhalf : s.afterCarriageReturn = true ∧ chunk.head? = some '\n'
  · obtain ⟨hafter, hhead⟩ := hhalf
    obtain ⟨hseen, hfeed⟩ := seen_feed_half h hafter hhead
    have hlast : last = [] := (h.carriageReturn.mp hafter).1
    obtain ⟨rest, rfl⟩ := List.head?_eq_some_iff.mp hhead
    rw [hfeed, List.tail_cons]
    by_cases hrest : rest = []
    · subst hrest
      subst hlast
      rw [feed_nil hseen rfl]
      exact ⟨_, _, hseen⟩
    have hfresh : Scanner.fresh { s with afterCarriageReturn := false } rest = rest := rfl
    have hnext := seen_feed hseen hrest hfresh
    rw [List.append_assoc] at hnext
    exact hnext
  · refine seen_feed h hne ?_
    rw [Scanner.fresh, if_neg]
    simpa using hhalf

/-- **The lines of a text come in order**, each of them whole or in pieces, however the text is cut
into chunks. -/
theorem cutLines_linePieces {chunks : List Str} (h : ∀ chunk ∈ chunks, chunk ≠ []) :
    CutLines (splitLines chunks.flatten) (linePieces chunks) := by
  have hrun : ∃ closed last, Seen chunks.flatten (chunks.foldl Scanner.feed {}) closed last := by
    induction chunks using List.reverseRecOn with
    | nil => exact ⟨[], [], seen_start⟩
    | append_singleton chunks chunk ih =>
      obtain ⟨closed, last, hseen⟩ := ih (fun c hc => h c (List.mem_append_left _ hc))
      rw [List.flatten_append, List.flatten_singleton, List.foldl_append]
      exact seen_chunk hseen (h chunk (List.mem_append_right _ (.head _)))
  obtain ⟨closed, last, hseen⟩ := hrun
  exact cutLines_finish hseen

/-- **A text in one chunk comes in whole lines.** -/
theorem linePieces_singleton (blob : Str) : linePieces [blob] = (splitLines blob).map whole := by
  obtain ⟨a, l, -, -, -, hlines, hends⟩ := exists_closed_open blob
  have hfeed : linePieces [blob] =
      (((lineChunks blob).foldl Scanner.takeLine
        { afterCarriageReturn := blob.getLast? == some '\r' }).keepStart).finish := rfl
  obtain ⟨hpieces, hcarry, -, hpending, -⟩ := foldl_takeLine (lineChunks blob)
    { afterCarriageReturn := blob.getLast? == some '\r' }
  rw [hfeed]
  generalize (lineChunks blob).foldl Scanner.takeLine
    { afterCarriageReturn := blob.getLast? == some '\r' } = s at hpieces hcarry hpending ⊢
  have hsplit : splitLines blob = (lineChunks a).map Prod.fst ++ (if l = [] then [] else [l]) := by
    rw [splitLines, hlines, List.map_append]
    by_cases hl : l = []
    · rw [if_pos hl, if_pos hl]
      rfl
    rw [if_neg hl, if_neg hl]
    rfl
  dsimp only [Scanner.pieces] at hpieces hcarry hpending
  rw [hlines, piecesOf_append hends] at hpieces hpending
  rw [hsplit]
  by_cases hl : l = []
  · -- the last line is ended
    rw [if_pos hl] at hpieces hpending
    have hall : s.yielded ++ s.pending.toList = ((lineChunks a).map Prod.fst).map whole := by
      simpa [piecesOf] using hpieces
    have hcomplete : ∀ piece, s.pending = some piece → piece.complete = true := by
      intro piece hp
      have hmem : piece ∈ ((lineChunks a).map Prod.fst).map whole := by
        rw [← hall, hp]
        simp
      obtain ⟨line, -, rfl⟩ := List.mem_map.mp hmem
      rfl
    rw [keepStart_of_complete hcomplete, Scanner.finish, if_neg (by simp [hcarry]), if_pos hl,
      List.append_nil, ← hall]
    cases hp : s.pending with
    | none => rfl
    | some piece =>
      obtain ⟨text, continued, complete⟩ := piece
      have hc := hcomplete _ hp
      subst hc
      rfl
  · rw [if_neg hl, piecesOf_singleton] at hpieces hpending
    have hp : s.pending = some ⟨l, false, false⟩ := by
      rw [hpending (by simp), List.getLast?_concat]
    have hyielded : s.yielded = ((lineChunks a).map Prod.fst).map whole := by
      rw [hp, Option.toList_none, List.append_nil, List.nil_append] at hpieces
      exact List.append_cancel_right hpieces
    rw [if_neg hl, List.map_append, ← hyielded]
    unfold Scanner.keepStart
    rw [hp]
    dsimp only
    by_cases hshort : l.length < wholeLineStart
    · rw [if_pos (by simpa using hshort), Scanner.finish, if_pos (by simpa using hl)]
      rfl
    rw [if_neg (by simpa using hshort), Scanner.finish, if_neg (by simp [hcarry]), hp]
    rfl

end BlueFerry.Vcard
