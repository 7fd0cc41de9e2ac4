import BlueFerry.Obex.Injection
import BlueFerry.Text.Cuts

/-! # The header fields and the message text

The sender of a message is read from the lines before its envelope, so no text inside the
message reaches it (`originator_append`). The status, type and folder are the first match in the
whole blob: a header that has the field wins over the text (`searchField_append`), and a header
that lacks it leaves the field to whoever wrote the text. `parse_header_iff` says so in both
directions.
-/

namespace BlueFerry.BMessage

open BlueFerry.Text BlueFerry.MapSend

/-! ## Text after a newline -/

/-- A newline ends a line whatever stands on its two sides. -/
theorem lineChunks_append_newline (s t : Str) :
    lineChunks (s ++ '\n' :: t) = lineChunks (s ++ ['\n']) ++ lineChunks t := by
  have hclosed : Closed (s ++ ['\n']) := by
    intro c hc
    simp at hc
    subst hc
    decide
  have happend := lineChunks_append_closed (t := t) hclosed (by simp)
  simpa using happend

/-! ## The originator -/

theorem splitLinesKeep_append_newline (s t : Str) :
    splitLinesKeep (s ++ '\n' :: t) = splitLinesKeep (s ++ ['\n']) ++ splitLinesKeep t := by
  rw [splitLinesKeep, lineChunks_append_newline, List.map_append]
  rfl

/-- What follows a complete envelope line is not part of the originator's region. -/
theorem originatorRegion_append {s : Str}
    (henv : ∃ line ∈ splitLinesKeep (s ++ ['\n']), opensEnvelope line = true) (t : Str) :
    originatorRegion (s ++ '\n' :: t) = originatorRegion (s ++ ['\n']) := by
  obtain ⟨line, hline, hopen⟩ := henv
  unfold originatorRegion
  rw [splitLinesKeep_append_newline, List.takeWhile_append, if_neg]
  intro hlen
  have hall := List.takeWhile_eq_self_iff.mp
    ((List.takeWhile_prefix _).eq_of_length hlen) line hline
  rw [hopen] at hall
  exact absurd hall (by decide)

theorem originator_append {s : Str}
    (henv : ∃ line ∈ splitLinesKeep (s ++ ['\n']), opensEnvelope line = true) (t : Str) :
    originator (s ++ '\n' :: t) = originator (s ++ ['\n']) := by
  unfold originator
  rw [originatorRegion_append henv]

/-! ## The searched fields -/

theorem matchField_nil (name : Str) : matchField name [] = none := by
  simp [matchField]

/-- **The first match wins**: a field of the header hides any other of its name. -/
theorem searchField_append (name s t : Str) :
    searchField name (s ++ '\n' :: t)
      = (searchField name (s ++ ['\n'])).or (searchField name t) := by
  have hend : searchField name (s ++ ['\n']) = (rawLines s).findSome? (matchField name) := by
    rw [searchField, rawLines_append_newline, List.findSome?_append]
    rw [show rawLines [] = [[]] from rfl, List.findSome?_singleton, matchField_nil, Option.or_none]
  rw [hend, searchField, rawLines_append_newline, List.findSome?_append]
  rfl

/-! ## Two texts in one message -/

/-- The header ends with a `BEGIN:MSG` line. -/
def EndsWithBeginMsg (header : Str) : Prop :=
  ∃ before line, header = before ++ line ++ ['\n']
    ∧ (before = [] ∨ before.getLast? = some '\n') ∧ '\n' ∉ line
    ∧ (lineMarker line).2 = "begin:msg".toList

/-- The shape of what stands before the text of a message: a complete envelope line, and a
`BEGIN:MSG` line at the end. -/
structure HeaderShape (header : Str) : Prop where
  envelope : ∃ line ∈ splitLinesKeep header, opensEnvelope line = true
  opened : EndsWithBeginMsg header

/-- A stuffed text: none of its lines opens a marker. -/
def Stuffed (text : Str) : Prop := ∀ line ∈ splitLines text, opensMarker line = false

instance (text : Str) : Decidable (Stuffed text) := inferInstanceAs (Decidable (∀ l ∈ _, _))

/-- Everything that `parse` reads apart from the body. -/
def SameHeader (m n : ParsedBMessage) : Prop :=
  m.senderAddress = n.senderAddress ∧ m.senderName = n.senderName ∧ m.status = n.status
    ∧ m.type = n.type ∧ m.folder = n.folder

/-- The fields that are searched for in the whole blob. -/
def searchedFields : List Str := ["STATUS".toList, "TYPE".toList, "FOLDER".toList]

theorem HeaderShape.eq_append_newline {header : Str} (h : HeaderShape header) :
    ∃ s, header = s ++ ['\n'] := by
  obtain ⟨before, line, rfl, -⟩ := h.opened
  exact ⟨before ++ line, rfl⟩

/-- A header with all three fields decides everything but the body. -/
theorem sameHeader_of_isSome {header : Str} (h : HeaderShape header)
    (hfields : ∀ name ∈ searchedFields, (searchField name header).isSome = true) (t u : Str) :
    SameHeader (parse (header ++ t)) (parse (header ++ u)) := by
  obtain ⟨s, rfl⟩ := h.eq_append_newline
  have hsearch : ∀ name ∈ searchedFields, ∀ v : Str,
      searchField name (s ++ ['\n'] ++ v) = searchField name (s ++ ['\n']) := by
    intro name hname v
    obtain ⟨value, hvalue⟩ := Option.isSome_iff_exists.mp (hfields name hname)
    rw [List.append_assoc, List.singleton_append, searchField_append, hvalue, Option.some_or]
  have hsender : ∀ v : Str, originator (s ++ ['\n'] ++ v) = originator (s ++ ['\n']) := by
    intro v
    rw [List.append_assoc, List.singleton_append, originator_append h.envelope]
  have hstatus := hsearch "STATUS".toList (by decide)
  have htype := hsearch "TYPE".toList (by decide)
  have hfolder := hsearch "FOLDER".toList (by decide)
  unfold SameHeader parse
  simp only [hsender, hstatus, htype, hfolder, and_self]

/-- The text of one line that spells a field. -/
def fieldLine (name : Str) (value : Char) : Str := name ++ [':', value, '\n']

/-- A header that lacks a field takes it from the text. -/
theorem searchField_of_none {header : Str} (h : HeaderShape header) {name : Str}
    (hname : name ∈ searchedFields) (hnone : searchField name header = none) {value : Char}
    (hvalue : value = 'a' ∨ value = 'b') (suffix : Str) :
    searchField name (header ++ fieldLine name value ++ suffix) = some [value] := by
  obtain ⟨s, rfl⟩ := h.eq_append_newline
  have hline : matchField name (name ++ [':', value]) = some [value] := by
    simp only [searchedFields, List.mem_cons, List.not_mem_nil, or_false] at hname
    rcases hname with rfl | rfl | rfl <;> rcases hvalue with rfl | rfl <;> decide
  have hnl : '\n' ∉ name ++ [':', value] := by
    simp only [searchedFields, List.mem_cons, List.not_mem_nil, or_false] at hname
    rcases hname with rfl | rfl | rfl <;> rcases hvalue with rfl | rfl <;> decide
  have hsplit : s ++ ['\n'] ++ fieldLine name value ++ suffix
      = s ++ '\n' :: ((name ++ [':', value]) ++ '\n' :: suffix) := by
    simp [fieldLine]
  rw [hsplit, searchField_append, hnone, Option.none_or, searchField, rawLines_append_newline,
    rawLines_of_not_mem hnl, List.singleton_append, List.findSome?_cons_of_isSome]
  · exact hline
  · simp [hline]

/-- **Noninterference of the parser.** Whatever follows the text, two stuffed texts under the same
header give the same sender, status, type and folder iff the header has all three searched
fields itself. -/
theorem parse_header_iff {header : Str} (h : HeaderShape header) (suffix : Str) :
    (∀ text text', Stuffed text → Stuffed text' →
        SameHeader (parse (header ++ text ++ suffix)) (parse (header ++ text' ++ suffix)))
      ↔ ∀ name ∈ searchedFields, (searchField name header).isSome = true := by
  constructor
  · intro hsame name hname
    rw [Option.isSome_iff_ne_none]
    intro hnone
    have hstuffed : ∀ value : Char, value = 'a' ∨ value = 'b' → Stuffed (fieldLine name value) := by
      intro value hvalue
      simp only [searchedFields, List.mem_cons, List.not_mem_nil, or_false] at hname
      rcases hname with rfl | rfl | rfl <;> rcases hvalue with rfl | rfl <;> decide
    have ha := searchField_of_none h hname hnone (Or.inl rfl : 'a' = 'a' ∨ _) suffix
    have hb := searchField_of_none h hname hnone (Or.inr rfl : 'b' = 'a' ∨ _) suffix
    obtain ⟨-, -, hstatus, htype, hfolder⟩ :=
      hsame _ _ (hstuffed 'a' (Or.inl rfl)) (hstuffed 'b' (Or.inr rfl))
    simp only [searchedFields, List.mem_cons, List.not_mem_nil, or_false] at hname
    rcases hname with rfl | rfl | rfl
    · simp only [parse, ha, hb] at hstatus
      exact absurd hstatus (by decide)
    · simp only [parse, ha, hb] at htype
      exact absurd htype (by decide)
    simp only [parse, ha, hb] at hfolder
    exact absurd hfolder (by decide)
  · intro hfields text text' _ _
    rw [List.append_assoc, List.append_assoc]
    exact sameHeader_of_isSome h hfields _ _

theorem parse_header_complete :
    SameHeader
      (parse ("STATUS:READ\nTYPE:SMS_GSM\nFOLDER:inbox\nBEGIN:BENV\nBEGIN:MSG\n".toList
        ++ "STATUS:UNREAD\n".toList ++ "END:MSG\n".toList))
      (parse ("STATUS:READ\nTYPE:SMS_GSM\nFOLDER:inbox\nBEGIN:BENV\nBEGIN:MSG\n".toList
        ++ "hi\n".toList ++ "END:MSG\n".toList)) :=
  (parse_header_iff
    ⟨by decide, "STATUS:READ\nTYPE:SMS_GSM\nFOLDER:inbox\nBEGIN:BENV\n".toList,
      "BEGIN:MSG".toList, by decide, Or.inr (by decide), by decide, by decide⟩ _).mpr
    (by decide) _ _ (by decide) (by decide)

/-- Under a header without a status, the text decides whether the message counts as read. -/
theorem parse_status_from_text :
    HeaderShape "BEGIN:BMSG\nTYPE:SMS_GSM\nBEGIN:BENV\nBEGIN:MSG\n".toList
      ∧ Stuffed "STATUS:READ\n".toList ∧ Stuffed "hi\n".toList
      ∧ ¬ SameHeader
          (parse ("BEGIN:BMSG\nTYPE:SMS_GSM\nBEGIN:BENV\nBEGIN:MSG\n".toList
            ++ "STATUS:READ\n".toList ++ "END:MSG\n".toList))
          (parse ("BEGIN:BMSG\nTYPE:SMS_GSM\nBEGIN:BENV\nBEGIN:MSG\n".toList
            ++ "hi\n".toList ++ "END:MSG\n".toList)) := by
  refine ⟨⟨by decide, "BEGIN:BMSG\nTYPE:SMS_GSM\nBEGIN:BENV\n".toList, "BEGIN:MSG".toList,
    by decide, Or.inr (by decide), by decide, by decide⟩, by decide, by decide, ?_⟩
  rintro ⟨-, -, hstatus, -⟩
  exact absurd hstatus (by decide +kernel)

end BlueFerry.BMessage
