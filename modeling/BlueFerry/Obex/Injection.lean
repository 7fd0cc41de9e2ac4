import BlueFerry.Obex.BMessage

/-! # Injection safety of outgoing messages

The text of a message cannot change the structure of the bMessage it is sent in. The built
message, split into lines, opens and closes exactly the template's blocks
(`markers_of_bmessageText`), names exactly the given recipients (`between_bmessageText`), and
the parser's scan finds the stuffed body in it (`messageBody_bmessageText`).

The scan is followed line by line. A line is *neutral* when it is no `MSG` marker at all; a
stuffed line may be one, but only an indented one, and the invariant `Scan.Opened` says that
such lines neither close the template's block nor open one that the scan would prefer.
-/

namespace BlueFerry.BMessage

open BlueFerry.Text BlueFerry.Recipients BlueFerry.MapSend BlueFerry.Vcard

/-! ## Text as lines that end in a newline -/

/-- The text of raw lines, each followed by its newline. -/
def newlineText (ls : List Str) : Str := ls.flatMap (· ++ ['\n'])

@[simp] theorem newlineText_nil : newlineText [] = [] := rfl

theorem newlineText_cons (l : Str) (ls : List Str) :
    newlineText (l :: ls) = l ++ '\n' :: newlineText ls := by
  simp [newlineText]

theorem newlineText_append (ls ms : List Str) :
    newlineText (ls ++ ms) = newlineText ls ++ newlineText ms := by
  simp [newlineText]

variable {ls cards : List Str} {l : Str}

theorem rawLines_newlineText (h : ∀ l ∈ ls, '\n' ∉ l) (s : Str) :
    rawLines (newlineText ls ++ s) = ls ++ rawLines s := by
  induction ls with
  | nil => rfl
  | cons l ls ih =>
    have hl := rawLines_of_not_mem (h l (.head _))
    rw [newlineText_cons, List.append_assoc, List.cons_append, rawLines_append_newline, hl,
      ih (fun m hm => h m (.tail _ hm))]
    rfl

theorem crlfLines_eq (ls : List Str) : crlfLines ls = newlineText (ls.map (· ++ ['\r'])) := by
  simp [crlfLines, newlineText, crlf, List.flatMap_map]

/-- The raw lines of joined lines and the end of the last one. -/
def endedLines : List Str → List Str
  | [] => [['\r']]
  | [l] => [l ++ ['\r']]
  | l :: ls => l :: endedLines ls

theorem join_crlf (ls : List Str) : joinLines ls ++ crlf = newlineText (endedLines ls) := by
  induction ls with
  | nil => rfl
  | cons l ls ih =>
    cases ls with
    | nil => simp [endedLines, newlineText, crlf]
    | cons m ms =>
      rw [joinLines_cons (by simp), endedLines.eq_3 _ _ (by simp), newlineText_cons, ← ih]
      simp

/-! ## The marker of a line -/

/-- The indentation and folded text of a line without its end. -/
def markerOf (line : Str) : Str × Str :=
  let content := lstrip isBlank line
  (line.take (line.length - content.length), casefold (rstrip isBlank content))

theorem lineMarker_of_no_cr (h : '\r' ∉ l) : lineMarker l = markerOf l := by
  have hlast : l.getLast? ≠ some '\r' := fun hl => h (List.mem_of_getLast? hl)
  simp [lineMarker, markerOf, hlast]

theorem lineMarker_cr (l : Str) : lineMarker (l ++ ['\r']) = markerOf l := by
  simp [lineMarker, markerOf]

theorem no_cr_of_noBreak (h : NoBreak l) : '\r' ∉ l := by
  intro hmem
  exact absurd (h _ hmem) (by decide)

/-- A line is neutral to the scan: it is no `MSG` marker. -/
def Neutral (raw : Str) : Prop :=
  (lineMarker raw).2 ≠ "begin:msg".toList ∧ (lineMarker raw).2 ≠ "end:msg".toList

instance (raw : Str) : Decidable (Neutral raw) := inferInstanceAs (Decidable (_ ∧ _))

/-- A line is harmless inside the text: if it is a `MSG` marker, it is an indented one. -/
def Harmless (raw : Str) : Prop := Neutral raw ∨ (lineMarker raw).1 ≠ []

theorem upper_isPrefix {s t : Str} (h : s <+: t) : upper s <+: upper t := by
  obtain ⟨u, rfl⟩ := h
  exact ⟨upper u, (upper_append s u).symm⟩

/-- A line that folds to a `MSG` marker opens a marker in capitals too. -/
theorem opensMarker_of_marker {content : Str}
    (h : casefold (rstrip isBlank content) = "begin:msg".toList
      ∨ casefold (rstrip isBlank content) = "end:msg".toList) : opensMarker content = true := by
  have hpre : upper (rstrip isBlank content) <+: upper content :=
    upper_isPrefix (List.rdropWhile_prefix isBlank content)
  rw [opensMarker, Bool.or_eq_true, startsWith_iff, startsWith_iff]
  rcases h with h | h
  · have hb : casefold (rstrip isBlank content) = "begin:".toList ++ "msg".toList := h
    exact .inl ((upper_of_casefold_begin hb).trans hpre)
  have he : casefold (rstrip isBlank content) = "end:".toList ++ "msg".toList := h
  exact .inr ((upper_of_casefold_end he).trans hpre)

/-- **A line that opens no marker is harmless**, with and without a carriage return. -/
theorem markerOf_of_not_opensMarker (h : opensMarker l = false) :
    ((markerOf l).2 ≠ "begin:msg".toList ∧ (markerOf l).2 ≠ "end:msg".toList)
      ∨ (markerOf l).1 ≠ [] := by
  by_cases hind : (markerOf l).1 = []
  · left
    -- without indentation the content is the line itself
    have hlen : (lstrip isBlank l).length = l.length := by
      have hle : (lstrip isBlank l).length ≤ l.length := (List.dropWhile_suffix isBlank).length_le
      have hz := congrArg List.length hind
      simp only [markerOf, List.length_take, List.length_nil] at hz
      omega
    have heq : lstrip isBlank l = l := (List.dropWhile_suffix isBlank).eq_of_length hlen
    have hmark : (markerOf l).2 = casefold (rstrip isBlank l) := by
      simp only [markerOf, heq]
    rw [hmark]
    constructor
    · intro hm
      rw [opensMarker_of_marker (.inl hm)] at h
      exact absurd h (by decide)
    · intro hm
      rw [opensMarker_of_marker (.inr hm)] at h
      exact absurd h (by decide)
  · exact .inr hind

theorem harmless_of_not_opensMarker (hl : NoBreak l) (h : opensMarker l = false) :
    Harmless l ∧ Harmless (l ++ ['\r']) := by
  unfold Harmless Neutral
  rw [lineMarker_of_no_cr (no_cr_of_noBreak hl), lineMarker_cr]
  exact ⟨markerOf_of_not_opensMarker h, markerOf_of_not_opensMarker h⟩

/-- A line that opens no marker and is not indented is neutral. -/
theorem neutral_of_not_opensMarker (hhead : ∀ c, l.head? = some c → isBlank c = false)
    (h : opensMarker l = false) : Neutral (l ++ ['\r']) := by
  have hstrip : lstrip isBlank l = l := by
    cases l with
    | nil => rfl
    | cons c l => rw [lstrip, List.dropWhile_cons_of_neg (by simp [hhead c rfl])]
  have hind : (markerOf l).1 = [] := by simp [markerOf, hstrip]
  unfold Neutral
  rw [lineMarker_cr]
  rcases markerOf_of_not_opensMarker h with hm | hm
  · exact hm
  · exact absurd hind hm

/-! ## The scan -/

theorem scanLine_neutral {raw : Str} (h : Neutral raw) (st : Scan) (start next : Nat)
    (terminated : Bool) : scanLine st start next raw terminated = st := by
  simp only [scanLine]
  rw [if_neg (fun hm => h.1 hm.1), if_neg h.2]

/-- **The template's block is open**: its marker, which starts at `a` with the body at `b`, is
the candidate of the empty indentation, and everything else the scan knows starts later. -/
structure Scan.Opened (st : Scan) (a b : Nat) : Prop where
  candidate : st.candidates.lookup [] = some (a, b)
  later : ∀ c ∈ st.candidates, c.1 ≠ [] → a < c.2.1
  found_later : ∀ m ∈ st.found, a < m.1

theorem lookup_filter_ne {β : Type} {k k' : Str} (h : k ≠ k') (l : List (Str × β)) :
    (l.filter (fun c => c.1 != k')).lookup k = l.lookup k := by
  induction l with
  | nil => rfl
  | cons c l ih =>
    obtain ⟨x, v⟩ := c
    by_cases hx : x = k'
    · subst hx
      have hkx : (k == x) = false := by simpa using h
      rw [List.filter_cons_of_neg (by simp), ih, List.lookup_cons, hkx]
    · rw [List.filter_cons_of_pos (by simpa using hx), List.lookup_cons, List.lookup_cons, ih]

/-- A harmless line keeps the block open. -/
theorem scanLine_opened {st : Scan} {a b : Nat} (hst : st.Opened a b) {raw : Str}
    (h : Harmless raw) {start next : Nat} (hstart : a < start) (terminated : Bool) :
    (scanLine st start next raw terminated).Opened a b := by
  rcases h with h | hind
  · rwa [scanLine_neutral h]
  set indent := (lineMarker raw).1 with hindent
  simp only [scanLine, ← hindent]
  split_ifs with hbegin hend
  · -- an indented `BEGIN:MSG` may only add a later candidate
    cases hlook : st.candidates.lookup indent with
    | some _ => exact hst
    | none =>
      refine ⟨?_, ?_, hst.found_later⟩
      · have hne : ([] == indent) = false := by simpa using fun h : [] = indent => hind h.symm
        rw [List.lookup_cons, hne]
        exact hst.candidate
      intro c hc hne
      rcases List.mem_cons.mp hc with rfl | hc
      · exact hstart
      · exact hst.later c hc hne
  · -- an indented `END:MSG` closes a later candidate or none
    cases hlook : st.candidates.lookup indent with
    | none => exact hst
    | some v =>
      obtain ⟨x, y⟩ := v
      refine ⟨?_, ?_, ?_⟩
      · rw [lookup_filter_ne (Ne.symm hind)]
        exact hst.candidate
      · intro c hc hne
        exact hst.later c (List.mem_filter.mp hc).1 hne
      intro m hm
      rcases List.mem_append.mp hm with hm | hm
      · exact hst.found_later m hm
      rw [List.mem_singleton] at hm
      subst hm
      exact hst.later _ (mem_of_lookup hlook) hind
  · exact hst

/-- Neutral lines leave the scan as it is, and advance it by their text. -/
theorem scanFrom_neutral (h : ∀ l ∈ ls, Neutral l) {rest : List Str}
    (hrest : rest ≠ []) (start : Nat) (st : Scan) :
    scanFrom start (ls ++ rest) st = scanFrom (start + (newlineText ls).length) rest st := by
  induction ls generalizing start with
  | nil => rfl
  | cons l ls ih =>
    have hne : ls ++ rest ≠ [] := by simp [hrest]
    rw [List.cons_append, scanFrom.eq_3 _ _ _ _ (by simpa using hne)]
    rw [scanLine_neutral (h l (.head _)), ih (fun m hm => h m (.tail _ hm)), newlineText_cons]
    congr 1
    simp only [List.length_append, List.length_cons]
    omega

/-- Harmless lines keep the block open. -/
theorem scanFrom_harmless (h : ∀ l ∈ ls, Harmless l) {rest : List Str}
    (hrest : rest ≠ []) {start a b : Nat} (hstart : a < start) {st : Scan} (hst : st.Opened a b) :
    ∃ st', st'.Opened a b
      ∧ scanFrom start (ls ++ rest) st = scanFrom (start + (newlineText ls).length) rest st' := by
  induction ls generalizing start st with
  | nil => exact ⟨st, hst, rfl⟩
  | cons l ls ih =>
    have hne : ls ++ rest ≠ [] := by simp [hrest]
    have hopen : (scanLine st start (start + l.length + 1) l true).Opened a b :=
      scanLine_opened hst (h l (.head _)) hstart true
    have hlt : a < start + l.length + 1 := by omega
    obtain ⟨st', hst', heq⟩ := ih (fun m hm => h m (.tail _ hm)) hlt hopen
    refine ⟨st', hst', ?_⟩
    rw [List.cons_append, scanFrom.eq_3 _ _ _ _ (by simpa using hne)]
    rw [heq, newlineText_cons]
    congr 1
    simp only [List.length_append, List.length_cons]
    omega

/-- The earliest block is the one that starts before all others. -/
theorem earliest_append {l : List (Nat × Nat × Nat)} {m : Nat × Nat × Nat}
    (h : ∀ k ∈ l, m.1 < k.1) : earliest (l ++ [m]) = some m := by
  induction l with
  | nil => rfl
  | cons k l ih =>
    rw [List.cons_append, earliest, ih (fun j hj => h j (.tail _ hj))]
    simp [h k List.mem_cons_self]

/-- **The scan finds the block between the template's markers**, whatever harmless lines
stand in it. -/
theorem messageBody_of_block {before inside after : List Str} {opening closing : Str}
    (hbefore : ∀ l ∈ before, Neutral l)
    (hopening : lineMarker opening = ([], "begin:msg".toList))
    (hinside : ∀ l ∈ inside, Harmless l)
    (hclosing : lineMarker closing = ([], "end:msg".toList))
    (hafter : ∀ l ∈ after, Neutral l)
    (hnl : ∀ l ∈ before ++ opening :: (inside ++ closing :: after), '\n' ∉ l) :
    messageBody (newlineText (before ++ opening :: (inside ++ closing :: after)))
      = some (newlineText inside) := by
  set a := (newlineText before).length with ha
  set b := a + opening.length + 1 with hb
  have hraw : rawLines (newlineText (before ++ opening :: (inside ++ closing :: after)))
      = before ++ (opening :: (inside ++ closing :: (after ++ [[]]))) := by
    have := rawLines_newlineText hnl []
    rw [List.append_nil] at this
    rw [this]
    simp [rawLines, splitChar]
  -- up to the opening marker nothing is noted; the marker itself becomes the candidate
  have hscan₁ : scanFrom 0 (before ++ (opening :: (inside ++ closing :: (after ++ [[]])))) {}
      = scanFrom b (inside ++ closing :: (after ++ [[]])) { candidates := [([], a, b)] } := by
    rw [scanFrom_neutral hbefore (by simp), Nat.zero_add, ← ha, scanFrom.eq_3 _ _ _ _ (by simp)]
    show scanFrom b _ (scanLine {} a b opening true) = _
    congr 1
    simp [scanLine, hopening]
  have hopened : Scan.Opened { candidates := [([], a, b)] } a b := ⟨rfl, by simp, by simp⟩
  obtain ⟨st, hst, hscan₂⟩ := scanFrom_harmless hinside
    (by simp : closing :: (after ++ [[]]) ≠ []) (by omega : a < b) hopened
  set e := b + (newlineText inside).length with he
  -- the closing marker ends the block, and nothing follows it
  have hscan₃ : scanFrom e (closing :: (after ++ [[]])) st
      = { candidates := st.candidates.filter (fun c => c.1 != [])
          found := st.found ++ [(a, b, e)] } := by
    rw [scanFrom.eq_3 _ _ _ _ (by simp)]
    have hline : scanLine st e (e + closing.length + 1) closing true
        = { candidates := st.candidates.filter (fun c => c.1 != [])
            found := st.found ++ [(a, b, e)] } := by
      simp only [scanLine, hclosing, hst.candidate]
      rw [if_neg (by decide), if_pos trivial]
    rw [hline, scanFrom_neutral hafter (by simp)]
    rfl
  rw [messageBody, hraw, hscan₁, hscan₂, hscan₃]
  rw [earliest_append (fun k hk => hst.found_later k hk)]
  show some (List.drop b (List.take e _)) = _
  -- the block's offsets cut out exactly the inner lines
  have htext : newlineText (before ++ opening :: (inside ++ closing :: after))
      = (newlineText before ++ opening ++ ['\n']) ++ (newlineText inside
        ++ newlineText (closing :: after)) := by
    simp [newlineText_append, newlineText_cons]
  have hblen : (newlineText before ++ opening ++ ['\n']).length = b := by
    simp only [hb, ha, List.length_append, List.length_cons, List.length_nil]
  rw [htext, ← List.append_assoc, List.take_left' (by rw [List.length_append, hblen, he]),
    List.drop_left' hblen]

/-! ## The built message -/

theorem opensMarker_append {pre : Str} (hpre : upper pre = pre)
    (hb : ∀ t, startsWith (pre ++ t) "BEGIN:".toList = false)
    (he : ∀ t, startsWith (pre ++ t) "END:".toList = false) (s : Str) :
    opensMarker (pre ++ s) = false := by
  rw [opensMarker, upper_append, hpre, hb, he]
  rfl

theorem opensMarker_address (address : Str) :
    opensMarker ((if '@' ∈ address then "EMAIL".toList else "TEL".toList) ++ ':' :: address)
      = false := by
  split_ifs <;> exact opensMarker_append (by decide) (fun _ => rfl) (fun _ => rfl) _

theorem opensMarker_length (n : Nat) :
    opensMarker ("LENGTH:".toList ++ Nat.toDigits 10 n) = false :=
  opensMarker_append (by decide) (fun _ => rfl) (fun _ => rfl) _

theorem noBreak_toDigits (n : Nat) : NoBreak (Nat.toDigits 10 n) := by
  intro c hc
  have hdigit := Nat.isDigit_of_mem_toDigits (by decide) (by decide) hc
  have hlt : c.toNat < 128 := by
    simp only [Char.isDigit, Bool.and_eq_true, decide_eq_true_eq, UInt32.le_iff_toNat_le] at hdigit
    have := hdigit.2
    simp only [Char.toNat]
    exact lt_of_le_of_lt this (by decide)
  exact ascii_cases (p := fun c => c.isDigit = true → isLineBreak c = false) (by decide) hlt hdigit

/-- The structural lines before `BEGIN:MSG`. -/
def linesBefore (cards : List Str) (encodedLen : Nat) : List Str :=
  headerLines ++ cards ++ (bodyHeaderLines encodedLen).dropLast

/-- The vCards of accepted recipients, as the lines of a built message. -/
structure CardLines (cards : List Str) : Prop where
  noBreak : ∀ l ∈ cards, NoBreak l
  neutral : ∀ l ∈ cards, Neutral (l ++ ['\r'])
  noBody : "BEGIN:BBODY".toList ∉ cards

theorem cardLines_vcardLines {address : Str} (h : NoBreak address) :
    CardLines (vcardLines address) := by
  set line := (if '@' ∈ address then "EMAIL".toList else "TEL".toList) ++ ':' :: address with hline
  have hlineBreak : NoBreak line := by
    rw [hline, noBreak_append, noBreak_cons]
    refine ⟨?_, by decide, h⟩
    split_ifs <;> decide
  have hlineHead : ∀ c, line.head? = some c → isBlank c = false := by
    intro c hc
    rw [hline] at hc
    split_ifs at hc <;> simp at hc <;> rw [← hc] <;> decide
  have hlineNe : line ≠ "BEGIN:BBODY".toList := by
    rw [hline]
    split_ifs <;> simp
  constructor
  · intro l hl
    simp only [vcardLines, ← hline, List.mem_cons, List.not_mem_nil, or_false] at hl
    rcases hl with rfl | rfl | rfl | rfl | rfl
    · decide
    · decide
    · decide
    · exact hlineBreak
    · decide
  · intro l hl
    simp only [vcardLines, ← hline, List.mem_cons, List.not_mem_nil, or_false] at hl
    rcases hl with rfl | rfl | rfl | rfl | rfl
    · decide
    · decide
    · decide
    · exact neutral_of_not_opensMarker hlineHead (opensMarker_address address)
    · decide
  intro hl
  simp only [vcardLines, ← hline, List.mem_cons, List.not_mem_nil, or_false] at hl
  rcases hl with hl | hl | hl | hl | hl
  · exact absurd hl (by decide)
  · exact absurd hl (by decide)
  · exact absurd hl (by decide)
  · exact hlineNe hl.symm
  · exact absurd hl (by decide)

theorem cardLines_flatMap {addresses : List Str} (h : ∀ a ∈ addresses, NoBreak a) :
    CardLines (addresses.flatMap vcardLines) := by
  constructor
  · intro l hl
    obtain ⟨a, ha, hla⟩ := List.mem_flatMap.mp hl
    exact (cardLines_vcardLines (h a ha)).noBreak l hla
  · intro l hl
    obtain ⟨a, ha, hla⟩ := List.mem_flatMap.mp hl
    exact (cardLines_vcardLines (h a ha)).neutral l hla
  · intro hl
    obtain ⟨a, ha, hla⟩ := List.mem_flatMap.mp hl
    exact (cardLines_vcardLines (h a ha)).noBody hla

theorem noBreak_linesBefore (h : CardLines cards) (n : Nat) :
    ∀ l ∈ linesBefore cards n, NoBreak l := by
  intro l hl
  simp only [linesBefore, List.mem_append] at hl
  rcases hl with (hl | hl) | hl
  · exact (by decide : ∀ m ∈ headerLines, NoBreak m) l hl
  · exact h.noBreak l hl
  simp only [bodyHeaderLines, List.dropLast, List.mem_cons, List.not_mem_nil, or_false] at hl
  rcases hl with rfl | rfl | rfl
  · decide
  · decide
  · exact noBreak_append.mpr ⟨by decide, noBreak_toDigits n⟩

theorem neutral_linesBefore (h : CardLines cards) (n : Nat) :
    ∀ l ∈ linesBefore cards n, Neutral (l ++ ['\r']) := by
  intro l hl
  simp only [linesBefore, List.mem_append] at hl
  rcases hl with (hl | hl) | hl
  · exact (by decide +kernel : ∀ m ∈ headerLines, Neutral (m ++ ['\r'])) l hl
  · exact h.neutral l hl
  simp only [bodyHeaderLines, List.dropLast, List.mem_cons, List.not_mem_nil, or_false] at hl
  rcases hl with rfl | rfl | rfl
  · decide
  · decide
  · exact neutral_of_not_opensMarker (by simp [isBlank]) (opensMarker_length n)

/-- The built text as raw lines: the structural lines, the body's lines and the footer. -/
theorem bmessageText_eq (cards : List Str) (body : Str) :
    bmessageText cards (byteStuff body)
      = newlineText ((linesBefore cards (utf8Size (byteStuff body))).map (· ++ ['\r'])
          ++ ("BEGIN:MSG".toList ++ ['\r']) :: (endedLines ((splitLines body).map stuffLine)
          ++ ("END:MSG".toList ++ ['\r']) :: footerLines.tail.map (· ++ ['\r']))) := by
  have hbody : crlfLines [byteStuff body]
      = newlineText (endedLines ((splitLines body).map stuffLine)) := by
    rw [← join_crlf]
    simp [crlfLines, byteStuff]
  have hsplit : ∀ ls ms : List Str, crlfLines (ls ++ ms) = crlfLines ls ++ crlfLines ms := by
    intro ls ms
    simp [crlfLines]
  rw [bmessageText, hsplit, hsplit, hbody, crlfLines_eq, crlfLines_eq]
  simp [linesBefore, bodyHeaderLines, footerLines, newlineText_append, newlineText_cons]

theorem mem_endedLines (h : l ∈ endedLines ls) :
    l = ['\r'] ∨ ∃ m ∈ ls, l = m ∨ l = m ++ ['\r'] := by
  induction ls with
  | nil =>
    rw [endedLines, List.mem_singleton] at h
    exact .inl h
  | cons m ms ih =>
    cases ms with
    | nil =>
      rw [endedLines, List.mem_singleton] at h
      exact .inr ⟨m, .head _, .inr h⟩
    | cons k ks =>
      rw [endedLines.eq_3 _ _ (by simp)] at h
      rcases List.mem_cons.mp h with rfl | h
      · exact .inr ⟨l, .head _, .inl rfl⟩
      rcases ih h with h | ⟨j, hj, hl⟩
      · exact .inl h
      · exact .inr ⟨j, .tail _ hj, hl⟩

/-- **The scan extracts the stuffed body**, with the line end that the template put after it. -/
theorem messageBody_bmessageText (h : CardLines cards) (body : Str) :
    messageBody (bmessageText cards (byteStuff body)) = some (byteStuff body ++ crlf) := by
  have hstuffed := noBreak_stuffed body
  rw [bmessageText_eq, messageBody_of_block]
  · rw [byteStuff, join_crlf]
  · intro l hl
    obtain ⟨m, hm, rfl⟩ := List.mem_map.mp hl
    exact neutral_linesBefore h _ m hm
  · decide
  · intro l hl
    rcases mem_endedLines hl with rfl | ⟨m, hm, hl⟩
    · exact .inl (by decide)
    obtain ⟨k, -, rfl⟩ := List.mem_map.mp hm
    have hharm := harmless_of_not_opensMarker (hstuffed _ hm) (opensMarker_stuffLine k)
    rcases hl with rfl | rfl
    · exact hharm.1
    · exact hharm.2
  · decide
  · decide
  · intro l hl
    have hcr : ∀ m : Str, NoBreak m → '\n' ∉ m ++ ['\r'] := by
      intro m hm hmem
      rcases List.mem_append.mp hmem with hmem | hmem
      · exact newline_not_mem_of_noBreak hm hmem
      · exact absurd hmem (by decide)
    rcases List.mem_append.mp hl with hl | hl
    · obtain ⟨m, hm, rfl⟩ := List.mem_map.mp hl
      exact hcr m (noBreak_linesBefore h _ m hm)
    rcases List.mem_cons.mp hl with rfl | hl
    · decide
    rcases List.mem_append.mp hl with hl | hl
    · rcases mem_endedLines hl with rfl | ⟨m, hm, rfl | rfl⟩
      · decide
      · exact newline_not_mem_of_noBreak (hstuffed _ hm)
      · exact hcr m (hstuffed m hm)
    · exact (by decide : ∀ m ∈ ("END:MSG".toList ++ ['\r'])
          :: footerLines.tail.map (· ++ ['\r']), '\n' ∉ m) l hl

theorem splitLines_crlfLines (h : ∀ l ∈ ls, NoBreak l) (s : Str) :
    splitLines (crlfLines ls ++ s) = ls ++ splitLines s := by
  induction ls with
  | nil => rfl
  | cons l ls ih =>
    have hrest := ih (fun m hm => h m (.tail _ hm))
    show splitLines ((l ++ crlf) ++ crlfLines ls ++ s) = _
    rw [List.append_assoc, splitLines_append_crlf (h l (.head _)), hrest]
    rfl

/-- The lines of the body in the built message; an empty body leaves one empty line. -/
def bodyLines (body : Str) : List Str :=
  if splitLines body = [] then [[]] else (splitLines body).map stuffLine

/-- The lines of the built message. -/
theorem splitLines_bmessageText (h : CardLines cards) (body : Str) :
    splitLines (bmessageText cards (byteStuff body))
      = linesBefore cards (utf8Size (byteStuff body)) ++ "BEGIN:MSG".toList
          :: (bodyLines body ++ footerLines) := by
  set n := utf8Size (byteStuff body) with hn
  have htext : bmessageText cards (byteStuff body)
      = crlfLines (linesBefore cards n ++ ["BEGIN:MSG".toList])
        ++ (joinLines ((splitLines body).map stuffLine) ++ crlf ++ crlfLines footerLines) := by
    rw [hn]
    simp [bmessageText, crlfLines, linesBefore, bodyHeaderLines, byteStuff]
  have hbefore : ∀ l ∈ linesBefore cards n ++ ["BEGIN:MSG".toList], NoBreak l := by
    intro l hl
    rcases List.mem_append.mp hl with hl | hl
    · exact noBreak_linesBefore h n l hl
    rw [List.mem_singleton] at hl
    rw [hl]
    decide
  have hfooter : splitLines (crlfLines footerLines) = footerLines := by
    have hlines := splitLines_crlfLines (by decide : ∀ l ∈ footerLines, NoBreak l) []
    rwa [List.append_nil, show splitLines [] = [] from rfl, List.append_nil] at hlines
  rw [htext, splitLines_crlfLines hbefore, splitLines_join_append (noBreak_stuffed body), hfooter]
  simp [bodyLines]

/-- The `BEGIN:` and `END:` lines of the template for a number of recipients. -/
def templateMarkers (recipients : Nat) : List Str :=
  ["BEGIN:BMSG".toList, "BEGIN:VCARD".toList, "END:VCARD".toList, "BEGIN:BENV".toList]
    ++ (List.replicate recipients ["BEGIN:VCARD".toList, "END:VCARD".toList]).flatten
    ++ ["BEGIN:BBODY".toList, "BEGIN:MSG".toList]
    ++ ["END:MSG".toList, "END:BBODY".toList, "END:BENV".toList, "END:BMSG".toList]

/-- The lines strictly between the first line `a` and the next line `b`. -/
def linesBetween (a b : Str) (ls : List Str) : List Str :=
  ((ls.dropWhile (· != a)).drop 1).takeWhile (· != b)

theorem filter_vcardLines (addresses : List Str) :
    (addresses.flatMap vcardLines).filter opensMarker
      = (List.replicate addresses.length ["BEGIN:VCARD".toList, "END:VCARD".toList]).flatten := by
  induction addresses with
  | nil => rfl
  | cons a as ih =>
    have hcard : (vcardLines a).filter opensMarker
        = ["BEGIN:VCARD".toList, "END:VCARD".toList] := by
      have hb : opensMarker "BEGIN:VCARD".toList = true := by decide
      have hv : opensMarker "VERSION:2.1".toList = false := by decide
      have hn : opensMarker "N:;;;;".toList = false := by decide
      have he : opensMarker "END:VCARD".toList = true := by decide
      simp only [vcardLines, List.filter_cons, hb, hv, hn, he, opensMarker_address,
        List.filter_nil, if_true, Bool.false_eq_true, if_false]
    rw [List.flatMap_cons, List.filter_append, hcard, ih]
    rfl

/-- **Only the template opens and closes blocks.** -/
theorem markers_of_bmessageText {addresses : List Str} (h : ∀ a ∈ addresses, NoBreak a)
    (body : Str) :
    (splitLines (bmessageText (addresses.flatMap vcardLines) (byteStuff body))).filter opensMarker
      = templateMarkers addresses.length := by
  have hbody : (bodyLines body).filter opensMarker = [] := by
    rw [List.filter_eq_nil_iff]
    intro l hl
    unfold bodyLines at hl
    split_ifs at hl
    · rw [List.mem_singleton] at hl
      rw [hl]
      decide
    · obtain ⟨m, -, rfl⟩ := List.mem_map.mp hl
      simp [opensMarker_stuffLine m]
  have hheader : headerLines.filter opensMarker
      = ["BEGIN:BMSG".toList, "BEGIN:VCARD".toList, "END:VCARD".toList, "BEGIN:BENV".toList] := by
    decide +kernel
  have hlen : ∀ n, (bodyHeaderLines n).dropLast.filter opensMarker = ["BEGIN:BBODY".toList] := by
    intro n
    have hb : opensMarker "BEGIN:BBODY".toList = true := by decide
    have hc : opensMarker "CHARSET:UTF-8".toList = false := by decide
    simp only [bodyHeaderLines, List.dropLast, List.filter_cons, hb, hc, opensMarker_length,
      List.filter_nil, if_true, Bool.false_eq_true, if_false]
  have hfooter : footerLines.filter opensMarker = footerLines := by decide
  have hmsg : opensMarker "BEGIN:MSG".toList = true := by decide
  rw [splitLines_bmessageText (cardLines_flatMap h), linesBefore]
  simp only [List.filter_append, List.filter_cons, hmsg, if_true, hbody, hheader, hlen, hfooter,
    filter_vcardLines]
  simp [templateMarkers, footerLines]

/-- **The envelope names exactly the recipients.** -/
theorem between_bmessageText {addresses : List Str} (h : ∀ a ∈ addresses, NoBreak a)
    (body : Str) :
    linesBetween "BEGIN:BENV".toList "BEGIN:BBODY".toList
        (splitLines (bmessageText (addresses.flatMap vcardLines) (byteStuff body)))
      = addresses.flatMap vcardLines := by
  have hcards := cardLines_flatMap h
  have hdrop : ∀ rest : List Str,
      (headerLines ++ rest).dropWhile (· != "BEGIN:BENV".toList) = "BEGIN:BENV".toList :: rest := by
    intro rest
    have hsplit : headerLines = headerLines.dropLast ++ ["BEGIN:BENV".toList] := by decide
    rw [hsplit, List.append_assoc, List.dropWhile_append_of_pos (by decide)]
    rfl
  have htake : ∀ l ∈ addresses.flatMap vcardLines, (l != "BEGIN:BBODY".toList) = true := by
    intro l hl
    rw [bne_iff_ne]
    rintro rfl
    exact hcards.noBody hl
  rw [splitLines_bmessageText hcards, linesBefore, linesBetween, List.append_assoc,
    List.append_assoc, hdrop, List.drop_one, List.tail_cons, List.takeWhile_append_of_pos htake]
  simp [bodyHeaderLines]

theorem noBreak_of_validateRecipients {recipients normalized : List Str}
    (h : List.Forall₂ (fun r n => validateRecipient r = .ok n) recipients normalized) :
    ∀ a ∈ normalized, NoBreak a := by
  induction h with
  | nil => simp
  | cons hr _ ih =>
    intro a ha
    rcases List.mem_cons.mp ha with rfl | ha
    · exact noBreak_of_validateRecipient hr
    · exact ih a ha

/-- **Injection safety.** For every list of accepted recipients and every body within the size
limit the message is built, it opens and closes exactly the template's blocks, its envelope
names exactly the recipients, and the scan finds the stuffed body, up to the line end the
template puts after it. -/
theorem buildFromRecipients_structure {recipients normalized : List Str} {body : Str}
    (h : List.Forall₂ (fun r n => validateRecipient r = .ok n) recipients normalized)
    (hsize : utf8Size body ≤ maxOutgoingBodyBytes) :
    ∃ blob, buildFromRecipients recipients body = .ok blob
      ∧ (splitLines blob).filter opensMarker = templateMarkers recipients.length
      ∧ linesBetween "BEGIN:BENV".toList "BEGIN:BBODY".toList (splitLines blob)
          = normalized.flatMap vcardLines
      ∧ messageBody blob = some (byteStuff body ++ crlf) := by
  have hbreak := noBreak_of_validateRecipients h
  refine ⟨_, buildFromRecipients_eq h hsize, ?_, between_bmessageText hbreak body,
    messageBody_bmessageText (cardLines_flatMap hbreak) body⟩
  rw [markers_of_bmessageText hbreak, h.length_eq]

theorem buildFromRecipients_structure_two :
    ∃ blob, buildFromRecipients ["911".toList, "+1 (555) 0100".toList] "END:MSG\nhi".toList = .ok blob
      ∧ (splitLines blob).filter opensMarker = templateMarkers 2
      ∧ linesBetween "BEGIN:BENV".toList "BEGIN:BBODY".toList (splitLines blob)
          = ["911".toList, "+15550100".toList].flatMap vcardLines
      ∧ messageBody blob = some (byteStuff "END:MSG\nhi".toList ++ crlf) :=
  buildFromRecipients_structure
    (.cons (by decide +kernel) (.cons (by decide +kernel) .nil)) (by decide)

/-- The scan does not return the stuffed body alone: the line end after it is part of the block. -/
theorem messageBody_ne_byteStuff :
    validateRecipient "911".toList = .ok "911".toList
      ∧ utf8Size "hi".toList ≤ maxOutgoingBodyBytes
      ∧ ∃ blob, buildFromRecipients ["911".toList] "hi".toList = .ok blob
          ∧ messageBody blob ≠ some (byteStuff "hi".toList) := by
  have hr : validateRecipient "911".toList = .ok "911".toList := by decide +kernel
  have hsize : utf8Size "hi".toList ≤ maxOutgoingBodyBytes := by decide
  have hcards : ∀ a ∈ ["911".toList], NoBreak a := by decide
  refine ⟨hr, hsize, _, buildFromRecipients_eq (.cons hr .nil) hsize, ?_⟩
  rw [messageBody_bmessageText (cardLines_flatMap hcards)]
  simp [crlf]

end BlueFerry.BMessage
