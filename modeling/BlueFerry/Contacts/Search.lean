import BlueFerry.Contacts.Details
import BlueFerry.Groups.Contacts
import BlueFerry.Groups.Names
import BlueFerry.Text.Folding

/-! # Searching the contacts

The two searches of `ContactsResolver` (`contacts.py`). `find_by_name` (`Groups.findByName`) looks the
lower-cased query up in the casefolded names. `cards` looks the folded query, its white space
collapsed, up in the folded text of a card, and a query of digits in its numbers.

A contact is not always found by its own name, and `found_by_own_name_iff` says when: the name has to
lower-case to what it casefolds to, and the white space in it has to be single characters that fold to
a space.
-/

namespace BlueFerry.Contacts

open BlueFerry.Text
open BlueFerry.Groups (ContactRecord Library findByName words)

/-! ## The card list -/

/-- One entry of the cache: `_records` and `_details`. -/
structure Card where
  record : ContactRecord
  details : ContactDetails
  deriving DecidableEq

/-- The addresses of a record. -/
def Card.destinations (card : Card) : List Str := card.record.phones ++ card.record.emails

/-- `texts` of `_card_haystack` after the name. -/
def Card.otherTexts (card : Card) : List Points :=
  [card.details.organization, card.details.title] ++ card.record.emails.map Points.ofStr
    ++ card.details.emails.map LabeledValue.value
    ++ card.details.addresses.flatMap PostalAddress.fields

def Card.texts (card : Card) : List Points := Points.ofStr card.record.name :: card.otherTexts

/-- `numbers` of `_card_haystack` -/
def Card.numbers (card : Card) : List Points :=
  card.record.phones.map Points.ofStr ++ card.details.phones.map LabeledValue.value

section

variable (u : Unicode)

/-- `re.sub(r"\D", "", text)` -/
def digitsOf (text : Points) : Points := text.filter (CodePoint.is u.isDecimal)

def newline : CodePoint := .char '\n'

/-- `_card_haystack`: the folded text and the digits. -/
def cardHaystack (card : Card) : Points × Points :=
  (fold u (List.intercalate [newline] (card.texts.filter (· ≠ []))),
    List.intercalate [.char ' '] (card.numbers.map (digitsOf u)))

/-- `" ".join(query.split())` -/
def collapse (query : Str) : Str := join ' ' (words query)

/-- `_MIN_DIGIT_QUERY` -/
def minDigitQuery : Nat := 3

/-- `_PHONE_QUERY.fullmatch` -/
def phoneQuery (needle : Points) : Bool :=
  !needle.isEmpty &&
    needle.all (CodePoint.is (fun c => u.isDecimal c || isSpace c || "+()./-".toList.contains c))

/-- The needle is one of digits. -/
def digitQuery (needle : Points) : Bool :=
  decide (minDigitQuery ≤ (digitsOf u needle).length) && phoneQuery u needle

/-- The test of one card in `_matching_indices`. -/
def Card.matches (needle : Points) (card : Card) : Prop :=
  needle <:+: (cardHaystack u card).1 ∨
    digitQuery u needle = true ∧ digitsOf u needle <:+: (cardHaystack u card).2

end

instance (u : Unicode) (needle : Points) (card : Card) : Decidable (card.matches u needle) :=
  inferInstanceAs (Decidable (_ ∨ _))

/-- `_matching_indices` -/
def matchingIndices (u : Unicode) (cache : List Card) (query : Str) : List Nat :=
  let collapsed := collapse query
  if collapsed = [] then List.range cache.length
  else
    let needle := fold u (Points.ofStr collapsed)
    if needle = [] then []
    else (cache.zipIdx.filter (fun entry => decide (entry.1.matches u needle))).map Prod.snd

/-- The loop of `cards` over the matching indices: the count and the page so far. -/
def pageOf (start : Nat) (stop : Option Nat) (indices : List Nat) : Nat × List Nat :=
  indices.foldl (fun (total, page) index =>
    (total + 1,
      if start ≤ total ∧ stop.all (fun stop => decide (total < stop)) = true then page ++ [index]
      else page)) (0, [])

/-- `cards`, with the cards of the page by their positions in the cache. -/
def cards (u : Unicode) (cache : List Card) (offset : Int) (limit : Option Int) (query : Str) :
    Nat × List Nat :=
  let start := (max 0 offset).toNat
  pageOf start (limit.map (fun limit => start + (max 0 limit).toNat)) (matchingIndices u cache query)

/-- The page of `cards` is a slice of the matching cards, and the count is of all of them. -/
theorem pageOf_eq (start : Nat) (stop : Option Nat) (indices : List Nat) :
    pageOf start stop indices =
      (indices.length, ((indices.zipIdx.filter (fun entry => decide (start ≤ entry.2) &&
        stop.all (fun stop => decide (entry.2 < stop)))).map Prod.fst)) := by
  have key : ∀ (rest : List Nat) (total : Nat) (page : List Nat),
      rest.foldl (fun (total, page) index =>
        (total + 1,
          if start ≤ total ∧ stop.all (fun stop => decide (total < stop)) = true then page ++ [index]
          else page)) (total, page) =
      (total + rest.length, page ++ ((rest.zipIdx total).filter (fun entry =>
        decide (start ≤ entry.2) && stop.all (fun stop => decide (entry.2 < stop)))).map Prod.fst) := by
    intro rest
    induction rest with
    | nil =>
      intro total page
      simp
    | cons index rest ih =>
      intro total page
      rw [List.foldl_cons, ih, List.zipIdx_cons, List.filter_cons, List.length_cons]
      dsimp only
      by_cases hin : start ≤ total ∧ stop.all (fun stop => decide (total < stop)) = true
      · have hsel : (decide (start ≤ total) && stop.all (fun stop => decide (total < stop))) = true := by
          simp only [hin.1, hin.2, decide_true, Bool.and_true]
        rw [if_pos hin, if_pos hsel, List.map_cons, List.append_assoc, List.singleton_append]
        refine Prod.ext ?_ rfl
        omega
      have hsel : ¬ (decide (start ≤ total) && stop.all (fun stop => decide (total < stop))) = true := by
        intro h
        rw [Bool.and_eq_true, decide_eq_true_eq] at h
        exact hin h
      rw [if_neg hin, if_neg hsel]
      refine Prod.ext ?_ rfl
      omega
  have h := key indices 0 []
  rw [Nat.zero_add, List.nil_append] at h
  exact h

/-- Without a limit the page holds every matching card. -/
theorem cards_all (u : Unicode) (cache : List Card) (query : Str) :
    cards u cache 0 none query =
      ((matchingIndices u cache query).length, matchingIndices u cache query) := by
  unfold cards
  dsimp only
  rw [pageOf_eq]
  refine Prod.ext rfl ?_
  have hall : (fun entry : Nat × Nat => decide ((max 0 (0 : Int)).toNat ≤ entry.2) &&
      (Option.map (fun limit : Int => (max 0 (0 : Int)).toNat + (max 0 limit).toNat) none).all
        (fun stop => decide (entry.2 < stop))) = fun _ => true := by
    funext entry
    simp
  rw [hall, List.filter_true]
  exact List.zipIdx_map_fst 0 _

/-! ## The search by name -/

section ByName

variable {lib : Library}

theorem mem_findByName {records : List ContactRecord} {query shown destination : Str} :
    (shown, destination) ∈ findByName lib records query ↔
      lib.lower (strip query) ≠ [] ∧ ∃ r ∈ records, r.name = shown ∧ r.name ≠ [] ∧
        lib.lower (strip query) <:+: casefold r.name ∧ destination ∈ r.phones ++ r.emails := by
  unfold findByName
  dsimp only
  by_cases hq : lib.lower (strip query) = []
  · rw [if_pos hq]
    exact ⟨fun h => absurd h List.not_mem_nil, fun h => absurd hq h.1⟩
  rw [if_neg hq, (List.perm_insertionSort _ _).mem_iff, List.mem_dedup, List.mem_flatMap]
  constructor
  · rintro ⟨r, hr, hmem⟩
    obtain ⟨hr, hname⟩ := List.mem_filter.mp hr
    obtain ⟨hne, hin⟩ := of_decide_eq_true hname
    obtain ⟨a, ha, heq⟩ := List.mem_map.mp hmem
    obtain ⟨hshown, rfl⟩ := Prod.mk.inj heq
    exact ⟨hq, r, hr, hshown, hne, hin, ha⟩
  · rintro ⟨-, r, hr, rfl, hne, hin, ha⟩
    exact ⟨r, List.mem_filter.mpr ⟨hr, decide_eq_true ⟨hne, hin⟩⟩, List.mem_map.mpr ⟨_, ha, rfl⟩⟩

theorem casefold_eq_flatMap (s : Str) : casefold s = s.flatMap casefoldChar := rfl

/-- Part of a folded string is folded. -/
theorem casefold_of_infix {q s : Str} (h : q <:+: casefold s) : casefold q = q := by
  have hfixed : ∀ c ∈ q, casefoldChar c = [c] := by
    intro c hc
    obtain ⟨d, -, hd⟩ := List.mem_flatMap.mp (h.subset hc)
    exact casefoldChar_of_mem hd
  clear h
  induction q with
  | nil => rfl
  | cons c q ih =>
    rw [casefold_cons, hfixed c (.head _), List.singleton_append,
      ih (fun c' hc' => hfixed c' (.tail _ hc'))]

/-- What stripping takes off is white space. -/
theorem exists_strip (s : Str) : ∃ lead trail, s = lead ++ (strip s ++ trail) ∧
    (∀ c ∈ lead, isSpace c = true) ∧ ∀ c ∈ trail, isSpace c = true := exists_stripOf isSpace s

theorem strip_within (s : Str) : strip s <:+: s := stripOf_within isSpace s

theorem casefold_infix {s t : Str} (h : s <:+: t) : casefold s <:+: casefold t := by
  obtain ⟨p, q, rfl⟩ := h
  simp only [casefold_eq_flatMap, List.flatMap_append]
  exact List.infix_append _ _ _

/-- **A name is found by `find_by_name` iff it lower-cases to what it casefolds to.** -/
theorem found_by_name_iff (hlower : ∀ s, casefold (lib.lower s) = casefold s)
    {records : List ContactRecord} {r : ContactRecord} (hr : r ∈ records)
    (hname : strip r.name ≠ []) :
    (∀ a ∈ r.phones ++ r.emails, ∃ shown, (shown, a) ∈ findByName lib records r.name) ↔
      (r.phones ++ r.emails = [] ∨ lib.lower (strip r.name) = casefold (strip r.name)) := by
  constructor
  · intro hall
    by_cases hnil : r.phones ++ r.emails = []
    · exact .inl hnil
    right
    obtain ⟨a, ha⟩ := List.exists_mem_of_ne_nil _ hnil
    obtain ⟨shown, hmem⟩ := hall a ha
    obtain ⟨-, r', -, -, -, hin, -⟩ := mem_findByName.mp hmem
    rw [← casefold_of_infix hin, hlower]
  rintro (hnil | hsame) a ha
  · exact absurd ha (by simp [hnil])
  · refine ⟨r.name, mem_findByName.mpr ⟨?_, r, hr, rfl, ?_, ?_, ha⟩⟩
    · rw [hsame]
      intro hnil
      obtain ⟨c, s, hs⟩ := List.exists_cons_of_ne_nil hname
      rw [hs, casefold_cons, List.append_eq_nil_iff] at hnil
      exact casefoldChar_ne_nil c hnil.1
    · rintro hempty
      exact hname (by rw [hempty]; rfl)
    · rw [hsame]
      exact casefold_infix (strip_within r.name)

end ByName

/-! ## Words and the gaps between them -/

/-- Every white-space character folds to a space and is followed by one that is none. -/
def singleSpaced (u : Unicode) : Str → Bool
  | [] => true
  | [_] => true
  | c :: d :: s =>
    (!isSpace c || (!isSpace d && foldChar u c == [' '])) && singleSpaced u (d :: s)

/-- Words with white space between them, and none at either end. -/
inductive Spaced : Str → Prop
  | word {w : Str} (hne : w ≠ []) (hw : ∀ c ∈ w, isSpace c = false) : Spaced w
  | gap {w g s : Str} (hne : w ≠ []) (hw : ∀ c ∈ w, isSpace c = false) (hg : g ≠ [])
      (hspace : ∀ c ∈ g, isSpace c = true) (hs : Spaced s) : Spaced (w ++ (g ++ s))

section Gaps

theorem splitWhere_ne_nil (p : Char → Bool) (s : Str) : Groups.splitWhere p s ≠ [] := by
  cases s with
  | nil => exact List.cons_ne_nil _ _
  | cons c s =>
    rw [Groups.splitWhere]
    split
    · exact List.cons_ne_nil _ _
    · split <;> exact List.cons_ne_nil _ _

theorem splitWhere_append {p : Char → Bool} {c : Char} (hc : p c = true) (a b : Str) :
    Groups.splitWhere p (a ++ c :: b) = Groups.splitWhere p a ++ Groups.splitWhere p b := by
  induction a with
  | nil =>
    simp only [List.nil_append, Groups.splitWhere, if_pos hc, List.singleton_append]
  | cons d a ih =>
    rw [List.cons_append, Groups.splitWhere, Groups.splitWhere, ih]
    by_cases hd : p d = true
    · rw [if_pos hd, if_pos hd, List.cons_append]
    rw [if_neg hd, if_neg hd]
    cases hs : Groups.splitWhere p a with
    | nil => exact absurd hs (splitWhere_ne_nil p a)
    | cons piece rest => rfl

/-- The words on the two sides of a white-space character. -/
theorem words_append {c : Char} (hc : isSpace c = true) (a b : Str) :
    words (a ++ c :: b) = words a ++ words b := by
  rw [words, splitWhere_append hc, List.filter_append]
  rfl

variable {g w s : Str}

theorem words_space (hg : ∀ c ∈ g, isSpace c = true) : words g = [] := by
  induction g with
  | nil => rfl
  | cons c g ih =>
    have h := words_append (hg c (.head _)) [] g
    rw [List.nil_append] at h
    rw [h, ih (fun c' hc' => hg c' (.tail _ hc'))]
    rfl

theorem words_lead (hg : ∀ c ∈ g, isSpace c = true) (s : Str) : words (g ++ s) = words s := by
  induction g with
  | nil => rfl
  | cons c g ih =>
    have h := words_append (hg c (.head _)) [] (g ++ s)
    rw [List.nil_append] at h
    rw [List.cons_append, h, ih (fun c' hc' => hg c' (.tail _ hc'))]
    rfl

theorem words_trail (hg : ∀ c ∈ g, isSpace c = true) (s : Str) : words (s ++ g) = words s := by
  cases g with
  | nil => rw [List.append_nil]
  | cons c g =>
    rw [words_append (hg c (.head _)),
      words_space (fun c' hc' => hg c' (.tail _ hc')), List.append_nil]

theorem words_word (hne : w ≠ []) (hw : ∀ c ∈ w, isSpace c = false) : words w = [w] := by
  have hsplit : Groups.splitWhere isSpace w = [w] := by
    clear hne
    induction w with
    | nil => rfl
    | cons c w ih =>
      rw [Groups.splitWhere, if_neg (by simp [hw c List.mem_cons_self]),
        ih (fun c' hc' => hw c' (.tail _ hc'))]
  rw [words, hsplit]
  simp [hne]

theorem words_gap (hne : w ≠ []) (hw : ∀ c ∈ w, isSpace c = false) (hg : g ≠ [])
    (hspace : ∀ c ∈ g, isSpace c = true) (s : Str) : words (w ++ (g ++ s)) = w :: words s := by
  cases g with
  | nil => exact absurd rfl hg
  | cons c g =>
    rw [List.cons_append, words_append (hspace c (.head _)), words_word hne hw,
      words_lead (fun c' hc' => hspace c' (.tail _ hc')), List.singleton_append]

theorem collapse_strip (s : Str) : collapse (strip s) = collapse s := by
  obtain ⟨lead, trail, hs, hlead, htrail⟩ := exists_strip s
  have hwords : words s = words (strip s) := by
    conv_lhs => rw [hs]
    rw [words_lead hlead, words_trail htrail]
  rw [collapse, collapse, hwords]

theorem Spaced.words_ne_nil (h : Spaced s) : words s ≠ [] := by
  cases h with
  | word hne hw =>
    rw [words_word hne hw]
    exact List.cons_ne_nil _ _
  | gap hne hw hg hspace hs =>
    rw [words_gap hne hw hg hspace]
    exact List.cons_ne_nil _ _

/-- A spaced text begins with a character that is no white space. -/
theorem Spaced.exists_cons (h : Spaced s) : ∃ c t, s = c :: t ∧ isSpace c = false := by
  cases h with
  | word hne hw =>
    obtain ⟨c, t, rfl⟩ := List.exists_cons_of_ne_nil hne
    exact ⟨c, t, rfl, hw c (.head _)⟩
  | gap hne hw hg hspace hs =>
    obtain ⟨c, t, rfl⟩ := List.exists_cons_of_ne_nil hne
    exact ⟨c, _, rfl, hw c (.head _)⟩

theorem collapse_word (hne : w ≠ []) (hw : ∀ c ∈ w, isSpace c = false) : collapse w = w := by
  rw [collapse, words_word hne hw]
  simp [join, List.intercalate]

/-- The first gap of a spaced text collapses to one space. -/
theorem collapse_gap (hne : w ≠ []) (hw : ∀ c ∈ w, isSpace c = false) (hg : g ≠ [])
    (hspace : ∀ c ∈ g, isSpace c = true) (hs : Spaced s) :
    collapse (w ++ (g ++ s)) = w ++ ' ' :: collapse s := by
  rw [collapse, words_gap hne hw hg hspace, join_cons hs.words_ne_nil]
  rfl

/-- A text whose two ends are no white space is spaced. -/
theorem spaced_of_ends (s : Str) (hne : s ≠ []) (hhead : ∀ c, s.head? = some c → isSpace c = false)
    (hlast : ∀ c, s.getLast? = some c → isSpace c = false) : Spaced s := by
  induction hn : s.length using Nat.strong_induction_on generalizing s with
  | _ n ih =>
    have hword : ∀ c ∈ s.takeWhile (fun c => !isSpace c), isSpace c = false := fun c hc => by
      simpa using List.mem_takeWhile_imp hc
    have hwne : s.takeWhile (fun c => !isSpace c) ≠ [] := by
      obtain ⟨c, t, rfl⟩ := List.exists_cons_of_ne_nil hne
      rw [List.takeWhile_cons_of_pos (by simp [hhead c rfl])]
      exact List.cons_ne_nil _ _
    have hsplit := List.takeWhile_append_dropWhile (p := fun c => !isSpace c) (l := s)
    cases hrest : s.dropWhile (fun c => !isSpace c) with
    | nil =>
      rw [hrest, List.append_nil] at hsplit
      rw [← hsplit]
      exact Spaced.word hwne hword
    | cons c t =>
      have hgap := List.takeWhile_append_dropWhile (p := isSpace) (l := c :: t)
      have hc : isSpace c = true := by
        have := List.head_dropWhile_not (fun c => !isSpace c) (l := s)
          (by rw [hrest]; exact List.cons_ne_nil _ _)
        simpa [hrest] using this
      have hgne : (c :: t).takeWhile isSpace ≠ [] := by
        rw [List.takeWhile_cons_of_pos hc]
        exact List.cons_ne_nil _ _
      have hspace : ∀ d ∈ (c :: t).takeWhile isSpace, isSpace d = true :=
        fun d hd => List.mem_takeWhile_imp hd
      rw [hrest, ← hgap] at hsplit
      have hlen := congrArg List.length hsplit
      have hwpos := List.length_pos_iff.mpr hwne
      rw [List.length_append, List.length_append] at hlen
      -- the last character of the text is no white space, so the gap does not end it
      have hsne : (c :: t).dropWhile isSpace ≠ [] := by
        intro hnil
        rw [hnil, List.append_nil] at hsplit
        have hend := hlast ((c :: t).takeWhile isSpace |>.getLast hgne) (by
          rw [← hsplit, List.getLast?_append, List.getLast?_eq_some_getLast hgne]
          rfl)
        rw [hspace _ (List.getLast_mem hgne)] at hend
        exact absurd hend (by decide)
      rw [← hsplit]
      refine Spaced.gap hwne hword hgne hspace (ih _ ?_ _ hsne ?_ ?_ rfl)
      · omega
      · intro d hd
        have hd' := List.head_dropWhile_not isSpace hsne
        rw [List.head?_eq_some_head hsne] at hd
        rw [← Option.some.inj hd]
        exact hd'
      intro d hd
      refine hlast d ?_
      rw [← hsplit, List.getLast?_append, List.getLast?_append, hd]
      rfl

theorem spaced_strip (hne : strip s ≠ []) : Spaced (strip s) :=
  spaced_of_ends _ hne (fun _ hc => head_stripOf hc) (fun _ hc => getLast_stripOf hc)

end Gaps

/-! ## The search of cards -/

section ByCard

variable {u : Unicode}

theorem singleSpaced_cons {c : Char} (hc : isSpace c = false) (s : Str) :
    singleSpaced u (c :: s) = singleSpaced u s := by
  cases s with
  | nil => rfl
  | cons d s => simp [singleSpaced, hc]

theorem singleSpaced_append {w : Str} (hw : ∀ c ∈ w, isSpace c = false) (s : Str) :
    singleSpaced u (w ++ s) = singleSpaced u s := by
  induction w with
  | nil => rfl
  | cons c w ih =>
    rw [List.cons_append, singleSpaced_cons (hw c (.head _)),
      ih (fun c' hc' => hw c' (.tail _ hc'))]

variable {s : Str}

/-- A gap before a word is single-spaced iff it is one character that folds to a space. -/
theorem singleSpaced_gap {g : Str} (hg : g ≠ []) (hspace : ∀ c ∈ g, isSpace c = true)
    (hs : Spaced s) :
    singleSpaced u (g ++ s) = true ↔ folded u g = [' '] ∧ g.length = 1 ∧ singleSpaced u s = true := by
  obtain ⟨d, t, rfl, hd⟩ := hs.exists_cons
  obtain ⟨c, g, rfl⟩ := List.exists_cons_of_ne_nil hg
  have hc := hspace c (.head _)
  cases g with
  | nil => simp [singleSpaced, hc, hd, folded]
  | cons c' g =>
    have hc' := hspace c' (.tail _ (.head _))
    simp [singleSpaced, hc, hc']

/-- **Collapsing a spaced text does not lengthen its folded form, and keeps it iff every gap in the
text is one character that folds to a space.** -/
theorem folded_collapse (hu : u.Lawful) (hs : Spaced s) :
    (folded u (collapse s)).length ≤ (folded u s).length ∧
      (folded u (collapse s) = folded u s ↔ singleSpaced u s = true) := by
  have hblank : foldChar u ' ' = [' '] := foldChar_ascii hu (by decide)
  induction hs with
  | @word w hne hw =>
    have hsingle := singleSpaced_append (u := u) hw []
    rw [List.append_nil] at hsingle
    rw [collapse_word hne hw, hsingle]
    exact ⟨Nat.le_refl _, fun _ => rfl, fun _ => rfl⟩
  | @gap w g s hne hw hg hspace hs ih =>
    obtain ⟨hle, hiff⟩ := ih
    have hlen := length_folded_space hu hspace
    have hpos := List.length_pos_iff.mpr hg
    rw [collapse_gap hne hw hg hspace hs, singleSpaced_append hw, singleSpaced_gap hg hspace hs]
    simp only [folded_append, folded_cons, hblank, List.singleton_append]
    constructor
    · simp only [List.length_append, List.length_cons]
      omega
    rw [List.append_cancel_left_eq]
    constructor
    · intro heq
      -- one space stands for the whole gap, so the gap is one character long
      have hsame := congrArg List.length heq
      simp only [List.length_append, List.length_cons] at hsame
      have hone : (folded u g).length = 1 := by omega
      obtain ⟨d, hd⟩ := List.length_eq_one_iff.mp hone
      rw [hd, List.singleton_append] at heq
      obtain ⟨rfl, hrest⟩ := List.cons.inj heq
      exact ⟨hd, by omega, hiff.mp hrest⟩
    · rintro ⟨hd, -, hsingle⟩
      rw [hd, hiff.mpr hsingle]
      rfl

/-- Collapsing takes away and adds white space only. -/
theorem filter_folded_collapse (hu : u.Lawful) (hs : Spaced s) :
    (folded u (collapse s)).filter (fun c => !isSpace c) = (folded u s).filter (fun c => !isSpace c) := by
  have hblank : foldChar u ' ' = [' '] := foldChar_ascii hu (by decide)
  induction hs with
  | word hne hw => rw [collapse_word hne hw]
  | @gap w g s hne hw hg hspace hs ih =>
    have hnone : (folded u g).filter (fun c => !isSpace c) = [] := by
      rw [List.filter_eq_nil_iff]
      intro d hd
      simp [folded_space hu hspace d hd]
    rw [collapse_gap hne hw hg hspace hs]
    simp only [folded_append, folded_cons, hblank, List.filter_append, hnone, ih, List.nil_append]
    rfl

/-- The folded name begins or ends with white space. -/
def blankEnds (u : Unicode) (s : Str) : Bool :=
  (folded u s).head?.any isSpace || (folded u s).getLast?.any isSpace

/-- A single-spaced name has its collapsed spelling in it. -/
theorem within_of_singleSpaced (hu : u.Lawful) {name : Str} (hname : strip name ≠ [])
    (h : singleSpaced u (strip name) = true) : folded u (collapse name) <:+: folded u name := by
  have heq := (folded_collapse hu (spaced_strip hname)).2.mpr h
  obtain ⟨lead, trail, hsplit, -, -⟩ := exists_strip name
  rw [← collapse_strip, heq]
  conv_rhs => rw [hsplit]
  rw [folded_append, folded_append]
  exact ⟨folded u lead, folded u trail, by rw [List.append_assoc]⟩

/-- **A name whose folded form has no white space at its ends has its collapsed spelling in it iff
it is single-spaced.** -/
theorem infix_folded_iff (hu : u.Lawful) {name : Str} (hname : strip name ≠ [])
    (hends : blankEnds u (strip name) = false) :
    folded u (collapse name) <:+: folded u name ↔ singleSpaced u (strip name) = true := by
  have hspaced := spaced_strip hname
  obtain ⟨hle, hiff⟩ := folded_collapse hu hspaced
  obtain ⟨lead, trail, hsplit, hlead, htrail⟩ := exists_strip name
  have hfolded : folded u name = folded u lead ++ (folded u (strip name) ++ folded u trail) := by
    conv_lhs => rw [hsplit]
    rw [folded_append, folded_append]
  constructor
  · rw [← collapse_strip, ← hiff]
    rintro ⟨a, b, hab⟩
    -- what stands beside the collapsed spelling is white space
    have hcount := congrArg (fun s => (s.filter (fun c => !isSpace c)).length) (hab.trans hfolded)
    have hnone : ∀ {t : Str}, (∀ c ∈ t, isSpace c = true) → t.filter (fun c => !isSpace c) = [] := by
      intro t ht
      rw [List.filter_eq_nil_iff]
      intro c hc
      simp [ht c hc]
    simp only [List.filter_append, List.length_append, filter_folded_collapse hu hspaced,
      hnone (folded_space hu hlead), hnone (folded_space hu htrail), List.length_nil] at hcount
    have hblank : ∀ {t : Str}, (t.filter (fun c => !isSpace c)).length = 0 →
        ∀ c ∈ t, isSpace c = true := by
      intro t ht c hc
      have := List.filter_eq_nil_iff.mp (List.length_eq_zero_iff.mp ht) c hc
      simpa using this
    have ha := hblank (t := a) (by omega)
    have hb := hblank (t := b) (by omega)
    have hstripped : folded u (strip name) = strip (folded u (collapse (strip name))) := by
      have hsame : strip (folded u (collapse (strip name))) = strip (folded u (strip name)) := by
        calc strip (folded u (collapse (strip name)))
            = strip (a ++ (folded u (collapse (strip name)) ++ b)) :=
              (stripOf_surrounded ha hb).symm
          _ = strip (folded u lead ++ (folded u (strip name) ++ folded u trail)) := by
              rw [← List.append_assoc, hab, hfolded]
          _ = strip (folded u (strip name)) :=
              stripOf_surrounded (folded_space hu hlead) (folded_space hu htrail)
      rw [hsame]
      simp only [blankEnds, Bool.or_eq_false_iff] at hends
      refine (stripOf_eq_self ?_ ?_).symm
      · intro c hc
        simpa [hc] using hends.1
      · intro c hc
        simpa [hc] using hends.2
    have hwithin := strip_within (folded u (collapse (strip name)))
    have hlen := hwithin.length_le
    rw [← hstripped] at hwithin hlen
    exact (hwithin.eq_of_length (by omega)).symm
  · exact within_of_singleSpaced hu hname

theorem not_of_mem_splitWhere {p : Char → Bool} {piece : Str}
    (h : piece ∈ Groups.splitWhere p s) : ∀ c ∈ piece, p c = false := by
  intro c hc
  induction s generalizing piece with
  | nil =>
    rw [List.mem_singleton.mp h] at hc
    exact absurd hc List.not_mem_nil
  | cons d s ih =>
    rw [Groups.splitWhere] at h
    by_cases hd : p d = true
    · rw [if_pos hd] at h
      rcases List.mem_cons.mp h with rfl | h
      · exact absurd hc List.not_mem_nil
      · exact ih h hc
    rw [if_neg hd] at h
    cases hs : Groups.splitWhere p s with
    | nil => exact absurd hs (splitWhere_ne_nil p s)
    | cons first rest =>
      rw [hs] at h ih
      rcases List.mem_cons.mp h with rfl | h
      · rcases List.mem_cons.mp hc with rfl | hc
        · simpa using hd
        · exact ih (.head _) hc
      · exact ih (.tail _ h) hc

theorem mem_join {sep c : Char} {pieces : List Str} (h : c ∈ join sep pieces) :
    c = sep ∨ ∃ piece ∈ pieces, c ∈ piece := by
  induction pieces with
  | nil => exact absurd h List.not_mem_nil
  | cons piece pieces ih =>
    by_cases hnil : pieces = []
    · subst hnil
      rw [join_singleton] at h
      exact .inr ⟨piece, .head _, h⟩
    rw [join_cons hnil] at h
    rcases List.mem_append.mp h with h | h
    · exact .inr ⟨piece, .head _, h⟩
    rcases List.mem_cons.mp h with h | h
    · exact .inl h
    rcases ih h with h | ⟨piece', hpiece', hc⟩
    · exact .inl h
    · exact .inr ⟨piece', .tail _ hpiece', hc⟩

/-- The collapsed query has no line feed in it, and neither has the needle. -/
theorem newline_not_mem_needle (hu : u.Lawful) (query : Str) :
    '\n' ∉ folded u (collapse query) := by
  intro h
  obtain ⟨c, hc, hfold⟩ := List.mem_flatMap.mp h
  have hline := newline_of_mem_foldChar hu hfold
  subst hline
  rcases mem_join hc with hblank | ⟨w, hw, hmem⟩
  · exact absurd hblank (by decide)
  have hspace := not_of_mem_splitWhere (List.mem_of_mem_filter hw) _ hmem
  exact absurd hspace (by decide)

theorem Spaced.collapse_ne_nil (h : Spaced s) : collapse s ≠ [] := by
  cases h with
  | word hne hw => rwa [collapse_word hne hw]
  | gap hne hw hg hspace hs =>
    rw [collapse_gap hne hw hg hspace hs]
    simp

/-- The collapsed name is spelled in another part of the card: at the ends of a name that folds to
white space there, in another text, or as digits of a number. -/
def SpelledElsewhere (u : Unicode) (card : Card) : Prop :=
  (blankEnds u (strip card.record.name) = true ∧
      folded u (collapse card.record.name) <:+: folded u card.record.name) ∨
    (∃ text ∈ card.otherTexts, fold u (Points.ofStr (collapse card.record.name)) <:+: fold u text) ∨
    digitQuery u (fold u (Points.ofStr (collapse card.record.name))) = true ∧
      digitsOf u (fold u (Points.ofStr (collapse card.record.name))) <:+: (cardHaystack u card).2

theorem ofStr_within {t : Str} : Points.ofStr s <:+: Points.ofStr t ↔ s <:+: t := by
  constructor
  · intro h
    have hback : ∀ r : Str, (Points.ofStr r).map (fun point => point.char?.getD ' ') = r := by
      intro r
      rw [Points.ofStr, List.map_map]
      exact List.map_id r
    have hmap := h.map (fun point : CodePoint => point.char?.getD ' ')
    rwa [hback, hback] at hmap
  · exact fun h => h.map _

theorem fold_intercalate (hu : u.Lawful) (texts : List Points) :
    fold u (List.intercalate [newline] texts) = List.intercalate [newline] (texts.map (fold u)) := by
  have hline : fold u [newline] = [newline] := by
    rw [fold_eq hu, List.flatMap_singleton, newline, foldCharacter, foldChar_ascii hu (by decide)]
    rfl
  induction texts with
  | nil => rw [fold_eq hu]; rfl
  | cons text texts ih =>
    cases texts with
    | nil => simp [List.intercalate]
    | cons next rest =>
      have hjoin : ∀ (a b : Points) (l : List Points),
          List.intercalate [newline] (a :: b :: l)
            = a ++ ([newline] ++ List.intercalate [newline] (b :: l)) := by
        intro a b l
        simp [List.intercalate]
      rw [hjoin, fold_append hu, fold_append hu, hline, ih]
      simp only [List.map_cons]
      rw [hjoin]

/-- The folded haystack has the needle in one of the texts. -/
theorem infix_haystack (hu : u.Lawful) {card : Card} {needle : Points} (hne : needle ≠ [])
    (hline : newline ∉ needle) :
    needle <:+: (cardHaystack u card).1 ↔ ∃ text ∈ card.texts, needle <:+: fold u text := by
  rw [cardHaystack, fold_intercalate hu, infix_intercalate hne hline]
  constructor
  · rintro ⟨piece, hpiece, hin⟩
    obtain ⟨text, htext, rfl⟩ := List.mem_map.mp hpiece
    exact ⟨text, List.mem_of_mem_filter htext, hin⟩
  rintro ⟨text, htext, hin⟩
  refine ⟨_, List.mem_map.mpr ⟨text, List.mem_filter.mpr ⟨htext, ?_⟩, rfl⟩, hin⟩
  refine decide_eq_true ?_
  rintro rfl
  rw [fold_eq hu, List.flatMap_nil, List.infix_nil] at hin
  exact hne hin

theorem mem_matchingIndices {cache : List Card} {query : Str} (hquery : collapse query ≠ [])
    {i : Nat} {card : Card} (hcard : cache[i]? = some card) :
    i ∈ matchingIndices u cache query ↔
      fold u (Points.ofStr (collapse query)) ≠ [] ∧
        card.matches u (fold u (Points.ofStr (collapse query))) := by
  unfold matchingIndices
  dsimp only
  rw [if_neg hquery]
  by_cases hneedle : fold u (Points.ofStr (collapse query)) = []
  · rw [if_pos hneedle]
    exact ⟨fun h => absurd h List.not_mem_nil, fun h => absurd hneedle h.1⟩
  rw [if_neg hneedle, List.mem_map]
  constructor
  · rintro ⟨⟨card', i'⟩, hmem, rfl⟩
    obtain ⟨hat, hmatch⟩ := List.mem_filter.mp hmem
    rw [List.mem_zipIdx_iff_getElem?] at hat
    obtain rfl : card = card' := Option.some.inj (hcard.symm.trans hat)
    exact ⟨hneedle, of_decide_eq_true hmatch⟩
  · rintro ⟨-, hmatch⟩
    exact ⟨(card, i), List.mem_filter.mpr ⟨List.mem_zipIdx_iff_getElem?.mpr hcard,
      decide_eq_true hmatch⟩, rfl⟩

/-- **A card is listed for its own name iff the folded name has a character left, and the name is
single-spaced or its collapsed spelling stands elsewhere on the card.** -/
theorem listed_iff (hu : u.Lawful) {cache : List Card} {i : Nat} {card : Card}
    (hcard : cache[i]? = some card) (hname : strip card.record.name ≠ []) :
    i ∈ (cards u cache 0 none card.record.name).2 ↔
      folded u (collapse card.record.name) ≠ [] ∧
        (singleSpaced u (strip card.record.name) = true ∨ SpelledElsewhere u card) := by
  have hneedle : fold u (Points.ofStr (collapse card.record.name))
      = Points.ofStr (folded u (collapse card.record.name)) := fold_ofStr hu _
  have hempty : fold u (Points.ofStr (collapse card.record.name)) ≠ [] ↔
      folded u (collapse card.record.name) ≠ [] := by
    rw [hneedle, Points.ofStr, ne_eq, List.map_eq_nil_iff]
  have hline : newline ∉ fold u (Points.ofStr (collapse card.record.name)) := by
    rw [hneedle]
    intro h
    obtain ⟨c, hc, heq⟩ := List.mem_map.mp h
    rw [CodePoint.char.inj heq] at hc
    exact newline_not_mem_needle hu _ hc
  -- in the name itself: at white-space ends as it may be, elsewhere only when single-spaced
  have hself : fold u (Points.ofStr (collapse card.record.name)) <:+: fold u (Points.ofStr card.record.name) ↔
      singleSpaced u (strip card.record.name) = true ∨
        blankEnds u (strip card.record.name) = true ∧
          folded u (collapse card.record.name) <:+: folded u card.record.name := by
    rw [hneedle, fold_ofStr hu, ofStr_within]
    cases hends : blankEnds u (strip card.record.name) with
    | false =>
      rw [infix_folded_iff hu hname hends]
      simp
    | true =>
      constructor
      · exact fun h => .inr ⟨rfl, h⟩
      · rintro (hsingle | ⟨-, h⟩)
        · exact within_of_singleSpaced hu hname hsingle
        · exact h
  rw [cards_all]
  have hcollapsed : collapse card.record.name ≠ [] := by
    rw [← collapse_strip]
    exact (spaced_strip hname).collapse_ne_nil
  rw [mem_matchingIndices hcollapsed hcard, hempty]
  refine and_congr_right fun hne => ?_
  rw [Card.matches, infix_haystack hu (hempty.mpr hne) hline, Card.texts, List.exists_mem_cons_iff,
    hself, SpelledElsewhere, or_assoc, or_assoc]

end ByCard

/-! ## Found by its own name -/

/-- The contact at `i` is found by its own name on both ways: `find_by_name` returns all its
addresses, and the card list holds its card. -/
def FoundByOwnName (lib : Library) (u : Unicode) (cache : List Card) (i : Nat) (card : Card) : Prop :=
  (∀ a ∈ card.destinations,
      ∃ shown, (shown, a) ∈ findByName lib (cache.map Card.record) card.record.name) ∧
    i ∈ (cards u cache 0 none card.record.name).2

/-- **A contact is found by its own name iff the name lower-cases to what it casefolds to, folds to
some character, and is single-spaced or spelled elsewhere on the card.** -/
theorem found_by_own_name_iff {lib : Library} {u : Unicode}
    (hlower : ∀ s, casefold (lib.lower s) = casefold s) (hu : u.Lawful) {cache : List Card} {i : Nat}
    {card : Card} (hcard : cache[i]? = some card) (hname : strip card.record.name ≠ []) :
    FoundByOwnName lib u cache i card ↔
      (card.destinations = [] ∨
        lib.lower (strip card.record.name) = casefold (strip card.record.name)) ∧
      folded u (collapse card.record.name) ≠ [] ∧
      (singleSpaced u (strip card.record.name) = true ∨ SpelledElsewhere u card) := by
  have hmem : card.record ∈ cache.map Card.record :=
    List.mem_map.mpr ⟨card, List.mem_of_getElem? hcard, rfl⟩
  exact and_congr (found_by_name_iff hlower hmem hname) (listed_iff hu hcard hname)

/-- A database for texts that have no other form. -/
def plainUnicode : Unicode where
  nfkd := fun s => s
  isMark := fun c => decide (0x300 ≤ c.toNat ∧ c.toNat ≤ 0x36F)
  isDecimal := isDigit

theorem plainUnicode_lawful : plainUnicode.Lawful where
  ascii := by
    intro c hc
    refine ⟨rfl, decide_eq_false ?_⟩
    omega
  newline := fun _ h => h
  space := by
    intro c hc
    refine ⟨c, rfl, hc, decide_eq_false ?_⟩
    intro hmark
    simp only [isSpace, Bool.or_eq_true, Bool.and_eq_true, decide_eq_true_eq, beq_iff_eq] at hc
    omega

/-- Lower-casing ASCII does not change what a text casefolds to. -/
theorem casefold_map_toLower (s : Str) : casefold (s.map Char.toLower) = casefold s := by
  have hchar : ∀ c : Char, casefoldChar c.toLower = casefoldChar c := by
    intro c
    by_cases hc : c.toNat < 128
    · have hsmall : ∀ n < 128, (Char.ofNat n).toLower.toNat < 128 ∧
          (Char.ofNat n).toLower.toLower = (Char.ofNat n).toLower := by decide
      obtain ⟨hlt, hidem⟩ := ascii_cases
        (p := fun c => c.toLower.toNat < 128 ∧ c.toLower.toLower = c.toLower) hsmall hc
      rw [casefoldChar_ascii hlt, casefoldChar_ascii hc, hidem]
    have hsame : c.toLower = c := by
      refine dif_neg ?_
      rintro ⟨-, hle⟩
      exact hc (Nat.lt_of_le_of_lt (UInt32.le_iff_toNat_le.mp hle) (by decide))
    rw [hsame]
  induction s with
  | nil => rfl
  | cons c s ih => rw [List.map_cons, casefold_cons, casefold_cons, hchar, ih]

theorem found_by_own_name_plain :
    let anna : Card := ⟨⟨"Anna Muster".toList, ["+4915112345678".toList], []⟩, .empty⟩
    FoundByOwnName (Groups.plainLibrary []) plainUnicode [anna] 0 anna := by
  intro anna
  refine (found_by_own_name_iff casefold_map_toLower plainUnicode_lawful rfl (by decide)).mpr ?_
  exact ⟨.inr (by decide +kernel), by decide +kernel, .inl (by decide +kernel)⟩

/-- A name with a sharp s is not in its casefolded form, and a double space is not in a query. -/
theorem own_names_not_found :
    let strasse : Card := ⟨⟨"Straße".toList, ["+4915112345678".toList], []⟩, .empty⟩
    let anna : Card := ⟨⟨"Anna  Muster".toList, ["+4915112345678".toList], []⟩, .empty⟩
    ¬ FoundByOwnName (Groups.plainLibrary []) plainUnicode [strasse] 0 strasse ∧
      ¬ FoundByOwnName (Groups.plainLibrary []) plainUnicode [anna] 0 anna := by
  intro strasse anna
  constructor
  · rintro ⟨hall, -⟩
    obtain ⟨shown, hmem⟩ := hall "+4915112345678".toList (.head _)
    have hnone : findByName (Groups.plainLibrary []) [strasse.record] strasse.record.name = [] := by
      decide +kernel
    exact absurd hmem (by rw [List.map_singleton, hnone]; exact List.not_mem_nil)
  rintro ⟨-, hlisted⟩
  have hnone : cards plainUnicode [anna] 0 none anna.record.name = (0, []) := by
    decide +kernel
  exact absurd hlisted (by rw [hnone]; exact List.not_mem_nil)

end BlueFerry.Contacts
