import BlueFerry.Text.Folding

/-! # Where a folded match comes from

`folded_with_offsets` and `original_span` of `text_fold.py`: for each folded character the index of the
character that it comes from, and from these the part of the original text that a match covers.
-/

namespace BlueFerry.Text

/-- The loop of `folded_with_offsets`, from the character at `index` on. -/
def foldParts (u : Unicode) : Nat → Points → Points × List Nat
  | _, [] => ([], [])
  | index, character :: text =>
    let folded := foldCharacter u character
    let rest := foldParts u (index + 1) text
    (folded ++ rest.1, List.replicate folded.length index ++ rest.2)

def foldedWithOffsets (u : Unicode) (text : Points) : Points × Option (List Nat) :=
  if text.all (CodePoint.is isAscii) then (text.map lowerAscii, none)
  else
    let parts := foldParts u 0 text
    (parts.1, some parts.2)

/-- How far `end` runs over what folds away. -/
def foldedAway (u : Unicode) : Points → Nat
  | [] => 0
  | point :: text => if (foldCharacter u point).isEmpty then foldedAway u text + 1 else 0

section

variable (u : Unicode) (text : Points)

/-- `none` is the `IndexError` of a match that is not in the folded text. -/
def originalSpan (origin : Option (List Nat)) (start length : Nat) : Option (Nat × Nat) :=
  match origin with
  | none => some (start, start + length)
  | some origin =>
    if length = 0 ∨ origin.length ≤ start then
      let position := origin[start]?.getD text.length
      some (position, position)
    else do
      let first ← origin[start]?
      let last ← origin[start + length - 1]?
      some (first, last + 1 + foldedAway u (text.drop (last + 1)))

/-! ## What a span is to be -/

/-- The number of folded characters before the character at `index`. -/
def offset (index : Nat) : Nat := (fold u (text.take index)).length

/-- The character at `index` gave one of the `length` folded characters from `start` on. -/
def Contributes (start length index : Nat) : Prop :=
  ∃ i, start ≤ i ∧ i < start + length ∧ offset u text index ≤ i ∧ i < offset u text (index + 1)

def FoldsAway (index : Nat) : Prop :=
  text[index]?.map (foldCharacter u) = some []

end

section Offsets

variable {u : Unicode} (hu : u.Lawful) (text : Points)
include hu

theorem offset_succ (index : Nat) : offset u text (index + 1) =
    offset u text index + (fold u text[index]?.toList).length := by
  rw [offset, List.take_add_one, fold_append hu, List.length_append, offset]

theorem offset_mono {i j : Nat} (h : i ≤ j) : offset u text i ≤ offset u text j :=
  monotone_nat_of_le_succ (fun index => by rw [offset_succ hu]; omega) h

/-- A character gives at least one folded character or folds away. -/
theorem foldsAway_or {index : Nat} (h : index < text.length) :
    FoldsAway u text index ∨ offset u text index < offset u text (index + 1) := by
  have hget := List.getElem?_eq_getElem h
  rw [offset_succ hu, FoldsAway, hget, fold_eq hu]
  cases hfolded : foldCharacter u text[index] with
  | nil => exact Or.inl (by simp [hfolded])
  | cons point rest => exact Or.inr (by simp [hfolded])

theorem lt_length {index : Nat} (h : offset u text index < offset u text (index + 1)) :
    index < text.length := by
  by_contra hout
  rw [offset_succ hu, List.getElem?_eq_none (by omega)] at h
  simp [fold] at h

theorem not_foldsAway_ascii (h : text.all (CodePoint.is isAscii) = true) (index : Nat) :
    ¬ FoldsAway u text index := by
  intro haway
  obtain ⟨point, hget, hfolded⟩ := Option.map_eq_some_iff.mp haway
  rw [foldCharacter_ascii hu (List.all_eq_true.mp h _ (List.mem_of_getElem? hget))] at hfolded
  exact List.cons_ne_nil _ _ hfolded

/-- The index of a folded character is that of the character it comes from. -/
theorem foldParts_get (n : Nat) {i : Nat} (h : i < (fold u text).length) :
    ∃ index, (foldParts u n text).2[i]? = some (n + index) ∧
      offset u text index ≤ i ∧ i < offset u text (index + 1) := by
  rw [fold_eq hu] at h
  induction text generalizing n i with
  | nil => simp at h
  | cons point text ih =>
    have hsucc (j : Nat) : offset u (point :: text) (j + 1) =
        (foldCharacter u point).length + offset u text j := by
      simp [offset, fold_eq hu]
    rw [List.flatMap_cons, List.length_append] at h
    by_cases hi : i < (foldCharacter u point).length
    · refine ⟨0, ?_, by simp [offset, fold], by rw [hsucc]; omega⟩
      simp [foldParts, List.getElem?_append_left, hi]
    obtain ⟨index, hget, hle, hlt⟩ := ih (n + 1) (i := i - (foldCharacter u point).length) (by omega)
    refine ⟨index + 1, ?_, by rw [hsucc]; omega, by rw [hsucc]; omega⟩
    rw [foldParts, List.getElem?_append_right (by simp; omega), List.length_replicate, hget]
    congr 1
    omega

theorem foldParts_fst (n : Nat) : (foldParts u n text).1 = fold u text := by
  rw [fold_eq hu]
  induction text generalizing n with
  | nil => rfl
  | cons point text ih => rw [foldParts, ih, List.flatMap_cons]

theorem foldParts_ascii (n : Nat) (h : text.all (CodePoint.is isAscii) = true) :
    (foldParts u n text).2 = List.range' n text.length := by
  induction text generalizing n with
  | nil => rfl
  | cons point text ih =>
    rw [List.all_cons, Bool.and_eq_true] at h
    rw [foldParts, foldCharacter_ascii hu h.1, ih (n + 1) h.2]
    simp [List.range'_succ]

omit hu in
/-- The run over what folds away ends at the first character that does not. -/
theorem lt_foldedAway_iff {m : Nat} : m < foldedAway u text ↔ ∀ i ≤ m, FoldsAway u text i := by
  induction text generalizing m with
  | nil => exact iff_of_false (by simp [foldedAway]) (fun h => by simpa [FoldsAway] using h 0)
  | cons point text ih =>
    rw [foldedAway]
    split
    · next hempty =>
      have hhead : FoldsAway u (point :: text) 0 := by simpa [FoldsAway] using hempty
      cases m with
      | zero => exact iff_of_true (by omega) (fun i hi => by rwa [Nat.le_zero.mp hi])
      | succ m =>
        rw [Nat.succ_lt_succ_iff, ih]
        refine ⟨fun h i hi => ?_, fun h i hi => h (i + 1) (by omega)⟩
        cases i with
        | zero => exact hhead
        | succ i => exact h i (by omega)
    · next hsome =>
      refine iff_of_false (by omega) (fun h => hsome ?_)
      simpa [FoldsAway] using h 0 (by omega)

end Offsets

/-! ## A match and its span -/

section Spans

variable {u : Unicode} (hu : u.Lawful) {text : Points} {start length first last : Nat}
  (hfirst : offset u text first ≤ start ∧ start < offset u text (first + 1))
  (hlast : offset u text last < start + length ∧ start + length ≤ offset u text (last + 1))
  (hpos : 0 < length)
include hu hfirst hlast hpos

/-- What lies between the first and the last contributor and behind them contributes or folds away after
one that does. -/
theorem span_iff (index : Nat) :
    (first ≤ index ∧ index < last + 1 + foldedAway u (text.drop (last + 1))) ↔
      ∃ k ≤ index, Contributes u text start length k ∧
        ∀ l, k < l → l ≤ index → FoldsAway u text l := by
  have hbehind (l : Nat) : FoldsAway u (text.drop (last + 1)) l ↔ FoldsAway u text (last + 1 + l) := by
    rw [FoldsAway, List.getElem?_drop, FoldsAway]
  constructor
  · rintro ⟨hle, hlt⟩
    induction index, hle using Nat.le_induction with
    | base => exact ⟨first, le_rfl, ⟨start, by omega⟩, fun l hl hle => by omega⟩
    | succ index hle ih =>
      -- a character that folds away leaves the contributor of the one before it
      by_cases haway : FoldsAway u text (index + 1)
      · obtain ⟨k, hk, hcontributes, hrest⟩ := ih (by omega)
        refine ⟨k, by omega, hcontributes, fun l hl hle => ?_⟩
        rcases Nat.le_succ_iff.mp hle with hle | rfl
        · exact hrest l hl hle
        · exact haway
      have hinside : index + 1 ≤ last := by
        by_contra hout
        obtain ⟨m, rfl⟩ := Nat.exists_eq_add_of_le (show last ≤ index by omega)
        refine haway ?_
        have hm := (lt_foldedAway_iff _).mp (show m < foldedAway u (text.drop (last + 1)) by omega)
        have := (hbehind m).mp (hm m le_rfl)
        rwa [show last + m + 1 = last + 1 + m by omega]
      have hstart := offset_mono hu text (show first + 1 ≤ index + 1 by omega)
      have hend := offset_mono hu text hinside
      have hshort := lt_length hu text (show offset u text last < _ by omega)
      have hgrows := (foldsAway_or hu text (show index + 1 < _ by omega)).resolve_left haway
      exact ⟨index + 1, le_rfl, ⟨offset u text (index + 1), by omega⟩, fun l hl hle => by omega⟩
  · rintro ⟨k, hk, ⟨i, hi, hlt, hlow, hhigh⟩, hrest⟩
    have hge : first ≤ k := by
      by_contra hless
      have := offset_mono hu text (show k + 1 ≤ first by omega)
      omega
    have hle : k ≤ last := by
      by_contra hmore
      have := offset_mono hu text (show last + 1 ≤ k by omega)
      omega
    refine ⟨by omega, ?_⟩
    by_contra hout
    have hm := (lt_foldedAway_iff (text.drop (last + 1)) (m := index - (last + 1))).mpr
      (fun l hl => (hbehind l).mpr (hrest _ (by omega) (by omega)))
    omega

/-- The span folds to a text that holds the match. -/
theorem infix_fold_span {before needle after : Points} (hfold : fold u text = before ++ needle ++ after)
    (hstart : before.length = start) (hlength : needle.length = length) (stop : Nat)
    (hstop : last < stop) : needle <:+: fold u ((text.drop first).take (stop - first)) := by
  have hle : first < stop := by
    by_contra hmore
    have := offset_mono hu text (show last + 1 ≤ first by omega)
    omega
  have hhead (n : Nat) : fold u (text.take n) <+: before ++ needle ++ after := by
    rw [← hfold]
    exact ⟨fold u (text.drop n), by rw [← fold_append hu, List.take_append_drop]⟩
  have hlong := offset_mono hu text (show last + 1 ≤ stop by omega)
  unfold offset at hfirst hlast hlong
  -- what precedes the first contributor is within what precedes the match
  obtain ⟨t, rfl⟩ : fold u (text.take first) <+: before := by
    rw [List.append_assoc] at hhead
    exact List.prefix_of_prefix_length_le (hhead first) (List.prefix_append ..) (by omega)
  obtain ⟨rest, hrest⟩ := List.prefix_of_prefix_length_le (List.prefix_append _ after) (hhead stop)
    (by rw [List.length_append]; omega)
  refine ⟨t, rest, ?_⟩
  rw [← Nat.add_sub_cancel' hle.le, List.take_add, fold_append hu, List.append_assoc,
    List.append_assoc, List.append_cancel_left_eq, ← List.append_assoc] at hrest
  exact hrest

end Spans

/-- **The short way and the long one agree, and a match is led back to what it comes from.** -/
theorem foldedWithOffsets_spans {u : Unicode} (hu : u.Lawful) (text : Points) :
    (text.all (CodePoint.is isAscii) = true →
      foldParts u 0 text = (text.map lowerAscii, List.range text.length)) ∧
    (foldedWithOffsets u text).1 = fold u text ∧
    ∀ before needle after : Points, needle ≠ [] → fold u text = before ++ needle ++ after →
      ∃ first stop, originalSpan u text (foldedWithOffsets u text).2 before.length needle.length =
          some (first, stop) ∧
        needle <:+: fold u ((text.drop first).take (stop - first)) ∧
        ∀ index, (first ≤ index ∧ index < stop) ↔
          ∃ k ≤ index, Contributes u text before.length needle.length k ∧
            ∀ l, k < l → l ≤ index → FoldsAway u text l := by
  have hpath (hascii : text.all (CodePoint.is isAscii) = true) :
      foldParts u 0 text = (text.map lowerAscii, List.range text.length) := by
    refine Prod.ext ?_ ((foldParts_ascii hu text 0 hascii).trans List.range_eq_range'.symm)
    rw [foldParts_fst hu, fold, if_pos hascii]
  refine ⟨hpath, ?_, ?_⟩
  · unfold foldedWithOffsets
    split
    · next hascii => rw [fold, if_pos hascii]
    · exact foldParts_fst hu text 0
  intro before needle after hne hfold
  have hpos := List.length_pos_iff.mpr hne
  have hlen := congrArg List.length hfold
  simp only [List.length_append] at hlen
  obtain ⟨first, hget, hfirst⟩ := foldParts_get hu text 0 (i := before.length) (by omega)
  obtain ⟨last, hget', hlast⟩ := foldParts_get hu text 0
    (i := before.length + needle.length - 1) (by omega)
  rw [Nat.zero_add] at hget hget'
  have hlast : offset u text last < before.length + needle.length ∧
    before.length + needle.length ≤ offset u text (last + 1) := by omega
  refine ⟨first, last + 1 + foldedAway u (text.drop (last + 1)), ?_,
    infix_fold_span hu hfirst hlast hpos hfold rfl rfl _ (by omega),
    span_iff hu hfirst hlast hpos⟩
  unfold foldedWithOffsets
  split
  · next hascii =>
    simp only [hpath hascii, List.getElem?_eq_some_iff, List.getElem_range, exists_prop] at hget hget'
    have hnone : foldedAway u (text.drop (last + 1)) = 0 := by
      refine Nat.eq_zero_of_not_pos (fun h => ?_)
      have haway := (lt_foldedAway_iff _).mp h 0 le_rfl
      rw [FoldsAway, List.getElem?_drop] at haway
      exact not_foldsAway_ascii hu text hascii _ haway
    rw [originalSpan, hnone, ← hget.2, ← hget'.2]
    simp only [Option.some_inj, Prod.mk.injEq, true_and]
    omega
  · obtain ⟨hin, -⟩ := List.getElem?_eq_some_iff.mp hget
    have hnot : ¬ (needle.length = 0 ∨ (foldParts u 0 text).2.length ≤ before.length) := by omega
    simp only [originalSpan, if_neg hnot, hget, hget']
    rfl

/-- A match inside what a sharp s folds to. -/
theorem originalSpan_sharp :
    let text := Points.ofStr "Straße".toList
    ∃ first stop, originalSpan markless text (foldedWithOffsets markless text).2 4 2 =
        some (first, stop) ∧
      Points.ofStr "ss".toList <:+: fold markless ((text.drop first).take (stop - first)) := by
  intro text
  have hfold : fold markless text =
      Points.ofStr "stra".toList ++ Points.ofStr "ss".toList ++ Points.ofStr "e".toList := by
    decide +kernel
  obtain ⟨first, stop, hspan, hinside, -⟩ :=
    (foldedWithOffsets_spans markless_lawful text).2.2 _ _ _ (by decide) hfold
  exact ⟨first, stop, hspan, hinside⟩

end BlueFerry.Text
