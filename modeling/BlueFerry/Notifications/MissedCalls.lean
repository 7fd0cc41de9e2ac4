import BlueFerry.Text.Basic

/-! # Missed calls that the phone has shown already

A missed call may come twice: the phone's own popup over ANCS, and a notice of the call history that
is pulled later. The popups are remembered, and a notice that can be paired with one of them is not
announced. Both passes of the pairing are one (`pass`) with another choice of the popup, and
`pass_spec` says what any choice comes to: no popup is used twice, and none is left that a notice
without a popup could take.

Before the pairing the popups that are old for the *newest* notice are forgotten. The pairing is
complete when none of them belongs to an older notice (`drop_complete`).
-/

namespace BlueFerry.MissedCalls

open BlueFerry.Text

/-! ## The program -/

/-- Times are in microseconds. -/
def minute : ℤ := 60 * 1000000

def ancsMissedCallBefore : ℤ := 2 * minute

def ancsMissedCallAfter : ℤ := 30 * minute

def ancsMissedCallZoneSlack : ℤ := 26 * 60 * minute

/-- `_MissedCallMark`: a popup that was shown, with keyed digests of its caller. -/
structure MissedCallMark (κ : Type) where
  seenAt : ℤ
  callers : List κ
  deriving DecidableEq

/-- `MissedCallNotice` -/
structure MissedCallNotice where
  occurredAt : ℤ
  matchKeys : List Str
  floatingTime : Bool

variable {κ : Type}

/-- `in_window` -/
def inWindow (notice : MissedCallNotice) (mark : MissedCallMark κ) (slack : Bool) : Bool :=
  if slack then decide (|mark.seenAt - notice.occurredAt| ≤ ancsMissedCallZoneSlack)
  else decide (notice.occurredAt - ancsMissedCallBefore ≤ mark.seenAt) &&
    decide (mark.seenAt ≤ notice.occurredAt + ancsMissedCallAfter)

/-- `mark.callers & digests` and the window of the same caller. -/
def sameCaller [DecidableEq κ] (digest : Str → κ) (notice : MissedCallNotice) (mark : MissedCallMark κ) : Bool :=
  (notice.matchKeys.map digest).any (· ∈ mark.callers) &&
    inWindow notice mark notice.floatingTime

/-- A popup is old when it was shown long before the newest notice. -/
def old (newest : ℤ) (mark : MissedCallMark κ) : Bool :=
  decide (mark.seenAt < newest - ancsMissedCallZoneSlack - ancsMissedCallAfter)

/-- The notices, each with the popup it is paired with. -/
abbrev Pairs (κ : Type) := List (MissedCallNotice × Option (MissedCallMark κ))

/-- One pass over the notices: each that has no popup takes the one that `choose` gives, and the
popup is removed. The second component holds the popups that are left. -/
def pass [DecidableEq κ]
    (choose : MissedCallNotice → List (MissedCallMark κ) → Option (MissedCallMark κ))
    (marks : List (MissedCallMark κ)) : Pairs κ → Pairs κ × List (MissedCallMark κ)
  | [] => ([], marks)
  | (notice, some mark) :: pairs =>
    let rest := pass choose marks pairs
    ((notice, some mark) :: rest.1, rest.2)
  | (notice, none) :: pairs =>
    match choose notice marks with
    | some mark =>
      let rest := pass choose (marks.erase mark) pairs
      ((notice, some mark) :: rest.1, rest.2)
    | none =>
      let rest := pass choose marks pairs
      ((notice, none) :: rest.1, rest.2)

/-- The popup of the same caller that is closest to the time of the call. -/
def closest [DecidableEq κ] (digest : Str → κ) (notice : MissedCallNotice)
    (marks : List (MissedCallMark κ)) : Option (MissedCallMark κ) :=
  (marks.filter (sameCaller digest notice)).minOn? fun mark =>
    (mark.seenAt - notice.occurredAt).natAbs

/-- The first popup in the window, whoever called. -/
def firstInWindow (notice : MissedCallNotice) (marks : List (MissedCallMark κ)) :
    Option (MissedCallMark κ) := marks.find? fun mark => inWindow notice mark false

/-- The two passes over the popups that are kept. -/
def pairUp [DecidableEq κ] (digest : Str → κ) (marks : List (MissedCallMark κ))
    (notices : List MissedCallNotice) : Pairs κ × List (MissedCallMark κ) :=
  let first := pass (closest digest) marks (notices.map fun notice => (notice, none))
  pass firstInWindow first.2 first.1

/-- `_drop_ancs_popups_already_shown`: the pairs, and the popups that stay remembered. -/
def dropAncsPopups [DecidableEq κ] (digest : Str → κ) (marks : List (MissedCallMark κ))
    (notices : List MissedCallNotice) : Pairs κ × List (MissedCallMark κ) :=
  if marks = [] then (notices.map fun notice => (notice, none), marks)
  else match (notices.map MissedCallNotice.occurredAt).max? with
    | none => ([], marks)
    | some newest => pairUp digest (marks.filter fun mark => !old newest mark) notices

/-- The notices that it returns: those that are announced. -/
def announced [DecidableEq κ] (digest : Str → κ) (marks : List (MissedCallMark κ))
    (notices : List MissedCallNotice) : List MissedCallNotice :=
  ((dropAncsPopups digest marks notices).1.filter fun pair => pair.2.isNone).map Prod.fst

/-! ## A pass -/

/-- The choice takes one of the popups that belong to the notice, if there is one. -/
structure Chooses (R : MissedCallNotice → MissedCallMark κ → Prop)
    (choose : MissedCallNotice → List (MissedCallMark κ) → Option (MissedCallMark κ)) : Prop where
  of_some : ∀ notice marks mark, choose notice marks = some mark → mark ∈ marks ∧ R notice mark
  of_none : ∀ notice marks, choose notice marks = none → ∀ mark ∈ marks, ¬ R notice mark

theorem chooses_closest [DecidableEq κ] (digest : Str → κ) :
    Chooses (fun notice mark => sameCaller digest notice mark = true) (closest digest) where
  of_some := by
    intro notice marks mark h
    rw [closest] at h
    exact List.mem_filter.mp (List.minOn?_mem h)
  of_none := by
    intro notice marks h mark hmark hsame
    have hin : mark ∈ marks.filter (sameCaller digest notice) := List.mem_filter.mpr ⟨hmark, hsame⟩
    rw [closest] at h
    have hsome := congrArg Option.isSome h
    rw [List.isSome_minOn?_of_mem hin] at hsome
    nomatch hsome

theorem chooses_firstInWindow :
    Chooses (fun notice (mark : MissedCallMark κ) => inWindow notice mark false = true)
      firstInWindow where
  of_some notice _ mark h :=
    ⟨List.mem_of_find?_eq_some h, @List.find?_some _ (inWindow notice · false) mark _ h⟩
  of_none _ _ h mark hmark := List.find?_eq_none.mp h mark hmark

variable {R : MissedCallNotice → MissedCallMark κ → Prop}

/-- What a pass comes to. -/
structure Passed (R : MissedCallNotice → MissedCallMark κ → Prop) (pairs : Pairs κ)
    (marks : List (MissedCallMark κ)) (out : Pairs κ × List (MissedCallMark κ)) : Prop where
  notices : out.1.map Prod.fst = pairs.map Prod.fst
  /-- every popup is used once or left -/
  popups : (out.1.filterMap Prod.snd ++ out.2).Perm (pairs.filterMap Prod.snd ++ marks)
  left : out.2 ⊆ marks
  paired : ∀ notice mark, (notice, some mark) ∈ out.1 →
    (notice, some mark) ∈ pairs ∨ R notice mark
  unpaired : ∀ notice, (notice, none) ∈ out.1 →
    (notice, none) ∈ pairs ∧ ∀ mark ∈ out.2, ¬ R notice mark

variable {pairs : Pairs κ} {marks : List (MissedCallMark κ)}

/-- One notice more: it keeps its popup, takes one, or finds none. -/
theorem Passed.cons {rest : List (MissedCallMark κ)} {out : Pairs κ × List (MissedCallMark κ)}
    (h : Passed R pairs rest out) (notice : MissedCallNotice) {before after : Option (MissedCallMark κ)}
    (hmarks : (after.toList ++ rest).Perm (before.toList ++ marks)) (hrest : rest ⊆ marks)
    (hsome : ∀ mark, after = some mark → before = some mark ∨ R notice mark)
    (hnone : after = none → before = none ∧ ∀ mark ∈ rest, ¬ R notice mark) :
    Passed R ((notice, before) :: pairs) marks ((notice, after) :: out.1, out.2) where
  notices := congrArg (notice :: ·) h.notices
  popups := by
    have hhead : ∀ (popup : Option (MissedCallMark κ)) (l : Pairs κ),
        ((notice, popup) :: l).filterMap Prod.snd = popup.toList ++ l.filterMap Prod.snd := by
      intro popup l
      cases popup <;> rfl
    rw [hhead, hhead, List.append_assoc, List.append_assoc]
    have hpopups := h.popups.append_left after.toList
    have hothers := hmarks.append_left (pairs.filterMap Prod.snd)
    exact hpopups.trans ((List.perm_append_comm_assoc _ _ _).trans
      (hothers.trans (List.perm_append_comm_assoc _ _ _)))
  left _ hmark := hrest (h.left hmark)
  paired n mark hin := by
    rcases List.mem_cons.mp hin with heq | hin
    · cases heq
      rcases hsome mark rfl with rfl | hR
      · exact .inl (.head _)
      · exact .inr hR
    · exact (h.paired n mark hin).imp (.tail _) id
  unpaired n hin := by
    rcases List.mem_cons.mp hin with heq | hin
    · cases heq
      obtain ⟨rfl, hleft⟩ := hnone rfl
      exact ⟨.head _, fun mark hmark => hleft mark (h.left hmark)⟩
    · exact ⟨.tail _ (h.unpaired n hin).1, (h.unpaired n hin).2⟩

/-- **A pass pairs one to one**, and leaves no popup that belongs to a notice without one. -/
theorem pass_spec [DecidableEq κ]
    {choose : MissedCallNotice → List (MissedCallMark κ) → Option (MissedCallMark κ)}
    (h : Chooses R choose) (marks : List (MissedCallMark κ)) (pairs : Pairs κ) :
    Passed R pairs marks (pass choose marks pairs) := by
  induction pairs generalizing marks with
  | nil =>
    exact ⟨rfl, .refl _, List.Subset.refl _, fun _ _ hin => absurd hin List.not_mem_nil,
      fun _ hin => absurd hin List.not_mem_nil⟩
  | cons pair pairs ih =>
    obtain ⟨notice, popup⟩ := pair
    cases popup with
    | some mark => exact (ih marks).cons notice (.refl _) (List.Subset.refl _) (fun _ => .inl) nofun
    | none =>
      rw [pass]
      cases hchoice : choose notice marks with
      | some mark =>
        obtain ⟨hmark, hR⟩ := h.of_some notice marks mark hchoice
        refine (ih (marks.erase mark)).cons notice (List.perm_cons_erase hmark).symm
          List.erase_subset ?_ nofun
        rintro _ ⟨⟩
        exact .inr hR
      | none =>
        exact (ih marks).cons notice (.refl _) (List.Subset.refl _) nofun
          fun _ => ⟨rfl, h.of_none notice marks hchoice⟩

/-- Two passes are one of a wider choice. -/
theorem Passed.trans {R' : MissedCallNotice → MissedCallMark κ → Prop}
    {first second : Pairs κ × List (MissedCallMark κ)} (h : Passed R pairs marks first) (h' : Passed R' first.1 first.2 second) :
    Passed (fun notice mark => R notice mark ∨ R' notice mark) pairs marks second where
  notices := h'.notices.trans h.notices
  popups := h'.popups.trans h.popups
  left _ hmark := h.left (h'.left hmark)
  paired notice mark hin := by
    rcases h'.paired notice mark hin with hin | hR'
    · exact (h.paired notice mark hin).imp id .inl
    · exact .inr (.inr hR')
  unpaired notice hin := by
    obtain ⟨hopen, hR'⟩ := h'.unpaired notice hin
    obtain ⟨hin, hR⟩ := h.unpaired notice hopen
    refine ⟨hin, fun mark hleft hor => ?_⟩
    rcases hor with hmatch | hmatch
    · exact hR mark (h'.left hleft) hmatch
    · exact hR' mark hleft hmatch

/-! ## The pairing -/

/-- A popup that a notice may be paired with. -/
def Compatible [DecidableEq κ] (digest : Str → κ) (notice : MissedCallNotice)
    (mark : MissedCallMark κ) : Prop :=
  sameCaller digest notice mark = true ∨ inWindow notice mark false = true

instance [DecidableEq κ] (digest : Str → κ) (notice : MissedCallNotice) (mark : MissedCallMark κ) :
    Decidable (Compatible digest notice mark) := inferInstanceAs (Decidable (_ ∨ _))

/-- Notices and popups are paired one to one, each notice with a popup of its own, and no notice is
left for which there is an unpaired popup. -/
def Complete [DecidableEq κ] (digest : Str → κ) (marks : List (MissedCallMark κ))
    (notices : List MissedCallNotice) (pairs : Pairs κ) : Prop :=
  pairs.map Prod.fst = notices ∧
    ∃ unpaired, (pairs.filterMap Prod.snd ++ unpaired).Perm marks ∧
      (∀ notice mark, (notice, some mark) ∈ pairs → Compatible digest notice mark) ∧
      ∀ notice, (notice, none) ∈ pairs → ∀ mark ∈ unpaired, ¬ Compatible digest notice mark

/-- What the passes leave, with the popups that were taken away before. -/
theorem complete_pairUp [DecidableEq κ] (digest : Str → κ) {marks lost : List (MissedCallMark κ)}
    {notices : List MissedCallNotice}
    (hlost : ∀ notice ∈ notices, ∀ mark ∈ lost, ¬ Compatible digest notice mark) :
    Complete digest (marks ++ lost) notices (pairUp digest marks notices).1 := by
  have hspec : Passed (Compatible digest) (notices.map fun notice => (notice, none)) marks
      (pairUp digest marks notices) :=
    (pass_spec (chooses_closest digest) marks _).trans (pass_spec chooses_firstInWindow _ _)
  have hnone : (notices.map fun notice => (notice, (none : Option (MissedCallMark κ)))).filterMap
      Prod.snd = [] := by
    simp [List.filterMap_map]
  refine ⟨?_, (pairUp digest marks notices).2 ++ lost, ?_, ?_, ?_⟩
  · rw [hspec.notices, List.map_map]
    exact List.map_id notices
  · have hpopups := hspec.popups
    rw [hnone, List.nil_append] at hpopups
    rw [← List.append_assoc]
    exact hpopups.append_right lost
  · intro notice mark hin
    refine (hspec.paired notice mark hin).resolve_left ?_
    simp
  intro notice hin mark hmark
  obtain ⟨hin, hleft⟩ := hspec.unpaired notice hin
  rcases List.mem_append.mp hmark with hmark | hmark
  · exact hleft mark hmark
  · exact hlost notice (by simpa using hin) mark hmark

/-- **No missed call is announced while its popup waits**, provided that no popup that a notice may be
paired with is old for another notice of the pull. -/
theorem drop_complete [DecidableEq κ] (digest : Str → κ) (marks : List (MissedCallMark κ))
    (notices : List MissedCallNotice)
    (hold : ∀ notice ∈ notices, ∀ mark ∈ marks, Compatible digest notice mark →
      ∀ newest ∈ notices, old newest.occurredAt mark = false) :
    Complete digest marks notices (dropAncsPopups digest marks notices).1 := by
  unfold dropAncsPopups
  split
  · -- nothing is remembered
    rename_i hmarks
    rw [hmarks]
    refine ⟨?_, [], ?_, ?_, ?_⟩
    · rw [List.map_map]
      exact List.map_id notices
    · simp [List.filterMap_map]
    · simp
    · simp
  cases hnewest : (notices.map MissedCallNotice.occurredAt).max? with
  | none =>
    have hnone : notices = [] := by simpa using hnewest
    rw [hnone]
    exact ⟨rfl, marks, .refl _, by simp, by simp⟩
  | some newest =>
    obtain ⟨last, hlast, rfl⟩ := List.mem_map.mp (List.max?_mem hnewest)
    have hperm := List.filter_append_perm (fun mark => !old last.occurredAt mark) marks
    -- a popup that is forgotten belongs to no notice
    have hlost : ∀ notice ∈ notices, ∀ mark ∈ marks.filter fun mark => !!old last.occurredAt mark,
        ¬ Compatible digest notice mark := by
      intro notice hnotice mark hmark hcompatible
      obtain ⟨hmark, hforgotten⟩ := List.mem_filter.mp hmark
      rw [hold notice hnotice mark hmark hcompatible last hlast] at hforgotten
      nomatch hforgotten
    obtain ⟨hnotices, unpaired, hpaired, hrest⟩ := complete_pairUp digest hlost
    exact ⟨hnotices, unpaired, hpaired.trans hperm, hrest⟩

/-- A notice of a caller, with its time in minutes. -/
def call (caller : String) (time : ℤ) : MissedCallNotice := ⟨time * minute, [caller.toList], false⟩

def popup (caller : String) (time : ℤ) : MissedCallMark Str := ⟨time * minute, [caller.toList]⟩

/-- Two calls of one pull, each with its popup. -/
theorem drop_complete_two :
    Complete id [popup "anna" 1, popup "ben" 11] [call "anna" 0, call "ben" 10]
      (dropAncsPopups id [popup "anna" 1, popup "ben" 11] [call "anna" 0, call "ben" 10]).1 :=
  drop_complete id _ _ (forall_of_all (by decide))

/-- **A popup that the newest notice makes old is lost for its own call.** Anna's call of three days
ago is announced although its popup was remembered. -/
theorem drop_not_complete :
    announced id [popup "anna" 1] [call "anna" 0, call "ben" 4320] =
        [call "anna" 0, call "ben" 4320] ∧
      ¬ Complete id [popup "anna" 1] [call "anna" 0, call "ben" 4320]
        (dropAncsPopups id [popup "anna" 1] [call "anna" 0, call "ben" 4320]).1 := by
  have hpairs : (dropAncsPopups id [popup "anna" 1] [call "anna" 0, call "ben" 4320]).1 =
      [(call "anna" 0, none), (call "ben" 4320, none)] := by rfl
  refine ⟨by rw [announced, hpairs]; rfl, ?_⟩
  rw [hpairs]
  rintro ⟨-, unpaired, hperm, -, hopen⟩
  have hin : popup "anna" 1 ∈ unpaired := hperm.symm.subset (.head _)
  exact hopen (call "anna" 0) (.head _) _ hin (by decide)

end BlueFerry.MissedCalls
