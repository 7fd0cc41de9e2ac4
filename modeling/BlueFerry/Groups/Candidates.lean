import BlueFerry.Groups.Rows

/-! # The index of messages and a linear scan

`matching` looks a notification up in the buckets of the index: the messages with its text, and
those whose text, cut at one of the caps, is the notification's without the replacement characters
at its end. A message is in none of the buckets unless a scan of all messages would take it
(`mem_matching`). It is in two of them when its own text is the notification's and is cut where the
replacement characters begin, and then it is found twice (`matching_is_scan`).

A text that was cut at a cap is found, whether the cut fell between two characters or in one
(`cut_bodies_match`).
-/

namespace BlueFerry.Groups

open BlueFerry.Text

/-! ## Texts that are cut -/

theorem cutToBytes_isPrefix (s : Str) (cap : Nat) : cutToBytes s cap <+: s := by
  induction s generalizing cap with
  | nil => exact List.nil_prefix
  | cons c s ih =>
    rw [cutToBytes]
    split
    · exact List.cons_prefix_cons.mpr ⟨rfl, ih _⟩
    · exact List.nil_prefix

/-- At most three bytes of the cap are left over. -/
theorem utf8Size_cutToBytes (s : Str) (cap : Nat) :
    utf8Size (cutToBytes s cap) ≤ cap ∧
      (cap < utf8Size s → cap ≤ utf8Size (cutToBytes s cap) + utf8CutSlack) := by
  induction s generalizing cap with
  | nil => exact ⟨Nat.zero_le _, fun h => absurd h (Nat.not_lt_zero cap)⟩
  | cons c s ih =>
    have hsize : utf8Size (c :: s) = c.utf8Size + utf8Size s := rfl
    by_cases hfits : c.utf8Size ≤ cap
    · obtain ⟨hle, hslack⟩ := ih (cap - c.utf8Size)
      rw [cutToBytes, if_pos hfits]
      have hcut : utf8Size (c :: cutToBytes s (cap - c.utf8Size)) =
          c.utf8Size + utf8Size (cutToBytes s (cap - c.utf8Size)) := rfl
      rw [hsize, hcut]
      refine ⟨by omega, fun h => ?_⟩
      have := hslack (by omega)
      omega
    have hwidth := Char.utf8Size_le_four c
    have hnil : utf8Size [] = 0 := rfl
    rw [cutToBytes, if_neg hfits, hnil]
    unfold utf8CutSlack
    exact ⟨Nat.zero_le _, fun _ => by omega⟩

/-- **A text that is cut in a character ends with a replacement character.** -/
theorem decodeReplace_take (s : Str) (cap : Nat) :
    decodeReplace ((encode s).take cap) = cutToBytes s cap ∨
      decodeReplace ((encode s).take cap) = cutToBytes s cap ++ [replacement] := by
  induction s generalizing cap with
  | nil =>
    left
    rw [show encode [] = [] from rfl, List.take_nil]
    rfl
  | cons c s ih =>
    have hencode : encode (c :: s) = encodeChar c ++ encode s := rfl
    have hlength := length_encodeChar c
    by_cases hfits : c.utf8Size ≤ cap
    · rw [cutToBytes, if_pos hfits, hencode, List.take_append, List.take_of_length_le (by omega),
        hlength, decodeReplace_encodeChar]
      rcases ih (cap - c.utf8Size) with hcut | hcut
      · exact Or.inl (congrArg (c :: ·) hcut)
      · exact Or.inr (congrArg (c :: ·) hcut)
    rw [cutToBytes, if_neg hfits, hencode, List.take_append_of_le_length (by omega)]
    rcases Nat.eq_zero_or_pos cap with rfl | hpos
    · exact Or.inl rfl
    · exact Or.inr (decodeReplace_take_encodeChar c hpos (by omega))

/-- The replacement characters at the end of a text that has none else. -/
theorem rstrip_replacement {s : Str} (h : replacement ∉ s) :
    rstrip (· == replacement) s = s ∧ rstrip (· == replacement) (s ++ [replacement]) = s := by
  have hself : rstrip (· == replacement) s = s := by
    rw [rstrip, List.rdropWhile_eq_self_iff]
    intro hne heq
    have hlast : s.getLast hne = replacement := by simpa using heq
    exact h (hlast ▸ List.getLast_mem hne)
  refine ⟨hself, ?_⟩
  rw [rstrip, List.rdropWhile_concat_pos _ _ _ (by simp)]
  exact hself

/-! ## What is found -/

/-- The text of a message, cut at one of the caps, is this one without what stands for the rest of a
character. -/
def CutTo (text body : Str) : Prop :=
  ∃ cap ∈ messageCaps, cap < utf8Size text ∧ cutToBytes text cap = rstrip (· == replacement) body

/-- What a linear scan takes for the message of a notification. -/
def Candidate.Accepts (body : Str) (instant : Int) (c : Candidate) : Prop :=
  c.within instant = true ∧ (c.body = body ∨ CutTo c.body body)

instance (text body : Str) : Decidable (CutTo text body) :=
  inferInstanceAs (Decidable (∃ cap ∈ messageCaps, _))

instance (body : Str) (instant : Int) : DecidablePred (Candidate.Accepts body instant) :=
  fun c => inferInstanceAs (Decidable (c.within instant = true ∧ (c.body = body ∨ CutTo c.body body)))

/-- The scan of all messages, in the order of the rows. -/
def linearScan (candidates : List Candidate) (body : Str) (instant : Int) : List Nat :=
  (candidates.filter (fun c => decide (c.Accepts body instant))).map Candidate.index

variable {lib : Library} {rows : List Event} {candidates : List Candidate} {body : Str}
  {instant : Int}

/-- The entries whose text is cut at this cap to the text without what stands at its end. -/
def cutBucket (candidates : List Candidate) (body : Str) (cap : Nat) : List Candidate :=
  candidates.filter (fun c =>
    cap < utf8Size c.body ∧ cutToBytes c.body cap = rstrip (· == replacement) body)

/-- A cap has a bucket only if a text that is cut there can have this size. -/
theorem cap_of_cut {text : Str} {cap : Nat} (hlong : cap < utf8Size text)
    (hcut : cutToBytes text cap = rstrip (· == replacement) body) :
    cap - utf8CutSlack ≤ utf8Size (rstrip (· == replacement) body) ∧
      utf8Size (rstrip (· == replacement) body) ≤ cap := by
  obtain ⟨hle, hslack⟩ := utf8Size_cutToBytes text cap
  rw [hcut] at hle hslack
  have := hslack hlong
  exact ⟨by omega, hle⟩

/-- The sizes at the two caps are far apart: one cap at most has a bucket. -/
theorem buckets_cases (candidates : List Candidate) (body : Str) :
    (buckets candidates body = [candidates.filter (·.body = body)] ∧ ∀ text, ¬ CutTo text body) ∨
      ∃ cap, buckets candidates body =
          [candidates.filter (·.body = body), cutBucket candidates body cap] ∧
        ∀ text, CutTo text body ↔
          cap < utf8Size text ∧ cutToBytes text cap = rstrip (· == replacement) body := by
  unfold buckets
  dsimp only
  generalize hsize : utf8Size (rstrip (· == replacement) body) = size
  have hcap : ∀ {text : Str} {cap : Nat}, cap < utf8Size text →
      cutToBytes text cap = rstrip (· == replacement) body → cap - 3 ≤ size ∧ size ≤ cap := by
    intro text cap hlong hcut
    rw [← hsize]
    exact cap_of_cut hlong hcut
  unfold messageCaps utf8CutSlack
  by_cases hsmall : 253 ≤ size ∧ size ≤ 256
  · right
    refine ⟨256, ?_, fun text => ⟨?_, fun h => ⟨256, by decide, h⟩⟩⟩
    · rw [List.filter_cons_of_pos (by simpa using hsmall),
        List.filter_cons_of_neg (by simp; omega), List.filter_nil]
      rfl
    rintro ⟨cap, hmem, hlong, hcut⟩
    have hbounds := hcap hlong hcut
    rcases List.mem_cons.mp hmem with rfl | hmem
    · exact ⟨hlong, hcut⟩
    rw [List.mem_singleton.mp hmem] at hbounds
    omega
  · by_cases hlarge : 1021 ≤ size ∧ size ≤ 1024
    · right
      refine ⟨1024, ?_, fun text => ⟨?_, fun h => ⟨1024, by decide, h⟩⟩⟩
      · rw [List.filter_cons_of_neg (by simp; omega),
          List.filter_cons_of_pos (by simpa using hlarge), List.filter_nil]
        rfl
      rintro ⟨cap, hmem, hlong, hcut⟩
      have hbounds := hcap hlong hcut
      rcases List.mem_cons.mp hmem with rfl | hmem
      · omega
      rw [List.mem_singleton.mp hmem] at hlong hcut
      exact ⟨hlong, hcut⟩
    · left
      refine ⟨?_, fun text => ?_⟩
      · rw [List.filter_cons_of_neg (by simp; omega), List.filter_cons_of_neg (by simp; omega),
          List.filter_nil]
        rfl
      rintro ⟨cap, hmem, hlong, hcut⟩
      have hbounds := hcap hlong hcut
      rcases List.mem_cons.mp hmem with rfl | hmem
      · omega
      rw [List.mem_singleton.mp hmem] at hbounds
      omega

/-- What a bucket contributes. -/
def foundIn (bucket : List Candidate) (instant : Int) : List Nat :=
  ((bucket.insertionSort Candidate.before).filter (Candidate.within instant)).map Candidate.index

theorem mem_foundIn {bucket : List Candidate} {i : Nat} :
    i ∈ foundIn bucket instant ↔ ∃ c ∈ bucket, c.within instant = true ∧ c.index = i := by
  unfold foundIn
  simp only [List.mem_map, List.mem_filter, (List.perm_insertionSort _ bucket).mem_iff, and_assoc]

/-- The entries of a bucket have their own rows. -/
theorem nodup_foundIn {bucket : List Candidate} (h : (bucket.map Candidate.index).Nodup) :
    (foundIn bucket instant).Nodup := by
  have hsorted : ((bucket.insertionSort Candidate.before).map Candidate.index).Nodup :=
    ((List.perm_insertionSort _ bucket).map _).nodup_iff.mpr h
  exact hsorted.sublist (List.filter_sublist.map _)

theorem mem_matching {i : Nat} :
    i ∈ matching candidates body instant none ↔
      ∃ c ∈ candidates, c.Accepts body instant ∧ c.index = i := by
  have hmatching : matching candidates body instant none =
      (buckets candidates body).flatMap (fun bucket => foundIn bucket instant) := rfl
  rw [hmatching]
  rcases buckets_cases candidates body with ⟨heq, hcut⟩ | ⟨cap, heq, hcut⟩
  · rw [heq, List.flatMap_singleton, mem_foundIn]
    simp only [List.mem_filter, decide_eq_true_eq, Candidate.Accepts, hcut, or_false]
    constructor
    · rintro ⟨c, ⟨hc, hbody⟩, hwithin, hi⟩
      exact ⟨c, hc, ⟨hwithin, hbody⟩, hi⟩
    · rintro ⟨c, hc, ⟨hwithin, hbody⟩, hi⟩
      exact ⟨c, ⟨hc, hbody⟩, hwithin, hi⟩
  rw [heq, List.flatMap_cons, List.flatMap_singleton, List.mem_append, mem_foundIn, mem_foundIn]
  simp only [List.mem_filter, decide_eq_true_eq, Candidate.Accepts, hcut, cutBucket]
  constructor
  · rintro (⟨c, ⟨hc, hbody⟩, hwithin, hi⟩ | ⟨c, ⟨hc, hbody⟩, hwithin, hi⟩)
    · exact ⟨c, hc, ⟨hwithin, Or.inl hbody⟩, hi⟩
    · exact ⟨c, hc, ⟨hwithin, Or.inr hbody⟩, hi⟩
  · rintro ⟨c, hc, ⟨hwithin, hbody | hbody⟩, hi⟩
    · exact Or.inl ⟨c, ⟨hc, hbody⟩, hwithin, hi⟩
    · exact Or.inr ⟨c, ⟨hc, hbody⟩, hwithin, hi⟩

/-- An entry that is in two buckets is found twice. -/
theorem nodup_matching (h : (candidates.map Candidate.index).Nodup) :
    (matching candidates body instant none).Nodup ↔
      ¬ (CutTo body body ∧ ∃ c ∈ candidates, c.within instant = true ∧ c.body = body) := by
  have hmatching : matching candidates body instant none =
      (buckets candidates body).flatMap (fun bucket => foundIn bucket instant) := rfl
  have hbucket : ∀ p : Candidate → Bool,
      (foundIn (candidates.filter p) instant).Nodup :=
    fun p => nodup_foundIn (h.sublist (List.filter_sublist.map _))
  rw [hmatching]
  rcases buckets_cases candidates body with ⟨heq, hcut⟩ | ⟨cap, heq, hcut⟩
  · rw [heq, List.flatMap_singleton]
    exact ⟨fun _ hboth => hcut body hboth.1, fun _ => hbucket _⟩
  rw [heq, List.flatMap_cons, List.flatMap_singleton, hcut]
  constructor
  · rintro hnodup ⟨hself, c, hc, hwithin, hbody⟩
    have hdisjoint := List.disjoint_of_nodup_append hnodup
    apply hdisjoint (a := c.index)
    · exact mem_foundIn.mpr ⟨c, List.mem_filter.mpr ⟨hc, by simpa using hbody⟩, hwithin, rfl⟩
    · refine mem_foundIn.mpr ⟨c, List.mem_filter.mpr ⟨hc, ?_⟩, hwithin, rfl⟩
      rw [hbody]
      simpa using hself
  intro hno
  refine (hbucket _).append (hbucket _) ?_
  intro i hexact hcutOff
  obtain ⟨c, hc, hwithin, hi⟩ := mem_foundIn.mp hexact
  obtain ⟨d, hd, -, hi'⟩ := mem_foundIn.mp hcutOff
  obtain ⟨hc, hbody⟩ := List.mem_filter.mp hc
  obtain ⟨hd, hcutD⟩ := List.mem_filter.mp hd
  -- one row has one entry
  have hsame : c = d := List.inj_on_of_nodup_map h hc hd (hi.trans hi'.symm)
  have hbody' : c.body = body := by simpa using hbody
  rw [← hsame, hbody'] at hcutD
  exact hno ⟨by simpa using hcutD, c, hc, hwithin, hbody'⟩

/-- Every row has one entry at most. -/
theorem nodup_messageCandidates (lib : Library) (rows : List Event) :
    ((messageCandidates lib rows).map Candidate.index).Nodup := by
  have hindices : (rows.zipIdx.map Prod.snd).Nodup := by
    rw [List.zipIdx_map_snd]
    exact List.nodup_range'
  refine hindices.sublist ?_
  unfold messageCandidates
  generalize rows.zipIdx = pairs
  induction pairs with
  | nil => exact List.Sublist.refl _
  | cons p pairs ih =>
    rw [List.filterMap_cons]
    split
    · exact ih.cons _
    rename_i c hc
    have hindex : c.index = p.2 := by
      split at hc
      · obtain ⟨t, -, rfl⟩ := Option.map_eq_some_iff.mp hc
        rfl
      · nomatch hc
    rw [List.map_cons, List.map_cons, hindex]
    exact ih.cons_cons _

theorem mem_linearScan {i : Nat} :
    i ∈ linearScan candidates body instant ↔
      ∃ c ∈ candidates, c.Accepts body instant ∧ c.index = i := by
  unfold linearScan
  simp only [List.mem_map, List.mem_filter, decide_eq_true_eq, and_assoc]

/-- **The index and the scan.** They find the same messages, and the index finds none twice unless
one in the window has the notification's own text, and that text is longer than a cap where nothing
but replacement characters follow. -/
theorem matching_is_scan (lib : Library) (rows : List Event) (body : Str) (instant : Int) :
    ((matching (messageCandidates lib rows) body instant none).Nodup ∧
        ∀ i, i ∈ matching (messageCandidates lib rows) body instant none ↔
          i ∈ linearScan (messageCandidates lib rows) body instant) ↔
      ¬ (CutTo body body ∧
        ∃ c ∈ messageCandidates lib rows, c.within instant = true ∧ c.body = body) := by
  rw [nodup_matching (nodup_messageCandidates lib rows)]
  refine and_iff_left (fun i => ?_)
  rw [mem_matching, mem_linearScan]

/-- A text that was cut in a character, as its message has it as well. -/
def cutText : Str := List.replicate 255 'a' ++ [replacement]

def cutRow : Event :=
  { kind := .smsReceived, body := cutText, seenAt := "2024-05-01T10:00:00+00:00".toList }

/-- One message is found twice. -/
theorem cut_text_is_found_twice :
    matching (messageCandidates (plainLibrary []) [cutRow]) cutText 1714557600000000 none = [0, 0] ∧
      linearScan (messageCandidates (plainLibrary []) [cutRow]) cutText 1714557600000000 = [0] := by
  decide +kernel

/-- **A text that was cut is found.** Whether it was cut after the last character that fits, or in
the one after it, which is then decoded as a replacement character. -/
theorem cut_bodies_match {lib : Library} {rows : List Event} {i : Nat} {sms : Event} {time : Int}
    (hrow : rows[i]? = some sms) (hkind : sms.kind = .smsReceived)
    (hseen : seenAtOf lib sms.toStored = some time) {cap : Nat} (hcap : cap ∈ messageCaps)
    (hlong : cap < utf8Size sms.body) (hplain : replacement ∉ sms.body) {instant : Int}
    (hlow : instant - correlationWindow ≤ time) (hhigh : time ≤ instant + correlationWindow) :
    i ∈ matching (messageCandidates lib rows) (cutToBytes sms.body cap) instant none ∧
      i ∈ matching (messageCandidates lib rows) (decodeReplace ((encode sms.body).take cap)) instant
        none := by
  have hmem : ⟨time, i, sms.body⟩ ∈ messageCandidates lib rows := by
    refine List.mem_filterMap.mpr ⟨(sms, i), List.mk_mem_zipIdx_iff_getElem?.mpr hrow, ?_⟩
    rw [if_pos hkind, hseen]
    rfl
  have hnone : replacement ∉ cutToBytes sms.body cap :=
    fun h => hplain ((cutToBytes_isPrefix sms.body cap).mem h)
  obtain ⟨hstrip, hstrip'⟩ := rstrip_replacement hnone
  have hwithin : Candidate.within instant ⟨time, i, sms.body⟩ = true := by
    unfold Candidate.within
    simp only [Bool.and_eq_true, decide_eq_true_eq]
    exact ⟨hlow, hhigh⟩
  have hfound : ∀ body, rstrip (· == replacement) body = cutToBytes sms.body cap →
      i ∈ matching (messageCandidates lib rows) body instant none := fun body hbody =>
    mem_matching.mpr ⟨_, hmem, ⟨hwithin, Or.inr ⟨cap, hcap, hlong, hbody.symm⟩⟩, rfl⟩
  refine ⟨hfound _ hstrip, ?_⟩
  rcases decodeReplace_take sms.body cap with hcut | hcut
  · rw [hcut]
    exact hfound _ hstrip
  rw [hcut]
  exact hfound _ hstrip'

/-- A message of characters of three bytes. -/
def euroRow : Event :=
  { kind := .smsReceived, body := List.replicate 90 '€', seenAt := "2024-05-01T10:00:00+00:00".toList }

theorem cut_bodies_match_euro :
    0 ∈ matching (messageCandidates (plainLibrary []) [euroRow]) (cutToBytes euroRow.body 256)
        1714557600000000 none ∧
      0 ∈ matching (messageCandidates (plainLibrary []) [euroRow])
        (decodeReplace ((encode euroRow.body).take 256)) 1714557600000000 none := by
  have hseen : seenAtOf (plainLibrary []) euroRow.toStored = some 1714557600000000 := by decide +kernel
  exact cut_bodies_match rfl rfl hseen (by decide) (by decide +kernel) (by decide +kernel)
    (by decide) (by decide)

end BlueFerry.Groups
