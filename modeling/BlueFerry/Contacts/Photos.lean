import Mathlib.Tactic

/-! # The canvas of a contact photo

`valid_photo` (`contact_photos.py`) reads the size that the header of a photo declares, and never
decodes one. For a JPEG it walks the marker segments up to the first frame header (`jpegDimensions`).
A decoder looks for markers instead, and passes over what is between them (`firstFrame`).

The two stay in step as long as no marker that the walk reads is a stuffed zero (`firstFrame_of_walk`).
`FF 00` is no marker to a decoder, which goes on with the next byte, while the walk takes it for the
start of a segment and jumps over the bytes behind it.
-/

namespace BlueFerry.Photos

/-- `MAX_CONTACT_PHOTO_BYTES` -/
def maxContactPhotoBytes : Nat := 256 * 1024

/-- `MAX_CONTACT_PHOTO_DIMENSION` -/
def maxContactPhotoDimension : Nat := 2048

/-- `_JPEG_MAX_SEGMENTS` -/
def jpegMaxSegments : Nat := 256

/-- `_JPEG_MAX_FILL_BYTES` -/
def jpegMaxFillBytes : Nat := 64

/-- `JPEG_MAGIC` -/
def jpegMagic : List UInt8 := [0xFF, 0xD8, 0xFF]

/-- `PNG_MAGIC` -/
def pngMagic : List UInt8 := [0x89, 0x50, 0x4E, 0x47, 0x0D, 0x0A, 0x1A, 0x0A]

inductive ImageType where
  | jpeg
  | png
  deriving DecidableEq

section

variable (data : List UInt8)

/-- `image_type` -/
def imageType : Option ImageType :=
  if jpegMagic.isPrefixOf data then some .jpeg
  else if pngMagic.isPrefixOf data then some .png
  else none

/-- `int.from_bytes(data, "big")` -/
def fromBytes : Nat := data.foldl (fun n b => 256 * n + b.toNat) 0

/-- `data[start:stop]` -/
def slice (start stop : Nat) : List UInt8 := (data.take stop).drop start

/-- `_png_dimensions` -/
def pngDimensions : Option (Nat × Nat) :=
  if data.length < 24 ∨ slice data 12 16 ≠ [0x49, 0x48, 0x44, 0x52] then none
  else some (fromBytes (slice data 16 20), fromBytes (slice data 20 24))

end

/-! ## The walk -/

/-- `_JPEG_SOF`: the markers of a frame header -/
def jpegSof (marker : UInt8) : Bool :=
  0xC0 ≤ marker && marker < 0xD0 && marker != 0xC4 && marker != 0xC8 && marker != 0xCC

/-- `_JPEG_STANDALONE`: markers without a length -/
def jpegStandalone (marker : UInt8) : Bool :=
  marker == 0x01 || (0xD0 ≤ marker && marker < 0xD8)

/-- The loop of `_jpeg_dimensions`, over the bytes from `position` on. -/
def walk (segments fill : Nat) : List UInt8 → Option (Nat × Nat)
  | first :: marker :: rest =>
    if first ≠ 0xFF then none
    else if marker = 0xFF then
      if jpegMaxFillBytes < fill + 1 then none else walk segments (fill + 1) (marker :: rest)
    else if jpegMaxSegments < segments + 1 then none
    else if jpegStandalone marker then walk (segments + 1) fill rest
    else if marker = 0xD8 ∨ marker = 0xD9 ∨ marker = 0xDA ∨ rest.length < 2 then none
    else
      let length := fromBytes (slice rest 0 2)
      if length < 2 ∨ rest.length < length then none
      else if jpegSof marker then
        if length < 7 then none
        else some (fromBytes (slice rest 5 7), fromBytes (slice rest 3 5))
      else walk (segments + 1) fill (rest.drop length)
  | _ => none
termination_by data => data.length
decreasing_by
  · simp
  · simp
  · simp only [List.length_drop, List.length_cons]
    omega

/-- `_jpeg_dimensions` -/
def jpegDimensions (data : List UInt8) : Option (Nat × Nat) := walk 0 0 (data.drop 2)

/-- `image_dimensions` -/
def imageDimensions (data : List UInt8) : Option (Nat × Nat) :=
  match imageType data with
  | some .png => pngDimensions data
  | some .jpeg => jpegDimensions data
  | none => none

/-- The dimensions that are accepted. -/
def Within (size : Nat × Nat) : Prop :=
  (0 < size.1 ∧ size.1 ≤ maxContactPhotoDimension) ∧
    (0 < size.2 ∧ size.2 ≤ maxContactPhotoDimension)

instance (size : Nat × Nat) : Decidable (Within size) :=
  inferInstanceAs (Decidable ((0 < size.1 ∧ size.1 ≤ maxContactPhotoDimension) ∧
    (0 < size.2 ∧ size.2 ≤ maxContactPhotoDimension)))

/-- `valid_photo`, of bytes -/
def validPhoto (data : List UInt8) : Option (List UInt8) :=
  if data = [] ∨ maxContactPhotoBytes < data.length then none
  else
    match imageDimensions data with
    | none => none
    | some size => if Within size then some data else none

/-! ## The scan of a decoder -/

/-- The width and the height that the frame header behind a marker declares. -/
def declaredSize (rest : List UInt8) : Option (Nat × Nat) :=
  if rest.length < 7 then none
  else some (fromBytes (slice rest 5 7), fromBytes (slice rest 3 5))

/-- The first frame header that a scan for markers finds: what is no marker is passed over, and so is
the segment of a marker that has a length. A segment that is too short for its length is the end. -/
def firstFrame : List UInt8 → Option (Nat × Nat)
  | first :: marker :: rest =>
    if first ≠ 0xFF ∨ marker = 0xFF then firstFrame (marker :: rest)
    else if marker = 0x00 then firstFrame rest
    else if jpegStandalone marker ∨ marker = 0xD8 ∨ marker = 0xD9 then firstFrame rest
    else if jpegSof marker then declaredSize rest
    else if rest.length < 2 ∨ fromBytes (slice rest 0 2) < 2 then none
    else firstFrame (rest.drop (fromBytes (slice rest 0 2)))
  | _ => none
termination_by data => data.length
decreasing_by
  · simp
  · simp
  · simp
  · simp only [List.length_drop, List.length_cons]
    omega

/-! ## Where they part -/

/-- What follows the first stuffed zero that the walk takes for a marker. -/
def afterStuffedZero : List UInt8 → Option (List UInt8)
  | first :: marker :: rest =>
    if first ≠ 0xFF then none
    else if marker = 0xFF then afterStuffedZero (marker :: rest)
    else if marker = 0x00 then some rest
    else if jpegStandalone marker then afterStuffedZero rest
    else if jpegSof marker then none
    else afterStuffedZero (rest.drop (fromBytes (slice rest 0 2)))
  | _ => none
termination_by data => data.length
decreasing_by
  · simp
  · simp
  · simp only [List.length_drop, List.length_cons]
    omega

/-- The scan of a segment that the walk takes for one, unless it is a stuffed zero. -/
theorem firstFrame_segment {marker : UInt8} {rest : List UInt8} (hmarker : marker ≠ 0xFF)
    (hzero : marker ≠ 0x00) (halone : ¬ jpegStandalone marker = true)
    (hend : ¬ (marker = 0xD8 ∨ marker = 0xD9 ∨ marker = 0xDA ∨ rest.length < 2)) :
    firstFrame (0xFF :: marker :: rest) =
      if jpegSof marker then declaredSize rest
      else if fromBytes (slice rest 0 2) < 2 then none
      else firstFrame (rest.drop (fromBytes (slice rest 0 2))) := by
  simp only [not_or] at hend
  rw [firstFrame, if_neg (by simp [hmarker]), if_neg hzero,
    if_neg (by simp [halone, hend.1, hend.2.1])]
  simp [hend.2.2.2]

/-- **The walk and the scan stay in step up to a stuffed zero.** From there on the scan is that of the
bytes behind it; without one, it finds the frame that the walk finds. -/
theorem firstFrame_of_walk {segments fill : Nat} {data : List UInt8} {size : Nat × Nat}
    (h : walk segments fill data = some size) :
    firstFrame data =
      match afterStuffedZero data with
      | some rest => firstFrame rest
      | none => some size := by
  fun_induction walk segments fill data with
  | case1 => nomatch h
  | case2 => nomatch h
  | case3 segments fill first rest hfirst hfill ih =>
    rw [firstFrame, afterStuffedZero]
    simp only [hfirst]
    exact ih h
  | case4 => nomatch h
  | case5 segments fill first marker rest hfirst hmarker hsegments halone ih =>
    have hzero : marker ≠ 0x00 := by
      intro heq
      rw [heq] at halone
      nomatch halone
    rw [firstFrame, afterStuffedZero, if_neg (by simp [hmarker]; simpa using hfirst), if_neg hzero,
      if_pos (Or.inl halone), if_neg hfirst, if_neg hmarker, if_neg hzero, if_pos halone]
    exact ih h
  | case6 => nomatch h
  | case7 => nomatch h
  | case8 => nomatch h
  | case9 segments fill first marker rest hfirst hmarker hsegments halone hend length hlength hsof
      hseven =>
      rw [not_not.mp hfirst]
      have hzero : marker ≠ 0x00 := by
        intro heq
        rw [heq] at hsof
        nomatch hsof
      rw [firstFrame_segment hmarker hzero halone hend, if_pos hsof, afterStuffedZero,
        if_neg (by simp), if_neg hmarker, if_neg hzero, if_neg halone, if_pos hsof, ← h, declaredSize,
        if_neg (by omega)]
  | case10 segments fill first marker rest hfirst hmarker hsegments halone hend length hlength hsof
      ih =>
      rw [not_not.mp hfirst, afterStuffedZero, if_neg (by simp), if_neg hmarker]
      by_cases hzero : marker = 0x00
      · -- the scan passes over the stuffed zero, and the walk goes on elsewhere
        rw [if_pos hzero, hzero, firstFrame, if_neg (by simp), if_pos rfl]
      rw [if_neg hzero, if_neg halone, if_neg hsof, firstFrame_segment hmarker hzero halone hend,
        if_neg hsof, if_neg (by omega)]
      exact ih h
  | case11 => nomatch h

theorem data_of_jpeg {data : List UInt8} (h : imageType data = some .jpeg) :
    ∃ rest, data = jpegMagic ++ rest := by
  unfold imageType at h
  by_cases hmagic : jpegMagic.isPrefixOf data = true
  · obtain ⟨rest, hrest⟩ := List.isPrefixOf_iff_prefix.mp hmagic
    exact ⟨rest, hrest.symm⟩
  rw [if_neg hmagic] at h
  split_ifs at h
  nomatch h

/-- **The first frame of an accepted photo** is within the limits unless a stuffed zero hides a larger
one: what a scan finds behind the first `FF 00` that the walk takes for a marker decides. -/
theorem first_frame_within_iff {data photo : List UInt8} (hjpeg : imageType data = some .jpeg)
    (hvalid : validPhoto data = some photo) :
    (∀ size, firstFrame data = some size → Within size) ↔
      ∀ rest, afterStuffedZero (data.drop 2) = some rest →
        ∀ size, firstFrame rest = some size → Within size := by
  obtain ⟨size, hwalk, hwithin⟩ : ∃ size, walk 0 0 (data.drop 2) = some size ∧ Within size := by
    rw [validPhoto, imageDimensions, hjpeg] at hvalid
    split_ifs at hvalid
    dsimp only at hvalid
    cases hsize : jpegDimensions data with
    | none =>
      rw [hsize] at hvalid
      nomatch hvalid
    | some size =>
      rw [hsize] at hvalid
      dsimp only at hvalid
      by_cases hwithin : Within size
      · exact ⟨size, hsize, hwithin⟩
      rw [if_neg hwithin] at hvalid
      nomatch hvalid
  have hscan : firstFrame data = firstFrame (data.drop 2) := by
    obtain ⟨rest, rfl⟩ := data_of_jpeg hjpeg
    show firstFrame (0xFF :: 0xD8 :: 0xFF :: rest) = firstFrame (0xFF :: rest)
    rw [firstFrame, if_neg (by decide), if_neg (by decide), if_pos (by decide)]
  have hstep := firstFrame_of_walk hwalk
  rw [hscan, hstep]
  cases hafter : afterStuffedZero (data.drop 2) with
  | none =>
    constructor
    · exact fun _ rest hrest => nomatch hrest
    · intro _ found hfound
      rw [← Option.some.inj hfound]
      exact hwithin
  | some rest =>
    constructor
    · intro hall rest' hrest
      rw [← Option.some.inj hrest]
      exact hall
    · exact fun hall => hall rest rfl

/-- A photo of 1 by 1 pixels. -/
def smallPhoto : List UInt8 := [0xFF, 0xD8, 0xFF, 0xC0, 0x00, 0x07, 0x08, 0x00, 0x01, 0x00, 0x01]

/-- The same photo with a frame header of 65535 by 65535 pixels behind a stuffed zero, in what the walk
takes for a segment of eleven bytes. -/
def hiddenFrame : List UInt8 :=
  [0xFF, 0xD8, 0xFF, 0x00, 0x00, 0x0B, 0xFF, 0xC0, 0x00, 0x07, 0x08, 0xFF, 0xFF, 0xFF, 0xFF,
    0xFF, 0xC0, 0x00, 0x07, 0x08, 0x00, 0x01, 0x00, 0x01]

theorem first_frame_within_iff_small :
    (∀ size, firstFrame smallPhoto = some size → Within size) ↔
      ∀ rest, afterStuffedZero (smallPhoto.drop 2) = some rest →
        ∀ size, firstFrame rest = some size → Within size :=
  first_frame_within_iff (show imageType smallPhoto = some .jpeg by decide)
    (show validPhoto smallPhoto = some smallPhoto by decide +kernel)

/-- **A stuffed zero hides a frame header**: the photo is accepted as one of 1 by 1 pixels, and a scan
finds 65535 by 65535 first. -/
theorem hidden_frame_is_accepted :
    imageType hiddenFrame = some .jpeg ∧ validPhoto hiddenFrame = some hiddenFrame ∧
      firstFrame hiddenFrame = some (65535, 65535) ∧ ¬ Within (65535, 65535) := by
  decide +kernel

end BlueFerry.Photos
