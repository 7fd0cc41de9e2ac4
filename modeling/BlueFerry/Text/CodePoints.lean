import BlueFerry.Text.Basic

/-! # Strings with lone surrogates

A Python string is a sequence of code points, and some codecs decode bytes to a surrogate that is no
half of a pair. Such a string has no UTF-8 form. `Points` is a string that may hold some, `ofStr` one
that holds none, and `Whole` says so.
-/

namespace BlueFerry.Text

inductive CodePoint where
  | char (c : Char)
  /-- a surrogate, by its place among them -/
  | lone (n : Fin 2048)
  deriving DecidableEq

/-- A string, as the list of its code points. -/
abbrev Points := List CodePoint

namespace CodePoint

/-- The character, if it is one. -/
def char? : CodePoint → Option Char
  | char c => some c
  | lone _ => none

/-- A surrogate is in no class of characters. -/
def is (p : Char → Bool) (point : CodePoint) : Bool := point.char?.any p

end CodePoint

namespace Points

def ofStr (s : Str) : Points := s.map .char

/-- The characters of a string, if they are all that it holds. -/
def chars? : Points → Option Str
  | [] => some []
  | point :: s =>
    match point.char?, chars? s with
    | some c, some cs => some (c :: cs)
    | _, _ => none

/-- `str.strip()` -/
def strip (s : Points) : Points := (s.dropWhile (CodePoint.is isSpace)).rdropWhile (CodePoint.is isSpace)

/-- The string can be encoded as UTF-8. -/
def Whole (s : Points) : Prop := s.all (fun point => point.char?.isSome) = true

instance (s : Points) : Decidable (Whole s) :=
  inferInstanceAs (Decidable (s.all (fun point => point.char?.isSome) = true))

theorem whole_ofStr (s : Str) : Whole (ofStr s) := by
  simp [Whole, ofStr, CodePoint.char?]

theorem ofStr_of_chars? {s : Points} {cs : Str} (h : chars? s = some cs) : s = ofStr cs := by
  induction s generalizing cs with
  | nil =>
    rw [← Option.some.inj h]
    rfl
  | cons point s ih =>
    rw [chars?] at h
    cases point with
    | lone n => nomatch h
    | char c =>
      cases hs : chars? s with
      | none =>
        rw [hs] at h
        nomatch h
      | some rest =>
        rw [hs] at h
        rw [← Option.some.inj h, ih hs]
        rfl

end Points

end BlueFerry.Text
