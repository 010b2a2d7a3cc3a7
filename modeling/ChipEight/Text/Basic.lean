/-!
# Texts

What a host writes: characters, between which halves of surrogate pairs may stand alone. A half is
no character, so a text with one is no `String`; every other text is one.
-/

namespace ChipEight

/-- An element of a text: a character, or a code unit that is half of a surrogate pair. -/
inductive Text.Symbol where
  | char (c : Char)
  | half (unit : Nat)
  deriving DecidableEq, Repr

/-- A text as a host writes it. -/
abbrev Text : Type :=
  List Text.Symbol

namespace Text

/-- The character that a symbol is, unless it is a half. -/
def Symbol.char? : Symbol → Option Char
  | char c => some c
  | half _ => none

/-- Whether a symbol is a half. -/
def Symbol.isHalf : Symbol → Bool
  | char _ => false
  | half _ => true

/-- A string as a text. -/
def ofString (s : String) : Text :=
  s.toList.map .char

/-- The characters of a text, if it has no halves. -/
def chars? : Text → Option (List Char) :=
  List.mapM Symbol.char?

/-- The string that a text is, if it has no halves. -/
def toString? (text : Text) : Option String :=
  (chars? text).map String.ofList

/-- Characters are read back from the text of them. -/
theorem chars?_map_char (cs : List Char) : chars? (cs.map .char) = some cs := by
  induction cs with
  | nil => rfl
  | cons c cs ih => simp_all [chars?, Symbol.char?]

/-- A string is read back from its text. -/
theorem toString?_ofString (s : String) : toString? (ofString s) = some s := by
  simp [toString?, ofString, chars?_map_char]

end Text

end ChipEight
