/-!
# Blanks

The characters that count as blank space, by the property of that name in the Unicode character
database, and a text without the blanks around it.
-/

namespace ChipEight.Text.Blank

/-- The ranges of blanks, by their first and their last code point. -/
def ranges : List (Nat × Nat) :=
  [(0x9, 0xD), (0x20, 0x20), (0x85, 0x85), (0xA0, 0xA0), (0x1680, 0x1680), (0x2000, 0x200A),
    (0x2028, 0x2029), (0x202F, 0x202F), (0x205F, 0x205F), (0x3000, 0x3000)]

/-- Whether a character is a blank. -/
def isBlank (c : Char) : Bool :=
  ranges.any fun (first, last) => first ≤ c.toNat ∧ c.toNat ≤ last

/-- A text without the blanks around it. -/
def trim (cs : List Char) : List Char :=
  ((cs.dropWhile isBlank).reverse.dropWhile isBlank).reverse

example : trim " \t 5\u00a0".toList = ['5'] := by decide +kernel

end ChipEight.Text.Blank
