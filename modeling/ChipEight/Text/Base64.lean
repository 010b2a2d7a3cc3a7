/-!
# Base64

The standard alphabet, read strictly: nothing outside the alphabet, no padding in front, none
missing at the end and nothing after it. Two liberties remain: bits left over in the last group
are not looked at, and padding may follow a group that is already full.
-/

namespace ChipEight.Text.Base64

/-- The alphabet, in the order of the values 0 … 63. -/
def alphabet : List Char :=
  "ABCDEFGHIJKLMNOPQRSTUVWXYZabcdefghijklmnopqrstuvwxyz0123456789+/".toList

/-- The character that fills up an unfinished group. -/
def pad : Char := '='

def letter (n : Nat) : Char :=
  alphabet.getD (n % 64) 'A'

/-- The value of a character of the alphabet. -/
def value? (c : Char) : Option Nat :=
  if 'A' ≤ c ∧ c ≤ 'Z' then some (c.toNat - 65)
  else if 'a' ≤ c ∧ c ≤ 'z' then some (c.toNat - 71)
  else if '0' ≤ c ∧ c ≤ '9' then some (c.toNat + 4)
  else if c = '+' then some 62
  else if c = '/' then some 63
  else none

/-- The text of a byte string: four characters for three bytes, the last group padded. -/
def encode : List UInt8 → List Char
  | [] => []
  | [a] => [letter (a.toNat / 4), letter (a.toNat % 4 * 16), pad, pad]
  | [a, b] =>
    [letter (a.toNat / 4), letter (a.toNat % 4 * 16 + b.toNat / 16),
      letter (b.toNat % 16 * 4), pad]
  | a :: b :: c :: rest =>
    letter (a.toNat / 4) :: letter (a.toNat % 4 * 16 + b.toNat / 16)
      :: letter (b.toNat % 16 * 4 + c.toNat / 64) :: letter (c.toNat % 64) :: encode rest

/-- Reads groups of four characters. Where a group would begin, only padding may stand instead;
a group of two or three characters of the alphabet ends the text with its padding. -/
def decodeGroups : List Char → Option (List UInt8)
  | a :: b :: c :: d :: rest =>
    if a = pad then
      if (b :: c :: d :: rest).all (· == pad) then some [] else none
    else
      match value? a, value? b with
      | some p, some q =>
        let first := UInt8.ofNat (p * 4 + q / 16)
        if c = pad then
          if d = pad ∧ rest = [] then some [first] else none
        else
          match value? c with
          | none => none
          | some r =>
            let second := UInt8.ofNat (q % 16 * 16 + r / 4)
            if d = pad then
              if rest = [] then some [first, second] else none
            else
              match value? d, decodeGroups rest with
              | some s, some bytes =>
                some (first :: second :: UInt8.ofNat (r % 4 * 64 + s) :: bytes)
              | _, _ => none
      | _, _ => none
  | short => if short.all (· == pad) then some [] else none

/-- Reads a whole text, which may not begin with padding. -/
def decode (text : List Char) : Option (List UInt8) :=
  if text.head? = some pad then none else decodeGroups text

example : decode "AAAA====".toList = some [0, 0, 0] := by decide +kernel

example : decode "AB==".toList = some [0] := by decide +kernel

example : decode "AB=".toList = none ∧ decode "=".toList = none ∧ decode [] = some [] := by
  decide +kernel

end ChipEight.Text.Base64
