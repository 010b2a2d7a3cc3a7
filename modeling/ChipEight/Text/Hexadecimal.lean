/-!
# Hexadecimal texts

Addresses and instruction words in messages, and byte strings. A number is padded with zeros
between its sign and its digits until the whole text has its least width.
-/

namespace ChipEight.Text.Hexadecimal

/-- The sign of a number and a lead, zeros up to the width, then the digits. -/
def padded (lead : List Char) (width : Nat) (digits : List Char) (n : Int) : String :=
  let front := if n < 0 then '-' :: lead else lead
  String.ofList (front ++ List.replicate (width - front.length - digits.length) '0' ++ digits)

def lowerDigits (n : Nat) : List Char :=
  Nat.toDigits 16 n

def upperDigits (n : Nat) : List Char :=
  (Nat.toDigits 16 n).map Char.toUpper

/-- An address: `0x` and lower-case digits, at least five characters with sign and lead. -/
def address (n : Int) : String :=
  padded ['0', 'x'] 5 (lowerDigits n.natAbs) n

/-- An instruction word: upper-case digits, at least four characters with the sign. -/
def word (n : Int) : String :=
  padded [] 4 (upperDigits n.natAbs) n

/-- A number in upper-case digits, without padding. -/
def plain (n : Int) : String :=
  padded [] 0 (upperDigits n.natAbs) n

/-- A number in lower-case digits, without padding. -/
def lower (n : Nat) : String :=
  String.ofList (lowerDigits n)

/-- The digit of a value below sixteen. -/
def digit (n : Nat) : Char :=
  Nat.digitChar (n % 16)

/-- The value of a digit, in either case. -/
def digit? (c : Char) : Option Nat :=
  if '0' ≤ c ∧ c ≤ '9' then some (c.toNat - 48)
  else if 'a' ≤ c ∧ c ≤ 'f' then some (c.toNat - 87)
  else if 'A' ≤ c ∧ c ≤ 'F' then some (c.toNat - 55)
  else none

/-- A byte string: two lower-case digits a byte. -/
def encode (bytes : List UInt8) : String :=
  String.ofList (bytes.flatMap fun b => [digit (b.toNat / 16), digit b.toNat])

/-- The bytes that pairs of digits spell, after those already read (latest first). -/
def decodePairs (read : List UInt8) : List Char → Option (List UInt8)
  | [] => some read.reverse
  | [_] => none
  | high :: low :: rest =>
    match digit? high, digit? low with
    | some h, some l => decodePairs (UInt8.ofNat (16 * h + l) :: read) rest
    | _, _ => none

/-- Reads a byte string back; anything but pairs of digits is refused. -/
def decode (text : String) : Option (List UInt8) :=
  decodePairs [] text.toList

example : address 0 = "0x000" ∧ address 4096 = "0x1000" ∧ address (-1) = "-0x01"
    ∧ address (-256) = "-0x100" := by decide +kernel

example : word 0xE0 = "00E0" ∧ word (-1) = "-001" ∧ word 0x12345 = "12345" := by decide +kernel

example : encode [0, 255, 18] = "00ff12" ∧ decode "00ff12" = some [0, 255, 18]
    ∧ decode "0" = none := by decide +kernel

end ChipEight.Text.Hexadecimal
