import ChipEight.Text.Basic
import ChipEight.Text.Hexadecimal
import ChipEight.Text.Hidden

/-!
# Quoted texts

A text between quotes, as a message shows a name. Single quotes are used, unless the text has one
and no double quote. The quote itself, the backslash and what shows nothing are escaped, the latter
by the hexadecimal digits of its code point where no letter stands for it.
-/

namespace ChipEight.Text.Quoted

/-- The quote to put around a text. -/
def quoteFor (text : Text) : Char :=
  if text.contains (.char '\'') ∧ ¬ text.contains (.char '"') then '"' else '\''

/-- The last `count` hexadecimal digits of a number. -/
def lastDigits : Nat → Nat → List Char
  | 0, _ => []
  | count + 1, n => lastDigits count (n / 16) ++ [Hexadecimal.digit n]

/-- The escape of a code point by its digits, of which there are two, four or eight. -/
def escapedByCode (n : Nat) : List Char :=
  if n < 0x100 then '\\' :: 'x' :: lastDigits 2 n
  else if n < 0x10000 then '\\' :: 'u' :: lastDigits 4 n
  else '\\' :: 'U' :: lastDigits 8 n

/-- A character as it stands between quotes. -/
def escapedChar (quote c : Char) : List Char :=
  if c = quote ∨ c = '\\' then ['\\', c]
  else if c = '\n' then ['\\', 'n']
  else if c = '\r' then ['\\', 'r']
  else if c = '\t' then ['\\', 't']
  else if Hidden.isHidden c then escapedByCode c.toNat
  else [c]

/-- A symbol as it stands between quotes. -/
def escaped (quote : Char) : Symbol → List Char
  | .char c => escapedChar quote c
  | .half unit => escapedByCode unit

def encode (text : Text) : String :=
  let quote := quoteFor text
  String.ofList (quote :: text.flatMap (escaped quote) ++ [quote])

example : encode (ofString "a b") = "'a b'" := by decide +kernel

example : encode (ofString "it's") = "\"it's\"" ∧ encode (ofString "a\nb\\") = "'a\\nb\\\\'" := by
  decide +kernel

example : encode (ofString "\x7f\u200b" ++ [.half 0xD800]) = "'\\x7f\\u200b\\ud800'" := by
  decide +kernel

end ChipEight.Text.Quoted
