import ChipEight.Decimal.Digits
import ChipEight.Json.Basic
import ChipEight.Text.Hexadecimal

/-!
# Reading JSON

A text is read as one JSON value with nothing but blanks around it. Besides the standard's numbers
the words `NaN`, `Infinity` and `-Infinity` are read, as numbers that are not finite. An integer of
more digits than `Decimal.longest` is not read.
-/

namespace ChipEight.Json

def skipBlanks (cs : List Char) : List Char :=
  cs.dropWhile fun c => c = ' ' ∨ c = '\t' ∨ c = '\n' ∨ c = '\r'

/-! ## Texts -/

/-- Whether a code unit is the first half of a surrogate pair. -/
def isHigh (unit : Nat) : Bool :=
  0xD800 ≤ unit ∧ unit < 0xDC00

/-- Whether a code unit is the second half of a surrogate pair. -/
def isLow (unit : Nat) : Bool :=
  0xDC00 ≤ unit ∧ unit < 0xE000

/-- The symbol that a code unit is by itself. -/
def symbolOf (unit : Nat) : Text.Symbol :=
  if isHigh unit ∨ isLow unit then .half unit else .char (Char.ofNat unit)

/-- Adds an escaped code unit to the symbols read, the latest first. A second half that follows a
first half makes one character with it. -/
def addUnit (unit : Nat) : Text → Text
  | .half last :: symbols =>
    if isHigh last ∧ isLow unit then
      .char (Char.ofNat (0x10000 + (last - 0xD800) * 0x400 + (unit - 0xDC00))) :: symbols
    else
      symbolOf unit :: .half last :: symbols
  | symbols => symbolOf unit :: symbols

/-- The code unit that four digits name. -/
def unit? (a b c d : Char) : Option Nat :=
  match Text.Hexadecimal.digit? a, Text.Hexadecimal.digit? b, Text.Hexadecimal.digit? c,
    Text.Hexadecimal.digit? d with
  | some p, some q, some r, some s => some (((p * 16 + q) * 16 + r) * 16 + s)
  | _, _, _, _ => none

/-- The character that a backslash and a letter stand for. -/
def escape? : Char → Option Char
  | '"' => some '"'
  | '\\' => some '\\'
  | '/' => some '/'
  | 'b' => some '\x08'
  | 'f' => some '\x0c'
  | 'n' => some '\n'
  | 'r' => some '\r'
  | 't' => some '\t'
  | _ => none

/-- The text up to the closing quote, after the symbols already read (latest first), and the
rest. A control must be escaped. -/
def text? (symbols : Text) : List Char → Option (Text × List Char)
  | '"' :: rest => some (symbols.reverse, rest)
  | '\\' :: 'u' :: a :: b :: c :: d :: rest =>
    match unit? a b c d with
    | some unit => text? (addUnit unit symbols) rest
    | none => none
  | '\\' :: letter :: rest =>
    match escape? letter with
    | some c => text? (.char c :: symbols) rest
    | none => none
  | c :: rest => if c.toNat < 32 then none else text? (.char c :: symbols) rest
  | [] => none

/-! ## Numbers -/

/-- An exponent: an optional sign and digits. -/
def exponent? (cs : List Char) : Option Int :=
  let (negative, digits) := match cs with
    | '-' :: ds => (true, ds)
    | '+' :: ds => (false, ds)
    | ds => (false, ds)
  if digits.isEmpty ∨ ¬ digits.all Char.isDigit then none
  else some (if negative then -(Decimal.ofDigits digits : Int) else Decimal.ofDigits digits)

/-- An integer from its digits, unless there are too many. -/
def integer? (negative : Bool) (digits : List Char) : Option Json :=
  let n : Int := Decimal.ofDigits digits
  if Decimal.longest < digits.length then none
  else some (.integer (if negative then -n else n))

/-- A number without its sign: digits, and perhaps a point with digits and an exponent. Only a
number without a point and an exponent is an integer. -/
def magnitude? (negative : Bool) (cs : List Char) : Option Json :=
  let whole := cs.takeWhile Char.isDigit
  let afterWhole := cs.dropWhile Char.isDigit
  let (hasPoint, afterPoint) := match afterWhole with
    | '.' :: rest => (true, rest)
    | rest => (false, rest)
  let fraction := if hasPoint then afterPoint.takeWhile Char.isDigit else []
  let afterFraction := afterPoint.drop fraction.length
  let digits := whole ++ fraction
  let n := Decimal.ofDigits digits
  let real (x : Int) : Json :=
    .real (.ofDecimal negative n digits.length (x - fraction.length))
  let padded := whole.head? = some '0' ∧ 1 < whole.length
  if whole.isEmpty ∨ padded ∨ hasPoint ∧ fraction.isEmpty then
    none
  else
    match afterFraction with
    | [] => if hasPoint then some (real 0) else integer? negative whole
    | e :: rest => if e = 'e' ∨ e = 'E' then (exponent? rest).map real else none

/-- What a word stands for: a constant or a number. -/
def word? (cs : List Char) : Option Json :=
  match String.ofList cs with
  | "null" => some .null
  | "true" => some (.bool true)
  | "false" => some (.bool false)
  | "NaN" => some (.real .notFinite)
  | "Infinity" => some (.real .notFinite)
  | "-Infinity" => some (.real .notFinite)
  | _ =>
    match cs with
    | '-' :: rest => magnitude? true rest
    | _ => magnitude? false cs

/-- Whether a character belongs to a word. -/
def isWordChar (c : Char) : Bool :=
  c.isAlphanum ∨ c = '+' ∨ c = '-' ∨ c = '.'

/-! ## Values -/

mutual

/-- Reads a value in at most `n` steps, and gives the rest. -/
def value? : Nat → List Char → Option (Json × List Char)
  | 0, _ => none
  | n + 1, cs =>
    match skipBlanks cs with
    | '[' :: inside =>
      match skipBlanks inside with
      | ']' :: rest => some (.array [], rest)
      | items => items? n [] items
    | '{' :: inside =>
      match skipBlanks inside with
      | '}' :: rest => some (.object [], rest)
      | fields => fields? n [] fields
    | '"' :: inside => (text? [] inside).map fun (text, rest) => (.string text, rest)
    | word =>
      (word? (word.takeWhile isWordChar)).map fun v => (v, word.dropWhile isWordChar)

/-- Reads the items of an array after those already read, the latest first. -/
def items? : Nat → List Json → List Char → Option (Json × List Char)
  | 0, _, _ => none
  | n + 1, items, cs =>
    match value? n cs with
    | none => none
    | some (item, afterItem) =>
      match skipBlanks afterItem with
      | ',' :: rest => items? n (item :: items) rest
      | ']' :: rest => some (.array (item :: items).reverse, rest)
      | _ => none

/-- Reads the fields of an object after those already read, the latest first. -/
def fields? : Nat → List (Text × Json) → List Char → Option (Json × List Char)
  | 0, _, _ => none
  | n + 1, fields, cs =>
    match skipBlanks cs with
    | '"' :: inside =>
      match text? [] inside with
      | none => none
      | some (name, afterName) =>
        match skipBlanks afterName with
        | ':' :: afterColon =>
          match value? n afterColon with
          | none => none
          | some (v, afterValue) =>
            match skipBlanks afterValue with
            | ',' :: rest => fields? n ((name, v) :: fields) rest
            | '}' :: rest => some (.object ((name, v) :: fields).reverse, rest)
            | _ => none
        | _ => none
    | _ => none

end

/-- Reads a text as one value. Every step but those between a bracket and its first item takes a
character, so twice as many steps as there are characters suffice. -/
def read? (text : String) : Option Json :=
  let cs := text.toList
  match value? (2 * cs.length + 2) cs with
  | some (v, rest) => if (skipBlanks rest).isEmpty then some v else none
  | none => none

end ChipEight.Json
