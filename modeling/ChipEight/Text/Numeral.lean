import ChipEight.Decimal.Digits
import ChipEight.Text.Blank

/-!
# Numerals

The integer that a text spells. A plain numeral is an optional minus sign and digits without a
leading zero; it is read unless it has too many digits. Any other text is tidied up first: blanks
around it and a plus sign are left out, and so are leading zeros, a fraction of zeros and single
underscores that do not stand at an end. What then is a plain numeral is read. As the zeros are left
out before the sign is read, a minus sign may follow them.
-/

namespace ChipEight.Text.Numeral

/-- What comes of reading a text as a numeral. -/
inductive Reading where
  | value (n : Int)
  | tooLong
  | unreadable
  deriving DecidableEq, Repr

/-- Reads digits without a leading zero. Too many of them are noticed before anything that follows
them. -/
def plainDigits (negative : Bool) (cs : List Char) : Reading :=
  let digits := cs.takeWhile Char.isDigit
  if cs = ['0'] then .value 0
  else if digits.isEmpty ∨ digits.head? = some '0' then .unreadable
  else if Decimal.longest < digits.length then .tooLong
  else if digits.length < cs.length then .unreadable
  else .value (if negative then -(Decimal.ofDigits digits : Int) else Decimal.ofDigits digits)

def plain : List Char → Reading
  | '-' :: cs => plainDigits true cs
  | cs => plainDigits false cs

/-- Leaves out the leading zeros of what must begin with a digit, with any underscores among them.
The last character before a point or the end stays; otherwise a digit or a minus sign follows. -/
def dropZeros : List Char → Option (List Char)
  | [] => none
  | first :: rest =>
    if first ≠ '0' then
      if first.isDigit then some (first :: rest) else none
    else
      let isZero (c : Char) : Bool := c = '0' ∨ c = '_'
      let last := (rest.takeWhile isZero).getLast?.getD '0'
      match rest.dropWhile isZero with
      | [] => some [last]
      | c :: more =>
        if c = '.' then some (last :: '.' :: more)
        else if c.isDigit ∨ c = '-' then some (c :: more)
        else none

/-- Leaves out a fraction of zeros. -/
def dropFraction (cs : List Char) : List Char :=
  let whole := cs.takeWhile fun c => c ≠ '.'
  match cs.dropWhile fun c => c ≠ '.' with
  | _ :: '0' :: zeros => if zeros.all (· == '0') then whole else cs
  | _ => cs

/-- Whether two underscores stand side by side. -/
def hasPair : List Char → Bool
  | '_' :: '_' :: _ => true
  | _ :: cs => hasPair cs
  | [] => false

/-- Leaves out underscores, none of which may stand at an end or beside another. -/
def dropUnderscores (cs : List Char) : Option (List Char) :=
  if cs.head? = some '_' ∨ cs.getLast? = some '_' ∨ hasPair cs then none
  else some (cs.filter (· ≠ '_'))

/-- Tidies up a numeral without its sign. -/
def tidyMagnitude (cs : List Char) : Option (List Char) :=
  (dropZeros cs).bind fun cs => dropUnderscores (dropFraction cs)

def tidy (cs : List Char) : Option (List Char) :=
  match Blank.trim cs with
  | '-' :: rest => (tidyMagnitude rest).map ('-' :: ·)
  | '+' :: rest => tidyMagnitude rest
  | rest => tidyMagnitude rest

/-- Reads a numeral. That one is too long is noticed only where it needs no tidying. -/
def read (text : String) : Reading :=
  match plain text.toList with
  | .value n => .value n
  | .tooLong => .tooLong
  | .unreadable =>
    match (tidy text.toList).map plain with
    | some (.value n) => .value n
    | _ => .unreadable

example : read "-7" = .value (-7) ∧ read " +0_1 " = .value 1 ∧ read "0___7" = .value 7 := by
  decide +kernel

example : read "-0005.00" = .value (-5) ∧ read "1_0.0" = .value 10 := by decide +kernel

example : read "0-5" = .value (-5) ∧ read "0_-_1.0" = .value (-1) ∧ read "-0-5" = .unreadable
    ∧ read "0-05" = .unreadable ∧ read "0--5" = .unreadable := by decide +kernel

example : ["", "-", "+-5", "5.", ".0", "1__0", "1_", "_1", "1_.0", "1.0_0", "- 5", "1e2"].all
    (fun text => read text = .unreadable) = true := by decide +kernel

end ChipEight.Text.Numeral
