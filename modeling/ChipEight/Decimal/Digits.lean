/-!
# Decimal digits

The number that a sequence of decimal digits names.
-/

namespace ChipEight.Decimal

def digitValue (c : Char) : Nat :=
  c.toNat - '0'.toNat

/-- The number that a sequence of digits names, 0 if there are none. -/
def ofDigits (digits : List Char) : Nat :=
  digits.foldl (fun n c => 10 * n + digitValue c) 0

/-- The greatest number of digits that an integer is read from. -/
def longest : Nat := 4300

end ChipEight.Decimal
