import ChipEight.Decimal.Binary64
import ChipEight.Text.Basic

/-!
# JSON values

The values that a request's body and a host's key states are given as. A number without a fraction
and an exponent is an integer of any size, every other one a binary number.
-/

namespace ChipEight

/-- A JSON value. -/
inductive Json where
  | null
  | bool (b : Bool)
  | integer (n : Int)
  | real (x : Decimal.Binary64)
  | string (text : Text)
  | array (items : List Json)
  | object (fields : List (Text × Json))
  deriving Inhabited

namespace Json

/-- Whether a value counts as true: all do but `false`, `null`, zero and what is empty. -/
def isTrue : Json → Bool
  | null => false
  | bool b => b
  | integer n => n ≠ 0
  | real x => !x.isZero
  | string text => !text.isEmpty
  | array items => !items.isEmpty
  | object fields => !fields.isEmpty

/-- The elements of a value that has some: the items of an array, the symbols of a text. -/
def elements? : Json → Option (List Json)
  | array items => some items
  | string text => some (text.map fun symbol => string [symbol])
  | _ => none

/-- The value of a field, if there is one; of several fields of one name the last counts. -/
def field? (name : String) (fields : List (Text × Json)) : Option Json :=
  (fields.reverse.find? fun entry => entry.1 == Text.ofString name).map (·.2)

/-- A string as a value. -/
def ofString (s : String) : Json :=
  string (Text.ofString s)

/-- An object of named fields. -/
def ofFields (fields : List (String × Json)) : Json :=
  object (fields.map fun entry => (Text.ofString entry.1, entry.2))

/-- A value that may be missing, then null. -/
def ofOption {α : Type} (encode : α → Json) : Option α → Json
  | some a => encode a
  | none => null

end Json

end ChipEight
