/-!
# Issues of a request

What is wrong with the form of a request's body: where, and of what kind. Checks that are
independent of each other are all made, and their issues listed in order.
-/

namespace ChipEight.Request

/-- A step on the way to a value inside a body. -/
inductive Issue.Place where
  | field (name : String)
  | item (number : Nat)
  deriving DecidableEq, Repr

/-- What is wrong with a value. -/
inductive Issue.Kind where
  | notAnObject
  | missing
  | notAString
  | illFormedText
  | notAnInteger
  | unreadableInteger
  | oversizedInteger
  | fraction
  | notFinite
  | tooSmall
  | tooLarge
  | notAList
  | notABoolean
  | unreadableBoolean
  deriving DecidableEq, Repr

/-- The name under which a kind of issue is reported. -/
def Issue.Kind.name : Issue.Kind → String
  | notAnObject => "model_type"
  | missing => "missing"
  | notAString => "string_type"
  | illFormedText => "string_unicode"
  | notAnInteger => "int_type"
  | unreadableInteger => "int_parsing"
  | oversizedInteger => "int_parsing_size"
  | fraction => "int_from_float"
  | notFinite => "finite_number"
  | tooSmall => "greater_than_equal"
  | tooLarge => "less_than_equal"
  | notAList => "list_type"
  | notABoolean => "bool_type"
  | unreadableBoolean => "bool_parsing"

/-- Something wrong with a body, and the way to it. -/
structure Issue where
  path : List Issue.Place
  kind : Issue.Kind
  deriving DecidableEq, Repr

/-- A value, or everything that is wrong with it. -/
abbrev Checked (α : Type) : Type :=
  Except (List Issue) α

namespace Checked

variable {α β : Type}

/-- A value with one thing wrong with it. -/
def wrong (path : List Issue.Place) (kind : Issue.Kind) : Checked α :=
  .error [{ path, kind }]

/-- Both of two independent values, or the issues of the first and then of the second. -/
def both : Checked α → Checked β → Checked (α × β)
  | .ok a, .ok b => .ok (a, b)
  | .error e, .ok _ => .error e
  | .ok _, .error e => .error e
  | .error e, .error e' => .error (e ++ e')

/-- All of several independent values, or the issues of each in turn. -/
def all : List (Checked α) → Checked (List α)
  | [] => .ok []
  | first :: rest => (both first (all rest)).map fun (a, as) => a :: as

end Checked

end ChipEight.Request
