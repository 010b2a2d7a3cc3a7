import ChipEight.Text.Basic

/-!
# Paths

The way to a file: a root, if it is not relative, and the names on the way. Empty names and names of
a single dot lead nowhere and are left out; two dots stay, as where they lead is not seen from the
path. Exactly two slashes in front are a root of their own.

A path is written in UTF-8. A half of a surrogate pair can stand in it for a single byte of more
than seven bits; other halves cannot be written.
-/

namespace ChipEight.File

/-- What stands between the names of a path. -/
def slash : Text.Symbol :=
  .char '/'

/-- The name that leads nowhere. -/
def dot : Text :=
  [.char '.']

/-- A path: its root, empty for a relative one, and the names that follow. -/
structure Path where
  root : Text
  names : List Text
  deriving DecidableEq, Repr

namespace Path

/-- The root of a text, by the number of slashes in front. -/
def rootOf (slashes : Nat) : Text :=
  if slashes = 0 then [] else if slashes = 2 then [slash, slash] else [slash]

def segments : Text → List Text
  | [] => [[]]
  | symbol :: text =>
    if symbol = slash then
      [] :: segments text
    else
      match segments text with
      | [] => [[symbol]]
      | first :: rest => (symbol :: first) :: rest

def ofText (text : Text) : Path where
  root := rootOf (text.takeWhile (· == slash)).length
  names := (segments text).filter fun name => name ≠ [] ∧ name ≠ dot

/-- The text of a path; the path that leads nowhere is a dot. -/
def text (path : Path) : Text :=
  if path.root = [] ∧ path.names = [] then dot
  else path.root ++ List.intercalate [slash] path.names

example : (ofText (.ofString "a//./b/")).text = .ofString "a/b"
    ∧ (ofText []).text = .ofString "."
    ∧ (ofText (.ofString "//x")).text = .ofString "//x" := by
  decide +kernel

end Path

/-! ## Bytes -/

/-- The number of bytes that a symbol is written in, if it can be written. -/
def byteCount? : Text.Symbol → Option Nat
  | .char c => some c.utf8Size
  | .half unit => if 0xDC80 ≤ unit ∧ unit ≤ 0xDCFF then some 1 else none

/-- The number of bytes of a text that can be written. -/
def byteCount (text : Text) : Nat :=
  text.foldl (fun total symbol => total + (byteCount? symbol).getD 0) 0

/-- The first half that cannot be written, its position and the position of the last of the halves
from it on. -/
def unwritable? (text : Text) : Option (Nat × Nat × Nat) :=
  match text.dropWhile fun symbol => (byteCount? symbol).isSome with
  | .half unit :: rest =>
    let first := text.length - (rest.length + 1)
    some (unit, first, first + (rest.takeWhile Text.Symbol.isHalf).length)
  | _ => none

example : byteCount (Text.ofString "aé" ++ [.half 0xDC80]) = 4
    ∧ unwritable? (Text.ofString "aé" ++ [.half 0xDC80]) = none := by decide +kernel

example :
    unwritable? (Text.ofString "x" ++ [.half 0xDC80, .half 0xD800, .half 0xDC81, .char 'y'])
      = some (0xD800, 2, 3) := by decide +kernel

end ChipEight.File
