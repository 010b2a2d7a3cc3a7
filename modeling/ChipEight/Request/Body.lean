import ChipEight.Json.Basic
import ChipEight.Playback.Options
import ChipEight.Request.Issue
import ChipEight.Text.Numeral

/-!
# The body of a request

A body is an object with a program image as a text and, if it likes, options. Each option has a
default, and some have bounds. Numbers and truth values are read generously: an integer may be
given as a truth value, as a decimal fraction without a fractional part or as a text, a truth value
as 0 or 1 or as one of a few words.
-/

namespace ChipEight.Request

/-- A request whose form is right. -/
structure Body where
  /-- The program image, encoded. -/
  image : Text
  options : Option Playback.Options
  deriving DecidableEq, Repr

/-- The bounds of an integer. -/
structure Bounds where
  least : Option Int := none
  greatest : Option Int := none

/-- Whether an integer fits in 64 bits with a sign. -/
def fitsWord (n : Int) : Bool :=
  -0x8000000000000000 ≤ n ∧ n < 0x8000000000000000

/-- The integer that a binary number is. Its integers are counted on between the ends of 64 bits
only, and at the lower end not even there. -/
def integerOfReal (x : Decimal.Binary64) : Except Issue.Kind Int :=
  match x.whole? with
  | some n => if fitsWord n ∧ n ≠ -0x8000000000000000 then .ok n else .error .oversizedInteger
  | none => if x = .notFinite then .error .notFinite else .error .fraction

/-- What a text is read as, where it has to be a string. -/
def ofText {α : Type} (read : String → Except Issue.Kind α) (text : Text) : Except Issue.Kind α :=
  match Text.toString? text with
  | some s => read s
  | none => .error .illFormedText

/-- The integer that a string spells. -/
def integerOfString (s : String) : Except Issue.Kind Int :=
  match Text.Numeral.read s with
  | .value n => .ok n
  | .tooLong => .error .oversizedInteger
  | .unreadable => .error .unreadableInteger

def integerOf : Json → Except Issue.Kind Int
  | .integer n => .ok n
  | .bool b => .ok (if b then 1 else 0)
  | .real x => integerOfReal x
  | .string text => ofText integerOfString text
  | _ => .error .notAnInteger

/-- A value, or the one thing that is wrong with it, at a place. -/
def located {α : Type} (path : List Issue.Place) : Except Issue.Kind α → Checked α
  | .ok a => .ok a
  | .error kind => .wrong path kind

def integer (path : List Issue.Place) (value : Json) : Checked Int :=
  located path (integerOf value)

def bounded (path : List Issue.Place) (bounds : Bounds) (n : Int) : Checked Int :=
  if bounds.least.any (n < ·) then .wrong path .tooSmall
  else if bounds.greatest.any (· < n) then .wrong path .tooLarge
  else .ok n

def trueWords : List String :=
  ["true", "t", "yes", "y", "on", "1"]

def falseWords : List String :=
  ["false", "f", "no", "n", "off", "0"]

/-- The truth value that an integer is. -/
def truthOfInteger (n : Int) : Except Issue.Kind Bool :=
  if n = 0 then .ok false else if n = 1 then .ok true else .error .unreadableBoolean

/-- The truth value that a string spells, in any case. -/
def truthOfString (s : String) : Except Issue.Kind Bool :=
  let word := s.map Char.toLower
  if trueWords.contains word then .ok true
  else if falseWords.contains word then .ok false
  else .error .unreadableBoolean

/-- The truth value that a value stands for. A number that is no integer, or none of 64 bits, is of
the wrong kind altogether. -/
def truthOf : Json → Except Issue.Kind Bool
  | .bool b => .ok b
  | .integer n => if fitsWord n then truthOfInteger n else .error .notABoolean
  | .real x =>
    match integerOfReal x with
    | .ok n => truthOfInteger n
    | .error _ => .error .notABoolean
  | .string text => ofText truthOfString text
  | _ => .error .notABoolean

def boolean (path : List Issue.Place) (value : Json) : Checked Bool :=
  located path (truthOf value)

/-- Reads a list of integers, each on its own. -/
def integers (path : List Issue.Place) : Json → Checked (List Int)
  | .array items => .all (items.mapIdx fun k item => integer (path ++ [.item k]) item)
  | _ => .wrong path .notAList

def frameBounds : Bounds := ⟨some 0, some 36000⟩

def stepBounds : Bounds := ⟨some 1, some 1000⟩

def totalBounds : Bounds := ⟨some 1, some 1000000⟩

/-- Reads a field, or takes its default where it is missing. -/
def optional {α : Type} (path : List Issue.Place) (fields : List (Text × Json)) (name : String)
    (default : α) (read : List Issue.Place → Json → Checked α) : Checked α :=
  match Json.field? name fields with
  | some value => read (path ++ [.field name]) value
  | none => .ok default

/-- Reads an integer within bounds. -/
def integerWithin (bounds : Bounds) (path : List Issue.Place) (value : Json) : Checked Int :=
  match integer path value with
  | .ok n => bounded path bounds n
  | .error issues => .error issues

/-- Reads a seed, which may be null. -/
def seed (path : List Issue.Place) : Json → Checked (Option Int)
  | .null => .ok none
  | value => (integer path value).map some

/-- Reads the fields of the options. -/
def optionFields (path : List Issue.Place) (fields : List (Text × Json)) :
    Checked Playback.Options :=
  let standard : Playback.Options := {}
  let frames := optional path fields "frames" standard.frames (integerWithin frameBounds)
  let steps :=
    optional path fields "steps_per_frame" standard.stepsPerFrame (integerWithin stepBounds)
  let total := optional path fields "max_steps" standard.maxSteps (integerWithin totalBounds)
  let keys := optional path fields "keys" standard.keys integers
  let seed := optional path fields "seed" standard.seed seed
  let display := optional path fields "include_display" standard.includeDisplay boolean
  (frames.both (steps.both (total.both (keys.both (seed.both display))))).map
    fun (frames, stepsPerFrame, maxSteps, keys, seed, includeDisplay) =>
      { frames, stepsPerFrame, maxSteps, keys, seed, includeDisplay }

/-- Reads the options, which may be null. -/
def options (path : List Issue.Place) : Json → Checked (Option Playback.Options)
  | .null => .ok none
  | .object fields => (optionFields path fields).map some
  | _ => .wrong path .notAnObject

/-- Reads the encoded program image, which may be any text. -/
def image (fields : List (Text × Json)) : Checked Text :=
  match Json.field? "rom" fields with
  | some (.string text) => .ok text
  | some _ => .wrong [.field "rom"] .notAString
  | none => .wrong [.field "rom"] .missing

/-- Reads a body. -/
def Body.ofJson : Json → Checked Body
  | .object fields =>
    (Checked.both (Request.image fields) (optional [] fields "options" none Request.options)).map
      fun (image, options) => { image, options }
  | _ => .wrong [] .notAnObject

end ChipEight.Request
