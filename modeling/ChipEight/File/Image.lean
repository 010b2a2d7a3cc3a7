import ChipEight.Fault
import ChipEight.File.Path

/-!
# Program images in files

Reading the image of a program by the name of a file. What the system has under the name is given,
be it the bytes of a file or a refusal of whatever kind. Nothing else is there, so on the way to a
missing file the first name decides that is not the directory above.
-/

namespace ChipEight.File

/-- What the system has under a name. -/
inductive Image where
  /-- A file with these bytes, which can be read. -/
  | content (bytes : List UInt8)
  /-- The system refuses to read it. -/
  | refused (why : Fault.Unreadable)

namespace Image

def longestPath : Nat := 4095

def longestName : Nat := 255

/-- The name of the directory above. -/
def above : Text :=
  .ofString ".."

/-- The first name on a path that is not the directory above. -/
def ownName? (path : Path) : Option Text :=
  path.names.find? fun name => name ≠ above

/-- Why nothing can be read at a path, where that is so. -/
def obstacle? (image : Image) (path : Path) : Option Fault.Unreadable :=
  if longestPath < byteCount path.text then some .nameTooLong
  else
    match ownName? path with
    | none => some .directory
    | some name =>
      if longestName < byteCount name then some .nameTooLong
      else
        match image with
        | content _ => none
        | refused why => some why

/-- The bytes of an image, none if it cannot be read. -/
def bytes : Image → List UInt8
  | content bytes => bytes
  | refused _ => []

/-- What is wrong with the text of a path, before anything is looked up. -/
def misuse? (text : Text) : Option Misuse :=
  match unwritable? text with
  | some (unit, first, last) => some (.unwritableName unit first last)
  | none => if text.contains (.char '\x00') then some .nulInName else none

def read (image : Image) (name : Text) : Except Error (List UInt8) :=
  let path := Path.ofText name
  match misuse? path.text with
  | some misuse => .error (.misuse misuse)
  | none =>
    match image.obstacle? path with
    | some why => .error (.fault { cause := .programUnreadable name path.text why })
    | none => .ok image.bytes

end Image

end ChipEight.File
