import ChipEight.Text.Basic
import ChipEight.Text.Hexadecimal

/-!
# Notices

What a machine tells its host besides replies: the programs it loads, the keys that end a wait, the
words it steps over and the faults that end a playback.
-/

namespace ChipEight

/-- How grave a notice is. -/
inductive Notice.Level where
  | debug
  | info
  | warning
  | error
  deriving DecidableEq, Repr

/-- The name of a level. -/
def Notice.Level.name : Notice.Level → String
  | debug => "DEBUG"
  | info => "INFO"
  | warning => "WARNING"
  | error => "ERROR"

/-- Something a host is told. -/
inductive Notice where
  /-- A program image of `size` bytes was loaded at `start`. -/
  | loaded (size start : Nat)
  /-- A key ended the wait of a register. -/
  | keyStored (key register : Int)
  /-- A word that is no instruction was stepped over. -/
  | skipped (word pc : Int)
  /-- A program image was refused. -/
  | rejected (why : Text)
  /-- A fault ended a playback. -/
  | stopped (address : Int) (why : Text)
  deriving DecidableEq, Repr

namespace Notice

open Text.Hexadecimal

/-- How grave a notice is. -/
def level : Notice → Level
  | loaded _ _ => .info
  | keyStored _ _ => .debug
  | skipped _ _ => .warning
  | rejected _ => .error
  | stopped _ _ => .error

/-- The text of a notice. -/
def message : Notice → Text
  | loaded size start => .ofString s!"Loaded {size} byte ROM at {address start}"
  | keyStored key register => .ofString s!"Key {plain key} stored in V{plain register}"
  | skipped w pc => .ofString s!"Unknown opcode: {word w} at {address pc}, skipped"
  | rejected why => .ofString "ROM rejected: " ++ why
  | stopped pc why => .ofString s!"Machine fault at {address pc}: " ++ why

/-- A notice as a line: its level and its text. -/
def line (notice : Notice) : Text :=
  .ofString (notice.level.name ++ " ") ++ notice.message

end Notice

end ChipEight
