import ChipEight.Text.Basic
import ChipEight.Text.Hexadecimal
import ChipEight.Text.Quoted

/-!
# Faults and misuse

Two things can go wrong. A *fault* belongs to the machine: a program image that cannot be loaded,
an unknown instruction, a stack or an address out of range. It has a cause, which decides its
message and its kind, and a context: the step it arose in, an address and the instruction word.
A *misuse* belongs to the host: a call with an argument outside the operation's domain.
-/

namespace ChipEight

/-- The kinds of fault, from the general to the particular. -/
inductive Fault.Kind where
  | general
  | program
  | programTooLarge
  | programUnreadable
  | unknownOpcode
  | machine
  | stackOverflow
  | stackUnderflow
  | memoryAccess
  deriving DecidableEq, Repr

namespace Fault.Kind

/-- The name under which a kind is reported. -/
def name : Kind → String
  | general => "Chip8Error"
  | program => "RomError"
  | programTooLarge => "RomTooLarge"
  | programUnreadable => "RomLoadError"
  | unknownOpcode => "UnknownOpcode"
  | machine => "MachineFault"
  | stackOverflow => "StackOverflow"
  | stackUnderflow => "StackUnderflow"
  | memoryAccess => "MemoryAccessError"

/-- A kind and the more general ones it belongs to, the most particular first. -/
def lineage : Kind → List Kind
  | general => [general]
  | program => [program, general]
  | programTooLarge => [programTooLarge, program, general]
  | programUnreadable => [programUnreadable, program, general]
  | unknownOpcode => [unknownOpcode, general]
  | machine => [machine, general]
  | stackOverflow => [stackOverflow, machine, general]
  | stackUnderflow => [stackUnderflow, machine, general]
  | memoryAccess => [memoryAccess, machine, general]

/-- Every kind, so that one can be found by its name. -/
def all : List Kind :=
  [general, program, programTooLarge, programUnreadable, unknownOpcode, machine, stackOverflow,
    stackUnderflow, memoryAccess]

/-- The kind of a given name. -/
def ofName? (name : String) : Option Kind :=
  all.find? fun kind => kind.name == name

end Fault.Kind

/-- Why the image of a program could not be read: the number that the system gives its refusal, and
the system's words for it. -/
structure Fault.Unreadable where
  number : Nat
  reason : String
  deriving DecidableEq, Repr

namespace Fault.Unreadable

/-- There is nothing under the name. -/
def missing : Unreadable where
  number := 2
  reason := "No such file or directory"

/-- The name is that of a directory. -/
def directory : Unreadable where
  number := 21
  reason := "Is a directory"

/-- No file can have the name. -/
def nameTooLong : Unreadable where
  number := 36
  reason := "File name too long"

def message (why : Unreadable) : String :=
  s!"[Errno {why.number}] {why.reason}"

end Fault.Unreadable

/-- What went wrong in the machine. -/
inductive Fault.Cause where
  /-- A program image of `size` bytes, more than the `limit` that fit. -/
  | programTooLarge (size limit : Nat)
  /-- The image of that name, which was looked for at `path`, could not be read. -/
  | programUnreadable (name path : Text) (why : Fault.Unreadable)
  /-- No instruction has this word. -/
  | unknownOpcode (word : Int)
  /-- A call with all `depth` stack slots in use. -/
  | stackOverflow (depth : Nat)
  /-- A return with no stack slot in use. -/
  | stackUnderflow
  /-- A memory access that begins at `address` does not lie inside the memory. -/
  | addressOutOfRange (address : Int)
  /-- No instruction can be fetched at `pc`. -/
  | counterOutOfRange (pc : Int)
  deriving DecidableEq, Repr

namespace Fault.Cause

/-- The kind of fault that a cause gives rise to. -/
def kind : Cause → Kind
  | programTooLarge _ _ => .programTooLarge
  | programUnreadable _ _ _ => .programUnreadable
  | unknownOpcode _ => .unknownOpcode
  | stackOverflow _ => .stackOverflow
  | stackUnderflow => .stackUnderflow
  | addressOutOfRange _ => .memoryAccess
  | counterOutOfRange _ => .memoryAccess

/-- The text of a cause. That of an unreadable image shows the name as the host wrote it. -/
def message : Cause → Text
  | programTooLarge size limit => .ofString s!"ROM is {size} bytes, limit is {limit}"
  | programUnreadable name path why =>
    .ofString "Cannot read ROM " ++ name
      ++ .ofString s!": {why.message}: {Text.Quoted.encode path}"
  | unknownOpcode word => .ofString s!"Unknown opcode: {Text.Hexadecimal.word word}"
  | stackOverflow depth => .ofString s!"Call stack overflow: depth {depth} exceeded"
  | stackUnderflow => .ofString "Return with empty call stack"
  | addressOutOfRange address =>
    .ofString s!"Memory address out of range: {Text.Hexadecimal.address address}"
  | counterOutOfRange pc =>
    .ofString s!"Program counter out of range: {Text.Hexadecimal.address pc}"

end Fault.Cause

/-- A fault of the machine: its cause, the number of the step it arose in (0 outside a step), the
address it concerns and the instruction word, if one was read. -/
structure Fault where
  cause : Fault.Cause
  step : Nat := 0
  address : Int := 0
  opcode : Option Int := none
  deriving DecidableEq, Repr

namespace Fault

/-- The kind of a fault. -/
def kind (fault : Fault) : Kind :=
  fault.cause.kind

/-- The text of a fault. -/
def message (fault : Fault) : Text :=
  fault.cause.message

/-- The fault as it leaves step number `step`, which began at `address` and had read `opcode`. -/
def inStep (fault : Fault) (step : Nat) (address : Int) (opcode : Option Int) : Fault :=
  { fault with step, address, opcode := opcode.or fault.opcode }

/-- An account of a fault, as handed to the outside. -/
structure Report where
  kind : Kind
  message : Text
  step : Int := 0
  address : Int := 0
  opcode : Option Int := none
  deriving DecidableEq, Repr

def report (fault : Fault) : Report where
  kind := fault.kind
  message := fault.message
  step := fault.step
  address := fault.address
  opcode := fault.opcode

end Fault

/-- A host's call outside an operation's domain. -/
inductive Misuse where
  /-- A key that is none of the sixteen. -/
  | keyOutOfRange (key : Int)
  /-- A list of key states of another length than the keypad's. -/
  | keyCount (expected given : Nat)
  /-- An entry of a program image that is no byte. -/
  | notAByte
  /-- A memory or a screen of negative size. -/
  | negativeSize
  /-- A memory or a screen of a size that cannot be addressed. -/
  | unaddressableSize
  /-- A memory or a screen of a size that there is no room for. -/
  | noRoom
  /-- A byte string of a length that cannot be addressed with what it takes besides. -/
  | oversizedString
  /-- A position that cannot be addressed. -/
  | unaddressablePosition
  /-- A value written to a register or stack slot that does not exist. -/
  | noSlotToWrite
  /-- A value read from a stack slot that does not exist. -/
  | noSlotToRead
  /-- A pixel that does not exist. -/
  | noPixel
  /-- A sprite drawn on a screen without columns or without rows. -/
  | emptyScreen
  /-- A name of a program image with a character of code 0. -/
  | nulInName
  /-- A name of a program image with halves of surrogate pairs that have no bytes: which one is the
  first, where it stands and where the halves from it on end. -/
  | unwritableName (unit first last : Nat)
  deriving DecidableEq, Repr

/-- The words for symbols at some positions of a name that cannot be written as bytes. -/
def Misuse.unwritable (what : String) (place : String) : String :=
  s!"'utf-8' codec can't encode {what} in position {place}: surrogates not allowed"

def Misuse.message : Misuse → String
  | keyOutOfRange key => s!"Key out of range: {key}"
  | keyCount expected given => s!"Expected {expected} key states, got {given}"
  | notAByte => "bytes must be in range(0, 256)"
  | negativeSize => "negative count"
  | unaddressableSize => "cannot fit 'int' into an index-sized integer"
  | noRoom => ""
  | oversizedString => "byte string is too large"
  | unaddressablePosition => "cannot fit 'int' into an index-sized integer"
  | noSlotToWrite => "list assignment index out of range"
  | noSlotToRead => "list index out of range"
  | noPixel => "bytearray index out of range"
  | emptyScreen => "integer modulo by zero"
  | nulInName => "embedded null byte"
  | unwritableName unit first last =>
    if first = last then
      unwritable s!"character '\\u{Text.Hexadecimal.lower unit}'" (toString first)
    else
      unwritable "characters" s!"{first}-{last}"

inductive Error where
  | fault (fault : Fault)
  | misuse (misuse : Misuse)
  deriving DecidableEq, Repr

/-- A fault gets the context of the step it leaves; a misuse has none. -/
def Error.inStep (step : Nat) (address : Int) (opcode : Option Int) : Error → Error
  | fault f => .fault (f.inStep step address opcode)
  | misuse m => .misuse m

end ChipEight
