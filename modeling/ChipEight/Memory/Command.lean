import ChipEight.Memory.Basic
import ChipEight.Reply

/-!
# Memory commands

What a host may ask of a memory, as data, and what the memory does about it.
-/

namespace ChipEight.Memory

/-- A host's request to a memory. Values of any size are cut to bytes. -/
inductive Command where
  | read (address : Int)
  | write (address value : Int)
  | readWord (address : Int)
  | readBlock (address length : Int)
  | writeBlock (address : Int) (values : List Int)
  | installFont
  | loadProgram (image : List UInt8)
  | reset
  | snapshot

/-- Carries out a request. -/
def Command.run : Command → Action Memory Reply
  | read address =>
    Action.reading fun m => Error.ofFault ((m.read address).map fun b => .number b.toNat)
  | write address value =>
    Action.checked fun m => Error.ofFault (m.write address (lowByte value))
  | readWord address =>
    Action.reading fun m => Error.ofFault ((m.readWord address).map fun w => .number w)
  | readBlock address length =>
    Action.reading fun m => Error.ofFault ((m.readBlock address length).map .bytes)
  | writeBlock address values =>
    Action.checked fun m => Error.ofFault (m.writeBlock address (values.map lowByte))
  | installFont => Action.always Memory.installFont
  | loadProgram image => Action.checked fun m => Error.ofFault (m.loadProgram image)
  | reset => Action.always Memory.reset
  | snapshot => Action.answer fun m => .bytes m.bytes.toList

end ChipEight.Memory
