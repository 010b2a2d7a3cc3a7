import ChipEight.Action
import ChipEight.Capacity
import ChipEight.Memory.Basic

/-!
# The processor

Sixteen byte registers, an index, a program counter, a stack of sixteen return addresses and two
timers. The last register doubles as the flag of arithmetic and drawing.

A program keeps index and counter below 2¹⁶, the depth of the stack between 0 and 16 and the timers
in a byte, but a host may assign them any integer. The operations below say what then holds.
-/

namespace ChipEight

/-- The state of a processor. -/
structure Processor where
  /-- The registers V0 … VF. -/
  v : Vector UInt8 16
  /-- The index register I. -/
  i : Int
  /-- The program counter. -/
  pc : Int
  /-- The stack slots, in use or not. -/
  stack : Vector UInt16 16
  /-- How many stack slots are in use. -/
  sp : Int
  /-- The delay timer. -/
  delay : Int
  /-- The sound timer. -/
  sound : Int
  /-- The register that waits for a key, if one does. -/
  waiting : Option Int
  deriving DecidableEq

namespace Processor

/-- The number of the flag register VF. -/
def flag : Fin 16 := 15

/-- The number of the register that a jump takes its offset from. -/
def offset : Fin 16 := 0

/-- The number of stack slots. -/
def stackDepth : Nat := 16

/-- A processor at power-on, about to begin at an address. -/
def create (start : Int) : Processor where
  v := Vector.replicate 16 0
  i := 0
  pc := start
  stack := Vector.replicate 16 0
  sp := 0
  delay := 0
  sound := 0
  waiting := none

/-- The value of a register. -/
def register (p : Processor) (x : Fin 16) : UInt8 :=
  p.v.get x

/-- Sets a register. -/
def setRegister (p : Processor) (x : Fin 16) (value : UInt8) : Processor :=
  { p with v := p.v.setIfInBounds x value }

/-- Sets the flag register. -/
def setFlag (p : Processor) (value : UInt8) : Processor :=
  p.setRegister flag value

/-- Sets the register that a signed position names, to a value cut to a byte. -/
def setRegisterAt (p : Processor) (position value : Int) : Except Misuse Processor :=
  match Position.resolve? 16 position with
  | some x => .ok (p.setRegister x (lowByte value))
  | none => .error (Capacity.missingPosition position .noSlotToWrite)

/-- Sets the index, cut to 16 bits. -/
def setIndex (p : Processor) (value : Int) : Processor :=
  { p with i := wrapAddress value }

/-- The address of the next instruction; past the last address comes the first. -/
def next (p : Processor) : Int :=
  wrapAddress (p.pc + 2)

/-- Pushes a return address, cut to 16 bits. -/
def push (p : Processor) (address : Int) : Except Error Processor :=
  if stackDepth ≤ p.sp then
    .error (.fault { cause := .stackOverflow stackDepth, address := p.pc })
  else
    match Position.resolve? 16 p.sp with
    | some slot =>
      .ok { p with stack := p.stack.setIfInBounds slot (lowWord address), sp := p.sp + 1 }
    | none => .error (.misuse (Capacity.missingPosition p.sp .noSlotToWrite))

/-- Pops a return address. The depth is lowered before the slot is read, and stays so even where
a host has put it where there is no slot; the slot keeps its value. -/
def pop : Action Processor UInt16 := fun p =>
  if p.sp = 0 then
    .error (.fault { cause := .stackUnderflow, address := p.pc }) p
  else
    let p' := { p with sp := p.sp - 1 }
    match Position.resolve? 16 p'.sp with
    | some slot => .ok (p'.stack.get slot) p'
    | none => .error (.misuse (Capacity.missingPosition p'.sp .noSlotToRead)) p'

/-- The stack slots in use, the outermost call first. -/
def calls (p : Processor) : List UInt16 :=
  p.stack.toList.take (Position.cut 16 p.sp)

/-- A timer one period later. -/
def lowered (timer : Int) : Int :=
  if 0 < timer then timer - 1 else timer

/-- Lowers both timers by one, not below zero. -/
def tick (p : Processor) : Processor :=
  { p with delay := lowered p.delay, sound := lowered p.sound }

/-- Whether a register waits for a key. -/
def awaitingKey (p : Processor) : Bool :=
  p.waiting.isSome

end Processor

end ChipEight
