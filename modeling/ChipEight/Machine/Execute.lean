import ChipEight.Machine.Basic
import ChipEight.Processor.Registers

/-!
# Executing an instruction

What each instruction does to the machine, apart from the program counter: an instruction gives a
`Flow`, which says where the program goes on, and leaves the counter to the cycle that executes it.

An instruction that may fail checks first: where it fails, nothing has changed, unless a host has
put the depth of the stack where no slot is.
-/

namespace ChipEight

/-- Where a program goes on: after the instruction, or at an address. -/
inductive Flow where
  | advance
  | jump (target : Int)
  deriving DecidableEq, Repr

/-- The counter after an instruction at `pc`. -/
def Flow.target (pc : Int) : Flow → Int
  | advance => wrapAddress (pc + 2)
  | jump target => target

/-- The decimal digits of a byte: hundreds, tens and units. -/
def decimalDigits (value : UInt8) : List UInt8 :=
  [value / 100, value / 10 % 10, value % 10]

namespace Machine

/-- Changes the processor. -/
def mapProcessor (f : Processor → Processor) (m : Machine) : Machine :=
  { m with processor := f m.processor }

/-- Whether the condition of a skip holds. -/
def holds (m : Machine) : Instruction.Test → Bool
  | .eqByte x byte => m.register x = byte
  | .neByte x byte => m.register x ≠ byte
  | .eq x y => m.register x = m.register y
  | .ne x y => m.register x ≠ m.register y
  | .keyDown x => m.keypad.isPressed (m.register x).toNat
  | .keyUp x => !m.keypad.isPressed (m.register x).toNat

/-- An instruction that changes the processor alone and lets the program go on after it. -/
def onProcessor (f : Processor → Processor) : Action Machine Flow := fun m =>
  .ok .advance (m.mapProcessor f)

/-- Writes a block at the index. -/
def storeAtIndex (block : List UInt8) : Action Machine Flow := fun m =>
  match m.memory.writeBlock m.processor.i block with
  | .ok memory => .ok .advance { m with memory }
  | .error fault => .error (.fault fault) m

/-- Draws the sprite at the index and sets the flag to whether it collided. -/
def drawAtIndex (x y rows : Fin 16) : Action Machine Flow := fun m =>
  match m.memory.readBlock m.processor.i rows.val with
  | .error fault => .error (.fault fault) m
  | .ok sprite =>
    match m.screen.draw (m.register x).toNat (m.register y).toNat sprite with
    | .error misuse => .error (.misuse misuse) m
    | .ok (collided, screen) =>
      .ok .advance ({ m with screen }.mapProcessor fun p => p.setFlag (if collided then 1 else 0))

/-- Loads the lowest key that is down into a register, or lets the register wait for one and the
program stay where it is. -/
def loadKey (x : Fin 16) : Action Machine Flow := fun m =>
  match m.keypad.firstPressed with
  | some key => .ok .advance (m.mapProcessor fun p => p.setRegister x (UInt8.ofNat key.val))
  | none =>
    .ok (.jump m.processor.pc) (m.mapProcessor fun p => { p with waiting := some x.val })

/-- Loads a random byte into a register, masked. A byte is drawn whatever the mask. -/
def loadRandom (x : Fin 16) (mask : UInt8) : Action Machine Flow := fun m =>
  let (byte, random) := Random.byte m.random
  .ok .advance ({ m with random }.mapProcessor fun p => p.setRegister x (byte &&& mask))

/-- Loads the registers up to `x` from the index on. -/
def loadFromIndex (x : Fin 16) : Action Machine Flow := fun m =>
  match m.memory.readBlock m.processor.i (x.val + 1 : Nat) with
  | .ok block => .ok .advance (m.mapProcessor fun p => p.setRegisters block)
  | .error fault => .error (.fault fault) m

/-- Pushes the address after this instruction and goes on at the target. -/
def callRoutine (target : Fin 4096) : Action Machine Flow := fun m =>
  match m.processor.push (m.processor.pc + 2) with
  | .ok processor => .ok (.jump target.val) { m with processor }
  | .error e => .error e m

/-- Goes on at the address popped off the stack. -/
def returnFromCall : Action Machine Flow := fun m =>
  match m.processor.pop with
  | .ok address processor => .ok (.jump address.toNat) { m with processor }
  | .error e processor => .error e { m with processor }

/-- Executes an instruction. -/
def execute : Instruction → Action Machine Flow
  | .clearScreen => fun m => .ok .advance { m with screen := m.screen.clear }
  | .ret => returnFromCall
  | .jump target => fun m => .ok (.jump target.val) m
  | .call target => callRoutine target
  | .skipIf test => fun m =>
    .ok (if m.holds test then .jump (m.processor.pc + 4) else .advance) m
  | .load x byte => onProcessor fun p => p.setRegister x byte
  | .addByte x byte => onProcessor fun p => p.setRegister x (p.register x + byte)
  | .combine op x y => onProcessor fun p => p.combine op x y
  | .setIndex target => onProcessor fun p => p.setIndex target.val
  | .jumpOffset target => fun m =>
    .ok (.jump (wrapAddress (target.val + (m.register Processor.offset).toNat))) m
  | .random x mask => loadRandom x mask
  | .draw x y rows => drawAtIndex x y rows
  | .readDelay x => onProcessor fun p => p.setRegister x (lowByte p.delay)
  | .awaitKey x => loadKey x
  | .setDelay x => onProcessor fun p => { p with delay := (p.register x).toNat }
  | .setSound x => onProcessor fun p => { p with sound := (p.register x).toNat }
  | .addIndex x => onProcessor fun p => p.setIndex (p.i + (p.register x).toNat)
  | .pointGlyph x => onProcessor fun p =>
    p.setIndex (Memory.Font.glyphAddress (p.register x).toNat)
  | .storeDecimal x => fun m => storeAtIndex (decimalDigits (m.register x)) m
  | .storeRegisters x => fun m => storeAtIndex (m.processor.registersUpTo x) m
  | .loadRegisters x => loadFromIndex x

/-- Decodes a word and executes its instruction. -/
def executeWord (op : Opcode) : Action Machine Flow := fun m =>
  match Instruction.decode op with
  | .ok instruction => execute instruction m
  | .error fault => .error (.fault fault) m

end Machine

end ChipEight
