import ChipEight.Machine.Execute
import ChipEight.Notice

/-!
# Cycles

A cycle of the machine is found first and performed then. What it will be depends on the machine
alone (`Machine.cycle`): while a register waits for a key, the keypad decides, else the word at the
program counter. A word that is no instruction is stepped over.

A step performs a cycle and counts it. A fault leaves the step with its context: the number of the
step, the counter at its beginning and the word, if one was fetched.
-/

namespace ChipEight

/-- What the machine does in one step. -/
inductive Cycle where
  /-- A register waits for a key and none is down. -/
  | idle
  /-- A register has waited and this key is down. -/
  | deliver (key : Fin 16) (register : Int)
  /-- No word can be fetched. -/
  | stray (fault : Fault)
  /-- The word is no instruction. -/
  | skip (op : Opcode)
  /-- The word is this instruction. -/
  | perform (op : Opcode) (instruction : Instruction)
  deriving DecidableEq, Repr

/-- The word that a cycle has fetched. -/
def Cycle.word? : Cycle → Option Int
  | skip op => some op.word
  | perform op _ => some op.word
  | _ => none

namespace Machine

/-- The last address that a word can be fetched from. -/
def lastFetch : Int :=
  Memory.standardSize - 2

/-- Whether a word can be fetched at a counter: programs stand at even addresses from their start
on. -/
def Fetchable (pc : Int) : Prop :=
  start ≤ pc ∧ pc ≤ lastFetch ∧ pc % 2 = 0

instance (pc : Int) : Decidable (Fetchable pc) :=
  inferInstanceAs (Decidable (_ ∧ _))

def fetch (m : Machine) : Except Fault Opcode :=
  let pc := m.processor.pc
  if Fetchable pc then
    (m.memory.readWord pc).map fun word => ⟨word⟩
  else
    .error { cause := .counterOutOfRange pc, address := pc }

/-- The cycle that the machine is about to perform. -/
def cycle (m : Machine) : Cycle :=
  match m.processor.waiting with
  | some register =>
    match m.keypad.firstPressed with
    | some key => .deliver key register
    | none => .idle
  | none =>
    match m.fetch with
    | .error fault => .stray fault
    | .ok op =>
      match Instruction.decode? op with
      | some instruction => .perform op instruction
      | none => .skip op

/-- What a host is told when a cycle begins at `pc`, whether or not the cycle then succeeds. -/
def noticeOf (pc : Int) : Cycle → Option Notice
  | .deliver key register => some (.keyStored key.val register)
  | .skip op => some (.skipped op.word pc)
  | _ => none

/-- What a host is told by the step that the machine is about to perform. -/
def notice? (m : Machine) : Option Notice :=
  noticeOf m.processor.pc m.cycle

/-- Puts a key into the register that waited for it, ends the wait and goes on. -/
def deliverKey (key : Fin 16) (register : Int) : Action Machine Unit := fun m =>
  match m.processor.setRegisterAt register key.val with
  | .ok p => .ok () { m with processor := { p with waiting := none, pc := p.next } }
  | .error misuse => .error (.misuse misuse) m

/-- Executes an instruction and sets the program counter to where the program goes on. -/
def follow (instruction : Instruction) : Action Machine Unit := fun m =>
  let pc := m.processor.pc
  match execute instruction m with
  | .ok flow m' => .ok () (m'.mapProcessor fun p => { p with pc := flow.target pc })
  | .error e m' => .error e m'

def performCycle : Cycle → Action Machine Unit
  | .idle => fun m => .ok () m
  | .deliver key register => deliverKey key register
  | .stray fault => fun m => .error (.fault fault) m
  | .skip _ => fun m => .ok () (m.mapProcessor fun p => { p with pc := p.next })
  | .perform _ instruction => follow instruction

/-- Performs the cycle that the machine is about to perform, and counts it. -/
def step : Action Machine Unit := fun m =>
  let cycle := m.cycle
  let number := m.cycles + 1
  let pc := m.processor.pc
  match performCycle cycle m with
  | .ok () m' => .ok () { m' with cycles := number }
  | .error e m' => .error (e.inStep number pc cycle.word?) m'

end Machine

end ChipEight
