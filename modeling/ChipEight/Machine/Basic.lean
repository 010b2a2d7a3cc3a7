import ChipEight.Instruction.Decode
import ChipEight.Keypad.Basic
import ChipEight.Processor.Basic
import ChipEight.Random.Byte
import ChipEight.Screen.Basic

/-!
# The machine

A processor with its memory, screen, keypad and source of random bytes, and the number of cycles
completed since the last reset. A host reads and sets the parts between cycles and lowers the
timers sixty times a second.
-/

namespace ChipEight

/-- The state of a machine. -/
structure Machine where
  processor : Processor
  memory : Memory
  screen : Screen
  keypad : Keypad
  random : Random.Twister
  cycles : Nat
  deriving DecidableEq

namespace Machine

/-- Where programs begin, as a program counter. -/
def start : Int :=
  Memory.programStart

/-- A machine at power-on, with a source of random bytes. -/
def powerOn (random : Random.Twister) : Machine where
  processor := Processor.create start
  memory := Memory.create Memory.standardSize
  screen := Screen.create Screen.standardWidth Screen.standardHeight
  keypad := Keypad.create
  random := random
  cycles := 0

/-- A new machine, seeded or left to chance. -/
def create (chance : Random.Twister) (seed : Option Int) : Machine :=
  powerOn (Random.seeded chance seed)

/-- Seeds the source of random bytes anew, or leaves it to chance. -/
def reseed (m : Machine) (chance : Random.Twister) (seed : Option Int) : Machine :=
  { m with random := Random.seeded chance seed }

/-- Returns every part to its state at power-on, except the source of random bytes. -/
def reset (m : Machine) : Machine where
  processor := Processor.create start
  memory := m.memory.reset
  screen := m.screen.reset
  keypad := Keypad.create
  random := m.random
  cycles := 0

def tick (m : Machine) : Machine :=
  { m with processor := m.processor.tick }

def soundActive (m : Machine) : Bool :=
  0 < m.processor.sound

def register (m : Machine) (x : Fin 16) : UInt8 :=
  m.processor.register x

/-! ## Loading a program -/

/-- Resets the machine and lays down a program image, unless it is too large. -/
def loadProgram (m : Machine) (image : List UInt8) : Except Fault Machine := do
  Memory.checkProgram image.length
  let fresh := m.reset
  return { fresh with memory := fresh.memory.placeProgram image }

/-- The bytes that a list of integers gives, if all of them are bytes. -/
def imageOfNumbers (values : List Int) : Except Misuse (List UInt8) :=
  if values.all fun n => 0 ≤ n ∧ n < 256 then .ok (values.map lowByte) else .error .notAByte

end Machine

end ChipEight
