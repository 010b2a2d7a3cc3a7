/-!
# Instructions

The instructions of the machine as data, with the arithmetic of those that combine two registers.
-/

namespace ChipEight

/-- The condition of a skip. -/
inductive Instruction.Test where
  /-- A register holds this byte. -/
  | eqByte (x : Fin 16) (byte : UInt8)
  /-- A register holds another byte. -/
  | neByte (x : Fin 16) (byte : UInt8)
  /-- Two registers agree. -/
  | eq (x y : Fin 16)
  /-- Two registers differ. -/
  | ne (x y : Fin 16)
  /-- The key that a register names is down. -/
  | keyDown (x : Fin 16)
  /-- The key that a register names is up. -/
  | keyUp (x : Fin 16)
  deriving DecidableEq, Repr

/-- How two registers are combined. -/
inductive Instruction.Alu where
  | copy
  | or
  | and
  | xor
  | add
  | sub
  | shiftRight
  | subFrom
  | shiftLeft
  deriving DecidableEq, Repr

/-- What a combination gives: a byte, and a flag unless the flag register is left alone. -/
structure Instruction.Alu.Outcome where
  value : UInt8
  flag : Option Bool
  deriving DecidableEq, Repr

/-- The byte that an outcome leaves in the flag register, if that held `old`. -/
def Instruction.Alu.Outcome.flagByte (outcome : Instruction.Alu.Outcome) (old : UInt8) : UInt8 :=
  outcome.flag.elim old fun bit => if bit then 1 else 0

/-- Combines the values of the first and the second register. Sums, differences and shifts are
residues modulo 256, and their flag says what was lost: the carry, that a difference is positive,
the bit shifted out. -/
def Instruction.Alu.apply (op : Instruction.Alu) (a b : UInt8) : Instruction.Alu.Outcome :=
  match op with
  | copy => ⟨b, none⟩
  | or => ⟨a ||| b, none⟩
  | and => ⟨a &&& b, none⟩
  | xor => ⟨a ^^^ b, none⟩
  | add => ⟨a + b, some (255 < a.toNat + b.toNat)⟩
  | sub => ⟨a - b, some (b < a)⟩
  | shiftRight => ⟨UInt8.ofNat (a.toNat / 2), some (a.toNat % 2 = 1)⟩
  | subFrom => ⟨b - a, some (a < b)⟩
  | shiftLeft => ⟨UInt8.ofNat (2 * a.toNat), some (128 ≤ a.toNat)⟩

/-- An instruction of the machine. -/
inductive Instruction where
  /-- Turns the screen off. -/
  | clearScreen
  /-- Returns from the innermost call. -/
  | ret
  /-- Goes on at an address. -/
  | jump (target : Fin 4096)
  /-- Calls a routine. -/
  | call (target : Fin 4096)
  /-- Steps over the following instruction if a condition holds. -/
  | skipIf (test : Instruction.Test)
  /-- Loads a byte into a register. -/
  | load (x : Fin 16) (byte : UInt8)
  /-- Adds a byte to a register, without a flag. -/
  | addByte (x : Fin 16) (byte : UInt8)
  /-- Combines two registers into the first. -/
  | combine (op : Instruction.Alu) (x y : Fin 16)
  /-- Sets the index. -/
  | setIndex (target : Fin 4096)
  /-- Goes on at an address plus register 0. -/
  | jumpOffset (target : Fin 4096)
  /-- Loads a random byte, masked. -/
  | random (x : Fin 16) (mask : UInt8)
  /-- Draws a sprite of `rows` rows from the index on, at the place that two registers give. -/
  | draw (x y rows : Fin 16)
  /-- Loads the delay timer into a register. -/
  | readDelay (x : Fin 16)
  /-- Loads the lowest key that is down, or waits for one. -/
  | awaitKey (x : Fin 16)
  /-- Sets the delay timer. -/
  | setDelay (x : Fin 16)
  /-- Sets the sound timer. -/
  | setSound (x : Fin 16)
  /-- Adds a register to the index. -/
  | addIndex (x : Fin 16)
  /-- Points the index at the glyph of a register's digit. -/
  | pointGlyph (x : Fin 16)
  /-- Stores the three decimal digits of a register from the index on. -/
  | storeDecimal (x : Fin 16)
  /-- Stores the registers up to `x` from the index on. -/
  | storeRegisters (x : Fin 16)
  /-- Loads the registers up to `x` from the index on. -/
  | loadRegisters (x : Fin 16)
  deriving DecidableEq, Repr

end ChipEight
