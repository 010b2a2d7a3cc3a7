import ChipEight.Fault
import ChipEight.Instruction.Basic
import ChipEight.Instruction.Opcode

/-!
# Decoding

Which instruction a word stands for. The group decides; in five groups a second field does too,
the low byte (groups 0, E and F) or the low four bits (groups 8 and 9). Fields that are neither
operands nor decide anything are not looked at, so group 0 is decoded by its low byte alone.
-/

namespace ChipEight.Instruction

/-- The combination that a number stands for. -/
def Alu.ofNat? : Nat → Option Alu
  | 0x0 => some .copy
  | 0x1 => some .or
  | 0x2 => some .and
  | 0x3 => some .xor
  | 0x4 => some .add
  | 0x5 => some .sub
  | 0x6 => some .shiftRight
  | 0x7 => some .subFrom
  | 0xE => some .shiftLeft
  | _ => none

/-- The instructions of group 0, by the low byte. -/
def system? : Nat → Option Instruction
  | 0xE0 => some .clearScreen
  | 0xEE => some .ret
  | _ => none

/-- The instructions of group E, by the low byte. -/
def keyTest? (x : Fin 16) : Nat → Option Instruction
  | 0x9E => some (.skipIf (.keyDown x))
  | 0xA1 => some (.skipIf (.keyUp x))
  | _ => none

/-- The instructions of group F, by the low byte. -/
def device? (x : Fin 16) : Nat → Option Instruction
  | 0x07 => some (.readDelay x)
  | 0x0A => some (.awaitKey x)
  | 0x15 => some (.setDelay x)
  | 0x18 => some (.setSound x)
  | 0x1E => some (.addIndex x)
  | 0x29 => some (.pointGlyph x)
  | 0x33 => some (.storeDecimal x)
  | 0x55 => some (.storeRegisters x)
  | 0x65 => some (.loadRegisters x)
  | _ => none

/-- The instruction of a word, if it has one. -/
def decode? (op : Opcode) : Option Instruction :=
  match op.group.val with
  | 0x0 => system? op.nn.toNat
  | 0x1 => some (.jump op.nnn)
  | 0x2 => some (.call op.nnn)
  | 0x3 => some (.skipIf (.eqByte op.x op.nn))
  | 0x4 => some (.skipIf (.neByte op.x op.nn))
  | 0x5 => some (.skipIf (.eq op.x op.y))
  | 0x6 => some (.load op.x op.nn)
  | 0x7 => some (.addByte op.x op.nn)
  | 0x8 => (Alu.ofNat? op.n.val).map fun alu => .combine alu op.x op.y
  | 0x9 => if op.n.val = 0 then some (.skipIf (.ne op.x op.y)) else none
  | 0xA => some (.setIndex op.nnn)
  | 0xB => some (.jumpOffset op.nnn)
  | 0xC => some (.random op.x op.nn)
  | 0xD => some (.draw op.x op.y op.n)
  | 0xE => keyTest? op.x op.nn.toNat
  | 0xF => device? op.x op.nn.toNat
  | _ => none

/-- The instruction of a word, or the fault that it has none. -/
def decode (op : Opcode) : Except Fault Instruction :=
  match decode? op with
  | some instruction => .ok instruction
  | none => .error { cause := .unknownOpcode op.word, opcode := some op.word }

example : decode? ⟨0x00EE⟩ = some .ret ∧ decode? ⟨0x0FEE⟩ = some .ret := by decide +kernel

example : decode? ⟨0x5AB7⟩ = some (.skipIf (.eq 10 11)) ∧ decode? ⟨0x9AB7⟩ = none := by
  decide +kernel

end ChipEight.Instruction
