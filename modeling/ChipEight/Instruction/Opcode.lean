import ChipEight.Text.Hexadecimal

/-!
# Opcodes

An instruction word and its fields. A word is given as an integer; the fields are those of its low
sixteen bits, while its text shows all of it.
-/

namespace ChipEight

/-- An instruction word. -/
structure Opcode where
  word : Int
  deriving DecidableEq, Repr

namespace Opcode

/-- The low sixteen bits. -/
def bits (op : Opcode) : Nat :=
  (op.word % 65536).toNat

/-- The highest four bits, which say what group of instructions the word belongs to. -/
def group (op : Opcode) : Fin 16 :=
  ⟨op.bits / 4096, by unfold bits; omega⟩

/-- The low twelve bits: an address. -/
def nnn (op : Opcode) : Fin 4096 :=
  ⟨op.bits % 4096, by omega⟩

/-- The low eight bits: a byte. -/
def nn (op : Opcode) : UInt8 :=
  UInt8.ofNat op.bits

/-- The low four bits. -/
def n (op : Opcode) : Fin 16 :=
  ⟨op.bits % 16, by omega⟩

/-- The second highest four bits: a register. -/
def x (op : Opcode) : Fin 16 :=
  ⟨op.bits / 256 % 16, by omega⟩

/-- The second lowest four bits: a register. -/
def y (op : Opcode) : Fin 16 :=
  ⟨op.bits / 16 % 16, by omega⟩

def text (op : Opcode) : String :=
  Text.Hexadecimal.word op.word

theorem toNat_nn (op : Opcode) : op.nn.toNat = op.bits % 256 := by
  simp [nn]

end Opcode

end ChipEight
