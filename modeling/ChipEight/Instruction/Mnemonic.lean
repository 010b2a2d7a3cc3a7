import ChipEight.Instruction.Decode

/-!
# Mnemonics

The name of each form of instruction, and a table of words by name: neighbouring words of one form
make one run.
-/

namespace ChipEight

namespace Instruction

def Test.mnemonic : Test → String
  | eqByte _ _ => "se_byte"
  | neByte _ _ => "sne_byte"
  | eq _ _ => "se_reg"
  | ne _ _ => "sne_reg"
  | keyDown _ => "skp"
  | keyUp _ => "sknp"

def Alu.mnemonic : Alu → String
  | copy => "ld_reg"
  | or => "or"
  | and => "and"
  | xor => "xor"
  | add => "add_reg"
  | sub => "sub"
  | shiftRight => "shr"
  | subFrom => "subn"
  | shiftLeft => "shl"

/-- The mnemonic of an instruction, by which its form is known. -/
def mnemonic : Instruction → String
  | clearScreen => "cls"
  | ret => "ret"
  | jump _ => "jp"
  | call _ => "call"
  | skipIf test => test.mnemonic
  | load _ _ => "ld_byte"
  | addByte _ _ => "add_byte"
  | combine op _ _ => op.mnemonic
  | setIndex _ => "ld_i"
  | jumpOffset _ => "jp_v0"
  | random _ _ => "rnd"
  | draw _ _ _ => "drw"
  | readDelay _ => "ld_vx_dt"
  | awaitKey _ => "ld_key"
  | setDelay _ => "ld_dt"
  | setSound _ => "ld_st"
  | addIndex _ => "add_i"
  | pointGlyph _ => "ld_font"
  | storeDecimal _ => "ld_bcd"
  | storeRegisters _ => "store_regs"
  | loadRegisters _ => "load_regs"

/-- The mnemonic of a word, if it is an instruction. -/
def mnemonic? (op : Opcode) : Option String :=
  (decode? op).map mnemonic

/-- The runs among `count` words from `word` on, where the word before them had the mnemonic
`last`; each run is given by its first word and the mnemonic. -/
def runsAfter (last : Option String) : Nat → Int → List (Int × Option String)
  | 0, _ => []
  | n + 1, word =>
    let current := mnemonic? ⟨word⟩
    if current = last then
      runsAfter last n (word + 1)
    else
      (word, current) :: runsAfter current n (word + 1)

/-- The runs among `count` words from `word` on. -/
def runs (word : Int) : Nat → List (Int × Option String)
  | 0 => []
  | n + 1 => (word, mnemonic? ⟨word⟩) :: runsAfter (mnemonic? ⟨word⟩) n (word + 1)

end Instruction

end ChipEight
