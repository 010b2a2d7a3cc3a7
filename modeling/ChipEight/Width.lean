/-!
# Fixed widths

Registers hold bytes and addresses are words, while a host may name any integer. A value is
brought into its width by taking its residue, so a negative integer is read in two's complement.
The two equations at the end say exactly that.
-/

namespace ChipEight

/-- The low eight bits of an integer. -/
def lowByte (n : Int) : UInt8 :=
  UInt8.ofNat (n % 256).toNat

/-- The low sixteen bits of an integer. -/
def lowWord (n : Int) : UInt16 :=
  UInt16.ofNat (n % 65536).toNat

/-- The residue of an integer modulo 2¹⁶, the address it stands for. -/
def wrapAddress (n : Int) : Int :=
  n % 65536

theorem toNat_lowByte (n : Int) : ((lowByte n).toNat : Int) = n % 256 := by
  simp only [lowByte, UInt8.toNat_ofNat']
  omega

theorem toNat_lowWord (n : Int) : ((lowWord n).toNat : Int) = n % 65536 := by
  simp only [lowWord, UInt16.toNat_ofNat']
  omega

end ChipEight
