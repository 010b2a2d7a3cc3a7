import ChipEight.Capacity
import ChipEight.Fault
import ChipEight.Memory.Font
import ChipEight.Position
import ChipEight.Width

/-!
# Memory

Bytes with addresses from 0. Reads and writes are checked against the nominal `size`, from which
the number of bytes held may differ: the font and a program image are laid down without that
check, and lengthen a memory too small for them.

The equations at the end say what laying and storing do to the bytes held, position by position.
-/

namespace ChipEight

/-- A memory: its nominal size and the bytes it holds. -/
structure Memory where
  size : Nat
  bytes : Array UInt8
  deriving DecidableEq

namespace Memory

/-- The size of a machine's memory. -/
def standardSize : Nat := 4096

/-- Where programs begin. -/
def programStart : Nat := 512

/-- The size of the largest program image that fits. -/
def programLimit : Nat := standardSize - programStart

/-- Lays bytes over the place `start`, or at the end of a shorter sequence. -/
def lay (bytes : Array UInt8) (start : Nat) (block : List UInt8) : Array UInt8 :=
  bytes.extract 0 start ++ block.toArray ++ bytes.extract (start + block.length) bytes.size

/-- Stores bytes at consecutive places; nothing is stored past the end. -/
def store (bytes : Array UInt8) (start : Nat) : List UInt8 → Array UInt8
  | [] => bytes
  | b :: block => store (bytes.setIfInBounds start b) (start + 1) block

/-- A memory of zeros. -/
def blank (size : Nat) : Memory where
  size := size
  bytes := Array.replicate size 0

/-- Lays down the font. -/
def installFont (m : Memory) : Memory :=
  { m with bytes := lay m.bytes 0 Font.bytes }

/-- A memory as it is at power-on: zeros and the font. -/
def create (size : Nat) : Memory :=
  (blank size).installFont

/-- A memory of a size that a host names. -/
def create? (size : Int) : Except Misuse Memory :=
  (Capacity.checkSize size).map create

/-- Back to the power-on state; the nominal size stays. -/
def reset (m : Memory) : Memory :=
  create m.size

/-- Refuses a program image that is too large. -/
def checkProgram (size : Nat) : Except Fault Unit :=
  if programLimit < size then
    .error { cause := .programTooLarge size programLimit, address := programStart }
  else
    .ok ()

/-- Refuses a program image of a length that no byte string has, or that is too large. -/
def checkLength (length : Int) : Except Error Unit :=
  match Capacity.checkLength length with
  | .error misuse => .error (.misuse misuse)
  | .ok size => (checkProgram size).mapError .fault

/-- Lays down a program image of an admissible size. -/
def placeProgram (m : Memory) (image : List UInt8) : Memory :=
  { m with bytes := lay m.bytes programStart image }

/-- Lays down a program image. -/
def loadProgram (m : Memory) (image : List UInt8) : Except Fault Memory := do
  checkProgram image.length
  return m.placeProgram image

/-- Whether `length` bytes from `address` lie inside the nominal size. -/
def InRange (m : Memory) (address length : Int) : Prop :=
  0 ≤ address ∧ address + length ≤ m.size

instance (m : Memory) (address length : Int) : Decidable (m.InRange address length) :=
  inferInstanceAs (Decidable (_ ∧ _))

/-- Refuses an access that does not lie inside the nominal size. -/
def checkRange (m : Memory) (address length : Int) : Except Fault Unit :=
  if m.InRange address length then
    .ok ()
  else
    .error { cause := .addressOutOfRange address, address }

/-- The byte held at a place, 0 where none is. -/
def byteAt (m : Memory) (place : Nat) : UInt8 :=
  m.bytes.getD place 0

/-- Reads a byte. -/
def read (m : Memory) (address : Int) : Except Fault UInt8 := do
  m.checkRange address 1
  return m.byteAt address.toNat

/-- Reads a word, the high byte first. -/
def readWord (m : Memory) (address : Int) : Except Fault Nat := do
  m.checkRange address 2
  return 256 * (m.byteAt address.toNat).toNat + (m.byteAt (address.toNat + 1)).toNat

/-- Reads the bytes from `address` up to `address + length`, where an end below 0 counts from
the end of the bytes held. -/
def readBlock (m : Memory) (address length : Int) : Except Fault (List UInt8) := do
  m.checkRange address length
  let held := m.bytes.size
  return (m.bytes.extract (Position.cut held address) (Position.cut held (address + length))).toList

/-- Writes a byte. -/
def write (m : Memory) (address : Int) (value : UInt8) : Except Fault Memory := do
  m.checkRange address 1
  return { m with bytes := m.bytes.setIfInBounds address.toNat value }

/-- Writes consecutive bytes. -/
def writeBlock (m : Memory) (address : Int) (block : List UInt8) : Except Fault Memory := do
  m.checkRange address block.length
  return { m with bytes := store m.bytes address.toNat block }

/-! ## What storing and laying do to the bytes held -/

/-- Storing keeps the number of bytes. -/
@[simp]
theorem size_store (bytes : Array UInt8) (start : Nat) (block : List UInt8) :
    (store bytes start block).size = bytes.size := by
  induction block generalizing bytes start with
  | nil => rfl
  | cons b block ih => simp [store, ih]

/-- A place holds the stored byte where one was stored, and what it held elsewhere. -/
theorem getElem?_store (bytes : Array UInt8) (start : Nat) (block : List UInt8) (k : Nat) :
    (store bytes start block)[k]? =
      if start ≤ k ∧ k < start + block.length ∧ k < bytes.size then
        block[k - start]?
      else
        bytes[k]? := by
  induction block generalizing bytes start with
  | nil => simp [store]; omega
  | cons b block ih =>
    rw [store, ih]
    simp only [Array.size_setIfInBounds, List.length_cons, Array.getElem?_setIfInBounds]
    by_cases hk : k = start
    · subst hk
      have hnot : ¬ k + 1 ≤ k := by omega
      by_cases hs : k < bytes.size
      · simp [hs, hnot]
      · simp [hs]
    · by_cases hle : start + 1 ≤ k
      · have hsub : k - start = (k - (start + 1)) + 1 := by omega
        have hne : ¬ start = k := fun h => hk h.symm
        simp only [hsub, List.getElem?_cons_succ, hne, if_false]
        congr 1
        apply propext
        omega
      · have hne : ¬ start = k := fun h => hk h.symm
        have hlt : ¬ start ≤ k := by omega
        simp [hne, hlt]
        omega

/-- Laying over a place inside the sequence lengthens it only past its end. -/
theorem size_lay (bytes : Array UInt8) (start : Nat) (block : List UInt8) :
    (lay bytes start block).size =
      min start bytes.size + block.length + (bytes.size - (start + block.length)) := by
  simp only [lay, Array.size_append, Array.size_extract, List.size_toArray]
  omega

end Memory

end ChipEight
