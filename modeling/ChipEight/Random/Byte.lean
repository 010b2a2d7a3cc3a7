import ChipEight.Random.Twister

/-!
# Random bytes

A byte is drawn from the top nine bits of an output: outputs are taken until these are below 256,
that is, until one has its highest bit clear.

The highest bits of successive outputs satisfy a linear recurrence of degree 19937 whose
characteristic polynomial has an odd number of terms, so after 19937 bits that are set the next one
is clear. Hence 19938 outputs always suffice.
-/

namespace ChipEight.Random

/-- The words of a number in base 2³², the least significant first; 0 has the one word 0. -/
def seedWords (n : Nat) : List UInt32 :=
  (List.range (n.log2 / 32 + 1)).map fun k => UInt32.ofNat (n >>> (32 * k))

/-- The generator for an integer seed, whose sign does not matter. -/
def ofSeed (seed : Int) : Twister :=
  Twister.ofWords (seedWords seed.natAbs)

/-- The generator for a seed. Without one it begins in a state that is left to chance. -/
def seeded (chance : Twister) : Option Int → Twister
  | some seed => ofSeed seed
  | none => chance

/-- How many outputs suffice for a byte. -/
def outputsNeeded : Nat := 19938

/-- Draws a byte from at most `n` outputs. -/
def byteWithin : Nat → Twister → UInt8 × Twister
  | 0, g => (0, g)
  | n + 1, g =>
    let (word, g') := g.output
    let top := word >>> 23
    if top < 256 then (top.toUInt8, g') else byteWithin n g'

/-- Draws a byte. -/
def byte (g : Twister) : UInt8 × Twister :=
  byteWithin outputsNeeded g

end ChipEight.Random
