/-!
# The twister

A generator of 32-bit words with a state of 624 words, whose outputs satisfy a linear recurrence
over bits with a primitive characteristic polynomial of degree 19937. The state is a ring: each
output first renews the word at `next` from the two words there and the one 397 places on, then
tempers it, so after 624 outputs every word has been renewed once.
-/

namespace ChipEight.Random

/-- The state of the generator: a ring of words and the place of the one to be renewed next. -/
structure Twister where
  words : Vector UInt32 624
  next : Fin 624
  deriving DecidableEq

namespace Twister

/-- The high bit of one word with the low bits of the next, shifted through the recurrence. -/
def twist (high low : UInt32) : UInt32 :=
  let joined := (high &&& 0x80000000) ||| (low &&& 0x7FFFFFFF)
  (joined >>> 1) ^^^ (if joined &&& 1 = 0 then 0 else 0x9908B0DF)

/-- Spreads the bits of a renewed word over the output. -/
def temper (word : UInt32) : UInt32 :=
  let a := word ^^^ (word >>> 11)
  let b := a ^^^ ((a <<< 7) &&& 0x9D2C5680)
  let c := b ^^^ ((b <<< 15) &&& 0xEFC60000)
  c ^^^ (c >>> 18)

/-- The next output, and the state after it. -/
def output (g : Twister) : UInt32 × Twister :=
  let renewed := g.words[g.next + 397] ^^^ twist g.words[g.next] g.words[g.next + 1]
  (temper renewed, { words := g.words.set g.next renewed, next := g.next + 1 })

/-! ## Seeding

The ring is filled by a fixed linear sequence, and then two sweeps mix the words of the seed into
it. A sweep goes around the places 1 … 623 again and again; when it passes the last of them, the
last word is copied to place 0.
-/

/-- What a word adds to the one after it while the ring is mixed. -/
def spread (word : UInt32) : UInt32 :=
  word ^^^ (word >>> 30)

/-- The words of the fixed sequence that follow `word`, from number `k` on. -/
def fixedFrom : Nat → Nat → UInt32 → List UInt32
  | 0, _, _ => []
  | n + 1, k, word =>
    let following := 1812433253 * spread word + UInt32.ofNat k
    following :: fixedFrom n (k + 1) following

/-- The ring before a seed is mixed in. -/
def fixedRing : Vector UInt32 624 :=
  Vector.ofFn fun k => (19650218 :: fixedFrom 623 1 19650218).getD k.val 0

/-- A ring that is being mixed, and the place to be changed next, from 1 on. -/
structure Mixing where
  words : Vector UInt32 624
  place : Fin 624

/-- Changes one word: multiplies in the one before it and adds a term. -/
def Mixing.step (factor : UInt32) (m : Mixing) (term : UInt32) : Mixing :=
  let before := m.words[m.place - 1]
  let words := m.words.set m.place ((m.words[m.place] ^^^ (spread before * factor)) + term)
  if m.place = 623 then
    { words := words.set 0 words[623], place := 1 }
  else
    { words, place := m.place + 1 }

/-- The terms that a seed's words contribute: each word with its number added, again and again
until both the ring and the seed have been gone through. -/
def seedTerms (seed : List UInt32) : List UInt32 :=
  let numbered := (seed.zipIdx.map fun (word, k) => word + UInt32.ofNat k).toArray
  (List.range (max 624 seed.length)).map fun k => numbered.getD (k % numbered.size) 0

/-- The generator for a seed of 32-bit words. -/
def ofWords (seed : List UInt32) : Twister :=
  let filled := (seedTerms seed).foldl (Mixing.step 1664525) { words := fixedRing, place := 1 }
  let mixed := (List.range 623).foldl
    (fun m _ => m.step 1566083941 (0 - UInt32.ofNat m.place.val)) filled
  { words := mixed.words.set 0 0x80000000, next := 0 }

end Twister

end ChipEight.Random
