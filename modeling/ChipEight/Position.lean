/-!
# Signed positions

A position in a sequence of `len` entries is an integer: `0, 1, …` count from the front and
`-1, -2, …` from the end. `resolve?` finds the entry that a position names, `cut` the place where
a slice that begins or ends there divides the sequence.
-/

namespace ChipEight.Position

/-- The entry that position `k` names, if there is one. -/
def resolve? (len : Nat) (k : Int) : Option (Fin len) :=
  if h : 0 ≤ k ∧ k < len then
    some ⟨k.toNat, by omega⟩
  else if h : k < 0 ∧ 0 ≤ k + len then
    some ⟨(k + len).toNat, by omega⟩
  else
    none

/-- How many entries lie before the cut at position `k`; a cut past either end falls on it. -/
def cut (len : Nat) (k : Int) : Nat :=
  if k < 0 then (k + len).toNat else min k.toNat len

/-- A position counted from the front names the entry of that number. -/
theorem resolve?_ofNat {len k : Nat} (h : k < len) :
    resolve? len k = some ⟨k, h⟩ := by
  simp [resolve?, h]

/-- A cut at a position counted from the front, inside the sequence, lies where the position
says. -/
theorem cut_of_mem {len : Nat} {k : Int} (h : 0 ≤ k ∧ k ≤ len) : cut len k = k.toNat := by
  unfold cut
  split <;> omega

end ChipEight.Position
