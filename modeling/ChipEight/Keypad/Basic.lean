import ChipEight.Fault

/-!
# The keypad

Sixteen keys, each up or down. A host sets them, a program looks at one by number or asks for the
lowest that is down. The two equations at the end say that the key that is found is the lowest.
-/

namespace ChipEight

/-- Which keys are down. -/
structure Keypad where
  down : Vector Bool 16
  deriving DecidableEq

namespace Keypad

def count : Nat := 16

/-- A keypad with every key up. -/
def create : Keypad where
  down := Vector.replicate 16 false

/-- The key of a number, if there is one. -/
def key? (k : Int) : Except Misuse (Fin 16) :=
  if h : 0 ≤ k ∧ k < 16 then .ok ⟨k.toNat, by omega⟩ else .error (.keyOutOfRange k)

/-- Puts a key down or up. -/
def set (pad : Keypad) (k : Int) (isDown : Bool) : Except Misuse Keypad := do
  let key ← key? k
  return { down := pad.down.setIfInBounds key isDown }

def press (pad : Keypad) (k : Int) : Except Misuse Keypad :=
  pad.set k true

def release (pad : Keypad) (k : Int) : Except Misuse Keypad :=
  pad.set k false

/-- Replaces the states of all keys, of which there must be sixteen. -/
def update (_ : Keypad) (states : List Bool) : Except Misuse Keypad :=
  if h : states.length = 16 then
    .ok { down := ⟨states.toArray, by simp [h]⟩ }
  else
    .error (.keyCount count states.length)

/-- The key that the low four bits of a number name. -/
def lowNibble (k : Int) : Fin 16 :=
  ⟨(k % 16).toNat, by omega⟩

/-- Whether the key that the low four bits of a number name is down. -/
def isPressed (pad : Keypad) (k : Int) : Bool :=
  pad.down.get (lowNibble k)

def firstPressed (pad : Keypad) : Option (Fin 16) :=
  (List.finRange 16).find? fun k => pad.down.get k

theorem firstPressed_eq_none_iff (pad : Keypad) :
    pad.firstPressed = none ↔ ∀ k, pad.down.get k = false := by
  simp [firstPressed]

/-- The key that is found first is the lowest one that is down. -/
theorem firstPressed_eq_some_iff (pad : Keypad) {key : Fin 16} :
    pad.firstPressed = some key ↔
      pad.down.get key = true ∧ ∀ k < key, pad.down.get k = false := by
  rw [firstPressed, List.find?_eq_some_iff_getElem]
  constructor
  · rintro ⟨hdown, i, hi, hkey, hbefore⟩
    rw [List.getElem_finRange] at hkey
    refine ⟨hdown, fun k hk => ?_⟩
    have hlt : k.val < i := by
      rw [← hkey] at hk
      exact hk
    simpa using hbefore k.val hlt
  · rintro ⟨hdown, hbefore⟩
    refine ⟨hdown, key.val, by simp, by simp, fun j hj => ?_⟩
    simpa using hbefore ⟨j, by omega⟩ hj

end Keypad

end ChipEight
