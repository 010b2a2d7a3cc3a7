import ChipEight.Fault

/-!
# How large things can be

Sizes and positions are addressed in 64 bits with a sign. What is asked for outside that range is
refused before anything else; of the sizes inside it only those below a capacity can be held.
-/

namespace ChipEight.Capacity

/-- The least integer that is no position and no size. -/
def limit : Int := 0x8000000000000000

/-- Whether an integer can be a position or a size at all. -/
def Addressable (n : Int) : Prop :=
  -limit ≤ n ∧ n < limit

instance (n : Int) : Decidable (Addressable n) :=
  inferInstanceAs (Decidable (_ ∧ _))

/-- The least size of a sequence for which there is no room. -/
def room : Int := 0x1000000000

/-- The size of a sequence that a host asks for. -/
def checkSize (n : Int) : Except Misuse Nat :=
  if ¬ Addressable n then .error .unaddressableSize
  else if n < 0 then .error .negativeSize
  else if room ≤ n then .error .noRoom
  else .ok n.toNat

/-- The bytes that a byte string takes besides its content. -/
def stringHeader : Int := 33

/-- The length of a byte string that a host asks for. With what it takes besides, it has to be
addressable. -/
def checkLength (n : Int) : Except Misuse Nat :=
  if Addressable n ∧ ¬ Addressable (n + stringHeader) then .error .oversizedString
  else checkSize n

/-- The misuse of naming a position that does not exist; `absent` is meant where the position could
exist in a longer sequence. -/
def missingPosition (position : Int) (absent : Misuse) : Misuse :=
  if Addressable position then absent else .unaddressablePosition

end ChipEight.Capacity
