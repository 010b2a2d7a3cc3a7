import ChipEight.Instruction.Basic
import ChipEight.Processor.Basic

/-!
# Registers together

Operations on several registers at once: a register combined with another, and the first registers
as a list. A register read after one of these is what the equations at the end say.
-/

namespace ChipEight

namespace Processor

/-- The registers up to `x`. -/
def registersUpTo (p : Processor) (x : Fin 16) : List UInt8 :=
  p.v.toList.take (x.val + 1)

/-- Sets as many registers, from the first on, as there are values. -/
def setRegisters (p : Processor) (values : List UInt8) : Processor :=
  { p with v := Vector.ofFn fun k => values[k.val]?.getD (p.v.get k) }

/-- Combines two registers. The flag is set before the result, so that the result stays where
both go to the flag register. -/
def combine (p : Processor) (op : Instruction.Alu) (x y : Fin 16) : Processor :=
  let outcome := op.apply (p.register x) (p.register y)
  match outcome.flag with
  | some flag => (p.setFlag (if flag then 1 else 0)).setRegister x outcome.value
  | none => p.setRegister x outcome.value

/-! ## Reading a register afterwards -/

/-- A register that was set holds the value, any other what it held. -/
theorem register_setRegister (p : Processor) (x y : Fin 16) (value : UInt8) :
    (p.setRegister x value).register y = if x = y then value else p.register y := by
  show (p.v.setIfInBounds x.val value)[y.val] = if x = y then value else p.v[y.val]
  rw [Vector.getElem_setIfInBounds]
  simp only [Fin.val_inj]

/-- A register after two were combined, whichever of them are the same: the result is looked for
first, since it is written over the flag. -/
theorem register_combine (p : Processor) (op : Instruction.Alu) (x y z : Fin 16) :
    (p.combine op x y).register z =
      if x = z then (op.apply (p.register x) (p.register y)).value
      else if flag = z then (op.apply (p.register x) (p.register y)).flagByte (p.register flag)
      else p.register z := by
  generalize houtcome : op.apply (p.register x) (p.register y) = outcome
  obtain ⟨value, _ | bit⟩ := outcome
  case none =>
    have hcombine : p.combine op x y = p.setRegister x value := by rw [combine, houtcome]
    rw [hcombine, register_setRegister]
    by_cases hflag : flag = z
    · rw [if_pos hflag, hflag]
      rfl
    · rw [if_neg hflag]
  case some =>
    have hcombine : p.combine op x y =
        (p.setFlag (if bit then 1 else 0)).setRegister x value := by rw [combine, houtcome]
    rw [hcombine, register_setRegister, setFlag, register_setRegister]
    rfl

theorem length_registersUpTo (p : Processor) (x : Fin 16) :
    (p.registersUpTo x).length = x.val + 1 := by
  rw [registersUpTo, List.length_take, Vector.length_toList]
  omega

theorem getElem?_registersUpTo (p : Processor) {x y : Fin 16} (hy : y ≤ x) :
    (p.registersUpTo x)[y.val]? = some (p.register y) := by
  have hlist : p.v.toList[y.val]? = some (p.register y) := by
    rw [Vector.getElem?_toList, Vector.getElem?_eq_getElem y.isLt]
    rfl
  rw [registersUpTo, List.getElem?_take_of_lt (Nat.lt_succ_of_le hy), hlist]

/-- A register among the first ones set holds its value, any other what it held. -/
theorem register_setRegisters (p : Processor) (values : List UInt8) (x : Fin 16) :
    (p.setRegisters values).register x = values[x.val]?.getD (p.register x) := by
  show (Vector.ofFn fun k => values[k.val]?.getD (p.v.get k))[x.val] = _
  rw [Vector.getElem_ofFn]
  rfl

end Processor

end ChipEight
