import ChipEight.Proofs.Machine.Effect

/-!
# Arithmetic on two registers

`8XYn` combines two registers into the first and, from the fourth form on, leaves a flag in `VF`.
Which of `VX`, `VY` and `VF` are one and the same is up to the program. Both operands are read
before anything is written, and the result is written after the flag, so the outcome is a function
of what the two registers held, and only what is overwritten is lost.

* **`Alu.Law`** — what the result and the flag have to do with the operands, as equations between
  whole numbers.
* **`Alu.result`** — the result on its own.
* **`law_apply`**, **`result_apply`** — what is computed obeys them.
* **`combine_arithmetic`** — the law of all nine forms.
-/

namespace ChipEight

namespace Instruction.Alu

/-! ## The arithmetic -/

/-- What a combination of two bytes has to do with the byte and the flag that it leaves, where the
flag held `old`. A carry counts for 256, a bit shifted out to the right for one and the rest for two
each. -/
def Law (a b old value flag : Nat) : Alu → Prop
  | copy => value = b ∧ flag = old
  | or => value = a ||| b ∧ flag = old
  | and => value = a &&& b ∧ flag = old
  | xor => value = a ^^^ b ∧ flag = old
  | add => 256 * flag + value = a + b ∧ flag ≤ 1
  | sub => (value : Int) = ((a : Int) - b) % 256 ∧ (flag = 1 ↔ b < a) ∧ flag ≤ 1
  | shiftRight => 2 * value + flag = a ∧ flag ≤ 1
  | subFrom => (value : Int) = ((b : Int) - a) % 256 ∧ (flag = 1 ↔ a < b) ∧ flag ≤ 1
  | shiftLeft => 256 * flag + value = 2 * a ∧ flag ≤ 1

/-- What a combination of two bytes comes to, modulo 256. -/
def result (a b : Nat) : Alu → Int
  | copy => b
  | or => (a ||| b : Nat)
  | and => (a &&& b : Nat)
  | xor => (a ^^^ b : Nat)
  | add => ((a : Int) + b) % 256
  | sub => ((a : Int) - b) % 256
  | shiftRight => (a : Int) / 2
  | subFrom => ((b : Int) - a) % 256
  | shiftLeft => 2 * (a : Int) % 256

/-- An operation with a flag leaves 1 or 0 in the flag register, whatever was there. -/
theorem toNat_flagByte {p q : Prop} [Decidable p] [Decidable q] (h : p ↔ q) (value old : UInt8) :
    ((⟨value, some (decide p)⟩ : Outcome).flagByte old).toNat = if q then 1 else 0 := by
  by_cases hp : p
  · rw [if_pos (h.mp hp), Outcome.flagByte, decide_eq_true hp]
    rfl
  · rw [if_neg (mt h.mpr hp), Outcome.flagByte, decide_eq_false hp]
    rfl

theorem toNat_sub_eq_emod (a b : UInt8) :
    ((a - b).toNat : Int) = ((a.toNat : Int) - b.toNat) % 256 := by
  have ha := a.toNat_lt
  have hb := b.toNat_lt
  rw [UInt8.toNat_sub]
  omega

/-- The byte that an operation leaves is the result of the law, form by form. -/
theorem result_apply (alu : Alu) (a b : UInt8) :
    ((alu.apply a b).value.toNat : Int) = alu.result a.toNat b.toNat := by
  have ha := a.toNat_lt
  -- bytes are added and subtracted modulo 256 by themselves, shifts by hand
  cases alu with
  | copy => rfl
  | or => exact congrArg Int.ofNat (UInt8.toNat_or a b)
  | and => exact congrArg Int.ofNat (UInt8.toNat_and a b)
  | xor => exact congrArg Int.ofNat (UInt8.toNat_xor a b)
  | add =>
    show ((a + b).toNat : Int) = ((a.toNat : Int) + b.toNat) % 256
    rw [UInt8.toNat_add]
    omega
  | sub => exact toNat_sub_eq_emod a b
  | shiftRight =>
    show ((UInt8.ofNat (a.toNat / 2)).toNat : Int) = (a.toNat : Int) / 2
    rw [UInt8.toNat_ofNat']
    omega
  | subFrom => exact toNat_sub_eq_emod b a
  | shiftLeft =>
    show ((UInt8.ofNat (2 * a.toNat)).toNat : Int) = 2 * (a.toNat : Int) % 256
    rw [UInt8.toNat_ofNat']
    omega

/-- **What is computed obeys the law.** -/
theorem law_apply (alu : Alu) (a b old : UInt8) :
    alu.Law a.toNat b.toNat old.toNat (alu.apply a b).value.toNat
      ((alu.apply a b).flagByte old).toNat := by
  have hvalue := result_apply alu a b
  have ha := a.toNat_lt
  have hb := b.toNat_lt
  -- the result is known as a residue, so each case is about how the flag completes it
  cases alu with
  | copy => exact ⟨rfl, rfl⟩
  | or => exact ⟨UInt8.toNat_or a b, rfl⟩
  | and => exact ⟨UInt8.toNat_and a b, rfl⟩
  | xor => exact ⟨UInt8.toNat_xor a b, rfl⟩
  | add =>
    have hflag : ((apply .add a b).flagByte old).toNat = if 255 < a.toNat + b.toNat then 1 else 0 :=
      toNat_flagByte Iff.rfl _ _
    simp only [result] at hvalue
    simp only [Law, hflag]
    split <;> omega
  | sub =>
    have hflag : ((apply .sub a b).flagByte old).toNat = if b.toNat < a.toNat then 1 else 0 :=
      toNat_flagByte UInt8.lt_iff_toNat_lt _ _
    refine ⟨hvalue, ?_⟩
    rw [hflag]
    split <;> omega
  | shiftRight =>
    have hflag : ((apply .shiftRight a b).flagByte old).toNat = if a.toNat % 2 = 1 then 1 else 0 :=
      toNat_flagByte Iff.rfl _ _
    simp only [result] at hvalue
    simp only [Law, hflag]
    split <;> omega
  | subFrom =>
    have hflag : ((apply .subFrom a b).flagByte old).toNat = if a.toNat < b.toNat then 1 else 0 :=
      toNat_flagByte UInt8.lt_iff_toNat_lt _ _
    refine ⟨hvalue, ?_⟩
    rw [hflag]
    split <;> omega
  | shiftLeft =>
    have hflag : ((apply .shiftLeft a b).flagByte old).toNat = if 128 ≤ a.toNat then 1 else 0 :=
      toNat_flagByte Iff.rfl _ _
    simp only [result] at hvalue
    simp only [Law, hflag]
    split <;> omega

end Instruction.Alu

/-! ## The registers -/

namespace Machine

open Instruction

variable {m : Machine} {alu : Alu} {x y : Fin 16}

/-- **The law of arithmetic.** Any two registers can be combined in any of the nine ways, on any
machine whatsoever, and nothing but registers changes. Unless the result goes to the flag register,
it and the flag obey the law for what the two registers and the flag held before. If it goes to the
flag register it is found there as if there were no flag. The other registers keep their values. -/
theorem combine_arithmetic {op : Opcode} (hop : op.Denotes (.combine alu x y)) :
    ∃ v, executeWord op m = .ok .advance (m.withRegisters v) ∧
      (x ≠ Processor.flag →
        alu.Law (m.register x).toNat (m.register y).toNat (m.register Processor.flag).toNat
          (v.get x).toNat (v.get Processor.flag).toNat) ∧
      (x = Processor.flag →
        ((v.get Processor.flag).toNat : Int) =
          alu.result (m.register x).toNat (m.register y).toNat) ∧
      ∀ r, r ≠ x → r ≠ Processor.flag → v.get r = m.register r := by
  have hget : ∀ r, (m.processor.combine alu x y).v.get r = _ :=
    m.processor.register_combine alu x y
  have hrun : executeWord op m = .ok .advance (m.withRegisters (m.processor.combine alu x y).v) :=
    (executeWord_of_denotes hop).trans (execute_combine m alu x y)
  refine ⟨_, hrun, ?apart, ?lost, ?others⟩
  case apart =>
    -- the flag is in another register than the result, so both are found
    intro hx
    rw [hget x, if_pos rfl, hget Processor.flag, if_neg hx, if_pos rfl]
    exact Alu.law_apply alu _ _ _
  case lost =>
    intro hx
    rw [hget Processor.flag, if_pos hx]
    exact Alu.result_apply alu _ _
  case others =>
    intro r hrx hrflag
    rw [hget r, if_neg (Ne.symm hrx), if_neg (Ne.symm hrflag)]
    rfl

/-- The second operand is the flag register: it is read before the carry is written there. -/
theorem combine_arithmetic_flag_operand :
    (⟨0x83F4⟩ : Opcode).Denotes (.combine .add 3 15) ∧
      ∃ v, executeWord ⟨0x83F4⟩
          ((powerOn (Random.ofSeed 0)).withRegisters (Vector.replicate 16 200)) =
            .ok .advance ((powerOn (Random.ofSeed 0)).withRegisters v) ∧
        (v.get 3).toNat = 144 ∧ (v.get Processor.flag).toNat = 1 ∧ (v.get 4).toNat = 200 := by
  have hop : (⟨0x83F4⟩ : Opcode).Denotes (.combine .add 3 15) :=
    ⟨by decide, by decide, by decide, by decide⟩
  obtain ⟨v, hrun, hlaw, -, hothers⟩ := combine_arithmetic
    (m := (powerOn (Random.ofSeed 0)).withRegisters (Vector.replicate 16 200)) hop
  -- the law at 200 and 200: the sum has a carry, and what is left of it is 144
  obtain ⟨hsum, hflag⟩ : 256 * (v.get Processor.flag).toNat + (v.get 3).toNat = 200 + 200 ∧
      (v.get Processor.flag).toNat ≤ 1 := hlaw (by decide)
  have hvalue := (v.get 3).toNat_lt
  have hfour : (v.get 4).toNat = 200 := by
    rw [hothers 4 (by decide) (by decide)]
    rfl
  exact ⟨hop, v, hrun, by omega, by omega, hfour⟩

end Machine

end ChipEight
