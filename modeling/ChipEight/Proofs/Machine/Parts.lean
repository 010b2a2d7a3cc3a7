import ChipEight.Machine.Cycle
import ChipEight.Proofs.Machine.History

/-!
# What an instruction does to the parts

What execution keeps can mostly be read off its parts: an instruction assigns to the processor,
draws a random byte, writes a block to memory, or changes the screen. This holds of every machine,
also where a host has put into the processor what no program would.

* **`KeptBy`** — a property that the parts' own operations keep, as far as an instruction uses them.
* **`KeptBy.execute`** — such a property is kept by the instruction, whether it fails or not.
* **`KeptBy.after_step`** — and by the step that performs it.
-/

namespace ChipEight.Machine

variable {m : Machine} {P : Machine → Prop} {i : Instruction}

/-- A property is kept by what an instruction does to the parts of a machine. Only two instructions
change the screen. -/
structure KeptBy (i : Instruction) (P : Machine → Prop) : Prop where
  processor : ∀ m processor, P m → P { m with processor }
  random : ∀ m random, P m → P { m with random }
  store : ∀ m address block memory, P m → m.memory.writeBlock address block = .ok memory →
    P { m with memory }
  clear : i = .clearScreen → ∀ m, P m → P { m with screen := m.screen.clear }
  draw : ∀ x y rows, i = .draw x y rows → ∀ m left top sprite collided screen, P m →
    m.screen.draw left top sprite = .ok (collided, screen) → P { m with screen }

namespace KeptBy

/-- A block that memory refuses is not stored, and then nothing has changed. -/
theorem storeAtIndex (h : KeptBy i P) (block : Machine → List UInt8) :
    Action.Keeps P fun m => storeAtIndex (block m) m := by
  intro m hm
  show P ((Machine.storeAtIndex (block m)).after m)
  unfold Action.after Machine.storeAtIndex
  cases hw : m.memory.writeBlock m.processor.i (block m) with
  | ok memory => exact h.store m _ _ memory hm hw
  | error fault => exact hm

/-- A drawing reads, draws and sets the flag. Where one of the first two fails, nothing has been
done yet. -/
theorem drawAtIndex {x y rows : Fin 16} (h : KeptBy (.draw x y rows) P) :
    (drawAtIndex x y rows).Keeps P := by
  intro m hm
  unfold Action.after Machine.drawAtIndex
  cases m.memory.readBlock m.processor.i rows.val with
  | error fault => exact hm
  | ok sprite =>
    -- the sprite has been read, and nothing has changed so far
    cases hd : m.screen.draw (m.register x).toNat (m.register y).toNat sprite with
    | error misuse => simpa only [hd] using hm
    | ok drawn =>
      simp only [hd]
      exact h.processor _ _ (h.draw x y rows rfl m _ _ _ drawn.1 drawn.2 hm hd)

/-- **What the parts keep, execution keeps.** Most instructions assign to the processor; those that
look something up first change nothing where there is nothing to be found. -/
theorem execute (h : KeptBy i P) : (execute i).Keeps P := by
  intro m hm
  -- every other instruction than these assigns to the processor and cannot fail
  cases i with
  | clearScreen => exact h.clear rfl m hm
  | ret =>
    show P (returnFromCall.after m)
    unfold Action.after returnFromCall
    cases m.processor.pop with
    | ok address processor => exact h.processor m processor hm
    | error e processor => exact h.processor m processor hm
  | call target =>
    show P ((callRoutine target).after m)
    unfold Action.after callRoutine
    cases m.processor.push (m.processor.pc + 2) with
    | ok processor => exact h.processor m processor hm
    | error e => exact hm
  | random x mask => exact h.processor _ _ (h.random m _ hm)
  | draw x y rows => exact h.drawAtIndex m hm
  | awaitKey x =>
    show P ((loadKey x).after m)
    unfold Action.after loadKey
    cases m.keypad.firstPressed with
    | some key => exact h.processor m _ hm
    | none => exact h.processor m _ hm
  | storeDecimal x => exact h.storeAtIndex (fun m => decimalDigits (m.register x)) m hm
  | storeRegisters x => exact h.storeAtIndex (fun m => m.processor.registersUpTo x) m hm
  | loadRegisters x =>
    show P ((loadFromIndex x).after m)
    unfold Action.after loadFromIndex
    cases m.memory.readBlock m.processor.i (x.val + 1 : Nat) with
    | ok block => exact h.processor m _ hm
    | error fault => exact hm
  | jump target => exact hm
  | skipIf test => exact hm
  | jumpOffset target => exact hm
  | _ => exact h.processor m _ hm

/-- The same of a word executed directly, which may be no instruction. -/
theorem executeWord (h : ∀ i, KeptBy i P) (op : Opcode) : (executeWord op).Keeps P := by
  intro m hm
  unfold Action.after Machine.executeWord
  cases Instruction.decode op with
  | error fault => exact hm
  | ok i => exact (h i).execute m hm

/-- A step counts itself, whatever else it does. -/
theorem after_step (hprocessor : ∀ m processor, P m → P { m with processor })
    (hcycles : ∀ m cycles, P m → P { m with cycles })
    (h : ∀ op i, m.cycle = .perform op i → KeptBy i P) (hm : P m) : P (step.after m) := by
  -- first the cycle, and then the step that counts it
  have hperformed : P ((performCycle m.cycle).after m) := by
    cases hc : m.cycle with
    | idle => exact hm
    | deliver key register =>
      show P ((deliverKey key register).after m)
      unfold Action.after deliverKey
      cases m.processor.setRegisterAt register key.val with
      | ok processor => exact hprocessor m _ hm
      | error misuse => exact hm
    | stray fault => exact hm
    | skip op => exact hprocessor m _ hm
    | perform op i =>
      have hexecuted := (h op i hc).execute m hm
      show P ((follow i).after m)
      unfold Action.after follow
      unfold Action.after at hexecuted
      cases hx : Machine.execute i m with
      | ok flow m' =>
        rw [hx] at hexecuted
        exact hprocessor m' _ hexecuted
      | error e m' =>
        rw [hx] at hexecuted
        exact hexecuted
  unfold Action.after at hperformed
  unfold Action.after step
  cases hp : performCycle m.cycle m with
  | ok a m' =>
    rw [hp] at hperformed
    simp only [hp]
    exact hcycles m' _ hperformed
  | error e m' =>
    rw [hp] at hperformed
    simp only [hp]
    exact hperformed

end KeptBy

end ChipEight.Machine
