import ChipEight.Proofs.Instruction.Form
import ChipEight.Proofs.Machine.Loading

/-!
# The footprint of a step

`completed` says what a step makes of the whole machine. Most of the machine it leaves alone, and
what it changes depends on the instruction that is performed. This module turns that around: a part
that has changed names the instruction.

* **`Performs`** — the next step performs an instruction: no register waits for a key and the word
  at the counter is one of the instruction's.
* **`exists_performs_of_ne`** — a part that neither the delivery of a key nor the skipping of a word
  touches has changed by an instruction. Index, timers, stack, memory, screen and random bytes are
  such parts; only the registers and the wait are not.
* **`Sets`** — the registers that a step may set, form by form.
* **`Footprint`** — what may differ between a machine and the machine after its step, and when.
* **`footprint_of_step`** — every step that completes has this footprint.
-/

namespace ChipEight

namespace Processor

variable {p : Processor}

theorem eq_of_register_setRegister_ne {x r : Fin 16} {value : UInt8}
    (hne : (p.setRegister x value).register r ≠ p.register r) : x = r := by
  refine Decidable.byContradiction fun hx => hne ?_
  rw [register_setRegister, if_neg hx]

theorem lt_of_register_setRegisters_ne {values : List UInt8} {r : Fin 16}
    (hne : (p.setRegisters values).register r ≠ p.register r) : r.val < values.length := by
  refine Decidable.byContradiction fun hr => hne ?_
  rw [register_setRegisters, List.getElem?_eq_none (Nat.le_of_not_lt hr), Option.getD_none]

/-- Combining two registers changes the first of them and, where the operation has a flag, the flag
register. -/
theorem eq_of_register_combine_ne {op : Instruction.Alu} {x y r : Fin 16}
    (hne : (p.combine op x y).register r ≠ p.register r) :
    x = r ∨ flag = r ∧ (op.apply (p.register x) (p.register y)).flag ≠ none := by
  rw [register_combine] at hne
  by_cases hx : x = r
  · exact Or.inl hx
  · -- the result went elsewhere, so it was the flag that changed this register
    rw [if_neg hx] at hne
    by_cases hflag : flag = r
    · refine Or.inr ⟨hflag, fun hnone => hne ?_⟩
      rw [if_pos hflag, Instruction.Alu.Outcome.flagByte, hnone, hflag]
      rfl
    · exact absurd (if_neg hflag) hne

end Processor

/-- The operations whose result may lose something, and whose flag tells. -/
theorem Instruction.Alu.flag_ne_none {op : Instruction.Alu} {a b : UInt8}
    (h : (op.apply a b).flag ≠ none) :
    op ∈ [Instruction.Alu.add, .sub, .shiftRight, .subFrom, .shiftLeft] := by
  cases op with
  | copy => exact absurd rfl h
  | or => exact absurd rfl h
  | and => exact absurd rfl h
  | xor => exact absurd rfl h
  | _ => decide

namespace Machine

variable {m m' : Machine}

/-! ## The instruction that a step performs -/

/-- The next step performs this instruction: the machine waits for no key, and the word at its
counter is one of the instruction's. -/
def Performs (m : Machine) (i : Instruction) : Prop :=
  m.processor.waiting = none ∧ ∃ op, m.fetch = .ok op ∧ op.Denotes i

theorem performs_of_decode? (hw : m.processor.waiting = none) {op : Opcode} (hop : m.fetch = .ok op)
    {i : Instruction} (hdecode : Instruction.decode? op = some i) : m.Performs i :=
  ⟨hw, op, hop, Instruction.decode?_eq_some_iff.mp hdecode⟩

/-- An instruction of a program that is in memory is performed where the counter is at it. -/
theorem performs_of_program {base : Memory} (hbase : base.WellFormed) {image : List UInt8} {k : Nat}
    {high low : UInt8} (hw : m.processor.waiting = none) (hmem : m.memory = base.placeProgram image)
    (hpc : m.processor.pc = (Memory.programStart + k : Nat)) (heven : k % 2 = 0)
    (hfit : k + 2 ≤ Memory.programLimit) (hhigh : image[k]? = some high)
    (hlow : image[k + 1]? = some low) {i : Instruction}
    (hdecode : Instruction.decode? ⟨(256 * high.toNat + low.toNat : Nat)⟩ = some i) :
    m.Performs i :=
  performs_of_decode? hw (fetch_of_program hbase hmem hpc heven hfit hhigh hlow) hdecode

/-- To perform an instruction is the cycle that has fetched and decoded its word. -/
theorem cycle_of_performs {i : Instruction} (h : m.Performs i) :
    ∃ op, m.fetch = .ok op ∧ m.cycle = .perform op i := by
  obtain ⟨hw, op, hop, hform⟩ := h
  rw [cycle_of_fetch hw hop, Instruction.decode?_eq_some_iff.mpr hform]
  exact ⟨op, hop, rfl⟩

/-- The machine after a step that performs an instruction which meets no obstacle. -/
def afterInstruction (m : Machine) (i : Instruction) : Machine :=
  { (m.effect i).mapProcessor fun p => { p with pc := (m.flowAfter i).target m.processor.pc }
    with cycles := m.cycles + 1 }

/-- What the step makes of the machine is then the instruction's effect. -/
theorem completed_of_performs {i : Instruction} (h : m.Performs i) :
    m.completed = m.afterInstruction i := by
  obtain ⟨op, -, hcycle⟩ := cycle_of_performs h
  rw [completed, hcycle]
  rfl

/-- And where nothing is in the way the step completes. Examples of single steps are taken through
this. -/
theorem step_of_performs (h : m.WellFormed) {i : Instruction} (hi : m.Performs i)
    (hclear : m.obstacle? i = none) : m.step = .ok () (m.afterInstruction i) := by
  obtain ⟨op, -, hcycle⟩ := cycle_of_performs hi
  have hf : m.fault? = none := by
    rw [fault?, hcycle, obstacleOf?, hclear]
    rfl
  rw [step_of_clear h hf, completed_of_performs hi]

/-- A machine stays well-formed through an instruction, since it does through a step. -/
theorem WellFormed.afterInstruction (h : m.WellFormed) {i : Instruction} (hi : m.Performs i)
    (hclear : m.obstacle? i = none) : (m.afterInstruction i).WellFormed := by
  have hafter := WellFormed.keeps_step m h
  rwa [Action.after_of_ok (step_of_performs h hi hclear)] at hafter

/-- Where a step completes, it met no fault and the machine afterwards is `completed`. -/
theorem completed_of_step (h : m.WellFormed) (hstep : m.step = .ok () m') :
    m.fault? = none ∧ m' = m.completed := by
  rw [step_eq h] at hstep
  -- a step that met a fault would not have completed
  cases hf : m.fault? with
  | some fault =>
    rw [hf] at hstep
    cases hstep
  | none =>
    rw [hf] at hstep
    cases hstep
    exact ⟨rfl, rfl⟩

/-- The converse of `step_of_performs`: where a step completed, its instruction had met no
obstacle. -/
theorem clear_of_step (h : m.WellFormed) {i : Instruction} (hi : m.Performs i)
    (hstep : m.step = .ok () m') : m.obstacle? i = none := by
  obtain ⟨op, -, hcycle⟩ := cycle_of_performs hi
  have hclear := obstacleOf?_of_clear (completed_of_step h hstep).1
  rwa [hcycle] at hclear

/-- **A part that has changed names an instruction**, if the other cycles leave it alone. What an
instruction makes of the part is `partAfter`. -/
theorem exists_performs_of_ne (hmem : m.memory.WellFormed) {α : Type} (part : Machine → α)
    (partAfter : Instruction → α)
    (hperform : ∀ op i, part (m.performed (.perform op i)) = partAfter i)
    (hdeliver : ∀ key register, part (m.performed (.deliver key register)) = part m)
    (hskip : ∀ op, part (m.performed (.skip op)) = part m)
    (hne : part (m.performed m.cycle) ≠ part m) :
    ∃ i, m.Performs i ∧ partAfter i ≠ part m := by
  have hstage := stage_cycle hmem
  generalize m.cycle = c at hstage hne
  -- of the five cycles only the last is left
  cases hstage with
  | idle => exact absurd rfl hne
  | deliver key register => exact absurd (hdeliver key register) hne
  | stray => exact absurd rfl hne
  | skip op => exact absurd (hskip op) hne
  | perform op i hw hop hdecode =>
    rw [hperform] at hne
    exact ⟨i, performs_of_decode? hw hop hdecode, hne⟩

/-! ## Index and timers -/

/-- The index changes under `ANNN`, `FX1E` or `FX29`. -/
theorem performs_of_index_ne (hmem : m.memory.WellFormed)
    (hne : m.completed.processor.i ≠ m.processor.i) :
    (∃ target, m.Performs (.setIndex target)) ∨ (∃ x, m.Performs (.addIndex x)) ∨
      ∃ x, m.Performs (.pointGlyph x) := by
  obtain ⟨i, hi, hne⟩ := exists_performs_of_ne hmem (fun m => m.processor.i) m.indexAfter
    (fun _ _ => rfl) (fun _ _ => rfl) (fun _ => rfl) hne
  cases i with
  | setIndex target => exact Or.inl ⟨target, hi⟩
  | addIndex x => exact Or.inr (Or.inl ⟨x, hi⟩)
  | pointGlyph x => exact Or.inr (Or.inr ⟨x, hi⟩)
  | _ => exact absurd rfl hne

/-- The delay timer changes under `FX15`; a step never counts it down. -/
theorem performs_of_delay_ne (hmem : m.memory.WellFormed)
    (hne : m.completed.processor.delay ≠ m.processor.delay) : ∃ x, m.Performs (.setDelay x) := by
  obtain ⟨i, hi, hne⟩ := exists_performs_of_ne hmem (fun m => m.processor.delay) m.delayAfter
    (fun _ _ => rfl) (fun _ _ => rfl) (fun _ => rfl) hne
  cases i with
  | setDelay x => exact ⟨x, hi⟩
  | _ => exact absurd rfl hne

/-- The sound timer changes under `FX18`. -/
theorem performs_of_sound_ne (hmem : m.memory.WellFormed)
    (hne : m.completed.processor.sound ≠ m.processor.sound) : ∃ x, m.Performs (.setSound x) := by
  obtain ⟨i, hi, hne⟩ := exists_performs_of_ne hmem (fun m => m.processor.sound) m.soundAfter
    (fun _ _ => rfl) (fun _ _ => rfl) (fun _ => rfl) hne
  cases i with
  | setSound x => exact ⟨x, hi⟩
  | _ => exact absurd rfl hne

/-! ## The stack -/

/-- A call fills the slot at the depth and no other. -/
theorem get_stackAfter_call (h : m.WellFormed) (target : Fin 4096) {k : Fin 16}
    (hk : (k.val : Int) ≠ m.processor.sp) :
    (m.stackAfter (.call target)).get k = m.processor.stack.get k := by
  have hlow := h.processor.depth.1
  have hslot : m.processor.sp.toNat ≠ k.val := by omega
  show (m.processor.stack.setIfInBounds m.processor.sp.toNat _)[k.val] = m.processor.stack[k.val]
  rw [Vector.getElem_setIfInBounds, if_neg hslot]

/-- The stack has changed by a call, which fills one slot, or by a return, which fills none. -/
theorem performs_of_stack_ne (h : m.WellFormed)
    (hne : (m.completed.processor.sp, m.completed.processor.stack) ≠
      (m.processor.sp, m.processor.stack)) :
    (∃ target, m.Performs (.call target)) ∧ m.completed.processor.sp = m.processor.sp + 1 ∧
        (∀ k : Fin 16, (k.val : Int) ≠ m.processor.sp →
          m.completed.processor.stack.get k = m.processor.stack.get k) ∨
      m.Performs .ret ∧ m.completed.processor.sp = m.processor.sp - 1 ∧
        m.completed.processor.stack = m.processor.stack := by
  obtain ⟨i, hi, hne⟩ := exists_performs_of_ne h.memory
    (fun m => (m.processor.sp, m.processor.stack)) (fun i => (m.depthAfter i, m.stackAfter i))
    (fun _ _ => rfl) (fun _ _ => rfl) (fun _ => rfl) hne
  rw [completed_of_performs hi]
  cases i with
  | call target => exact Or.inl ⟨⟨target, hi⟩, rfl, fun k hk => get_stackAfter_call h target hk⟩
  | ret => exact Or.inr ⟨hi, rfl, rfl⟩
  | _ => exact absurd rfl hne

/-! ## Memory, screen and random bytes -/

theorem size_memoryAfter (m : Machine) (i : Instruction) :
    (m.memoryAfter i).size = m.memory.size ∧
      (m.memoryAfter i).bytes.size = m.memory.bytes.size := by
  cases i with
  | storeDecimal x => exact ⟨rfl, Memory.size_store _ _ _⟩
  | storeRegisters x => exact ⟨rfl, Memory.size_store _ _ _⟩
  | _ => exact ⟨rfl, rfl⟩

/-- No step makes memory longer or shorter. -/
theorem size_memory_completed (hmem : m.memory.WellFormed) :
    m.completed.memory.size = m.memory.size ∧
      m.completed.memory.bytes.size = m.memory.bytes.size := by
  have hstage := stage_cycle hmem
  unfold completed
  generalize m.cycle = c at hstage ⊢
  cases hstage with
  | perform op i => exact size_memoryAfter m i
  | _ => exact ⟨rfl, rfl⟩

/-- A byte that has changed lies in the block that was stored from the index on. -/
theorem performs_of_byte_ne (h : m.WellFormed) {k : Nat}
    (hne : m.completed.memory.byteAt k ≠ m.memory.byteAt k) :
    (∃ x, m.Performs (.storeDecimal x) ∧ m.processor.i ≤ k ∧ k ≤ m.processor.i + 2) ∨
      ∃ x, m.Performs (.storeRegisters x) ∧ m.processor.i ≤ k ∧ k ≤ m.processor.i + x.val := by
  obtain ⟨i, hi, hne⟩ := exists_performs_of_ne h.memory (fun m => m.memory.byteAt k)
    (fun i => (m.memoryAfter i).byteAt k) (fun _ _ => rfl) (fun _ _ => rfl) (fun _ => rfl) hne
  have hlow := h.processor.index.1
  -- two instructions store, and a byte that has changed lies in the block of one of them
  cases i with
  | storeDecimal x =>
    have hlength : (decimalDigits (m.register x)).length = 3 := rfl
    obtain ⟨hfirst, hlast⟩ := Memory.byteAt_store_ne hne
    exact Or.inl ⟨x, hi, by omega, by omega⟩
  | storeRegisters x =>
    have hlength := m.processor.length_registersUpTo x
    obtain ⟨hfirst, hlast⟩ := Memory.byteAt_store_ne hne
    exact Or.inr ⟨x, hi, by omega, by omega⟩
  | _ => exact absurd rfl hne

theorem performs_of_screen_ne (hmem : m.memory.WellFormed)
    (hne : m.completed.screen ≠ m.screen) :
    m.Performs .clearScreen ∨ ∃ x y rows, m.Performs (.draw x y rows) := by
  obtain ⟨i, hi, hne⟩ := exists_performs_of_ne hmem (fun m => m.screen) m.screenAfter
    (fun _ _ => rfl) (fun _ _ => rfl) (fun _ => rfl) hne
  cases i with
  | clearScreen => exact Or.inl hi
  | draw x y rows => exact Or.inr ⟨x, y, rows, hi⟩
  | _ => exact absurd rfl hne

theorem performs_of_random_ne (hmem : m.memory.WellFormed)
    (hne : m.completed.random ≠ m.random) : ∃ x mask, m.Performs (.random x mask) := by
  obtain ⟨i, hi, hne⟩ := exists_performs_of_ne hmem (fun m => m.random) m.randomAfter
    (fun _ _ => rfl) (fun _ _ => rfl) (fun _ => rfl) hne
  cases i with
  | random x mask => exact ⟨x, mask, hi⟩
  | _ => exact absurd rfl hne

/-! ## The keypad, which no step changes -/

/-- Keys are the host's: no instruction has a part in them, so the part that the instruction would
have changed is the one before. -/
theorem keypad_completed (hmem : m.memory.WellFormed) : m.completed.keypad = m.keypad := by
  refine Decidable.byContradiction fun hne => ?_
  obtain ⟨-, -, hne⟩ := exists_performs_of_ne hmem (fun m => m.keypad) (fun _ => m.keypad)
    (fun _ _ => rfl) (fun _ _ => rfl) (fun _ => rfl) hne
  exact hne rfl

/-! ## The wait

A wait is begun by an instruction and ended by a key, so here the cycles are looked at
themselves. -/

/-- A wait that has changed was begun by `FX0A` with no key down or ended by a key. An `FX0A` that
finds a key down at once never waits. -/
theorem performs_of_waiting_ne (hmem : m.memory.WellFormed)
    (hne : m.completed.processor.waiting ≠ m.processor.waiting) :
    (∃ x : Fin 16, m.Performs (.awaitKey x) ∧ m.keypad.firstPressed = none ∧
        m.completed.processor.waiting = some (x.val : Int)) ∨
      ∃ register key, m.processor.waiting = some register ∧ m.keypad.firstPressed = some key ∧
        m.completed.processor.waiting = none := by
  have hstage := stage_cycle hmem
  unfold completed at hne ⊢
  generalize m.cycle = c at hstage hne ⊢
  -- a key that is delivered ends the wait; of the other cycles only an instruction touches it
  cases hstage with
  | deliver key register hw hkey => exact Or.inr ⟨register, key, hw, hkey, rfl⟩
  | perform op i hw hop hdecode =>
    obtain ⟨x, rfl, hkey, hafter⟩ := waitingAfter_ne hne
    exact Or.inl ⟨x, performs_of_decode? hw hop hdecode, hkey, hafter⟩
  | _ => exact absurd rfl hne

/-! ## The registers -/

/-- The registers that the next step may set. -/
inductive Sets (m : Machine) : Fin 16 → Prop
  /-- `6XNN` -/
  | load (x : Fin 16) (byte : UInt8) (hi : m.Performs (.load x byte)) : Sets m x
  /-- `7XNN` -/
  | addByte (x : Fin 16) (byte : UInt8) (hi : m.Performs (.addByte x byte)) : Sets m x
  /-- `8XYn` -/
  | combine (alu : Instruction.Alu) (x y : Fin 16) (hi : m.Performs (.combine alu x y)) : Sets m x
  /-- VF of `8XY4`, `8XY5`, `8XY6`, `8XY7` and `8XYE` -/
  | lost (alu : Instruction.Alu) (x y : Fin 16) (hi : m.Performs (.combine alu x y))
      (halu : alu ∈ [Instruction.Alu.add, .sub, .shiftRight, .subFrom, .shiftLeft]) :
      Sets m Processor.flag
  /-- `CXNN` -/
  | random (x : Fin 16) (mask : UInt8) (hi : m.Performs (.random x mask)) : Sets m x
  /-- VF of `DXYN` -/
  | collided (x y rows : Fin 16) (hi : m.Performs (.draw x y rows)) : Sets m Processor.flag
  /-- `FX07` -/
  | readDelay (x : Fin 16) (hi : m.Performs (.readDelay x)) : Sets m x
  /-- `FX0A` -/
  | awaitKey (x : Fin 16) (hi : m.Performs (.awaitKey x)) : Sets m x
  /-- V0 to VX of `FX65` -/
  | loadRegisters (x r : Fin 16) (hi : m.Performs (.loadRegisters x)) (hr : r.val ≤ x.val) :
      Sets m r
  /-- The register that has waited for a key, once one is down. -/
  | delivered (key r : Fin 16) (hw : m.processor.waiting = some (r.val : Int))
      (hkey : m.keypad.firstPressed = some key) : Sets m r

/-- A register that an instruction has changed is one that its form may set, case by case. -/
theorem sets_of_registersAfter_ne {i : Instruction} (hi : m.Performs i) {r : Fin 16}
    (hne : (m.registersAfter i).get r ≠ m.register r) : m.Sets r := by
  -- most forms set one register, so the one that has changed is that one
  cases i with
  | load x byte =>
    obtain rfl := Processor.eq_of_register_setRegister_ne hne
    exact .load x byte hi
  | addByte x byte =>
    obtain rfl := Processor.eq_of_register_setRegister_ne hne
    exact .addByte x byte hi
  | combine alu x y =>
    obtain rfl | ⟨rfl, hflag⟩ := Processor.eq_of_register_combine_ne hne
    · exact .combine alu x y hi
    · exact .lost alu x y hi (Instruction.Alu.flag_ne_none hflag)
  | random x mask =>
    obtain rfl := Processor.eq_of_register_setRegister_ne hne
    exact .random x mask hi
  | draw x y rows =>
    obtain rfl := Processor.eq_of_register_setRegister_ne hne
    exact .collided x y rows hi
  | readDelay x =>
    obtain rfl := Processor.eq_of_register_setRegister_ne hne
    exact .readDelay x hi
  | awaitKey x =>
    unfold registersAfter at hne
    cases hkey : m.keypad.firstPressed with
    | some key =>
      simp only [hkey] at hne
      obtain rfl := Processor.eq_of_register_setRegister_ne hne
      exact .awaitKey x hi
    | none =>
      simp only [hkey] at hne
      exact absurd rfl hne
  | loadRegisters x =>
    have hlength := m.memory.length_block_le m.processor.i.toNat (x.val + 1)
    have hr : r.val < (m.blockAtIndex (x.val + 1)).length :=
      Processor.lt_of_register_setRegisters_ne hne
    unfold blockAtIndex at hr
    exact .loadRegisters x r hi (by omega)
  | _ => exact absurd rfl hne

/-- **A register that has changed is one that the step may set.** -/
theorem sets_of_register_ne (h : m.WellFormed) {r : Fin 16}
    (hne : m.completed.register r ≠ m.register r) : m.Sets r := by
  have hstage := stage_cycle h.memory
  unfold completed at hne
  generalize m.cycle = c at hstage hne
  cases hstage with
  | deliver key register hw hkey =>
    -- the register that has waited is one of the sixteen
    obtain ⟨hlow, hhigh⟩ := h.processor.waiting register hw
    obtain ⟨x, rfl⟩ := exists_fin_eq hlow hhigh
    obtain rfl := Processor.eq_of_register_setRegister_ne hne
    exact .delivered key x hw hkey
  | perform op i hw hop hdecode =>
    exact sets_of_registersAfter_ne (performs_of_decode? hw hop hdecode) hne
  | _ => exact absurd rfl hne

/-! ## Words that are no instruction -/

/-- A word that is no instruction is stepped over, and that is all. -/
theorem completed_of_no_instruction (hw : m.processor.waiting = none) {op : Opcode}
    (hop : m.fetch = .ok op) {fault : Fault} (hdecode : Instruction.decode op = .error fault) :
    m.completed =
      { m with
        processor := { m.processor with pc := m.processor.pc + 2 }
        cycles := m.cycles + 1 } := by
  have hnone : Instruction.decode? op = none := by
    unfold Instruction.decode at hdecode
    cases hd : Instruction.decode? op with
    | none => rfl
    | some i =>
      rw [hd] at hdecode
      cases hdecode
  have hcycle : m.cycle = .skip op := by
    rw [cycle_of_fetch hw hop, hnone]
  -- a word was fetched, so the counter is far from where addresses wrap around
  have hnext : m.processor.next = m.processor.pc + 2 := by
    obtain ⟨hlow, hhigh, -⟩ := (fetch_eq_ok_iff.mp hop).1
    simp only [start, lastFetch, Memory.programStart, Memory.standardSize] at hlow hhigh
    unfold Processor.next wrapAddress
    omega
  rw [completed, hcycle, ← hnext]
  rfl

/-! ## The footprint -/

/-- What a step that leads from `m` to `m'` may have changed, part by part. -/
structure Footprint (m m' : Machine) : Prop where
  cycles : m'.cycles = m.cycles + 1
  keypad : m'.keypad = m.keypad
  extent : m'.memory.size = m.memory.size ∧ m'.memory.bytes.size = m.memory.bytes.size
  /-- A byte changes only in the three from the index on under `FX33`, or in those from the index on
  that belong to registers under `FX55`. -/
  bytes : ∀ k : Nat, m'.memory.byteAt k ≠ m.memory.byteAt k →
    (∃ x, m.Performs (.storeDecimal x) ∧ m.processor.i ≤ k ∧ k ≤ m.processor.i + 2) ∨
      ∃ x, m.Performs (.storeRegisters x) ∧ m.processor.i ≤ k ∧ k ≤ m.processor.i + x.val
  /-- Pixels and dirty flag change only under `00E0` or `DXYN`. -/
  screen : m'.screen ≠ m.screen → m.Performs .clearScreen ∨ ∃ x y rows, m.Performs (.draw x y rows)
  /-- The stack changes only under `2NNN`, by one slot and one in depth, or under `00EE`, by one in
  depth and no slot. -/
  stack : (m'.processor.sp, m'.processor.stack) ≠ (m.processor.sp, m.processor.stack) →
    (∃ target, m.Performs (.call target)) ∧ m'.processor.sp = m.processor.sp + 1 ∧
        (∀ k : Fin 16, (k.val : Int) ≠ m.processor.sp →
          m'.processor.stack.get k = m.processor.stack.get k) ∨
      m.Performs .ret ∧ m'.processor.sp = m.processor.sp - 1 ∧
        m'.processor.stack = m.processor.stack
  /-- The index changes only under `ANNN`, `FX1E` or `FX29`. -/
  index : m'.processor.i ≠ m.processor.i →
    (∃ target, m.Performs (.setIndex target)) ∨ (∃ x, m.Performs (.addIndex x)) ∨
      ∃ x, m.Performs (.pointGlyph x)
  delay : m'.processor.delay ≠ m.processor.delay → ∃ x, m.Performs (.setDelay x)
  sound : m'.processor.sound ≠ m.processor.sound → ∃ x, m.Performs (.setSound x)
  /-- Under `CXNN`, whatever the mask, exactly one byte is drawn. -/
  drawn : ∀ x mask, m.Performs (.random x mask) → m'.random = (Random.byte m.random).2
  random : m'.random ≠ m.random → ∃ x mask, m.Performs (.random x mask)
  /-- A wait begins only under `FX0A` with no key down, and ends only with a key. -/
  waiting : m'.processor.waiting ≠ m.processor.waiting →
    (∃ x : Fin 16, m.Performs (.awaitKey x) ∧ m.keypad.firstPressed = none ∧
        m'.processor.waiting = some (x.val : Int)) ∨
      ∃ register key, m.processor.waiting = some register ∧ m.keypad.firstPressed = some key ∧
        m'.processor.waiting = none
  registers : ∀ r, m'.register r ≠ m.register r → m.Sets r
  /-- A word that is no instruction moves the counter on, and that is all. -/
  unknown : ∀ op fault, m.processor.waiting = none → m.fetch = .ok op →
    Instruction.decode op = .error fault →
    m' = { m with
      processor := { m.processor with pc := m.processor.pc + 2 }
      cycles := m.cycles + 1 }

/-- **The footprint of a step.** A step of a well-formed machine that completes counts itself,
leaves the keypad alone and changes any other part only under the instructions that are for it. -/
theorem footprint_of_step (h : m.WellFormed) (hstep : m.step = .ok () m') : Footprint m m' := by
  obtain ⟨-, rfl⟩ := completed_of_step h hstep
  exact {
    cycles := rfl
    keypad := keypad_completed h.memory
    extent := size_memory_completed h.memory
    bytes := fun k hne => performs_of_byte_ne h hne
    screen := performs_of_screen_ne h.memory
    stack := performs_of_stack_ne h
    index := performs_of_index_ne h.memory
    delay := performs_of_delay_ne h.memory
    sound := performs_of_sound_ne h.memory
    drawn := fun x mask hi => by
      rw [completed_of_performs hi]
      rfl
    random := performs_of_random_ne h.memory
    waiting := performs_of_waiting_ne h.memory
    registers := fun r hne => sets_of_register_ne h hne
    unknown := fun op fault hw hop hdecode => completed_of_no_instruction hw hop hdecode }

/-- A machine whose program begins by storing the digits of a register over the font. -/
def storingDigits : Machine :=
  powerOnWith (Random.ofSeed 0) [0xF3, 0x33]

/-- The digits go over the font, where the index points at power-on. -/
theorem footprint_of_step_storingDigits :
    storingDigits.WellFormed ∧
      ∃ m', storingDigits.step = .ok () m' ∧ Footprint storingDigits m' := by
  have hwell : storingDigits.WellFormed := wellFormed_powerOnWith _ (by decide)
  -- the word is found in the program, and the index at 0 leaves room for three digits
  have hi : storingDigits.Performs (.storeDecimal 3) :=
    performs_of_program (k := 0) Memory.wellFormed_create rfl rfl rfl rfl (by decide) rfl rfl rfl
  have hstep := step_of_performs hwell hi (outOfReach_of_inRange (by decide))
  exact ⟨hwell, _, hstep, footprint_of_step hwell hstep⟩

end Machine

end ChipEight
