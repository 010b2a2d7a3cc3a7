import ChipEight.Machine.Cycle
import ChipEight.Proofs.Machine.History
import ChipEight.Proofs.Machine.Effect

/-!
# The effect of a step

A step finds its cycle and performs it. On a well-formed machine it either meets a fault, and then
the machine is as it was, or it completes. Both are functions of the machine:

* **`fault?`** — the fault that the next step meets, with its context; it reads the processor, the
  memory and the number of cycles, and nothing else. **`fault?_cases`** says what it can be.
* **`completed`** — the machine after a step that meets none.
* **`step_eq`** — a step is the one or the other.
* **`WellFormed.completed`** — a completed step leaves a well-formed machine.

The counter of a waiting machine need not be one that a word can be fetched at, so nothing here
asks for that.
-/

namespace ChipEight.Machine

variable {m : Machine}

/-! ## Fetching -/

/-- The fault of a counter that no word can be fetched at. -/
def strayCounter (pc : Int) : Fault :=
  { cause := .counterOutOfRange pc, address := pc }

theorem fetch_of_not_fetchable (h : ¬ Fetchable m.processor.pc) :
    m.fetch = .error (strayCounter m.processor.pc) :=
  if_neg h

theorem fetch_of_fetchable (h : Fetchable m.processor.pc) :
    m.fetch = (m.memory.readWord m.processor.pc).map fun word : Nat => ⟨word⟩ := by
  unfold fetch
  rw [if_pos h]
  cases m.memory.readWord m.processor.pc <;> rfl

/-- Where a word can be fetched it is read: the guard of the counter implies that of memory. -/
theorem readWord_of_fetchable (hmem : m.memory.WellFormed) (h : Fetchable m.processor.pc) :
    ∃ word : Nat, m.memory.readWord m.processor.pc = .ok word ∧ word < 65536 := by
  -- the last word begins two bytes before the end
  have hr : m.memory.InRange m.processor.pc 2 := by
    obtain ⟨hlow, hhigh, -⟩ := h
    have hsize := hmem.size
    simp only [start, lastFetch, Memory.programStart, Memory.standardSize] at hlow hhigh hsize
    unfold Memory.InRange
    omega
  have hread := Memory.readWord_eq m.memory m.processor.pc
  rw [if_pos hr] at hread
  exact ⟨_, hread, Memory.readWord_lt hread⟩

/-- A word was fetched exactly where the counter allows it and memory holds it. -/
theorem fetch_eq_ok_iff {op : Opcode} :
    m.fetch = .ok op ↔
      Fetchable m.processor.pc ∧
        ∃ word : Nat, m.memory.readWord m.processor.pc = .ok word ∧ op = ⟨word⟩ := by
  by_cases h : Fetchable m.processor.pc
  · rw [fetch_of_fetchable h]
    cases m.memory.readWord m.processor.pc with
    | ok word => simp [Except.map, h, eq_comm]
    | error fault => simp [Except.map]
  · simp [fetch_of_not_fetchable h, h]

theorem fetch_congr {m' : Machine} (hmem : m'.memory = m.memory)
    (hpc : m'.processor.pc = m.processor.pc) : m'.fetch = m.fetch := by
  unfold fetch
  rw [hmem, hpc]

/-- A word of a program that is in memory, by its place in the program. -/
theorem fetch_of_program {base : Memory} (hbase : base.WellFormed) {image : List UInt8} {k : Nat}
    {high low : UInt8} (hmem : m.memory = base.placeProgram image)
    (hpc : m.processor.pc = (Memory.programStart + k : Nat)) (heven : k % 2 = 0)
    (hfit : k + 2 ≤ Memory.programLimit)
    (hhigh : image[k]? = some high) (hlow : image[k + 1]? = some low) :
    m.fetch = .ok ⟨(256 * high.toNat + low.toNat : Nat)⟩ := by
  have hread := hbase.readWord_program hfit hhigh hlow
  have hfetchable : Fetchable m.processor.pc := by
    rw [hpc]
    simp only [Fetchable, start, lastFetch, Memory.programLimit, Memory.programStart,
      Memory.standardSize] at *
    omega
  exact fetch_eq_ok_iff.mpr ⟨hfetchable, _, by rw [hmem, hpc, hread], rfl⟩

/-- The first word that a loaded program has fetched is its first two bytes. -/
theorem fetch_loaded {m' : Machine} (h : m.WellFormed) (high low : UInt8) (image : List UInt8)
    (hl : m.loadProgram (high :: low :: image) = .ok m') :
    m'.fetch = .ok ⟨(256 * high.toNat + low.toNat : Nat)⟩ := by
  obtain ⟨hfit, rfl⟩ := loadProgram_eq_ok_iff.mp hl
  exact fetch_of_program (k := 0) h.reset.memory rfl rfl rfl (by decide) rfl rfl

/-! ## Which cycle it is -/

/-- A machine that waits does not fetch: the keypad decides. -/
theorem cycle_of_waiting {register : Int} (h : m.processor.waiting = some register) :
    m.cycle = match m.keypad.firstPressed with
      | some key => .deliver key register
      | none => .idle := by
  cases hkey : m.keypad.firstPressed <;> simp only [cycle, h, hkey]

/-- A counter that no word can be fetched at is a fault before memory is looked at. -/
theorem cycle_of_not_fetchable (hw : m.processor.waiting = none)
    (h : ¬ Fetchable m.processor.pc) : m.cycle = .stray (strayCounter m.processor.pc) := by
  simp only [cycle, hw, fetch_of_not_fetchable h]

/-- A fetched word is performed if it is an instruction and skipped if not. -/
theorem cycle_of_fetch (hw : m.processor.waiting = none) {op : Opcode} (h : m.fetch = .ok op) :
    m.cycle = match Instruction.decode? op with
      | some i => .perform op i
      | none => .skip op := by
  cases hdecode : Instruction.decode? op <;> simp only [cycle, hw, h, hdecode]

/-- **The cases of a step.** What a machine with well-formed memory is about to do, and what it is
found by. -/
inductive Stage (m : Machine) : Cycle → Prop where
  | idle (register : Int) (hwaiting : m.processor.waiting = some register)
      (hkey : m.keypad.firstPressed = none) : Stage m .idle
  | deliver (key : Fin 16) (register : Int) (hwaiting : m.processor.waiting = some register)
      (hkey : m.keypad.firstPressed = some key) : Stage m (.deliver key register)
  | stray (hwaiting : m.processor.waiting = none) (hpc : ¬ Fetchable m.processor.pc) :
      Stage m (.stray (strayCounter m.processor.pc))
  | skip (op : Opcode) (hwaiting : m.processor.waiting = none) (hop : m.fetch = .ok op)
      (hdecode : Instruction.decode? op = none) : Stage m (.skip op)
  | perform (op : Opcode) (i : Instruction) (hwaiting : m.processor.waiting = none)
      (hop : m.fetch = .ok op) (hdecode : Instruction.decode? op = some i) :
      Stage m (.perform op i)

/-- Every cycle is one of the five, with what it was found by. Proofs about steps split on this and
not on `cycle`. -/
theorem stage_cycle (hmem : m.memory.WellFormed) : m.Stage m.cycle := by
  cases hw : m.processor.waiting with
  | some register =>
    rw [cycle_of_waiting hw]
    cases hkey : m.keypad.firstPressed with
    | some key => exact .deliver key register hw hkey
    | none => exact .idle register hw hkey
  | none =>
    -- with memory of its size, a word is fetched wherever the counter allows one
    by_cases hpc : Fetchable m.processor.pc
    · obtain ⟨word, hword, -⟩ := readWord_of_fetchable hmem hpc
      have hop : m.fetch = .ok ⟨word⟩ := fetch_eq_ok_iff.mpr ⟨hpc, word, hword, rfl⟩
      rw [cycle_of_fetch hw hop]
      cases hdecode : Instruction.decode? ⟨word⟩ with
      | some i => exact .perform _ i hw hop hdecode
      | none => exact .skip _ hw hop hdecode
    · rw [cycle_of_not_fetchable hw hpc]
      exact .stray hw hpc

/-! ## What becomes of the machine -/

/-- The fault that a cycle meets, before it has its context. -/
def obstacleOf? (m : Machine) : Cycle → Option Fault
  | .stray fault => some fault
  | .perform _ i => m.obstacle? i
  | _ => none

/-- The fault that the next step meets. -/
def fault? (m : Machine) : Option Fault :=
  (m.obstacleOf? m.cycle).map fun fault =>
    fault.inStep (m.cycles + 1) m.processor.pc m.cycle.word?

/-- The fault of a fetched instruction is its obstacle, with the context of the step. -/
theorem fault?_of_fetch (hw : m.processor.waiting = none) {op : Opcode} (hop : m.fetch = .ok op)
    {i : Instruction} (hdecode : Instruction.decode? op = some i) :
    m.fault? = (m.obstacle? i).map fun fault =>
      fault.inStep (m.cycles + 1) m.processor.pc (some op.word) := by
  have hcycle : m.cycle = .perform op i := by
    rw [cycle_of_fetch hw hop, hdecode]
  rw [fault?, hcycle]
  rfl

/-- **The cases of a fault.** A fault comes of a machine that waits for no key: either no word can
be fetched, or the fetched word is an instruction that meets an obstacle. -/
theorem fault?_cases (hmem : m.memory.WellFormed) {fault : Fault} (hf : m.fault? = some fault) :
    m.processor.waiting = none ∧
      (¬ Fetchable m.processor.pc ∧
          fault = (strayCounter m.processor.pc).inStep (m.cycles + 1) m.processor.pc none ∨
        ∃ op i bare, m.fetch = .ok op ∧ Instruction.decode? op = some i ∧
          m.obstacle? i = some bare ∧
          fault = bare.inStep (m.cycles + 1) m.processor.pc (some op.word)) := by
  obtain ⟨bare, hbare, rfl⟩ := Option.map_eq_some_iff.mp hf
  have hstage := stage_cycle hmem
  generalize m.cycle = c at hbare hstage ⊢
  -- of the five cycles two can meet a fault
  cases hstage with
  | idle => cases hbare
  | deliver => cases hbare
  | skip => cases hbare
  | stray hwaiting hpc =>
    cases hbare
    exact ⟨hwaiting, Or.inl ⟨hpc, rfl⟩⟩
  | perform op i hwaiting hop hdecode =>
    exact ⟨hwaiting, Or.inr ⟨op, i, bare, hop, hdecode, hbare, rfl⟩⟩

/-- The machine after a cycle that meets no fault. -/
def performed (m : Machine) : Cycle → Machine
  | .idle => m
  | .deliver key register =>
    { m with
      processor :=
        { m.processor with
          v := m.processor.v.setIfInBounds register.toNat (lowByte key.val)
          pc := m.processor.next
          waiting := none } }
  | .stray _ => m
  | .skip _ => m.mapProcessor fun p => { p with pc := p.next }
  | .perform _ i =>
    (m.effect i).mapProcessor fun p => { p with pc := (m.flowAfter i).target m.processor.pc }

/-- The machine after a step that meets no fault. -/
def completed (m : Machine) : Machine :=
  { m.performed m.cycle with cycles := m.cycles + 1 }

/-- The waiting register is one of the sixteen, so the key has somewhere to go. -/
theorem deliverKey_eq (h : m.WellFormed) {key : Fin 16} {register : Int}
    (hwaiting : m.processor.waiting = some register) :
    deliverKey key register m = .ok () (m.performed (.deliver key register)) := by
  obtain ⟨hlow, hhigh⟩ := h.processor.waiting register hwaiting
  have hslot : register.toNat < 16 := by omega
  unfold deliverKey Processor.setRegisterAt
  simp only [resolve?_depth hlow hslot, performed]
  rfl

/-- A cycle of the machine meets its obstacle, with the machine as it was, or is performed. -/
theorem performCycle_eq (h : m.WellFormed) {c : Cycle} (hc : m.Stage c) :
    performCycle c m =
      match m.obstacleOf? c with
      | some fault => .error (.fault fault) m
      | none => .ok () (m.performed c) := by
  -- only a delivery and an instruction have something to show; the others are what they say
  cases hc with
  | idle => rfl
  | deliver key register hwaiting hkey => exact deliverKey_eq h hwaiting
  | stray => rfl
  | skip => rfl
  | perform op i =>
    show follow i m = _
    unfold follow
    simp only [execute_eq h, executed, obstacleOf?]
    cases m.obstacle? i <;> rfl

/-- **A step is a fault or is completed.** -/
theorem step_eq (h : m.WellFormed) :
    m.step =
      match m.fault? with
      | some fault => .error (.fault fault) m
      | none => .ok () m.completed := by
  unfold step fault? completed
  simp only [performCycle_eq h (stage_cycle h.memory)]
  cases m.obstacleOf? m.cycle <;> rfl

theorem step_of_fault (h : m.WellFormed) {fault : Fault} (hf : m.fault? = some fault) :
    m.step = .error (.fault fault) m := by
  rw [step_eq h, hf]

theorem step_of_clear (h : m.WellFormed) (hf : m.fault? = none) :
    m.step = .ok () m.completed := by
  rw [step_eq h, hf]

/-- A step fails by its fault and in no other way. -/
theorem step_eq_error_iff (h : m.WellFormed) {e : Error} {m' : Machine} :
    m.step = .error e m' ↔ m' = m ∧ ∃ fault, m.fault? = some fault ∧ e = .fault fault := by
  cases hf : m.fault? with
  | some fault =>
    rw [step_of_fault h hf]
    simp [and_comm, eq_comm]
  | none =>
    rw [step_of_clear h hf]
    simp

/-- The machine after a step: as it was, or with the step completed. -/
theorem after_step (h : m.WellFormed) :
    step.after m = m ∨ m.fault? = none ∧ step.after m = m.completed := by
  cases hf : m.fault? with
  | some fault => exact Or.inl (Action.after_of_error (step_of_fault h hf))
  | none => exact Or.inr ⟨rfl, Action.after_of_ok (step_of_clear h hf)⟩

/-! ## A completed step stays in range -/

/-- A cycle that meets no fault leaves a well-formed machine. The counter is the part to look at: it
is wrapped, or it is where an instruction goes on. -/
theorem WellFormed.performed (h : m.WellFormed) {c : Cycle} (hc : m.Stage c)
    (hclear : m.obstacleOf? c = none) : (m.performed c).WellFormed := by
  have hnext : 0 ≤ m.processor.next ∧ m.processor.next < 65536 := wrapAddress_range _
  have hp := h.processor
  -- a cycle that goes on at the next word stays in range because that is wrapped
  cases hc with
  | idle => exact h
  | deliver key register => exact ⟨⟨hp.index, hnext, hp.depth, by simp [Machine.performed]⟩,
      h.memory, h.screen⟩
  | stray => exact h
  | skip => exact ⟨hp.jump hnext, h.memory, h.screen⟩
  | perform op i _ hop _ =>
    have heffect := h.effect hclear
    have hpc : m.processor.pc ≤ 4094 := (fetch_eq_ok_iff.mp hop).1.2.1
    exact ⟨heffect.processor.jump (target_flowAfter_range h hpc i), heffect.memory,
      heffect.screen⟩

theorem obstacleOf?_of_clear (hf : m.fault? = none) : m.obstacleOf? m.cycle = none :=
  Option.map_eq_none_iff.mp hf

/-- Counting the step changes nothing that is asked of a machine. -/
theorem WellFormed.completed (h : m.WellFormed) (hf : m.fault? = none) :
    m.completed.WellFormed := by
  have hperformed := h.performed (stage_cycle h.memory) (obstacleOf?_of_clear hf)
  exact ⟨hperformed.processor, hperformed.memory, hperformed.screen⟩

/-- Only an instruction sets the timers; the machine need not be well-formed otherwise. -/
theorem timersFit_performed (ht : m.processor.TimersFit) (c : Cycle) :
    (m.performed c).processor.TimersFit := by
  cases c with
  | perform op i =>
    have heffect := timersFit_effect ht i
    exact ⟨heffect.delay, heffect.sound⟩
  | _ => exact ⟨ht.delay, ht.sound⟩

end ChipEight.Machine
