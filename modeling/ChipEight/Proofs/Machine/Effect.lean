import ChipEight.Proofs.Instruction.Form
import ChipEight.Proofs.Machine.WellFormed

/-!
# The effect of an instruction

An instruction is executed case by case, each case saying what becomes of the whole machine. Here
the same is said part by part: for each part of the machine one function says what every instruction
makes of it, and mostly that is nothing.

* **`obstacle?`** — the fault that an instruction meets, if it meets one. It is found before
  anything is changed.
* **`effect`**, **`flowAfter`** — the machine after an instruction that meets none, put together
  from its parts, and where the program goes on.
* **`execute_eq`** — on a well-formed machine these two are all there is to an execution. What
  instructions keep, change and depend on is read off the parts from then on, and `execute` is not
  opened again.
* **`executeWord_of_clear`**, **`executeWord_of_obstacle`** — the same for a word that is executed
  directly.
-/

namespace ChipEight

namespace Machine

/-! ## Obstacles -/

/-- The fault of an access to `length` bytes from the index on, if they do not all lie in memory. -/
def outOfReach (m : Machine) (length : Nat) : Option Fault :=
  if m.memory.InRange m.processor.i length then none
  else some (Memory.outOfRange m.processor.i)

/-- The fault that an instruction meets. -/
def obstacle? (m : Machine) : Instruction → Option Fault
  | .ret =>
    if m.processor.sp = 0 then
      some { cause := .stackUnderflow, address := m.processor.pc }
    else none
  | .call _ =>
    if Processor.stackDepth ≤ m.processor.sp then
      some { cause := .stackOverflow Processor.stackDepth, address := m.processor.pc }
    else none
  | .draw _ _ rows => m.outOfReach rows.val
  | .storeDecimal _ => m.outOfReach 3
  | .storeRegisters x => m.outOfReach (x.val + 1)
  | .loadRegisters x => m.outOfReach (x.val + 1)
  | _ => none

/-! ## The parts afterwards -/

/-- The bytes from the index on. -/
def blockAtIndex (m : Machine) (length : Nat) : List UInt8 :=
  m.memory.block m.processor.i.toNat length

/-- The pixels with a sprite drawn on them, and whether it collided. -/
def drawn (m : Machine) (x y rows : Fin 16) : Array Bool × Bool :=
  (m.screen.targets (m.register x).toNat (m.register y).toNat (m.blockAtIndex rows.val)).foldl
    Screen.invert (m.screen.pixels, false)

/-- Memory with a block stored from the index on. -/
def storedAtIndex (m : Machine) (block : List UInt8) : Memory :=
  { m.memory with bytes := Memory.store m.memory.bytes m.processor.i.toNat block }

/-- The machine with other registers. -/
def withRegisters (m : Machine) (v : Vector UInt8 16) : Machine :=
  { m with processor := { m.processor with v } }

/-- The registers after an instruction. -/
def registersAfter (m : Machine) : Instruction → Vector UInt8 16
  | .load x byte => m.processor.v.setIfInBounds x byte
  | .addByte x byte => m.processor.v.setIfInBounds x (m.register x + byte)
  | .combine op x y => (m.processor.combine op x y).v
  | .random x mask => m.processor.v.setIfInBounds x ((Random.byte m.random).1 &&& mask)
  | .draw x y rows =>
    m.processor.v.setIfInBounds Processor.flag (if (m.drawn x y rows).2 then 1 else 0)
  | .readDelay x => m.processor.v.setIfInBounds x (lowByte m.processor.delay)
  | .awaitKey x =>
    match m.keypad.firstPressed with
    | some key => m.processor.v.setIfInBounds x (UInt8.ofNat key.val)
    | none => m.processor.v
  | .loadRegisters x => (m.processor.setRegisters (m.blockAtIndex (x.val + 1))).v
  | _ => m.processor.v

/-- The index after an instruction. -/
def indexAfter (m : Machine) : Instruction → Int
  | .setIndex target => wrapAddress target.val
  | .addIndex x => wrapAddress (m.processor.i + (m.register x).toNat)
  | .pointGlyph x => wrapAddress (Memory.Font.glyphAddress (m.register x).toNat)
  | _ => m.processor.i

/-- The stack slots after an instruction. -/
def stackAfter (m : Machine) : Instruction → Vector UInt16 16
  | .call _ =>
    m.processor.stack.setIfInBounds m.processor.sp.toNat (lowWord (m.processor.pc + 2))
  | _ => m.processor.stack

/-- The depth of the stack after an instruction. -/
def depthAfter (m : Machine) : Instruction → Int
  | .call _ => m.processor.sp + 1
  | .ret => m.processor.sp - 1
  | _ => m.processor.sp

/-- The delay timer after an instruction. -/
def delayAfter (m : Machine) : Instruction → Int
  | .setDelay x => (m.register x).toNat
  | _ => m.processor.delay

/-- The sound timer after an instruction. -/
def soundAfter (m : Machine) : Instruction → Int
  | .setSound x => (m.register x).toNat
  | _ => m.processor.sound

/-- The register that waits for a key after an instruction. -/
def waitingAfter (m : Machine) : Instruction → Option Int
  | .awaitKey x =>
    match m.keypad.firstPressed with
    | some _ => m.processor.waiting
    | none => some x.val
  | _ => m.processor.waiting

/-- Memory after an instruction. -/
def memoryAfter (m : Machine) : Instruction → Memory
  | .storeDecimal x => m.storedAtIndex (decimalDigits (m.register x))
  | .storeRegisters x => m.storedAtIndex (m.processor.registersUpTo x)
  | _ => m.memory

/-- The screen after an instruction. -/
def screenAfter (m : Machine) : Instruction → Screen
  | .clearScreen => m.screen.clear
  | .draw x y rows => { m.screen with pixels := (m.drawn x y rows).1, dirty := true }
  | _ => m.screen

/-- The source of random bytes after an instruction. -/
def randomAfter (m : Machine) : Instruction → Random.Twister
  | .random _ _ => (Random.byte m.random).2
  | _ => m.random

/-- Where the program goes on after an instruction. -/
def flowAfter (m : Machine) : Instruction → Flow
  | .ret => .jump (m.processor.stack[(m.processor.sp - 1).toNat]?.getD 0).toNat
  | .jump target => .jump target.val
  | .call target => .jump target.val
  | .skipIf test => if m.holds test then .jump (m.processor.pc + 4) else .advance
  | .jumpOffset target => .jump (wrapAddress (target.val + (m.register Processor.offset).toNat))
  | .awaitKey _ =>
    match m.keypad.firstPressed with
    | some _ => .advance
    | none => .jump m.processor.pc
  | _ => .advance

/-- The machine after an instruction that meets no obstacle. Counter, keypad and cycles are not for
instructions to change. -/
def effect (m : Machine) (i : Instruction) : Machine where
  processor :=
    { v := m.registersAfter i
      i := m.indexAfter i
      pc := m.processor.pc
      stack := m.stackAfter i
      sp := m.depthAfter i
      delay := m.delayAfter i
      sound := m.soundAfter i
      waiting := m.waitingAfter i }
  memory := m.memoryAfter i
  screen := m.screenAfter i
  keypad := m.keypad
  random := m.randomAfter i
  cycles := m.cycles

/-! ## Execution is its effect -/

/-- What an execution comes to: the obstacle, or else the effect. -/
def executed (m : Machine) (i : Instruction) : EStateM.Result Error Machine Flow :=
  match m.obstacle? i with
  | some fault => .error (.fault fault) m
  | none => .ok (m.flowAfter i) (m.effect i)

variable {m : Machine}

theorem executed_of_obstacle {i : Instruction} {fault : Fault} (h : m.obstacle? i = some fault) :
    m.executed i = .error (.fault fault) m := by
  rw [executed, h]

theorem executed_of_clear {i : Instruction} (h : m.obstacle? i = none) :
    m.executed i = .ok (m.flowAfter i) (m.effect i) := by
  rw [executed, h]

theorem outOfReach_of_inRange {length : Nat} (h : m.memory.InRange m.processor.i length) :
    m.outOfReach length = none :=
  if_pos h

theorem outOfReach_of_not_inRange {length : Nat} (h : ¬ m.memory.InRange m.processor.i length) :
    m.outOfReach length = some (Memory.outOfRange m.processor.i) :=
  if_neg h

/-- On a well-formed machine the index is no negative one, so an access fails only by its end. An
access to no bytes at all fails as well, where the index is past the end. -/
theorem inRange_index_iff (h : m.WellFormed) {length : Nat} :
    m.memory.InRange m.processor.i length ↔ m.processor.i + length ≤ 4096 := by
  unfold Memory.InRange
  rw [h.memory.size]
  exact and_iff_right h.processor.index.1

theorem outOfReach_of_fits (h : m.WellFormed) {length : Nat} (hi : m.processor.i + length ≤ 4096) :
    m.outOfReach length = none :=
  outOfReach_of_inRange ((inRange_index_iff h).mpr hi)

/-- An access that ends past the last byte is refused, and the fault names the index and not the
byte that is missing. -/
theorem outOfReach_of_past_end (h : m.WellFormed) {length : Nat}
    (hi : 4096 < m.processor.i + length) :
    m.outOfReach length = some (Memory.outOfRange m.processor.i) :=
  outOfReach_of_not_inRange fun hin => absurd ((inRange_index_iff h).mp hin) (by omega)

/-- A combination changes nothing but registers, whether it writes the flag or not. -/
theorem combine_eq (p : Processor) (op : Instruction.Alu) (x y : Fin 16) :
    p.combine op x y = { p with v := (p.combine op x y).v } := by
  simp only [Processor.combine]
  -- both ways of storing the outcome assign to registers alone
  cases (op.apply (p.register x) (p.register y)).flag <;> rfl

/-- Whether a combination writes the flag is decided by the operation, so only the registers are
named. -/
theorem execute_combine (m : Machine) (op : Instruction.Alu) (x y : Fin 16) :
    execute (.combine op x y) m =
      .ok .advance (m.withRegisters (m.processor.combine op x y).v) := by
  show EStateM.Result.ok Flow.advance { m with processor := m.processor.combine op x y } = _
  rw [combine_eq]
  rfl

/-- A number that is kept as an integer and is known to be in range names a register. -/
theorem exists_fin_eq {n : Int} (hlow : 0 ≤ n) (hhigh : n < 16) : ∃ k : Fin 16, n = k.val := by
  refine ⟨⟨n.toNat, by omega⟩, ?_⟩
  show n = (n.toNat : Int)
  omega

/-- A depth that is no negative one names the slot of that number: the rule that counts negative
positions from the end does not come in. -/
theorem resolve?_depth {depth : Int} (hlow : 0 ≤ depth) (hslot : depth.toNat < 16) :
    Position.resolve? 16 depth = some ⟨depth.toNat, hslot⟩ := by
  have hresolve := Position.resolve?_ofNat hslot
  rwa [Int.toNat_of_nonneg hlow] at hresolve

/-- A return meets the empty stack or goes on where the slot below the depth says. -/
theorem returnFromCall_eq (h : m.WellFormed) : returnFromCall m = m.executed .ret := by
  obtain ⟨hlow, hhigh⟩ := h.processor.depth
  unfold returnFromCall Processor.pop
  by_cases hsp : m.processor.sp = 0
  · have hobstacle : m.obstacle? .ret = some _ := if_pos hsp
    rw [executed_of_obstacle hobstacle, if_pos hsp]
  · have hclear : m.obstacle? .ret = none := if_neg hsp
    have hslot : (m.processor.sp - 1).toNat < 16 := by omega
    -- the slot below the depth exists, so nothing is read by default
    have hread : m.processor.stack[(m.processor.sp - 1).toNat]?.getD 0
        = m.processor.stack[(m.processor.sp - 1).toNat] := by
      rw [Vector.getElem?_eq_getElem hslot, Option.getD_some]
    rw [executed_of_clear hclear, if_neg hsp]
    simp only [resolve?_depth (by omega) hslot, flowAfter, hread]
    rfl

/-- A call meets the full stack or fills the slot at the depth. -/
theorem callRoutine_eq (h : m.WellFormed) (target : Fin 4096) :
    callRoutine target m = m.executed (.call target) := by
  obtain ⟨hlow, hhigh⟩ := h.processor.depth
  unfold callRoutine Processor.push
  by_cases hsp : (Processor.stackDepth : Int) ≤ m.processor.sp
  · have hobstacle : m.obstacle? (.call target) = some _ := if_pos hsp
    rw [executed_of_obstacle hobstacle, if_pos hsp]
  · -- the depth names a slot: it is no negative one, and the stack is not full
    have hclear : m.obstacle? (.call target) = none := if_neg hsp
    have hslot : m.processor.sp.toNat < 16 := by
      unfold Processor.stackDepth at hsp
      omega
    rw [executed_of_clear hclear, if_neg hsp]
    simp only [resolve?_depth hlow hslot]
    rfl

/-- A block is stored as a whole or not at all. -/
theorem storeAtIndex_eq (block : List UInt8) :
    storeAtIndex block m =
      match m.outOfReach block.length with
      | some fault => .error (.fault fault) m
      | none => .ok .advance { m with memory := m.storedAtIndex block } := by
  unfold storeAtIndex
  rw [Memory.writeBlock_eq]
  -- the range is checked as a whole before a byte is stored
  by_cases hr : m.memory.InRange m.processor.i block.length
  · rw [if_pos hr, outOfReach_of_inRange hr]
    rfl
  · rw [if_neg hr, outOfReach_of_not_inRange hr]

/-- A drawing reads its sprite first, which is all that can be in its way: the screen has the
standard size. -/
theorem drawAtIndex_eq (h : m.WellFormed) (x y rows : Fin 16) :
    drawAtIndex x y rows m = m.executed (.draw x y rows) := by
  unfold drawAtIndex
  by_cases hr : m.memory.InRange m.processor.i rows.val
  · have hclear : m.obstacle? (.draw x y rows) = none := outOfReach_of_inRange hr
    rw [executed_of_clear hclear, h.memory.extent.covered.readBlock_eq hr]
    simp only [h.screen.framed.draw_eq]
    rfl
  · have hobstacle : m.obstacle? (.draw x y rows) = some _ := outOfReach_of_not_inRange hr
    rw [executed_of_obstacle hobstacle, Memory.readBlock_eq, if_neg hr]

/-- Registers are loaded as a whole or not at all. -/
theorem loadFromIndex_eq (h : m.WellFormed) (x : Fin 16) :
    loadFromIndex x m = m.executed (.loadRegisters x) := by
  unfold loadFromIndex
  by_cases hr : m.memory.InRange m.processor.i (x.val + 1 : Nat)
  · have hclear : m.obstacle? (.loadRegisters x) = none := outOfReach_of_inRange hr
    rw [executed_of_clear hclear, h.memory.extent.covered.readBlock_eq hr]
    rfl
  · have hobstacle : m.obstacle? (.loadRegisters x) = some _ := outOfReach_of_not_inRange hr
    rw [executed_of_obstacle hobstacle, Memory.readBlock_eq, if_neg hr]

theorem loadKey_eq (x : Fin 16) : loadKey x m = m.executed (.awaitKey x) := by
  have hclear : m.obstacle? (.awaitKey x) = none := rfl
  rw [executed_of_clear hclear]
  simp only [loadKey, flowAfter, effect, registersAfter, waitingAfter]
  cases m.keypad.firstPressed <;> rfl

/-- **Execution is its effect.** On a well-formed machine an instruction either meets its obstacle,
with the machine as it was, or has its effect. -/
theorem execute_eq (h : m.WellFormed) (i : Instruction) : execute i m = m.executed i := by
  -- the instructions that are not listed change a part or two, and their execution says which
  cases i with
  | ret => exact returnFromCall_eq h
  | call target => exact callRoutine_eq h target
  | combine op x y => exact execute_combine m op x y
  | draw x y rows => exact drawAtIndex_eq h x y rows
  | awaitKey x => exact loadKey_eq x
  | storeDecimal x =>
    have hlength : (decimalDigits (m.register x)).length = 3 := rfl
    show storeAtIndex (decimalDigits (m.register x)) m = _
    rw [storeAtIndex_eq, hlength]
    rfl
  | storeRegisters x =>
    show storeAtIndex (m.processor.registersUpTo x) m = _
    rw [storeAtIndex_eq, Processor.length_registersUpTo]
    rfl
  | loadRegisters x => exact loadFromIndex_eq h x
  | _ => rfl

/-! ## Words executed directly -/

theorem executeWord_of_denotes {op : Opcode} {i : Instruction} (hop : op.Denotes i) :
    executeWord op m = execute i m := by
  have hdecode : Instruction.decode op = .ok i := by
    rw [Instruction.decode, Instruction.decode?_of_denotes hop]
  rw [executeWord, hdecode]

/-- A word whose instruction meets no obstacle has its effect, and answers where the program would
go on; the counter is left to the caller. -/
theorem executeWord_of_clear (h : m.WellFormed) {op : Opcode} {i : Instruction} (hop : op.Denotes i)
    (hclear : m.obstacle? i = none) : executeWord op m = .ok (m.flowAfter i) (m.effect i) := by
  rw [executeWord_of_denotes hop, execute_eq h, executed_of_clear hclear]

theorem executeWord_of_obstacle (h : m.WellFormed) {op : Opcode} {i : Instruction}
    (hop : op.Denotes i) {fault : Fault} (hobstacle : m.obstacle? i = some fault) :
    executeWord op m = .error (.fault fault) m := by
  rw [executeWord_of_denotes hop, execute_eq h, executed_of_obstacle hobstacle]

/-- A word that is executed directly is no instruction, meets an obstacle or has its effect. -/
theorem after_executeWord (h : m.WellFormed) (op : Opcode) :
    (executeWord op).after m = m ∨
      ∃ i, m.obstacle? i = none ∧ (executeWord op).after m = m.effect i := by
  unfold executeWord Action.after
  -- a word that is no instruction fails before the machine is looked at
  cases Instruction.decode op with
  | error fault => exact Or.inl rfl
  | ok i =>
    simp only [execute_eq h]
    cases hobstacle : m.obstacle? i with
    | some fault =>
      rw [executed_of_obstacle hobstacle]
      exact Or.inl rfl
    | none =>
      rw [executed_of_clear hobstacle]
      exact Or.inr ⟨i, hobstacle, rfl⟩

/-! ## The effect stays in range

Part by part, so that each part is looked at once: only three instructions set the index, two the
depth, two the memory and two the screen. -/

/-- The index is set by three instructions, each of which wraps it to 16 bits. -/
theorem indexAfter_range (h : m.WellFormed) (i : Instruction) :
    0 ≤ m.indexAfter i ∧ m.indexAfter i < 65536 := by
  cases i with
  | setIndex target => exact wrapAddress_range _
  | addIndex x => exact wrapAddress_range _
  | pointGlyph x => exact wrapAddress_range _
  | _ => exact h.processor.index

/-- The depth stays between the bounds because a full stack and an empty one are obstacles. -/
theorem depthAfter_range (h : m.WellFormed) {i : Instruction} (hclear : m.obstacle? i = none) :
    0 ≤ m.depthAfter i ∧ m.depthAfter i ≤ 16 := by
  obtain ⟨hlow, hhigh⟩ := h.processor.depth
  -- the two instructions that change the depth have met no obstacle at its ends
  cases i with
  | ret =>
    have hsp : ¬ m.processor.sp = 0 := by
      intro hsp
      rw [obstacle?, if_pos hsp] at hclear
      cases hclear
    show 0 ≤ m.processor.sp - 1 ∧ m.processor.sp - 1 ≤ 16
    omega
  | call target =>
    have hsp : ¬ (Processor.stackDepth : Int) ≤ m.processor.sp := by
      intro hsp
      rw [obstacle?, if_pos hsp] at hclear
      cases hclear
    show 0 ≤ m.processor.sp + 1 ∧ m.processor.sp + 1 ≤ 16
    unfold Processor.stackDepth at hsp
    omega
  | _ => exact h.processor.depth

/-- Only one instruction changes the wait, and only where no key is down. -/
theorem waitingAfter_ne {i : Instruction} (hne : m.waitingAfter i ≠ m.processor.waiting) :
    ∃ x : Fin 16, i = .awaitKey x ∧ m.keypad.firstPressed = none ∧
      m.waitingAfter i = some (x.val : Int) := by
  cases i with
  | awaitKey x =>
    unfold waitingAfter at hne ⊢
    cases hkey : m.keypad.firstPressed with
    | some key =>
      simp only [hkey] at hne
      exact absurd rfl hne
    | none => exact ⟨x, rfl, rfl, rfl⟩
  | _ => exact absurd rfl hne

/-- A wait names the register of the instruction that began it. -/
theorem waitingAfter_range (h : m.WellFormed) (i : Instruction) (register : Int)
    (hwaiting : m.waitingAfter i = some register) : 0 ≤ register ∧ register < 16 := by
  by_cases hsame : m.waitingAfter i = m.processor.waiting
  · exact h.processor.waiting register (hsame.symm.trans hwaiting)
  · obtain ⟨x, -, -, hset⟩ := waitingAfter_ne hsame
    have hregister : (x.val : Int) = register := Option.some.inj (hset.symm.trans hwaiting)
    omega

/-- Storing a block keeps the size of memory, also where the block would end past it. -/
theorem WellFormed.storedAtIndex (h : m.WellFormed) (block : List UInt8) :
    (m.storedAtIndex block).WellFormed :=
  ⟨h.memory.size, by rw [Machine.storedAtIndex, Memory.size_store, h.memory.held]⟩

theorem wellFormed_memoryAfter (h : m.WellFormed) (i : Instruction) :
    (m.memoryAfter i).WellFormed := by
  cases i with
  | storeDecimal x => exact h.storedAtIndex _
  | storeRegisters x => exact h.storedAtIndex _
  | _ => exact h.memory

/-- Clearing and drawing change pixels and not how many there are. -/
theorem wellFormed_screenAfter (h : m.WellFormed) (i : Instruction) :
    (m.screenAfter i).WellFormed := by
  cases i with
  | clearScreen => exact h.screen.clear
  | draw x y rows =>
    exact ⟨h.screen.width, h.screen.height,
      by rw [screenAfter, drawn, Screen.size_foldl_invert, h.screen.pixels]⟩
  | _ => exact h.screen

theorem register_range (m : Machine) (x : Fin 16) :
    0 ≤ ((m.register x).toNat : Int) ∧ ((m.register x).toNat : Int) < 256 := by
  have hbyte := (m.register x).toNat_lt
  omega

theorem delayAfter_range (h : m.processor.TimersFit) (i : Instruction) :
    0 ≤ m.delayAfter i ∧ m.delayAfter i < 256 := by
  cases i with
  | setDelay x => exact register_range m x
  | _ => exact h.delay

theorem soundAfter_range (h : m.processor.TimersFit) (i : Instruction) :
    0 ≤ m.soundAfter i ∧ m.soundAfter i < 256 := by
  cases i with
  | setSound x => exact register_range m x
  | _ => exact h.sound

/-- Timers are set from registers only, so they are bytes. -/
theorem timersFit_effect (h : m.processor.TimersFit) (i : Instruction) :
    (m.effect i).processor.TimersFit :=
  ⟨delayAfter_range h i, soundAfter_range h i⟩

/-- **An effect leaves a well-formed machine.** -/
theorem WellFormed.effect (h : m.WellFormed) {i : Instruction} (hclear : m.obstacle? i = none) :
    (m.effect i).WellFormed where
  processor := ⟨indexAfter_range h i, h.processor.counter, depthAfter_range h hclear,
    waitingAfter_range h i⟩
  memory := wellFormed_memoryAfter h i
  screen := wellFormed_screenAfter h i

/-- Where a program goes on is an address: skips are taken from where a word can be fetched, which
leaves room for the two words they step over. -/
theorem target_flowAfter_range (h : m.WellFormed) (hpc : m.processor.pc ≤ 4094)
    (i : Instruction) :
    0 ≤ (m.flowAfter i).target m.processor.pc ∧
      (m.flowAfter i).target m.processor.pc < 65536 := by
  have hadvance : 0 ≤ Flow.advance.target m.processor.pc ∧
      Flow.advance.target m.processor.pc < 65536 := wrapAddress_range _
  obtain ⟨hlow, hhigh⟩ := h.processor.counter
  -- targets are addresses by their type; only skips add to the counter without wrapping
  cases i with
  | ret =>
    have := (m.processor.stack[(m.processor.sp - 1).toNat]?.getD 0).toNat_lt
    simp only [flowAfter, Flow.target]
    omega
  | jump target =>
    simp only [flowAfter, Flow.target]
    omega
  | call target =>
    simp only [flowAfter, Flow.target]
    omega
  | skipIf test =>
    simp only [flowAfter]
    split
    · -- a skip is not wrapped around: it stays an address because the counter is at most 4094
      simp only [Flow.target]
      omega
    · exact hadvance
  | jumpOffset target => exact wrapAddress_range _
  | awaitKey x =>
    simp only [flowAfter]
    split
    · exact hadvance
    · exact ⟨hlow, hhigh⟩
  | _ => exact hadvance

end Machine

end ChipEight
