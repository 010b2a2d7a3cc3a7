import ChipEight.Proofs.Machine.Invariant

/-!
# Failed steps

A step that fails has done nothing, says where it failed, and fails the same way again for as long
as nobody but the clock, the source of random bytes, the screen and the keypad has a say.

* **`context_of_fault?`** — the context of the fault that the next step meets.
* **`Alike`**, **`fault?_congr`** — what the fault depends on. Registers, timers, screen, keypad and
  random bytes are not among it.
* **`kept_alike`** — no peripheral event touches what the fault depends on.
* **`step_failed`** — the three together, for whole histories of peripheral events.
-/

namespace ChipEight.Machine

variable {m m' : Machine}

/-! ## The context of a fault -/

/-- A waiting machine meets no fault, wherever its counter is. -/
theorem fault?_of_waiting {register : Int} (h : m.processor.waiting = some register) :
    m.fault? = none := by
  rw [fault?, cycle_of_waiting h]
  cases m.keypad.firstPressed <;> rfl

/-- **A fault says where it arose**: in which step, at which counter, and over which word, if one
was fetched. -/
theorem context_of_fault? (hmem : m.memory.WellFormed) {fault : Fault}
    (hf : m.fault? = some fault) :
    fault.step = m.cycles + 1 ∧ fault.address = m.processor.pc ∧
      fault.opcode = m.fetch.toOption.map Opcode.word := by
  obtain ⟨-, ⟨hpc, rfl⟩ | ⟨op, i, bare, hop, -, -, rfl⟩⟩ := fault?_cases hmem hf
  · rw [fetch_of_not_fetchable hpc]
    exact ⟨rfl, rfl, rfl⟩
  · rw [hop]
    exact ⟨rfl, rfl, rfl⟩

/-! ## What a fault depends on -/

/-- Two machines are alike in everything that a fault depends on. -/
structure Alike (m m' : Machine) : Prop where
  memory : m'.memory = m.memory
  index : m'.processor.i = m.processor.i
  counter : m'.processor.pc = m.processor.pc
  depth : m'.processor.sp = m.processor.sp
  waiting : m'.processor.waiting = m.processor.waiting
  cycles : m'.cycles = m.cycles

namespace Alike

/-- A machine is like itself: this is where an induction over peripheral events begins. -/
theorem refl (m : Machine) : Alike m m :=
  ⟨rfl, rfl, rfl, rfl, rfl, rfl⟩

/-- Alike machines fetch the same word, or fail alike. -/
theorem fetch_congr (h : Alike m m') : m'.fetch = m.fetch :=
  Machine.fetch_congr h.memory h.counter

/-- An instruction meets the same obstacle: it is found in processor and memory. -/
theorem obstacle?_congr (h : Alike m m') (i : Instruction) : m'.obstacle? i = m.obstacle? i := by
  unfold obstacle? outOfReach
  rw [h.memory, h.index, h.counter, h.depth]

theorem obstacleOf?_congr (h : Alike m m') (c : Cycle) : m'.obstacleOf? c = m.obstacleOf? c := by
  cases c with
  | perform op i => exact h.obstacle?_congr i
  | _ => rfl

/-- A machine that waits for no key is about to do the same as one alike. -/
theorem cycle_congr (h : Alike m m') (hw : m.processor.waiting = none) : m'.cycle = m.cycle := by
  simp only [cycle, h.waiting, hw, h.fetch_congr]

/-- **The fault is a function of the processor's addresses, memory and the number of cycles.** The
keypad decides what a waiting machine does, but a waiting machine meets no fault. -/
theorem fault?_congr (h : Alike m m') : m'.fault? = m.fault? := by
  cases hw : m.processor.waiting with
  | some register =>
    rw [fault?_of_waiting hw, fault?_of_waiting (h.waiting.trans hw)]
  | none =>
    unfold fault?
    rw [h.cycle_congr hw, h.obstacleOf?_congr, h.cycles, h.counter]

end Alike

/-! ## Peripheral events -/

/-- Peripheral events leave a machine alike: a tick lowers the timers, the others set a part that no
fault depends on. -/
theorem kept_alike (m : Machine) : Kept Event.Kind.peripheral (Alike m) where
  load hkind := absurd hkind (by decide)
  reset hkind := absurd hkind (by decide)
  step hkind := absurd hkind (by decide)
  tick _ _ h := ⟨h.memory, h.index, h.counter, h.depth, h.waiting, h.cycles⟩
  seed _ _ _ h := ⟨h.memory, h.index, h.counter, h.depth, h.waiting, h.cycles⟩
  execute hkind := absurd hkind (by decide)
  processor hkind := absurd hkind (by decide)
  memory hkind := absurd hkind (by decide)
  screen _ _ _ h := ⟨h.memory, h.index, h.counter, h.depth, h.waiting, h.cycles⟩
  keypad _ _ _ h := ⟨h.memory, h.index, h.counter, h.depth, h.waiting, h.cycles⟩

/-- What happens beside the program is not an assignment to the processor. -/
theorem peripheral_subset_foreign : Event.Kind.peripheral ⊆ Event.Kind.foreign := by
  decide

/-- A fault outlasts peripheral events. -/
theorem step_afterAll_of_fault? (h : m.WellFormed) {fault : Fault} (hf : m.fault? = some fault)
    {events : List Event} (hkinds : ∀ event ∈ events, event.kind ∈ Event.Kind.peripheral) :
    (m.afterAll events).step = .error (.fault fault) (m.afterAll events) := by
  have hwell : (m.afterAll events).WellFormed :=
    kept_wellFormed.afterAll h events fun event hevent =>
      peripheral_subset_foreign (hkinds event hevent)
  have halike : Alike m (m.afterAll events) := (kept_alike m).afterAll (.refl m) events hkinds
  exact step_of_fault hwell (halike.fault?_congr.trans hf)

/-! ## A failed step -/

/-- **A step that fails has not happened.** On a well-formed machine it leaves the machine as it
was, fails by a fault that names the step, the counter and the word, if one was fetched, and after
any history of peripheral events the next step fails by the same fault. -/
theorem step_failed (h : m.WellFormed) {e : Error} (hstep : m.step = .error e m') :
    m' = m ∧
      (∃ fault, e = .fault fault ∧ fault.step = m.cycles + 1 ∧
        fault.address = m.processor.pc ∧ fault.opcode = m.fetch.toOption.map Opcode.word) ∧
      ∀ events : List Event, (∀ event ∈ events, event.kind ∈ Event.Kind.peripheral) →
        (m'.afterAll events).step = .error e (m'.afterAll events) := by
  obtain ⟨rfl, fault, hf, rfl⟩ := (step_eq_error_iff h).mp hstep
  exact ⟨rfl, ⟨fault, rfl, context_of_fault? h.memory hf⟩,
    fun events hkinds => step_afterAll_of_fault? h hf hkinds⟩

/-! ## A program that fails at once -/

/-- A machine whose program begins by returning, with nothing to return to. -/
def emptyReturn : Machine :=
  (powerOn (Random.ofSeed 0)).afterAll [.command (.loadProgram [0x00, 0xEE])]

theorem wellFormed_emptyReturn : emptyReturn.WellFormed :=
  kept_wellFormed.afterAll (wellFormed_powerOn _) _ (by decide)

theorem fetch_emptyReturn : emptyReturn.fetch = .ok ⟨0x00EE⟩ :=
  fetch_loaded (wellFormed_powerOn (Random.ofSeed 0)) 0x00 0xEE []
    (loadProgram_eq_ok_iff.mpr ⟨by decide, rfl⟩)

theorem fault?_emptyReturn :
    emptyReturn.fault? =
      some { cause := .stackUnderflow, step := 1, address := 0x200, opcode := some 0x00EE } := by
  rw [fault?_of_fetch rfl fetch_emptyReturn rfl]
  rfl

/-- The return fails, and fails again after a tick, a key and a cleared screen. -/
theorem step_failed_emptyReturn :
    emptyReturn.WellFormed ∧ ∃ e m', emptyReturn.step = .error e m' ∧ m' = emptyReturn ∧
      let later := m'.afterAll
        [.command (.tick 1), .command (.keypad (.press 5)), .command (.screen .clear)]
      later.step = .error e later := by
  have hstep := step_of_fault wellFormed_emptyReturn fault?_emptyReturn
  obtain ⟨hsame, -, hlater⟩ := step_failed wellFormed_emptyReturn hstep
  exact ⟨wellFormed_emptyReturn, _, _, hstep, hsame, hlater _ (by decide)⟩

end ChipEight.Machine
