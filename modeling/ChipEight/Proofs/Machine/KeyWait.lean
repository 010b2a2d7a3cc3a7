import ChipEight.Proofs.Instruction.Form
import ChipEight.Proofs.Machine.Atomicity

/-!
# Waiting for a key

A machine that waits for a key is resumed without its instruction being fetched again. That it might
as well be fetched again is no fact about a single step: it needs that the counter is still at the
instruction that began the wait, and that the instruction is still there.

* **`WaitsInPlace`** — the invariant that says so.
* **`kept_waitsInPlace`** — as long as processor and memory are left to the program, every event
  keeps it. A waiting machine executes nothing, so the program cannot write over the instruction,
  and only a key or a fresh start ends the wait.
* **`step_forgetWait`** — where it holds, forgetting the wait makes no difference to the next step.
-/

namespace ChipEight.Machine

variable {m m' : Machine}

/-- If the machine waits for a key, the instruction at its counter is the one that waits for a key
in the same register. -/
def WaitsInPlace (m : Machine) : Prop :=
  ∀ register, m.processor.waiting = some register →
    ∃ op x, m.fetch = .ok op ∧ op.Denotes (.awaitKey x) ∧ register = x.val

/-- The machine with its wait forgotten. -/
def forgetWait (m : Machine) : Machine :=
  m.mapProcessor fun p => { p with waiting := none }

/-! ## The invariant -/

theorem waitsInPlace_of_not_waiting (h : m.processor.waiting = none) : m.WaitsInPlace := by
  intro register hwaiting
  rw [h] at hwaiting
  cases hwaiting

/-- Machines alike wait alike: the counter and memory are among what they agree on. -/
theorem Alike.waitsInPlace (h : Alike m m') (hplace : m.WaitsInPlace) : m'.WaitsInPlace := by
  intro register hwaiting
  obtain ⟨op, x, hop, hform, hregister⟩ := hplace register (h.waiting.symm.trans hwaiting)
  exact ⟨op, x, h.fetch_congr.trans hop, hform, hregister⟩

/-- Only one instruction makes a register wait, and only where no key is down. -/
theorem waitingAfter_eq_some (hw : m.processor.waiting = none) {i : Instruction} {register : Int}
    (h : m.waitingAfter i = some register) :
    ∃ x : Fin 16, i = .awaitKey x ∧ m.keypad.firstPressed = none ∧ register = x.val := by
  have hne : m.waitingAfter i ≠ m.processor.waiting := by
    rw [h, hw]
    exact Option.some_ne_none register
  obtain ⟨x, rfl, hkey, hset⟩ := waitingAfter_ne hne
  exact ⟨x, rfl, hkey, Option.some.inj (h.symm.trans hset)⟩

/-- An instruction that makes a register wait leaves counter and memory as they are, so the machine
waits at it. -/
theorem waitsInPlace_performed (hplace : m.WaitsInPlace) {c : Cycle} (hc : m.Stage c) :
    (m.performed c).WaitsInPlace := by
  cases hc with
  | idle => exact hplace
  | deliver => exact waitsInPlace_of_not_waiting rfl
  | stray => exact hplace
  | skip _ hwaiting => exact waitsInPlace_of_not_waiting hwaiting
  | perform op i hwaiting hop hdecode =>
    intro register hafter
    -- if a register waits now, this instruction made it wait, and left the counter at itself
    obtain ⟨x, rfl, hkey, rfl⟩ := waitingAfter_eq_some hwaiting hafter
    have hpc : (m.flowAfter (.awaitKey x)).target m.processor.pc = m.processor.pc := by
      simp only [flowAfter, hkey, Flow.target]
    have hfetch : (m.performed (.perform op (.awaitKey x))).fetch = m.fetch := fetch_congr rfl hpc
    exact ⟨op, x, hfetch.trans hop, Instruction.decode?_eq_some_iff.mp hdecode, rfl⟩

/-- A step that fails changes nothing; one that completes performs a cycle. -/
theorem waitsInPlace_after_step (h : m.WellFormed) (hplace : m.WaitsInPlace) :
    (step.after m).WaitsInPlace := by
  obtain hsame | ⟨-, hafter⟩ := after_step h
  · rwa [hsame]
  · rw [hafter]
    exact waitsInPlace_performed hplace (stage_cycle h.memory)

/-- **A machine waits in place** as long as processor and memory are left to the program. -/
theorem kept_waitsInPlace :
    Kept Event.Kind.driving fun m => m.WellFormed ∧ m.WaitsInPlace where
  -- a load and a reset end the wait; the step is the case with an argument
  load _ m m' image h hl := by
    have hwaiting : m'.processor.waiting = none := by
      rw [processor_loadProgram hl]
      rfl
    exact ⟨h.1.loadProgram hl, waitsInPlace_of_not_waiting hwaiting⟩
  reset _ _ h := ⟨h.1.reset, waitsInPlace_of_not_waiting rfl⟩
  step _ _ h := ⟨WellFormed.keeps_step _ h.1, waitsInPlace_after_step h.1 h.2⟩
  -- what happens beside the program leaves a machine like the one before
  tick _ m h := ⟨kept_wellFormed.tick (by decide) m h.1,
    ((kept_alike m).tick (by decide) m (.refl m)).waitsInPlace h.2⟩
  seed _ m random h := ⟨kept_wellFormed.seed (by decide) m random h.1,
    ((kept_alike m).seed (by decide) m random (.refl m)).waitsInPlace h.2⟩
  execute hkind := absurd hkind (by decide)
  processor hkind := absurd hkind (by decide)
  memory hkind := absurd hkind (by decide)
  screen _ m c h := ⟨kept_wellFormed.screen (by decide) m c h.1,
    ((kept_alike m).screen (by decide) m c (.refl m)).waitsInPlace h.2⟩
  keypad _ m c h := ⟨kept_wellFormed.keypad (by decide) m c h.1,
    ((kept_alike m).keypad (by decide) m c (.refl m)).waitsInPlace h.2⟩

/-! ## Forgetting the wait -/

/-- Waiting for a key is either done at once or begun. -/
theorem performed_awaitKey (op : Opcode) (x : Fin 16) :
    m.performed (.perform op (.awaitKey x)) =
      match m.keypad.firstPressed with
      | some key => m.mapProcessor fun p =>
        { p with v := p.v.setIfInBounds x (UInt8.ofNat key.val), pc := p.next }
      | none => m.mapProcessor fun p => { p with waiting := some (x.val : Int) } := by
  simp only [performed, effect, registersAfter, waitingAfter, flowAfter]
  cases m.keypad.firstPressed <;> rfl

/-- A key has a number below 16, so nothing of it is cut off. -/
theorem lowByte_key (key : Fin 16) : lowByte key.val = UInt8.ofNat key.val := by
  unfold lowByte
  congr 1
  omega

theorem fault?_awaitKey {op : Opcode} {x : Fin 16} (hcycle : m.cycle = .perform op (.awaitKey x)) :
    m.fault? = none := by
  rw [fault?, hcycle]
  rfl

/-- The cycle that delivers a key, or waits on, is the instruction executed again. -/
theorem performed_forgetWait {x : Fin 16} (hw : m.processor.waiting = some (x.val : Int))
    (op : Opcode) :
    m.forgetWait.performed (.perform op (.awaitKey x)) = m.performed m.cycle := by
  have hkeypad : m.forgetWait.keypad = m.keypad := rfl
  -- the keypad decides alike on both sides
  rw [performed_awaitKey, cycle_of_waiting hw, hkeypad]
  cases m.keypad.firstPressed with
  | some key =>
    simp only [performed, lowByte_key, Int.toNat_natCast]
    rfl
  | none =>
    simp only [performed, ← hw]
    rfl

/-- **Forgetting the wait makes no difference.** A machine that waits in place completes the same
step whether it is resumed or fetches and executes its instruction again. -/
theorem step_forgetWait (h : m.WellFormed) {op : Opcode} {x : Fin 16} (hop : m.fetch = .ok op)
    (hform : op.Denotes (.awaitKey x)) (hw : m.processor.waiting = some (x.val : Int)) :
    m.step = .ok () m.completed ∧ m.forgetWait.step = .ok () m.completed := by
  -- without its wait the machine fetches, and comes to the same instruction
  have hforget : m.forgetWait.WellFormed := ⟨h.processor.endWait, h.memory, h.screen⟩
  have hfetch : m.forgetWait.fetch = .ok op := (fetch_congr rfl rfl).trans hop
  have hcycle : m.forgetWait.cycle = .perform op (.awaitKey x) := by
    rw [cycle_of_fetch rfl hfetch, Instruction.decode?_eq_some_iff.mpr hform]
  have hcompleted : m.forgetWait.completed = m.completed := by
    unfold completed
    rw [hcycle, performed_forgetWait hw]
    rfl
  refine ⟨step_of_clear h (fault?_of_waiting hw), ?_⟩
  rw [step_of_clear hforget (fault?_awaitKey hcycle), hcompleted]

/-- **A machine that waits might as well fetch again.** However a machine has come to wait for a
key, programs loaded and run, and the clock, the source of random bytes, the screen and the keypad
doing what they do: its counter is at the word that lets the same register wait, and the next step
leads to the same machine whether or not the wait is forgotten before it. -/
theorem refetch_of_reachable {m : Machine} (hm : m.Reachable Event.Kind.driving) {register : Int}
    (hw : m.processor.waiting = some register) :
    ∃ x : Fin 16, register = x.val ∧
      (0x200 ≤ m.processor.pc ∧ m.processor.pc ≤ 4094 ∧ m.processor.pc % 2 = 0) ∧
      m.memory.readWord m.processor.pc = .ok (0xF00A + 0x100 * x.val) ∧
      ∃ m', m.step = .ok () m' ∧ m.forgetWait.step = .ok () m' := by
  obtain ⟨h, hplace⟩ := kept_waitsInPlace.reachable
    (fun random => ⟨wellFormed_powerOn random, waitsInPlace_of_not_waiting rfl⟩) hm
  obtain ⟨op, x, hop, hform, rfl⟩ := hplace register hw
  obtain ⟨hpc, word, hword, rfl⟩ := fetch_eq_ok_iff.mp hop
  have hvalue : word = 0xF00A + 0x100 * x.val :=
    Instruction.word_of_denotes_awaitKey (Memory.readWord_lt hword) hform
  exact ⟨x, rfl, hpc, hvalue ▸ hword, m.completed, step_forgetWait h hop hform hw⟩

/-! ## A program that waits at once -/

/-- A machine whose program begins by waiting for a key in register 5. -/
def waitingLoaded : Machine :=
  (powerOn (Random.ofSeed 0)).afterAll [.command (.loadProgram [0xF5, 0x0A])]

theorem reachable_waitingLoaded : waitingLoaded.Reachable Event.Kind.driving :=
  ⟨Random.ofSeed 0, [.command (.loadProgram [0xF5, 0x0A])], by decide, rfl⟩

theorem cycle_waitingLoaded : waitingLoaded.cycle = .perform ⟨0xF50A⟩ (.awaitKey 5) := by
  have hfetch : waitingLoaded.fetch = .ok ⟨0xF50A⟩ :=
    fetch_loaded (wellFormed_powerOn (Random.ofSeed 0)) 0xF5 0x0A []
      (loadProgram_eq_ok_iff.mpr ⟨by decide, rfl⟩)
  rw [cycle_of_fetch rfl hfetch]
  rfl

/-- No key is down on a new machine, so the wait is begun. -/
theorem waiting_after_waitingLoaded :
    (waitingLoaded.afterAll [.command (.step 1)]).processor.waiting = some 5 := by
  have hwell : waitingLoaded.WellFormed :=
    kept_wellFormed.afterAll (wellFormed_powerOn _) _ (by decide)
  have hclear := step_of_clear hwell (fault?_awaitKey cycle_waitingLoaded)
  rw [afterAll_cons, afterAll_nil, after_command_step_one, Action.after_of_ok hclear, completed,
    cycle_waitingLoaded, performed_awaitKey]
  rfl

/-- One step makes register 5 wait, at `F50A`. -/
theorem refetch_of_reachable_waitingLoaded :
    let m := waitingLoaded.afterAll [.command (.step 1)]
    m.Reachable Event.Kind.driving ∧ m.processor.waiting = some 5 ∧
      ∃ m', m.step = .ok () m' ∧ m.forgetWait.step = .ok () m' := by
  have hm := reachable_waitingLoaded.afterAll [.command (.step 1)] (by decide)
  obtain ⟨x, -, -, -, hstep⟩ := refetch_of_reachable hm waiting_after_waitingLoaded
  exact ⟨hm, waiting_after_waitingLoaded, hstep⟩

end ChipEight.Machine
