import ChipEight.Proofs.Machine.History
import ChipEight.Proofs.Machine.Step

/-!
# The representation invariant

Whatever a host does to a machine other than assigning to its processor, every part of the machine
stays in range. What has to be shown is that each kind of event keeps it; the induction over
histories is `Kept.afterAll`.

* **`Screen.keeps_run`** — a host's commands to a screen, with whatever coordinates it gives, keep
  it in range. Those to a memory do so by its extent.
* **`kept_wellFormed`** — every event but an assignment to the processor keeps a machine
  well-formed.
* **`kept_representable`** — and the timers bytes.

The timers come second because nothing else depends on them: a step of a well-formed machine is
well-formed whatever its timers are.
-/

namespace ChipEight

/-- A host's commands to a screen keep it in range. -/
theorem Screen.keeps_run (c : Screen.Command) : c.run.Keeps Screen.WellFormed := fun s h =>
  wellFormed_iff_spans.mpr (Spans.keeps_run c s h.spans)

namespace Machine

variable {m : Machine}

/-! ## Steps and direct executions -/

/-- A step that fails leaves the machine as it was, and one that completes leaves a well-formed
one. -/
theorem WellFormed.keeps_step : step.Keeps WellFormed := by
  intro m h
  obtain hsame | ⟨hf, hafter⟩ := after_step h
  · rwa [hsame]
  · rw [hafter]
    exact h.completed hf

/-- Any word may be executed directly, also one that is no instruction or is out of range. -/
theorem WellFormed.keeps_executeWord (op : Opcode) : (executeWord op).Keeps WellFormed := by
  intro m h
  obtain hsame | ⟨i, hclear, hafter⟩ := after_executeWord h op
  · rwa [hsame]
  · rw [hafter]
    exact h.effect hclear

/-- The same with the timers, which a step sets from registers. -/
theorem Representable.keeps_step : step.Keeps Representable := by
  intro m h
  obtain hsame | ⟨hf, hafter⟩ := after_step h.toWellFormed
  · rwa [hsame]
  · have htimers : m.completed.processor.TimersFit := timersFit_performed h.timers m.cycle
    rw [hafter]
    exact ⟨h.toWellFormed.completed hf, htimers⟩

theorem Representable.keeps_executeWord (op : Opcode) :
    (executeWord op).Keeps Representable := by
  intro m h
  obtain hsame | ⟨i, hclear, hafter⟩ := after_executeWord h.toWellFormed op
  · rwa [hsame]
  · rw [hafter]
    exact ⟨h.toWellFormed.effect hclear, timersFit_effect h.timers i⟩

/-! ## Every event -/

/-- **A machine stays well-formed.** Every event but an assignment to the processor leaves a
well-formed machine as one. -/
theorem kept_wellFormed : Kept Event.Kind.foreign WellFormed where
  load _ _ _ _ h hl := h.loadProgram hl
  reset _ _ h := h.reset
  step _ := WellFormed.keeps_step
  tick _ _ h := ⟨h.processor.tick, h.memory, h.screen⟩
  seed _ _ _ h := ⟨h.processor, h.memory, h.screen⟩
  execute _ op := WellFormed.keeps_executeWord op
  -- an assignment to the processor is no event of these kinds
  processor hkind := absurd hkind (by decide)
  memory _ _ c h := ⟨h.processor, Memory.WellFormed.keeps_run c _ h.memory, h.screen⟩
  screen _ _ c h := ⟨h.processor, h.memory, Screen.keeps_run c _ h.screen⟩
  keypad _ _ _ h := ⟨h.processor, h.memory, h.screen⟩

/-- **A machine stays representable.** The same with the timers, which only a reset, a tick and two
instructions touch. -/
theorem kept_representable : Kept Event.Kind.foreign Representable where
  load hkind m m' image h hl := by
    have htimers : m'.processor.TimersFit := by
      rw [processor_loadProgram hl]
      exact Processor.timersFit_create start
    exact ⟨kept_wellFormed.load hkind m m' image h.toWellFormed hl, htimers⟩
  reset hkind m h :=
    ⟨kept_wellFormed.reset hkind m h.toWellFormed, Processor.timersFit_create start⟩
  step _ := Representable.keeps_step
  tick hkind m h := ⟨kept_wellFormed.tick hkind m h.toWellFormed, h.timers.tick⟩
  seed hkind m random h := ⟨kept_wellFormed.seed hkind m random h.toWellFormed, h.timers⟩
  execute _ op := Representable.keeps_executeWord op
  processor hkind := absurd hkind (by decide)
  memory hkind m c h := ⟨kept_wellFormed.memory hkind m c h.toWellFormed, h.timers⟩
  screen hkind m c h := ⟨kept_wellFormed.screen hkind m c h.toWellFormed, h.timers⟩
  keypad hkind m c h := ⟨kept_wellFormed.keypad hkind m c h.toWellFormed, h.timers⟩

/-! ## Whole runs -/

/-- **The representation invariant.** From power-on on, in any order and number, programs may be
loaded or refused, words executed directly, steps taken, memory, screen and keypad handled with any
addresses, coordinates and values, and any of it may fail: the machine is representable. The
registers, the stack slots, the bytes, the pixels and the keys are so by their types, and the number
of cycles is no negative one. -/
theorem representable_of_reachable {m : Machine} (h : m.Reachable Event.Kind.foreign) :
    m.Representable :=
  kept_representable.reachable representable_powerOn h

/-- A history with a refused program, a fault, a word out of range and a write outside memory. -/
theorem representable_of_reachable_misused :
    ((powerOn (Random.ofSeed 7)).afterAll
      [.command (.loadNumbers [300]), .command (.loadProgram [0x00, 0xEE]), .command (.step 3),
        .command (.execute (-5)), .command (.memory (.write 5000 (-1))),
        .command (.tick 2)]).Representable :=
  representable_of_reachable ⟨Random.ofSeed 7, _, by decide, rfl⟩

end Machine

end ChipEight
