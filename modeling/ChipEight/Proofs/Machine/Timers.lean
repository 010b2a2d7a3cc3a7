import ChipEight.Proofs.Machine.Course
import ChipEight.Proofs.Machine.Footprint

/-!
# Timers

Every tick lowers both timers, one instruction sets each of them, and nothing else touches them but
a fresh start. So what a timer shows is decided by two numbers: what was stored in it last, and how
many ticks have come since.

* **`Processor.countedDown`** — a timer after some ticks, and **`ticksIn`**, the ticks of a history,
  where a host may ask for several at once.
* **`Event.processor_after`** — beside the steps, an event is nothing but its ticks to a processor.
* **`Timer.reading_after_step`**, **`Timer.reading_of_set`** — a step leaves a timer alone or stores
  a register in it.
* **`Timer.reading_afterAll`** — so a history in which no step sets it only counts it down.
* **`timers_count_down`** — the law for whole runs, with the two numbers as `Timer.Stored`.
-/

namespace ChipEight

namespace Processor

/-! ## Counting down -/

/-- A timer after a number of ticks: lowered by as many, but not below zero. A timer that a host has
put below zero stays where it is. -/
def countedDown (timer : Int) (ticks : Nat) : Int :=
  if 0 < timer then max 0 (timer - ticks) else timer

theorem countedDown_zero (timer : Int) : countedDown timer 0 = timer := by
  unfold countedDown
  omega

/-- One tick more lowers the timer once more, unless it is at 0. -/
theorem lowered_countedDown (timer : Int) (ticks : Nat) :
    lowered (countedDown timer ticks) = countedDown timer (ticks + 1) := by
  unfold lowered countedDown
  omega

theorem countedDown_add (timer : Int) (first later : Nat) :
    countedDown (countedDown timer first) later = countedDown timer (first + later) := by
  unfold countedDown
  omega

/-- A timer that is no negative one stops at 0. -/
theorem countedDown_of_nonneg {timer : Int} (h : 0 ≤ timer) (ticks : Nat) :
    countedDown timer ticks = max 0 (timer - ticks) := by
  unfold countedDown
  omega

/-- The processor after a number of ticks. -/
def ticked (p : Processor) (ticks : Nat) : Processor :=
  { p with delay := countedDown p.delay ticks, sound := countedDown p.sound ticks }

theorem ticked_zero (p : Processor) : p.ticked 0 = p := by
  rw [ticked, countedDown_zero, countedDown_zero]

theorem tick_ticked (p : Processor) (ticks : Nat) :
    (p.ticked ticks).tick = p.ticked (ticks + 1) := by
  simp only [ticked, tick, lowered_countedDown]

theorem ticked_ticked (p : Processor) (first later : Nat) :
    (p.ticked first).ticked later = p.ticked (first + later) := by
  simp only [ticked, countedDown_add]

end Processor

namespace Machine

variable {m m' : Machine}

/-! ## The ticks of a history -/

/-- How many ticks an event asks for. -/
def Event.ticks : Event → Nat
  | .command (.tick count) => count.toNat
  | _ => 0

theorem Event.ticks_of_ne {e : Event} (h : e.kind ≠ .tick) : e.ticks = 0 := by
  cases e with
  | chance random => rfl
  | command c =>
    cases c with
    | tick count => exact absurd rfl h
    | _ => rfl

/-- The ticks of a history. -/
def ticksIn : List Event → Nat
  | [] => 0
  | e :: events => e.ticks + ticksIn events

/-- Several ticks at once lower the timers by as many. Induction on their number. -/
theorem processor_ticks (m : Machine) (count : Nat) :
    Nat.repeat tick count m = { m with processor := m.processor.ticked count } := by
  induction count with
  | zero => rw [Processor.ticked_zero]; rfl
  | succ count ih =>
    rw [Nat.repeat, ih, tick]
    simp only [Processor.tick_ticked]

theorem kept_processor (p : Processor) :
    Kept [.memory, .seed, .screen, .keypad] fun m => m.processor = p where
  load hkind := absurd hkind (by decide)
  reset hkind := absurd hkind (by decide)
  step hkind := absurd hkind (by decide)
  tick hkind := absurd hkind (by decide)
  seed _ _ _ h := h
  execute hkind := absurd hkind (by decide)
  processor hkind := absurd hkind (by decide)
  memory _ _ _ h := h
  screen _ _ _ h := h
  keypad _ _ _ h := h

/-- **Beside the steps an event is nothing but its ticks to a processor.** -/
theorem Event.processor_after {e : Event} (hkind : e.kind ∈ .memory :: Event.Kind.peripheral)
    (m : Machine) : (e.after m).processor = m.processor.ticked e.ticks := by
  -- four of the five kinds leave the processor alone and have no ticks
  by_cases hquiet : e.kind ∈ [.memory, .seed, .screen, .keypad]
  · have hticks : e.ticks = 0 := by
      refine Event.ticks_of_ne fun htick => ?_
      rw [htick] at hquiet
      exact absurd hquiet (by decide)
    rw [(kept_processor m.processor).event rfl e hquiet, hticks, Processor.ticked_zero]
  · -- what is left among the kinds is the clock
    cases e with
    | chance random => exact absurd hquiet (by simp [kind])
    | command c =>
      cases c with
      | tick count =>
        show (Nat.repeat Machine.tick count.toNat m).processor = _
        rw [processor_ticks]
        rfl
      | _ => simp [kind, kindOfCommand, Kind.peripheral] at hkind hquiet

end Machine

/-! ## The two timers -/

/-- One of the two timers. -/
inductive Timer where
  | delay
  | sound

namespace Timer

open Machine (Event AtSteps ticksIn)

variable {m m' : Machine} {timer : Timer}

/-- What a timer shows. -/
def reading : Timer → Machine → Int
  | delay, m => m.processor.delay
  | sound, m => m.processor.sound

/-- The instruction that sets a timer to a register: `FX15` or `FX18`. -/
def setter : Timer → Fin 16 → Instruction
  | delay => .setDelay
  | sound => .setSound

/-- The next step sets the timer. -/
def IsSet (timer : Timer) (m : Machine) : Prop :=
  ∃ x, m.Performs (timer.setter x)

/-- Both timers count down alike, so what holds of one holds of the other. -/
theorem reading_ticked (timer : Timer) {ticks : Nat}
    (h : m'.processor = m.processor.ticked ticks) :
    timer.reading m' = Processor.countedDown (timer.reading m) ticks := by
  cases timer <;> simp only [reading, h, Processor.ticked]

/-- A step that does not set a timer leaves it alone, and so does one that fails. -/
theorem reading_after_step (h : m.WellFormed) (hset : ¬ timer.IsSet m) :
    timer.reading (Machine.step.after m) = timer.reading m := by
  obtain hsame | ⟨-, hafter⟩ := Machine.after_step h
  · rw [hsame]
  · rw [hafter]
    refine Decidable.byContradiction fun hne => hset ?_
    cases timer with
    | delay => exact Machine.performs_of_delay_ne h.memory hne
    | sound => exact Machine.performs_of_sound_ne h.memory hne

theorem step_of_set (h : m.WellFormed) {x : Fin 16} (hi : m.Performs (timer.setter x)) :
    m.step = .ok () (m.afterInstruction (timer.setter x)) :=
  Machine.step_of_performs h hi (by cases timer <;> rfl)

theorem reading_of_set (h : m.WellFormed) {x : Fin 16} (hi : m.Performs (timer.setter x))
    (hstep : m.step = .ok () m') : timer.reading m' = (m.register x).toNat := by
  obtain rfl := (EStateM.Result.ok.inj ((step_of_set h hi).symm.trans hstep)).2
  cases timer <;> rfl

/-- **A history in which no step sets a timer counts it down.** Induction on the history: an event
is a step, which leaves the timer alone, or nothing but its ticks. -/
theorem reading_afterAll (h : m.WellFormed) {events : List Event}
    (hkinds : ∀ e ∈ events, e.kind ∈ Event.Kind.running) (hsingle : ∀ e ∈ events, e.Single)
    (hset : m.AtSteps (fun m => ¬ timer.IsSet m) events) :
    timer.reading (m.afterAll events) =
      Processor.countedDown (timer.reading m) (ticksIn events) := by
  induction events generalizing m with
  | nil => exact (Processor.countedDown_zero _).symm
  | cons e events ih =>
    obtain ⟨hkind, hkinds⟩ := List.forall_mem_cons.mp hkinds
    obtain ⟨hone, hsingle⟩ := List.forall_mem_cons.mp hsingle
    obtain ⟨hfirst, hlater⟩ := Machine.atSteps_cons.mp hset
    -- one event counts the timer down by its own ticks, which are none for a step
    have hnext : timer.reading (e.after m) = Processor.countedDown (timer.reading m) e.ticks := by
      by_cases hstep : e.kind = .step
      · obtain rfl := hone hstep
        rw [Machine.after_oneStep, reading_after_step h (hfirst rfl)]
        exact (Processor.countedDown_zero _).symm
      · have hother : e.kind ∈ .memory :: Event.Kind.peripheral :=
          (List.mem_cons.mp hkind).resolve_left hstep
        exact timer.reading_ticked (Event.processor_after hother m)
    have hwell : (e.after m).WellFormed :=
      (Machine.kept_wellFormed.mono (by decide)).event h e hkind
    rw [Machine.afterAll_cons, ih hwell hkinds hsingle hlater, hnext, Processor.countedDown_add,
      ticksIn]

/-! ## What was stored last -/

/-- What the latest completed step of a history that set a timer stored in it, and the ticks
since. -/
inductive Stored (timer : Timer) (m : Machine) (events : List Event) : Nat → Nat → Prop
  /-- No step has set the timer, so it is at 0 as in the beginning. -/
  | never (hset : m.AtSteps (fun m => ¬ timer.IsSet m) events) :
      Stored timer m events 0 (ticksIn events)
  | step (before after : List Event) (x : Fin 16) (m' : Machine)
      (hsplit : events = before ++ .oneStep :: after)
      (hi : (m.afterAll before).Performs (timer.setter x))
      (hstep : (m.afterAll before).step = .ok () m')
      (hset : m'.AtSteps (fun m => ¬ timer.IsSet m) after) :
      Stored timer m events ((m.afterAll before).register x).toNat (ticksIn after)

section Stored

variable (h : m.WellFormed) {events : List Event}
  (hkinds : ∀ e ∈ events, e.kind ∈ Event.Kind.running)
include h hkinds

/-- Anywhere along the history the machine is well-formed. -/
theorem wellFormed_afterAll {before after : List Event} (hsplit : events = before ++ after) :
    (m.afterAll before).WellFormed := by
  refine (Machine.kept_wellFormed.mono (by decide)).afterAll h before fun e he => hkinds e ?_
  rw [hsplit]
  exact List.mem_append_left after he

/-- A run has a latest step that set the timer, or none. Either way there is a value from which the
ticks are counted. -/
theorem exists_stored (timer : Timer) :
    ∃ value ticks, timer.Stored m events value ticks := by
  obtain hnone | ⟨before, after, hsplit, ⟨x, hi⟩, hlast⟩ :=
    Machine.atSteps_not_or_exists_last m timer.IsSet events
  · exact ⟨_, _, .never hnone⟩
  · have hstep := step_of_set (wellFormed_afterAll h hkinds hsplit) hi
    rw [Action.after_of_ok hstep] at hlast
    exact ⟨_, _, .step before after x _ hsplit hi hstep hlast⟩

/-- **A timer shows what was stored last less the ticks since.** -/
theorem reading_of_stored (hsingle : ∀ e ∈ events, e.Single) (hstart : timer.reading m = 0)
    {value ticks : Nat} (hstored : timer.Stored m events value ticks) :
    timer.reading (m.afterAll events) = max 0 ((value : Int) - ticks) := by
  -- from the store on no step sets the timer, so it is counted down from the value stored
  cases hstored with
  | never hset =>
    rw [reading_afterAll h hkinds hsingle hset, hstart,
      Processor.countedDown_of_nonneg (Int.le_refl 0)]
    rfl
  | step before after x m' hsplit hi hstep hset =>
    have hbefore := wellFormed_afterAll h hkinds hsplit
    have hmem : ∀ e ∈ after, e ∈ events := by
      intro e he
      rw [hsplit]
      exact List.mem_append_right before (List.mem_cons_of_mem _ he)
    have hwell : m'.WellFormed := by
      rw [← Action.after_of_ok hstep]
      exact Machine.WellFormed.keeps_step _ hbefore
    rw [hsplit, Machine.afterAll_append, Machine.afterAll_cons, Machine.after_oneStep,
      Action.after_of_ok hstep,
      reading_afterAll hwell (fun e he => hkinds e (hmem e he))
        (fun e he => hsingle e (hmem e he)) hset,
      reading_of_set hbefore hi hstep]
    exact Processor.countedDown_of_nonneg (Int.natCast_nonneg _) _

end Stored

end Timer

namespace Machine

/-- An event with which a run begins: a reset, or a load that is not refused. -/
inductive Event.Begins : Event → Prop
  | reset : Begins (.command .reset)
  | load (c : Command) (image : List UInt8) (hc : c.Delivers image) (hfit : image.length ≤ 3584) :
      Begins (.command c)

/-- A reset and an accepted load start the processor anew, with both timers at 0. -/
theorem Event.Begins.after (h : m.Sized) {e : Event} (he : e.Begins) :
    (e.after m).WellFormed ∧ (e.after m).processor = Processor.create start := by
  -- both give the machine of power-on, one of them with a program in memory
  cases he with
  | reset =>
    show m.reset.WellFormed ∧ _
    rw [reset_eq_powerOn h]
    exact ⟨wellFormed_powerOn m.random, rfl⟩
  | load c image hc hfit =>
    have hloaded : (Event.command c).after m = powerOnWith m.random image := by
      rw [Event.after, Command.run_of_fit h hc hfit]
    rw [hloaded]
    exact ⟨wellFormed_powerOnWith m.random hfit, rfl⟩

/-- **The law of the timers.** Whatever a machine has been through, a reset or a load begins a run;
then steps complete, fail or wait, ticks come, and the host seeds the source of random bytes,
presses keys, draws and writes memory. At the end of any such run a timer shows what the latest
completed step that set it has stored, 0 if there was none, less the ticks since, and no less than
0. So the sound is on as long as there were fewer ticks than that. -/
theorem timers_count_down (h : m.Reachable Event.Kind.every ∨ m.WellFormed) {first : Event}
    (hfirst : first.Begins) {events : List Event}
    (hkinds : ∀ e ∈ events, e.kind ∈ Event.Kind.running) (hsingle : ∀ e ∈ events, e.Single) :
    (∀ timer : Timer,
      (∃ value ticks, timer.Stored (first.after m) events value ticks) ∧
      ∀ value ticks, timer.Stored (first.after m) events value ticks →
        timer.reading ((first.after m).afterAll events) = max 0 ((value : Int) - ticks)) ∧
    ∀ value ticks, Timer.sound.Stored (first.after m) events value ticks →
      (((first.after m).afterAll events).soundActive = true ↔ ticks < value) := by
  obtain ⟨hwell, hnew⟩ := hfirst.after (h.elim sized_of_reachable WellFormed.sized)
  have hstart : ∀ timer : Timer, timer.reading (first.after m) = 0 := by
    intro timer
    cases timer <;> simp only [Timer.reading, hnew] <;> rfl
  -- a run begins with both timers at 0, which is what the law needs
  have hlaw : ∀ (timer : Timer) value ticks, timer.Stored (first.after m) events value ticks →
      timer.reading ((first.after m).afterAll events) = max 0 ((value : Int) - ticks) :=
    fun timer value ticks hstored =>
      Timer.reading_of_stored hwell hkinds hsingle (hstart timer) hstored
  refine ⟨fun timer => ⟨Timer.exists_stored hwell hkinds timer, hlaw timer⟩, ?_⟩
  intro value ticks hstored
  have hsound : ((first.after m).afterAll events).processor.sound = _ := hlaw .sound _ _ hstored
  simp only [soundActive, hsound, decide_eq_true_eq]
  omega

/-! ## A program that sets the delay timer -/

/-- Loads 5 into register 0, and sets the delay timer to it. -/
def delayProgram : List UInt8 :=
  [0x60, 0x05, 0xF0, 0x15]

def delayLoaded : Machine :=
  powerOnWith (Random.ofSeed 0) delayProgram

def delayReady : Machine :=
  delayLoaded.afterInstruction (.load Processor.offset 5)

theorem performs_delayLoaded : delayLoaded.Performs (.load Processor.offset 5) :=
  performs_of_program (k := 0) Memory.wellFormed_create rfl rfl rfl rfl (by decide) rfl rfl rfl

theorem performs_delayReady : delayReady.Performs (.setDelay Processor.offset) :=
  performs_of_program (k := 2) Memory.wellFormed_create rfl rfl rfl rfl (by decide) rfl rfl rfl

/-- What follows the two steps of the program. -/
def delayTicks : List Event :=
  [.command (.tick 2), .command (.keypad (.press 9)), .oneTick]

/-- Three ticks after it was set to 5, the delay timer is at 2, and the sound was never on. -/
theorem timers_count_down_delayLoaded :
    let first : Event := .command (.loadProgram delayProgram)
    let events : List Event := .oneStep :: .oneStep :: delayTicks
    let m := first.after (powerOn (Random.ofSeed 0))
    (powerOn (Random.ofSeed 0)).WellFormed ∧ first.Begins ∧
      (∀ e ∈ events, e.kind ∈ Event.Kind.running) ∧ (∀ e ∈ events, e.Single) ∧
      Timer.delay.Stored m events 5 3 ∧ Timer.delay.reading (m.afterAll events) = 2 := by
  have hstart := wellFormed_powerOn (Random.ofSeed 0)
  have hbegins : (Event.command (.loadProgram delayProgram)).Begins :=
    .load _ delayProgram (.bytes delayProgram) (by decide)
  have hkinds : ∀ e ∈ Event.oneStep :: .oneStep :: delayTicks, e.kind ∈ Event.Kind.running := by
    decide
  have hsingle : ∀ e ∈ Event.oneStep :: .oneStep :: delayTicks, e.Single := by
    simp only [delayTicks, List.forall_mem_cons]
    exact ⟨fun _ => rfl, fun _ => rfl, nofun, nofun, nofun, nofun⟩
  have hloaded : (Event.command (.loadProgram delayProgram)).after (powerOn (Random.ofSeed 0)) =
      delayLoaded := by
    rw [Event.after, Command.run_of_fit hstart.sized (.bytes delayProgram) (by decide)]
    rfl
  have hwell : delayLoaded.WellFormed := wellFormed_powerOnWith _ (by decide)
  have hready : Event.oneStep.after delayLoaded = delayReady := by
    rw [after_oneStep, Action.after_of_ok (step_of_performs hwell performs_delayLoaded rfl)]
    rfl
  have hset : delayReady.step = .ok () (delayReady.afterInstruction (.setDelay Processor.offset)) :=
    step_of_performs (hwell.afterInstruction performs_delayLoaded rfl) performs_delayReady rfl
  -- after the two steps come ticks and a key, and no step
  have hquiet : (delayReady.afterInstruction (.setDelay Processor.offset)).AtSteps
      (fun m => ¬ Timer.delay.IsSet m) delayTicks :=
    atSteps_cons.mpr ⟨nofun, atSteps_cons.mpr ⟨nofun, atSteps_cons.mpr ⟨nofun, atSteps_nil⟩⟩⟩
  have hstored : Timer.delay.Stored delayLoaded (.oneStep :: .oneStep :: delayTicks) 5 3 := by
    have hlast := @Timer.Stored.step .delay delayLoaded _ [.oneStep] delayTicks Processor.offset
      (delayReady.afterInstruction (.setDelay Processor.offset)) rfl
    rw [afterAll_cons, hready] at hlast
    exact hlast performs_delayReady hset hquiet
  obtain ⟨hlaw, -⟩ := timers_count_down (.inr hstart) hbegins hkinds hsingle
  rw [hloaded] at hlaw
  simp only [hloaded]
  exact ⟨hstart, hbegins, hkinds, hsingle, hstored, (hlaw .delay).2 5 3 hstored⟩

end Machine

end ChipEight
