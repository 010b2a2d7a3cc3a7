import ChipEight.Proofs.Machine.KeyWait
import ChipEight.Proofs.Machine.Timers

/-!
# Keys that come late

A key may be down when an instruction asks for one, or the machine waits and is given one later, by
another path. How late the key comes makes no difference: whatever ticks and keypad operations come
meanwhile, each idle step adds one to the cycles and does nothing else.

* **`Event.exists_after`** — what ticks and keypad operations do to a machine, which is nothing to
  the parts that a waiting machine is about.
* **`heldUp`** — a machine that has been kept waiting for some steps.
* **`step_heldUp`** — it completes the step that the machine would have completed at once.
* **`afterAll_heldUp`** — as long as no key is down at a step, the steps of a history do nothing but
  hold the machine up.
* **`delayed_key_is_immediate`** — the two together.
-/

namespace ChipEight.Machine

open Processor (countedDown)

variable {m : Machine} {x : Fin 16} {events : List Event}

/-! ## Ticks and keypad operations -/

/-- A history without its steps. -/
def withoutSteps (events : List Event) : List Event :=
  events.filter fun e => e.kind ≠ .step

theorem withoutSteps_cons_of_step {e : Event} (h : e.kind = .step) (events : List Event) :
    withoutSteps (e :: events) = withoutSteps events :=
  List.filter_cons_of_neg (by simpa using h)

theorem withoutSteps_cons_of_ne {e : Event} (h : e.kind ≠ .step) (events : List Event) :
    withoutSteps (e :: events) = e :: withoutSteps events :=
  List.filter_cons_of_pos (by simpa using h)

theorem mem_withoutSteps {e : Event} :
    e ∈ withoutSteps events ↔ e ∈ events ∧ e.kind ≠ .step := by
  rw [withoutSteps, List.mem_filter, decide_eq_true_eq]

/-- Steps left out, the ticks are still all there. Induction on the history. -/
theorem ticksIn_withoutSteps (events : List Event) :
    ticksIn (withoutSteps events) = ticksIn events := by
  induction events with
  | nil => rfl
  | cons e events ih =>
    by_cases hstep : e.kind = .step
    · have hticks : e.ticks = 0 := Event.ticks_of_ne (by rw [hstep]; decide)
      rw [withoutSteps_cons_of_step hstep, ih, ticksIn, hticks, Nat.zero_add]
    · rw [withoutSteps_cons_of_ne hstep, ticksIn, ih, ticksIn]

/-- **Ticks and keypad operations do two things to a machine**: the timers count down, and the
keypad becomes what the operations make of it. -/
theorem Event.exists_after {e : Event} (hkind : e.kind ∈ [.tick, .keypad]) :
    ∃ keys : Keypad → Keypad, ∀ m : Machine,
      e.after m = { m with processor := m.processor.ticked e.ticks, keypad := keys m.keypad } := by
  -- of the events with commands only two kinds are left, and they touch nothing else
  cases e with
  | chance random => simp [kind] at hkind
  | command c =>
    cases c with
    | tick count => exact ⟨id, fun m => processor_ticks m count.toNat⟩
    | keypad c =>
      refine ⟨c.run.after, fun m => ?_⟩
      simp only [after, Command.run, machine_ofAction, Action.after_within, ticks,
        Processor.ticked_zero]
    | _ => simp [kind, kindOfCommand] at hkind

/-- The same of a history of ticks and keypad operations, by induction: the timers count down by all
the ticks together. What becomes of the keypad does not depend on the rest of the machine. -/
theorem exists_afterAll (hkinds : ∀ e ∈ events, e.kind ∈ [.tick, .keypad]) :
    ∃ keys : Keypad → Keypad, ∀ m : Machine, m.afterAll events =
      { m with processor := m.processor.ticked (ticksIn events), keypad := keys m.keypad } := by
  induction events with
  | nil =>
    refine ⟨id, fun m => ?_⟩
    rw [ticksIn, Processor.ticked_zero]
    rfl
  | cons e events ih =>
    obtain ⟨hkind, hkinds⟩ := List.forall_mem_cons.mp hkinds
    obtain ⟨first, hfirst⟩ := e.exists_after hkind
    obtain ⟨later, hlater⟩ := ih hkinds
    -- the operations on the keypad follow one another, and the ticks add up
    refine ⟨fun keypad => later (first keypad), fun m => ?_⟩
    rw [afterAll_cons, hlater, hfirst, ticksIn]
    simp only [Processor.ticked_ticked]

/-- The next instruction is still the next one, since neither counter nor memory nor wait has
changed. -/
theorem performs_afterAll (hkinds : ∀ e ∈ events, e.kind ∈ [.tick, .keypad]) {i : Instruction}
    (hi : m.Performs i) : (m.afterAll events).Performs i := by
  obtain ⟨keys, hafter⟩ := exists_afterAll hkinds
  obtain ⟨hw, op, hop, hform⟩ := hi
  rw [hafter]
  exact ⟨hw, op, (fetch_congr rfl rfl).trans hop, hform⟩

theorem wellFormed_afterAll (h : m.WellFormed) (hkinds : ∀ e ∈ events, e.kind ∈ [.tick, .keypad]) :
    (m.afterAll events).WellFormed :=
  (kept_wellFormed.mono (by decide)).afterAll h events hkinds

/-! ## Held up -/

/-- A machine that has been held up: a register may wait, and some more cycles have been counted. -/
def heldUp (m : Machine) (waiting : Option Int) (steps : Nat) : Machine :=
  { m with processor := { m.processor with waiting }, cycles := m.cycles + steps }

theorem heldUp_none (hw : m.processor.waiting = none) (steps : Nat) :
    m.heldUp none steps = { m with cycles := m.cycles + steps } := by
  rw [heldUp, ← hw]

/-- Ticks and keypad operations have nothing to do with what is held up, so it does not matter which
comes first. -/
theorem Event.after_heldUp {e : Event} (hkind : e.kind ∈ [.tick, .keypad]) (waiting : Option Int)
    (steps : Nat) : e.after (m.heldUp waiting steps) = (e.after m).heldUp waiting steps := by
  obtain ⟨keys, hafter⟩ := e.exists_after hkind
  rw [hafter, hafter]
  rfl

/-- The instruction either loads the lowest key that is down and goes on, or stays and lets its
register wait. -/
theorem afterInstruction_awaitKey (m : Machine) (x : Fin 16) :
    m.afterInstruction (.awaitKey x) =
      match m.keypad.firstPressed with
      | some key => { m with
        processor := { m.processor with
          v := m.processor.v.setIfInBounds x (UInt8.ofNat key.val), pc := m.processor.next }
        cycles := m.cycles + 1 }
      | none => { m with
        processor := { m.processor with waiting := some (x.val : Int) }
        cycles := m.cycles + 1 } := by
  -- the word that the instruction was read from leaves no trace
  have hperformed := performed_awaitKey (m := m) ⟨0⟩ x
  show { m.performed (.perform ⟨0⟩ (.awaitKey x)) with cycles := m.cycles + 1 } = _
  rw [hperformed]
  cases m.keypad.firstPressed <;> rfl

section HeldUp

variable {waiting : Option Int} (hwaiting : waiting = none ∨ waiting = some (x.val : Int))
include hwaiting

/-- **A machine that was held up completes the step that it would have completed at once.** -/
theorem step_heldUp (h : m.WellFormed) (hi : m.Performs (.awaitKey x)) (steps : Nat) :
    (m.heldUp waiting steps).step =
      .ok () ((m.heldUp none steps).afterInstruction (.awaitKey x)) := by
  obtain ⟨-, op, hop, hform⟩ := hi
  have hfetch : ∀ waiting, (m.heldUp waiting steps).fetch = .ok op := fun waiting =>
    (fetch_congr rfl rfl).trans hop
  -- held up without a wait, the machine still has its instruction to perform
  have hfree : (m.heldUp none steps).WellFormed := ⟨h.processor.endWait, h.memory, h.screen⟩
  have hperforms : (m.heldUp none steps).Performs (.awaitKey x) := ⟨rfl, op, hfetch none, hform⟩
  have hnone := step_of_performs hfree hperforms rfl
  rcases hwaiting with rfl | rfl
  · exact hnone
  · -- it is resumed, and might as well fetch its instruction again
    have hheld : (m.heldUp (some (x.val : Int)) steps).WellFormed :=
      ⟨h.processor.beginWait x, h.memory, h.screen⟩
    obtain ⟨hresumed, hagain⟩ := step_forgetWait hheld (hfetch _) hform rfl
    rw [hresumed, ← hagain]
    exact hnone

/-- With no key down a step lets the register wait, or lets it wait on, and is counted. -/
theorem after_step_heldUp (h : m.WellFormed) (hi : m.Performs (.awaitKey x)) (steps : Nat)
    (hkey : m.keypad.firstPressed = none) :
    step.after (m.heldUp waiting steps) = m.heldUp (some (x.val : Int)) (steps + 1) := by
  have hsame : (m.heldUp none steps).keypad = m.keypad := rfl
  rw [Action.after_of_ok (step_heldUp hwaiting h hi steps), afterInstruction_awaitKey, hsame, hkey]
  rfl

/-- **As long as no key is down at a step, steps do nothing but hold the machine up.** -/
theorem afterAll_heldUp (h : m.WellFormed) (hi : m.Performs (.awaitKey x)) (steps : Nat)
    (hkinds : ∀ e ∈ events, e.kind ∈ [.step, .tick, .keypad]) (hsingle : ∀ e ∈ events, e.Single)
    (hquiet : (m.heldUp waiting steps).AtSteps (fun m => m.keypad.firstPressed = none) events) :
    ∃ waiting', (waiting' = none ∨ waiting' = some (x.val : Int)) ∧
      (m.heldUp waiting steps).afterAll events =
        (m.afterAll (withoutSteps events)).heldUp waiting' (steps + stepCount events) := by
  -- a step lets the register wait and is counted; anything else is done to both machines alike
  induction events generalizing m waiting steps with
  | nil => exact ⟨waiting, hwaiting, rfl⟩
  | cons e events ih =>
    obtain ⟨hkind, hkinds'⟩ := List.forall_mem_cons.mp hkinds
    obtain ⟨hone, hsingle'⟩ := List.forall_mem_cons.mp hsingle
    obtain ⟨hfirst, hlater⟩ := atSteps_cons.mp hquiet
    by_cases hstep : e.kind = .step
    · obtain rfl := hone hstep
      have hnext := after_step_heldUp hwaiting h hi steps (hfirst rfl)
      rw [after_oneStep, hnext] at hlater
      obtain ⟨waiting', hwaiting', hafter⟩ := ih (.inr rfl) h hi (steps + 1) hkinds' hsingle' hlater
      refine ⟨waiting', hwaiting', ?_⟩
      rw [afterAll_cons, after_oneStep, hnext, hafter, withoutSteps_cons_of_step rfl,
        stepCount_cons_of_step rfl, Nat.add_right_comm, Nat.add_assoc]
    · have hother : e.kind ∈ [.tick, .keypad] := (List.mem_cons.mp hkind).resolve_left hstep
      have hwell : (e.after m).WellFormed := (kept_wellFormed.mono (by decide)).event h e hother
      have hperforms : (e.after m).Performs (.awaitKey x) :=
        performs_afterAll (List.forall_mem_singleton.mpr hother) hi
      rw [Event.after_heldUp hother] at hlater
      obtain ⟨waiting', hwaiting', hafter⟩ :=
        ih hwaiting hwell hperforms steps hkinds' hsingle' hlater
      refine ⟨waiting', hwaiting', ?_⟩
      rw [afterAll_cons, Event.after_heldUp hother, hafter, withoutSteps_cons_of_ne hstep,
        afterAll_cons, stepCount_cons_of_ne hstep]

end HeldUp

/-! ## Late and at once -/

/-- The instruction, by its word in memory. -/
theorem performs_awaitKey_of_word (hw : m.processor.waiting = none)
    (hpc : 0x200 ≤ m.processor.pc ∧ m.processor.pc ≤ 4094 ∧ m.processor.pc % 2 = 0)
    (hword : m.memory.readWord m.processor.pc = .ok (0xF00A + 0x100 * x.val)) :
    m.Performs (.awaitKey x) :=
  ⟨hw, _, fetch_eq_ok_iff.mpr ⟨hpc, _, hword, rfl⟩, Instruction.denotes_awaitKey x⟩

/-- **A key that comes late is as good as one that comes at once.** A machine is at an instruction
that asks for a key. Steps are taken, the timers are lowered and keys are pressed and released in
any order; no key is down at a step until the last one, and then some key is. The steps before the
last might as well be left out: they are counted, and that is the only difference they make. The
last step loads the lowest key that is down then and goes on to the next instruction; the timers
have counted every tick, and nothing else has changed but the keypad. -/
theorem delayed_key_is_immediate (h : m.WellFormed) (hw : m.processor.waiting = none)
    (hpc : 0x200 ≤ m.processor.pc ∧ m.processor.pc ≤ 4094 ∧ m.processor.pc % 2 = 0)
    (hword : m.memory.readWord m.processor.pc = .ok (0xF00A + 0x100 * x.val))
    (hkinds : ∀ e ∈ events, e.kind ∈ [.step, .tick, .keypad]) (hsingle : ∀ e ∈ events, e.Single)
    (hquiet : m.AtSteps (fun m => ∀ k, m.keypad.down.get k = false) events)
    (hdown : ∃ k, (m.afterAll events).keypad.down.get k = true) :
    ∃ late direct : Machine,
      (m.afterAll events).step = .ok () late ∧
      (m.afterAll (withoutSteps events)).step = .ok () direct ∧
      late = { direct with cycles := direct.cycles + stepCount events } ∧
      ∃ key : Fin 16, (m.afterAll events).keypad.down.get key = true ∧
        (∀ k < key, (m.afterAll events).keypad.down.get k = false) ∧
        late = { m with
          processor := { m.processor with
            v := m.processor.v.setIfInBounds x (UInt8.ofNat key.val)
            pc := m.processor.pc + 2
            delay := countedDown m.processor.delay (ticksIn events)
            sound := countedDown m.processor.sound (ticksIn events)
            waiting := none }
          keypad := (m.afterAll events).keypad
          cycles := m.cycles + stepCount events + 1 } := by
  have hi := performs_awaitKey_of_word hw hpc hword
  -- the machine that only the ticks and the keypad operations lead to
  have hothers : ∀ e ∈ withoutSteps events, e.kind ∈ [.tick, .keypad] := by
    intro e he
    obtain ⟨he, hstep⟩ := mem_withoutSteps.mp he
    exact (List.mem_cons.mp (hkinds e he)).resolve_left hstep
  obtain ⟨keys, hafter⟩ := exists_afterAll hothers
  have hwell := wellFormed_afterAll h hothers
  have hperforms := performs_afterAll hothers hi
  -- the machine of the whole history is that one held up
  have hstart : m.heldUp none 0 = m := heldUp_none hw 0
  have hatSteps : (m.heldUp none 0).AtSteps (fun m => m.keypad.firstPressed = none) events := by
    rw [hstart]
    exact fun before after hsplit =>
      (Keypad.firstPressed_eq_none_iff _).mpr (hquiet before after hsplit)
  obtain ⟨waiting, hwaiting, hheld⟩ := afterAll_heldUp (.inl rfl) h hi 0 hkinds hsingle hatSteps
  rw [hstart, Nat.zero_add] at hheld
  have hkeypad : (m.afterAll events).keypad = (m.afterAll (withoutSteps events)).keypad := by
    rw [hheld]
    rfl
  have hlate := step_heldUp hwaiting hwell hperforms (stepCount events)
  rw [← hheld, heldUp_none hperforms.1, afterInstruction_awaitKey] at hlate
  have hdirect := step_of_performs hwell hperforms rfl
  rw [afterInstruction_awaitKey] at hdirect
  cases hkey : (m.afterAll (withoutSteps events)).keypad.firstPressed with
  | none =>
    obtain ⟨k, hk⟩ := hdown
    rw [hkeypad, (Keypad.firstPressed_eq_none_iff _).mp hkey k] at hk
    cases hk
  | some key =>
    obtain ⟨hkeyDown, hlowest⟩ := (Keypad.firstPressed_eq_some_iff _).mp hkey
    rw [hkey] at hlate hdirect
    have hnext : wrapAddress (m.processor.pc + 2) = m.processor.pc + 2 := by
      unfold wrapAddress
      omega
    refine ⟨_, _, hlate, hdirect, ?_, key, hkeypad ▸ hkeyDown, hkeypad ▸ hlowest, ?_⟩
    · rw [Nat.add_right_comm]
    · rw [hkeypad, hafter]
      simp only [Processor.ticked, Processor.next, hnext, ticksIn_withoutSteps, hw]

/-- A machine whose program begins by asking for a key. -/
def askingForKey : Machine :=
  powerOnWith (Random.ofSeed 0) [0xF5, 0x0A]

/-- The machine waits, misses key 9, and is given keys 7 and 3 before its next step. -/
def lateKeys : List Event :=
  [.oneStep, .command (.keypad (.press 9)), .oneTick, .command (.keypad (.release 9)),
    .command (.keypad (.press 7)), .command (.keypad (.press 3))]

theorem performs_askingForKey : askingForKey.Performs (.awaitKey 5) :=
  performs_of_program (k := 0) Memory.wellFormed_create rfl rfl rfl rfl (by decide) rfl rfl rfl

theorem readWord_askingForKey :
    askingForKey.memory.readWord askingForKey.processor.pc = .ok 0xF50A := by
  have hhigh : ([0xF5, 0x0A] : List UInt8)[0]? = some 0xF5 := rfl
  have hlow : ([0xF5, 0x0A] : List UInt8)[1]? = some 0x0A := rfl
  exact Memory.wellFormed_create.readWord_program (k := 0) (by decide) hhigh hlow

/-- One step passes with no key down, so the wait is begun and later ended by a key; without the
step the key is loaded at once. -/
theorem delayed_key_is_immediate_lateKeys :
    let m := askingForKey.afterAll lateKeys
    askingForKey.WellFormed ∧ askingForKey.processor.waiting = none ∧
      askingForKey.memory.readWord askingForKey.processor.pc = .ok 0xF50A ∧
      (∀ e ∈ lateKeys, e.kind ∈ [.step, .tick, .keypad]) ∧ (∀ e ∈ lateKeys, e.Single) ∧
      askingForKey.AtSteps (fun m => ∀ k, m.keypad.down.get k = false) lateKeys ∧
      m.keypad.down.get 3 = true ∧
      ∃ late direct, m.step = .ok () late ∧
        (askingForKey.afterAll (withoutSteps lateKeys)).step = .ok () direct ∧
        late = { direct with cycles := direct.cycles + 1 } := by
  have hwell : askingForKey.WellFormed := wellFormed_powerOnWith _ (by decide)
  have hkinds : ∀ e ∈ lateKeys, e.kind ∈ [.step, .tick, .keypad] := by decide
  have hsingle : ∀ e ∈ lateKeys, e.Single := by
    simp only [lateKeys, List.forall_mem_cons]
    exact ⟨fun _ => rfl, nofun, nofun, nofun, nofun, nofun, nofun⟩
  have hup : ∀ k, askingForKey.keypad.down.get k = false := by decide
  have hquiet : askingForKey.AtSteps (fun m => ∀ k, m.keypad.down.get k = false) lateKeys :=
    atSteps_cons.mpr ⟨fun _ => hup, atSteps_cons.mpr ⟨nofun, atSteps_cons.mpr ⟨nofun,
      atSteps_cons.mpr ⟨nofun, atSteps_cons.mpr ⟨nofun, atSteps_cons.mpr ⟨nofun, atSteps_nil⟩⟩⟩⟩⟩⟩
  -- the first step only begins the wait, so the keypad is that of the other events
  have hdown : (askingForKey.afterAll lateKeys).keypad.down.get 3 = true := by
    have hfirst : step.after askingForKey = askingForKey.heldUp (some 5) 1 := by
      have hheld := after_step_heldUp (.inl rfl) hwell performs_askingForKey 0 rfl
      rw [heldUp_none rfl] at hheld
      exact hheld
    rw [lateKeys, afterAll_cons, after_oneStep, hfirst]
    rfl
  obtain ⟨late, direct, hlate, hdirect, hsame, -⟩ :=
    delayed_key_is_immediate (x := 5) hwell rfl ⟨by decide, by decide, by decide⟩
      readWord_askingForKey hkinds hsingle hquiet ⟨3, hdown⟩
  exact ⟨hwell, rfl, readWord_askingForKey, hkinds, hsingle, hquiet, hdown, late, direct, hlate,
    hdirect, hsame⟩

end ChipEight.Machine
