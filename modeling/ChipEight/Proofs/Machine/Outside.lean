import ChipEight.Proofs.Machine.Atomicity
import ChipEight.Proofs.Machine.Course
import ChipEight.Proofs.Machine.Footprint

/-!
# The outside of a program

A program meets the outside in three places: the clock lowers its timers, the host presses keys, and
random bytes come from a source that the host may seed. Five instructions read one of them, and no
other way leads in.

* **`ReadsOutside`** — the words of these instructions, the instructions, and the machines that come
  to such a word.
* **`withOutside`** — a machine in another outside. Every instruction that does not read the outside
  has the same effect there, goes on at the same address and meets the same fault.
* **`Twins`** — two machines that agree on everything else. Steps keep twins as long as neither
  comes to a word that reads the outside (`Twins.step`).
* **`Twins.afterAll`** — so do whole histories, which may differ in all that comes from outside.
-/

namespace ChipEight

/-- The words that read the outside: `CXNN` with a mask other than 0, `EX9E`, `EXA1`, `FX07` and
`FX0A`. -/
def Opcode.ReadsOutside (op : Opcode) : Prop :=
  op.group.val = 0xC ∧ op.nn ≠ 0 ∨
    op.group.val = 0xE ∧ (op.nn.toNat = 0x9E ∨ op.nn.toNat = 0xA1) ∨
    op.group.val = 0xF ∧ (op.nn.toNat = 0x07 ∨ op.nn.toNat = 0x0A)

instance (op : Opcode) : Decidable op.ReadsOutside :=
  inferInstanceAs (Decidable (_ ∨ _ ∨ _))

/-- The instructions that read the outside. Under the mask 0 a random byte is drawn but not read. -/
def Instruction.ReadsOutside : Instruction → Prop
  | .random _ mask => mask ≠ 0
  | .skipIf (.keyDown _) => True
  | .skipIf (.keyUp _) => True
  | .readDelay _ => True
  | .awaitKey _ => True
  | _ => False

/-- A word that denotes an instruction which reads the outside is on the list of such words. -/
theorem Opcode.Denotes.readsOutside {op : Opcode} {i : Instruction} (h : op.Denotes i)
    (hi : i.ReadsOutside) : op.ReadsOutside := by
  -- the forms of the five instructions are the words on the list
  cases i with
  | random x mask =>
    obtain ⟨hgroup, -, rfl⟩ := h
    exact Or.inl ⟨hgroup, hi⟩
  | skipIf test =>
    cases test with
    | keyDown x => exact Or.inr (Or.inl ⟨h.1, Or.inl h.2.1⟩)
    | keyUp x => exact Or.inr (Or.inl ⟨h.1, Or.inr h.2.1⟩)
    | _ => exact hi.elim
  | readDelay x => exact Or.inr (Or.inr ⟨h.1, Or.inl h.2.1⟩)
  | awaitKey x => exact Or.inr (Or.inr ⟨h.1, Or.inr h.2.1⟩)
  | _ => exact hi.elim

namespace Machine

variable {m m' : Machine}

/-- The next word reads the outside. -/
def ReadsOutside (m : Machine) : Prop :=
  ∃ op, m.fetch = .ok op ∧ op.ReadsOutside

/-- So a machine that does not come to such a word does not perform such an instruction. -/
theorem Performs.not_readsOutside {i : Instruction} (hi : m.Performs i) (h : ¬ m.ReadsOutside) :
    ¬ i.ReadsOutside := by
  obtain ⟨-, op, hop, hform⟩ := hi
  exact fun hreads => h ⟨op, hop, hform.readsOutside hreads⟩

/-! ## Another outside -/

/-- What comes to a machine from outside. -/
structure Outside where
  delay : Int
  sound : Int
  keypad : Keypad
  random : Random.Twister

def outside (m : Machine) : Outside :=
  ⟨m.processor.delay, m.processor.sound, m.keypad, m.random⟩

/-- The machine in another outside. -/
def withOutside (m : Machine) (o : Outside) : Machine :=
  { m with
    processor := { m.processor with delay := o.delay, sound := o.sound }
    keypad := o.keypad
    random := o.random }

/-- The registers are where the outside could show. A random byte is the one case in which something
of it is taken and nothing is left. -/
theorem registersAfter_withOutside {i : Instruction} (hi : ¬ i.ReadsOutside) (o : Outside) :
    (m.withOutside o).registersAfter i = m.registersAfter i := by
  cases i with
  | combine op x y =>
    -- which of the two ways of combining it is depends on the operation alone
    cases op <;> rfl
  | random x mask =>
    -- the bytes drawn differ, but nothing is left of either
    obtain rfl : mask = 0 := Decidable.byContradiction hi
    show m.processor.v.setIfInBounds x.val ((Random.byte o.random).1 &&& 0) =
      m.processor.v.setIfInBounds x.val ((Random.byte m.random).1 &&& 0)
    rw [UInt8.and_zero, UInt8.and_zero]
  | readDelay x => exact absurd trivial hi
  | awaitKey x => exact absurd trivial hi
  | _ => rfl

/-- An instruction that does not read the outside has the same effect in another one. -/
theorem effect_withOutside {i : Instruction} (hi : ¬ i.ReadsOutside) (o : Outside) :
    ∃ o', (m.withOutside o).effect i = (m.effect i).withOutside o' := by
  have hregisters := registersAfter_withOutside (m := m) hi o
  refine ⟨((m.withOutside o).effect i).outside, ?_⟩
  unfold effect
  rw [hregisters]
  cases i with
  | awaitKey x => exact absurd trivial hi
  | _ => rfl

/-- Two skips and the wait look at the keypad to say where the program goes on; they read the
outside. -/
theorem flowAfter_withOutside {i : Instruction} (hi : ¬ i.ReadsOutside) (o : Outside) :
    (m.withOutside o).flowAfter i = m.flowAfter i := by
  cases i with
  | skipIf test =>
    cases test with
    | keyDown x => exact absurd trivial hi
    | keyUp x => exact absurd trivial hi
    | _ => rfl
  | awaitKey x => exact absurd trivial hi
  | _ => rfl

/-- A step that does not read the outside does the same in another one. -/
theorem completed_withOutside (h : m.WellFormed) (hw : m.processor.waiting = none)
    (hreads : ¬ m.ReadsOutside) (o : Outside) :
    ∃ o', (m.withOutside o).completed = m.completed.withOutside o' := by
  have halike : Alike m (m.withOutside o) := ⟨rfl, rfl, rfl, rfl, rfl, rfl⟩
  have hstage := stage_cycle h.memory
  unfold completed
  rw [halike.cycle_congr hw]
  generalize m.cycle = c at hstage ⊢
  -- a machine that is awake has no key delivered to it, so the keypad does not come in
  cases hstage with
  | idle register hwaiting =>
    rw [hw] at hwaiting
    cases hwaiting
  | deliver key register hwaiting =>
    rw [hw] at hwaiting
    cases hwaiting
  | stray => exact ⟨o, rfl⟩
  | skip op => exact ⟨o, rfl⟩
  | perform op i _ hop hdecode =>
    have hi := (performs_of_decode? hw hop hdecode).not_readsOutside hreads
    obtain ⟨o', heffect⟩ := effect_withOutside (m := m) hi o
    refine ⟨o', ?_⟩
    simp only [performed]
    rw [heffect, flowAfter_withOutside hi]
    rfl

/-- A wait begins under an instruction that reads the keypad. -/
theorem waiting_completed (h : m.WellFormed) (hw : m.processor.waiting = none)
    (hreads : ¬ m.ReadsOutside) : m.completed.processor.waiting = none := by
  refine Decidable.byContradiction fun hne => ?_
  rw [← hw] at hne
  obtain ⟨x, hi, -, -⟩ | ⟨register, key, hwaiting, -, -⟩ := performs_of_waiting_ne h.memory hne
  · exact hi.not_readsOutside hreads trivial
  · rw [hw] at hwaiting
    cases hwaiting

/-! ## Twins -/

/-- Two machines agree on everything but the outside. -/
structure Agree (m m' : Machine) : Prop where
  registers : m'.processor.v = m.processor.v
  index : m'.processor.i = m.processor.i
  counter : m'.processor.pc = m.processor.pc
  depth : m'.processor.sp = m.processor.sp
  stack : m'.processor.stack = m.processor.stack
  memory : m'.memory = m.memory
  pixels : m'.screen.pixels = m.screen.pixels
  dirty : m'.screen.dirty = m.screen.dirty
  cycles : m'.cycles = m.cycles

/-- Two well-formed machines that wait for no key agree on everything but the outside. -/
structure Twins (m m' : Machine) : Prop extends Agree m m' where
  left : m.WellFormed
  right : m'.WellFormed
  leftAwake : m.processor.waiting = none
  rightAwake : m'.processor.waiting = none

namespace Twins

theorem refl (h : m.WellFormed) (hw : m.processor.waiting = none) : Twins m m :=
  ⟨⟨rfl, rfl, rfl, rfl, rfl, rfl, rfl, rfl, rfl⟩, h, h, hw, hw⟩

theorem symm (h : Twins m m') : Twins m' m :=
  ⟨⟨h.registers.symm, h.index.symm, h.counter.symm, h.depth.symm, h.stack.symm, h.memory.symm,
    h.pixels.symm, h.dirty.symm, h.cycles.symm⟩, h.right, h.left, h.rightAwake, h.leftAwake⟩

/-- Twins are twins in any outside. -/
theorem withOutside (h : Twins m m') (o : Outside) : Twins m (m'.withOutside o) := by
  have hp := h.right.processor
  exact ⟨⟨h.registers, h.index, h.counter, h.depth, h.stack, h.memory, h.pixels, h.dirty,
    h.cycles⟩, h.left, ⟨⟨hp.index, hp.counter, hp.depth, hp.waiting⟩, h.right.memory,
    h.right.screen⟩, h.leftAwake, h.rightAwake⟩

/-- Twins are alike in everything that decides whether the next step fails. -/
theorem alike (h : Twins m m') : Alike m m' :=
  ⟨h.memory, h.index, h.counter, h.depth, h.rightAwake.trans h.leftAwake.symm, h.cycles⟩

/-- Twins agree on pixels and flag, and so on the screen: its width and height are the same on every
well-formed machine. -/
theorem screen_eq (h : Twins m m') : m'.screen = m.screen := by
  obtain ⟨hwidth, hheight, -⟩ := h.left.screen
  obtain ⟨hwidth', hheight', -⟩ := h.right.screen
  -- width and height are a machine's on both sides
  show (⟨m'.screen.width, m'.screen.height, m'.screen.pixels, m'.screen.dirty⟩ : Screen) = m.screen
  rw [hwidth', hheight', h.pixels, h.dirty, ← hwidth, ← hheight]

/-- One twin is the other in its own outside. What holds of a machine in any outside holds of its
twins through this. -/
theorem eq_withOutside (h : Twins m m') : m' = m.withOutside m'.outside := by
  show m' = ⟨⟨m.processor.v, m.processor.i, m.processor.pc, m.processor.stack, m.processor.sp,
    m'.processor.delay, m'.processor.sound, m.processor.waiting⟩, m.memory, m.screen, m'.keypad,
    m'.random, m.cycles⟩
  rw [← h.registers, ← h.index, ← h.counter, ← h.stack, ← h.depth, ← h.alike.waiting, ← h.memory,
    ← h.screen_eq, ← h.cycles]

/-- **A step keeps twins twins**, or fails on both with the same error, unless it reads the
outside. -/
theorem step (h : Twins m m') (hreads : ¬ m.ReadsOutside) :
    (∃ e, m.step = .error e m ∧ m'.step = .error e m') ∨
      ∃ n n', m.step = .ok () n ∧ m'.step = .ok () n' ∧ Twins n n' := by
  have hfault : m'.fault? = m.fault? := h.alike.fault?_congr
  -- faults do not depend on the outside, so the two machines fail together or not at all
  cases hf : m.fault? with
  | some fault =>
    exact Or.inl ⟨_, step_of_fault h.left hf, step_of_fault h.right (hfault.trans hf)⟩
  | none =>
    obtain ⟨o, ho⟩ := completed_withOutside h.left h.leftAwake hreads m'.outside
    rw [← h.eq_withOutside] at ho
    have hrefl : Twins m.completed m.completed :=
      refl (h.left.completed hf) (waiting_completed h.left h.leftAwake hreads)
    exact Or.inr ⟨_, _, step_of_clear h.left hf, step_of_clear h.right (hfault.trans hf),
      ho ▸ hrefl.withOutside o⟩

/-- The same of the machines that are left, whether the step failed or not. -/
theorem after_step (h : Twins m m') (hreads : ¬ m.ReadsOutside) :
    Twins (Machine.step.after m) (Machine.step.after m') := by
  obtain ⟨e, hleft, hright⟩ | ⟨n, n', hleft, hright, htwins⟩ := h.step hreads
  · rwa [Action.after_of_error hleft, Action.after_of_error hright]
  · rwa [Action.after_of_ok hleft, Action.after_of_ok hright]

theorem readsOutside_iff (h : Twins m m') : m'.ReadsOutside ↔ m.ReadsOutside := by
  unfold Machine.ReadsOutside
  rw [h.alike.fetch_congr]

end Twins

/-- Two new machines are twins, whatever comes to them from outside. -/
theorem twins_powerOn (random random' : Random.Twister) :
    Twins (powerOn random) (powerOn random') :=
  (Twins.refl (wellFormed_powerOn random) rfl).withOutside (powerOn random').outside

/-! ## Histories that differ in what comes from outside -/

/-- What comes from outside while a program runs. -/
def Event.Kind.outside : List Kind :=
  [.tick, .seed, .keypad]

/-- What else a host does, the steps apart. -/
def Event.Kind.inside : List Kind :=
  [.load, .reset, .memory, .screen]

/-- What is left of a history without what comes from outside. -/
def withoutOutside (events : List Event) : List Event :=
  events.filter fun e => e.kind ∉ Event.Kind.outside

theorem withoutOutside_append (before after : List Event) :
    withoutOutside (before ++ after) = withoutOutside before ++ withoutOutside after :=
  List.filter_append before after

/-- Nothing is left of a history exactly if all of it came from outside. -/
theorem withoutOutside_eq_nil_iff {events : List Event} :
    withoutOutside events = [] ↔ ∀ e ∈ events, e.kind ∈ Event.Kind.outside := by
  simp [withoutOutside]

/-- What comes from inside comes after some events from outside. -/
theorem exists_of_withoutOutside_eq_cons {events rest : List Event} {e : Event}
    (h : withoutOutside events = e :: rest) :
    ∃ before after, events = before ++ e :: after ∧
      (∀ e' ∈ before, e'.kind ∈ Event.Kind.outside) ∧ withoutOutside after = rest := by
  obtain ⟨before, after, hsplit, hbefore, -, hafter⟩ := List.filter_eq_cons_iff.mp h
  have hnone : withoutOutside before = [] := List.filter_eq_nil_iff.mpr hbefore
  exact ⟨before, after, hsplit, withoutOutside_eq_nil_iff.mp hnone, hafter⟩

/-- Whatever comes from outside to one of two twins, they stay twins. -/
theorem Twins.kept_right (m : Machine) : Kept Event.Kind.outside (Twins m) where
  load hkind := absurd hkind (by decide)
  reset hkind := absurd hkind (by decide)
  step hkind := absurd hkind (by decide)
  tick _ m' h := h.withOutside m'.tick.outside
  seed _ m' random h := h.withOutside { m'.outside with random }
  execute hkind := absurd hkind (by decide)
  processor hkind := absurd hkind (by decide)
  memory hkind := absurd hkind (by decide)
  screen hkind := absurd hkind (by decide)
  keypad _ m' c h := h.withOutside { m'.outside with keypad := c.run.after m'.keypad }

/-- A program is loaded, or refused, in any outside. A load makes timers and keypad anew and leaves
the source of random bytes. -/
theorem loading_withOutside (image : List UInt8) (o : Outside) :
    ∃ o', (Response.loading image (m.withOutside o)).machine =
      (Response.loading image m).machine.withOutside o' := by
  unfold Response.loading
  rw [loadProgram_eq, loadProgram_eq]
  by_cases hfit : Memory.programLimit < image.length
  · rw [if_pos hfit, if_pos hfit]
    exact ⟨o, rfl⟩
  · rw [if_neg hfit, if_neg hfit]
    exact ⟨⟨0, 0, Keypad.create, o.random⟩, rfl⟩

/-- What a host does beside the steps does the same in another outside. A load and a reset make
timers and keypad anew. -/
theorem after_withOutside {e : Event} (hkind : e.kind ∈ Event.Kind.inside) (o : Outside) :
    ∃ o', e.after (m.withOutside o) = (e.after m).withOutside o' := by
  -- loads are decided by their image alone, and the screen and memory are not outside
  cases e with
  | chance random => simp [Event.kind, Event.Kind.inside] at hkind
  | command c =>
    cases c with
    | loadProgram image => exact loading_withOutside image o
    | loadNumbers values =>
      unfold Event.after
      simp only [Command.run]
      cases imageOfNumbers values with
      | ok image => exact loading_withOutside image o
      | error misuse => exact ⟨o, rfl⟩
    | loadFile name file =>
      unfold Event.after
      simp only [Command.run]
      cases file.read name with
      | ok image => exact loading_withOutside image o
      | error e => exact ⟨o, rfl⟩
    | reset => exact ⟨⟨0, 0, Keypad.create, o.random⟩, rfl⟩
    | memory c =>
      unfold Event.after
      simp only [Command.run, machine_ofAction, Action.after_within]
      exact ⟨o, rfl⟩
    | screen c =>
      unfold Event.after
      simp only [Command.run, machine_ofAction, Action.after_within]
      exact ⟨o, rfl⟩
    | _ => simp [Event.kind, Event.kindOfCommand, Event.Kind.inside] at hkind

/-- Nothing but a step lets a register wait. -/
theorem kept_awake : Kept Event.Kind.inside fun m => m.processor.waiting = none where
  load _ m m' image _ hl := by rw [processor_loadProgram hl]; rfl
  reset _ _ _ := rfl
  step hkind := absurd hkind (by decide)
  tick hkind := absurd hkind (by decide)
  seed hkind := absurd hkind (by decide)
  execute hkind := absurd hkind (by decide)
  processor hkind := absurd hkind (by decide)
  memory _ _ _ h := h
  screen _ _ _ h := h
  keypad hkind := absurd hkind (by decide)

namespace Twins

/-- What a host does to both, the steps apart, keeps them twins. -/
theorem inside (h : Twins m m') {e : Event} (hkind : e.kind ∈ Event.Kind.inside) :
    Twins (e.after m) (e.after m') := by
  have hforeign : Event.Kind.inside ⊆ Event.Kind.foreign := by decide
  obtain ⟨o, ho⟩ := after_withOutside (m := m) hkind m'.outside
  rw [← h.eq_withOutside] at ho
  rw [ho]
  exact (refl (kept_wellFormed.event h.left e (hforeign hkind))
    (kept_awake.event h.leftAwake e hkind)).withOutside o

/-- A step that does not read the outside, and whatever else a host does, keeps twins twins. -/
theorem event (h : Twins m m') {e : Event} (hkind : e.kind ∈ .step :: Event.Kind.inside)
    (hsingle : e.Single) (hread : e = .oneStep → ¬ m.ReadsOutside) :
    Twins (e.after m) (e.after m') := by
  by_cases hstep : e.kind = .step
  · obtain rfl := hsingle hstep
    rw [after_oneStep, after_oneStep]
    exact h.after_step (hread rfl)
  · exact h.inside ((List.mem_cons.mp hkind).resolve_left hstep)

/-- **A history keeps twins twins** up to the first step that reads the outside, whatever else comes
from outside in the second history. Induction on the first: an event from outside is passed over,
and any other event is met in the second history after some events from outside. -/
theorem afterAll (h : Twins m m') {events events' : List Event}
    (hkinds : ∀ e ∈ events, e.kind ∈ .step :: Event.Kind.inside ++ Event.Kind.outside)
    (hsingle : ∀ e ∈ events, e.Single) (hsame : withoutOutside events = withoutOutside events')
    (hreads : m.AtSteps (fun m => ¬ m.ReadsOutside) events) :
    Twins (m.afterAll events) (m'.afterAll events') := by
  induction events generalizing m m' events' with
  | nil => exact (kept_right m).afterAll h events' (withoutOutside_eq_nil_iff.mp hsame.symm)
  | cons e events ih =>
    have hkinds' : ∀ e' ∈ events, e'.kind ∈ .step :: Event.Kind.inside ++ Event.Kind.outside :=
      fun e' he' => hkinds e' (List.mem_cons_of_mem e he')
    have hsingle' : ∀ e' ∈ events, e'.Single := fun e' he' =>
      hsingle e' (List.mem_cons_of_mem e he')
    obtain ⟨hread, hreads'⟩ := atSteps_cons.mp hreads
    -- an event from outside is of the first machine alone, and any other one of both
    by_cases hout : e.kind ∈ Event.Kind.outside
    · have hleft : Twins (e.after m) m' := ((kept_right m').event h.symm e hout).symm
      have hskip : withoutOutside (e :: events) = withoutOutside events :=
        List.filter_cons_of_neg (by simpa using hout)
      exact ih hleft hkinds' hsingle' (hskip.symm.trans hsame) hreads'
    · have hkeep : withoutOutside (e :: events) = e :: withoutOutside events :=
        List.filter_cons_of_pos (by simpa using hout)
      obtain ⟨before, after, rfl, hbefore, hafter⟩ :=
        exists_of_withoutOutside_eq_cons (hsame.symm.trans hkeep)
      have hreached : Twins m (m'.afterAll before) := (kept_right m).afterAll h before hbefore
      have hkind := (List.mem_append.mp (hkinds e List.mem_cons_self)).resolve_right hout
      have hnext := hreached.event hkind (hsingle e List.mem_cons_self) hread
      rw [afterAll_append, afterAll_cons]
      exact ih hnext hkinds' hsingle' hafter.symm hreads'

/-- And the second history reads the outside at no step before the first does. -/
theorem atSteps (h : Twins m m') {events events' : List Event}
    (hkinds : ∀ e ∈ events, e.kind ∈ .step :: Event.Kind.inside ++ Event.Kind.outside)
    (hsingle : ∀ e ∈ events, e.Single) (hsame : withoutOutside events = withoutOutside events')
    (hreads : m.AtSteps (fun m => ¬ m.ReadsOutside) events) :
    m'.AtSteps (fun m => ¬ m.ReadsOutside) events' := by
  intro before' after' hsplit'
  have hstep :
      withoutOutside events = withoutOutside before' ++ .oneStep :: withoutOutside after' := by
    rw [hsame, hsplit', withoutOutside_append]
    rfl
  -- the same step in the first history comes after as much, and after some events from outside
  obtain ⟨before, rest, rfl, hbefore, hrest⟩ := List.filter_eq_append_iff.mp hstep
  obtain ⟨quiet, after, rfl, hquiet, -⟩ := exists_of_withoutOutside_eq_cons hrest
  rw [← List.append_assoc] at hkinds hsingle hreads
  have htwins : Twins (m.afterAll (before ++ quiet)) (m'.afterAll before') := by
    refine h.afterAll (fun e he => hkinds e (List.mem_append_left _ he))
      (fun e he => hsingle e (List.mem_append_left _ he)) ?_ hreads.first
    rw [withoutOutside_append, withoutOutside_eq_nil_iff.mpr hquiet, List.append_nil]
    exact hbefore
  rw [htwins.readsOutside_iff]
  exact hreads _ _ rfl

end Twins

/-- **The outside reaches a program only through the instructions that read it.** A step of twins
that does not read the outside fails on both with the same error or leaves twins. So do histories
that differ in what comes from outside, in seeds, keys, and where and how many ticks there are, up
to the first step that reads the outside, which is the same step in both. This begins with two new
machines, loading a program being an event of the histories like any other. -/
theorem twins_until_outside_read (h : Twins m m') :
    (¬ m.ReadsOutside →
      (∃ e, m.step = .error e m ∧ m'.step = .error e m') ∨
        ∃ n n', m.step = .ok () n ∧ m'.step = .ok () n' ∧ Twins n n') ∧
    (∀ events events' : List Event,
      (∀ e ∈ events, e.kind ∈ .step :: Event.Kind.inside ++ Event.Kind.outside) →
      (∀ e ∈ events, e.Single) → withoutOutside events = withoutOutside events' →
      m.AtSteps (fun m => ¬ m.ReadsOutside) events →
      Twins (m.afterAll events) (m'.afterAll events') ∧
        m'.AtSteps (fun m => ¬ m.ReadsOutside) events') ∧
    ∀ random random', Twins (powerOn random) (powerOn random') := by
  refine ⟨h.step, ?_, twins_powerOn⟩
  intro events events' hkinds hsingle hsame hreads
  exact ⟨h.afterAll hkinds hsingle hsame hreads, h.atSteps hkinds hsingle hsame hreads⟩

/-! ## A program that draws a byte and masks it out -/

def maskedDraw (random : Random.Twister) : Machine :=
  powerOnWith random [0xC1, 0x00]

theorem fetch_maskedDraw (random : Random.Twister) :
    (maskedDraw random).fetch = .ok ⟨0xC100⟩ := by
  have hfetch : (maskedDraw random).fetch =
      .ok ⟨(256 * (0xC1 : UInt8).toNat + (0x00 : UInt8).toNat : Nat)⟩ :=
    fetch_of_program (k := 0) Memory.wellFormed_create rfl rfl rfl (by decide) rfl rfl
  exact hfetch

theorem not_readsOutside_maskedDraw (random : Random.Twister) :
    ¬ (maskedDraw random).ReadsOutside := by
  rintro ⟨op, hop, hreads⟩
  rw [fetch_maskedDraw] at hop
  cases hop
  exact absurd hreads (by decide)

/-- Only the source of random bytes tells the two apart. -/
theorem twins_maskedDraw (random random' : Random.Twister) :
    Twins (maskedDraw random) (maskedDraw random') :=
  (Twins.refl (wellFormed_powerOnWith random (by decide)) rfl).withOutside
    (maskedDraw random').outside

/-- Whatever the seeds, and with ticks and a key in the second run alone, the two agree after the
draw. -/
theorem twins_until_outside_read_maskedDraw :
    Twins (maskedDraw (Random.ofSeed 1)) (maskedDraw (Random.ofSeed 2)) ∧
      ¬ (maskedDraw (Random.ofSeed 1)).ReadsOutside ∧
      Twins ((maskedDraw (Random.ofSeed 1)).afterAll [.oneStep])
        ((maskedDraw (Random.ofSeed 2)).afterAll
          [.command (.tick 3), .command (.keypad (.press 5)), .oneStep]) := by
  have htwins := twins_maskedDraw (Random.ofSeed 1) (Random.ofSeed 2)
  have hreads := not_readsOutside_maskedDraw (Random.ofSeed 1)
  obtain ⟨-, hruns, -⟩ := twins_until_outside_read htwins
  have hsingle : ∀ e ∈ [Event.oneStep], e.Single := by
    intro e he hstep
    exact List.mem_singleton.mp he
  -- without ticks and keys the two histories are one step each
  have hsame : withoutOutside [.oneStep] =
      withoutOutside [.command (.tick 3), .command (.keypad (.press 5)), .oneStep] := rfl
  have hat : (maskedDraw (Random.ofSeed 1)).AtSteps (fun m => ¬ m.ReadsOutside) [.oneStep] :=
    atSteps_cons.mpr ⟨fun _ => hreads, atSteps_nil⟩
  exact ⟨htwins, hreads, (hruns _ _ (by decide) hsingle hsame hat).1⟩

end Machine

end ChipEight
