import ChipEight.Machine.Command
import ChipEight.Proofs.Action

/-!
# Histories

What can happen to a machine, in any order and number, and how a property is carried through all of
it. A history is a list of events; an event is a host's command, or that the host uses the source of
random bytes itself, which no command says anything about.

* **`Progress.keeps_advance`** — what a step keeps, any number of steps keeps.
* **`Kept.afterAll`** — what the events of some kinds keep, one by one, a history of such events
  keeps. The induction over histories is done here, once.
* **`Reachable`** — what comes about from power-on by events of some kinds.
-/

namespace ChipEight

/-! ## Several steps -/

namespace Progress

/-- Whether a step fails or not, the host goes on with the machine that the step left. -/
theorem machine_step (p : Progress) : p.step.machine = Machine.step.after p.machine := by
  obtain ⟨m, ran, notices, error⟩ := p
  simp only [step, Action.after]
  cases m.step <;> rfl

theorem step_of_ok {p : Progress} {m : Machine} (h : p.machine.step = .ok () m) :
    p.step.machine = m ∧ p.step.error = none := by
  constructor <;> simp only [step, h]

theorem step_of_error {p : Progress} {e : Error} {m : Machine} (h : p.machine.step = .error e m) :
    p.step.machine = m ∧ p.step.error = some e := by
  constructor <;> simp only [step, h]

/-- An error stops the steps that are still to come. -/
theorem advance_of_error {p : Progress} {e : Error} (h : p.error = some e) (n : Nat) :
    p.advance n = p := by
  cases n with
  | zero => rfl
  | succ n => simp only [advance, h]

/-- As long as nothing has failed, the first of several steps is a step and the others follow. -/
theorem advance_succ {p : Progress} (h : p.error = none) (n : Nat) :
    p.advance (n + 1) = p.step.advance n := by
  simp only [advance, h]

/-- What a step keeps, any number of steps keeps. -/
theorem keeps_advance {P : Machine → Prop} (hstep : Machine.step.Keeps P) (n : Nat)
    (p : Progress) (hp : P p.machine) : P (p.advance n).machine := by
  induction n generalizing p with
  | zero => exact hp
  | succ n ih =>
    -- an earlier error stops the machine where it is
    simp only [advance]
    cases p.error with
    | some e => exact hp
    | none =>
      apply ih
      rw [machine_step]
      exact hstep _ hp

end Progress

namespace Machine

/-! ## Events -/

/-- Something that happens to a machine. -/
inductive Event where
  /-- A host's command is carried out. -/
  | command (command : Command)
  /-- The host uses the source of random bytes itself: it may then be in any state. -/
  | chance (random : Random.Twister)

/-- What an event has to do with. -/
inductive Event.Kind where
  | load
  | reset
  | step
  | tick
  | seed
  | execute
  | processor
  | memory
  | screen
  | keypad
  deriving DecidableEq, Repr

namespace Event

def kindOfCommand : Command → Kind
  | .loadProgram _ => .load
  | .loadNumbers _ => .load
  | .loadFile _ _ => .load
  | .step _ => .step
  | .tick _ => .tick
  | .reset => .reset
  | .seed _ _ => .seed
  | .execute _ => .execute
  | .processor _ => .processor
  | .memory _ => .memory
  | .screen _ => .screen
  | .keypad _ => .keypad

/-- What an event has to do with. -/
def kind : Event → Kind
  | command c => kindOfCommand c
  | chance _ => .seed

/-- The machine after an event. -/
def after (m : Machine) : Event → Machine
  | command c => (c.run m).machine
  | chance random => { m with random }

/-- What happens beside the program: the clock, the source of random bytes, the screen and the
keypad. -/
def Kind.peripheral : List Kind :=
  [.tick, .seed, .screen, .keypad]

/-- What drives a machine: programs are loaded and run, and things happen beside them. Processor
and memory are left to the program. -/
def Kind.driving : List Kind :=
  [.load, .reset, .step] ++ peripheral

/-- What happens to a machine while its program runs on: steps are taken, memory is written by the
host, and things happen beside them. Nothing is loaded or reset. -/
def Kind.running : List Kind :=
  [.step, .memory] ++ peripheral

/-- Everything but assigning to the processor. -/
def Kind.foreign : List Kind :=
  [.execute, .memory] ++ driving

/-- Everything. -/
def Kind.every : List Kind :=
  .processor :: foreign

end Event

/-- The machine after a history. -/
def afterAll (m : Machine) (events : List Event) : Machine :=
  events.foldl Event.after m

@[simp]
theorem afterAll_cons (m : Machine) (event : Event) (events : List Event) :
    m.afterAll (event :: events) = (event.after m).afterAll events :=
  rfl

@[simp]
theorem afterAll_nil (m : Machine) : m.afterAll [] = m :=
  rfl

theorem afterAll_append (m : Machine) (before after : List Event) :
    m.afterAll (before ++ after) = (m.afterAll before).afterAll after :=
  List.foldl_append

/-! ## What a history keeps -/

/-- A property is kept by every event of the given kinds. -/
structure Kept (kinds : List Event.Kind) (P : Machine → Prop) : Prop where
  load : .load ∈ kinds → ∀ m m' image, P m → m.loadProgram image = .ok m' → P m'
  reset : .reset ∈ kinds → ∀ m, P m → P m.reset
  step : .step ∈ kinds → step.Keeps P
  tick : .tick ∈ kinds → ∀ m, P m → P m.tick
  seed : .seed ∈ kinds → ∀ m random, P m → P { m with random }
  execute : .execute ∈ kinds → ∀ op, (executeWord op).Keeps P
  processor : .processor ∈ kinds → ∀ m (c : Processor.Command), P m →
    P { m with processor := c.run.after m.processor }
  memory : .memory ∈ kinds → ∀ m (c : Memory.Command), P m →
    P { m with memory := c.run.after m.memory }
  screen : .screen ∈ kinds → ∀ m (c : Screen.Command), P m →
    P { m with screen := c.run.after m.screen }
  keypad : .keypad ∈ kinds → ∀ m (c : Keypad.Command), P m →
    P { m with keypad := c.run.after m.keypad }

/-- A response carries the machine that the action left, also where its reply is an error. -/
theorem machine_ofAction (action : Action Machine Reply) (m : Machine) :
    (Response.ofAction action m).machine = action.after m := by
  simp only [Response.ofAction, Action.after]
  cases action m <;> rfl

/-- A word given as an integer is executed as that word: the detour changes the reply and not the
machine. -/
theorem after_executing (word : Int) (m : Machine) :
    (executing word).after m = (executeWord ⟨word⟩).after m := by
  simp only [executing, Action.after]
  cases executeWord ⟨word⟩ m <;> rfl

/-- A host that asks for one step gets one. -/
theorem after_command_step_one (m : Machine) : (Event.command (.step 1)).after m = step.after m :=
  Progress.machine_step (.start m)

namespace Kept

variable {kinds : List Event.Kind} {P : Machine → Prop}

/-- A load that is accepted is a case of `Kept`, and one that is refused leaves the machine as it
was. -/
theorem loading (h : Kept kinds P) (hkind : .load ∈ kinds) {m : Machine} (hm : P m)
    (image : List UInt8) : P (Response.loading image m).machine := by
  unfold Response.loading
  cases hl : m.loadProgram image with
  | ok m' => exact h.load hkind m m' image hm hl
  | error fault => exact hm

theorem ticks (h : Kept kinds P) (hkind : .tick ∈ kinds) {m : Machine} (hm : P m) (n : Nat) :
    P (Nat.repeat Machine.tick n m) := by
  induction n with
  | zero => exact hm
  | succ n ih => exact h.tick hkind _ ih

/-- What is kept by every kind of event is kept by each command of the kinds. Here every command is
taken apart once, down to the operation that `Kept` speaks of. -/
theorem command (h : Kept kinds P) {m : Machine} (hm : P m) (c : Command)
    (hkind : Event.kindOfCommand c ∈ kinds) : P (c.run m).machine := by
  -- a command that is refused before it reaches the machine keeps everything
  cases c with
  | loadProgram image => exact h.loading hkind hm image
  | loadNumbers values =>
    simp only [Command.run]
    cases imageOfNumbers values with
    | ok image => exact h.loading hkind hm image
    | error misuse => exact hm
  | loadFile name image =>
    simp only [Command.run]
    cases image.read name with
    | ok content => exact h.loading hkind hm content
    | error e => exact hm
  | step count => exact Progress.keeps_advance (h.step hkind) _ _ hm
  | tick count => exact h.ticks hkind hm count.toNat
  | reset => exact h.reset hkind m hm
  | seed chance value => exact h.seed hkind m _ hm
  | execute word =>
    simp only [Command.run, machine_ofAction, after_executing]
    exact h.execute hkind ⟨word⟩ m hm
  | processor c =>
    simp only [Command.run, machine_ofAction, Action.after_within]
    exact h.processor hkind m c hm
  | memory c =>
    simp only [Command.run, machine_ofAction, Action.after_within]
    exact h.memory hkind m c hm
  | screen c =>
    simp only [Command.run, machine_ofAction, Action.after_within]
    exact h.screen hkind m c hm
  | keypad c =>
    simp only [Command.run, machine_ofAction, Action.after_within]
    exact h.keypad hkind m c hm

/-- The same of an event, whether a command or the host's own use of the source of random bytes. -/
theorem event (h : Kept kinds P) {m : Machine} (hm : P m) (e : Event) (hkind : e.kind ∈ kinds) :
    P (e.after m) := by
  cases e with
  | command c => exact h.command hm c hkind
  | chance random => exact h.seed hkind m random hm

theorem mono {fewer : List Event.Kind} (h : Kept kinds P) (hsub : fewer ⊆ kinds) :
    Kept fewer P where
  load hkind := h.load (hsub hkind)
  reset hkind := h.reset (hsub hkind)
  step hkind := h.step (hsub hkind)
  tick hkind := h.tick (hsub hkind)
  seed hkind := h.seed (hsub hkind)
  execute hkind := h.execute (hsub hkind)
  processor hkind := h.processor (hsub hkind)
  memory hkind := h.memory (hsub hkind)
  screen hkind := h.screen (hsub hkind)
  keypad hkind := h.keypad (hsub hkind)

/-- **What every event keeps, a history keeps.** Induction on the history. -/
theorem afterAll (h : Kept kinds P) {m : Machine} (hm : P m) (events : List Event)
    (hkinds : ∀ e ∈ events, e.kind ∈ kinds) : P (m.afterAll events) := by
  induction events generalizing m with
  | nil => exact hm
  | cons e events ih =>
    have he : P (e.after m) := h.event hm e (hkinds e List.mem_cons_self)
    exact ih he fun e' he' => hkinds e' (List.mem_cons_of_mem e he')

end Kept

/-! ## From power-on -/

/-- A machine comes about from power-on, with whatever source of random bytes, by a history of
events of the given kinds. -/
def Reachable (kinds : List Event.Kind) (m : Machine) : Prop :=
  ∃ random events, (∀ e ∈ events, Event.kind e ∈ kinds) ∧ m = (powerOn random).afterAll events

/-- What comes about goes on to come about. -/
theorem Reachable.afterAll {kinds : List Event.Kind} {m : Machine} (h : m.Reachable kinds)
    (events : List Event) (hkinds : ∀ e ∈ events, e.kind ∈ kinds) :
    (m.afterAll events).Reachable kinds := by
  obtain ⟨random, before, hbefore, rfl⟩ := h
  refine ⟨random, before ++ events, ?_, (afterAll_append _ before events).symm⟩
  intro e he
  exact (List.mem_append.mp he).elim (hbefore e) (hkinds e)

/-- What holds at power-on and is kept holds of every machine that comes about. -/
theorem Kept.reachable {kinds : List Event.Kind} {P : Machine → Prop} (h : Kept kinds P)
    (hstart : ∀ random, P (powerOn random)) {m : Machine} (hm : m.Reachable kinds) : P m := by
  obtain ⟨random, events, hkinds, rfl⟩ := hm
  exact h.afterAll (hstart random) events hkinds

end Machine

end ChipEight
