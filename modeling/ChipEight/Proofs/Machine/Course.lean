import ChipEight.Proofs.Machine.Invariant

/-!
# The course of a history

`afterAll` says where a history leads. Statements about what happens on the way need the machines in
between, and need them after every single step, while a host may ask for many steps at once.

* **`after_steps`** — asking for several steps is asking for them one by one, also where one of them
  fails. So nothing is lost where a history is told in single steps (`Event.Single`).
* **`Throughout`** — a property that holds all along, from the first machine to the last.
* **`AtSteps`** — a property of every machine that is about to take a step.
* **`stepCount`**, **`tickCount`** — how many steps and ticks there are in a history.
* **`exists_first`**, **`atSteps_not_or_exists_last`** — where a property comes to an end, there is
  an event that ends it; among the steps of a kind there is a last one.
-/

namespace ChipEight.Machine

/-- One step. -/
abbrev Event.oneStep : Event :=
  .command (.step 1)

/-- One tick. -/
abbrev Event.oneTick : Event :=
  .command (.tick 1)

/-- The event takes no more than one step. -/
def Event.Single (e : Event) : Prop :=
  e.kind = .step → e = .oneStep

variable {m : Machine} {P : Machine → Prop} {e : Event} {events : List Event}

/-- A request for one step is the step itself: a failure is only its answer, and has no further
effect. -/
theorem after_oneStep (m : Machine) : Event.oneStep.after m = step.after m :=
  after_command_step_one m

theorem after_oneTick (m : Machine) : Event.oneTick.after m = m.tick :=
  rfl

/-! ## Several steps at once -/

/-- A step that changes nothing can be taken any number of times. -/
theorem afterAll_replicate_of_fixed (h : step.after m = m) (n : Nat) :
    m.afterAll (List.replicate n .oneStep) = m := by
  induction n with
  | zero => rfl
  | succ n ih => rw [List.replicate_succ, afterAll_cons, after_oneStep, h, ih]

/-- Steps at once are steps one by one. Several steps at once stop at the first that fails, which
leaves the machine as it was, so the steps one by one that follow fail as well. -/
theorem machine_advance {p : Progress} (h : p.machine.WellFormed) (herror : p.error = none)
    (n : Nat) :
    (p.advance n).machine = p.machine.afterAll (List.replicate n .oneStep) := by
  induction n generalizing p with
  | zero => rfl
  | succ n ih =>
    have hmachine : p.step.machine = step.after p.machine := Progress.machine_step p
    rw [List.replicate_succ, afterAll_cons, after_oneStep, Progress.advance_succ herror]
    -- either the first step completes and the rest follow, or it fails and so would all others
    cases hf : p.machine.fault? with
    | none =>
      have hnone := (Progress.step_of_ok (step_of_clear h hf)).2
      rw [ih (hmachine ▸ WellFormed.keeps_step _ h) hnone, hmachine]
    | some fault =>
      have hsome := (Progress.step_of_error (step_of_fault h hf)).2
      have hfixed : step.after p.machine = p.machine := Action.after_of_error (step_of_fault h hf)
      rw [Progress.advance_of_error hsome, hmachine, hfixed, afterAll_replicate_of_fixed hfixed]

/-- **Asking for several steps is asking for them one by one.** -/
theorem after_steps (h : m.WellFormed) (count : Int) :
    (Event.command (.step count)).after m =
      m.afterAll (List.replicate count.toNat .oneStep) :=
  machine_advance (p := .start m) h rfl count.toNat

/-! ## All along -/

/-- A property holds all along a history: at its beginning and after each of its events. -/
def Throughout (m : Machine) (P : Machine → Prop) (events : List Event) : Prop :=
  ∀ before after, events = before ++ after → P (m.afterAll before)

theorem throughout_nil : m.Throughout P [] ↔ P m := by
  constructor
  · intro h
    exact h [] [] rfl
  · intro h before after hsplit
    obtain ⟨rfl, -⟩ := List.append_eq_nil_iff.mp hsplit.symm
    exact h

/-- Along one event more the property is looked at once more, before it. This is what inductions on
a history take apart. -/
theorem throughout_cons :
    m.Throughout P (e :: events) ↔ P m ∧ (e.after m).Throughout P events := by
  constructor
  · intro h
    refine ⟨h [] _ rfl, fun before after hsplit => ?_⟩
    exact h (e :: before) after (congrArg (e :: ·) hsplit)
  · -- the part before is empty or begins with the first event
    rintro ⟨hm, hrest⟩ before after hsplit
    cases before with
    | nil => exact hm
    | cons e' before =>
      obtain ⟨rfl, hafter⟩ := List.cons_eq_cons.mp hsplit
      exact hrest before after hafter

theorem Throughout.head (h : m.Throughout P events) : P m :=
  h [] events rfl

/-- What holds all along holds all along the first part. -/
theorem Throughout.first {later : List Event} (h : m.Throughout P (events ++ later)) :
    m.Throughout P events := by
  intro before after hsplit
  refine h before (after ++ later) ?_
  rw [hsplit, List.append_assoc]

/-! ## At the steps -/

/-- A property holds of every machine that is about to take a step. -/
def AtSteps (m : Machine) (P : Machine → Prop) (events : List Event) : Prop :=
  ∀ before after, events = before ++ .oneStep :: after → P (m.afterAll before)

theorem atSteps_nil : m.AtSteps P [] := by
  intro before after hsplit
  obtain ⟨-, hnil⟩ := List.append_eq_nil_iff.mp hsplit.symm
  cases hnil

/-- An event that is no step asks nothing of the machine before it. -/
theorem atSteps_cons :
    m.AtSteps P (e :: events) ↔ (e = .oneStep → P m) ∧ (e.after m).AtSteps P events := by
  constructor
  · intro h
    refine ⟨?_, fun before after hsplit => ?_⟩
    · rintro rfl
      exact h [] events rfl
    · exact h (e :: before) after (congrArg (e :: ·) hsplit)
  · rintro ⟨hm, hrest⟩ before after hsplit
    cases before with
    | nil => exact hm (List.cons_eq_cons.mp hsplit).1
    | cons e' before =>
      obtain ⟨rfl, hafter⟩ := List.cons_eq_cons.mp hsplit
      exact hrest before after hafter

/-- A history may be cut anywhere, and the steps of its two parts looked at apart. Induction on the
first part. -/
theorem atSteps_append {later : List Event} :
    m.AtSteps P (events ++ later) ↔ m.AtSteps P events ∧ (m.afterAll events).AtSteps P later := by
  induction events generalizing m with
  | nil => simp only [List.nil_append, atSteps_nil, true_and, afterAll_nil]
  | cons e events ih =>
    rw [List.cons_append, atSteps_cons, ih, atSteps_cons, and_assoc, afterAll_cons]

/-- What holds at the steps holds at those of the first part. -/
theorem AtSteps.first {later : List Event} (h : m.AtSteps P (events ++ later)) :
    m.AtSteps P events :=
  (atSteps_append.mp h).1

/-! ## Counting steps and ticks -/

/-- The steps among some events. -/
def stepCount (events : List Event) : Nat :=
  events.countP fun e => e.kind = .step

/-- The ticks among some events. -/
def tickCount (events : List Event) : Nat :=
  events.countP fun e => e.kind = .tick

theorem stepCount_append {later : List Event} :
    stepCount (events ++ later) = stepCount events + stepCount later :=
  List.countP_append

theorem tickCount_append {later : List Event} :
    tickCount (events ++ later) = tickCount events + tickCount later :=
  List.countP_append

/-- A request for steps is counted once, however many it asks for: the histories in question ask for
one at a time. -/
theorem stepCount_cons_of_step (h : e.kind = .step) (events : List Event) :
    stepCount (e :: events) = stepCount events + 1 :=
  List.countP_cons_of_pos (by simpa using h)

theorem stepCount_cons_of_ne (h : e.kind ≠ .step) (events : List Event) :
    stepCount (e :: events) = stepCount events :=
  List.countP_cons_of_neg (by simpa using h)

@[simp]
theorem stepCount_replicate (n : Nat) : stepCount (List.replicate n .oneStep) = n := by
  rw [stepCount, List.countP_replicate, if_pos (by rfl)]

@[simp]
theorem tickCount_replicate (n : Nat) : tickCount (List.replicate n .oneStep) = 0 := by
  rw [tickCount, List.countP_replicate, if_neg (by decide)]

@[simp]
theorem stepCount_oneTick : stepCount [.oneTick] = 0 :=
  rfl

@[simp]
theorem tickCount_oneTick : tickCount [.oneTick] = 1 :=
  rfl

/-! ## The event that ends it -/

/-- **Where a property comes to an end, an event ends it.** Induction on the history: either the
first event ends it, or it is ended later. -/
theorem exists_first (hstart : P m) (hend : ¬ P (m.afterAll events)) :
    ∃ before e after, events = before ++ e :: after ∧ m.Throughout P before ∧
      ¬ P (e.after (m.afterAll before)) := by
  induction events generalizing m with
  | nil => exact absurd hstart hend
  | cons e events ih =>
    by_cases hnext : P (e.after m)
    · obtain ⟨before, e', after, hsplit, hbefore, hends⟩ := ih hnext hend
      exact ⟨e :: before, e', after, congrArg (e :: ·) hsplit,
        throughout_cons.mpr ⟨hstart, hbefore⟩, hends⟩
    · exact ⟨[], e, events, rfl, throughout_nil.mpr hstart, hnext⟩

/-- **Among the steps of a kind there is a last one**, or there are none. Induction on the history:
the last one later on is the last one of all, and where there is none the first event may be it. -/
theorem atSteps_not_or_exists_last (m : Machine) (P : Machine → Prop) (events : List Event) :
    m.AtSteps (fun m => ¬ P m) events ∨
      ∃ before after, events = before ++ .oneStep :: after ∧ P (m.afterAll before) ∧
        (step.after (m.afterAll before)).AtSteps (fun m => ¬ P m) after := by
  induction events generalizing m with
  | nil => exact Or.inl atSteps_nil
  | cons e events ih =>
    obtain hnone | ⟨before, after, hsplit, hlast, hlater⟩ := ih (e.after m)
    · -- there is none later on, so the first event is the last one or there is none at all
      by_cases hfirst : e = .oneStep ∧ P m
      · obtain ⟨rfl, hm⟩ := hfirst
        rw [after_oneStep] at hnone
        exact Or.inr ⟨[], events, rfl, hm, hnone⟩
      · exact Or.inl (atSteps_cons.mpr ⟨fun he hm => hfirst ⟨he, hm⟩, hnone⟩)
    · exact Or.inr ⟨e :: before, after, congrArg (e :: ·) hsplit, hlast, hlater⟩

end ChipEight.Machine
