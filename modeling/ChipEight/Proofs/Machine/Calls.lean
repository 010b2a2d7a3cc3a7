import ChipEight.Proofs.Machine.Course
import ChipEight.Proofs.Machine.Footprint

/-!
# Calls and returns

A call pushes the address after itself; a return pops an address and goes on there. That the address
is that of the matching call is no fact about either: between the two, any number of steps may call
and return, fail, wait for a key and be interrupted by the host.

* **`Above`** — what carries the argument: the stack is deeper than it was at the call, and its
  slots up to that of the call are as the call left them.
* **`Above.step`** — one step keeps this, unless it is a return that leaves the call.
* **`Above.afterAll`** — so a whole course keeps it, as long as the stack stays deeper.
* **`Returns`** — a return to a caller: behind the call, with the slots below it untouched.
* **`calls_return`** — the step that first brings the stack back to where it was at a call is the
  return to that call, and every call made in between has returned to its own place before it.
-/

namespace ChipEight.Machine

variable {m m' : Machine}

/-! ## What a call leaves and a return finds -/

/-- The step of a machine executes a call and leads to another machine. -/
def Calls (m m' : Machine) : Prop :=
  (∃ target, m.Performs (.call target)) ∧ m.step = .ok () m'

/-- A call that completes found a slot that was not in use. -/
theorem Calls.depth_lt (h : m.WellFormed) (hcall : m.Calls m') : m.processor.sp < 16 := by
  obtain ⟨⟨target, hi⟩, hstep⟩ := hcall
  have hclear := clear_of_step h hi hstep
  refine Decidable.byContradiction fun hfull => ?_
  have hobstacle : m.obstacle? (.call target) = some _ := if_pos (Int.not_lt.mp hfull)
  rw [hobstacle] at hclear
  cases hclear

/-- A call that completes leaves the machine that its instruction leads to. -/
theorem Calls.eq_afterInstruction (h : m.WellFormed) (hcall : m.Calls m') :
    ∃ target, m.Performs (.call target) ∧ m' = m.afterInstruction (.call target) := by
  obtain ⟨⟨target, hi⟩, hstep⟩ := hcall
  obtain ⟨-, rfl⟩ := completed_of_step h hstep
  exact ⟨target, hi, completed_of_performs hi⟩

/-- The slot of a call holds the address after it. The word of a call was fetched below the end of
memory, so the address is not cut. -/
theorem get_stackAfter_call_self (target : Fin 4096) {slot : Fin 16}
    (hslot : m.processor.sp = slot.val) (hpc : Fetchable m.processor.pc) :
    (((m.stackAfter (.call target)).get slot).toNat : Int) = m.processor.pc + 2 := by
  have hset : (m.stackAfter (.call target)).get slot = lowWord (m.processor.pc + 2) := by
    show (m.processor.stack.setIfInBounds m.processor.sp.toNat _)[slot.val] = _
    rw [Vector.getElem_setIfInBounds, if_pos (by omega)]
  obtain ⟨hlow, hhigh, -⟩ := hpc
  simp only [start, lastFetch, Memory.programStart, Memory.standardSize] at hlow hhigh
  rw [hset, toNat_lowWord]
  omega

theorem flowAfter_ret {slot : Fin 16} (hslot : m.processor.sp = slot.val + 1) :
    m.flowAfter .ret = .jump (m.processor.stack.get slot).toNat := by
  have hplace : (m.processor.sp - 1).toNat = slot.val := by omega
  show Flow.jump (m.processor.stack[(m.processor.sp - 1).toNat]?.getD 0).toNat = _
  rw [hplace, Vector.getElem?_eq_getElem slot.isLt, Option.getD_some]
  rfl

theorem fetchable_of_performs {i : Instruction} (hi : m.Performs i) : Fetchable m.processor.pc := by
  obtain ⟨-, op, hop, -⟩ := hi
  exact (fetch_eq_ok_iff.mp hop).1

/-! ## Above a depth -/

/-- A machine has come from `origin` without leaving a depth: its stack is deeper, and the slots up
to that depth are those of `origin`. -/
structure Above (depth : Int) (origin m : Machine) : Prop where
  wellFormed : m.WellFormed
  deeper : depth < m.processor.sp
  slots : ∀ k : Fin 16, (k.val : Int) ≤ depth →
    m.processor.stack.get k = origin.processor.stack.get k

/-- The next step of a machine returns to a depth from right above it. -/
structure Leaves (depth : Int) (m : Machine) : Prop where
  ret : m.Performs .ret
  depth : m.processor.sp = depth + 1
  step : m.step = .ok () (m.afterInstruction .ret)

theorem Leaves.sp_after {depth : Int} (h : m.Leaves depth) :
    (Machine.step.after m).processor.sp = depth := by
  have hsp : (m.afterInstruction .ret).processor.sp = m.processor.sp - 1 := rfl
  have hdepth := h.depth
  rw [Action.after_of_ok h.step, hsp]
  omega

namespace Above

variable {depth : Int} {origin : Machine}

/-- **One step stays above a depth or leaves it by a return.** The slot that a call fills is above
the depth, and a return takes one slot off. -/
theorem step (h : Above depth origin m) :
    Above depth origin (Machine.step.after m) ∨ m.Leaves depth := by
  have hdeeper := h.deeper
  have hwell := WellFormed.keeps_step _ h.wellFormed
  obtain hsame | ⟨hf, hafter⟩ := after_step h.wellFormed
  · rw [hsame]
    exact Or.inl h
  rw [hafter] at hwell ⊢
  -- a completed step leaves the stack alone, or it is a call or a return
  by_cases hkept : (m.completed.processor.sp, m.completed.processor.stack) =
      (m.processor.sp, m.processor.stack)
  · obtain ⟨hsp, hstack⟩ := Prod.mk.inj hkept
    exact Or.inl ⟨hwell, by omega, by rw [hstack]; exact h.slots⟩
  obtain ⟨-, hsp, hslots⟩ | ⟨hret, hsp, hstack⟩ := performs_of_stack_ne h.wellFormed hkept
  · -- a call fills the slot at the old depth, which is above the one in question
    have hbelow : ∀ k : Fin 16, (k.val : Int) ≤ depth →
        m.completed.processor.stack.get k = origin.processor.stack.get k := by
      intro k hk
      rw [hslots k (by omega), h.slots k hk]
    exact Or.inl ⟨hwell, by omega, hbelow⟩
  · -- a return leaves the depth if it is right above it, and else stays above
    by_cases hlast : m.processor.sp = depth + 1
    · have hstep := step_of_clear h.wellFormed hf
      rw [completed_of_performs hret] at hstep
      exact Or.inr ⟨hret, hlast, hstep⟩
    · exact Or.inl ⟨hwell, by omega, by rw [hstack]; exact h.slots⟩

/-- Nothing but a step has to do with the stack, so the slots up to the depth stay. -/
theorem kept (depth : Int) (origin : Machine) :
    Kept (.memory :: Event.Kind.peripheral) (Above depth origin) where
  load hkind := absurd hkind (by decide)
  reset hkind := absurd hkind (by decide)
  step hkind := absurd hkind (by decide)
  tick _ m h := ⟨kept_wellFormed.tick (by decide) m h.wellFormed, h.deeper, h.slots⟩
  seed _ m random h := ⟨kept_wellFormed.seed (by decide) m random h.wellFormed, h.deeper, h.slots⟩
  execute hkind := absurd hkind (by decide)
  processor hkind := absurd hkind (by decide)
  memory _ m c h := ⟨kept_wellFormed.memory (by decide) m c h.wellFormed, h.deeper, h.slots⟩
  screen _ m c h := ⟨kept_wellFormed.screen (by decide) m c h.wellFormed, h.deeper, h.slots⟩
  keypad _ m c h := ⟨kept_wellFormed.keypad (by decide) m c h.wellFormed, h.deeper, h.slots⟩

/-- An event stays above a depth or is the step that leaves it. -/
theorem event (h : Above depth origin m) {e : Event} (hkind : e.kind ∈ Event.Kind.running)
    (hsingle : e.Single) :
    Above depth origin (e.after m) ∨ e = .oneStep ∧ m.Leaves depth := by
  by_cases hstep : e.kind = .step
  · obtain rfl := hsingle hstep
    rw [after_oneStep]
    exact h.step.imp_right fun hleaves => ⟨rfl, hleaves⟩
  · have hother : e.kind ∈ .memory :: Event.Kind.peripheral :=
      (List.mem_cons.mp hkind).resolve_left hstep
    exact Or.inl ((kept depth origin).event h e hother)

/-- **A course stays above a depth** as long as the stack stays deeper. Induction on the course: an
event that left the depth would have brought the stack back to it. -/
theorem afterAll (h : Above depth origin m) {events : List Event}
    (hkinds : ∀ e ∈ events, e.kind ∈ Event.Kind.running) (hsingle : ∀ e ∈ events, e.Single)
    (hdeeper : m.Throughout (fun m => depth < m.processor.sp) events) :
    Above depth origin (m.afterAll events) := by
  induction events generalizing m with
  | nil => exact h
  | cons e events ih =>
    have hnext := (throughout_cons.mp hdeeper).2
    -- had this event left the depth, the stack would not be deeper after it
    have habove : Above depth origin (e.after m) := by
      obtain habove | ⟨rfl, hleaves⟩ :=
        h.event (hkinds e List.mem_cons_self) (hsingle e List.mem_cons_self)
      · exact habove
      · have hdepth := hnext.head
        rw [after_oneStep, hleaves.sp_after] at hdepth
        omega
    exact ih habove (fun e' he' => hkinds e' (List.mem_cons_of_mem e he'))
      (fun e' he' => hsingle e' (List.mem_cons_of_mem e he')) hnext

end Above

/-! ## Returns to a caller -/

/-- The step of a machine returns from the call that `caller` made, and leads to `m'`: it executes a
return, the program goes on right after the call, and the stack is as deep as at the call, with the
slots below it as they were. -/
structure Returns (caller m m' : Machine) : Prop where
  ret : m.Performs .ret
  step : m.step = .ok () m'
  counter : m'.processor.pc = caller.processor.pc + 2
  depth : m'.processor.sp = caller.processor.sp
  slots : ∀ k : Fin 16, (k.val : Int) < caller.processor.sp →
    m'.processor.stack.get k = caller.processor.stack.get k

/-- The stack is deeper than that of `caller`. -/
def DeeperThan (caller m : Machine) : Prop :=
  caller.processor.sp < m.processor.sp

section Calls

variable {caller called : Machine} (h : caller.WellFormed) (hcall : caller.Calls called)
include h hcall

/-- Right after a call its return address is on the stack, and nothing below has changed. -/
theorem Calls.above : Above caller.processor.sp called called := by
  obtain ⟨hf, rfl⟩ := completed_of_step h hcall.2
  obtain ⟨target, hi, hafter⟩ := hcall.eq_afterInstruction h
  refine ⟨h.completed hf, ?_, fun k _ => rfl⟩
  rw [hafter]
  show caller.processor.sp < caller.processor.sp + 1
  omega

/-- A return from right above a call, with the slots up to the call as the call has left them,
returns from the call. -/
theorem Calls.returns (habove : Above caller.processor.sp called m)
    (hleaves : m.Leaves caller.processor.sp) : Returns caller m (Machine.step.after m) := by
  obtain ⟨target, hi, rfl⟩ := hcall.eq_afterInstruction h
  have hdepth := h.processor.depth
  have hfree := hcall.depth_lt h
  obtain ⟨slot, hslot⟩ := exists_fin_eq hdepth.1 hfree
  have hafter := Action.after_of_ok hleaves.step
  -- the slot that is popped is the one that the call has filled
  have hpopped : m.processor.stack.get slot = (caller.stackAfter (.call target)).get slot :=
    habove.slots slot (by omega)
  have haddress := get_stackAfter_call_self target hslot (fetchable_of_performs hi)
  have hflow : m.flowAfter .ret = .jump (m.processor.stack.get slot).toNat :=
    flowAfter_ret (by rw [hleaves.depth, hslot])
  refine ⟨hleaves.ret, ?_, ?_, hleaves.sp_after, ?_⟩
  · rw [hafter]
    exact hleaves.step
  · rw [hafter]
    show (m.flowAfter .ret).target m.processor.pc = _
    rw [hflow, hpopped]
    exact haddress
  · intro k hk
    rw [hafter]
    show m.processor.stack.get k = _
    rw [habove.slots k (by omega)]
    exact get_stackAfter_call h target (by omega)

/-- A call returns once the stack is not deeper any more. Up to the first event that brings it back,
the stack is deeper; this event is a step, and one step takes one slot off at most. -/
theorem Calls.exists_return {events : List Event}
    (hkinds : ∀ e ∈ events, e.kind ∈ Event.Kind.running) (hsingle : ∀ e ∈ events, e.Single)
    (hend : ¬ DeeperThan caller (called.afterAll events)) :
    ∃ body rest, events = body ++ .oneStep :: rest ∧
      called.Throughout (DeeperThan caller) body ∧
      Returns caller (called.afterAll body) (Machine.step.after (called.afterAll body)) := by
  obtain ⟨body, e, rest, rfl, hdeeper, hends⟩ := exists_first (hcall.above h).deeper hend
  have hbody : ∀ e' ∈ body, e' ∈ body ++ e :: rest := fun e' he' => List.mem_append_left _ he'
  have he : e ∈ body ++ e :: rest := List.mem_append_right _ List.mem_cons_self
  have habove := (hcall.above h).afterAll (fun e' he' => hkinds e' (hbody e' he'))
    (fun e' he' => hsingle e' (hbody e' he')) hdeeper
  obtain hstill | ⟨rfl, hleaves⟩ := habove.event (hkinds e he) (hsingle e he)
  · exact absurd hstill.deeper hends
  · exact ⟨body, rest, rfl, hdeeper, hcall.returns h habove hleaves⟩

end Calls

/-- **Calls return in order.** A machine executes a call; then it takes steps, and the host does
anything but load, reset, execute words itself or assign to the processor. If the stack stays deeper
than at the call, until a step brings it back for the first time, then that step is a return, the
program goes on right after the call, and the slots below are as they were at the call. And every
call executed in between has by then returned to its own place in the same way. -/
theorem calls_return {caller called : Machine} (h : caller.WellFormed) (hcall : caller.Calls called)
    {events : List Event} (hkinds : ∀ e ∈ events, e.kind ∈ Event.Kind.running)
    (hsingle : ∀ e ∈ events, e.Single) (hdeeper : called.Throughout (DeeperThan caller) events)
    (hback : (step.after (called.afterAll events)).processor.sp = caller.processor.sp) :
    Returns caller (called.afterAll events) (step.after (called.afterAll events)) ∧
      ∀ before after inner, events = before ++ .oneStep :: after →
        (called.afterAll before).Calls inner →
        ∃ body rest, after = body ++ .oneStep :: rest ∧
          inner.Throughout (DeeperThan (called.afterAll before)) body ∧
          Returns (called.afterAll before) (inner.afterAll body)
            (step.after (inner.afterAll body)) := by
  have habove := (hcall.above h).afterAll hkinds hsingle hdeeper
  -- the stack is back at the depth of the call, so the step has not stayed above it
  have hleaves : (called.afterAll events).Leaves caller.processor.sp := by
    obtain hstill | hleaves := habove.step
    · have hdeep := hstill.deeper
      omega
    · exact hleaves
  refine ⟨hcall.returns h habove hleaves, ?_⟩
  rintro before after inner rfl hinner
  have hbefore : ∀ e ∈ before, e ∈ before ++ .oneStep :: after := fun e he =>
    List.mem_append_left _ he
  have hafter : ∀ e ∈ after, e ∈ before ++ .oneStep :: after := fun e he =>
    List.mem_append_right _ (List.mem_cons_of_mem _ he)
  have hmiddle := (hcall.above h).afterAll (fun e he => hkinds e (hbefore e he))
    (fun e he => hsingle e (hbefore e he)) hdeeper.first
  refine hinner.exists_return hmiddle.wellFormed (fun e he => hkinds e (hafter e he))
    (fun e he => hsingle e (hafter e he)) ?_
  -- before its return the outer call has one slot above it, and the inner call was above it as well
  have hsame : inner.afterAll after = called.afterAll (before ++ .oneStep :: after) := by
    rw [afterAll_append, afterAll_cons, after_oneStep, Action.after_of_ok hinner.2]
  have houter := hleaves.depth
  have hdeep := hmiddle.deeper
  rw [hsame, DeeperThan]
  omega

/-! ## A program with a call inside a call -/

/-- A machine whose program calls a routine at 0x204, which calls one at 0x208. -/
def nestedCalls : Machine :=
  powerOnWith (Random.ofSeed 0) [0x22, 0x04, 0x00, 0x00, 0x22, 0x08, 0x00, 0xEE, 0x00, 0xEE]

def inOuter : Machine :=
  (nestedCalls.afterInstruction (.call 0x204)).tick

def inInner : Machine :=
  inOuter.afterInstruction (.call 0x208)

def backInOuter : Machine :=
  inInner.afterInstruction .ret

theorem performs_nestedCalls : nestedCalls.Performs (.call 0x204) :=
  performs_of_program (k := 0) Memory.wellFormed_create rfl rfl rfl rfl (by decide) rfl rfl rfl

theorem performs_inOuter : inOuter.Performs (.call 0x208) :=
  performs_of_program (k := 4) Memory.wellFormed_create rfl rfl rfl rfl (by decide) rfl rfl rfl

theorem performs_inInner : inInner.Performs .ret :=
  performs_of_program (k := 8) Memory.wellFormed_create rfl rfl rfl rfl (by decide) rfl rfl rfl

theorem performs_backInOuter : backInOuter.Performs .ret :=
  performs_of_program (k := 6) Memory.wellFormed_create rfl rfl rfl rfl (by decide) rfl rfl rfl

/-- What the host and the program do between the outer call and its return. -/
def duringOuter : List Event :=
  [.command (.tick 1), .oneStep, .oneStep]

/-- The inner call returns behind 0x204, and then the outer one behind 0x200. -/
theorem calls_return_nestedCalls :
    nestedCalls.WellFormed ∧
      nestedCalls.Calls (nestedCalls.afterInstruction (.call 0x204)) ∧
      Returns nestedCalls backInOuter (step.after backInOuter) ∧
      Returns inOuter inInner (step.after inInner) := by
  have hwell : nestedCalls.WellFormed := wellFormed_powerOnWith _ (by decide)
  have hcall : nestedCalls.Calls (nestedCalls.afterInstruction (.call 0x204)) :=
    ⟨⟨_, performs_nestedCalls⟩, step_of_performs hwell performs_nestedCalls rfl⟩
  have hcalled := hwell.afterInstruction performs_nestedCalls rfl
  have houter : inOuter.WellFormed := kept_wellFormed.tick (by decide) _ hcalled
  have hcall' : inOuter.Calls inInner :=
    ⟨⟨_, performs_inOuter⟩, step_of_performs houter performs_inOuter rfl⟩
  have hinner : inInner.WellFormed := houter.afterInstruction performs_inOuter rfl
  have hback : backInOuter.WellFormed := hinner.afterInstruction performs_inInner rfl
  have hfirst : Event.oneStep.after inOuter = inInner := by
    rw [after_oneStep, Action.after_of_ok hcall'.2]
  have hsecond : Event.oneStep.after inInner = backInOuter := by
    rw [after_oneStep]
    exact Action.after_of_ok (step_of_performs hinner performs_inInner rfl)
  have htick : (Event.command (.tick 1)).after (nestedCalls.afterInstruction (.call 0x204)) =
      inOuter := rfl
  -- the depths along the course are 1, 1, 2 and 1
  have hdeeper : (nestedCalls.afterInstruction (.call 0x204)).Throughout (DeeperThan nestedCalls)
      duringOuter := by
    rw [duringOuter, throughout_cons, htick, throughout_cons, hfirst, throughout_cons, hsecond,
      throughout_nil]
    refine ⟨?_, ?_, ?_, ?_⟩
    · show (0 : Int) < 1
      decide
    · show (0 : Int) < 1
      decide
    · show (0 : Int) < 2
      decide
    · show (0 : Int) < 1
      decide
  have hcourse : (nestedCalls.afterInstruction (.call 0x204)).afterAll duringOuter =
      backInOuter := by
    rw [duringOuter, afterAll_cons, htick, afterAll_cons, hfirst, afterAll_cons, hsecond]
    rfl
  have hreturned : (step.after backInOuter).processor.sp = nestedCalls.processor.sp := by
    rw [Action.after_of_ok (step_of_performs hback performs_backInOuter rfl)]
    rfl
  have hkinds : ∀ e ∈ duringOuter, e.kind ∈ Event.Kind.running := by decide
  have hsingle : ∀ e ∈ duringOuter, e.Single := by
    intro e he hstep
    obtain rfl | he := List.mem_cons.mp he
    · cases hstep
    · exact List.eq_of_mem_replicate (n := 2) he
  obtain ⟨houterReturns, hinnerReturns⟩ :=
    calls_return hwell hcall hkinds hsingle hdeeper (by rw [hcourse, hreturned])
  rw [hcourse] at houterReturns
  obtain ⟨body, rest, hsplit, -, hreturns⟩ :=
    hinnerReturns [.command (.tick 1)] [.oneStep] inInner rfl hcall'
  -- the inner call returns at once, as it is the only step left
  cases body with
  | nil => exact ⟨hwell, hcall, houterReturns, hreturns⟩
  | cons e body => simp at hsplit

end ChipEight.Machine
