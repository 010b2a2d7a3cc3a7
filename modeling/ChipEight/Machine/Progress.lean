import ChipEight.Machine.Cycle

/-!
# Several steps

A machine under way: how many steps it has completed, what its host has been told, and the error
that stopped it, if one did.
-/

namespace ChipEight

/-- A machine on its way through a number of steps. -/
structure Progress where
  machine : Machine
  /-- The number of steps completed. -/
  ran : Nat
  /-- The notices, the first of them first. -/
  notices : Array Notice
  /-- What stopped the machine. -/
  error : Option Error

namespace Progress

/-- A machine that is about to begin. -/
def start (machine : Machine) : Progress where
  machine := machine
  ran := 0
  notices := #[]
  error := none

/-- One more step, whatever happened before. -/
def step (p : Progress) : Progress :=
  let ⟨machine, ran, notices, _⟩ := p
  let told := match machine.notice? with
    | some notice => notices.push notice
    | none => notices
  match machine.step with
  | .ok () machine' => ⟨machine', ran + 1, told, none⟩
  | .error e machine' => ⟨machine', ran, told, some e⟩

/-- At most `n` more steps; an error stops them. -/
def advance : Nat → Progress → Progress
  | 0, p => p
  | n + 1, p =>
    match p.error with
    | some _ => p
    | none => advance n p.step

/-- Lowers the timers. -/
def tick (p : Progress) : Progress :=
  { p with machine := p.machine.tick }

end Progress

end ChipEight
