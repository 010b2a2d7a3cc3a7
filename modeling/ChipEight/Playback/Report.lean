import ChipEight.Machine.Basic

/-!
# Reports

What is reported about a program that was played: how far it got, the state of the machine at the
end, the screen and the fault that ended it, if one did.
-/

namespace ChipEight.Playback

/-- The state of a machine as far as a report shows it. -/
structure Summary where
  v : List UInt8
  i : Int
  pc : Int
  sp : Int
  /-- The stack slots in use. -/
  stack : List UInt16
  delay : Int
  sound : Int
  awaitingKey : Bool
  cycles : Nat
  dirty : Bool
  deriving DecidableEq, Repr

/-- The summary of a machine. -/
def Summary.ofMachine (m : Machine) : Summary where
  v := m.processor.v.toList
  i := m.processor.i
  pc := m.processor.pc
  sp := m.processor.sp
  stack := m.processor.calls
  delay := m.processor.delay
  sound := m.processor.sound
  awaitingKey := m.processor.awaitingKey
  cycles := m.cycles
  dirty := m.screen.dirty

/-- What is reported about a program that was played. -/
structure Report where
  /-- The steps completed. -/
  steps : Nat
  /-- The frames completed. -/
  frames : Nat
  final : Summary
  /-- The rows of the screen, or none if they were not asked for. -/
  display : List String
  soundActive : Bool
  /-- The fault that ended the playback. -/
  fault : Option Fault
  deriving DecidableEq, Repr

namespace Report

/-- How a playback ended: `ok`, or `error` after a fault. -/
def status (report : Report) : String :=
  if report.fault.isSome then "error" else "ok"

/-- The account of the fault that ended the playback. -/
def error? (report : Report) : Option Fault.Report :=
  report.fault.map Fault.report

end Report

end ChipEight.Playback
