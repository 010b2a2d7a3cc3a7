import ChipEight.Machine.Progress
import ChipEight.Playback.Options
import ChipEight.Playback.Report

/-!
# Playing a program

A program is loaded into a new machine, the keys asked for are pressed, and frame after frame is
played: a number of steps, then one tick of the timers. A frame gets as many steps as a frame has,
or as are left of all steps if these are fewer; the frame that uses up the last of them still ticks.
A fault ends the playback in the middle of its frame.
-/

namespace ChipEight.Playback

/-- A playback under way. -/
structure Session where
  progress : Progress
  /-- The frames completed. -/
  frames : Nat

namespace Session

/-- The machine that is played on. -/
def machine (s : Session) : Machine :=
  s.progress.machine

/-- How many steps the next frame gets, where `cycles` steps have been run. -/
def budget (options : Options) (cycles : Nat) : Nat :=
  (min options.stepsPerFrame (options.maxSteps - cycles)).toNat

/-- One frame: its steps and, unless an error stopped them, the tick. -/
def frame (options : Options) (s : Session) : Session :=
  let progress := s.progress.advance (budget options s.machine.cycles)
  match progress.error with
  | some _ => { s with progress }
  | none => { progress := progress.tick, frames := s.frames + 1 }

/-- At most `n` more frames, while steps are left and no error has come up. -/
def play (options : Options) : Nat → Session → Session
  | 0, s => s
  | n + 1, s =>
    if s.machine.cycles < options.maxSteps then
      let s' := s.frame options
      match s'.progress.error with
      | some _ => s'
      | none => play options n s'
    else
      s

end Session

/-- Presses keys, one after the other. -/
def pressAll (pad : Keypad) : List Int → Except Misuse Keypad
  | [] => .ok pad
  | key :: keys => do
    let pad' ← pad.press key
    pressAll pad' keys

/-- What a playback leads to: a report, or a misuse by the options, and what the host was told. -/
structure Outcome where
  report : Except Misuse Report
  notices : Array Notice

/-- The report about a machine after a playback. -/
def reportOf (options : Options) (s : Session) (fault : Option Fault) : Report where
  steps := s.machine.cycles
  frames := s.frames
  final := Summary.ofMachine s.machine
  display :=
    if options.includeDisplay then s.machine.screen.picture else []
  soundActive := s.machine.soundActive
  fault := fault

/-- The report about a program image that was refused. -/
def reportOfRefusal (m : Machine) (fault : Fault) : Report where
  steps := 0
  frames := 0
  final := Summary.ofMachine m
  display := []
  soundActive := false
  fault := some fault

/-- The outcome of a session that has come to its end. -/
def Session.outcome (options : Options) (s : Session) : Outcome :=
  match s.progress.error with
  | none => ⟨.ok (reportOf options s none), s.progress.notices⟩
  | some (.fault fault) =>
    ⟨.ok (reportOf options s (some fault)),
      s.progress.notices.push (.stopped fault.address fault.message)⟩
  | some (.misuse misuse) => ⟨.error misuse, s.progress.notices⟩

/-- Plays a loaded machine, with the keys asked for pressed. -/
def playLoaded (options : Options) (m : Machine) (told : Array Notice) : Outcome :=
  match pressAll m.keypad options.keys with
  | .error misuse => ⟨.error misuse, told⟩
  | .ok keypad =>
    let progress := { Progress.start { m with keypad } with notices := told }
    (Session.play options options.frames.toNat ⟨progress, 0⟩).outcome options

/-- Plays a program image. Without a seed the source of random bytes begins as `chance` has it. -/
def run (chance : Random.Twister) (image : List UInt8) (options : Options) : Outcome :=
  let fresh := Machine.create chance options.seed
  match fresh.loadProgram image with
  | .error fault => ⟨.ok (reportOfRefusal fresh fault), #[.rejected fault.message]⟩
  | .ok m => playLoaded options m #[.loaded image.length Memory.programStart]

end ChipEight.Playback
