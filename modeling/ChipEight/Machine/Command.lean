import ChipEight.File.Image
import ChipEight.Keypad.Command
import ChipEight.Machine.Progress
import ChipEight.Memory.Command
import ChipEight.Processor.Command
import ChipEight.Screen.Command

/-!
# Machine commands

What a host may ask of a machine, as data. Carrying out a command gives a `Response`: the machine
afterwards, the reply or the error, and what the host was told on the way.
-/

namespace ChipEight.Machine

/-- A host's request to a machine. -/
inductive Command where
  | loadProgram (image : List UInt8)
  | loadNumbers (values : List Int)
  | loadFile (name : Text) (image : File.Image)
  | step (count : Int)
  | tick (count : Int)
  | reset
  /-- Seeds the source of random bytes; without a seed its new state is up to `chance`. -/
  | seed (chance : Random.Twister) (seed : Option Int)
  | execute (word : Int)
  | processor (command : Processor.Command)
  | memory (command : Memory.Command)
  | screen (command : Screen.Command)
  | keypad (command : Keypad.Command)

/-- What a command leads to. -/
structure Response where
  machine : Machine
  reply : Except Error Reply
  notices : Array Notice

/-- A response without notices. -/
def Response.ofAction (action : Action Machine Reply) (m : Machine) : Response :=
  match action m with
  | .ok reply m' => ⟨m', .ok reply, #[]⟩
  | .error e m' => ⟨m', .error e, #[]⟩

/-- Loads a program image and tells the host. -/
def Response.loading (image : List UInt8) (m : Machine) : Response :=
  match m.loadProgram image with
  | .ok m' => ⟨m', .ok .nothing, #[.loaded image.length Memory.programStart]⟩
  | .error fault => ⟨m, .error (.fault fault), #[]⟩

/-- Runs a number of steps, none if it is negative. -/
def Response.stepping (count : Int) (m : Machine) : Response :=
  let progress := (Progress.start m).advance count.toNat
  ⟨progress.machine, .ok (.progress progress.ran progress.error), progress.notices⟩

/-- The reply to a direct execution: the address to go on at, if the instruction gives one. -/
def replyOfFlow : Flow → Reply
  | .advance => .nothing
  | .jump target => .number target

/-- Executes a word directly; the program counter stays. -/
def executing (word : Int) : Action Machine Reply := fun m =>
  match executeWord ⟨word⟩ m with
  | .ok flow m' => .ok (replyOfFlow flow) m'
  | .error e m' => .error e m'

/-- Lowers the timers a number of times, none if it is negative. -/
def ticks (count : Int) (m : Machine) : Machine :=
  Nat.repeat tick count.toNat m

def Command.run (m : Machine) : Command → Response
  | loadProgram image => Response.loading image m
  | loadNumbers values =>
    match imageOfNumbers values with
    | .ok image => Response.loading image m
    | .error misuse => ⟨m, .error (.misuse misuse), #[]⟩
  | loadFile name image =>
    match image.read name with
    | .ok content => Response.loading content m
    | .error e => ⟨m, .error e, #[]⟩
  | step count => Response.stepping count m
  | tick count => ⟨m.ticks count, .ok .nothing, #[]⟩
  | reset => ⟨m.reset, .ok .nothing, #[]⟩
  | seed chance value => ⟨m.reseed chance value, .ok .nothing, #[]⟩
  | execute word => Response.ofAction (executing word) m
  | processor command => Response.ofAction
    (Action.within Machine.processor (fun processor m => { m with processor }) command.run) m
  | memory command => Response.ofAction
    (Action.within Machine.memory (fun memory m => { m with memory }) command.run) m
  | screen command => Response.ofAction
    (Action.within Machine.screen (fun screen m => { m with screen }) command.run) m
  | keypad command => Response.ofAction
    (Action.within Machine.keypad (fun keypad m => { m with keypad }) command.run) m

end ChipEight.Machine
