import ChipEight.Processor.Basic
import ChipEight.Reply

/-!
# Processor commands

What a host may ask of a processor, as data, and what the processor does about it. The `assign`
commands put an integer in place as it is.
-/

namespace ChipEight.Processor

/-- A host's request to a processor. -/
inductive Command where
  | setRegister (position value : Int)
  | setFlag (value : Int)
  | setIndex (value : Int)
  | push (address : Int)
  | pop
  | tick
  | reset (start : Int)
  | assignPc (value : Int)
  | assignSp (value : Int)
  | assignIndex (value : Int)
  | assignDelay (value : Int)
  | assignSound (value : Int)
  | assignWaiting (value : Option Int)

/-- Carries out a request. -/
def Command.run : Command → Action Processor Reply
  | setRegister position value =>
    Action.checked fun p => Error.ofMisuse (p.setRegisterAt position value)
  | setFlag value => Action.always fun p => p.setFlag (lowByte value)
  | setIndex value => Action.always fun p => p.setIndex value
  | push address => Action.checked fun p => p.push address
  | pop => do
    let address ← Processor.pop
    return .number address.toNat
  | tick => Action.always Processor.tick
  | reset start => Action.always fun _ => Processor.create start
  | assignPc value => Action.always fun p => { p with pc := value }
  | assignSp value => Action.always fun p => { p with sp := value }
  | assignIndex value => Action.always fun p => { p with i := value }
  | assignDelay value => Action.always fun p => { p with delay := value }
  | assignSound value => Action.always fun p => { p with sound := value }
  | assignWaiting value => Action.always fun p => { p with waiting := value }

end ChipEight.Processor
