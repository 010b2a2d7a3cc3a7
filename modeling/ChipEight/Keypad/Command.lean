import ChipEight.Json.Basic
import ChipEight.Keypad.Basic
import ChipEight.Reply

/-!
# Keypad commands

What a host may ask of a keypad, as data, and what the keypad does about it. A host may give any
JSON value as the state of a key: it is down if the value counts as true.
-/

namespace ChipEight.Keypad

/-- A host's request to a keypad. -/
inductive Command where
  | press (key : Int)
  | release (key : Int)
  | set (key : Int) (state : Json)
  | update (states : List Json)
  | isPressed (key : Int)
  | firstPressed
  | reset
  | snapshot

def Command.run : Command → Action Keypad Reply
  | press key => Action.checked fun pad => Error.ofMisuse (pad.press key)
  | release key => Action.checked fun pad => Error.ofMisuse (pad.release key)
  | set key state => Action.checked fun pad => Error.ofMisuse (pad.set key state.isTrue)
  | update states => Action.checked fun pad => Error.ofMisuse (pad.update (states.map Json.isTrue))
  | isPressed key => Action.answer fun pad => .truth (pad.isPressed key)
  | firstPressed => Action.answer fun pad =>
    match pad.firstPressed with
    | some key => .number key.val
    | none => .nothing
  | reset => Action.always fun _ => Keypad.create
  | snapshot => Action.answer fun pad => .truths pad.down.toList

end ChipEight.Keypad
