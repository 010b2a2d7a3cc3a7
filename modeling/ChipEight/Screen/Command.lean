import ChipEight.Reply
import ChipEight.Screen.Basic

/-!
# Screen commands

What a host may ask of a screen, as data, and what the screen does about it.
-/

namespace ChipEight.Screen

/-- A host's request to a screen. -/
inductive Command where
  | clear
  | reset
  | clearDirty
  | draw (x y : Int) (sprite : Sprite)
  | pixel (x y : Int)
  | rows (on off : Text)
  | snapshot

/-- Draws a sprite, with the collision as the reply. -/
def drawing (x y : Int) (sprite : Sprite) : Action Screen Reply := fun s =>
  match s.draw x y sprite with
  | .ok (collided, s') => .ok (.truth collided) s'
  | .error m => .error (.misuse m) s

def Command.run : Command → Action Screen Reply
  | clear => Action.always Screen.clear
  | reset => Action.always Screen.reset
  | clearDirty => Action.always Screen.clearDirty
  | draw x y sprite => drawing x y sprite
  | pixel x y => Action.reading fun s =>
    Error.ofMisuse ((s.pixel x y).map fun b => .number b.toNat)
  | rows on off => Action.answer fun s => .texts (s.rows on off)
  | snapshot => Action.answer fun s =>
    .bytes (s.pixels.toList.map fun b => if b then 1 else 0)

end ChipEight.Screen
