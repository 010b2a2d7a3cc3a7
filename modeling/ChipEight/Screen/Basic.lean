import ChipEight.Capacity
import ChipEight.Fault
import ChipEight.Position
import ChipEight.Screen.Sprite

/-!
# The screen

One-bit pixels in rows, and a flag that says whether a host has something new to show. A sprite is
drawn by inverting the pixels under its lit cells; it wraps around at the edges, onto itself where
the screen is smaller than it is.

A screen's sizes are integers of one sign. Both may be negative: then it has as many pixels as
their product says but no rows to show, and pixels are found by signed positions.
-/

namespace ChipEight

/-- A screen: its sizes, its pixels row after row, and whether they are to be shown anew. -/
structure Screen where
  width : Int
  height : Int
  pixels : Array Bool
  dirty : Bool
  deriving DecidableEq

namespace Screen

/-- The number of columns of a machine's screen. -/
def standardWidth : Int := 64

/-- The number of rows of a machine's screen. -/
def standardHeight : Int := 32

/-- Unlit pixels for a screen of the given sizes. -/
def blank (width height : Int) : Array Bool :=
  Array.replicate (width * height).toNat false

/-- An unlit screen with nothing new to show. -/
def create (width height : Int) : Screen where
  width := width
  height := height
  pixels := blank width height
  dirty := false

/-- A screen of sizes that a host names. -/
def create? (width height : Int) : Except Misuse Screen :=
  (Capacity.checkSize (width * height)).map fun _ => create width height

def clear (s : Screen) : Screen :=
  { s with pixels := blank s.width s.height, dirty := true }

/-- Back to the state at power-on. -/
def reset (s : Screen) : Screen :=
  create s.width s.height

def clearDirty (s : Screen) : Screen :=
  { s with dirty := false }

def position (s : Screen) (x y : Int) : Int :=
  y * s.width + x

/-- Whether the pixel in a column and a row is lit. The position alone decides which pixel that
is; it may be counted from the end. -/
def pixel (s : Screen) (x y : Int) : Except Misuse Bool :=
  match Position.resolve? s.pixels.size (s.position x y) with
  | some k => .ok s.pixels[k]
  | none => .error (Capacity.missingPosition (s.position x y) .noPixel)

/-- Inverts the pixel at a position, and keeps account of whether any lit pixel was inverted. -/
def invert (state : Array Bool × Bool) (position : Int) : Array Bool × Bool :=
  let (pixels, collided) := state
  match Position.resolve? pixels.size position with
  | some k =>
    let old := pixels[k]
    (pixels.set k !old, collided || old)
  | none => (pixels, collided)

/-- The position under a sprite's cell, for a sprite whose corner is in column `x` and row `y`. -/
def target (s : Screen) (x y : Int) (cell : Nat × Nat) : Int :=
  s.position ((x + cell.2).fmod s.width) ((y + cell.1).fmod s.height)

/-- The positions that a sprite inverts, in the order of its cells. -/
def targets (s : Screen) (x y : Int) (sprite : Sprite) : List Int :=
  sprite.cells.map (s.target x y)

/-- Draws a sprite and says whether a lit pixel was turned off on the way. -/
def draw (s : Screen) (x y : Int) (sprite : Sprite) : Except Misuse (Bool × Screen) :=
  if s.width = 0 ∨ s.height = 0 then
    .error .emptyScreen
  else
    let places := s.targets x y sprite
    let (pixels, collided) := places.foldl invert (s.pixels, false)
    .ok (collided, { s with pixels, dirty := true })

/-- The screen row by row, with the given symbols for each lit and each unlit pixel. -/
def rows {α : Type} (s : Screen) (on off : List α) : List (List α) :=
  (List.range s.height.toNat).map fun y =>
    (List.range s.width.toNat).flatMap fun x =>
      if s.pixels.getD (y * s.width.toNat + x) false then on else off

/-- The character of a lit pixel, where nothing else is asked for. -/
def defaultOn : Char := '#'

/-- The character of an unlit pixel, where nothing else is asked for. -/
def defaultOff : Char := '.'

/-- The screen as strings, one for each row. -/
def picture (s : Screen) : List String :=
  (s.rows [defaultOn] [defaultOff]).map String.ofList

@[simp]
theorem size_invert (state : Array Bool × Bool) (position : Int) :
    (invert state position).1.size = state.1.size := by
  simp only [invert]
  split <;> simp

end Screen

end ChipEight
