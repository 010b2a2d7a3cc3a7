/-!
# Options of a playback

How long a program is played and what is reported about it.
-/

namespace ChipEight.Playback

/-- How a program is played. Limits of zero or less mean that nothing is run. -/
structure Options where
  /-- The most frames to play. -/
  frames : Int := 60
  /-- The steps of a frame. -/
  stepsPerFrame : Int := 10
  /-- The most steps to run altogether. -/
  maxSteps : Int := 100000
  /-- The keys held down from beginning to end. -/
  keys : List Int := []
  /-- The seed of the random bytes. -/
  seed : Option Int := none
  /-- Whether the screen is reported. -/
  includeDisplay : Bool := true
  deriving DecidableEq, Repr

end ChipEight.Playback
