import SpatialAudio.Error

/-!
# Panning/Strategy — how a multipanner renders its input

A strategy is stored as an integer; `ofInt` reads it back and refuses all others.
-/

namespace SpatialAudio

/-- How a multipanner renders its input. -/
inductive Strategy where
  | hrtf
  | stereo
  | surround51
  | surround71
deriving Repr, DecidableEq

namespace Strategy

/-- How many output channels a strategy has. -/
def channels : Strategy → Nat
  | hrtf | stereo => 2
  | surround51 => 6
  | surround71 => 8

/-- The integer of a strategy. -/
def toInt : Strategy → Int
  | hrtf => 0
  | stereo => 1
  | surround51 => 2
  | surround71 => 3

/-- The strategy of an integer. -/
def ofInt (value : Int) : Except Error Strategy :=
  match value with
  | 0 => .ok hrtf
  | 1 => .ok stereo
  | 2 => .ok surround51
  | 3 => .ok surround71
  | other => .error (.invalidStrategy other)

/-- The name of a strategy. -/
def name : Strategy → String
  | hrtf => "Hrtf"
  | stereo => "Stereo"
  | surround51 => "Surround51"
  | surround71 => "Surround71"

end Strategy

end SpatialAudio
