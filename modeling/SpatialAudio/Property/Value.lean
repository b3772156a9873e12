/-!
# Property/Value — the values of a node's properties

A property is named by a `PropertyId`; its values are integers, singles or lists of singles.
-/

namespace SpatialAudio

/-- The properties a node may carry. -/
inductive PropertyId where
  /-- A suspended node outputs silence. -/
  | suspended
  /-- Gain applied to every output. -/
  | mul
  /-- Offset added to every output, after the gain. -/
  | add
  | frequency
  /-- Playback position in seconds; setting it seeks. -/
  | position
  | looping
  | azimuth
  | elevation
  | shouldCrossfade
  /-- Angles of the loudspeakers in degrees. -/
  | channelMap
  /-- Keeps the third channel free. -/
  | skipCenter
  /-- Keeps the fourth channel free. -/
  | skipLfe
  /-- Share of the dry signal on every driven output. -/
  | passthrough
  | strategy
deriving Repr, DecidableEq

namespace PropertyId

/-- All properties, in the order of their declaration. -/
def all : List PropertyId :=
  [suspended, mul, add, frequency, position, looping, azimuth, elevation, shouldCrossfade,
   channelMap, skipCenter, skipLfe, passthrough, strategy]

/-- The name of a property in messages. -/
def name : PropertyId → String
  | suspended => "Suspended"
  | mul => "Mul"
  | add => "Add"
  | frequency => "Frequency"
  | position => "Position"
  | looping => "Looping"
  | azimuth => "Azimuth"
  | elevation => "Elevation"
  | shouldCrossfade => "ShouldCrossfade"
  | channelMap => "ChannelMap"
  | skipCenter => "SkipCenter"
  | skipLfe => "SkipLfe"
  | passthrough => "Passthrough"
  | strategy => "Strategy"

end PropertyId

/-- The types of property values. -/
inductive PropertyType where
  | int
  | float
  | floatArray
deriving Repr, DecidableEq

/-- The name of a type of values. -/
def PropertyType.name : PropertyType → String
  | int => "Int"
  | float => "Float"
  | floatArray => "FloatArray"

/-- A value of a property. -/
inductive PropertyValue where
  | int (v : Int)
  | float (v : Float32)
  | floatArray (v : List Float32)
deriving Repr, DecidableEq

namespace PropertyValue

/-- The type of a value. -/
def type : PropertyValue → PropertyType
  | int _ => .int
  | float _ => .float
  | floatArray _ => .floatArray

/-- The integer of a flag. -/
def ofBool (b : Bool) : PropertyValue := int (if b then 1 else 0)

end PropertyValue

/-- The values a property admits. -/
inductive ValueRange where
  | int (min max : Int)
  | float (min max : Float32)
  | floatArray (min max : Float32) (minLength maxLength : Nat)
deriving Repr, DecidableEq

end SpatialAudio
