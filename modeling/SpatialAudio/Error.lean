import SpatialAudio.Decimal.Shortest
import SpatialAudio.Node.Handle
import SpatialAudio.Property.Value
import SpatialAudio.Text.Quoted

/-!
# Error — why an operation is refused, and in which words

`DatasetError` and `Error` hold the causes, `message` the wording of each.  A refusal leaves the
program running; an `Abort` ends it: it stands for arithmetic that has no answer, or for a table
that has no room.  `Failure` is either of them.
-/

namespace SpatialAudio

/-! ## Datasets -/

/-- The fields of a dataset that must be positive. -/
inductive HeaderField where
  | sampleRate
  | responseCount
  | elevationCount
  | azimuthCount
  | responseLength
deriving Repr, DecidableEq

/-- The name of a field. -/
def HeaderField.name : HeaderField → String
  | sampleRate => "sample rate"
  | responseCount => "response count"
  | elevationCount => "elevation count"
  | azimuthCount => "azimuth count"
  | responseLength => "response length"

/-- How the contents of a dataset contradict themselves. -/
inductive Defect where
  | notPositive (field : HeaderField) (value : Int)
  | elevationOrder (min max : Int)
  | responseCount (total declared : Nat)
  | tableTooLarge
  | trailing (bytes : Nat)
deriving Repr, DecidableEq

/-- The wording of a defect. -/
def Defect.message : Defect → String
  | notPositive field value => field.name ++ " must be positive, got " ++ toString value
  | elevationOrder min max =>
    "minimum elevation " ++ toString min ++ " exceeds maximum " ++ toString max
  | responseCount total declared =>
    "azimuth counts sum to " ++ toString total ++ ", header declares " ++ toString declared
      ++ " responses"
  | tableTooLarge => "response table too large"
  | trailing bytes => toString bytes ++ " trailing bytes after response table"

/-- Why a dataset cannot be loaded. -/
inductive DatasetError where
  | unreadable (path : String)
  | badMarker (word : UInt32)
  | truncated (needed available : Nat)
  | malformed (defect : Defect)
  | zeroSampleRate
deriving Repr, DecidableEq

/-- Lower-case hexadecimal digits of `n`, at least `width` of them. -/
def hexText (width n : Nat) : String :=
  let digits := Nat.toDigits 16 n
  String.ofList (List.replicate (width - digits.length) '0' ++ digits)

namespace DatasetError

/-- The name of the kind of error. -/
def kind : DatasetError → String
  | unreadable _ => "Hrtf.Io"
  | badMarker _ => "Hrtf.BadMarker"
  | truncated _ _ => "Hrtf.Truncated"
  | malformed _ => "Hrtf.Malformed"
  | zeroSampleRate => "Hrtf.ZeroSampleRate"

/-- The wording of an error. -/
def message : DatasetError → String
  | unreadable path => "failed to read HRTF dataset " ++ Text.quoted path
  | badMarker word => "unrecognised byte order marker 0x" ++ hexText 8 word.toNat
  | truncated needed available =>
    "dataset truncated: needed " ++ toString needed ++ " bytes, found " ++ toString available
  | malformed defect => "malformed dataset: " ++ defect.message
  | zeroSampleRate => "cannot resample to a sample rate of 0"

end DatasetError

/-! ## Graphs -/

/-- Why an operation on a graph is refused. -/
inductive Error where
  | staleNode (id : NodeId)
  | privateNode (id : NodeId)
  | typeMismatch (expected found : NodeType)
  | unknownProperty (node : NodeType) (property : PropertyId)
  | propertyType (property : PropertyId) (requested actual : PropertyType)
  | outOfRange (property : PropertyId) (value min max : Float)
  | arrayLength (property : PropertyId) (length min max : Nat)
  | arrayIndex (property : PropertyId) (index length : Nat)
  | channelMismatch (output input : Nat)
  | invalidRange (start count channels : Nat)
  | invalidSlot (slot available : Nat)
  | tooManyChannels (channels : Nat)
  | cycle
  | invalidStrategy (value : Int)
  | invalidChannelCount (channels : Nat)
  | dataset (error : DatasetError)
deriving Repr, DecidableEq

namespace Error

/-- The name of the kind of error. -/
def kind : Error → String
  | staleNode _ => "StaleNode"
  | privateNode _ => "PrivateNode"
  | typeMismatch _ _ => "TypeMismatch"
  | unknownProperty _ _ => "UnknownProperty"
  | propertyType _ _ _ => "PropertyType"
  | outOfRange _ _ _ _ => "OutOfRange"
  | arrayLength _ _ _ _ => "ArrayLength"
  | arrayIndex _ _ _ => "ArrayIndex"
  | channelMismatch _ _ => "ChannelMismatch"
  | invalidRange _ _ _ => "InvalidRange"
  | invalidSlot _ _ => "InvalidSlot"
  | tooManyChannels _ => "TooManyChannels"
  | cycle => "Cycle"
  | invalidStrategy _ => "InvalidStrategy"
  | invalidChannelCount _ => "InvalidChannelCount"
  | dataset error => error.kind

/-- The wording of an error. -/
def message : Error → String
  | staleNode id => "node handle " ++ id.toText ++ " is stale or was never registered"
  | privateNode id => "node " ++ id.toText ++ " is private to a subgraph"
  | typeMismatch expected found =>
    "expected a " ++ expected.name ++ " node, found " ++ found.name
  | unknownProperty node property => node.name ++ " nodes have no property " ++ property.name
  | propertyType property requested actual =>
    "property " ++ property.name ++ " holds " ++ actual.name ++ ", not " ++ requested.name
  | outOfRange property value min max =>
    "value " ++ Decimal.toText value ++ " for " ++ property.name ++ " is outside "
      ++ Decimal.toText min ++ "..=" ++ Decimal.toText max
  | arrayLength property length min max =>
    "array of length " ++ toString length ++ " for " ++ property.name ++ " must hold "
      ++ toString min ++ "..=" ++ toString max ++ " elements"
  | arrayIndex property index length =>
    "array index " ++ toString index ++ " is out of bounds for " ++ property.name ++ " (length "
      ++ toString length ++ ")"
  | channelMismatch output input =>
    "connection width mismatch: output side has " ++ toString output
      ++ " channels, input side has " ++ toString input
  | invalidRange start count channels =>
    "channel range " ++ toString start ++ "+" ++ toString count ++ " does not fit in "
      ++ toString channels ++ " channels"
  | invalidSlot slot available =>
    "connection slot " ++ toString slot ++ " does not exist (" ++ toString available ++ " slots)"
  | tooManyChannels channels => toString channels ++ " channels exceeds the per-node maximum"
  | cycle => "connecting these nodes would create a cycle"
  | invalidStrategy value => "invalid panning strategy " ++ toString value
  | invalidChannelCount channels =>
    "no standard channel map for " ++ toString channels ++ " channels (expected 2, 6 or 8)"
  | dataset error => error.message

end Error

/-! ## Failures -/

/-- Arithmetic without an answer, or a table without room, which ends the program. -/
inductive Abort where
  /-- The end of a channel range is no 64-bit word. -/
  | channelOverflow
  /-- The span between two elevations is no 32-bit integer. -/
  | elevationOverflow
  /-- A band of a dataset without bands was asked for. -/
  | noBand
  /-- A position among no azimuths was asked for. -/
  | noAzimuth
  /-- A number was to be moved between bounds that are not in order. -/
  | invertedBounds
  /-- A table was to be cut into pieces of length zero. -/
  | emptyResponse
  /-- A count is no 64-bit word. -/
  | countOverflow
  /-- A table would take up more bytes than memory has addresses. -/
  | outOfMemory
  /-- Property changes were nested without end. -/
  | nesting
  /-- A label was used that names nothing. -/
  | unbound (label : String)
deriving Repr, DecidableEq

/-- Why an operation has no result. -/
inductive Failure where
  | refused (error : Error)
  | aborted (cause : Abort)
deriving Repr, DecidableEq

/-- A refusal is a failure. -/
instance : MonadLift (Except Error) (Except Failure) where
  monadLift
    | .ok a => .ok a
    | .error e => .error (.refused e)

/-- An abort is a failure. -/
instance : MonadLift (Except Abort) (Except Failure) where
  monadLift
    | .ok a => .ok a
    | .error e => .error (.aborted e)

end SpatialAudio
