import SpatialAudio.Graph.Basic
import SpatialAudio.Reading

/-!
# Session/Answer — what commands and steps report

An `Answer` is the result of one command, a `Report` that of one step of a session.  Observers write
`LogEntry`s.
-/

namespace SpatialAudio

/-- The result of a command. -/
inductive Answer where
  | done
  | node (id : NodeId)
  | optionalNode (id : Option NodeId)
  | nodes (ids : List NodeId)
  | endpoints (ends : Option Interior)
  | flag (b : Bool)
  | count (n : Nat)
  | slot (n : Nat)
  | integer (n : Int)
  | single (x : Float32)
  | singles (xs : List Float32)
  | value (v : PropertyValue)
  | properties (ps : Properties)
  | layout (l : Layout)
  | type (t : NodeType)
  | summary (nodes blocks rate : Nat)
  | blocks (readings : List Reading)
  | phase (x : Float32)
  | playback (duration position : Float) (finished : Bool)
  | channelMap (m : ChannelMap)
  | convolution (needsRecompute : Bool) (left right : Reading)
  | sink (channels available dropped : Nat)
  | multipanner (m : Multipanner)
  | refused (e : Error)

/-- What an observer leaves in the log. -/
inductive LogEntry where
  /-- A script ran before `value` was stored. -/
  | before (tag : String) (value : PropertyValue) (current : Except Error PropertyValue)
  /-- A script ran after a value was stored. -/
  | after (tag : String) (current : Except Error PropertyValue)
  /-- A step of a script was carried out. -/
  | nested (answer : Answer)

/-- The result of a step of a session. -/
inductive Report where
  | answer (a : Answer)
  | loaded (rate length : Nat) (sameAs : List String)
  | rendered (channels : Nat) (out : List Reading)
  | faults (fs : List Fault)
  | drained (count : Nat) (samples : Reading) (left : Nat)
  | results (answers : List Answer)
  /-- A transaction ended early; the answers are those before it. -/
  | interrupted (e : Error) (answers : List Answer)
  | log (entries : List LogEntry)
  | aborted (cause : Abort)

end SpatialAudio
