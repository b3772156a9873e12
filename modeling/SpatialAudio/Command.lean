import SpatialAudio.Layout
import SpatialAudio.Node.Handle
import SpatialAudio.Property.Value
import SpatialAudio.Reading

/-!
# Command — what can be asked of a graph, and what reacts to a change of a property

Commands are data: they name nodes by **labels**, which are looked up when the command is carried
out.  An `Observer` reacts to a change of a property: the panners bring their own, all others are
`Script`s, that is, lists of commands.  A command may register a further script (`observe`), so
scripts nest.

A script is less than a closure: each time it runs it carries out the same commands, all of them up
to one that fails, or none if it refuses the value.  It has no memory but the graph, where it can
set properties and register and remove, and it makes no panners with observers of their own.  Proofs
about sessions start from every single operation on a graph, and from plans that go on with the
outcome in any way at all (`Plan`); scripts come in as plans of one form.
-/

namespace SpatialAudio

/-- A name for a node, a dataset or a sink. -/
abbrev Label := String

/-- A node to be placed in a graph, before it has a layout. -/
inductive Blueprint where
  | sine
  /-- A player of `samples`, at the rate of the graph unless another is given. -/
  | samplePlayer (samples : Array Float32) (rate : Option Nat)
  | gain
  | amplitudePanner
  | hrtfPanner (data : Label)
  /-- A sink into a queue for `capacity` samples. -/
  | ringSink (capacity channels : Nat)

/-- Questions about one property. -/
inductive PropertyQuery where
  | value
  | float
  | int
  | floatArray
  | arrayLength
  | arrayAt (index : Nat)
  | wasModified

/-- Questions about one node. -/
inductive NodeQuery where
  | properties
  | layout
  | type
  | inputCount
  | outputCount
  | incoming
  | downstream (slot : Nat)
  | contains
  | owner
  | endpoints
  | buffers (probe : Probe)
  /-- Whether every connection of an output slot would accept another width. -/
  | acceptsWidth (slot width : Nat)
  | oscillator
  | playback
  | channelMap
  | convolution (probe : Probe)
  | sink
  /-- Whether the node is of a type. -/
  | isOf (type : NodeType)

/-- Changes of a layout. -/
inductive LayoutEdit where
  | replace (layout : Layout)
  | resize (inputs outputs : Nat)
  | appendInput (range : ChannelRange)
  | appendOutput (range : ChannelRange)
  | setInput (slot : Nat) (range : ChannelRange)
  | setOutput (slot : Nat) (range : ChannelRange)

/-- When an observer runs. -/
inductive Phase where
  /-- Before a value is stored; a failure keeps it from being stored. -/
  | before
  /-- After a value is stored. -/
  | after
deriving Repr, DecidableEq

/-- What can be asked of a graph. -/
inductive Command where
  | associate (label : Label) (blueprint : Blueprint) (layout : Layout)
  | connect (source : Label) (outputSlot : Nat) (target : Label) (inputSlot : Nat)
  | disconnect (node : Label) (slot : Nat)
  | remove (node : Label)
  | set (node : Label) (property : PropertyId) (value : PropertyValue)
  | reset (node : Label) (property : PropertyId)
  | inspect (node : Label) (property : PropertyId) (query : PropertyQuery)
  | ask (node : Label) (query : NodeQuery)
  | edit (node : Label) (change : LayoutEdit)
  | process (node : Label)
  /-- Sets the standard map with so many outputs. -/
  | standardMap (node : Label) (channels : Nat)
  | recomputeMap (node : Label)
  | markRecompute (node : Label)
  /-- Describes a multipanner; with a label, names its interior nodes after it. -/
  | multipanner (node : Label) (binding : Option Label)
  | summary
  | checkConsistency
  | observe (phase : Phase) (node : Label) (property : PropertyId) (tag : String)
      (vetoAbove : Option Float32) (propagate : Bool) (steps : List Command)

/-- A user's reaction to a change. -/
structure Script where
  tag : String
  /-- Before a change: refuses numbers above this, and lists that are longer. -/
  vetoAbove : Option Float32
  /-- A failing step fails the script. -/
  propagate : Bool
  steps : List Command

/-- A reaction to a change of a property. -/
inductive Observer where
  /-- An HRTF panner notes that its direction changed. -/
  | markRecompute
  /-- A multipanner passes a value on to both of its panners. -/
  | forwardToPanners
  /-- A multipanner passes a value on to its output stage. -/
  | forwardToOutput
  /-- A multipanner refuses a strategy whose width its connections do not accept. -/
  | admitStrategy
  /-- A multipanner rewires itself for its strategy. -/
  | applyStrategy
  | script (s : Script)

end SpatialAudio
