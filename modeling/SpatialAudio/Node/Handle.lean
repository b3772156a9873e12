/-!
# Node/Handle — naming the nodes of a graph

A handle is an arena index together with the **generation** of that index: a removed node's index
is given out again under the next generation, so that old handles do not come back to life.
-/

namespace SpatialAudio

/-- A handle to a node. -/
structure NodeId where
  index : Nat
  generation : UInt32
deriving Repr, DecidableEq

/-- What a node is. -/
inductive NodeType where
  | sine
  | samplePlayer
  | gain
  | amplitudePanner
  | hrtfPanner
  | multipanner
  | ringSink
deriving Repr, DecidableEq

/-- The handle as text. -/
def NodeId.toText (id : NodeId) : String :=
  "NodeId \x7b index: " ++ toString id.index ++ ", generation: " ++ toString id.generation.toNat
    ++ " \x7d"

namespace NodeType

/-- All types of nodes, in the order of their declaration. -/
def all : List NodeType :=
  [sine, samplePlayer, gain, amplitudePanner, hrtfPanner, multipanner, ringSink]

/-- The name of a type of node. -/
def name : NodeType → String
  | sine => "Sine"
  | samplePlayer => "SamplePlayer"
  | gain => "Gain"
  | amplitudePanner => "AmplitudePanner"
  | hrtfPanner => "HrtfPanner"
  | multipanner => "Multipanner"
  | ringSink => "RtrbSink"

end NodeType

end SpatialAudio
