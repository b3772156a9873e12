import SpatialAudio.Node.Handle
import SpatialAudio.Panning.Strategy
import SpatialAudio.Property.Properties

/-!
# Node/Multipanner — a panner that switches between strategies

A multipanner stands for a subgraph: an input stage that feeds an HRTF panner and an amplitude
panner, one of which feeds an output stage.  The node itself only knows these nodes.
-/

namespace SpatialAudio

/-- A panner that switches between strategies. -/
structure Multipanner where
  input : NodeId
  output : NodeId
  hrtf : NodeId
  amplitude : NodeId
  strategy : Strategy

namespace Multipanner

/-- A multipanner has a direction and a strategy. -/
def properties : Properties :=
  (((Properties.standard.insert .azimuth (.finite "azimuth" 0)).insert
    .elevation (.float "elevation" 0 (-90) 90)).insert
    .shouldCrossfade (.bool "should_crossfade" true)).insert
    .strategy (.int "strategy" Strategy.stereo.toInt 0 3)

/-- The properties passed on to both panners. -/
def forwardedToPanners : List PropertyId := [.azimuth, .elevation, .shouldCrossfade]

/-- The properties passed on to the output stage. -/
def forwardedToOutput : List PropertyId := [.suspended, .mul, .add]

end Multipanner

end SpatialAudio
