import SpatialAudio.Graph.Lifecycle
import SpatialAudio.Graph.Property
import SpatialAudio.Session.Basic

/-!
# Session/Panner — making panners, and rewiring a multipanner

Panners are made of nodes, connections and observers.  Operations that set properties take the way
to do so as an argument (`set`), because setting runs observers, which may do anything.
-/

namespace SpatialAudio

/-! ## Amplitude panners -/

namespace Graph

/-- Rebuilds the map of an amplitude panner and applies the layout it needs.  If that fails the map
in effect stays, and no map waits. -/
def recomputeMap (id : NodeId) : GraphM Unit := do
  let n ← GraphM.read fun g => g.node id
  let p ← GraphM.read fun _ => n.kind.asAmplitudePanner
  let (staged, layout) := p.stage n.properties
  modify fun g => g.modifyAt id.index fun n => { n with kind := .amplitudePanner staged }
  match (← get).applyLayout id layout with
  | .ok g => set g
  | .error e =>
    modify fun g => g.modifyAt id.index fun n => { n with kind := .amplitudePanner p.discard }
    throw e

/-- Adds an amplitude panner with the map of its default properties. -/
def createAmplitudePanner : GraphM NodeId := do
  let id ← associate (.amplitudePanner .new) (.spread 0)
  recomputeMap id
  return id

/-! ## HRTF panners -/

/-- Notes that the direction of an HRTF panner changed. -/
def markRecompute (g : Graph) (id : NodeId) : Except Error Graph := do
  let p ← (← g.node id).kind.asHrtfPanner
  return g.modifyAt id.index fun n => { n with kind := .hrtfPanner p.markRecompute }

/-- An HRTF panner as a node. -/
def hrtfKind (data : Dataset) : GraphM NodeKind :=
  match HrtfPanner.new data with
  | .ok p => return .hrtfPanner p
  | .error a => throw (.aborted a)

/-- Adds an HRTF panner that follows changes of its direction. -/
def createHrtfPanner (data : Dataset) : GraphM NodeId := do
  let id ← associate (← hrtfKind data) (.spread 2)
  GraphM.change fun g => g.addObserver .after id .azimuth .markRecompute
  GraphM.change fun g => g.addObserver .after id .elevation .markRecompute
  return id

end Graph

/-- Sets the standard map with `channels` outputs and keeps its center and low-frequency channels
free. -/
def configureStandardMap (set : Setter) (id : NodeId) (channels : Nat) : Action Unit := do
  match ChannelMap.standard? channels with
  | none => .refuse (.invalidChannelCount channels)
  | some angles =>
    .read fun g => do (← g.node id).kind.expect .amplitudePanner
    set id .channelMap (.floatArray angles)
    set id .skipCenter (.int 1)
    set id .skipLfe (.int 1)

/-! ## Multipanners -/

namespace Multipanner

/-- The multipanner of a handle. -/
def find (g : Graph) (id : NodeId) : Except Error Multipanner := do (← g.node id).kind.asMultipanner

/-- Rewires the interior for a strategy: takes both panners off the output stage, sets up the one
that becomes active, gives the output stage its width and attaches it. -/
def transition (set : Setter) (id : NodeId) (strategy : Strategy) : Action Unit := do
  let m ← .read fun g => find g id
  .change fun g => g.disconnectInterior m.hrtf 0
  .change fun g => g.disconnectInterior m.amplitude 0
  let active ← match strategy with
    | .hrtf => pure m.hrtf
    | _ => do
      configureStandardMap set m.amplitude strategy.channels
      .onGraph (Graph.recomputeMap m.amplitude)
      pure m.amplitude
  let width ← .read fun g => g.outputCount active
  .onGraph (GraphM.update fun g => g.applyLayout m.output (.symmetric width))
  .change fun g => g.connectInterior active 0 m.output 0
  .change fun g => do
    let m ← find g id
    return g.modifyAt id.index fun n => { n with kind := .multipanner { m with strategy } }

/-- The observers of a multipanner, each with its phase and property. -/
def observers : List (Phase × PropertyId × Observer) :=
  forwardedToPanners.map (fun p => (.after, p, .forwardToPanners))
    ++ forwardedToOutput.map (fun p => (.after, p, .forwardToOutput))
    ++ [(.before, .strategy, .admitStrategy), (.after, .strategy, .applyStrategy)]

/-- Adds the nodes of a multipanner and joins them, without an active panner. -/
def assemble (data : Dataset) : GraphM NodeId := do
  let hrtf ← Graph.createHrtfPanner data
  let amplitude ← Graph.createAmplitudePanner
  let input ← Graph.associate .gain (.symmetric 1)
  let output ← Graph.associate .gain (.symmetric 0)
  GraphM.change fun g => g.connect input 0 hrtf 0
  GraphM.change fun g => g.connect input 0 amplitude 0
  let id ← Graph.associate (.multipanner ⟨input, output, hrtf, amplitude, .stereo⟩) .empty
  GraphM.change fun g => g.makeSubgraph id ⟨input, output⟩ [input, output, hrtf, amplitude]
  observers.forM fun (phase, p, o) => GraphM.change fun g => g.addObserver phase id p o
  return id

/-- Adds a multipanner. -/
def create (set : Setter) (data : Dataset) : Action NodeId := do
  let id ← .onGraph (assemble data)
  transition set id .stereo
  return id

end Multipanner

end SpatialAudio
