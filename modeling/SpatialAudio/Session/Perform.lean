import SpatialAudio.Graph.Pull
import SpatialAudio.Session.Panner

/-!
# Session/Perform — carrying out commands

`perform set` carries out one command; `set` says how properties are set.  Everything else a command
does is done here, by the operations of the graph.
-/

namespace SpatialAudio

/-! ## Questions -/

/-- Answers a question about a property. -/
def PropertyQuery.answer (g : Graph) (id : NodeId) (p : PropertyId) :
    PropertyQuery → Except Error Answer
  | value => return .value (← g.value id p)
  | float => return .single (← g.float id p)
  | int => return .integer (← g.int id p)
  | floatArray => return .singles (← g.floatArray id p)
  | arrayLength => return .count (← g.floatArray id p).length
  | arrayAt i => return .single (← g.floatArrayAt id p i)
  | wasModified => return .flag (← g.property id p).modified

/-- Answers a question about a node. -/
def NodeQuery.answer (g : Graph) (id : NodeId) : NodeQuery → Except Error Answer
  | properties => return .properties (← g.node id).properties
  | layout => return .layout (← g.node id).layout
  | type => return .type (← g.node id).kind.type
  | inputCount => return .count (← g.inputCount id)
  | outputCount => return .count (← g.outputCount id)
  | incoming => return .count (← g.incomingCount id)
  | downstream slot => return .nodes (← g.downstream id slot)
  | contains => return .flag (g.contains id)
  | owner => return .optionalNode (← g.node id).owner
  | endpoints => return .endpoints (← g.node id).interior
  | buffers probe => do
    let blocks ← g.outputBlocks id
    return .blocks (blocks.map fun b => probe.read b.toArray)
  | acceptsWidth slot width => do
    g.checkOutputWidth id slot width
    return .done
  | oscillator => return .phase (← (← g.node id).kind.asOscillator).phase
  | playback => do
    let p ← (← g.node id).kind.asSamplePlayer
    return .playback p.duration p.elapsed p.finished
  | channelMap => return .channelMap (← (← g.node id).kind.asAmplitudePanner).map
  | convolution probe => do
    let p ← (← g.node id).kind.asHrtfPanner
    return .convolution p.needsRecompute (probe.read p.convolver.left)
      (probe.read p.convolver.right)
  | sink => do
    let s ← (← g.node id).kind.asRingSink
    return .sink s.channels ((g.rings[s.ring]?.map Ring.available).getD 0) s.dropped
  | isOf t => do
    (← g.node id).kind.expect t
    return .done

/-! ## Nodes -/

/-- The kind of node that a blueprint describes, and the ring it writes into. -/
def Blueprint.build : Blueprint → Action (NodeKind × Option Nat)
  | sine => return (.sine ⟨0⟩, none)
  | samplePlayer samples rate => do
    let rate := rate.getD (← get).graph.sampleRate
    return (.samplePlayer (.new samples rate), none)
  | gain => return (.gain, none)
  | amplitudePanner => return (.amplitudePanner .new, none)
  | hrtfPanner data => do
    let d ← .dataset data
    return (← .onGraph (Graph.hrtfKind d), none)
  | ringSink capacity channels => do
    let ring ← .onGraph (Graph.addRing capacity)
    return (.ringSink (.new ring channels), some ring)

/-- Adds a node and names it, and the ring it writes into, if there is one. -/
def associateAs (label : Label) (kind : NodeKind) (ring : Option Nat) (layout : Layout) :
    Action NodeId := do
  let id ← .onGraph (Graph.associate kind layout)
  .bindNode label id
  match ring with
  | some ring => modify fun s => { s with sinks := s.sinks.bind label ring }
  | none => pure ()
  return id

/-- Names the interior nodes of a multipanner. -/
def bindInterior (label : Label) (m : Multipanner) : Action Unit := do
  .bindNode (label ++ ".in") m.input
  .bindNode (label ++ ".out") m.output
  .bindNode (label ++ ".hrtf") m.hrtf
  .bindNode (label ++ ".amp") m.amplitude

/-! ## Commands -/

/-- Carries out a command. -/
def perform (set : Setter) : Command → Action Answer
  | .associate label blueprint layout => do
    let (kind, ring) ← blueprint.build
    return .node (← associateAs label kind ring layout)
  | .connect source outputSlot target inputSlot => do
    let source ← .node source
    let target ← .node target
    .change fun g => g.connect source outputSlot target inputSlot
    return .done
  | .disconnect label slot => do
    let id ← .node label
    .change fun g => g.disconnect id slot
    return .done
  | .remove label => do
    let id ← .node label
    .change fun g => g.remove id
    return .done
  | .set label p v => do
    set (← .node label) p v
    return .done
  | .reset label p => do
    let id ← .node label
    let property ← .read fun g => g.property id p
    set id p property.default
    return .done
  | .inspect label p query => do
    let id ← .node label
    .read fun g => query.answer g id p
  | .ask label query => do
    let id ← .node label
    .read fun g => query.answer g id
  | .edit label change => do
    let id ← .node label
    match ← .onGraph (Graph.edit id change) with
    | some slot => return .slot slot
    | none => return .done
  | .process label => do
    let id ← .node label
    .onGraph (GraphM.update fun g => g.pull id)
    return .done
  | .standardMap label channels => do
    configureStandardMap set (← .node label) channels
    return .done
  | .recomputeMap label => do
    let id ← .node label
    .onGraph (Graph.recomputeMap id)
    return .done
  | .markRecompute label => do
    let id ← .node label
    .change fun g => g.markRecompute id
    return .done
  | .multipanner label binding => do
    let id ← .node label
    let m ← .read fun g => Multipanner.find g id
    match binding with
    | some stem => bindInterior stem m
    | none => pure ()
    return .multipanner m
  | .summary => do
    let g := (← get).graph
    return .summary g.nodeCount g.blocks g.sampleRate
  | .checkConsistency => do
    .read fun g => g.checkConsistency
    return .done
  | .observe phase label p tag vetoAbove propagate steps => do
    let id ← .node label
    .change fun g => g.addObserver phase id p (.script ⟨tag, vetoAbove, propagate, steps⟩)
    return .done

end SpatialAudio
