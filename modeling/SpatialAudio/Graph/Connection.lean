import SpatialAudio.Graph.Schedule

/-!
# Graph/Connection — connecting and disconnecting nodes

Both ends of a connection are redirected into subgraphs.  A connection joins slots of equal width,
closes no cycle, and is there at most once.
-/

namespace SpatialAudio.Graph

/-- Connects an output slot to an input slot. -/
def connectAt (g : Graph) (source outputSlot target inputSlot : Nat) : Except Error Graph := do
  let source ← g.sourceSide source
  let target ← g.targetSide target
  let output ← slotRange (g.layoutAt source).outputSlots outputSlot
  let input ← slotRange (g.layoutAt target).inputSlots inputSlot
  checkWidth output.count input.count
  if g.reaches target source then throw .cycle
  let edge : Edge := ⟨source, outputSlot, target, inputSlot⟩
  if edge ∈ g.edges then return g
  else return { g with edges := edge :: g.edges }.reschedule

/-- Connects two nodes. -/
def connect (g : Graph) (source : NodeId) (outputSlot : Nat) (target : NodeId) (inputSlot : Nat) :
    Except Error Graph := do
  let source ← g.publicIndex source
  let target ← g.publicIndex target
  g.connectAt source outputSlot target inputSlot

/-- Connects two nodes, which may be private. -/
def connectInterior (g : Graph) (source : NodeId) (outputSlot : Nat) (target : NodeId)
    (inputSlot : Nat) : Except Error Graph := do
  let source ← g.index source
  let target ← g.index target
  g.connectAt source outputSlot target inputSlot

/-- Removes all connections that leave an output slot. -/
def disconnectAt (g : Graph) (source outputSlot : Nat) : Except Error Graph := do
  let source ← g.sourceSide source
  let _ ← slotRange (g.layoutAt source).outputSlots outputSlot
  let gone (e : Edge) : Bool := e.source = source ∧ e.outputSlot = outputSlot
  if g.edges.any gone then
    return { g with edges := g.edges.filter fun e => !gone e }.reschedule
  else return g

/-- Removes all connections that leave an output slot of a node. -/
def disconnect (g : Graph) (source : NodeId) (outputSlot : Nat) : Except Error Graph := do
  g.disconnectAt (← g.publicIndex source) outputSlot

/-- Removes all connections that leave an output slot of a node, which may be private. -/
def disconnectInterior (g : Graph) (source : NodeId) (outputSlot : Nat) : Except Error Graph := do
  g.disconnectAt (← g.index source) outputSlot

/-! ## Questions -/

/-- How many connections enter a node. -/
def incomingCount (g : Graph) (id : NodeId) : Except Error Nat := do
  return (g.incoming (← g.targetSide (← g.index id))).length

/-- The nodes that an output slot feeds, newest connection first. -/
def downstream (g : Graph) (id : NodeId) (slot : Nat) : Except Error (List NodeId) := do
  let edges := g.outgoing (← g.sourceSide (← g.index id))
  return (edges.filter fun e => e.outputSlot = slot).map fun e => g.handleAt e.target

/-- Refuses a width that some connection of an output slot does not accept. -/
def checkOutputWidth (g : Graph) (id : NodeId) (slot width : Nat) : Except Error Unit := do
  let edges := g.outgoing (← g.sourceSide (← g.index id))
  (edges.filter fun e => e.outputSlot = slot).forM fun e => do
    let input ← slotRange (g.layoutAt e.target).inputSlots e.inputSlot
    checkWidth width input.count

/-- Refuses a graph in which a connection joins slots of different width, or a node has other than
one block per channel. -/
def checkConsistency (g : Graph) : Except Error Unit := do
  g.edges.forM fun e => do
    let output ← slotRange (g.layoutAt e.source).outputSlots e.outputSlot
    let input ← slotRange (g.layoutAt e.target).inputSlots e.inputSlot
    checkWidth output.count input.count
  g.slots.forM fun s =>
    match s.node with
    | some n => do
      checkWidth n.layout.inputs n.inputs.length
      checkWidth n.layout.outputs n.outputs.length
    | none => pure ()

/-- How many input channels a node has; for a subgraph, its interior input. -/
def inputCount (g : Graph) (id : NodeId) : Except Error Nat := do
  return (g.layoutAt (← g.targetSide (← g.index id))).inputs

/-- How many output channels a node has; for a subgraph, its interior output. -/
def outputCount (g : Graph) (id : NodeId) : Except Error Nat := do
  return (g.layoutAt (← g.sourceSide (← g.index id))).outputs

/-- The outputs of a node after the last block; for a subgraph, those of its interior output. -/
def outputBlocks (g : Graph) (id : NodeId) : Except Error (List Block) := do
  return ((g.nodeAt? (← g.sourceSide (← g.index id))).map Node.outputs).getD []

end SpatialAudio.Graph
