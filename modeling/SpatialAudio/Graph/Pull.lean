import SpatialAudio.Graph.Arrangement

/-!
# Graph/Pull — pulling one block through a graph

A block has three passes over the schedule of its root: every node may ask for a layout; every node
mixes its inputs and processes them; the subgraph nodes around the processed nodes forget which
properties were stored.  If a layout is refused the block is given up before any node is processed:
the root falls silent and a `Fault` is kept.
-/

namespace SpatialAudio.Graph

/-! ## Layouts -/

/-- Lets the nodes ask for layouts.  The result names the first node whose layout was refused. -/
def proposeAll : (schedule : List Nat) → Graph → Except Abort (Graph × Option (Nat × Error))
  | [], g => .ok (g, none)
  | i :: rest, g =>
    match g.nodeAt? i with
    | none => proposeAll rest g
    | some n =>
      let (kind, wanted) := n.kind.propose n.properties
      let g := g.modifyAt i fun n => { n with kind }
      match wanted with
      | none => proposeAll rest g
      | some layout =>
        match g.applyLayoutAt i layout with
        | .ok g => proposeAll rest g
        | .error (.refused e) => .ok (g, some (i, e))
        | .error (.aborted a) => .error a

/-! ## Blocks -/

/-- Adds blocks to the channels from `start` on. -/
def mixAt : (start : Nat) → (sources channels : List Block) → List Block
  | 0, s :: sources, c :: channels => c.mix s :: mixAt 0 sources channels
  | start + 1, sources, c :: channels => c :: mixAt start sources channels
  | _, _, channels => channels

/-- What one connection adds to the inputs of its target. -/
def mixEdge (g : Graph) (l : Layout) (inputs : List Block) (e : Edge) : List Block :=
  match g.nodeAt? e.source, l.inputSlots[e.inputSlot]? with
  | some source, some input =>
    match source.layout.outputSlots[e.outputSlot]? with
    | some output => mixAt input.start ((output.cut source.outputs).take input.count) inputs
    | none => inputs
  | _, _ => inputs

/-- The inputs of a node: the sum of all that is connected to it. -/
def gather (g : Graph) (i : Nat) (n : Node) : List Block :=
  (g.incoming i).foldl (g.mixEdge n.layout) (n.inputs.map fun _ => Block.silent)

/-- Gain and offset, each left out where it changes nothing. -/
def finish (props : Properties) (outputs : List Block) : List Block :=
  let mul := props.float .mul
  let add := props.float .add
  let scaled := if mul == 1 then outputs else outputs.map (Block.scale mul)
  if add == 0 then scaled else scaled.map (Block.offset add)

/-- Processes the node in slot `i`.  A suspended node is silent and keeps its state. -/
def processAt (g : Graph) (i : Nat) : Except Abort Graph := do
  match g.nodeAt? i with
  | none => return g
  | some n =>
    let inputs := g.gather i n
    if n.properties.flag .suspended then
      return g.modifyAt i fun n =>
        { n with
          inputs
          outputs := n.outputs.map fun _ => Block.silent
          properties := n.properties.clearModified }
    else
      let done ← n.kind.process g.sampleRate n.properties inputs n.outputs g.rings
      let g := g.modifyAt i fun n =>
        { n with
          inputs
          kind := done.kind
          outputs := finish n.properties done.outputs
          properties := n.properties.clearModified }
      return { g with rings := done.rings }

/-- Clears the marks of a node's owner, of the owner's owner, and so on. -/
def clearOwners : (depth : Nat) → (g : Graph) → (owner : Option NodeId) → Graph
  | depth + 1, g, some id =>
    match g.node id with
    | .ok n =>
      clearOwners depth
        (g.modifyAt id.index fun n => { n with properties := n.properties.clearModified }) n.owner
    | .error _ => g
  | _, g, _ => g

/-- Clears the marks of all subgraph nodes around the node in slot `i`. -/
def clearAround (g : Graph) (i : Nat) : Graph :=
  clearOwners g.slots.length g ((g.nodeAt? i).bind Node.owner)

/-- Gives a block up. -/
def abandon (g : Graph) (root block culprit : Nat) (error : Error) : Graph :=
  let silenced := g.modifyAt root fun n => { n with outputs := n.outputs.map fun _ => Block.silent }
  if g.faults.length < g.faultCapacity then
    { silenced with faults := g.faults ++ [⟨block, g.handleAt culprit, error⟩] }
  else silenced

/-- Pulls one block through every node that `id` depends on. -/
def pull (g : Graph) (id : NodeId) : Except Failure Graph := do
  let i ← g.index id
  let root ← g.sourceSide i
  let g := g.scheduleFor root
  let block := g.blocks
  let (g, refused) ← proposeAll g.schedule { g with blocks := block + 1 }
  match refused with
  | some (culprit, error) => return g.abandon root block culprit error
  | none =>
    let g ← (g.schedule.foldlM processAt g : Except Abort Graph)
    return g.schedule.foldl clearAround g

/-- Takes all faults out. -/
def takeFaults (g : Graph) : List Fault × Graph := (g.faults, { g with faults := [] })

end SpatialAudio.Graph
