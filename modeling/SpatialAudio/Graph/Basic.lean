import SpatialAudio.Node.Kind

/-!
# Graph/Basic — nodes, connections and the handles that name them

A `Graph` keeps its nodes in an arena: a list of slots, each with the generation of the node that
lives there, or of the next one that will.  Vacant slots are filled again most recently vacated
first.  `Graph.node` looks a handle up; it is the view that all operations go through.
-/

namespace SpatialAudio

/-- The interior ends of a node that stands for a subgraph. -/
structure Interior where
  input : NodeId
  output : NodeId
deriving Repr, DecidableEq

/-- A node with its properties, layout and blocks. -/
structure Node where
  kind : NodeKind
  properties : Properties
  layout : Layout
  /-- One block for every input channel. -/
  inputs : List Block
  /-- One block for every output channel. -/
  outputs : List Block
  /-- The subgraph node that the node is private to. -/
  owner : Option NodeId
  interior : Option Interior

/-- A place for a node. -/
structure Slot where
  generation : UInt32
  node : Option Node

/-- A connection from an output slot of one node to an input slot of another. -/
structure Edge where
  source : Nat
  outputSlot : Nat
  target : Nat
  inputSlot : Nat
deriving Repr, DecidableEq

/-- A block that was given up. -/
structure Fault where
  /-- The number of the block. -/
  block : Nat
  node : NodeId
  error : Error

/-- An audio graph at a fixed sample rate. -/
structure Graph where
  sampleRate : Nat
  slots : List Slot
  /-- The vacant slots, most recently vacated first. -/
  vacant : List Nat
  /-- The connections, newest first. -/
  edges : List Edge
  /-- The node that `schedule` was made for. -/
  root : Option Nat
  /-- The nodes `root` depends on, each behind all that feed it. -/
  schedule : List Nat
  /-- How many blocks were begun. -/
  blocks : Nat
  /-- The faults not yet taken, oldest first. -/
  faults : List Fault
  faultCapacity : Nat
  /-- The queues that sinks write into. -/
  rings : List Ring

namespace Graph

/-- A graph without nodes. -/
def new (sampleRate faultCapacity : Nat) : Graph where
  sampleRate := sampleRate
  slots := []
  vacant := []
  edges := []
  root := none
  schedule := []
  blocks := 0
  faults := []
  faultCapacity := max faultCapacity 1
  rings := []

/-! ## Handles -/

/-- The node in a slot. -/
def nodeAt? (g : Graph) (i : Nat) : Option Node := g.slots[i]?.bind Slot.node

/-- The handle of the node in a slot. -/
def handleAt (g : Graph) (i : Nat) : NodeId := ⟨i, (g.slots[i]?.map Slot.generation).getD 0⟩

/-- The node of a handle. -/
def node (g : Graph) (id : NodeId) : Except Error Node :=
  match g.slots[id.index]? with
  | some ⟨generation, some n⟩ =>
    if generation = id.generation then .ok n else .error (.staleNode id)
  | _ => .error (.staleNode id)

/-- Whether a handle names a node. -/
def contains (g : Graph) (id : NodeId) : Bool := (g.node id).isOk

/-- The slot of a handle that may be used from outside a subgraph. -/
def publicIndex (g : Graph) (id : NodeId) : Except Error Nat := do
  match (← g.node id).owner with
  | some _ => throw (.privateNode id)
  | none => return id.index

/-- The slot of a handle. -/
def index (g : Graph) (id : NodeId) : Except Error Nat := do
  let _ ← g.node id
  return id.index

/-- How many nodes there are. -/
def nodeCount (g : Graph) : Nat := (g.slots.filter fun s => s.node.isSome).length

/-- Changes the node in a slot. -/
def modifyAt (g : Graph) (i : Nat) (f : Node → Node) : Graph :=
  { g with slots := g.slots.modify i fun s => { s with node := s.node.map f } }

/-- **A handle is good exactly while its slot holds its generation.** -/
theorem node_eq_ok_iff (g : Graph) (id : NodeId) (n : Node) :
    g.node id = .ok n ↔ g.slots[id.index]? = some ⟨id.generation, some n⟩ := by
  unfold node
  split
  · split <;> simp_all
  · simp_all

/-- Changing one node leaves the others alone. -/
@[simp] theorem nodeAt?_modifyAt (g : Graph) (i j : Nat) (f : Node → Node) :
    (g.modifyAt i f).nodeAt? j = if i = j then (g.nodeAt? j).map f else g.nodeAt? j := by
  simp only [nodeAt?, modifyAt, List.getElem?_modify]
  split <;> cases g.slots[j]? <;> simp

/-- Changing a node keeps all handles. -/
@[simp] theorem handleAt_modifyAt (g : Graph) (i j : Nat) (f : Node → Node) :
    (g.modifyAt i f).handleAt j = g.handleAt j := by
  simp only [handleAt, modifyAt, List.getElem?_modify]
  split <;> cases g.slots[j]? <;> simp

/-! ## Redirection

Connections to and from a subgraph node are those of its interior ends. -/

/-- The end of a subgraph node that `side` selects, through at most `depth` subgraphs. -/
def redirect (g : Graph) (side : Interior → NodeId) : (depth i : Nat) → Except Error Nat
  | 0, i => .ok i
  | depth + 1, i =>
    match (g.nodeAt? i).bind Node.interior with
    | some interior => do g.redirect side depth (← g.index (side interior))
    | none => .ok i

/-- Where connections that leave a node begin. -/
def sourceSide (g : Graph) (i : Nat) : Except Error Nat := g.redirect (·.output) g.slots.length i

/-- Where connections that enter a node end. -/
def targetSide (g : Graph) (i : Nat) : Except Error Nat := g.redirect (·.input) g.slots.length i

/-! ## Connections -/

/-- The connections that enter a node, newest first. -/
def incoming (g : Graph) (i : Nat) : List Edge := g.edges.filter fun e => e.target = i

/-- The connections that leave a node, newest first. -/
def outgoing (g : Graph) (i : Nat) : List Edge := g.edges.filter fun e => e.source = i

/-- The layout of the node in a slot. -/
def layoutAt (g : Graph) (i : Nat) : Layout := ((g.nodeAt? i).map Node.layout).getD .empty

/-! ## The arena -/

/-- Puts a node into the slot vacated last, or into a new one. -/
def place (g : Graph) (n : Node) : Nat × Graph :=
  match g.vacant with
  | i :: vacant =>
    (i, { g with vacant, slots := g.slots.modify i fun s => { s with node := some n } })
  | [] => (g.slots.length, { g with slots := g.slots ++ [⟨0, some n⟩] })

/-- Takes the node out of a slot, with all of its connections.  The next node in it belongs to the
next generation. -/
def vacate (g : Graph) (i : Nat) : Graph :=
  { g with
    slots := g.slots.modify i fun s => ⟨s.generation + 1, none⟩
    vacant := i :: g.vacant
    edges := g.edges.filter fun e => e.source ≠ i ∧ e.target ≠ i }

/-- The width of a slot, if there is such a slot. -/
def slotRange (slots : List ChannelRange) (slot : Nat) : Except Error ChannelRange :=
  match slots[slot]? with
  | some r => .ok r
  | none => .error (.invalidSlot slot slots.length)

/-- Refuses connections between slots of different width. -/
def checkWidth (output input : Nat) : Except Error Unit :=
  if output = input then .ok () else .error (.channelMismatch output input)

end Graph

/-! ## Operations

An operation on a graph may fail, and keeps what it changed before that. -/

/-- An operation on a graph. -/
abbrev GraphM := ExceptT Failure (StateM Graph)

namespace GraphM

/-- Reads the graph. -/
def read {α : Type} (f : Graph → Except Error α) : GraphM α := do
  match f (← get) with
  | .ok a => return a
  | .error e => throw (.refused e)

/-- Replaces the graph, or leaves it as it is. -/
def update (f : Graph → Except Failure Graph) : GraphM Unit := do
  match f (← get) with
  | .ok g => set g
  | .error e => throw e

/-- Replaces the graph, or leaves it as it is. -/
def change (f : Graph → Except Error Graph) : GraphM Unit := update fun g => f g

end GraphM

end SpatialAudio
