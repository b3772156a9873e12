import SpatialAudio.Graph.Arrangement

/-!
# Graph/Lifecycle — adding and removing nodes

A node enters a graph without channels and is then given its layout; if that fails the slot is
vacated again, one generation later.  Removing a subgraph node removes the nodes it owns before
itself, lowest slot first.
-/

namespace SpatialAudio.Graph

/-- A node of a kind, without channels. -/
def blank (k : NodeKind) : Node := ⟨k, k.properties, .empty, [], [], none, none⟩

/-- Adds a node with a layout. -/
def associate (k : NodeKind) (l : Layout) : GraphM NodeId := do
  let (i, g) := (← get).place (blank k)
  match g.applyLayoutAt i l with
  | .ok g => set g; return g.handleAt i
  | .error e => set (g.vacate i); throw e

/-- Adds an empty queue, which must have room; the result is its number. -/
def addRing (capacity : Nat) : GraphM Nat := do
  if !Memory.fits capacity Memory.sampleSize then throw (.aborted .outOfMemory)
  let g ← get
  set { g with rings := g.rings ++ [Ring.new capacity] }
  return g.rings.length

/-- Makes `owner` stand for the subgraph with the given ends; all nodes of `interior` become private
to it. -/
def makeSubgraph (g : Graph) (owner : NodeId) (ends : Interior) (interior : List NodeId) :
    Except Error Graph := do
  let _ ← g.node ends.input
  let _ ← g.node ends.output
  let owned (g : Graph) (id : NodeId) : Except Error Graph := do
    return g.modifyAt (← g.index id) fun n => { n with owner := some owner }
  let g ← interior.foldlM owned g
  return g.modifyAt (← g.index owner) fun n => { n with interior := some ends }

/-- The slots of the nodes that a node owns, in ascending order. -/
def ownedBy (g : Graph) (id : NodeId) : List Nat :=
  (List.range g.slots.length).filter fun i => ((g.nodeAt? i).bind Node.owner) = some id

/-- Takes a node out, and before it what it owns, through at most `depth` subgraphs.  The schedule
of a node that is gone goes with it. -/
def removeAt : (depth : Nat) → (g : Graph) → (i : Nat) → Graph
  | 0, g, _ => g
  | depth + 1, g, i =>
    let g := (g.ownedBy (g.handleAt i)).foldl (removeAt depth) g
    let g := if g.root = some i then { g with root := none, schedule := [] } else g
    g.vacate i

/-- Removes a node with its connections and, for a subgraph node, its interior. -/
def remove (g : Graph) (id : NodeId) : Except Error Graph := do
  let i ← g.publicIndex id
  return (removeAt (g.slots.length + 1) g i).reschedule

end SpatialAudio.Graph
