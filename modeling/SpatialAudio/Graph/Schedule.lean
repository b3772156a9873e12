import SpatialAudio.Graph.Basic

/-!
# Graph/Schedule — the order in which nodes are pulled, and which nodes reach which

`pullOrder` lists the nodes that a root depends on, each behind all nodes that feed it: a
depth-first walk against the direction of the connections, which emits a node when it is met for the
second time.  `reaches` asks for a path along the connections; a node reaches itself.
-/

namespace SpatialAudio.Graph

/-! ## Pull order -/

/-- The nodes that feed a node, newest connection first. -/
def predecessors (g : Graph) (i : Nat) : List Nat := (g.incoming i).map Edge.source

/-- The walk, with the stack (top first), the nodes met so far and those emitted so far (last
first).  A node met for the first time stays on the stack below the predecessors not met before; met
again, it is emitted unless it was. -/
def walk (feeds : Nat → List Nat) :
    (steps : Nat) → (stack met emitted : List Nat) → List Nat
  | 0, _, _, emitted => emitted
  | _ + 1, [], _, emitted => emitted
  | steps + 1, top :: rest, met, emitted =>
    if top ∈ met then
      walk feeds steps rest met (if top ∈ emitted then emitted else top :: emitted)
    else
      let met := top :: met
      let fresh := (feeds top).filter fun i => i ∉ met
      walk feeds steps (fresh.reverse ++ top :: rest) met emitted

/-- The nodes `root` depends on.  Every step meets a node or takes one off the stack, and every
connection puts at most one there. -/
def pullOrder (g : Graph) (root : Nat) : List Nat :=
  (walk g.predecessors (g.slots.length + g.edges.length + 1) [root] [] []).reverse

/-- Makes the schedule anew after connections changed. -/
def reschedule (g : Graph) : Graph :=
  match g.root with
  | some root => { g with schedule := g.pullOrder root }
  | none => g

/-- Makes `root` the node that is pulled. -/
def scheduleFor (g : Graph) (root : Nat) : Graph :=
  if g.root = some root then g else { g with root := some root, schedule := g.pullOrder root }

/-! ## Reachability -/

/-- The nodes of `seen` and the targets of connections that leave one of them, in one pass. -/
def spread (edges : List Edge) (seen : List Nat) : List Nat :=
  edges.foldl (fun seen e => if e.source ∈ seen ∧ e.target ∉ seen then e.target :: seen else seen)
    seen

/-- Spreads until nothing is added, at most `rounds` times. -/
def closure (edges : List Edge) : (rounds : Nat) → (seen : List Nat) → List Nat
  | 0, seen => seen
  | rounds + 1, seen =>
    let more := spread edges seen
    if more.length = seen.length then seen else closure edges rounds more

/-- Whether connections lead from `i` to `j`.  Every round but the last adds the target of some
connection, so one more round than there are connections suffices. -/
def reaches (g : Graph) (i j : Nat) : Bool := j ∈ closure g.edges (g.edges.length + 1) [i]

end SpatialAudio.Graph
