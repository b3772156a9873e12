import SpatialAudio.Command
import SpatialAudio.Session.Answer
import SpatialAudio.Session.Library

/-!
# Session/Basic — a graph with names for its parts

A `Session` holds a graph, a library of datasets, the labels that name nodes, datasets and sinks,
and the log that observers write.  An `Action` works on a session; it may fail and keeps what it
changed before that.
-/

namespace SpatialAudio

/-! ## Labels -/

/-- Named things, in the order of their labels. -/
structure Bindings (α : Type) where
  entries : List (Label × α)

namespace Bindings

/-- No names. -/
def empty {α : Type} : Bindings α := ⟨[]⟩

/-- Puts an entry at its place, where it replaces one of the same label. -/
def insertInto {α : Type} (label : Label) (a : α) : List (Label × α) → List (Label × α)
  | [] => [(label, a)]
  | head :: rest =>
    if label = head.1 then (label, a) :: rest
    else if label < head.1 then (label, a) :: head :: rest
    else head :: insertInto label a rest

/-- Names a thing. -/
def bind {α : Type} (b : Bindings α) (label : Label) (a : α) : Bindings α :=
  ⟨insertInto label a b.entries⟩

/-- The thing of a label. -/
def get? {α : Type} (b : Bindings α) (label : Label) : Option α :=
  (b.entries.find? fun e => e.1 = label).map (·.2)

end Bindings

/-! ## Sessions -/

/-- A graph with names for its parts. -/
structure Session where
  graph : Graph
  library : Library
  files : Files
  nodes : Bindings NodeId
  /-- Numbers of datasets. -/
  datasets : Bindings Nat
  /-- Numbers of rings. -/
  sinks : Bindings Nat
  /-- What observers wrote since the log was last read, oldest first. -/
  log : List LogEntry

namespace Session

/-- The sample rate unless another is asked for. -/
def defaultRate : Nat := 44100

/-- How many faults are kept unless another number is asked for. -/
def defaultFaultCapacity : Nat := 64

/-- A session with an empty graph. -/
def new (sampleRate faultCapacity : Nat) : Session where
  graph := Graph.new (max sampleRate 1) faultCapacity
  library := .empty
  files := .empty
  nodes := .empty
  datasets := .empty
  sinks := .empty
  log := []

/-- The bytes of a queued fault, at most. -/
def faultBytes : Nat := 64

/-- Begins a session; the queue of its faults must have room. -/
def start (sampleRate faultCapacity : Nat) : Except Abort Session := do
  Memory.reserve faultCapacity faultBytes
  return new sampleRate faultCapacity

end Session

/-! ## Actions -/

/-- An operation on a session. -/
abbrev Action := ExceptT Failure (StateM Session)

/-- How a property is set: with all that follows from it. -/
abbrev Setter := NodeId → PropertyId → PropertyValue → Action Unit

namespace Action

/-- An operation on the graph of a session. -/
def onGraph {α : Type} (m : GraphM α) : Action α := fun s =>
  let (result, graph) := m.run s.graph
  (result, { s with graph })

/-- Reads the graph. -/
def read {α : Type} (f : Graph → Except Error α) : Action α := onGraph (GraphM.read f)

/-- Replaces the graph, or leaves it as it is. -/
def change (f : Graph → Except Error Graph) : Action Unit := onGraph (GraphM.change f)

/-- The outcome of an action, which may be a failure. -/
def attempt {α : Type} (a : Action α) : Action (Except Failure α) := fun s =>
  let (result, s) := a.run s
  (.ok result, s)

/-- Fails as a computation failed. -/
def settle {α : Type} : Except Failure α → Action α
  | .ok a => pure a
  | .error e => throw e

/-- Refuses for a cause. -/
def refuse {α : Type} (e : Error) : Action α := throw (.refused e)

/-- Writes into the log. -/
def write (entry : LogEntry) : Action Unit := modify fun s => { s with log := s.log ++ [entry] }

/-- Looks a label up. -/
def named {α : Type} (bindings : Session → Bindings α) (label : Label) : Action α := do
  match (bindings (← get)).get? label with
  | some a => return a
  | none => throw (.aborted (.unbound label))

/-- The node of a label. -/
def node (label : Label) : Action NodeId := named Session.nodes label

/-- Names a node. -/
def bindNode (label : Label) (id : NodeId) : Action Unit :=
  modify fun s => { s with nodes := s.nodes.bind label id }

/-- The dataset of a label. -/
def dataset (label : Label) : Action Dataset := do
  let number ← named Session.datasets label
  match (← get).library.datasets[number]? with
  | some d => return d
  | none => throw (.aborted (.unbound label))

end Action

end SpatialAudio
