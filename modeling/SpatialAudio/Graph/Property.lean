import SpatialAudio.Graph.Basic

/-!
# Graph/Property — reading and storing the properties of nodes, and their observers

Storing a value here checks nothing and tells nobody; that is the business of whoever sets it.
While observers of a property run their list is taken out (`takeObservers`), and is put back in
front of those registered in the meantime (`restoreObservers`).
-/

namespace SpatialAudio.Graph

/-- A property of a node. -/
def property (g : Graph) (id : NodeId) (p : PropertyId) : Except Error Property := do
  let n ← g.node id
  match n.properties.get? p with
  | some property => return property
  | none => throw (.unknownProperty n.kind.type p)

/-- The value of a property. -/
def value (g : Graph) (id : NodeId) (p : PropertyId) : Except Error PropertyValue := do
  return (← g.property id p).value

/-- The value of a property that is a single. -/
def float (g : Graph) (id : NodeId) (p : PropertyId) : Except Error Float32 := do
  match ← g.value id p with
  | .float v => return v
  | v => throw (.propertyType p .float v.type)

/-- The value of an integer property. -/
def int (g : Graph) (id : NodeId) (p : PropertyId) : Except Error Int := do
  match ← g.value id p with
  | .int v => return v
  | v => throw (.propertyType p .int v.type)

/-- The value of a property that is a list. -/
def floatArray (g : Graph) (id : NodeId) (p : PropertyId) : Except Error (List Float32) := do
  match ← g.value id p with
  | .floatArray v => return v
  | v => throw (.propertyType p .floatArray v.type)

/-- One element of a list property. -/
def floatArrayAt (g : Graph) (id : NodeId) (p : PropertyId) (i : Nat) : Except Error Float32 := do
  let v ← g.floatArray id p
  match v[i]? with
  | some x => return x
  | none => throw (.arrayIndex p i v.length)

/-- Changes a property of a node; a node or property that is not there stays so. -/
def modifyProperty (g : Graph) (id : NodeId) (p : PropertyId) (f : Property → Property) : Graph :=
  if g.contains id then
    g.modifyAt id.index fun n => { n with properties := n.properties.modify p f }
  else g

/-- Stores a value. -/
def store (g : Graph) (id : NodeId) (p : PropertyId) (v : PropertyValue) : Except Error Graph := do
  let _ ← g.property id p
  return g.modifyProperty id p (·.store v)

/-! ## Observers -/

/-- Registers an observer behind all others. -/
def addObserver (g : Graph) (phase : Phase) (id : NodeId) (p : PropertyId) (o : Observer) :
    Except Error Graph := do
  let _ ← g.property id p
  return g.modifyProperty id p fun x => x.setObservers phase (x.observers phase ++ [o])

/-- Takes all observers out. -/
def takeObservers (g : Graph) (phase : Phase) (id : NodeId) (p : PropertyId) :
    List Observer × Graph :=
  (match g.property id p with
    | .ok x => x.observers phase
    | .error _ => [],
   g.modifyProperty id p (·.setObservers phase []))

/-- Puts observers back in front of all others. -/
def restoreObservers (g : Graph) (phase : Phase) (id : NodeId) (p : PropertyId)
    (taken : List Observer) : Graph :=
  g.modifyProperty id p fun x => x.setObservers phase (taken ++ x.observers phase)

/-- How many observers are registered on all nodes together. -/
def observerCount (g : Graph) : Nat :=
  (g.slots.map fun s =>
    match s.node with
    | some n => (n.properties.entries.map fun e => e.2.before.length + e.2.after.length).sum
    | none => 0).sum

end SpatialAudio.Graph
