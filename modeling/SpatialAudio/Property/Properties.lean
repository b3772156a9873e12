import SpatialAudio.Arithmetic.Single
import SpatialAudio.Command
import SpatialAudio.Error

/-!
# Property/Properties — the properties of one node

A `Property` holds a value that its range admits (`Property.validate`), remembers whether it was
stored since the node last processed a block, and carries the observers of its changes.
`Properties` is the ordered set of them; `get?` is its view.
-/

namespace SpatialAudio

/-- One property of a node. -/
structure Property where
  name : String
  value : PropertyValue
  default : PropertyValue
  range : ValueRange
  /-- Stored since the node last processed a block. -/
  modified : Bool
  /-- Observers that run before a value is stored, in this order. -/
  before : List Observer
  /-- Observers that run after a value is stored, in this order. -/
  after : List Observer

namespace Property

/-- A property at its default value, without observers. -/
def new (name : String) (default : PropertyValue) (range : ValueRange) : Property :=
  ⟨name, default, default, range, false, [], []⟩

/-- An integer property. -/
def int (name : String) (default min max : Int) : Property := new name (.int default) (.int min max)

/-- An integer property that is `0` or `1`. -/
def bool (name : String) (default : Bool) : Property := new name (.ofBool default) (.int 0 1)

/-- A property that is a single. -/
def float (name : String) (default min max : Float32) : Property :=
  new name (.float default) (.float min max)

/-- A property that takes every finite single. -/
def finite (name : String) (default : Float32) : Property :=
  float name default (-Single.greatest) Single.greatest

/-- A property that is a list of singles. -/
def floatArray (name : String) (default : List Float32) (min max : Float32)
    (minLength maxLength : Nat) : Property :=
  new name (.floatArray default) (.floatArray min max minLength maxLength)

/-- Refuses a single outside `[min, max]`, and what is not a number. -/
def checkFloat (id : PropertyId) (min max v : Float32) : Except Error Unit :=
  if min ≤ v ∧ v ≤ max then .ok ()
  else .error (.outOfRange id (Double.ofSingle v) (Double.ofSingle min) (Double.ofSingle max))

/-- Refuses a value of another type or outside the range.  A list is refused for its length before
any of its elements. -/
def validate (p : Property) (id : PropertyId) (value : PropertyValue) : Except Error Unit :=
  match p.range, value with
  | .int min max, .int v =>
    if v < min ∨ max < v then
      .error (.outOfRange id (Float.ofInt v) (Float.ofInt min) (Float.ofInt max))
    else .ok ()
  | .float min max, .float v => checkFloat id min max v
  | .floatArray min max minLength maxLength, .floatArray vs =>
    if vs.length < minLength ∨ maxLength < vs.length then
      .error (.arrayLength id vs.length minLength maxLength)
    else vs.forM (checkFloat id min max)
  | _, value => .error (.propertyType id value.type p.value.type)

/-- Stores a value. -/
def store (p : Property) (value : PropertyValue) : Property := { p with value, modified := true }

/-- The observers of a phase. -/
def observers (p : Property) : Phase → List Observer
  | .before => p.before
  | .after => p.after

/-- Other observers for a phase. -/
def setObservers (p : Property) (phase : Phase) (os : List Observer) : Property :=
  match phase with
  | .before => { p with before := os }
  | .after => { p with after := os }

end Property

/-- The properties of a node, in order. -/
structure Properties where
  entries : List (PropertyId × Property)

namespace Properties

/-- No properties. -/
def empty : Properties := ⟨[]⟩

/-- The property of an identifier. -/
def get? (ps : Properties) (id : PropertyId) : Option Property :=
  (ps.entries.find? fun e => e.1 = id).map (·.2)

/-- Changes the property of an identifier, if there is one. -/
def modify (ps : Properties) (id : PropertyId) (f : Property → Property) : Properties :=
  ⟨ps.entries.map fun e => if e.1 = id then (e.1, f e.2) else e⟩

/-- Changing one property leaves the others alone. -/
theorem get?_modify (ps : Properties) (i j : PropertyId) (f : Property → Property) :
    (ps.modify i f).get? j = if i = j then (ps.get? j).map f else ps.get? j := by
  obtain ⟨entries⟩ := ps
  simp only [get?, modify]
  induction entries with
  | nil => simp
  | cons e entries ih => by_cases h : e.1 = i <;> by_cases hj : e.1 = j <;> grind

/-- Adds a property behind the others, or takes the place of the one with its identifier. -/
def insert (ps : Properties) (id : PropertyId) (p : Property) : Properties :=
  match ps.get? id with
  | some _ => ps.modify id fun _ => p
  | none => ⟨ps.entries ++ [(id, p)]⟩

/-- The properties that every node has. -/
def standard : Properties :=
  ((empty.insert .suspended (.bool "suspended" false)).insert .mul (.finite "mul" 1)).insert
    .add (.finite "add" 0)

/-! ## Reading -/

/-- Whether a property was stored since the node last processed a block. -/
def wasModified (ps : Properties) (id : PropertyId) : Bool :=
  match ps.get? id with
  | some p => p.modified
  | none => false

/-- Whether any of some properties was. -/
def anyModified (ps : Properties) (ids : List PropertyId) : Bool := ids.any ps.wasModified

/-- The value of a float property, `0` if there is none. -/
def float (ps : Properties) (id : PropertyId) : Float32 :=
  match (ps.get? id).map Property.value with
  | some (.float v) => v
  | _ => 0

/-- The value of an integer property, `0` if there is none. -/
def int (ps : Properties) (id : PropertyId) : Int :=
  match (ps.get? id).map Property.value with
  | some (.int v) => v
  | _ => 0

/-- The value of a list property, empty if there is none. -/
def floatArray (ps : Properties) (id : PropertyId) : List Float32 :=
  match (ps.get? id).map Property.value with
  | some (.floatArray v) => v
  | _ => []

/-- Whether an integer property is not `0`. -/
def flag (ps : Properties) (id : PropertyId) : Bool := ps.int id ≠ 0

/-! ## Changing -/

/-- Forgets which properties were stored. -/
def clearModified (ps : Properties) : Properties :=
  ⟨ps.entries.map fun e => (e.1, { e.2 with modified := false })⟩

end Properties

end SpatialAudio
