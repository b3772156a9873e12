import SpatialAudio.Session.Perform

/-!
# Session/Change — setting a property, and everything that follows

Setting a property validates the value, runs the observers of the phase before, stores the value,
and runs the observers of the phase after.  While the observers of a phase run their list is taken
out of the property, so a nested change of the same property meets only observers registered since.

Observers set properties in turn.  `react` and `setWith` take the way to do so as an argument, and
`change depth` ties the knot with at most `depth` nested changes.  The limit stands for the end of
the call stack: a call that reaches it is aborted, and no other call is touched by it.
-/

namespace SpatialAudio

/-- A change of a property, as its observers see it. -/
structure Event where
  node : NodeId
  property : PropertyId
  /-- The value to be stored; absent once it is. -/
  value : Option PropertyValue

/-! ## Reactions -/

/-- What a veto compares: a number, or the length of a list. -/
def PropertyValue.magnitude : PropertyValue → Float
  | int v => Float.ofInt v
  | float v => Double.ofSingle v
  | floatArray v => Double.ofCount v.length

/-- Refuses a value above a bound. -/
def veto (p : PropertyId) (value : PropertyValue) (bound : Float32) : Except Error Unit :=
  if Double.ofSingle bound < value.magnitude then
    .error (.outOfRange p value.magnitude 0 (Double.ofSingle bound))
  else .ok ()

/-- Carries out the steps of a script, writing every answer into the log.  A step that is refused
ends the script if `propagate` is set. -/
def runSteps (set : Setter) (propagate : Bool) : List Command → Action Unit
  | [] => pure ()
  | step :: rest => do
    match ← (perform set step).attempt with
    | .ok answer =>
      .write (.nested answer)
      runSteps set propagate rest
    | .error (.refused e) =>
      .write (.nested (.refused e))
      if propagate then .refuse e else runSteps set propagate rest
    | .error (.aborted a) => throw (.aborted a)

/-- Runs a script. -/
def Script.run (set : Setter) (s : Script) (event : Event) : Action Unit := do
  let current := (← get).graph.value event.node event.property
  match event.value with
  | some value =>
    .write (.before s.tag value current)
    match s.vetoAbove with
    | some bound => .read fun _ => veto event.property value bound
    | none => pure ()
  | none => .write (.after s.tag current)
  runSteps set s.propagate s.steps

/-- How an observer reacts to an event. -/
def react (set : Setter) (event : Event) : Observer → Action Unit
  | .markRecompute => .change fun g => g.markRecompute event.node
  | .forwardToPanners => do
    let value ← .read fun g => g.value event.node event.property
    let m ← .read fun g => Multipanner.find g event.node
    set m.hrtf event.property value
    set m.amplitude event.property value
  | .forwardToOutput => do
    let value ← .read fun g => g.value event.node event.property
    let m ← .read fun g => Multipanner.find g event.node
    set m.output event.property value
  | .admitStrategy =>
    match event.value with
    | some (.int v) => .read fun g => do
      let strategy ← Strategy.ofInt v
      g.checkOutputWidth (← Multipanner.find g event.node).output 0 strategy.channels
    | _ => pure ()
  | .applyStrategy => do
    let strategy ← .read fun g => do Strategy.ofInt (← g.int event.node .strategy)
    Multipanner.transition set event.node strategy
  | .script s => s.run set event

/-! ## Setting -/

/-- Runs the observers of a phase in order up to the first that fails, with their list taken out. -/
def notify (run : Event → Observer → Action Unit) (phase : Phase) (event : Event) :
    Action Unit := do
  let (taken, g) := (← get).graph.takeObservers phase event.node event.property
  modify fun s => { s with graph := g }
  let outcome ← (taken.forM (run event)).attempt
  modify fun s =>
    { s with graph := s.graph.restoreObservers phase event.node event.property taken }
  .settle outcome

/-- Sets a property, running observers with `run`. -/
def setWith (run : Event → Observer → Action Unit) : Setter := fun id p v => do
  .read fun g => do (← g.property id p).validate p v
  notify run .before ⟨id, p, some v⟩
  .change fun g => g.store id p v
  notify run .after ⟨id, p, none⟩

/-- Sets a property, with at most `depth` changes nested in each other. -/
def change : (depth : Nat) → Setter
  | 0 => fun _ _ _ => throw (.aborted .nesting)
  | depth + 1 => setWith (react (change depth))

/-- How deep changes may be nested beyond one for each registered observer and one more.  Only
observers that register observers can need it.  Among them are some that call each other without
end, so no number, nor one reckoned from what is registered, would be enough for all. -/
def spareDepth : Nat := 256

/-- Sets a property of a session's graph. -/
def Session.set : Setter := fun id p v => do
  change ((← get).graph.observerCount + 1 + spareDepth) id p v

end SpatialAudio
