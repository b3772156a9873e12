import SpatialAudio.Proofs.Outcome
import SpatialAudio.Session.Change

/-!
# Proofs/Recording — changes of properties, with a record of what happens meanwhile

A change of a property runs observers, and these run commands, which may be changes in turn.  A
**recorded** action is an action together with what happens in the course of it, oldest first: the
graph that each command leaves, and every observer that is registered.  All that a change runs
through is written here over recorded actions; without their records they are the actions they
record (`Recorded.action_set`).
-/

namespace SpatialAudio

/-- What a record consists of. -/
inductive Moment where
  /-- A command ended and left a graph. -/
  | passed (g : Graph)
  /-- An observer was registered. -/
  | registered (phase : Phase) (node : NodeId) (property : PropertyId) (o : Observer)

/-- An action, and what happens in the course of it. -/
structure Recorded (α : Type) where
  action : Action α
  /-- What happens from a state on. -/
  record : Session → List Moment

namespace Recorded

variable {α β : Type}

/-! ## Recording -/

/-- An action that neither removes nodes nor registers observers. -/
def quiet (a : Action α) : Recorded α := ⟨a, fun _ => []⟩

/-- A command that registers no observer, whatever else it does. -/
def command (a : Action α) : Recorded α := ⟨a, fun s => [.passed (a.run s).2.graph]⟩

/-- Registers an observer. -/
def register (phase : Phase) (id : NodeId) (p : PropertyId) (o : Observer) : Recorded Unit where
  action := .change fun g => g.addObserver phase id p o
  record s :=
    match s.graph.addObserver phase id p o with
    | .ok _ => [.registered phase id p o]
    | .error _ => []

/-- `Action.attempt`, recorded. -/
def attempt (t : Recorded α) : Recorded (Except Failure α) := ⟨t.action.attempt, t.record⟩

/-- What happens next is recorded from the state in which it begins. -/
instance : Monad Recorded where
  pure a := ⟨pure a, fun _ => []⟩
  bind t f := {
    action := t.action >>= fun a => (f a).action
    record := fun s => t.record s ++
      match t.action.run s with
      | (.ok a, s') => (f a).record s'
      | (.error _, _) => [] }

theorem record_bind_ok {t : Recorded α} {f : α → Recorded β} {s s' : Session} {a : α}
    (h : t.action.run s = (.ok a, s')) :
    (t >>= f).record s = t.record s ++ (f a).record s' := by
  simp only [Bind.bind, h]

theorem record_bind_error {t : Recorded α} {f : α → Recorded β} {s s' : Session} {e : Failure}
    (h : t.action.run s = (.error e, s')) : (t >>= f).record s = t.record s := by
  simp only [Bind.bind, h, List.append_nil]

/-- How a property is set, with a record. -/
abbrev Setter := NodeId → PropertyId → PropertyValue → Recorded Unit

/-- Sets a property and keeps no record. -/
def bare (set : Setter) : SpatialAudio.Setter := fun id p v => (set id p v).action

/-! ## What observers run -/

/-- `configureStandardMap`, recorded. -/
def configureStandardMap (set : Setter) (id : NodeId) (channels : Nat) : Recorded Unit :=
  match ChannelMap.standard? channels with
  | none => quiet (.refuse (.invalidChannelCount channels))
  | some angles => do
    quiet (.read fun g => do (← g.node id).kind.expect .amplitudePanner)
    set id .channelMap (.floatArray angles)
    set id .skipCenter (.int 1)
    set id .skipLfe (.int 1)

/-- `Multipanner.transition`, recorded. -/
def transition (set : Setter) (id : NodeId) (strategy : Strategy) : Recorded Unit := do
  let m ← quiet (.read fun g => Multipanner.find g id)
  quiet (.change fun g => g.disconnectInterior m.hrtf 0)
  quiet (.change fun g => g.disconnectInterior m.amplitude 0)
  let active ← match strategy with
    | .hrtf => pure m.hrtf
    | _ => do
      configureStandardMap set m.amplitude strategy.channels
      quiet (.onGraph (Graph.recomputeMap m.amplitude))
      pure m.amplitude
  let width ← quiet (.read fun g => g.outputCount active)
  quiet (.onGraph (GraphM.update fun g => g.applyLayout m.output (.symmetric width)))
  quiet (.change fun g => g.connectInterior active 0 m.output 0)
  quiet (.change fun g => do
    let m ← Multipanner.find g id
    return g.modifyAt id.index fun n => { n with kind := .multipanner { m with strategy } })

/-- `perform`, recorded. -/
def perform (set : Setter) : Command → Recorded Answer
  | .set label p v => do
    set (← quiet (.node label)) p v
    return .done
  | .reset label p => do
    let id ← quiet (.node label)
    let property ← quiet (.read fun g => g.property id p)
    set id p property.default
    return .done
  | .standardMap label channels => do
    configureStandardMap set (← quiet (.node label)) channels
    return .done
  | .observe phase label p tag vetoAbove propagate steps => do
    let id ← quiet (.node label)
    register phase id p (.script ⟨tag, vetoAbove, propagate, steps⟩)
    return .done
  | c => command (SpatialAudio.perform (bare set) c)

/-- `runSteps`, recorded. -/
def runSteps (set : Setter) (propagate : Bool) : List Command → Recorded Unit
  | [] => pure ()
  | c :: rest => do
    match ← (perform set c).attempt with
    | .ok answer =>
      quiet (.write (.nested answer))
      runSteps set propagate rest
    | .error (.refused e) =>
      quiet (.write (.nested (.refused e)))
      if propagate then quiet (.refuse e) else runSteps set propagate rest
    | .error (.aborted a) => quiet (throw (.aborted a))

/-- `Script.run`, recorded. -/
def runScript (set : Setter) (script : Script) (event : Event) : Recorded Unit := do
  let current := (← quiet get).graph.value event.node event.property
  match event.value with
  | some value =>
    quiet (.write (.before script.tag value current))
    match script.vetoAbove with
    | some bound => quiet (.read fun _ => veto event.property value bound)
    | none => pure ()
  | none => quiet (.write (.after script.tag current))
  runSteps set script.propagate script.steps

/-- `react`, recorded. -/
def react (set : Setter) (event : Event) : Observer → Recorded Unit
  | .forwardToPanners => do
    let value ← quiet (.read fun g => g.value event.node event.property)
    let m ← quiet (.read fun g => Multipanner.find g event.node)
    set m.hrtf event.property value
    set m.amplitude event.property value
  | .forwardToOutput => do
    let value ← quiet (.read fun g => g.value event.node event.property)
    let m ← quiet (.read fun g => Multipanner.find g event.node)
    set m.output event.property value
  | .applyStrategy => do
    let strategy ← quiet (.read fun g => do Strategy.ofInt (← g.int event.node .strategy))
    transition set event.node strategy
  | .script s => runScript set s event
  | o => quiet (SpatialAudio.react (bare set) event o)

/-! ## Setting -/

/-- `notify`, recorded. -/
def notify (run : Event → Observer → Recorded Unit) (phase : Phase) (event : Event) :
    Recorded Unit := do
  let (taken, g) := (← quiet get).graph.takeObservers phase event.node event.property
  quiet (modify fun s => { s with graph := g })
  let outcome ← (taken.forM (run event)).attempt
  quiet (modify fun s =>
    { s with graph := s.graph.restoreObservers phase event.node event.property taken })
  quiet (.settle outcome)

/-- `setWith`, recorded. -/
def setWith (run : Event → Observer → Recorded Unit) : Setter := fun id p v => do
  quiet (.read fun g => do (← g.property id p).validate p v)
  notify run .before ⟨id, p, some v⟩
  quiet (.change fun g => g.store id p v)
  notify run .after ⟨id, p, none⟩

/-- `change`, recorded. -/
def change : (depth : Nat) → Setter
  | 0 => fun _ _ _ => quiet (throw (.aborted .nesting))
  | depth + 1 => setWith (react (change depth))

/-- `Session.set`, recorded. -/
def set : Setter := fun id p v => do
  change ((← quiet get).graph.observerCount + 1 + spareDepth) id p v

/-! ## Leaving the record out -/

section Action

variable (set : Setter)

theorem action_bind (t : Recorded α) (f : α → Recorded β) :
    (t >>= f).action = t.action >>= fun a => (f a).action := rfl

theorem action_attempt (t : Recorded α) : t.attempt.action = t.action.attempt := rfl

theorem action_forM (f : α → Recorded Unit) (as : List α) :
    (as.forM f).action = as.forM fun a => (f a).action := by
  induction as with
  | nil => rfl
  | cons a as ih =>
    change ((f a).action >>= fun _ => (as.forM f).action) = _
    rw [ih]
    rfl

theorem action_configureStandardMap (id : NodeId) (channels : Nat) :
    (configureStandardMap set id channels).action
      = SpatialAudio.configureStandardMap (bare set) id channels := by
  rw [configureStandardMap, SpatialAudio.configureStandardMap]
  cases ChannelMap.standard? channels <;> rfl

theorem action_transition (id : NodeId) (strategy : Strategy) :
    (transition set id strategy).action = Multipanner.transition (bare set) id strategy := by
  cases strategy with
  | hrtf => rfl
  | _ =>
    rw [Multipanner.transition]
    simp only [← action_configureStandardMap]
    rfl

theorem action_perform (c : Command) :
    (perform set c).action = SpatialAudio.perform (bare set) c := by
  cases c with
  | standardMap label channels =>
    rw [SpatialAudio.perform]
    simp only [← action_configureStandardMap]
    rfl
  | _ => rfl

theorem action_runSteps (propagate : Bool) (steps : List Command) :
    (runSteps set propagate steps).action = SpatialAudio.runSteps (bare set) propagate steps := by
  induction steps with
  | nil => rfl
  | cons c rest ih =>
    rw [runSteps, SpatialAudio.runSteps, ← action_perform, ← ih, action_bind, action_attempt]
    congr 1
    funext outcome
    match outcome with
    | .ok answer => rfl
    | .error (.refused e) => cases propagate <;> rfl
    | .error (.aborted a) => rfl

theorem action_runScript (script : Script) (event : Event) :
    (runScript set script event).action = script.run (bare set) event := by
  rw [runScript, Script.run, ← action_runSteps]
  cases event.value with
  | none => rfl
  | some value => cases script.vetoAbove <;> rfl

theorem action_react (event : Event) (o : Observer) :
    (react set event o).action = SpatialAudio.react (bare set) event o := by
  cases o with
  | applyStrategy =>
    rw [SpatialAudio.react]
    simp only [← action_transition]
    rfl
  | script s => exact action_runScript set s event
  | _ => rfl

end Action

theorem action_notify (run : Event → Observer → Recorded Unit) (phase : Phase) (event : Event) :
    (notify run phase event).action
      = SpatialAudio.notify (fun event o => (run event o).action) phase event := by
  rw [SpatialAudio.notify]
  simp only [← action_forM]
  rfl

theorem bare_setWith (run : Event → Observer → Recorded Unit) :
    bare (setWith run) = SpatialAudio.setWith fun event o => (run event o).action := by
  funext id p v
  rw [SpatialAudio.setWith]
  simp only [← action_notify]
  rfl

theorem bare_change (depth : Nat) : bare (change depth) = SpatialAudio.change depth := by
  induction depth with
  | zero => rfl
  | succ depth ih =>
    rw [change, bare_setWith, SpatialAudio.change, ← ih]
    congr 1
    funext event o
    exact action_react (change depth) event o

/-- **Setting a property does the same with and without a record.** -/
theorem action_set (id : NodeId) (p : PropertyId) (v : PropertyValue) :
    (set id p v).action = Session.set id p v := by
  rw [Session.set]
  simp only [← bare_change]
  rfl

end Recorded

end SpatialAudio
