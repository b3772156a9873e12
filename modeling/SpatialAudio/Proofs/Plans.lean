import SpatialAudio.Proofs.Outcome
import SpatialAudio.Session.Step

/-!
# Proofs/Plans — commands, observers and steps as plans

A `Plan` is what a command, an observer or a step does, laid open: it looks at the session, notes
something beside the graph, does a **deed** — one operation on the graph — or sets a property, and
goes on with the outcome.  How properties are set is left to whoever runs a plan (`Plan.run`).  The
plans here, when they are run, are the commands, observers and steps they are named after
(`Command.run_plan`, `Observer.run_plan`, `Step.run_plan`), so that what holds of all plans holds of
these.
-/

namespace SpatialAudio

/-! ## Deeds -/

/-- One operation on a graph, with the type of its result. -/
inductive Deed : Type → Type where
  | associate (kind : NodeKind) (layout : Layout) : Deed NodeId
  | assemble (data : Dataset) : Deed NodeId
  | remove (id : NodeId) : Deed Unit
  | connect (source : NodeId) (outputSlot : Nat) (target : NodeId) (inputSlot : Nat) : Deed Unit
  | connectInterior (source : NodeId) (outputSlot : Nat) (target : NodeId) (inputSlot : Nat) :
      Deed Unit
  | disconnect (source : NodeId) (outputSlot : Nat) : Deed Unit
  | disconnectInterior (source : NodeId) (outputSlot : Nat) : Deed Unit
  | arrange (id : NodeId) (layout : Layout) : Deed Unit
  | observe (phase : Phase) (id : NodeId) (property : PropertyId) (o : Observer) : Deed Unit
  | recomputeMap (id : NodeId) : Deed Unit
  | markRecompute (id : NodeId) : Deed Unit
  /-- A multipanner takes on a strategy. -/
  | adopt (id : NodeId) (strategy : Strategy) : Deed Unit
  | pull (id : NodeId) : Deed Unit
  | addRing (capacity : Nat) : Deed Nat
  | clearFaults : Deed Unit
  | refill (number : Nat) (ring : Ring) : Deed Unit

namespace Deed

/-- Does a deed. -/
def run {α : Type} : Deed α → GraphM α
  | associate kind layout => Graph.associate kind layout
  | assemble data => Multipanner.assemble data
  | remove id => GraphM.change fun g => g.remove id
  | connect source o target i => GraphM.change fun g => g.connect source o target i
  | connectInterior source o target i => GraphM.change fun g => g.connectInterior source o target i
  | disconnect source o => GraphM.change fun g => g.disconnect source o
  | disconnectInterior source o => GraphM.change fun g => g.disconnectInterior source o
  | arrange id layout => GraphM.update fun g => g.applyLayout id layout
  | observe phase id p o => GraphM.change fun g => g.addObserver phase id p o
  | recomputeMap id => Graph.recomputeMap id
  | markRecompute id => GraphM.change fun g => g.markRecompute id
  | adopt id strategy => GraphM.change fun g => do
    let m ← Multipanner.find g id
    return g.modifyAt id.index fun n => { n with kind := .multipanner { m with strategy } }
  | pull id => GraphM.update fun g => g.pull id
  | addRing capacity => Graph.addRing capacity
  | clearFaults => modify fun g => { g with faults := [] }
  | refill number ring => modify fun g => { g with rings := g.rings.set number ring }

/-- The graph that a deed leaves, whatever its outcome. -/
def after {α : Type} (d : Deed α) (g : Graph) : Graph := (d.run.run g).2

end Deed

/-! ## Plans -/

/-- What is done step by step. -/
inductive Plan (α : Type) where
  | done (outcome : Except Failure α)
  /-- Looks at the session. -/
  | look (next : Session → Plan α)
  /-- Changes what is not the graph. -/
  | note (f : Session → Session) (next : Plan α)
  | deed {β : Type} (d : Deed β) (next : Except Failure β → Plan α)
  /-- Sets a property. -/
  | set (id : NodeId) (p : PropertyId) (v : PropertyValue) (next : Except Failure Unit → Plan α)

namespace Plan

variable {α β : Type}

/-- Goes on with a result; a failure ends a plan. -/
def bind (plan : Plan α) (f : α → Plan β) : Plan β :=
  match plan with
  | done (.ok a) => f a
  | done (.error e) => done (.error e)
  | look next => look fun s => (next s).bind f
  | note g next => note g (next.bind f)
  | deed d next => deed d fun r => (next r).bind f
  | set id p v next => set id p v fun r => (next r).bind f

instance : Monad Plan where
  pure a := done (.ok a)
  bind := bind

/-- The outcome of a plan, which may be a failure. -/
def attempt : Plan α → Plan (Except Failure α)
  | done r => done (.ok r)
  | look next => look fun s => (next s).attempt
  | note f next => note f next.attempt
  | deed d next => deed d fun r => (next r).attempt
  | set id p v next => set id p v fun r => (next r).attempt

/-- Does a deed. -/
def act (d : Deed α) : Plan α := deed d done

/-- Sets a property. -/
def assign (id : NodeId) (p : PropertyId) (v : PropertyValue) : Plan Unit := set id p v done

/-- An action that leaves the graph alone. -/
def quiet (a : Action α) : Plan α :=
  look fun s => note (fun _ => (a.run s).2) (done (a.run s).1)

/-- Carries out a plan. -/
def run (setter : Setter) : Plan α → Action α
  | done r => .settle r
  | look next => do (next (← get)).run setter
  | note f next => do
    modify fun s => { f s with graph := s.graph }
    next.run setter
  | deed d next => do (next (← (Action.onGraph d.run).attempt)).run setter
  | set id p v next => do (next (← (setter id p v).attempt)).run setter

end Plan

/-! ### Running -/

/-- The action leaves the graph alone, whatever its outcome. -/
def Action.Neutral {α : Type} (a : Action α) : Prop := ∀ s, (a.run s).2.graph = s.graph

namespace Action

variable {α β : Type}

theorem ext {a b : Action α} (h : ∀ s, a.run s = b.run s) : a = b := ExceptT.ext (funext h)

theorem onGraph_bind (m : GraphM α) (f : α → GraphM β) :
    onGraph (m >>= f) = onGraph m >>= fun a => onGraph (f a) := by
  refine ext fun s => ?_
  rw [run_onGraph, run_bind, run_bind, run_onGraph]
  rcases m.run s.graph with ⟨_ | a, g⟩ <;> rfl

theorem neutral_pure (a : α) : Neutral (pure a : Action α) := fun _ => rfl

theorem neutral_throw (e : Failure) : Neutral (throw e : Action α) := fun _ => rfl

theorem neutral_settle (r : Except Failure α) : Neutral (settle r) := fun s => by
  rw [run_settle]

theorem neutral_read (f : Graph → Except Error α) : Neutral (read f) := fun s => by
  rw [read, run_onGraph, run_read]

theorem neutral_modify {f : Session → Session} (hf : ∀ s, (f s).graph = s.graph) :
    Neutral (modify f : Action PUnit) := hf

theorem Neutral.bind {a : Action α} {f : α → Action β} (ha : a.Neutral)
    (hf : ∀ x, (f x).Neutral) : (a >>= f).Neutral := by
  intro s
  have hs := ha s
  rw [run_bind]
  rcases hr : a.run s with ⟨_ | x, s'⟩
  · rw [hr] at hs
    exact hs
  · rw [hr] at hs
    exact (hf x s').trans hs

theorem neutral_get : Neutral (get : Action Session) := fun _ => rfl

theorem neutral_named (bindings : Session → Bindings α) (label : Label) :
    Neutral (named bindings label) := by
  refine neutral_get.bind fun s => ?_
  split
  · exact neutral_pure _
  · exact neutral_throw _

theorem neutral_node (label : Label) : Neutral (node label) := neutral_named _ _

theorem neutral_dataset (label : Label) : Neutral (dataset label) := by
  refine (neutral_named _ _).bind fun number => neutral_get.bind fun s => ?_
  split
  · exact neutral_pure _
  · exact neutral_throw _

theorem neutral_bindNode (label : Label) (id : NodeId) : Neutral (bindNode label id) :=
  neutral_modify fun _ => rfl

theorem neutral_write (entry : LogEntry) : Neutral (write entry) := neutral_modify fun _ => rfl

theorem neutral_hrtfKind (data : Dataset) : Neutral (onGraph (Graph.hrtfKind data)) := by
  intro s
  rw [run_onGraph, Graph.hrtfKind]
  split <;> rfl

end Action

namespace Plan

variable {α β : Type} (set : Setter)

theorem run_pure (a : α) : (pure a : Plan α).run set = pure a := rfl

theorem run_bind (p : Plan α) (f : α → Plan β) :
    (p >>= f).run set = p.run set >>= fun a => (f a).run set := by
  change (p.bind f).run set = _
  induction p with
  | done r =>
    cases r with
    | ok a => exact (pure_bind a fun a => (f a).run set).symm
    | error e => rfl
  | look next ih =>
    rw [bind, run, run, bind_assoc]
    exact congrArg _ (funext ih)
  | note g next ih => rw [bind, run, run, bind_assoc, ih]
  | deed d next ih =>
    rw [bind, run, run, bind_assoc]
    exact congrArg _ (funext ih)
  | set id p v next ih =>
    rw [bind, run, run, bind_assoc]
    exact congrArg _ (funext ih)

theorem run_attempt (p : Plan α) : p.attempt.run set = (p.run set).attempt := by
  refine Action.ext fun s => ?_
  induction p generalizing s with
  | done r => cases r <;> rfl
  | look next ih => exact ih s s
  | note f next ih => exact ih _
  | deed d next ih => exact ih _ _
  | set id p v next ih => exact ih _ _

/-- A plan that only passes an outcome on is what it begins with. -/
theorem run_attempt_settle (a : Action α) (s : Session) :
    (do (done (← a.attempt)).run set : Action α).run s = a.run s := by
  rw [run_bind_ok (SpatialAudio.run_attempt a s), run, run_settle]
  rfl

theorem run_act (d : Deed α) : (act d).run set = .onGraph d.run :=
  Action.ext (run_attempt_settle set (.onGraph d.run))

theorem run_assign (id : NodeId) (p : PropertyId) (v : PropertyValue) :
    (assign id p v).run set = set id p v := Action.ext (run_attempt_settle set (set id p v))

theorem run_quiet {a : Action α} (h : a.Neutral) : (quiet a).run set = a := by
  refine Action.ext fun s => ?_
  rw [quiet, run, run_bind_ok (run_get s), run,
    run_bind_ok (run_modify _ s), run, run_settle, ← h s]
  rfl

end Plan

/-! ## Panners -/

open Plan

/-- The plan of `configureStandardMap`. -/
def standardMapPlan (id : NodeId) (channels : Nat) : Plan Unit :=
  match ChannelMap.standard? channels with
  | none => done (.error (.refused (.invalidChannelCount channels)))
  | some angles => do
    quiet (.read fun g => do (← g.node id).kind.expect .amplitudePanner)
    assign id .channelMap (.floatArray angles)
    assign id .skipCenter (.int 1)
    assign id .skipLfe (.int 1)

/-- The plan of `Multipanner.transition`. -/
def transitionPlan (id : NodeId) (strategy : Strategy) : Plan Unit := do
  let m ← quiet (.read fun g => Multipanner.find g id)
  act (.disconnectInterior m.hrtf 0)
  act (.disconnectInterior m.amplitude 0)
  let active ← match strategy with
    | .hrtf => pure m.hrtf
    | _ => do
      standardMapPlan m.amplitude strategy.channels
      act (.recomputeMap m.amplitude)
      pure m.amplitude
  let width ← quiet (.read fun g => g.outputCount active)
  act (.arrange m.output (.symmetric width))
  act (.connectInterior active 0 m.output 0)
  act (.adopt id strategy)

theorem run_standardMapPlan (set : Setter) (id : NodeId) (channels : Nat) :
    (standardMapPlan id channels).run set = configureStandardMap set id channels := by
  rw [standardMapPlan, configureStandardMap]
  cases ChannelMap.standard? channels with
  | none => rfl
  | some angles =>
    simp only [Plan.run_bind, run_quiet set (Action.neutral_read _), run_assign]

theorem run_transitionPlan (set : Setter) (id : NodeId) (strategy : Strategy) :
    (transitionPlan id strategy).run set = Multipanner.transition set id strategy := by
  rw [transitionPlan, Multipanner.transition]
  cases strategy <;>
    simp only [Plan.run_bind, run_quiet set (Action.neutral_read _), run_act, run_pure,
      run_standardMapPlan] <;> rfl

/-! ## Commands -/

/-- The plan of `Blueprint.build`. -/
def Blueprint.plan : Blueprint → Plan (NodeKind × Option Nat)
  | ringSink capacity channels => do
    let ring ← act (.addRing capacity)
    return (.ringSink (.new ring channels), some ring)
  | b => quiet b.build

/-- The plan of `associateAs`. -/
def associatePlan (label : Label) (kind : NodeKind) (ring : Option Nat) (layout : Layout) :
    Plan NodeId := do
  let id ← act (.associate kind layout)
  quiet do
    .bindNode label id
    match ring with
    | some ring => modify fun s => { s with sinks := s.sinks.bind label ring }
    | none => pure ()
    return id

/-- What a command does. -/
def Command.plan : Command → Plan Answer
  | .associate label blueprint layout => do
    let (kind, ring) ← blueprint.plan
    return .node (← associatePlan label kind ring layout)
  | .connect source outputSlot target inputSlot => do
    let source ← quiet (.node source)
    let target ← quiet (.node target)
    act (.connect source outputSlot target inputSlot)
    return .done
  | .disconnect label slot => do
    let id ← quiet (.node label)
    act (.disconnect id slot)
    return .done
  | .remove label => do
    let id ← quiet (.node label)
    act (.remove id)
    return .done
  | .set label p v => do
    let id ← quiet (.node label)
    assign id p v
    return .done
  | .reset label p => do
    let id ← quiet (.node label)
    let property ← quiet (.read fun g => g.property id p)
    assign id p property.default
    return .done
  | .edit label change => do
    let id ← quiet (.node label)
    let (layout, slot) ← quiet (.read fun g => do Graph.editLayout (← g.node id).layout change)
    act (.arrange id layout)
    match slot with
    | some slot => return .slot slot
    | none => return .done
  | .process label => do
    let id ← quiet (.node label)
    act (.pull id)
    return .done
  | .standardMap label channels => do
    let id ← quiet (.node label)
    standardMapPlan id channels
    return .done
  | .recomputeMap label => do
    let id ← quiet (.node label)
    act (.recomputeMap id)
    return .done
  | .markRecompute label => do
    let id ← quiet (.node label)
    act (.markRecompute id)
    return .done
  | .observe phase label p tag vetoAbove propagate steps => do
    let id ← quiet (.node label)
    act (.observe phase id p (.script ⟨tag, vetoAbove, propagate, steps⟩))
    return .done
  -- all that is left are questions
  | c => quiet (perform (fun _ _ _ => pure ()) c)

theorem Blueprint.run_plan (set : Setter) (b : Blueprint) : b.plan.run set = b.build := by
  cases b with
  | samplePlayer samples rate => exact run_quiet set fun _ => rfl
  | hrtfPanner data =>
    exact run_quiet set ((Action.neutral_dataset data).bind fun d =>
      (Action.neutral_hrtfKind d).bind fun k => Action.neutral_pure _)
  | ringSink capacity channels =>
    rw [plan, build, Plan.run_bind, run_act]
    rfl
  | _ => exact run_quiet set (Action.neutral_pure _)

theorem run_associatePlan (set : Setter) (label : Label) (kind : NodeKind) (ring : Option Nat)
    (layout : Layout) :
    (associatePlan label kind ring layout).run set = associateAs label kind ring layout := by
  have hneutral : ∀ id, Action.Neutral (do
      Action.bindNode label id
      match ring with
      | some ring => modify fun s : Session => { s with sinks := s.sinks.bind label ring }
      | none => pure ()
      return id : Action NodeId) := by
    intro id
    refine (Action.neutral_bindNode label id).bind fun _ => ?_
    cases ring with
    | some ring => exact (Action.neutral_modify fun _ => rfl).bind fun _ => Action.neutral_pure id
    | none => exact Action.neutral_pure id
  rw [associatePlan, associateAs, Plan.run_bind, run_act]
  simp only [run_quiet set (hneutral _)]
  rfl

theorem onGraph_edit (id : NodeId) (e : LayoutEdit) : Action.onGraph (Graph.edit id e) = (do
    let (layout, slot) ← Action.read fun g => do Graph.editLayout (← g.node id).layout e
    Action.onGraph (GraphM.update fun g => g.applyLayout id layout)
    return slot) := by
  simp only [Graph.edit, Action.onGraph_bind]
  rfl

theorem neutral_bindInterior (label : Label) (m : Multipanner) :
    (bindInterior label m).Neutral :=
  (Action.neutral_bindNode _ _).bind fun _ => (Action.neutral_bindNode _ _).bind fun _ =>
    (Action.neutral_bindNode _ _).bind fun _ => Action.neutral_bindNode _ _

/-- **A command carries out its plan.** -/
theorem Command.run_plan (set : Setter) (c : Command) : c.plan.run set = perform set c := by
  cases c with
  | associate label blueprint layout =>
    rw [plan, perform, Plan.run_bind, Blueprint.run_plan]
    simp only [Plan.run_bind, run_associatePlan]
    rfl
  | edit label change =>
    rw [plan, perform]
    simp only [Plan.run_bind, run_quiet set (Action.neutral_node _), run_quiet set (Action.neutral_read _),
      run_act, onGraph_edit, bind_assoc, pure_bind]
    refine congrArg _ (funext fun id => congrArg _ (funext fun edited => congrArg _ (funext fun _ => ?_)))
    cases edited.2 <;> rfl
  | inspect label p query =>
    exact run_quiet set ((Action.neutral_node label).bind fun _ => Action.neutral_read _)
  | ask label query =>
    exact run_quiet set ((Action.neutral_node label).bind fun _ => Action.neutral_read _)
  | multipanner label binding =>
    refine run_quiet set ((Action.neutral_node label).bind fun id =>
      (Action.neutral_read _).bind fun m => ?_)
    cases binding with
    | some stem => exact (neutral_bindInterior stem m).bind fun _ => Action.neutral_pure _
    | none => exact Action.neutral_pure _
  | summary => exact run_quiet set fun _ => rfl
  | checkConsistency =>
    exact run_quiet set ((Action.neutral_read _).bind fun _ => Action.neutral_pure _)
  | _ =>
    rw [plan, perform]
    simp only [Plan.run_bind, run_quiet set (Action.neutral_node _), run_quiet set (Action.neutral_read _),
      run_act, run_assign, run_standardMapPlan]
    rfl

/-! ## Observers -/

/-- The plan of `runSteps`. -/
def stepsPlan (propagate : Bool) : List Command → Plan Unit
  | [] => pure ()
  | c :: rest => do
    match ← c.plan.attempt with
    | .ok answer =>
      quiet (.write (.nested answer))
      stepsPlan propagate rest
    | .error (.refused e) =>
      quiet (.write (.nested (.refused e)))
      if propagate then done (.error (.refused e)) else stepsPlan propagate rest
    | .error (.aborted a) => done (.error (.aborted a))

/-- What a script does before its steps: it writes into the log, and may refuse the value. -/
def Script.announce (script : Script) (event : Event) : Action Unit := do
  let current := (← get).graph.value event.node event.property
  match event.value with
  | some value =>
    .write (.before script.tag value current)
    match script.vetoAbove with
    | some bound => .read fun _ => veto event.property value bound
    | none => pure ()
  | none => .write (.after script.tag current)

/-- The plan of `Script.run`. -/
def Script.plan (script : Script) (event : Event) : Plan Unit := do
  quiet (script.announce event)
  stepsPlan script.propagate script.steps

/-- What an observer does about an event. -/
def Observer.plan (event : Event) : Observer → Plan Unit
  | .markRecompute => act (.markRecompute event.node)
  | .forwardToPanners => do
    let value ← quiet (.read fun g => g.value event.node event.property)
    let m ← quiet (.read fun g => Multipanner.find g event.node)
    assign m.hrtf event.property value
    assign m.amplitude event.property value
  | .forwardToOutput => do
    let value ← quiet (.read fun g => g.value event.node event.property)
    let m ← quiet (.read fun g => Multipanner.find g event.node)
    assign m.output event.property value
  | .admitStrategy => quiet (react (fun _ _ _ => pure ()) event .admitStrategy)
  | .applyStrategy => do
    let strategy ← quiet (.read fun g => do Strategy.ofInt (← g.int event.node .strategy))
    transitionPlan event.node strategy
  | .script s => s.plan event

theorem run_stepsPlan (set : Setter) (propagate : Bool) (steps : List Command) :
    (stepsPlan propagate steps).run set = runSteps set propagate steps := by
  induction steps with
  | nil => rfl
  | cons c rest ih =>
    rw [stepsPlan, runSteps, Plan.run_bind, Plan.run_attempt, Command.run_plan]
    refine congrArg _ (funext fun outcome => ?_)
    match outcome with
    | .ok answer =>
      simp only [Plan.run_bind, run_quiet set (Action.neutral_write _), ih]
    | .error (.refused e) =>
      simp only [Plan.run_bind, run_quiet set (Action.neutral_write _)]
      cases propagate with
      | true => rfl
      | false => rw [← ih]; rfl
    | .error (.aborted a) => rfl

theorem Script.neutral_announce (script : Script) (event : Event) :
    (script.announce event).Neutral := by
  refine Action.neutral_get.bind fun s => ?_
  cases event.value with
  | none => exact Action.neutral_write _
  | some value =>
    refine (Action.neutral_write _).bind fun _ => ?_
    cases script.vetoAbove with
    | none => exact Action.neutral_pure ()
    | some bound => exact Action.neutral_read _

theorem Script.run_eq (set : Setter) (script : Script) (event : Event) :
    script.run set event = script.announce event >>= fun _ =>
      runSteps set script.propagate script.steps := by
  rw [Script.run, announce, bind_assoc]
  refine congrArg _ (funext fun s => ?_)
  cases event.value with
  | none => rfl
  | some value => cases script.vetoAbove <;> simp only [bind_assoc, pure_bind]

theorem Script.run_plan (set : Setter) (script : Script) (event : Event) :
    (script.plan event).run set = script.run set event := by
  rw [plan, Plan.run_bind, run_quiet set (script.neutral_announce event), run_stepsPlan, run_eq]

/-- **An observer carries out its plan.** -/
theorem Observer.run_plan (set : Setter) (event : Event) (o : Observer) :
    (o.plan event).run set = react set event o := by
  cases o with
  | markRecompute => exact run_act set _
  | admitStrategy =>
    refine run_quiet set ?_
    rw [react]
    split
    · exact Action.neutral_read _
    · exact Action.neutral_pure ()
  | script s => exact s.run_plan set event
  | _ =>
    rw [plan, react]
    simp only [Plan.run_bind, run_quiet set (Action.neutral_read _), run_assign, run_transitionPlan]

/-! ## Steps -/

/-- The plan of `Creation.run`. -/
def Creation.plan (label : Label) : Creation → Plan NodeId
  | sine => associatePlan label (.sine ⟨0⟩) none .source
  | samplePlayer samples => look fun s =>
    associatePlan label (.samplePlayer (.new samples s.graph.sampleRate)) none .source
  | gain channels => associatePlan label .gain none (.symmetric channels)
  | amplitudePanner => do
    let id ← act (.associate (.amplitudePanner .new) (.spread 0))
    act (.recomputeMap id)
    quiet (.bindNode label id)
    return id
  | hrtfPanner data => do
    let d ← quiet (.dataset data)
    let kind ← quiet (.onGraph (Graph.hrtfKind d))
    let id ← act (.associate kind (.spread 2))
    act (.observe .after id .azimuth .markRecompute)
    act (.observe .after id .elevation .markRecompute)
    quiet (.bindNode label id)
    return id
  | multipanner data => do
    let d ← quiet (.dataset data)
    let id ← act (.assemble d)
    transitionPlan id .stereo
    quiet (.bindNode label id)
    return id
  | ringSink channels blocks => do
    let ring ← act (.addRing (max channels 1 * blockSize * max blocks 1))
    associatePlan label (.ringSink (.new ring (max channels 1))) (some ring) (.sink (max channels 1))

/-- The plan of `transact`. -/
def transactPlan : List Command → (answers : List Answer) → Plan Report
  | [], answers => return .results answers.reverse
  | c :: rest, answers => do
    match ← c.plan.attempt with
    | .ok a => transactPlan rest (a :: answers)
    | .error (.refused e) => return .interrupted e answers.reverse
    | .error (.aborted a) => done (.error (.aborted a))

/-- The plan of `pullTimes`. -/
def pullsPlan (id : NodeId) : Nat → Plan Unit
  | 0 => pure ()
  | n + 1 => do
    act (.pull id)
    pullsPlan id n

/-- What a step does. -/
def Step.plan : Step → Plan Report
  | command c => return .answer (← c.plan)
  | create label creation => return .answer (.node (← creation.plan label))
  | render label out probe => do
    quiet (.settle (Memory.reserve out blockBytes))
    let id ← quiet (.node label)
    pullsPlan id 1
    let outputs ← quiet (.read fun g => g.outputBlocks id)
    let blocks := (List.range out).map fun i => outputs.getD i Block.silent
    return .rendered outputs.length (blocks.map fun b => probe.read b.toArray)
  | process label times => do
    let id ← quiet (.node label)
    pullsPlan id times
    return .answer .done
  | takeFaults => look fun s => do
    act .clearFaults
    return .faults s.graph.faults
  | drain label limit probe => do
    let number ← quiet (.named Session.sinks label)
    look fun s => do
      let ring := (s.graph.rings[number]?).getD (Ring.new 0)
      let (samples, ring) := ring.pop (limit.getD ring.queued.length)
      act (.refill number ring)
      return .drained samples.length (probe.read samples.toArray) ring.queued.length
  | transaction commands => transactPlan commands []
  -- all that is left touches no graph
  | step => quiet step.run

theorem Creation.run_plan (label : Label) (creation : Creation) :
    (creation.plan label).run Session.set = creation.run label := by
  cases creation with
  | samplePlayer samples =>
    rw [plan, Creation.run, Plan.run]
    simp only [run_associatePlan]
  | amplitudePanner =>
    rw [plan, Creation.run, Graph.createAmplitudePanner, Action.onGraph_bind]
    simp only [Plan.run_bind, run_act, run_quiet _ (Action.neutral_bindNode _ _), bind_assoc,
      Action.onGraph_bind]
    rfl
  | hrtfPanner data =>
    rw [plan, Creation.run]
    simp only [Graph.createHrtfPanner, Plan.run_bind, run_act,
      run_quiet _ (Action.neutral_bindNode _ _), run_quiet _ (Action.neutral_dataset _),
      run_quiet _ (Action.neutral_hrtfKind _), bind_assoc, Action.onGraph_bind]
    rfl
  | multipanner data =>
    rw [plan, Creation.run]
    simp only [Multipanner.create, Plan.run_bind, run_act, run_transitionPlan,
      run_quiet _ (Action.neutral_bindNode _ _), run_quiet _ (Action.neutral_dataset _), bind_assoc]
    rfl
  | ringSink channels blocks =>
    rw [plan, Creation.run]
    simp only [Plan.run_bind, run_act, run_associatePlan]
    rfl
  | _ => rw [plan, Creation.run, run_associatePlan]

theorem run_transactPlan (commands : List Command) (answers : List Answer) :
    (transactPlan commands answers).run Session.set = transact commands answers := by
  induction commands generalizing answers with
  | nil => rfl
  | cons c rest ih =>
    rw [transactPlan, transact, Plan.run_bind, Plan.run_attempt, Command.run_plan]
    refine congrArg _ (funext fun outcome => ?_)
    match outcome with
    | .ok a => exact ih _
    | .error (.refused e) => rfl
    | .error (.aborted a) => rfl

theorem run_pullsPlan (set : Setter) (id : NodeId) (times : Nat) :
    (pullsPlan id times).run set = pullTimes id times := by
  induction times with
  | zero => rfl
  | succ times ih =>
    rw [pullsPlan, pullTimes, Plan.run_bind, run_act]
    simp only [ih]
    rfl

/-- **A step carries out its plan.** -/
theorem Step.run_plan (step : Step) : step.plan.run Session.set = step.run := by
  cases step with
  | command c =>
    rw [plan, Step.run, Plan.run_bind, Command.run_plan]
    rfl
  | create label creation =>
    rw [plan, Step.run, Plan.run_bind, Creation.run_plan]
    rfl
  | foreign label i =>
    exact run_quiet _ ((Action.neutral_bindNode _ _).bind fun _ => Action.neutral_pure _)
  | writeFile path content =>
    refine run_quiet _ ((Action.neutral_settle _).bind fun bytes => ?_)
    exact Action.Neutral.bind (Action.neutral_modify fun _ => rfl) fun _ => Action.neutral_pure _
  | load label source =>
    refine run_quiet _ fun s => ?_
    rw [Step.run, run_bind_ok (run_get s), SpatialAudio.run_bind, run_settle]
    cases s.library.load s.files s.graph.sampleRate source with
    | error e => rfl
    | ok loaded => exact ((Action.neutral_dataset label).bind fun _ => Action.neutral_pure _) _
  | render label out probe =>
    rw [plan, Step.run]
    simp only [Plan.run_bind, run_quiet _ (Action.neutral_settle _), run_pullsPlan,
      run_quiet _ (Action.neutral_node _), run_quiet _ (Action.neutral_read _)]
    rfl
  | process label times =>
    rw [plan, Step.run]
    simp only [Plan.run_bind, run_quiet _ (Action.neutral_node _), run_pullsPlan]
    rfl
  | takeFaults =>
    rw [plan, Step.run, Plan.run]
    simp only [Plan.run_bind, run_act]
    rfl
  | drain label limit probe =>
    rw [plan, Step.run, Plan.run_bind, run_quiet _ (Action.neutral_named _ _)]
    refine congrArg _ (funext fun number => ?_)
    rw [Plan.run]
    simp only [Plan.run_bind, run_act]
    rfl
  | transaction commands => exact run_transactPlan commands []
  | readLog => exact run_quiet _ fun _ => rfl
  | rate => exact run_quiet _ fun _ => rfl

end SpatialAudio
