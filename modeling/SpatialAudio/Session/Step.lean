import SpatialAudio.Session.Change

/-!
# Session/Step — running a session

A session is a list of steps, each of which gives a `Report`.  A refusal is reported and the next
step runs, with all that was changed before it; an abort ends the session.
-/

namespace SpatialAudio

/-- A node to be made with the layout and observers its kind calls for. -/
inductive Creation where
  | sine
  | samplePlayer (samples : Array Float32)
  | gain (channels : Nat)
  | amplitudePanner
  | hrtfPanner (data : Label)
  | multipanner (data : Label)
  /-- A sink into a queue for `blocks` blocks. -/
  | ringSink (channels blocks : Nat)

/-- What can be done in a session. -/
inductive Step where
  | command (c : Command)
  | create (label : Label) (creation : Creation)
  /-- Names a handle of the first generation that some other graph gave out. -/
  | foreign (label : Label) (index : Nat)
  | writeFile (path : DatasetPath) (content : DatasetContent)
  | load (label : Label) (source : DatasetSource)
  /-- Pulls a block and copies the outputs of the node. -/
  | render (node : Label) (out : Nat) (probe : Probe)
  | process (node : Label) (times : Nat)
  | takeFaults
  /-- Takes samples out of the queue of a sink, all of them without a limit. -/
  | drain (sink : Label) (limit : Option Nat) (probe : Probe)
  /-- Carries out commands up to the first that is refused. -/
  | transaction (commands : List Command)
  | readLog
  | rate

/-- Makes a node. -/
def Creation.run (label : Label) : Creation → Action NodeId
  | sine => associateAs label (.sine ⟨0⟩) none .source
  | samplePlayer samples => do
    let rate := (← get).graph.sampleRate
    associateAs label (.samplePlayer (.new samples rate)) none .source
  | gain channels => associateAs label .gain none (.symmetric channels)
  | amplitudePanner => do
    let id ← .onGraph Graph.createAmplitudePanner
    .bindNode label id
    return id
  | hrtfPanner data => do
    let d ← .dataset data
    let id ← .onGraph (Graph.createHrtfPanner d)
    .bindNode label id
    return id
  | multipanner data => do
    let d ← .dataset data
    let id ← Multipanner.create Session.set d
    .bindNode label id
    return id
  | ringSink channels blocks => do
    let channels := max channels 1
    let ring ← .onGraph (Graph.addRing (channels * blockSize * max blocks 1))
    associateAs label (.ringSink (.new ring channels)) (some ring) (.sink channels)

/-- Carries out commands up to the first that is refused. -/
def transact : List Command → (done : List Answer) → Action Report
  | [], done => return .results done.reverse
  | c :: rest, done => do
    match ← (perform Session.set c).attempt with
    | .ok a => transact rest (a :: done)
    | .error (.refused e) => return .interrupted e done.reverse
    | .error (.aborted a) => throw (.aborted a)

/-- The bytes of one channel of a block. -/
def blockBytes : Nat := blockSize * Memory.sampleSize

/-- Pulls a block several times. -/
def pullTimes (id : NodeId) : Nat → Action Unit
  | 0 => pure ()
  | n + 1 => do
    .onGraph (GraphM.update fun g => g.pull id)
    pullTimes id n

/-- Takes one step. -/
def Step.run : Step → Action Report
  | command c => return .answer (← perform Session.set c)
  | create label creation => return .answer (.node (← creation.run label))
  | foreign label i => do
    .bindNode label ⟨i, 0⟩
    return .answer (.node ⟨i, 0⟩)
  | writeFile path content => do
    let bytes ← .settle content.encoded
    modify fun s => { s with files := s.files.write path bytes }
    return .answer .done
  | load label source => do
    let s ← get
    let (number, library) ← .settle (s.library.load s.files s.graph.sampleRate source)
    let sameAs := (s.datasets.entries.filter fun e => e.2 = number).map (·.1)
    set { s with library, datasets := s.datasets.bind label number }
    let d ← .dataset label
    return .loaded d.sampleRate d.responseLength sameAs
  | render label out probe => do
    .settle (Memory.reserve out blockBytes)
    let id ← .node label
    pullTimes id 1
    let outputs ← .read fun g => g.outputBlocks id
    let blocks := (List.range out).map fun i => outputs.getD i Block.silent
    return .rendered outputs.length (blocks.map fun b => probe.read b.toArray)
  | process label times => do
    pullTimes (← .node label) times
    return .answer .done
  | takeFaults => do
    let (faults, graph) := (← get).graph.takeFaults
    modify fun s => { s with graph }
    return .faults faults
  | drain label limit probe => do
    let number ← .named Session.sinks label
    let g := (← get).graph
    let ring := (g.rings[number]?).getD (Ring.new 0)
    let (samples, ring) := ring.pop (limit.getD ring.queued.length)
    modify fun s => { s with graph := { g with rings := g.rings.set number ring } }
    return .drained samples.length (probe.read samples.toArray) ring.queued.length
  | transaction commands => transact commands []
  | readLog => do
    let entries := (← get).log
    modify fun s => { s with log := [] }
    return .log entries
  | rate => return .answer (.count (← get).graph.sampleRate)

/-- Takes one step of a session. -/
def Session.step (s : Session) (step : Step) : Report × Session :=
  match step.run.run s with
  | (.ok report, s) => (report, s)
  | (.error (.refused e), s) => (.answer (.refused e), s)
  | (.error (.aborted a), s) => (.aborted a, s)

/-- Runs a session to its end, or to the first abort. -/
def Session.run (s : Session) : List Step → List Report
  | [] => []
  | step :: rest =>
    match s.step step with
    | (.aborted a, _) => [.aborted a]
    | (report, s) => report :: s.run rest

end SpatialAudio
