import SpatialAudio.Node.AmplitudePanner
import SpatialAudio.Node.HrtfPanner
import SpatialAudio.Node.Multipanner
import SpatialAudio.Node.Oscillator
import SpatialAudio.Node.RingSink
import SpatialAudio.Node.SamplePlayer

/-!
# Node/Kind — all kinds of nodes

`NodeKind` is what a node is together with the state it keeps from block to block.  The graph asks
it for its properties, for the layout it wants (`propose`), tells it that a layout was applied
(`layoutApplied`), and has it process a block.
-/

namespace SpatialAudio

/-- What a node is, and the state it keeps. -/
inductive NodeKind where
  | sine (o : Oscillator)
  | samplePlayer (p : SamplePlayer)
  | gain
  | amplitudePanner (p : AmplitudePanner)
  | hrtfPanner (p : HrtfPanner)
  | multipanner (p : Multipanner)
  | ringSink (s : RingSink)

namespace NodeKind

/-- The type of a node. -/
def type : NodeKind → NodeType
  | sine _ => .sine
  | samplePlayer _ => .samplePlayer
  | gain => .gain
  | amplitudePanner _ => .amplitudePanner
  | hrtfPanner _ => .hrtfPanner
  | multipanner _ => .multipanner
  | ringSink _ => .ringSink

/-- The properties a node starts with. -/
def properties : NodeKind → Properties
  | sine _ => Oscillator.properties
  | samplePlayer _ => SamplePlayer.properties
  | gain | ringSink _ => Properties.standard
  | amplitudePanner _ => AmplitudePanner.properties
  | hrtfPanner _ => HrtfPanner.properties
  | multipanner _ => Multipanner.properties

/-! ## Casts -/

/-- Refuses a node of another type. -/
def expect (expected : NodeType) (k : NodeKind) : Except Error Unit :=
  if k.type = expected then .ok () else .error (.typeMismatch expected k.type)

/-- The state of an oscillator; refuses all other nodes. -/
def asOscillator : NodeKind → Except Error Oscillator
  | sine o => .ok o
  | k => .error (.typeMismatch .sine k.type)

/-- The state of a sample player; refuses all other nodes. -/
def asSamplePlayer : NodeKind → Except Error SamplePlayer
  | samplePlayer p => .ok p
  | k => .error (.typeMismatch .samplePlayer k.type)

/-- The state of an amplitude panner; refuses all other nodes. -/
def asAmplitudePanner : NodeKind → Except Error AmplitudePanner
  | amplitudePanner p => .ok p
  | k => .error (.typeMismatch .amplitudePanner k.type)

/-- The state of an HRTF panner; refuses all other nodes. -/
def asHrtfPanner : NodeKind → Except Error HrtfPanner
  | hrtfPanner p => .ok p
  | k => .error (.typeMismatch .hrtfPanner k.type)

/-- The state of a multipanner; refuses all other nodes. -/
def asMultipanner : NodeKind → Except Error Multipanner
  | multipanner p => .ok p
  | k => .error (.typeMismatch .multipanner k.type)

/-- The state of a sink; refuses all other nodes. -/
def asRingSink : NodeKind → Except Error RingSink
  | ringSink s => .ok s
  | k => .error (.typeMismatch .ringSink k.type)

/-! ## Layouts -/

/-- Before a block: an amplitude panner whose map is out of date stages a new one and asks for the
layout it needs. -/
def propose (k : NodeKind) (props : Properties) : NodeKind × Option Layout :=
  match k with
  | amplitudePanner p =>
    if props.anyModified AmplitudePanner.mapProperties then
      let (p, layout) := p.stage props
      (amplitudePanner p, some layout)
    else (k, none)
  | _ => (k, none)

/-- A layout was applied to the node. -/
def layoutApplied : NodeKind → NodeKind
  | amplitudePanner p => amplitudePanner p.commit
  | k => k

/-! ## Blocks -/

/-- Passes every input on to the output of the same number; further outputs are silent. -/
def passThrough : (inputs outputs : List Block) → List Block
  | _, [] => []
  | [], _ :: outputs => Block.silent :: passThrough [] outputs
  | input :: inputs, _ :: outputs => input :: passThrough inputs outputs

/-- What a node leaves behind after a block. -/
structure Processed where
  kind : NodeKind
  outputs : List Block
  /-- The rings of the graph; only a sink writes into one. -/
  rings : List Ring

/-- Processes one block. -/
def process (k : NodeKind) (rate : Nat) (props : Properties) (inputs outputs : List Block)
    (rings : List Ring) : Except Abort Processed :=
  match k with
  | sine o =>
    let (o, outputs) := o.process rate props outputs
    .ok ⟨sine o, outputs, rings⟩
  | samplePlayer p =>
    let (p, outputs) := p.process rate props outputs
    .ok ⟨samplePlayer p, outputs, rings⟩
  | gain => .ok ⟨gain, passThrough inputs outputs, rings⟩
  | amplitudePanner p => .ok ⟨amplitudePanner p, p.process props inputs outputs, rings⟩
  | hrtfPanner p => do
    let (p, outputs) ← p.process props inputs outputs
    return ⟨hrtfPanner p, outputs, rings⟩
  | multipanner p => .ok ⟨multipanner p, outputs, rings⟩
  | ringSink s =>
    match rings[s.ring]? with
    | some ring => do
      let (sink, ring) ← s.deliver inputs ring
      return ⟨ringSink sink, outputs, rings.set s.ring ring⟩
    | none => .ok ⟨ringSink s, outputs, rings⟩

end NodeKind

end SpatialAudio
