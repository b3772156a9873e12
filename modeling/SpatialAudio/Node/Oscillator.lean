import SpatialAudio.Arithmetic.Single
import SpatialAudio.Block
import SpatialAudio.Property.Properties

/-!
# Node/Oscillator — a sine oscillator

The phase is counted in cycles and stays within one; the frequency is read once per block.
-/

namespace SpatialAudio

/-- A sine oscillator. -/
structure Oscillator where
  phase : Float32

namespace Oscillator

/-- The phase one sample later. -/
def advance (increment phase : Float32) : Float32 :=
  let next := phase + increment
  next - next.floor

/-- The next `count` samples and the phase behind them. -/
def wave (increment : Float32) : (count : Nat) → (phase : Float32) → List Float32 × Float32
  | 0, phase => ([], phase)
  | count + 1, phase =>
    let (rest, stop) := wave increment count (advance increment phase)
    ((phase * Single.tau).sin :: rest, stop)

/-- An oscillator has a frequency. -/
def properties : Properties :=
  Properties.standard.insert .frequency (.float "frequency" 440 0 Single.greatest)

/-- All outputs carry the same wave; without outputs time stands still. -/
def process (o : Oscillator) (rate : Nat) (props : Properties) (outputs : List Block) :
    Oscillator × List Block :=
  if outputs.isEmpty then (o, outputs)
  else
    let (samples, phase) := wave (props.float .frequency / Single.ofCount rate) blockSize o.phase
    let block := Block.ofList samples
    (⟨phase⟩, outputs.map fun _ => block)

end Oscillator

end SpatialAudio
