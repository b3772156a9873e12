import SpatialAudio.Block
import SpatialAudio.Hrtf.Convolver
import SpatialAudio.Property.Properties

/-!
# Node/HrtfPanner — panning a mono signal for headphones

The panner convolves its input with the responses of its direction.  A change of the direction only
leaves a mark; the responses are looked up when the next block is processed.
-/

namespace SpatialAudio

/-- A panner for headphones. -/
structure HrtfPanner where
  convolver : Convolver
  /-- The direction changed since the responses were looked up. -/
  needsRecompute : Bool

namespace HrtfPanner

/-- A panner that faces straight ahead. -/
def new (data : Dataset) : Except Abort HrtfPanner := do
  return ⟨← Convolver.new data blockSize, false⟩

/-- A panner has a direction. -/
def properties : Properties :=
  ((Properties.standard.insert .azimuth (.finite "azimuth" 0)).insert
    .elevation (.float "elevation" 0 (-90) 90)).insert
    .shouldCrossfade (.bool "should_crossfade" true)

/-- Notes that the direction changed. -/
def markRecompute (p : HrtfPanner) : HrtfPanner := { p with needsRecompute := true }

/-- Looks the responses up if the direction changed. -/
def refresh (p : HrtfPanner) (props : Properties) : Except Abort HrtfPanner := do
  if p.needsRecompute then
    let convolver ← p.convolver.setDirection (props.float .elevation) (props.float .azimuth)
      (props.flag .shouldCrossfade)
    return ⟨convolver, false⟩
  else return p

/-- Convolves one block into two blocks. -/
def convolve (p : HrtfPanner) (input left right : Block) : HrtfPanner × Block × Block :=
  let out := p.convolver.process input.toArray left.toArray right.toArray
  ({ p with convolver := out.1 },
    ⟨out.2.1, by simp [out, Convolver.process]⟩, ⟨out.2.2, by simp [out, Convolver.process]⟩)

/-- Convolves the first input into the first two outputs; further outputs keep what they hold. -/
def process (p : HrtfPanner) (props : Properties) (inputs outputs : List Block) :
    Except Abort (HrtfPanner × List Block) := do
  let p ← p.refresh props
  match outputs with
  | left :: right :: rest =>
    let (p, left, right) := p.convolve (inputs.headD Block.silent) left right
    return (p, left :: right :: rest)
  | _ => return (p, outputs)

end HrtfPanner

end SpatialAudio
