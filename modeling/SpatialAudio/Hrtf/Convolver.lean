import SpatialAudio.Hrtf.Response

/-!
# Hrtf/Convolver — convolving a mono signal with the responses of one direction, block by block

The **history** holds the last `responseLength` samples of earlier blocks followed by the current
block, so that output sample `i` of a block is one weighted sum over the history.  A change of
direction may be faded in over the next block: `fading` asks for it.
-/

namespace SpatialAudio

/-- The state of one convolution. -/
structure Convolver where
  data : Dataset
  blockLength : Nat
  history : Array Float32
  left : Array Float32
  right : Array Float32
  /-- The left response to fade from. -/
  oldLeft : Array Float32
  /-- The right response to fade from. -/
  oldRight : Array Float32
  /-- The next block goes over from the old to the current responses. -/
  fading : Bool

namespace Convolver

/-- Turns to a direction; with `crossfade` the next block fades to it from the current one. -/
def setDirection (c : Convolver) (elevation azimuth : Float32) (crossfade : Bool) :
    Except Abort Convolver := do
  let (left, right) ← c.data.stereo elevation azimuth c.data.responseLength
  return { c with
    left, right
    oldLeft := if crossfade then c.left else c.oldLeft
    oldRight := if crossfade then c.right else c.oldRight
    fading := crossfade }

/-- A convolver that faces straight ahead; its history must have room. -/
def new (data : Dataset) (blockLength : Nat) : Except Abort Convolver := do
  let history ← Memory.samples (data.responseLength + blockLength) 0
  let silence := Array.replicate data.responseLength 0
  setDirection
    { data, blockLength, history
      left := silence, right := silence, oldLeft := silence, oldRight := silence
      fading := false }
    0 0 false

/-- Adds `response[j] * history[top - j]` for the `count` indices from `j` on. -/
def sumOnto (response history : Array Float32) (top : Nat) :
    (count j : Nat) → Float32 → Float32
  | 0, _, acc => acc
  | count + 1, j, acc =>
    sumOnto response history top count (j + 1)
      (acc + response.getD j 0 * history.getD (top - j) 0)

/-- Output sample `i` of the current block under one response. -/
def outputAt (c : Convolver) (response : Array Float32) (i : Nat) : Float32 :=
  sumOnto response c.history (c.data.responseLength + i) c.data.responseLength 0 Single.negZero

/-- The history after a block; the block is cut or filled up with zeros to its length. -/
def push (c : Convolver) (input : Array Float32) : Convolver :=
  { c with
    history := c.history.extract c.blockLength c.history.size
      ++ input.extract 0 c.blockLength ++ Array.replicate (c.blockLength - input.size) 0 }

/-- Sample `i` of a block: while fading, the straight line from the old to the current output. -/
def blend (c : Convolver) (old current : Array Float32) (i : Nat) : Float32 :=
  if c.fading then
    let w := Single.ofCount i * (1 / Single.ofCount c.blockLength)
    let p := c.outputAt old i
    p + (c.outputAt current i - p) * w
  else c.outputAt current i

/-- The first `count` elements replaced by those of `f`. -/
def overwrite (out : Array Float32) (count : Nat) (f : Nat → Float32) : Array Float32 :=
  out.mapIdx fun i x => if i < count then f i else x

@[simp] theorem size_overwrite (out : Array Float32) (count : Nat) (f : Nat → Float32) :
    (overwrite out count f).size = out.size := by
  simp [overwrite]

/-- How many samples both outputs have room for. -/
def frames (c : Convolver) (left right : Array Float32) : Nat :=
  min c.blockLength (min left.size right.size)

/-- Convolves one block into two output runs.  Samples past the block or past the shorter run are
left as they are. -/
def process (c : Convolver) (input left right : Array Float32) :
    Convolver × Array Float32 × Array Float32 :=
  let c := c.push input
  let frames := c.frames left right
  ({ c with fading := false },
    overwrite left frames (c.blend c.oldLeft c.left),
    overwrite right frames (c.blend c.oldRight c.right))

/-- Forgets past input. -/
def reset (c : Convolver) : Convolver :=
  { c with history := Array.replicate c.history.size 0, fading := false }

end Convolver

end SpatialAudio
