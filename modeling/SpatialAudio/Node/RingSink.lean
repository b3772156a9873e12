import SpatialAudio.Block
import SpatialAudio.Memory

/-!
# Node/RingSink — handing samples to a consumer through a bounded queue

A `Ring` is a first-in first-out queue of samples with a capacity.  A `RingSink` writes its inputs
into one as interleaved frames; a block that does not fit is dropped whole and counted.  The ring
outlives its sink, so a sink only names it.
-/

namespace SpatialAudio

/-- A bounded queue of samples, the oldest first. -/
structure Ring where
  capacity : Nat
  queued : List Float32

namespace Ring

/-- An empty queue. -/
def new (capacity : Nat) : Ring := ⟨capacity, []⟩

/-- How many samples still fit. -/
def available (r : Ring) : Nat := r.capacity - r.queued.length

/-- Whether `count` samples still fit. -/
def accepts (r : Ring) (count : Nat) : Bool := count ≤ r.available

/-- Puts samples behind those queued. -/
def append (r : Ring) (samples : List Float32) : Ring := { r with queued := r.queued ++ samples }

/-- Takes out up to `count` samples. -/
def pop (r : Ring) (count : Nat) : List Float32 × Ring :=
  (r.queued.take count, { r with queued := r.queued.drop count })

/-- What is taken out and what stays make up the queue. -/
theorem pop_append (r : Ring) (count : Nat) :
    (r.pop count).1 ++ (r.pop count).2.queued = r.queued := by
  simp [pop]

end Ring

/-- A sink that feeds a ring. -/
structure RingSink where
  /-- The number of the ring in its graph. -/
  ring : Nat
  channels : Nat
  dropped : Nat

namespace RingSink

/-- A sink has at least one channel. -/
def new (ring channels : Nat) : RingSink := ⟨ring, max channels 1, 0⟩

/-- The samples of one block, frame by frame; channels without an input are silent. -/
def frames (channels : Nat) (inputs : List Block) : List Float32 :=
  let channelBlocks := (List.range channels).map fun c => inputs.getD c Block.silent
  (List.range blockSize).flatMap fun i => channelBlocks.map fun b => b.toArray.getD i 0

/-- How many samples one block has. -/
def blockLength (s : RingSink) : Nat := blockSize * s.channels

/-- Writes one block into the ring, or drops it if it does not fit; without inputs there is nothing
to write.  The number of its samples must be a word. -/
def deliver (s : RingSink) (inputs : List Block) (ring : Ring) : Except Abort (RingSink × Ring) :=
  if inputs.isEmpty then .ok (s, ring)
  else do
    let length ← Memory.word s.blockLength
    if ring.accepts length then return (s, ring.append (frames s.channels inputs))
    else return ({ s with dropped := s.dropped + 1 }, ring)

end RingSink

end SpatialAudio
