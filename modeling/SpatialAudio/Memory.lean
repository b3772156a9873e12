import SpatialAudio.Arithmetic.Single
import SpatialAudio.Error

/-!
# Memory — which counts are words, and which tables have room

Counts are 64-bit words, and the bytes of one table are counted in 63 bits.  A sum or product of
counts that is no word has no answer (`Memory.word`), and a larger table cannot be made
(`Memory.reserve`).
-/

namespace SpatialAudio.Memory

/-- One more than the greatest number of bytes of a table. -/
def limit : Nat := 2 ^ 63

/-- The bytes of a sample. -/
def sampleSize : Nat := 4

/-- Whether there is room for `count` things of `size` bytes each. -/
def fits (count size : Nat) : Bool := count * size < limit

/-- Sets room aside for `count` things of `size` bytes each. -/
def reserve (count size : Nat) : Except Abort Unit :=
  if fits count size then .ok () else .error .outOfMemory

/-- A count, which must be a word. -/
def word (n : Nat) : Except Abort Nat :=
  if n < wordLimit then .ok n else .error .countOverflow

/-- A run of `count` equal samples. -/
def samples (count : Nat) (x : Float32) : Except Abort (Array Float32) := do
  reserve count sampleSize
  return Array.replicate count x

end SpatialAudio.Memory
