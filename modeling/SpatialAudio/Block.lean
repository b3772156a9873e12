import SpatialAudio.Kernel

/-!
# Block — one channel of one block of audio

A `Block` holds exactly `blockSize` samples; its operations are the kernels of `Kernel`, which keep
that length.
-/

namespace SpatialAudio

/-- Samples per block. -/
def blockSize : Nat := 64

/-- The most channels a node may have on either side. -/
def maxChannels : Nat := 16

/-- One channel of one block. -/
abbrev Block := Vector Float32 blockSize

namespace Block

/-- Silence. -/
def silent : Block := Vector.replicate blockSize 0

/-- The block with the samples of a list, cut or filled up with silence. -/
def ofList (samples : List Float32) : Block :=
  let a := samples.toArray
  Vector.ofFn fun i => a.getD i 0

/-- The block as a kernel sees it; blocks start at a lane boundary. -/
def slice (b : Block) : Kernel.Slice := ⟨b.toArray, 0⟩

/-- The sum of two blocks. -/
def mix (a b : Block) : Block :=
  ⟨Kernel.addInPlace a.slice b.slice, by simp [Kernel.addInPlace, slice]⟩

/-- Every sample multiplied by `c`. -/
def scale (c : Float32) (b : Block) : Block :=
  ⟨Kernel.scaleInPlace c b.slice, by simp [Kernel.scaleInPlace, slice]⟩

/-- A constant added to every sample. -/
def offset (c : Float32) (b : Block) : Block :=
  ⟨Kernel.offsetInPlace c b.slice, by simp [Kernel.offsetInPlace, slice]⟩

/-- The product `c * a[i]` added to sample `i`, as far as `a` reaches. -/
def accumulate (c : Float32) (a : Array Float32) (b : Block) : Block :=
  ⟨Kernel.multiplyAdd c ⟨a, 0⟩ b.slice, by simp [Kernel.multiplyAdd, slice]⟩

end Block

end SpatialAudio
