/-!
# Kernel — elementwise loops over runs of samples, one at a time or in lanes of four

A kernel overwrites the common prefix of its destination with one arithmetic operation per element.
It has two loops: `storeEach` goes element by element, `storeLanes` in groups of four that are read
before they are written.  `Operation.run` takes the second when every run involved starts at a lane
boundary, finishing the last `len % 4` elements with the first.  An operand may be the destination
itself (`Operand.destination`), which both loops then read and write in turn.
-/

namespace SpatialAudio.Kernel

/-- How many samples one lane group holds. -/
def lanes : Nat := 4

/-- A run of samples and the address of its first sample, counted in samples. -/
structure Slice where
  samples : Array Float32
  address : Nat := 0

/-- A run starts at a lane boundary. -/
def Slice.aligned (s : Slice) : Bool := s.address % lanes = 0

/-- What a kernel reads: a run of its own or the destination as it stands. -/
inductive Operand where
  | slice (s : Slice)
  | destination

namespace Operand

/-- How many elements an operand has room for, beside a destination of `size` elements. -/
def size (size : Nat) : Operand → Nat
  | slice s => s.samples.size
  | destination => size

/-- Element `i` of an operand while the destination holds `dest`. -/
def read (dest : Array Float32) (i : Nat) : Operand → Float32
  | slice s => s.samples[i]?.getD 0
  | destination => dest[i]?.getD 0

/-- The destination decides for itself. -/
def aligned : Operand → Bool
  | slice s => s.aligned
  | destination => true

end Operand

/-- The arithmetic of one element. -/
inductive Operation where
  /-- The sum `a[i] + b[i]`. -/
  | sum (a b : Operand)
  /-- The sum `c + a[i]`. -/
  | offset (c : Float32) (a : Operand)
  /-- The product `c * a[i]`. -/
  | scale (c : Float32) (a : Operand)
  /-- One product and then one sum: `dest[i] + c * a[i]`. -/
  | accumulate (c : Float32) (a : Operand)

namespace Operation

/-- The value that belongs at index `i` while the destination holds `dest`. -/
def value (dest : Array Float32) (i : Nat) : Operation → Float32
  | sum a b => a.read dest i + b.read dest i
  | offset c a => c + a.read dest i
  | scale c a => c * a.read dest i
  | accumulate c a => dest[i]?.getD 0 + c * a.read dest i

/-- The common length of all runs involved. -/
def length (size : Nat) : Operation → Nat
  | sum a b => min size (min (a.size size) (b.size size))
  | offset _ a | scale _ a | accumulate _ a => min size (a.size size)

/-- Every operand starts at a lane boundary. -/
def aligned : Operation → Bool
  | sum a b => a.aligned && b.aligned
  | offset _ a | scale _ a | accumulate _ a => a.aligned

/-! ## The two loops -/

/-- Writes `count` elements from index `i` on, one after the other. -/
def storeEach (op : Operation) : (count i : Nat) → Array Float32 → Array Float32
  | 0, _, dest => dest
  | count + 1, i, dest => op.storeEach count (i + 1) (dest.setIfInBounds i (op.value dest i))

/-- Writes one group: four values are read, then four are written. -/
def storeGroup (op : Operation) (i : Nat) (dest : Array Float32) : Array Float32 :=
  let v₀ := op.value dest i
  let v₁ := op.value dest (i + 1)
  let v₂ := op.value dest (i + 2)
  let v₃ := op.value dest (i + 3)
  (((dest.setIfInBounds i v₀).setIfInBounds (i + 1) v₁).setIfInBounds (i + 2) v₂).setIfInBounds
    (i + 3) v₃

/-- Writes `groups` lane groups from index `i` on. -/
def storeLanes (op : Operation) : (groups i : Nat) → Array Float32 → Array Float32
  | 0, _, dest => dest
  | groups + 1, i, dest => op.storeLanes groups (i + lanes) (op.storeGroup i dest)

/-- The destination after the kernel.  The loop is chosen by alignment alone. -/
def run (op : Operation) (dest : Slice) : Array Float32 :=
  let len := op.length dest.samples.size
  if op.aligned && dest.aligned then
    let vectored := len / lanes * lanes
    op.storeEach (len - vectored) vectored (op.storeLanes (len / lanes) 0 dest.samples)
  else op.storeEach len 0 dest.samples

/-! ## No kernel changes the length of its destination -/

@[simp] theorem size_storeEach (op : Operation) (count i : Nat) (dest : Array Float32) :
    (op.storeEach count i dest).size = dest.size := by
  induction count generalizing i dest with
  | zero => rfl
  | succ count ih => simp [storeEach, ih]

@[simp] theorem size_storeGroup (op : Operation) (i : Nat) (dest : Array Float32) :
    (op.storeGroup i dest).size = dest.size := by
  simp [storeGroup]

@[simp] theorem size_storeLanes (op : Operation) (groups i : Nat) (dest : Array Float32) :
    (op.storeLanes groups i dest).size = dest.size := by
  induction groups generalizing i dest with
  | zero => rfl
  | succ groups ih => simp [storeLanes, ih]

@[simp] theorem size_run (op : Operation) (dest : Slice) :
    (op.run dest).size = dest.samples.size := by
  unfold run
  split <;> simp

end Operation

/-! ## The kernels -/

/-- Stores `dest[i] = a[i] + b[i]`. -/
def add (a b dest : Slice) : Array Float32 := (Operation.sum (.slice a) (.slice b)).run dest

/-- Stores `dest[i] += b[i]`. -/
def addInPlace (dest b : Slice) : Array Float32 := (Operation.sum .destination (.slice b)).run dest

/-- Stores `dest[i] = c + a[i]`. -/
def offset (c : Float32) (a dest : Slice) : Array Float32 :=
  (Operation.offset c (.slice a)).run dest

/-- Stores `dest[i] += c`. -/
def offsetInPlace (c : Float32) (dest : Slice) : Array Float32 :=
  (Operation.offset c .destination).run dest

/-- Stores `dest[i] = c * a[i]`. -/
def scale (c : Float32) (a dest : Slice) : Array Float32 :=
  (Operation.scale c (.slice a)).run dest

/-- Stores `dest[i] *= c`. -/
def scaleInPlace (c : Float32) (dest : Slice) : Array Float32 :=
  (Operation.scale c .destination).run dest

/-- Stores `dest[i] += c * a[i]`. -/
def multiplyAdd (c : Float32) (a dest : Slice) : Array Float32 :=
  (Operation.accumulate c (.slice a)).run dest

end SpatialAudio.Kernel
