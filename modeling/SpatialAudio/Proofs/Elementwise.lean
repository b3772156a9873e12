import SpatialAudio.Kernel

/-!
# Proofs/Elementwise — a kernel is one operation per element

What an operation stores at an index depends on the destination at this index alone (`value_congr`).
So it does not matter that a lane group is read before it is written: the loop over groups is the
loop over their elements (`storeLanes_eq`), both paths of a kernel do the same (`inLanes_eq`), and
every element below the common length is replaced by the operation on what was there before
(`getElem?_run`).  For the same reason a destination may be a source of itself (`run_congr`).
-/

namespace SpatialAudio.Kernel

namespace Operation

variable {op : Operation} {dest dest' : Array Float32}

theorem value_congr {i : Nat} (h : dest[i]? = dest'[i]?) : op.value dest i = op.value dest' i := by
  have hread : ∀ a : Operand, a.read dest i = a.read dest' i := fun a => by
    cases a with
    | slice s => rfl
    | destination => exact congrArg (Option.getD · 0) h
  cases op with
  | sum a b => rw [value, value, hread a, hread b]
  | offset c a | scale c a => rw [value, value, hread a]
  | accumulate c a => rw [value, value, hread a, h]

/-! ## Element by element -/

/-- **A loop replaces the elements that it goes over.** -/
theorem getElem?_storeEach (op : Operation) (count i : Nat) (dest : Array Float32) (j : Nat) :
    (op.storeEach count i dest)[j]?
      = if i ≤ j ∧ j < i + count then dest[j]?.map fun _ => op.value dest j else dest[j]? := by
  induction count generalizing i dest with
  | zero => rw [storeEach, if_neg (by omega)]
  | succ count ih =>
    rw [storeEach, ih]
    by_cases hij : i = j
    · subst hij
      rw [if_neg (by omega), if_pos (by omega), Array.getElem?_setIfInBounds_self]
      by_cases hi : i < dest.size
      · rw [if_pos hi, Array.getElem?_eq_getElem hi, Option.map_some]
      · rw [if_neg hi, Array.getElem?_eq_none (Nat.not_lt.mp hi), Option.map_none]
    · have hsame : (dest.setIfInBounds i (op.value dest i))[j]? = dest[j]? :=
        Array.getElem?_setIfInBounds_ne hij
      rw [hsame, value_congr hsame]
      congr 1
      exact propext (by omega)

theorem storeEach_add (op : Operation) (m n i : Nat) (dest : Array Float32) :
    op.storeEach (m + n) i dest = op.storeEach n (i + m) (op.storeEach m i dest) := by
  induction m generalizing i dest with
  | zero => rw [Nat.zero_add, storeEach, Nat.add_zero]
  | succ m ih => rw [Nat.succ_add, storeEach, ih, storeEach, Nat.add_right_comm, Nat.add_assoc]

/-! ## In groups -/

/-- Reading a group before it is written shows what reading each element in its turn does. -/
theorem storeGroup_eq (op : Operation) (i : Nat) (dest : Array Float32) :
    op.storeGroup i dest = op.storeEach lanes i dest := by
  have hread : ∀ {j k : Nat} {v : Float32} {dest : Array Float32}, j ≠ k →
      op.value (dest.setIfInBounds j v) k = op.value dest k :=
    fun hjk => value_congr (Array.getElem?_setIfInBounds_ne hjk)
  simp only [lanes, storeEach, storeGroup]
  rw [hread (by omega), hread (by omega), hread (by omega), hread (by omega), hread (by omega),
    hread (by omega)]

theorem storeLanes_eq (op : Operation) (groups i : Nat) (dest : Array Float32) :
    op.storeLanes groups i dest = op.storeEach (groups * lanes) i dest := by
  induction groups generalizing i dest with
  | zero => rw [Nat.zero_mul]; rfl
  | succ groups ih =>
    rw [storeLanes, ih, storeGroup_eq, Nat.succ_mul, Nat.add_comm (groups * lanes) lanes,
      storeEach_add]

/-! ## The two paths -/

/-- The destination after the path in lanes: whole groups, and then what is left, one by one. -/
def inLanes (op : Operation) (dest : Array Float32) : Array Float32 :=
  let len := op.length dest.size
  let vectored := len / lanes * lanes
  op.storeEach (len - vectored) vectored (op.storeLanes (len / lanes) 0 dest)

/-- The destination after the path that goes one by one from the start. -/
def oneByOne (op : Operation) (dest : Array Float32) : Array Float32 :=
  op.storeEach (op.length dest.size) 0 dest

/-- **Both paths of a kernel do the same.** -/
theorem inLanes_eq (op : Operation) (dest : Array Float32) : op.inLanes dest = op.oneByOne dest := by
  unfold inLanes oneByOne
  generalize op.length dest.size = len
  have hsplit : len / lanes * lanes + (len - len / lanes * lanes) = len :=
    Nat.add_sub_cancel' (Nat.div_mul_le_self ..)
  calc op.storeEach (len - len / lanes * lanes) (len / lanes * lanes)
        (op.storeLanes (len / lanes) 0 dest)
      = op.storeEach (len / lanes * lanes + (len - len / lanes * lanes)) 0 dest := by
        rw [storeLanes_eq, storeEach_add, Nat.zero_add]
    _ = op.storeEach len 0 dest := by rw [hsplit]

/-- A kernel goes in lanes if every run starts at a lane boundary. -/
theorem run_eq_path (op : Operation) (dest : Slice) :
    op.run dest = if op.aligned && dest.aligned then op.inLanes dest.samples
      else op.oneByOne dest.samples := rfl

theorem run_eq (op : Operation) (dest : Slice) : op.run dest = op.oneByOne dest.samples := by
  rw [run_eq_path, inLanes_eq, ite_self]

/-- **A kernel replaces each element below the common length by the operation on what was there.** -/
theorem getElem?_run (op : Operation) (dest : Slice) (j : Nat) :
    (op.run dest)[j]?
      = if j < op.length dest.samples.size
        then dest.samples[j]?.map fun _ => op.value dest.samples j else dest.samples[j]? := by
  rw [run_eq, oneByOne, getElem?_storeEach]
  congr 1
  exact propext (by omega)

theorem run_congr {op op' : Operation} {dest : Slice}
    (hlength : op.length dest.samples.size = op'.length dest.samples.size)
    (hvalue : ∀ i, op.value dest.samples i = op'.value dest.samples i) :
    op.run dest = op'.run dest := by
  apply Array.ext_getElem?
  intro i
  rw [getElem?_run, getElem?_run, hlength, hvalue]

theorem length_le (op : Operation) (size : Nat) : op.length size ≤ size := by
  cases op <;> exact Nat.min_le_left ..

end Operation

/-! ## The kernels -/

/-- `out` is `dest` with every element below `count` replaced by `element`. -/
structure Replaces (dest : Array Float32) (count : Nat)
    (element : (i : Nat) → i < count → Float32) (out : Array Float32) : Prop where
  below (i : Nat) (h : i < count) : out[i]? = some (element i h)
  beyond (i : Nat) (h : count ≤ i) : out[i]? = dest[i]?

theorem Replaces.getElem {dest : Array Float32} {count : Nat}
    {element : (i : Nat) → i < count → Float32} {out : Array Float32}
    (h : Replaces dest count element out) {i : Nat} (hi : i < count) (hout : i < out.size) :
    out[i] = element i hi :=
  Option.some.inj ((Array.getElem?_eq_getElem hout).symm.trans (h.below i hi))

/-- What an operation makes of its destination, `out`: by alignment alone it takes one of two paths,
and on both every element below `count` is replaced by `element`. -/
structure Stores (op : Operation) (dest : Slice) (count : Nat)
    (element : (i : Nat) → i < count → Float32) (out : Array Float32) : Prop where
  path : out = if op.aligned && dest.aligned then op.inLanes dest.samples
    else op.oneByOne dest.samples
  agree : op.inLanes dest.samples = op.oneByOne dest.samples
  inLanes : Replaces dest.samples count element (op.inLanes dest.samples)
  oneByOne : Replaces dest.samples count element (op.oneByOne dest.samples)

/-- It does not matter which path is taken. -/
theorem Stores.replaces {op : Operation} {dest : Slice} {count : Nat}
    {element : (i : Nat) → i < count → Float32} {out : Array Float32}
    (h : Stores op dest count element out) : Replaces dest.samples count element out := by
  rw [h.path]
  split
  · exact h.inLanes
  · exact h.oneByOne

theorem Operation.stores_run {op : Operation} {dest : Slice} {count : Nat}
    {element : (i : Nat) → i < count → Float32} (hcount : op.length dest.samples.size = count)
    (helement : ∀ i h, op.value dest.samples i = element i h) :
    Stores op dest count element (op.run dest) := by
  have hreplaces : Replaces dest.samples count element (op.oneByOne dest.samples) := by
    rw [← op.run_eq]
    refine ⟨fun i h => ?_, fun i h => ?_⟩
    · have hi : i < dest.samples.size := Nat.lt_of_lt_of_le (hcount ▸ h) (op.length_le _)
      rw [op.getElem?_run, if_pos (hcount ▸ h), Array.getElem?_eq_getElem hi, Option.map_some,
        helement i h]
    · rw [op.getElem?_run, if_neg (by omega)]
  exact ⟨rfl, op.inLanes_eq _, op.inLanes_eq _ ▸ hreplaces, hreplaces⟩

theorem Operand.read_slice {s : Slice} {i : Nat} (h : i < s.samples.size) (dest : Array Float32) :
    (slice s).read dest i = s.samples[i] := by
  rw [read, Array.getElem?_eq_getElem h, Option.getD_some]

theorem Operand.read_destination {dest : Array Float32} {i : Nat} (h : i < dest.size) :
    destination.read dest i = dest[i] := by
  rw [read, Array.getElem?_eq_getElem h, Option.getD_some]

open Operation Operand

theorem stores_add (a b dest : Slice) :
    Stores (.sum (.slice a) (.slice b)) dest
      (min dest.samples.size (min a.samples.size b.samples.size))
      (fun i h => a.samples[i] + b.samples[i]) (add a b dest) :=
  stores_run rfl fun i h => by rw [value, read_slice (by omega), read_slice (by omega)]

theorem stores_offset (c : Float32) (a dest : Slice) :
    Stores (.offset c (.slice a)) dest (min dest.samples.size a.samples.size)
      (fun i h => c + a.samples[i]) (offset c a dest) :=
  stores_run rfl fun i h => by rw [value, read_slice (by omega)]

theorem stores_scale (c : Float32) (a dest : Slice) :
    Stores (.scale c (.slice a)) dest (min dest.samples.size a.samples.size)
      (fun i h => c * a.samples[i]) (scale c a dest) :=
  stores_run rfl fun i h => by rw [value, read_slice (by omega)]

theorem stores_multiplyAdd (c : Float32) (a dest : Slice) :
    Stores (.accumulate c (.slice a)) dest (min dest.samples.size a.samples.size)
      (fun i h => dest.samples[i] + c * a.samples[i]) (multiplyAdd c a dest) :=
  stores_run rfl fun i h => by
    rw [value, read_slice (by omega), Array.getElem?_eq_getElem (by omega), Option.getD_some]

theorem stores_addInPlace (dest b : Slice) :
    Stores (.sum .destination (.slice b)) dest (min dest.samples.size b.samples.size)
      (fun i h => dest.samples[i] + b.samples[i]) (addInPlace dest b) :=
  stores_run (by rw [length, Operand.size, Operand.size]; omega) fun i h => by
    rw [value, read_destination (by omega), read_slice (by omega)]

theorem stores_offsetInPlace (c : Float32) (dest : Slice) :
    Stores (.offset c .destination) dest dest.samples.size
      (fun i h => c + dest.samples[i]) (offsetInPlace c dest) :=
  stores_run (Nat.min_self _) fun i h => by rw [value, read_destination h]

theorem stores_scaleInPlace (c : Float32) (dest : Slice) :
    Stores (.scale c .destination) dest dest.samples.size
      (fun i h => c * dest.samples[i]) (scaleInPlace c dest) :=
  stores_run (Nat.min_self _) fun i h => by rw [value, read_destination h]

/-- **The path in lanes and the path one by one agree**, for runs of any lengths, contents and
addresses.  Each kernel replaces the elements below the common length by one operation on what the
runs held there, and leaves the others as they were; a kernel in place does what it does with the
destination as a source of its own. -/
theorem paths_agree :
    (∀ a b dest : Slice,
      Stores (.sum (.slice a) (.slice b)) dest
        (min dest.samples.size (min a.samples.size b.samples.size))
        (fun i h => a.samples[i] + b.samples[i]) (add a b dest)) ∧
    (∀ (c : Float32) (a dest : Slice),
      Stores (.offset c (.slice a)) dest (min dest.samples.size a.samples.size)
        (fun i h => c + a.samples[i]) (offset c a dest)) ∧
    (∀ (c : Float32) (a dest : Slice),
      Stores (.scale c (.slice a)) dest (min dest.samples.size a.samples.size)
        (fun i h => c * a.samples[i]) (scale c a dest)) ∧
    (∀ (c : Float32) (a dest : Slice),
      Stores (.accumulate c (.slice a)) dest (min dest.samples.size a.samples.size)
        (fun i h => dest.samples[i] + c * a.samples[i]) (multiplyAdd c a dest)) ∧
    (∀ dest b : Slice,
      Stores (.sum .destination (.slice b)) dest (min dest.samples.size b.samples.size)
        (fun i h => dest.samples[i] + b.samples[i]) (addInPlace dest b) ∧
      ∀ address, addInPlace dest b = add ⟨dest.samples, address⟩ b dest) ∧
    (∀ (c : Float32) (dest : Slice),
      Stores (.offset c .destination) dest dest.samples.size
        (fun i h => c + dest.samples[i]) (offsetInPlace c dest) ∧
      ∀ address, offsetInPlace c dest = offset c ⟨dest.samples, address⟩ dest) ∧
    ∀ (c : Float32) (dest : Slice),
      Stores (.scale c .destination) dest dest.samples.size
        (fun i h => c * dest.samples[i]) (scaleInPlace c dest) ∧
      ∀ address, scaleInPlace c dest = scale c ⟨dest.samples, address⟩ dest := by
  refine ⟨stores_add, stores_offset, stores_scale, stores_multiplyAdd, ?_, ?_, ?_⟩
  · exact fun dest b => ⟨stores_addInPlace dest b, fun _ => run_congr rfl fun _ => rfl⟩
  · exact fun c dest => ⟨stores_offsetInPlace c dest, fun _ => run_congr rfl fun _ => rfl⟩
  · exact fun c dest => ⟨stores_scaleInPlace c dest, fun _ => run_congr rfl fun _ => rfl⟩

end SpatialAudio.Kernel
