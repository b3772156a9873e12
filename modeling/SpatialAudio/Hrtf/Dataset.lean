import SpatialAudio.Memory

/-!
# Hrtf/Dataset — sets of head-related impulse responses and their binary form

A `Dataset` holds left-ear responses on a grid: bands of equal elevation, and azimuths evenly spaced
within each band.  Samples are kept as the 32-bit words of their binary form, so that reading and
writing lose nothing.

The binary form is a sequence of 32-bit fields in either byte order:

* the marker `1`, sample rate, response count, band count, lowest and highest elevation;
* the number of azimuths of each band; the response length;
* the samples, band after band, azimuth after azimuth.

`encode` writes it and `parse` reads it, taking the byte order from the marker.
-/

namespace SpatialAudio

/-- Left-ear impulse responses at one sample rate. -/
structure Dataset where
  sampleRate : Nat
  minElevation : Int
  maxElevation : Int
  /-- How many responses each band holds, lowest band first. -/
  azimuthCounts : List Nat
  /-- Samples per response. -/
  responseLength : Nat
  /-- The words of all samples, response after response. -/
  samples : List UInt32
deriving Repr, DecidableEq

/-! ## Words -/

/-- The order of the four bytes of a field. -/
inductive ByteOrder where
  /-- Least significant byte first. -/
  | little
  /-- Most significant byte first. -/
  | big
deriving Repr, DecidableEq

namespace ByteOrder

/-- The word with the given bytes, least significant first. -/
def littleWord (a b c d : UInt8) : UInt32 :=
  UInt32.ofNat (a.toNat + 2 ^ 8 * b.toNat + 2 ^ 16 * c.toNat + 2 ^ 24 * d.toNat)

/-- The word that four bytes form, in the order in which they stand. -/
def word (order : ByteOrder) (a b c d : UInt8) : UInt32 :=
  match order with
  | little => littleWord a b c d
  | big => littleWord d c b a

/-- The four bytes of a word. -/
def bytes (order : ByteOrder) (w : UInt32) : List UInt8 :=
  let a := UInt8.ofNat w.toNat
  let b := UInt8.ofNat (w.toNat / 2 ^ 8)
  let c := UInt8.ofNat (w.toNat / 2 ^ 16)
  let d := UInt8.ofNat (w.toNat / 2 ^ 24)
  match order with
  | little => [a, b, c, d]
  | big => [d, c, b, a]

/-- A word is read back from its bytes. -/
theorem littleWord_bytes (w : UInt32) :
    littleWord (UInt8.ofNat w.toNat) (UInt8.ofNat (w.toNat / 2 ^ 8))
      (UInt8.ofNat (w.toNat / 2 ^ 16)) (UInt8.ofNat (w.toNat / 2 ^ 24)) = w := by
  apply UInt32.toNat_inj.mp
  have := w.toNat_lt
  simp only [littleWord, UInt8.toNat_ofNat', UInt32.toNat_ofNat']
  omega

/-- Reads words onto the front of `read`, until fewer than four bytes are left. -/
def wordsOnto (order : ByteOrder) (read : List UInt32) : List UInt8 → List UInt32
  | a :: b :: c :: d :: rest => order.wordsOnto (order.word a b c d :: read) rest
  | _ => read

/-- The words that a run of bytes forms. -/
def words (order : ByteOrder) (bytes : List UInt8) : List UInt32 :=
  (order.wordsOnto [] bytes).reverse

end ByteOrder

/-- The signed integer of a word. -/
def signedWord (w : UInt32) : Int :=
  if w.toNat < 2 ^ 31 then w.toNat else (w.toNat : Int) - 2 ^ 32

/-- The word of an integer, which keeps its 32 lowest bits. -/
def integerWord (v : Int) : UInt32 := UInt32.ofNat (v % 2 ^ 32).toNat

/-- The first field of every dataset. -/
def datasetMarker : UInt32 := 1

/-- The marker when read in the other byte order. -/
def swappedMarker : UInt32 := 0x01000000

namespace Dataset

/-! ## Writing -/

/-- How many responses the bands hold together. -/
def responseCount (d : Dataset) : Nat := d.azimuthCounts.sum

/-- The fields of the binary form. -/
def fields (d : Dataset) : List UInt32 :=
  datasetMarker
    :: integerWord d.sampleRate
    :: integerWord d.responseCount
    :: integerWord d.azimuthCounts.length
    :: integerWord d.minElevation
    :: integerWord d.maxElevation
    :: (d.azimuthCounts.map fun (n : Nat) => integerWord n)
    ++ integerWord d.responseLength
    :: d.samples

/-- The binary form. -/
def encode (order : ByteOrder) (d : Dataset) : List UInt8 := d.fields.flatMap order.bytes

/-- Writes the binary form, for which the responses must be countable. -/
def write (d : Dataset) : Except Abort (List UInt8) := do
  let _ ← Memory.word d.responseCount
  return d.encode .little

/-! ## Reading -/

/-- A place in a run of bytes: what is left, and how many bytes were read. -/
structure Cursor where
  rest : List UInt8
  offset : Nat
  order : ByteOrder

namespace Cursor

/-- The next field. -/
def word (c : Cursor) : Except DatasetError (UInt32 × Cursor) :=
  match c.rest with
  | a₀ :: a₁ :: a₂ :: a₃ :: rest =>
    .ok (c.order.word a₀ a₁ a₂ a₃, { c with rest, offset := c.offset + 4 })
  | rest => .error (.truncated (c.offset + 4) (c.offset + rest.length))

/-- The next field as a signed integer. -/
def integer (c : Cursor) : Except DatasetError (Int × Cursor) := do
  let (w, c) ← c.word
  return (signedWord w, c)

/-- The next field, which must be a positive integer. -/
def positive (field : HeaderField) (c : Cursor) : Except DatasetError (Nat × Cursor) := do
  let (v, c) ← c.integer
  if 0 < v then return (v.toNat, c) else throw (.malformed (.notPositive field v))

/-- Reads `count` azimuth counts, the last of them first in the result. -/
def azimuthsOnto (read : List Nat) :
    (count : Nat) → Cursor → Except DatasetError (List Nat × Cursor)
  | 0, c => .ok (read, c)
  | count + 1, c =>
    match c.positive .azimuthCount with
    | .ok (n, c) => azimuthsOnto (n :: read) count c
    | .error e => .error e

/-- The first field, which tells the byte order of all others. -/
def start (bytes : List UInt8) : Except DatasetError Cursor := do
  let (marker, c) ← word ⟨bytes, 0, .little⟩
  if marker = datasetMarker then return c
  else if marker = swappedMarker then return { c with order := .big }
  else throw (.badMarker marker)

end Cursor

/-- All fields of a dataset up to the samples. -/
structure Header where
  sampleRate : Nat
  responseCount : Nat
  minElevation : Int
  maxElevation : Int
  azimuthCounts : List Nat
  responseLength : Nat

namespace Header

/-- How many samples follow the header. -/
def sampleCount (h : Header) : Nat := h.responseCount * h.responseLength

/-- Reads a header and checks that it does not contradict itself. -/
def read (bytes : List UInt8) : Except DatasetError (Header × Cursor) := do
  let c ← Cursor.start bytes
  let (sampleRate, c) ← c.positive .sampleRate
  let (responseCount, c) ← c.positive .responseCount
  let (elevationCount, c) ← c.positive .elevationCount
  let (minElevation, c) ← c.integer
  let (maxElevation, c) ← c.integer
  if maxElevation < minElevation then
    throw (.malformed (.elevationOrder minElevation maxElevation))
  let (reversed, c) ← c.azimuthsOnto [] elevationCount
  let azimuthCounts := reversed.reverse
  if azimuthCounts.sum ≠ responseCount then
    throw (.malformed (.responseCount azimuthCounts.sum responseCount))
  let (responseLength, c) ← c.positive .responseLength
  if 2 ^ 64 ≤ responseCount * responseLength then throw (.malformed .tableTooLarge)
  return (⟨sampleRate, responseCount, minElevation, maxElevation, azimuthCounts, responseLength⟩, c)

end Header

/-- Reads a dataset; the samples must take up exactly the bytes behind the header. -/
def parse (bytes : List UInt8) : Except DatasetError Dataset := do
  let (h, c) ← Header.read bytes
  let needed := c.offset + h.sampleCount * 4
  let available := c.offset + c.rest.length
  if available < needed then throw (.truncated needed available)
  if needed < available then throw (.malformed (.trailing (available - needed)))
  return {
    sampleRate := h.sampleRate
    minElevation := h.minElevation
    maxElevation := h.maxElevation
    azimuthCounts := h.azimuthCounts
    responseLength := h.responseLength
    samples := c.order.words c.rest }

end Dataset

end SpatialAudio
