import SpatialAudio.Arithmetic.Single
import SpatialAudio.Hrtf.Dataset
import SpatialAudio.Kernel

/-!
# Hrtf/Response — resampling a dataset and looking up the response of a direction

`Dataset.atRate` brings a dataset to a sample rate.  `Dataset.contributions` says which stored
responses make up the response of a direction, and with which gain each: at most two bands next to
the elevation, and within each at most two azimuths next to the azimuth.  `Dataset.mono` adds them
up.  The right ear hears at an azimuth what the left ear hears at `360` degrees less it.
-/

namespace SpatialAudio.Dataset

/-! ## Resampling -/

/-- The first `count` pieces of length `n`. -/
def pieces {α : Type} (n : Nat) : (count : Nat) → List α → List (List α)
  | 0, _ => []
  | count + 1, l => l.take n :: pieces n count (l.drop n)

/-- The word of a sample of a response, silence past its end. -/
def wordAt (response : Array UInt32) (i : Nat) : UInt32 := response.getD i 0

/-- Sample `i` of a response read `ratio` samples further each time: the straight line between two
neighbours, with the amplitude scaled by `ratio`. -/
def interpolate (ratio : Float) (response : Array UInt32) (i : Nat) : UInt32 :=
  let position := Double.ofCount i * ratio
  let j := Double.floorCount position
  let fraction := Double.toSingle (position - Double.ofCount j)
  let a := Float32.ofBits (wordAt response j)
  let b := Float32.ofBits (wordAt response (j + 1))
  Single.resultWord (wordAt response j) (wordAt response (j + 1))
    ((a + (b - a) * fraction) * Double.toSingle ratio)

/-- Samples of the stored rate per sample of the new one. -/
def rateRatio (d : Dataset) (rate : Nat) : Float :=
  Double.ofCount d.sampleRate / Double.ofCount rate

/-- The length of a resampled response, at least one sample. -/
def resampledLength (d : Dataset) (rate : Nat) : Nat :=
  max 1 (Double.ceilCount (Double.ofCount d.responseLength / d.rateRatio rate))

/-- Every response resampled on its own. -/
def resample (d : Dataset) (rate : Nat) : Dataset :=
  let length := d.resampledLength rate
  let responses := pieces d.responseLength (d.samples.length / d.responseLength) d.samples
  { d with
    sampleRate := rate
    responseLength := length
    samples := responses.flatMap fun response =>
      (List.range length).map (interpolate (d.rateRatio rate) response.toArray) }

/-- The dataset at a sample rate.  Its responses must be countable, and a resampled table must have
room. -/
def atRate (d : Dataset) (rate : Nat) : Except Failure Dataset :=
  if rate = 0 then .error (.refused (.dataset .zeroSampleRate))
  else if wordLimit ≤ d.responseCount then .error (.aborted .countOverflow)
  else if d.sampleRate = rate then .ok d
  else if !Memory.fits (d.responseCount * d.resampledLength rate) Memory.sampleSize then
    .error (.aborted .outOfMemory)
  else if d.responseLength = 0 then .error (.aborted .emptyResponse)
  else .ok (d.resample rate)

/-- Reads a dataset and brings it to a sample rate. -/
def load (bytes : List UInt8) (rate : Nat) : Except Failure Dataset :=
  match parse bytes with
  | .ok d => d.atRate rate
  | .error e => .error (.refused (.dataset e))

/-! ## The grid -/

/-- How many responses the bands below `band` hold together. -/
def bandStart (d : Dataset) (band : Nat) : Nat := (d.azimuthCounts.take band).sum

/-- The elevation of a band in degrees. -/
def bandElevation (d : Dataset) (band : Nat) : Except Abort Float32 :=
  let bands := d.azimuthCounts.length
  let span := d.maxElevation - d.minElevation
  if bands ≤ 1 then .ok (Single.ofInt d.minElevation)
  else if span < -(2 ^ 31) ∨ 2 ^ 31 ≤ span then .error .elevationOverflow
  else .ok (Single.ofInt d.minElevation
    + Single.ofInt span * Single.ofCount band / Single.ofCount (bands - 1))

/-- The stored response at a place of the grid. -/
def response? (d : Dataset) (band index : Nat) : Option (List UInt32) :=
  match d.azimuthCounts[band]? with
  | some count =>
    if index < count then
      let start := (d.bandStart band + index) * d.responseLength
      let cut := (d.samples.drop start).take d.responseLength
      if start ≤ d.samples.length ∧ cut.length = d.responseLength then some cut else none
    else none
  | none => none

/-- Whether the grid has a place. -/
def onGrid (d : Dataset) (band index : Nat) : Bool :=
  match d.azimuthCounts[band]? with
  | some count => index < count
  | none => false

/-- Where the response at a place of the grid ends, counted in samples. -/
def responseStop (d : Dataset) (band index : Nat) : Nat :=
  (d.bandStart band + index) * d.responseLength + d.responseLength

/-- Looks the response at a place of the grid up.  The end of a response must be a word, whether its
samples are stored or not. -/
def lookUp (d : Dataset) (band index : Nat) : Except Abort (Option (List UInt32)) :=
  if d.onGrid band index && wordLimit ≤ d.responseStop band index then .error .countOverflow
  else .ok (d.response? band index)

/-! ## Directions -/

/-- The two bands next to an elevation and the share of the upper one. -/
def bandsAt (d : Dataset) (elevation : Float32) : Except Abort (Nat × Nat × Float32) :=
  let bands := d.azimuthCounts.length
  if bands ≤ 1 ∨ d.maxElevation = d.minElevation then .ok (0, 0, 0)
  else
    let min := Single.ofInt d.minElevation
    let max := Single.ofInt d.maxElevation
    match Single.clamp? min max elevation with
    | none => .error .invertedBounds
    | some e =>
      let position := (e - min) / (max - min) * Single.ofCount (bands - 1)
      let lower := Nat.min (Single.floorCount position) (bands - 1)
      .ok (lower, Nat.min (lower + 1) (bands - 1), position - Single.ofCount lower)

/-- The two azimuths of a band next to an azimuth and the share of the second, among `count`. -/
def azimuthsAt (count : Nat) (azimuth : Float32) : Nat × Nat × Float32 :=
  let position := Single.wrapDegrees azimuth / 360 * Single.ofCount count
  let below := Single.floorCount position
  let first := below % count
  (first, (first + 1) % count, if count = 1 then 0 else position - Single.ofCount below)

/-- A stored response and the gain with which it enters a sum. -/
structure Contribution where
  band : Nat
  index : Nat
  gain : Float32

/-- What one band contributes.  Nothing of weight zero is looked up. -/
def bandContributions (d : Dataset) (band : Nat) (azimuth weight : Float32) :
    Except Abort (List Contribution) :=
  if weight == 0 then .ok []
  else match d.azimuthCounts[band]? with
    | none => .error .noBand
    | some 0 => .error .noAzimuth
    | some count =>
      let (first, second, w) := azimuthsAt count azimuth
      let shares := [(first, 1 - w), (second, w)].filter fun (_, share) => !(share == 0)
      .ok (shares.map fun (index, share) => ⟨band, index, weight * share⟩)

/-- What makes up the response of a direction, in the order of summation. -/
def contributions (d : Dataset) (elevation azimuth : Float32) :
    Except Abort (List Contribution) := do
  let (lower, upper, w) ← d.bandsAt elevation
  let below ← d.bandContributions lower azimuth (1 - w)
  let above ← if upper ≠ lower then d.bandContributions upper azimuth w else pure []
  return below ++ above

/-- One contribution added to a response under construction. -/
def addContribution (d : Dataset) (out : Array Float32) (c : Contribution) :
    Except Abort (Array Float32) := do
  match ← d.lookUp c.band c.index with
  | some response =>
    return Kernel.multiplyAdd c.gain ⟨(response.map Float32.ofBits).toArray, 0⟩ ⟨out, 0⟩
  | none => return out

/-- The first `length` samples of the left-ear response of a direction. -/
def mono (d : Dataset) (elevation azimuth : Float32) (length : Nat) :
    Except Abort (Array Float32) := do
  let parts ← d.contributions elevation azimuth
  parts.foldlM d.addContribution (Array.replicate length 0)

/-- The responses of both ears. -/
def stereo (d : Dataset) (elevation azimuth : Float32) (length : Nat) :
    Except Abort (Array Float32 × Array Float32) := do
  let left ← d.mono elevation azimuth length
  let right ← d.mono elevation (360 - azimuth) length
  return (left, right)

end SpatialAudio.Dataset
