import SpatialAudio.Arithmetic.Single
import SpatialAudio.Hrtf.Dataset

/-!
# Hrtf/SphericalHead — the built-in dataset, a parametric model of a spherical head

A response is an impulse that arrives later and duller at the ear turned away from the source,
followed by a weaker reflection of the outer ear that arrives sooner from above.
-/

namespace SpatialAudio.SphericalHead

/-- Samples per second. -/
def sampleRate : Nat := 44100

/-- Samples per response. -/
def responseLength : Nat := 64

/-- Responses per band, lowest band first. -/
def azimuthCounts : List Nat := [56, 60, 72, 72, 72, 72, 72, 60, 56, 45, 36, 24, 12, 1]

/-- The elevation of the lowest band. -/
def minElevation : Int := -40

/-- The elevation of the highest band. -/
def maxElevation : Int := 90

/-- An impulse at a fractional delay, shared between two neighbouring samples. -/
def addTap (delay gain : Float32) (response : List Float32) : List Float32 :=
  let index := Single.floorCount delay
  let fraction := delay - Single.ofCount index
  (response.modify index (· + gain * (1 - fraction))).modify (index + 1) (· + gain * fraction)

/-- A low-pass filter with one pole: each sample is pulled toward the output before it. -/
def dull (shadow : Float32) : (last : Float32) → List Float32 → List Float32
  | _, [] => []
  | last, s :: rest =>
    let out := (1 - shadow) * s + shadow * last
    out :: dull shadow out rest

/-- The response of the left ear, which faces 270 degrees. -/
def leftEar (elevation azimuth : Float32) : List Float32 :=
  let el := Single.radians elevation
  let az := Single.radians azimuth
  let facing := -(el.cos * az.sin)
  let late := 0.0875 / 343 * Single.ofCount sampleRate * (1 - facing)
  let delay := 4 + late
  let gain := 0.35 + 0.65 * (1 + facing) / 2
  let shadow := 0.6 * (1 - facing) / 2
  let reflectionDelay :=
    delay + 2 + 4 * (1 - (elevation - Single.ofInt minElevation) / 130)
  let reflectionGain := -0.2 * gain * (0.5 + 0.5 * (el + Single.quarterTurn).sin)
  dull shadow 0
    (addTap reflectionDelay reflectionGain
      (addTap delay gain (List.replicate responseLength 0)))

/-- All responses of a band. -/
def bandResponses (band count : Nat) : List Float32 :=
  let elevation := Single.ofInt minElevation
    + Single.ofInt (maxElevation - minElevation) * Single.ofCount band
      / Single.ofCount (azimuthCounts.length - 1)
  (List.range count).flatMap fun index =>
    leftEar elevation (360 * Single.ofCount index / Single.ofCount count)

/-- The built-in dataset. -/
def dataset : Dataset where
  sampleRate := sampleRate
  minElevation := minElevation
  maxElevation := maxElevation
  azimuthCounts := azimuthCounts
  responseLength := responseLength
  samples := azimuthCounts.zipIdx.flatMap fun (count, band) =>
    (bandResponses band count).map Float32.toBits

end SpatialAudio.SphericalHead
