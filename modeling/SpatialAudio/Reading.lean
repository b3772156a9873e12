import SpatialAudio.Arithmetic.Single

/-!
# Reading — reporting runs of samples

A `Probe` says which samples of a run are reported and how: exactly, or as whole multiples of
`1 / scale`, rounded half away from zero.
-/

namespace SpatialAudio

/-- Which samples to report, and how. -/
structure Probe where
  /-- Indices in the order of the report, without those past the end; all samples if absent. -/
  pick : Option (List Nat)
  /-- How many steps make up one unit; exact samples if absent. -/
  scale : Option Int

/-- A sample in whole steps. -/
inductive Steps where
  | whole (n : Int)
  | nan
  | infinite (negative : Bool)

/-- A report of samples. -/
inductive Reading where
  | exact (samples : List Float32)
  | steps (samples : List Steps)

/-- A sample in steps of `1 / scale`. -/
def Steps.ofSample (scale : Int) (x : Float32) : Steps :=
  if x.isNaN then nan
  else if x.isInf then infinite (Single.isNegative x)
  else whole (Double.ofSingle x * Float.ofInt scale).round.toInt64.toInt

/-- Reports a run of samples. -/
def Probe.read (p : Probe) (samples : Array Float32) : Reading :=
  let picked := match p.pick with
    | some indices => indices.filterMap fun i => samples[i]?
    | none => samples.toList
  match p.scale with
  | some scale => .steps (picked.map (Steps.ofSample scale))
  | none => .exact picked

end SpatialAudio
