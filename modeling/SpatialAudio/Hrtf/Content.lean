import SpatialAudio.Hrtf.Response
import SpatialAudio.Hrtf.SphericalHead

/-!
# Hrtf/Content — what a dataset is loaded from

Bytes are given as they are, taken from the built-in dataset, or written from a dataset whose fields
nobody checked.  Such a dataset can be loaded without writing it first, and is then not checked
either.
-/

namespace SpatialAudio

/-- What a dataset is loaded from. -/
inductive DatasetContent where
  | bytes (bs : List UInt8)
  | builtin
  | fields (d : Dataset)

namespace DatasetContent

/-- The binary form. -/
def encoded : DatasetContent → Except Abort (List UInt8)
  | bytes bs => .ok bs
  | builtin => SphericalHead.dataset.write
  | fields d => d.write

/-- Reads the binary form. -/
def parse (c : DatasetContent) : Except Failure Dataset := do
  match Dataset.parse (← c.encoded) with
  | .ok d => return d
  | .error e => throw (.refused (.dataset e))

/-- The dataset at a sample rate. -/
def load (rate : Nat) : DatasetContent → Except Failure Dataset
  | fields d => d.atRate rate
  | c => do (← c.parse).atRate rate

end DatasetContent

end SpatialAudio
