import SpatialAudio.Hrtf.Content
import SpatialAudio.Session.Files

/-!
# Session/Library — loaded datasets, and where they come from

A `Library` keeps every dataset it handed out; a dataset is known by its number, so that two loads
gave the same one exactly if they gave the same number.  The built-in dataset and those read from
files are loaded once, equal paths together; a dataset given by its content is loaded anew each
time.  A load that fails changes nothing.
-/

namespace SpatialAudio

/-- Where a dataset comes from. -/
inductive DatasetSource where
  | builtin
  | file (path : DatasetPath)
  /-- The binary form of some content. -/
  | buffer (content : DatasetContent)

/-! ## Loading -/

/-- The datasets loaded so far. -/
structure Library where
  /-- All datasets, by number. -/
  datasets : List Dataset
  /-- The number of the built-in dataset. -/
  builtin : Option Nat
  /-- The numbers of datasets read from files, by the keys of their paths. -/
  files : List (List (List Char) × Nat)

namespace Library

/-- Nothing was loaded. -/
def empty : Library := ⟨[], none, []⟩

/-- The number of a dataset that need not be loaded again. -/
def cached? (l : Library) : DatasetSource → Option Nat
  | .builtin => l.builtin
  | .file path => (l.files.find? fun f => f.1 = path.key).map (·.2)
  | .buffer _ => none

/-- The bytes of a source. -/
def fetch (f : Files) : DatasetSource → Except Failure (List UInt8)
  | .builtin => .ok (SphericalHead.dataset.encode .little)
  | .file path =>
    match f.read? path with
    | some bytes => .ok bytes
    | none => .error (.refused (.dataset (.unreadable path)))
  | .buffer content => content.encoded

/-- Keeps a dataset for later loads of its source. -/
def keep (l : Library) (source : DatasetSource) (d : Dataset) : Library :=
  let number := l.datasets.length
  let l := { l with datasets := l.datasets ++ [d] }
  match source with
  | .builtin => { l with builtin := some number }
  | .file path => { l with files := (path.key, number) :: l.files }
  | .buffer _ => l

/-- Loads a dataset at a sample rate: its number and the library that holds it. -/
def load (l : Library) (f : Files) (rate : Nat) (source : DatasetSource) :
    Except Failure (Nat × Library) :=
  match l.cached? source with
  | some number => .ok (number, l)
  | none => do
    let dataset ← Dataset.load (← fetch f source) rate
    return (l.datasets.length, l.keep source dataset)

end Library

end SpatialAudio
