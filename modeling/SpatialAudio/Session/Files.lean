/-!
# Session/Files — paths, and the files they lead to

Slashes take a path apart, and two things are read off its parts.  The **key** of a path says which
paths are equal: a dot in front and a slash in front count, other dots and empty parts do not.  Its
**place** says which file it leads to: a dot in front leads nowhere, but at the end of a path a dot
or an empty part asks for a directory.  So `y` and `./y` lead to one file and are not equal, while
`y` and `y/` are equal and do not lead to one file.

`Files` maps the places of paths to bytes.  Which directories there are is not looked at: every
write is one that went through, and two dots are a part of a path like any other.
-/

namespace SpatialAudio

/-! ## Paths -/

/-- A path to a file, as it was written. -/
abbrev DatasetPath := String

namespace DatasetPath

/-- The parts of a text between slashes: the first one, and all others. -/
def split : List Char → List Char × List (List Char)
  | [] => ([], [])
  | c :: rest =>
    let (first, others) := split rest
    if c = '/' then ([], first :: others) else (c :: first, others)

/-- Whether a part leads on: it is neither empty nor a dot. -/
def leads (part : List Char) : Bool := part ≠ [] ∧ part ≠ ['.']

/-- The first part, which is empty behind the root, and all others that lead on. -/
def keyOf (text : List Char) : List (List Char) :=
  if text = [] then [] else (split text).1 :: (split text).2.filter leads

/-- What makes paths equal. -/
def key (p : DatasetPath) : List (List Char) := keyOf p.toList

/-- The parts that lead on, and in any case the last. -/
def way : List (List Char) → List (List Char)
  | [] => []
  | [last] => [last]
  | part :: rest => if leads part then part :: way rest else way rest

/-- The way from the root, for which an empty part stands, or from where one is. -/
def placeOf (text : List Char) : List (List Char) :=
  let (first, others) := split text
  if first = [] ∧ others ≠ [] then [] :: way others else way (first :: others)

/-- Where a path leads. -/
def place (p : DatasetPath) : List (List Char) := placeOf p.toList

end DatasetPath

/-! ## Files -/

/-- Files, by the places of the paths that lead to them. -/
structure Files where
  entries : List (List (List Char) × List UInt8)

namespace Files

/-- No files. -/
def empty : Files := ⟨[]⟩

/-- Writes a file in place of any other that the path leads to. -/
def write (f : Files) (path : DatasetPath) (bytes : List UInt8) : Files :=
  ⟨(path.place, bytes) :: f.entries.filter fun e => e.1 ≠ path.place⟩

/-- The contents of the file that a path leads to. -/
def read? (f : Files) (path : DatasetPath) : Option (List UInt8) :=
  (f.entries.find? fun e => e.1 = path.place).map (·.2)

end Files

end SpatialAudio
