/-!
# Text/CodePoints — sets of code points

A set of code points is a list of closed ranges, ascending and apart from each other.
-/

namespace SpatialAudio.Text

/-- A set of code points: its closed ranges in ascending order. -/
structure CodePoints where
  ranges : List (Nat × Nat)

namespace CodePoints

/-- Whether a character belongs to the set. -/
def contains (s : CodePoints) (c : Char) : Bool :=
  s.ranges.any fun r => r.1 ≤ c.toNat && c.toNat ≤ r.2

/-- Whether ranges are ascending and apart, all of them at or above `least`. -/
def ascending : (least : Nat) → List (Nat × Nat) → Bool
  | _, [] => true
  | least, (first, last) :: rest => least ≤ first && first ≤ last && ascending (last + 2) rest

end CodePoints

end SpatialAudio.Text
