import SpatialAudio.Arithmetic.Remainder

/-!
# Decimal/Shortest — the shortest decimal that names a double

A finite double is `significand * 2 ^ exponent`; the reals that round to it form an interval around
it (`Neighbourhood`).  `shortest?` walks the decimal grids from coarse to fine and stops at the
first grid with a point in that interval, so no decimal with fewer digits names the double; of two
such points it takes the nearer, and the upper one of two equally near.  All comparisons are between
whole numbers.
-/

namespace SpatialAudio

/-- A positive decimal `digits * 10 ^ exponent`. -/
structure Decimal where
  digits : Nat
  exponent : Int
deriving Repr, DecidableEq

namespace Decimal

/-! ## The interval of a double -/

/-- The reals that round to one positive double: `low`, `value` and `high` are numerators over the
one denominator `denominator`; the ends belong to the interval iff `closed`. -/
structure Neighbourhood where
  low : Nat
  value : Nat
  high : Nat
  denominator : Nat
  closed : Bool

/-- The interval of `significand * 2 ^ (scale - 1074)`.  The double below is only half as far away
if the significand is the least of its binade (`narrow`). -/
def Neighbourhood.ofParts (significand scale : Nat) (narrow : Bool) : Neighbourhood :=
  let up := 2 ^ scale
  { low := (4 * significand - if narrow then 1 else 2) * up
    value := 4 * significand * up
    high := (4 * significand + 2) * up
    denominator := 4 * 2 ^ 1074
    closed := significand % 2 = 0 }

/-- The interval of the double with the given magnitude bits (the sign bit cleared). -/
def Neighbourhood.ofWord (word : Nat) : Neighbourhood :=
  let exponent := word / 2 ^ 52
  let fraction := word % 2 ^ 52
  if exponent = 0 then ofParts fraction 0 false
  else ofParts (2 ^ 52 + fraction) (exponent - 1) (fraction = 0 && 1 < exponent)

/-! ## Decimal grids -/

/-- Brings `d * 10 ^ e` and `n / m` to whole numbers whose order is theirs. -/
def scaled (d : Nat) (e : Int) (n m : Nat) : Nat × Nat :=
  (d * 10 ^ e.toNat * m, n * 10 ^ (-e).toNat)

/-- Whether `d * 10 ^ e` lies in the interval. -/
def Neighbourhood.admits (r : Neighbourhood) (d : Nat) (e : Int) : Bool :=
  let (point, low) := scaled d e r.low r.denominator
  let (_, high) := scaled d e r.high r.denominator
  if r.closed then low ≤ point && point ≤ high else low < point && point < high

/-- The grid point at or below the value, in steps of `10 ^ e`. -/
def Neighbourhood.below (r : Neighbourhood) (e : Int) : Nat :=
  (r.value * 10 ^ (-e).toNat) / (r.denominator * 10 ^ e.toNat)

/-- Whether the value is at least as near to the grid point `d + 1` as to `d`, in steps of
`10 ^ e`. -/
def Neighbourhood.leansUp (r : Neighbourhood) (d : Nat) (e : Int) : Bool :=
  let (middle, value) := scaled (2 * d + 1) e (2 * r.value) r.denominator
  middle ≤ value

/-- The point of the grid `10 ^ e` that names the double, if there is one. -/
def Neighbourhood.onGrid? (r : Neighbourhood) (e : Int) : Option Decimal :=
  let d := r.below e
  match r.admits d e, r.admits (d + 1) e with
  | true, true => some ⟨if r.leansUp d e then d + 1 else d, e⟩
  | true, false => some ⟨d, e⟩
  | false, true => some ⟨d + 1, e⟩
  | false, false => none

/-- The first hit on the grids `10 ^ e`, `10 ^ (e - 1)`, …, of which there are `count`. -/
def Neighbourhood.firstHit? (r : Neighbourhood) : (count : Nat) → (e : Int) → Option Decimal
  | 0, _ => none
  | count + 1, e => (r.onGrid? e).or (r.firstHit? count (e - 1))

/-- The exponent of the leading decimal digit, found among `-324, …, 308` from above. -/
def Neighbourhood.leading (r : Neighbourhood) : (count : Nat) → (e : Int) → Int
  | 0, e => e
  | count + 1, e => if 0 < r.below e then e else r.leading count (e - 1)

/-- The shortest decimal that names the double with the given nonzero magnitude bits. -/
def shortest? (word : Nat) : Option Decimal :=
  let r := Neighbourhood.ofWord word
  r.firstHit? 18 (r.leading 633 308)

/-! ## Positional text -/

/-- The digits of `n` with `places` of them behind the point, which is left out together with
trailing zeros. -/
def withPoint (n places : Nat) : String :=
  let digits := Nat.toDigits 10 n
  let padded := List.replicate (places + 1 - digits.length) '0' ++ digits
  let cut := padded.length - places
  let fraction := (padded.drop cut).reverse.dropWhile (· = '0') |>.reverse
  String.ofList (padded.take cut ++ if fraction.isEmpty then [] else '.' :: fraction)

/-- Positional notation, never an exponent. -/
def positional (x : Decimal) : String :=
  if 0 ≤ x.exponent then withPoint (x.digits * 10 ^ x.exponent.toNat) 0
  else withPoint x.digits (-x.exponent).toNat

/-- The text of a double: the fewest digits that read back, in positional notation, a whole number
without a point. -/
def toText (x : Float) : String :=
  let word := x.toBits.toNat
  let sign := if 2 ^ 63 ≤ word then "-" else ""
  if x.isNaN then "NaN"
  else if x.isInf then sign ++ "inf"
  else match shortest? (word % 2 ^ 63) with
    | some d => sign ++ d.positional
    | none => sign ++ "0"

end Decimal

end SpatialAudio
