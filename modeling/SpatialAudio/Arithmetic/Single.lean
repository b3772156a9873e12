import SpatialAudio.Arithmetic.Remainder

/-!
# Arithmetic/Single — counting with single- and double-precision numbers

Conversions between numbers and naturals.  A conversion to a natural truncates and **saturates**:
what is negative or not a number becomes `0`, what is too large becomes the largest 64-bit word.
-/

namespace SpatialAudio

/-- One more than the largest 64-bit word. -/
def wordLimit : Nat := 2 ^ 64

namespace Single

/-- The single nearest to a 64-bit count. -/
def ofCount (n : Nat) : Float32 := n.toUInt64.toFloat32

/-- The single nearest to an integer. -/
def ofInt (n : Int) : Float32 :=
  if n < 0 then -(ofCount n.natAbs) else ofCount n.natAbs

/-- The largest count not above `x`, saturating. -/
def floorCount (x : Float32) : Nat := x.toUInt64.toNat

/-- Moves `x` into `[low, high]`; what is not a number stays so.  There is no answer unless the
bounds are in order. -/
def clamp? (low high x : Float32) : Option Float32 :=
  if low ≤ high then
    some (if x < low then low else if high < x then high else x)
  else none

/-- A full turn in radians. -/
def tau : Float32 := Float32.ofBits 0x40c90fdb

/-- A quarter turn in radians. -/
def quarterTurn : Float32 := Float32.ofBits 0x3fc90fdb

/-- The largest finite single. -/
def greatest : Float32 := Float32.ofBits 0x7f7fffff

/-- The negative zero, the neutral element of addition. -/
def negZero : Float32 := Float32.ofBits 0x80000000

/-- Degrees to radians: one product with the single nearest to `π / 180`. -/
def radians (degrees : Float32) : Float32 := degrees * Float32.ofBits 0x3c8efa35

end Single

namespace Double

/-- The magnitude bits of the double that equals a single with the given exponent and fraction
fields.  The least numbers of a single have no leading bit; a double has room to give them one. -/
def wideWord (exponent fraction : Nat) : Nat :=
  if exponent = 255 then 2047 * 2 ^ 52 + fraction * 2 ^ 29
  else if exponent ≠ 0 then (exponent + 896) * 2 ^ 52 + fraction * 2 ^ 29
  else if fraction = 0 then 0
  else
    let top := fraction.log2
    (top + 874) * 2 ^ 52 + (fraction - 2 ^ top) * 2 ^ (52 - top)

/-- The double that equals a single. -/
def ofSingle (x : Float32) : Float :=
  let word := x.toBits.toNat
  let magnitude := word % 2 ^ 31
  Float.ofBits (UInt64.ofNat
    (word / 2 ^ 31 * 2 ^ 63 + wideWord (magnitude / 2 ^ 23) (magnitude % 2 ^ 23)))

/-- The magnitude bits of the single nearest to a double with the given exponent and fraction
fields.  What is below the last bit of the single rounds it, to an even one if it is just half of
it; a carry moves on into the exponent field, and from there to infinity. -/
def narrowWord (exponent fraction : Nat) : Nat :=
  if exponent = 2047 then 255 * 2 ^ 23 + (if fraction = 0 then 0 else 2 ^ 22)
  else if 1151 ≤ exponent then 255 * 2 ^ 23
  else if exponent < 873 then 0
  else
    let significand := 2 ^ 52 + fraction
    let unit := 2 ^ (29 + (897 - exponent))
    let kept := significand / unit
    let rest := 2 * (significand % unit)
    let carry := unit < rest ∨ rest = unit ∧ kept % 2 = 1
    (exponent - 897) * 2 ^ 23 + (if carry then kept + 1 else kept)

/-- The single nearest to a double. -/
def toSingle (x : Float) : Float32 :=
  let word := x.toBits.toNat
  let magnitude := word % 2 ^ 63
  Float32.ofBits (UInt32.ofNat
    (word / 2 ^ 63 * 2 ^ 31 + narrowWord (magnitude / 2 ^ 52) (magnitude % 2 ^ 52)))

/-- The double nearest to a 64-bit count. -/
def ofCount (n : Nat) : Float := n.toUInt64.toFloat

/-- The largest count not above `x`, saturating. -/
def floorCount (x : Float) : Nat := x.toUInt64.toNat

/-- The smallest count not below `x`, saturating. -/
def ceilCount (x : Float) : Nat :=
  let n := floorCount x
  if ofCount n < x then min (n + 1) (wordLimit - 1) else n

end Double

end SpatialAudio
