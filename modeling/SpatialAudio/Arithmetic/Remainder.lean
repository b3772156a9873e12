/-!
# Arithmetic/Remainder — exact remainders of single-precision numbers

Every finite single is a whole number of **units** of `2 ^ -149`, the smallest positive single.
`units` and `ofUnits` pass between a magnitude and that whole number, so the remainder of two
singles is the remainder of two naturals: no rounding takes place anywhere in `remainder`.
`wrap` turns the remainder into the representative of an angle in one full turn.
-/

namespace SpatialAudio

-- Powers and sums are those of the core library, whatever else is imported.
scoped instance corePow {α : Type} [NatPow α] : Pow α Nat := instPowNat
scoped instance coreZero : Zero Nat := ⟨0⟩
attribute [default_instance 11000] corePow

namespace Single

/-! ## Magnitudes as whole numbers of units -/

/-- The magnitude of a finite single, counted in units of `2 ^ -149`. -/
def units (x : Float32) : Nat :=
  let word := x.toBits.toNat % 2 ^ 31
  let exponent := word / 2 ^ 23
  if exponent = 0 then word else (2 ^ 23 + word % 2 ^ 23) * 2 ^ (exponent - 1)

/-- The bit pattern of `n` units, for an `n` that some single attains: below `2 ^ 24` units the
pattern is `n` itself, above it the excess bits of `n` (all zero) move into the exponent field. -/
def unitsWord (n : Nat) : Nat :=
  if n < 2 ^ 24 then n
  else
    let excess := n.log2 - 23
    (excess + 1) * 2 ^ 23 + (n / 2 ^ excess - 2 ^ 23)

/-- The single of `n` units, negative if `negative` is set. -/
def ofUnits (negative : Bool) (n : Nat) : Float32 :=
  let word := UInt32.ofNat (unitsWord n)
  Float32.ofBits (if negative then word ||| 0x80000000 else word)

/-- The sign bit. -/
def isNegative (x : Float32) : Bool := x.toBits ≥ 0x80000000

/-- The quiet not-a-number. -/
def nan : Float32 := Float32.ofBits 0x7fc00000

/-! ## Remainders -/

/-- The exact remainder of `x` by `y`: smaller than `y` in magnitude, with the sign of `x`. -/
def remainder (x y : Float32) : Float32 :=
  if x.isNaN || y.isNaN || x.isInf || units y = 0 then nan
  else if y.isInf then x
  else ofUnits (isNegative x) (units x % units y)

/-- The representative of `x` modulo the positive number `turn`.  A negative remainder is moved up
by one turn, and that sum rounds: a tiny negative `x` gives `turn` itself. -/
def wrap (turn x : Float32) : Float32 :=
  let r := remainder x turn
  if r < 0 then r + turn else r

/-- An angle in degrees, wrapped into one turn. -/
def wrapDegrees (angle : Float32) : Float32 := wrap 360 angle

/-! ## Words of results -/

/-- Whether a word is that of no number. -/
def isNanWord (w : UInt32) : Bool := (Float32.ofBits w).isNaN

/-- A word of no number, marked as one that arithmetic passes on. -/
def quiet (w : UInt32) : UInt32 := w ||| 0x00400000

/-- The word of a result `x` of arithmetic on the words `a` and `b`.  If it is no number, then it is
the first of the operands that is none; an operation on numbers that has no answer gives the word
with the sign bit set. -/
def resultWord (a b : UInt32) (x : Float32) : UInt32 :=
  if !x.isNaN then x.toBits
  else if isNanWord a then quiet a
  else if isNanWord b then quiet b
  else 0xffc00000

/-- The word of a wrapped angle; an infinite angle has no place on a turn. -/
def wrapWord (w : UInt32) : UInt32 := resultWord w w (wrapDegrees (Float32.ofBits w))

/-! ## The total order -/

/-- The place of a word in the total order of singles: negative numbers first, larger magnitudes
earlier; `-0` directly before `0`; what is not a number at the ends, by its sign. -/
def rank (w : UInt32) : Int :=
  if w.toNat < 2 ^ 31 then w.toNat else (2 ^ 31 : Int) - 1 - w.toNat

end Single

end SpatialAudio
