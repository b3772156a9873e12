import SpatialAudio.Arithmetic.Single

/-!
# Proofs/Conversion — integers as single-precision numbers

The conversion of an integer keeps the 24 leading bits of its magnitude and rounds by the others.
Rounding may carry into a further bit, but never past the next integer that needs no rounding, so
the conversion is monotone (`Single.ofInt_mono`).
-/

namespace SpatialAudio.Single

open Float.Model Float.Model.UnpackedFloat

/-! ## Rounding -/

section Rounding

variable {a b : ExtendedMantissa}

/-- The order of mantissas together with the bits by which they are rounded. -/
def roundingOrder (a : ExtendedMantissa) : Nat :=
  4 * a.mantissa + 2 * a.roundBit.toNat + a.stickyBit.toNat

theorem roundingOrder_shiftRightOne (h : roundingOrder a ≤ roundingOrder b) :
    roundingOrder a.shiftRightOne ≤ roundingOrder b.shiftRightOne := by
  obtain ⟨m, r, s⟩ := a
  obtain ⟨m', r', s'⟩ := b
  have hodd : ∀ k : Nat, (k % 2 != 0).toNat = k % 2 := fun k => by
    rcases Nat.mod_two_eq_zero_or_one k with hk | hk <;> rw [hk] <;> rfl
  simp only [roundingOrder, ExtendedMantissa.shiftRightOne, hodd] at h ⊢
  cases r <;> cases s <;> cases r' <;> cases s' <;> simp only [Bool.toNat_true, Bool.toNat_false,
    Bool.or_false, Bool.or_true] at h ⊢ <;> omega

theorem roundingOrder_shift (h : roundingOrder a ≤ roundingOrder b) (n : Nat) :
    roundingOrder (a >>> n) ≤ roundingOrder (b >>> n) := by
  induction n with
  | zero => exact h
  | succ n ih => exact roundingOrder_shiftRightOne ih

theorem mantissa_shift (a : ExtendedMantissa) (n : Nat) :
    (a >>> n).mantissa = a.mantissa / 2 ^ n := by
  induction n with
  | zero => exact (Nat.div_one _).symm
  | succ n ih =>
    change (a >>> n).mantissa / 2 = _
    rw [ih, Nat.div_div_eq_div_mul, Nat.pow_succ]

/-- A mantissa rounds to itself or to the next one. -/
theorem roundedMantissa_bounds (a : ExtendedMantissa) :
    a.mantissa ≤ a.roundedMantissa ∧ a.roundedMantissa ≤ a.mantissa + 1 := by
  obtain ⟨m, r, s⟩ := a
  cases r <;> cases s <;> simp only [ExtendedMantissa.roundedMantissa, ExtendedMantissa.accuracy,
    Accuracy.roundToNearestEven] <;> omega

theorem roundedMantissa_mono (h : roundingOrder a ≤ roundingOrder b) :
    a.roundedMantissa ≤ b.roundedMantissa := by
  obtain ⟨m, r, s⟩ := a
  obtain ⟨m', r', s'⟩ := b
  simp only [roundingOrder] at h
  cases r <;> cases s <;> cases r' <;> cases s' <;> simp only [ExtendedMantissa.roundedMantissa,
    ExtendedMantissa.accuracy, Accuracy.roundToNearestEven, Bool.toNat_true, Bool.toNat_false]
    at h ⊢ <;> omega

end Rounding

/-! ## Counts -/

section Counts

variable {m n : Nat}

/-- A count with its first 24 bits in front of the point, and what rounds them behind. -/
def leading (n : Nat) : ExtendedMantissa :=
  ExtendedMantissa.ofMantissaAndAccuracy (n <<< (23 - n.log2)) .exact >>> (n.log2 - 23)

/-- The 24 leading bits of a count, rounded by the others. -/
def significand (n : Nat) : Nat := (leading n).roundedMantissa

theorem leading_bounds (h : 0 < n) :
    2 ^ 23 ≤ (leading n).mantissa ∧ (leading n).mantissa < 2 ^ 24 := by
  have hlow : 2 ^ n.log2 ≤ n := Nat.log2_self_le (Nat.ne_of_gt h)
  have hhigh : n < 2 ^ (n.log2 + 1) := Nat.lt_log2_self
  rw [leading, mantissa_shift]
  change 2 ^ 23 ≤ n <<< (23 - n.log2) / 2 ^ (n.log2 - 23)
    ∧ n <<< (23 - n.log2) / 2 ^ (n.log2 - 23) < 2 ^ 24
  rw [Nat.shiftLeft_eq]
  -- Few bits are moved up, many are moved down.
  rcases Nat.le_total n.log2 23 with hk | hk
  · rw [Nat.sub_eq_zero_of_le hk, Nat.pow_zero, Nat.div_one]
    have hscale : 2 ^ n.log2 * 2 ^ (23 - n.log2) = 2 ^ 23 := by
      rw [← Nat.pow_add, Nat.add_sub_cancel' hk]
    have hpos : 0 < 2 ^ (23 - n.log2) := Nat.two_pow_pos _
    refine ⟨hscale ▸ Nat.mul_le_mul_right _ hlow, ?_⟩
    calc n * 2 ^ (23 - n.log2) < 2 ^ (n.log2 + 1) * 2 ^ (23 - n.log2) :=
          Nat.mul_lt_mul_of_pos_right hhigh hpos
      _ = 2 ^ 24 := by rw [Nat.pow_succ, Nat.mul_right_comm, hscale, ← Nat.pow_succ]
  · rw [Nat.sub_eq_zero_of_le hk, Nat.pow_zero, Nat.mul_one]
    have hscale : 2 ^ 23 * 2 ^ (n.log2 - 23) = 2 ^ n.log2 := by
      rw [← Nat.pow_add, Nat.add_sub_cancel' hk]
    have hpos : 0 < 2 ^ (n.log2 - 23) := Nat.two_pow_pos _
    refine ⟨(Nat.le_div_iff_mul_le hpos).mpr (hscale ▸ hlow),
      (Nat.div_lt_iff_lt_mul hpos).mpr ?_⟩
    calc n < 2 ^ (n.log2 + 1) := hhigh
      _ = 2 ^ 24 * 2 ^ (n.log2 - 23) := by
        rw [Nat.pow_succ, ← hscale, Nat.mul_right_comm, ← Nat.pow_succ]

theorem significand_bounds (h : 0 < n) : 2 ^ 23 ≤ significand n ∧ significand n ≤ 2 ^ 24 := by
  have hleading := leading_bounds h
  have hrounded := roundedMantissa_bounds (leading n)
  unfold significand
  omega

/-- Of counts with equally many bits, the smaller one does not round to more. -/
theorem significand_mono (h : m ≤ n) (hlog : m.log2 = n.log2) : significand m ≤ significand n := by
  apply roundedMantissa_mono
  rw [leading, leading, hlog]
  apply roundingOrder_shift
  have hle : m <<< (23 - n.log2) ≤ n <<< (23 - n.log2) := by
    rw [Nat.shiftLeft_eq, Nat.shiftLeft_eq]
    exact Nat.mul_le_mul_right _ h
  change 4 * (m <<< (23 - n.log2)) + 2 * 0 + 0 ≤ 4 * (n <<< (23 - n.log2)) + 2 * 0 + 0
  omega

/-- The mantissa of the single nearest to a count.  If rounding carries, only one bit is left. -/
def mantissa (n : Nat) : Nat := if significand n = 2 ^ 24 then 2 ^ 23 else significand n

/-- The exponent of the single nearest to a count. -/
def exponent (n : Nat) : Int := if significand n = 2 ^ 24 then n.log2 - 22 else n.log2 - 23

theorem mantissa_bounds (h : 0 < n) : 2 ^ 23 ≤ mantissa n ∧ mantissa n < 2 ^ 24 := by
  have hbounds := significand_bounds h
  unfold mantissa
  split <;> omega

/-- The greater of two counts has the greater exponent, or the same and no smaller a mantissa. -/
theorem exponent_mantissa_mono (hm : 0 < m) (h : m ≤ n) :
    exponent m < exponent n ∨ exponent m = exponent n ∧ mantissa m ≤ mantissa n := by
  have hn : 0 < n := Nat.lt_of_lt_of_le hm h
  have hmbounds := significand_bounds hm
  have hnbounds := significand_bounds hn
  have hlog : m.log2 ≤ n.log2 :=
    (Nat.le_log2 (Nat.ne_of_gt hn)).mpr (Nat.le_trans (Nat.log2_self_le (Nat.ne_of_gt hm)) h)
  unfold exponent mantissa
  rcases Nat.eq_or_lt_of_le hlog with heq | hlt
  · have hmono := significand_mono h heq
    split <;> split <;> omega
  · split <;> split <;> omega

/-- A mantissa of no more than 24 bits is kept whole. -/
theorem shiftToTargetExponent_of_lt {e : Int} (hm : m < 2 ^ 24) (he : -149 ≤ e) :
    shiftToTargetExponent .binary32 m e .exact = (⟨m, false, false⟩, e) := by
  have hlog : m.log2 < 24 := by
    rcases Nat.eq_zero_or_pos m with rfl | hpos
    · decide
    · exact (Nat.log2_lt (Nat.ne_of_gt hpos)).mpr hm
  have hzero : (Format.binary32.targetExponent (totalExponent m e) - e).toNat = 0 := by
    rw [Format.targetExponent, totalExponent]
    change (max ((m.log2 : Int) + 1 + e - (24 : Nat)) (-149) - e).toNat = 0
    omega
  rw [shiftToTargetExponent, shiftToExponent, hzero, Int.natCast_zero, Int.add_zero]
  rfl

/-- One of 25 bits loses the last. -/
theorem shiftToTargetExponent_carry {e : Int} (he : -149 ≤ e) :
    shiftToTargetExponent .binary32 (2 ^ 24) e .exact = (⟨2 ^ 23, false, false⟩, e + 1) := by
  have hone : (Format.binary32.targetExponent (totalExponent (2 ^ 24) e) - e).toNat = 1 := by
    rw [Format.targetExponent, totalExponent, Nat.log2_two_pow]
    change (max ((24 : Nat) + 1 + e - (24 : Nat)) (-149) - e).toNat = 1
    omega
  rw [shiftToTargetExponent, shiftToExponent, hone]
  rfl

theorem log2_shiftLeft (h : 0 < n) (k : Nat) : (n <<< k).log2 = n.log2 + k := by
  have hpos : 0 < 2 ^ k := Nat.two_pow_pos k
  rw [Nat.shiftLeft_eq, Nat.log2_eq_iff (Nat.ne_of_gt (Nat.mul_pos h hpos)), Nat.pow_add,
    Nat.add_right_comm, Nat.pow_add]
  exact ⟨Nat.mul_le_mul_right _ (Nat.log2_self_le (Nat.ne_of_gt h)),
    Nat.mul_lt_mul_of_pos_right Nat.lt_log2_self hpos⟩

/-- Before rounding, a count is brought to its 24 leading bits. -/
theorem shiftToTargetExponent_leading (h : 0 < n) :
    shiftToTargetExponent .binary32 (n <<< (23 - n.log2)) (-((23 - n.log2 : Nat) : Int)) .exact
      = (leading n, (n.log2 : Int) - 23) := by
  have hlog := log2_shiftLeft h (23 - n.log2)
  have hshift : (Format.binary32.targetExponent (totalExponent (n <<< (23 - n.log2))
      (-((23 - n.log2 : Nat) : Int))) - -((23 - n.log2 : Nat) : Int)).toNat = n.log2 - 23 := by
    rw [Format.targetExponent, totalExponent, hlog]
    change (max (((n.log2 + (23 - n.log2) : Nat) : Int) + 1 + -((23 - n.log2 : Nat) : Int)
      - (24 : Nat)) (-149) - -((23 - n.log2 : Nat) : Int)).toNat = _
    omega
  have hexponent : -((23 - n.log2 : Nat) : Int) + ((n.log2 - 23 : Nat) : Int)
      = (n.log2 : Int) - 23 := by omega
  rw [shiftToTargetExponent, shiftToExponent, hshift, hexponent]
  rfl

theorem mantissa_pos (h : 0 < n) : 0 < mantissa n :=
  Nat.lt_of_lt_of_le (by decide) (mantissa_bounds h).1

theorem roundWithAccuracy_eq (h : 0 < n) :
    roundWithAccuracy .binary32 .positive (n <<< (23 - n.log2)) (-((23 - n.log2 : Nat) : Int)) .exact
      = .finite .positive (mantissa n) (exponent n) (mantissa_pos h) := by
  have hbounds := significand_bounds h
  have hsecond : shiftToTargetExponent .binary32 (leading n).roundedMantissa
      ((n.log2 : Int) - 23) .exact = (⟨mantissa n, false, false⟩, exponent n) := by
    change shiftToTargetExponent .binary32 (significand n) _ _ = _
    unfold mantissa exponent
    split
    · next hcarry =>
      rw [hcarry, shiftToTargetExponent_carry (by omega)]
      congr 1
      omega
    · exact shiftToTargetExponent_of_lt (by omega) (by omega)
  unfold roundWithAccuracy
  rw [shiftToTargetExponent_leading h]
  dsimp only
  rw [hsecond]
  exact dif_neg (Nat.ne_of_gt (mantissa_pos h))

theorem ofNat_eq (h : 0 < n) :
    UnpackedFloat.ofNat .binary32 n
      = .finite .positive (mantissa n) (exponent n) (mantissa_pos h) := by
  have hcompare : compare (n : Int) 0 = .gt := Int.compare_eq_gt.mpr (by omega)
  have htarget : Format.binary32.targetExponent (totalExponent n 0) = (n.log2 : Int) - 23 := by
    rw [Format.targetExponent, totalExponent]
    change max ((n.log2 : Int) + 1 + 0 - (24 : Nat)) (-149) = _
    omega
  have hshift : (0 - ((n.log2 : Int) - 23)).toNat = 23 - n.log2 := by omega
  rw [UnpackedFloat.ofNat, UnpackedFloat.ofInt, UnpackedFloat.normalize, hcompare]
  change UnpackedFloat.round .binary32 .positive n 0 = _
  rw [UnpackedFloat.round, htarget, decreaseExponent, hshift, Int.zero_sub]
  exact roundWithAccuracy_eq h

theorem exponent_bounds (h : n < wordLimit) : -23 ≤ exponent n ∧ exponent n ≤ 104 := by
  have hlog : n.log2 < 64 := by
    rcases Nat.eq_zero_or_pos n with rfl | hpos
    · decide
    · exact (Nat.log2_lt (Nat.ne_of_gt hpos)).mpr h
  unfold exponent
  split <;> omega

end Counts

/-! ## Storing numbers of 24 bits -/

theorem unpackSign_pack (s : Sign) (e : BitVec 8) (m : BitVec 23) :
    unpackSign (packComponents .binary32 s e m) = s.toBitVec := by
  change (s.toBitVec ++ e ++ m).extractLsb' 31 1 = s.toBitVec
  rw [BitVec.extractLsb'_append_eq_of_le (by decide), BitVec.extractLsb'_append_eq_of_le (by decide)]
  cases s <;> rfl

/-- The exponent of a number of 24 bits as it is stored. -/
def storedExponent (e : Int) : BitVec 8 := BitVec.ofNat 8 (e + 127 + 23).toNat

theorem toNat_storedExponent {e : Int} (he : -149 ≤ e) (he' : e ≤ 104) :
    ((storedExponent e).toNat : Int) = e + 150 := by
  rw [storedExponent, BitVec.toNat_ofNat]
  omega

/-- It is neither that of the infinities nor that of the subnormal numbers. -/
theorem storedExponent_ne {e : Int} (he : -149 ≤ e) (he' : e ≤ 104) :
    storedExponent e ≠ -1#8 ∧ storedExponent e ≠ 0#8 := by
  have hstored := toNat_storedExponent he he'
  constructor
  · intro h
    rw [h] at hstored
    change (255 : Int) = e + 150 at hstored
    omega
  · intro h
    rw [h] at hstored
    change (0 : Int) = e + 150 at hstored
    omega

/-- What is stored with another exponent has a leading bit in front of the stored ones. -/
theorem unpack_of_ordinary {b : BitVec Format.binary32.numBits} {s : Sign} {m : Nat} {e : Int}
    {hm : 0 < m} (hordinary : unpackExponent b ≠ -1#8) (hnormal : unpackExponent b ≠ 0#8)
    (hs : Sign.ofBitVec (unpackSign b) = s) (hfraction : (1#1 ++ unpackMantissa b).toNat = m)
    (he : ((unpackExponent b).toNat : Int) - (127 + 23) = e) :
    UnpackedFloat.unpack .binary32 b = .finite s m e hm := by
  subst hs hfraction he
  exact (if_neg hordinary).trans (if_neg hnormal)

/-- A number of 24 bits is stored as it is. -/
theorem unpack_pack (s : Sign) {m : Nat} {e : Int} (hm : 0 < m) (hlow : 2 ^ 23 ≤ m)
    (hhigh : m < 2 ^ 24) (he : -149 ≤ e) (he' : e ≤ 104) :
    (Float32.Model.pack (.finite s m e hm)).unpack = .finite s m e hm := by
  have hlog : m.log2 = 23 := (Nat.log2_eq_iff (by omega)).mpr ⟨hlow, hhigh⟩
  have hbits : UnpackedFloat.pack .binary32 (.finite s m e hm)
      = packComponents .binary32 s (storedExponent e) (BitVec.ofNat 23 m) := by
    have hroom : ¬ 2 ^ 8 ≤ (e + 127 + 23).toNat + 1 := by omega
    change (if 2 ^ 8 ≤ (e + 127 + 23).toNat + 1 then _ else if m.log2 + 1 = 24 then _ else _) = _
    rw [if_neg hroom, if_pos (by rw [hlog])]
    rfl
  -- the leading bit is left out
  have hmantissa : (1#1 ++ BitVec.ofNat 23 m).toNat = m := by
    rw [BitVec.toNat_append, ← Nat.shiftLeft_add_eq_or_of_lt (BitVec.isLt _), BitVec.toNat_ofNat]
    change 1 <<< 23 + m % 2 ^ 23 = m
    omega
  have hdown : ((storedExponent e).toNat : Int) - (127 + 23) = e := by
    rw [toNat_storedExponent he he']
    omega
  have ⟨hordinary, hnormal⟩ := storedExponent_ne he he'
  change UnpackedFloat.unpack .binary32 (UnpackedFloat.pack .binary32 (.finite s m e hm)) = _
  rw [hbits]
  have hexponent := @unpackExponent_packComponents .binary32 s (storedExponent e) (.ofNat 23 m)
  have hfraction := @unpackMantissa_packComponents .binary32 s (storedExponent e) (.ofNat 23 m)
  refine unpack_of_ordinary ?_ ?_ ?_ ?_ ?_
  · exact fun h => hordinary (hexponent.symm.trans h)
  · exact fun h => hnormal (hexponent.symm.trans h)
  · rw [unpackSign_pack]
    cases s <;> rfl
  · rw [hfraction]
    exact hmantissa
  · rw [hexponent]
    exact hdown

/-! ## Integers -/

theorem unpack_ofCount {n : Nat} (h : 0 < n) (hn : n < wordLimit) :
    (ofCount n).toModel.unpack = .finite .positive (mantissa n) (exponent n) (mantissa_pos h) := by
  have hword : n.toUInt64.toNat = n := Nat.mod_eq_of_lt hn
  have hbounds := mantissa_bounds h
  have hexponent := exponent_bounds hn
  change (Float32.Model.pack (UnpackedFloat.ofNat .binary32 n.toUInt64.toNat)).unpack = _
  rw [hword, ofNat_eq h]
  exact unpack_pack _ _ hbounds.1 hbounds.2 (by omega) hexponent.2

theorem unpack_neg_ofCount {n : Nat} (h : 0 < n) (hn : n < wordLimit) :
    (-(ofCount n)).toModel.unpack
      = .finite .negative (mantissa n) (exponent n) (mantissa_pos h) := by
  have hbounds := mantissa_bounds h
  have hexponent := exponent_bounds hn
  change (Float32.Model.pack (ofCount n).toModel.unpack.neg).unpack = _
  rw [unpack_ofCount h hn]
  exact unpack_pack _ _ hbounds.1 hbounds.2 (by omega) hexponent.2

theorem le_of_unpack {x y : Float32} (h : x.toModel.unpack.le y.toModel.unpack = true) : x ≤ y :=
  decide_eq_true h

/-- Numbers of 24 bits are ordered by their exponents and then by their mantissas. -/
theorem isLE_compare_mantissa {m n : Nat} (hm : 0 < m) (h : m ≤ n) :
    ((compare (exponent m) (exponent n)).then (compare (mantissa m) (mantissa n))).isLE = true := by
  rcases exponent_mantissa_mono hm h with hlt | ⟨heq, hle⟩
  · rw [Int.compare_eq_lt.mpr hlt]
    rfl
  · rw [Int.compare_eq_eq.mpr heq]
    exact Nat.isLE_compare.mpr hle

/-- **The conversion of integers is monotone.** -/
theorem ofInt_mono {a b : Int} (ha : a.natAbs < wordLimit) (hb : b.natAbs < wordLimit)
    (h : a ≤ b) : ofInt a ≤ ofInt b := by
  apply le_of_unpack
  unfold ofInt
  rcases Int.lt_trichotomy a 0 with haneg | rfl | hapos
  case inl =>
    rw [if_pos haneg, unpack_neg_ofCount (by omega) ha]
    rcases Int.lt_trichotomy b 0 with hbneg | rfl | hbpos
    · rw [if_pos hbneg, unpack_neg_ofCount (by omega) hb]
      change (Ordering.swap _).isLE = true
      rw [Ordering.swap_then, Int.compare_swap, Nat.compare_swap]
      exact isLE_compare_mantissa (by omega) (by omega)
    · rfl
    · rw [if_neg (by omega), unpack_ofCount (by omega) hb]
      rfl
  case inr.inl =>
    rcases Int.lt_trichotomy b 0 with hbneg | rfl | hbpos
    · omega
    · rfl
    · rw [if_neg (by omega), if_neg (by omega), unpack_ofCount (by omega) hb]
      rfl
  case inr.inr =>
    rw [if_neg (by omega), if_neg (by omega), unpack_ofCount (by omega) ha,
      unpack_ofCount (by omega) hb]
    exact isLE_compare_mantissa (by omega) (by omega)

end SpatialAudio.Single
