import Mathlib
import SpatialAudio.Proofs.Conversion

/-!
# Proofs/NumberLine — where single-precision numbers lie, and how results are rounded

A word has a sign and a magnitude, and stands for a mantissa and an exponent (`Denotes`).
Magnitudes grow with the numbers they stand for, so the words of numbers are ordered as the numbers
are (`lt_iff_level`), and ranks are this order made total: the two zeros are told apart, and what is
no number stands at the ends (`rank_lt_iff`, `rank_lt_of_nan`).

The **place** of a finite single is the number itself, counted in units: places are exact, and
singles are ordered as their places (`lt_iff_place`).  Results are **rounded**: a result has the
place of the exact one, or one with no number in between that could be represented (`RoundsPlace`).
This is proved once of a mantissa that is too long (`exists_round_eq`), and so of sums and
differences (`place_add`, `place_sub`).
-/

namespace SpatialAudio.Single

open Float.Model Float.Model.UnpackedFloat

/-! ## What words stand for -/

/-- A word without its sign. -/
def magnitude (w : UInt32) : Nat := w.toNat % 2 ^ 31

/-- The sign of a word. -/
def sign (w : UInt32) : Sign := if w.toNat < 2 ^ 31 then .positive else .negative

/-- A mantissa and an exponent as a finite single has them. -/
structure Canonical (m : Nat) (e : Int) : Prop where
  pos : 0 < m
  lt : m < 2 ^ 24
  low : -149 ≤ e
  high : e ≤ 104
  leading : 2 ^ 23 ≤ m ∨ e = -149

/-- What a word stands for. -/
inductive Denotes (w : UInt32) : UnpackedFloat → Prop
  | zero (h : magnitude w = 0) : Denotes w (.zero (sign w))
  | finite {m : Nat} {e : Int} (hm : 0 < m) (hcanonical : Canonical m e)
      (h : magnitude w = (e + 149).toNat * 2 ^ 23 + m) : Denotes w (.finite (sign w) m e hm)
  | infinity (h : magnitude w = 255 * 2 ^ 23) : Denotes w (.infinity (sign w))
  | nan (h : 255 * 2 ^ 23 < magnitude w) : Denotes w .notANumber

theorem toNat_unpackMantissa (w : UInt32) :
    (@unpackMantissa .binary32 w.toBitVec).toNat = magnitude w % 2 ^ 23 := by
  change (w.toBitVec.extractLsb' 0 23).toNat = _
  rw [BitVec.extractLsb'_toNat, Nat.shiftRight_zero, magnitude, Nat.mod_mod_of_dvd _ (by decide)]
  rfl

theorem toNat_unpackExponent (w : UInt32) :
    (@unpackExponent .binary32 w.toBitVec).toNat = magnitude w / 2 ^ 23 := by
  change (w.toBitVec.extractLsb' 23 8).toNat = _
  rw [BitVec.extractLsb'_toNat, Nat.shiftRight_eq_div_pow, magnitude]
  change w.toNat / 2 ^ 23 % 2 ^ 8 = w.toNat % (2 ^ 23 * 2 ^ 8) / 2 ^ 23
  rw [Nat.mod_mul_right_div_self]

theorem ofBitVec_unpackSign (w : UInt32) :
    Sign.ofBitVec (@unpackSign .binary32 w.toBitVec) = sign w := by
  have hword := w.toNat_lt
  have hbit : (@unpackSign .binary32 w.toBitVec).toNat = w.toNat / 2 ^ 31 := by
    change (w.toBitVec.extractLsb' 31 1).toNat = _
    rw [BitVec.extractLsb'_toNat, Nat.shiftRight_eq_div_pow]
    change w.toNat / 2 ^ 31 % 2 = _
    omega
  rw [Sign.ofBitVec, sign]
  congr 1
  rw [← BitVec.toNat_inj, hbit]
  change (w.toNat / 2 ^ 31 = 0) = _
  rw [eq_iff_iff]
  omega

theorem denotes (w : UInt32) : Denotes w (UnpackedFloat.unpack .binary32 w.toBitVec) := by
  have hmantissa := toNat_unpackMantissa w
  have hexponent := toNat_unpackExponent w
  have hbound : magnitude w < 2 ^ 31 := Nat.mod_lt _ (by decide)
  have hsplit := Nat.div_add_mod' (magnitude w) (2 ^ 23)
  have hmantissa_zero : @unpackMantissa .binary32 w.toBitVec = 0#23 ↔ magnitude w % 2 ^ 23 = 0 := by
    rw [← hmantissa, ← BitVec.toNat_inj]
    rfl
  have hexponent_zero : @unpackExponent .binary32 w.toBitVec = 0#8 ↔ magnitude w / 2 ^ 23 = 0 := by
    rw [← hexponent, ← BitVec.toNat_inj]
    rfl
  have hexponent_max : @unpackExponent .binary32 w.toBitVec = -1#8 ↔
      magnitude w / 2 ^ 23 = 255 := by
    rw [← hexponent, ← BitVec.toNat_inj]
    rfl
  have hbias : (Format.binary32.exponentBias : Int) = 127 := rfl
  have hbits : Format.binary32.mantissaBitsWithoutImplicit = 23 := rfl
  unfold UnpackedFloat.unpack
  dsimp only
  rw [ofBitVec_unpackSign]
  by_cases hmax : magnitude w / 2 ^ 23 = 255
  · rw [if_pos (hexponent_max.mpr hmax)]
    by_cases hzero : magnitude w % 2 ^ 23 = 0
    · rw [if_pos (hmantissa_zero.mpr hzero)]
      exact .infinity (by omega)
    · rw [if_neg fun h => hzero (hmantissa_zero.mp h)]
      exact .nan (by omega)
  · rw [if_neg fun h => hmax (hexponent_max.mp h)]
    by_cases hmin : magnitude w / 2 ^ 23 = 0
    · rw [if_pos (hexponent_zero.mpr hmin)]
      by_cases hzero : magnitude w % 2 ^ 23 = 0
      · rw [dif_pos (hmantissa_zero.mpr hzero)]
        exact .zero (by omega)
      · rw [dif_neg fun h => hzero (hmantissa_zero.mp h)]
        exact .finite _ ⟨by omega, by omega, by omega, by omega, by omega⟩ (by omega)
    · have hone : (1#1 ++ @unpackMantissa .binary32 w.toBitVec).toNat
          = 2 ^ 23 + magnitude w % 2 ^ 23 := by
        rw [BitVec.toNat_append, ← Nat.shiftLeft_add_eq_or_of_lt (BitVec.isLt _), hmantissa]
        rfl
      rw [if_neg fun h => hmin (hexponent_zero.mp h)]
      exact .finite _ ⟨by omega, by omega, by omega, by omega, by omega⟩ (by omega)

/-! ## The order of words -/

/-- The place of a word among all that stand for numbers; both zeros have the same. -/
def level (w : UInt32) : Int := (sign w).apply (magnitude w)

/-- The word stands for a number, or for an infinite one. -/
def IsNumber (w : UInt32) : Prop := magnitude w ≤ 255 * 2 ^ 23

theorem compare_canonical {m m' : Nat} {e e' : Int} (h : Canonical m e) (h' : Canonical m' e') :
    (compare e e').then (compare m m')
      = compare (((e + 149).toNat * 2 ^ 23 + m : Nat) : Int)
          ((e' + 149).toNat * 2 ^ 23 + m' : Nat) := by
  obtain ⟨hpos, hlt, hlow, hhigh, hleading⟩ := h
  obtain ⟨hpos', hlt', hlow', hhigh', hleading'⟩ := h'
  rcases Int.lt_trichotomy e e' with hless | rfl | hmore
  · rw [Int.compare_eq_lt.mpr hless, Ordering.lt_then, eq_comm, Int.compare_eq_lt]
    omega
  · rw [Int.compare_eq_eq.mpr rfl, Ordering.eq_then, Nat.compare_eq_ite_lt, Int.compare_eq_ite_lt]
    simp only [Int.ofNat_lt, Nat.add_lt_add_iff_left]
  · rw [Int.compare_eq_gt.mpr hmore, Ordering.gt_then, eq_comm, Int.compare_eq_gt]
    omega

theorem compare_neg (a b : Int) : compare (-a) (-b) = (compare a b).swap := by
  rw [Int.compare_swap, Int.compare_eq_ite_lt, Int.compare_eq_ite_lt]
  simp only [Int.neg_lt_neg_iff]

/-- How any number compares to one of greater magnitude, by the sign of that. -/
def beforeGreater : Sign → Ordering
  | .positive => .lt
  | .negative => .gt

theorem compare_of_magnitude_lt (s s' : Sign) {a b : Nat} (h : a < b) :
    compare (s.apply a) (s'.apply b) = beforeGreater s' := by
  cases s' with
  | positive =>
    refine Int.compare_eq_lt.mpr ?_
    cases s <;> simp only [Sign.apply] <;> omega
  | negative =>
    refine Int.compare_eq_gt.mpr ?_
    cases s <;> simp only [Sign.apply] <;> omega

theorem compare_of_magnitude_gt (s s' : Sign) {a b : Nat} (h : b < a) :
    compare (s.apply a) (s'.apply b) = (beforeGreater s).swap := by
  rw [← compare_of_magnitude_lt s' s h, Int.compare_swap]

/-- What words stand for compares as the words do: by their magnitudes, unless both are zero, both
infinite or both finite. -/
theorem Denotes.compare {v w : UInt32} {x y : UnpackedFloat} (hx : Denotes v x) (hy : Denotes w y)
    (hv : IsNumber v) (hw : IsNumber w) : x.compare y = some (compare (level v) (level w)) := by
  unfold IsNumber at hv hw
  unfold level
  cases hx with
  | nan h => omega
  | zero h =>
    cases hy with
    | nan h' => omega
    | zero h' =>
      rw [h, h']
      cases sign v <;> cases sign w <;> rfl
    | finite _ hc h' =>
      have hpos := hc.pos
      rw [compare_of_magnitude_lt _ _ (by omega)]
      cases sign v <;> cases sign w <;> rfl
    | infinity h' =>
      rw [compare_of_magnitude_lt _ _ (by omega)]
      cases sign v <;> cases sign w <;> rfl
  | finite _ hc h =>
    have hpos := hc.pos
    have hhigh := hc.high
    have hbound := hc.lt
    cases hy with
    | nan h' => omega
    | zero h' =>
      rw [compare_of_magnitude_gt _ _ (by omega)]
      cases sign v <;> cases sign w <;> rfl
    | finite _ hc' h' =>
      have hpos' := hc'.pos
      rw [h, h']
      cases sign v <;> cases sign w
      · exact congrArg some ((congrArg _ (compare_canonical hc hc')).trans (compare_neg _ _).symm)
      · exact congrArg some (Int.compare_eq_lt.mpr (by simp only [Sign.apply]; omega)).symm
      · exact congrArg some (Int.compare_eq_gt.mpr (by simp only [Sign.apply]; omega)).symm
      · exact congrArg some (compare_canonical hc hc')
    | infinity h' =>
      rw [compare_of_magnitude_lt _ _ (by omega)]
      cases sign v <;> cases sign w <;> rfl
  | infinity h =>
    cases hy with
    | nan h' => omega
    | zero h' =>
      rw [compare_of_magnitude_gt _ _ (by omega)]
      cases sign v <;> cases sign w <;> rfl
    | finite _ hc h' =>
      have hhigh := hc.high
      have hbound := hc.lt
      rw [compare_of_magnitude_gt _ _ (by omega)]
      cases sign v <;> cases sign w <;> rfl
    | infinity h' =>
      rw [h, h']
      cases sign v <;> cases sign w <;> rfl

/-! ## Words of what is computed -/

theorem toNat_packComponents (s : Sign) (e : BitVec 8) (m : BitVec 23) :
    (packComponents .binary32 s e m).toNat
      = s.toBitVec.toNat * 2 ^ 31 + (e.toNat * 2 ^ 23 + m.toNat) := by
  change (s.toBitVec ++ e ++ m).toNat = _
  have he := e.isLt
  have hm := m.isLt
  rw [BitVec.toNat_append, BitVec.toNat_append, ← Nat.shiftLeft_add_eq_or_of_lt he,
    ← Nat.shiftLeft_add_eq_or_of_lt hm, Nat.shiftLeft_eq, Nat.shiftLeft_eq]
  omega

/-- A finite number is stored as its exponent and its mantissa. -/
theorem toNat_pack_finite (s : Sign) {m : Nat} {e : Int} (hm : 0 < m) (h : Canonical m e) :
    (UnpackedFloat.pack .binary32 (.finite s m e hm)).toNat
      = s.toBitVec.toNat * 2 ^ 31 + ((e + 149).toNat * 2 ^ 23 + m) := by
  obtain ⟨-, hlt, hlow, hhigh, hleading⟩ := h
  have hroom : ¬ 2 ^ 8 ≤ (e + 127 + 23).toNat + 1 := by omega
  change (if 2 ^ 8 ≤ (e + 127 + 23).toNat + 1 then _
    else if m.log2 + 1 = 24 then packComponents .binary32 s (BitVec.ofNat 8 (e + 127 + 23).toNat)
      (BitVec.ofNat 23 m)
    else packComponents .binary32 s 0#8 (BitVec.ofNat 23 m)).toNat = _
  rw [if_neg hroom]
  split
  · next hlog =>
    have hle : 2 ^ 23 ≤ m := (Nat.log2_eq_iff (by omega)).mp (show m.log2 = 23 by omega) |>.1
    rw [toNat_packComponents, BitVec.toNat_ofNat, BitVec.toNat_ofNat]
    omega
  · next hlog =>
    have hle : ¬ 2 ^ 23 ≤ m := fun hle =>
      hlog (congrArg (· + 1) ((Nat.log2_eq_iff (by omega)).mpr ⟨hle, hlt⟩))
    rw [toNat_packComponents, BitVec.toNat_ofNat, BitVec.toNat_ofNat]
    omega

theorem toNat_eq (w : UInt32) : w.toNat = (sign w).toBitVec.toNat * 2 ^ 31 + magnitude w := by
  have hword := w.toNat_lt
  unfold sign magnitude
  split
  · change w.toNat = 0 * 2 ^ 31 + _
    omega
  · change w.toNat = 1 * 2 ^ 31 + _
    omega

theorem sign_magnitude_eq {w : UInt32} {s : Sign} {n : Nat}
    (h : w.toNat = s.toBitVec.toNat * 2 ^ 31 + n) (hn : n < 2 ^ 31) :
    sign w = s ∧ magnitude w = n := by
  unfold sign magnitude
  rw [h]
  cases s with
  | negative =>
    rw [show Sign.negative.toBitVec.toNat = 1 from rfl]
    exact ⟨if_neg (by omega), by omega⟩
  | positive =>
    rw [show Sign.positive.toBitVec.toNat = 0 from rfl]
    exact ⟨if_pos (by omega), by omega⟩

/-- What a word stands for is stored as this word. -/
theorem Denotes.toNat_pack {w : UInt32} {x : UnpackedFloat} (h : Denotes w x) (hw : IsNumber w) :
    (UnpackedFloat.pack .binary32 x).toNat = w.toNat := by
  rw [toNat_eq w]
  cases h with
  | zero h =>
    rw [h]
    exact toNat_packComponents _ _ _
  | finite hm hcanonical h =>
    rw [h]
    exact toNat_pack_finite _ hm hcanonical
  | infinity h =>
    rw [h]
    exact toNat_packComponents _ _ _
  | nan h => exact absurd hw (Nat.not_le_of_lt h)

/-- The word of a number is kept. -/
theorem toBits_ofBits {w : UInt32} (h : IsNumber w) : (Float32.ofBits w).toBits = w :=
  UInt32.toNat_inj.mp ((denotes w).toNat_pack h)

/-- **The order of singles is that of the places of their words.** -/
theorem lt_iff_level {x y : Float32} (hx : IsNumber x.toBits) (hy : IsNumber y.toBits) :
    x < y ↔ level x.toBits < level y.toBits := by
  have hcompare := (denotes x.toBits).compare (denotes y.toBits) hx hy
  have hlt : x < y ↔ (x.toModel.unpack.compare y.toModel.unpack == some .lt) = true :=
    decide_eq_true_iff
  change x.toModel.unpack.compare y.toModel.unpack = _ at hcompare
  rw [hlt, beq_iff_eq, hcompare, Option.some_inj, Int.compare_eq_lt]

theorem le_iff_level {x y : Float32} (hx : IsNumber x.toBits) (hy : IsNumber y.toBits) :
    x ≤ y ↔ level x.toBits ≤ level y.toBits := by
  have hcompare := (denotes x.toBits).compare (denotes y.toBits) hx hy
  have hle : x ≤ y ↔ (x.toModel.unpack.compare y.toModel.unpack).any (·.isLE) = true :=
    decide_eq_true_iff
  change x.toModel.unpack.compare y.toModel.unpack = _ at hcompare
  rw [hle, hcompare, Option.any_some, Int.isLE_compare]

theorem isNanWord_eq_false {w : UInt32} : isNanWord w = false ↔ IsNumber w := by
  constructor
  · intro h
    have hd := denotes w
    generalize hx : UnpackedFloat.unpack .binary32 w.toBitVec = x at hd
    cases hd with
    | zero h' => exact h'.trans_le (Nat.zero_le _)
    | finite hm hc h' =>
      have hhigh := hc.high
      have hlt := hc.lt
      unfold IsNumber
      omega
    | infinity h' => exact h'.le
    | nan _ =>
      have hnan : isNanWord w = true := by
        change (UnpackedFloat.unpack .binary32 (UnpackedFloat.pack .binary32
          (.unpack .binary32 w.toBitVec))).isNaN = true
        rw [hx]
        rfl
      cases hnan.symm.trans h
  · intro h
    have hd := denotes (Float32.ofBits w).toBits
    change (UnpackedFloat.unpack .binary32 (Float32.ofBits w).toBits.toBitVec).isNaN = false
    generalize UnpackedFloat.unpack .binary32 (Float32.ofBits w).toBits.toBitVec = x at hd
    cases hd with
    | nan hnan => exact absurd h (toBits_ofBits h ▸ Nat.not_le_of_lt hnan)
    | zero | finite | infinity => rfl

/-! ## The total order -/

/-- Different words have different ranks. -/
theorem rank_injective {v w : UInt32} (h : rank v = rank w) : v = w := by
  have hv := v.toNat_lt
  have hw := w.toNat_lt
  apply UInt32.toNat_inj.mp
  unfold rank at h
  omega

/-- **Numbers are ranked by their order**, and the negative zero directly before the other one. -/
theorem rank_lt_iff {v w : UInt32} (hv : isNanWord v = false) (hw : isNanWord w = false) :
    rank v < rank w ↔
      Float32.ofBits v < Float32.ofBits w ∨ v = 0x80000000 ∧ w = 0 := by
  rw [isNanWord_eq_false] at hv hw
  have hv' := v.toNat_lt
  have hw' := w.toNat_lt
  rw [lt_iff_level (by rwa [toBits_ofBits hv]) (by rwa [toBits_ofBits hw]), toBits_ofBits hv,
    toBits_ofBits hw, ← UInt32.toNat_inj, ← UInt32.toNat_inj]
  unfold rank level sign magnitude
  change _ ↔ _ ∨ v.toNat = 2 ^ 31 ∧ w.toNat = 0
  split <;> split <;> simp only [Sign.apply] <;> omega

/-- **What is no number is ranked behind all numbers, or before them**, by its sign. -/
theorem rank_lt_of_nan {v w : UInt32} (hv : isNanWord v = true) (hw : isNanWord w = false) :
    if v.toNat < 2 ^ 31 then rank w < rank v else rank v < rank w := by
  have hv : ¬ IsNumber v := fun h => by rw [isNanWord_eq_false.mpr h] at hv; cases hv
  rw [isNanWord_eq_false] at hw
  have hv' := v.toNat_lt
  have hw' := w.toNat_lt
  unfold IsNumber magnitude at hv hw
  unfold rank
  split <;> split <;> omega

/-! ## Units -/

/-- How many units a magnitude stands for. -/
def unitsOf (n : Nat) : Nat :=
  if n / 2 ^ 23 = 0 then n else (2 ^ 23 + n % 2 ^ 23) * 2 ^ (n / 2 ^ 23 - 1)

theorem units_eq (x : Float32) : units x = unitsOf (magnitude x.toBits) := rfl

/-- A greater magnitude stands for more. -/
theorem unitsOf_strictMono : StrictMono unitsOf := by
  refine strictMono_nat_of_lt_succ fun n => ?_
  have hmod := Nat.mod_lt n (show 0 < 2 ^ 23 by decide)
  unfold unitsOf
  by_cases hcarry : (n + 1) % 2 ^ 23 = 0
  · -- the exponent goes up by one
    have hdiv : (n + 1) / 2 ^ 23 = n / 2 ^ 23 + 1 := by omega
    rw [hdiv, if_neg (Nat.succ_ne_zero _), hcarry, Nat.add_sub_cancel, Nat.add_zero]
    split
    · next hzero =>
      rw [hzero]
      omega
    · next hpos =>
      obtain ⟨k, hk⟩ := Nat.exists_eq_succ_of_ne_zero hpos
      rw [hk, Nat.succ_sub_one]
      calc (2 ^ 23 + n % 2 ^ 23) * 2 ^ k < 2 ^ 24 * 2 ^ k :=
            Nat.mul_lt_mul_of_pos_right (by omega) (Nat.two_pow_pos k)
        _ = 2 ^ 23 * 2 ^ (k + 1) := by
            rw [← Nat.pow_add, ← Nat.pow_add]
            congr 1
            omega
  · have hdiv : (n + 1) / 2 ^ 23 = n / 2 ^ 23 := by omega
    have hnext : (n + 1) % 2 ^ 23 = n % 2 ^ 23 + 1 := by omega
    rw [hdiv, hnext]
    split
    · exact Nat.lt_succ_self n
    · exact Nat.mul_lt_mul_of_pos_right (by omega) (Nat.two_pow_pos _)

/-- How many units the last bit of a mantissa stands for. -/
def weight (e : Int) : Nat := 2 ^ (e + 149).toNat

theorem unitsOf_canonical {m : Nat} {e : Int} (h : Canonical m e) :
    unitsOf ((e + 149).toNat * 2 ^ 23 + m) = m * weight e := by
  obtain ⟨-, hlt, hlow, -, hleading⟩ := h
  unfold unitsOf weight
  generalize hk : (e + 149).toNat = k
  by_cases hle : 2 ^ 23 ≤ m
  · have hdiv : (k * 2 ^ 23 + m) / 2 ^ 23 = k + 1 := by omega
    have hmod : (k * 2 ^ 23 + m) % 2 ^ 23 = m - 2 ^ 23 := by omega
    rw [hdiv, if_neg (Nat.succ_ne_zero k), hmod, Nat.add_sub_cancel' hle, Nat.add_sub_cancel]
  · obtain rfl : k = 0 := by omega
    rw [if_pos (by omega), Nat.pow_zero, Nat.mul_one]
    omega

/-- The number of a finite single, in units. -/
def place (x : Float32) : Int := (sign x.toBits).apply (units x)

/-- The single is finite. -/
def IsFinite (x : Float32) : Prop := magnitude x.toBits < 255 * 2 ^ 23

theorem isFinite_iff {x : Float32} : x.isFinite = true ↔ IsFinite x := by
  have hd := denotes x.toBits
  change (UnpackedFloat.unpack .binary32 x.toBits.toBitVec).isFinite = true ↔ _
  generalize UnpackedFloat.unpack .binary32 x.toBits.toBitVec = u at hd
  unfold IsFinite
  cases hd with
  | zero h => exact iff_of_true rfl (h.trans_lt (by decide))
  | finite hm hc h =>
    have hhigh := hc.high
    have hlt := hc.lt
    exact iff_of_true rfl (by omega)
  | infinity h => exact iff_of_false Bool.false_ne_true h.not_lt
  | nan h => exact iff_of_false Bool.false_ne_true h.le.not_gt

/-- Places are ordered as magnitudes with their signs. -/
theorem level_le_iff_place_le (x y : Float32) :
    level x.toBits ≤ level y.toBits ↔ place x ≤ place y := by
  have hle := fun a b => @StrictMono.le_iff_le _ _ _ _ unitsOf unitsOf_strictMono a b
  have hxy := hle (magnitude x.toBits) (magnitude y.toBits)
  have hyx := hle (magnitude y.toBits) (magnitude x.toBits)
  have hx0 := hle (magnitude x.toBits) 0
  have hy0 := hle (magnitude y.toBits) 0
  have hzero : unitsOf 0 = 0 := rfl
  unfold level place
  rw [units_eq, units_eq]
  cases sign x.toBits <;> cases sign y.toBits <;> simp only [Sign.apply] <;> omega

/-- **Finite numbers are ordered as their places.** -/
theorem le_iff_place {x y : Float32} (hx : IsFinite x) (hy : IsFinite y) :
    x ≤ y ↔ place x ≤ place y := by
  rw [le_iff_level (Nat.le_of_lt hx) (Nat.le_of_lt hy), level_le_iff_place_le]

theorem lt_iff_place {x y : Float32} (hx : IsFinite x) (hy : IsFinite y) :
    x < y ↔ place x < place y := by
  have hle := level_le_iff_place_le y x
  rw [lt_iff_level (Nat.le_of_lt hx) (Nat.le_of_lt hy)]
  omega

/-! ## Rounding -/

/-- Some mantissa stands for so many units. -/
def Representable (n : Nat) : Prop := ∃ k j, k < 2 ^ 24 ∧ n = k * 2 ^ j

/-- Rounding `n` to `r` moves it past no number that can be represented. -/
structure Rounds (n r : Nat) : Prop where
  le {c : Nat} (hc : Representable c) (h : n ≤ c) : r ≤ c
  ge {c : Nat} (hc : Representable c) (h : c ≤ n) : c ≤ r

/-- What can be represented and is no smaller is on the grid of the last bit. -/
theorem dvd_of_representable {c t : Nat} (hc : Representable c) (h : 2 ^ (t + 23) ≤ c) :
    2 ^ t ∣ c := by
  obtain ⟨k, j, hk, rfl⟩ := hc
  have hj : t ≤ j := by
    apply Nat.le_of_not_lt
    intro hlt
    have hpow : 2 ^ j * 2 ^ 24 ≤ 2 ^ (t + 23) := by
      rw [← Nat.pow_add]
      exact Nat.pow_le_pow_right (by decide) (by omega)
    have := Nat.mul_lt_mul_of_pos_right hk (Nat.two_pow_pos j)
    rw [Nat.mul_comm (2 ^ 24)] at this
    omega
  exact Nat.dvd_trans (Nat.pow_dvd_pow 2 hj) (Nat.dvd_mul_left _ _)

/-- A multiple of the last bit next to a number rounds it, if only the last bit of its mantissa, and
nothing of what can be represented below, is lost. -/
theorem rounds_of_grid {n t f r : Nat} (hfloor : f * 2 ^ t ≤ n) (hbelow : n < (f + 1) * 2 ^ t)
    (hlead : 2 ^ 23 ≤ f ∨ t = 0) (hr : f ≤ r ∧ r ≤ f + 1) (hexact : n = f * 2 ^ t → r = f) :
    Rounds n (r * 2 ^ t) := by
  have hgrid : ∀ {c}, Representable c → n ≤ c → 2 ^ t ∣ c := by
    intro c hc hle
    obtain hlead | rfl := hlead
    · refine dvd_of_representable hc (Nat.le_trans ?_ hle)
      rw [Nat.add_comm, Nat.pow_add]
      exact Nat.le_trans (Nat.mul_le_mul_right _ hlead) hfloor
    · exact Nat.one_dvd _
  constructor
  · intro c hc hle
    obtain ⟨q, rfl⟩ := hgrid hc hle
    rw [Nat.mul_comm (2 ^ t)] at hle ⊢
    refine Nat.mul_le_mul_right _ ?_
    obtain heq | hlt := Nat.eq_or_lt_of_le hfloor
    · rw [hexact heq.symm]
      exact Nat.le_of_mul_le_mul_right (heq ▸ hle) (Nat.two_pow_pos t)
    · have : f < q := Nat.lt_of_mul_lt_mul_right (Nat.lt_of_lt_of_le hlt hle)
      omega
  · intro c hc hle
    refine Nat.le_trans ?_ (Nat.mul_le_mul_right _ hr.1)
    obtain hlead | rfl := hlead
    · by_cases hbig : 2 ^ (t + 23) ≤ c
      · obtain ⟨q, rfl⟩ := dvd_of_representable hc hbig
        rw [Nat.mul_comm (2 ^ t)] at hle ⊢
        have : q < f + 1 := Nat.lt_of_mul_lt_mul_right (Nat.lt_of_le_of_lt hle hbelow)
        exact Nat.mul_le_mul_right _ (by omega)
      · refine Nat.le_trans (Nat.le_of_not_le hbig) ?_
        rw [Nat.add_comm, Nat.pow_add]
        exact Nat.mul_le_mul_right _ hlead
    · omega

/-- Nothing but zeros is shifted out of a multiple. -/
theorem ofMantissa_shift (q s : Nat) :
    (ExtendedMantissa.ofMantissaAndAccuracy (q * 2 ^ s) .exact >>> s) = ⟨q, false, false⟩ := by
  induction s generalizing q with
  | zero => rw [Nat.pow_zero, Nat.mul_one]; rfl
  | succ s ih =>
    change (ExtendedMantissa.ofMantissaAndAccuracy (q * 2 ^ (s + 1)) .exact >>> s).shiftRightOne = _
    rw [Nat.pow_succ', ← Nat.mul_assoc, ih]
    simp [ExtendedMantissa.shiftRightOne]

theorem weight_add {e : Int} (he : -149 ≤ e) (k : Nat) : weight (e + k) = weight e * 2 ^ k := by
  unfold weight
  rw [← Nat.pow_add]
  congr 1
  omega

/-- A rounded mantissa is stored as it is, unless rounding carried into a further bit. -/
theorem exists_roundWithAccuracy_eq (s : Sign) {m : Nat} {e t : Int} {a : ExtendedMantissa}
    (hshift : shiftToTargetExponent .binary32 m e .exact = (a, t)) (ht : -149 ≤ t)
    (hpos : 0 < a.roundedMantissa) (hle : a.roundedMantissa ≤ 2 ^ 24)
    (hlead : 2 ^ 23 ≤ a.roundedMantissa ∨ t = -149) :
    ∃ m' e' h, roundWithAccuracy .binary32 s m e .exact = .finite s m' e' h ∧ m' < 2 ^ 24 ∧
      -149 ≤ e' ∧ (2 ^ 23 ≤ m' ∨ e' = -149) ∧ m' * weight e' = a.roundedMantissa * weight t := by
  obtain heq | hlt := Nat.eq_or_lt_of_le hle
  · refine ⟨2 ^ 23, t + 1, by decide, ?_, by decide, by omega, .inl (Nat.le_refl _), ?_⟩
    · unfold roundWithAccuracy
      rw [hshift]
      dsimp only
      rw [heq, shiftToTargetExponent_carry ht]
      rfl
    · rw [heq, show t + 1 = t + (1 : Nat) from rfl, weight_add ht, Nat.mul_comm (weight t),
        ← Nat.mul_assoc]
      rfl
  · refine ⟨a.roundedMantissa, t, hpos, ?_, hlt, ht, hlead, rfl⟩
    unfold roundWithAccuracy
    rw [hshift]
    dsimp only
    rw [shiftToTargetExponent_of_lt hlt ht]
    exact dif_neg hpos.ne'

/-- The mantissa and the exponent to which a number is rounded. -/
theorem exists_round_eq (s : Sign) {m : Nat} {e : Int} (hm : 0 < m) (he : -149 ≤ e) :
    ∃ m' e' h, UnpackedFloat.round .binary32 s m e = .finite s m' e' h ∧ m' < 2 ^ 24 ∧ -149 ≤ e' ∧
      (2 ^ 23 ≤ m' ∨ e' = -149) ∧ Rounds (m * weight e) (m' * weight e') := by
  have htarget : Format.binary32.targetExponent (totalExponent m e)
      = max ((m.log2 : Int) + e - 23) (-149) := by
    rw [Format.targetExponent, totalExponent]
    change max ((m.log2 : Int) + 1 + e - (24 : Nat)) (-149) = _
    omega
  generalize htdef : max ((m.log2 : Int) + e - 23) (-149) = t at htarget
  -- The mantissa is moved up by `d` bits, or down by `k`.
  obtain ⟨d, hd⟩ : ∃ d, (e - t).toNat = d := ⟨_, rfl⟩
  obtain ⟨k, hk⟩ : ∃ k, (t - (e - d)).toNat = k := ⟨_, rfl⟩
  have hsum : e - d + k = t := by omega
  have hlow : -149 ≤ e - d := by omega
  obtain ⟨big, hbig⟩ : ∃ big, m * 2 ^ d = big := ⟨_, rfl⟩
  have hbigpos : 0 < big := hbig ▸ Nat.mul_pos hm (Nat.two_pow_pos d)
  have hlog : big.log2 = m.log2 + d := by
    rw [← hbig, ← Nat.shiftLeft_eq, log2_shiftLeft hm]
  have hshift : shiftToTargetExponent .binary32 big (e - d) .exact
      = (ExtendedMantissa.ofMantissaAndAccuracy big .exact >>> k, t) := by
    have hsame : Format.binary32.targetExponent (totalExponent big (e - d)) = t := by
      rw [← htarget, totalExponent, totalExponent, hlog]
      congr 1
      omega
    rw [shiftToTargetExponent, shiftToExponent, hsame, hk, hsum]
  obtain ⟨a, ha⟩ : ∃ a, ExtendedMantissa.ofMantissaAndAccuracy big .exact >>> k = a := ⟨_, rfl⟩
  rw [ha] at hshift
  -- What is kept of it has no more than 24 bits, and that many if any are lost.
  have hfloor : a.mantissa = big / 2 ^ k := ha ▸ mantissa_shift _ k
  have hbits : big < 2 ^ (m.log2 + d + 1) := hlog ▸ Nat.lt_log2_self
  have hbits' : 2 ^ (m.log2 + d) ≤ big := hlog ▸ Nat.log2_self_le hbigpos.ne'
  have hshort : a.mantissa < 2 ^ 24 := by
    rw [hfloor]
    refine Nat.div_lt_of_lt_mul (Nat.lt_of_lt_of_le hbits ?_)
    rw [← Nat.pow_add]
    exact Nat.pow_le_pow_right (by decide) (by omega)
  have hlead : 2 ^ 23 ≤ a.mantissa ∨ t = -149 ∧ k = 0 := by
    by_cases hmin : t = -149
    · exact .inr ⟨hmin, by omega⟩
    · left
      rw [hfloor, Nat.le_div_iff_mul_le (Nat.two_pow_pos k), ← Nat.pow_add]
      exact Nat.le_trans (Nat.pow_le_pow_right (by decide) (by omega)) hbits'
  have hrounded := roundedMantissa_bounds a
  have hpos : 0 < a.roundedMantissa := by
    obtain hlead | ⟨-, rfl⟩ := hlead
    · omega
    · rw [Nat.pow_zero, Nat.div_one] at hfloor
      omega
  obtain ⟨m', e', h, hresult, hlt, hlow', hlead', hvalue⟩ :=
    exists_roundWithAccuracy_eq s hshift (by omega) hpos (by omega) (by omega)
  refine ⟨m', e', h, ?_, hlt, hlow', hlead', ?_⟩
  · rw [UnpackedFloat.round, htarget, decreaseExponent, hd, Nat.shiftLeft_eq, hbig]
    exact hresult
  · have hsame : m * weight e = big * weight (e - d) := by
      rw [← hbig, Nat.mul_assoc, Nat.mul_comm (2 ^ d), ← weight_add hlow, Int.sub_add_cancel]
    have hunit : weight t = 2 ^ k * weight (e - d) := by
      rw [← hsum, weight_add hlow, Nat.mul_comm]
    have hunitpos : 0 < weight (e - d) := Nat.two_pow_pos _
    have hdown := Nat.div_mul_le_self big (2 ^ k)
    have hup := Nat.lt_mul_of_div_lt (Nat.lt_succ_self (big / 2 ^ k)) (Nat.two_pow_pos k)
    rw [hvalue, hsame]
    refine rounds_of_grid (f := a.mantissa) ?_ ?_ (hlead.imp_right (by omega)) hrounded ?_
    · change _ * weight t ≤ _
      rw [hunit, hfloor, ← Nat.mul_assoc]
      exact Nat.mul_le_mul_right _ hdown
    · change _ < _ * weight t
      rw [hunit, hfloor, ← Nat.mul_assoc]
      exact Nat.mul_lt_mul_of_pos_right hup hunitpos
    · intro hexact
      change _ = _ * weight t at hexact
      rw [hunit, ← Nat.mul_assoc] at hexact
      have hmultiple : big = a.mantissa * 2 ^ k := Nat.eq_of_mul_eq_mul_right hunitpos hexact
      rw [hmultiple, ofMantissa_shift] at ha
      rw [← ha]
      rfl

/-! ## Sums and differences -/

/-- The greatest number of units of a finite single. -/
def most : Nat := (2 ^ 24 - 1) * 2 ^ 253

/-- Rounding places: no place that can be represented is passed. -/
structure RoundsPlace (n r : Int) : Prop where
  le {c : Int} (hc : Representable c.natAbs) (h : n ≤ c) : r ≤ c
  ge {c : Int} (hc : Representable c.natAbs) (h : c ≤ n) : c ≤ r

theorem Rounds.apply {n r : Nat} (h : Rounds n r) (s : Sign) :
    RoundsPlace (s.apply n) (s.apply r) := by
  have hle := fun c : Int => @Rounds.le n r h c.natAbs
  have hge := fun c : Int => @Rounds.ge n r h c.natAbs
  constructor
  · intro c hc hn
    have hle := hle c hc
    have hge := hge c hc
    cases s <;> simp only [Sign.apply] at hn ⊢ <;> omega
  · intro c hc hn
    have hle := hle c hc
    have hge := hge c hc
    cases s <;> simp only [Sign.apply] at hn ⊢ <;> omega

/-- A place that can be represented is kept. -/
theorem RoundsPlace.eq {n r : Int} (h : RoundsPlace n r) (hn : Representable n.natAbs) : r = n :=
  Int.le_antisymm (h.le hn (Int.le_refl n)) (h.ge hn (Int.le_refl n))

theorem RoundsPlace.refl (n : Int) : RoundsPlace n n := ⟨fun _ h => h, fun _ h => h⟩

theorem place_pack_zero (s : Sign) :
    IsFinite (.ofModel (.pack (.zero s))) ∧ place (.ofModel (.pack (.zero s))) = 0 := by
  cases s <;> exact ⟨(by decide : 0 < 255 * 2 ^ 23), rfl⟩

theorem place_pack_finite (s : Sign) {m : Nat} {e : Int} (hm : 0 < m) (h : Canonical m e) :
    IsFinite (.ofModel (.pack (.finite s m e hm))) ∧
      place (.ofModel (.pack (.finite s m e hm))) = s.apply (m * weight e : Nat) := by
  have hhigh := h.high
  have hlt := h.lt
  have hword : (Float32.ofModel (.pack (.finite s m e hm))).toBits.toNat
      = s.toBitVec.toNat * 2 ^ 31 + ((e + 149).toNat * 2 ^ 23 + m) := toNat_pack_finite s hm h
  obtain ⟨hsign, hmagnitude⟩ := sign_magnitude_eq hword (by omega)
  constructor
  · unfold IsFinite
    omega
  · rw [place, hsign, units_eq, hmagnitude, unitsOf_canonical h]

/-- What is stored is the nearest place, if it is not too large. -/
theorem place_pack_round (s : Sign) {m : Nat} {e : Int} (hm : 0 < m) (he : -149 ≤ e)
    (hmost : m * weight e ≤ most) :
    IsFinite (.ofModel (.pack (.round .binary32 s m e))) ∧
      RoundsPlace (s.apply (m * weight e : Nat))
        (place (.ofModel (.pack (.round .binary32 s m e)))) := by
  obtain ⟨m', e', h, hround, hlt, hlow, hlead, hrounds⟩ := exists_round_eq s hm he
  have hle : m' * weight e' ≤ most := hrounds.le ⟨2 ^ 24 - 1, 253, by decide, rfl⟩ hmost
  have hhigh : e' ≤ 104 := by
    refine Int.not_lt.mp fun hbig => ?_
    have hweight : 2 ^ 254 ≤ weight e' := Nat.pow_le_pow_right (by decide) (by omega)
    have hover := Nat.mul_le_mul (hlead.resolve_right (by omega)) hweight
    exact absurd (Nat.le_trans hover hle) (by unfold most; decide)
  obtain ⟨hfinite, hplace⟩ := place_pack_finite s h ⟨h, hlt, hlow, hhigh, hlead⟩
  rw [hround, hplace]
  exact ⟨hfinite, hrounds.apply s⟩

/-- A finite single stands for zero, or for a mantissa and an exponent. -/
theorem IsFinite.cases {x : Float32} (hx : IsFinite x) :
    (∃ s, x.toModel.unpack = .zero s ∧ place x = 0) ∨
    ∃ s m e h, x.toModel.unpack = .finite s m e h ∧ Canonical m e ∧
      place x = s.apply (m * weight e : Nat) := by
  have hd := denotes x.toBits
  unfold place
  rw [units_eq]
  change Denotes x.toBits x.toModel.unpack at hd
  unfold IsFinite at hx
  generalize x.toModel.unpack = u at hd
  cases hd with
  | zero h =>
    refine .inl ⟨_, rfl, ?_⟩
    rw [h]
    cases sign x.toBits <;> rfl
  | finite hm hc h =>
    refine .inr ⟨_, _, _, hm, rfl, hc, ?_⟩
    rw [h, unitsOf_canonical hc]
  | infinity h => exact absurd hx h.not_lt
  | nan h => exact absurd hx h.le.not_gt

/-- A mantissa with a sign is rounded to the nearest place. -/
theorem place_pack_normalize (n : Int) {e : Int} (he : -149 ≤ e) (zero : Sign)
    (hmost : n.natAbs * weight e ≤ most) :
    IsFinite (.ofModel (.pack (.normalize .binary32 n e zero))) ∧
      RoundsPlace (n * weight e) (place (.ofModel (.pack (.normalize .binary32 n e zero)))) := by
  rw [UnpackedFloat.normalize]
  rcases Int.lt_trichotomy n 0 with hneg | rfl | hpos
  · rw [Int.compare_eq_lt.mpr hneg, show (-n).toNat = n.natAbs by omega,
      show n * weight e = Sign.negative.apply (n.natAbs * weight e : Nat) by
        rw [Sign.apply, Int.natCast_mul, ← Int.neg_mul, Int.ofNat_natAbs_of_nonpos hneg.le,
          Int.neg_neg]]
    exact place_pack_round .negative (by omega) he hmost
  · obtain ⟨hfinite, hplace⟩ := place_pack_zero zero
    rw [Int.compare_eq_eq.mpr rfl, Int.zero_mul]
    exact ⟨hfinite, hplace ▸ .refl 0⟩
  · rw [Int.compare_eq_gt.mpr hpos, show n.toNat = n.natAbs by omega,
      show n * weight e = Sign.positive.apply (n.natAbs * weight e : Nat) by
        rw [Sign.apply, Int.natCast_mul, Int.natAbs_of_nonneg hpos.le]]
    exact place_pack_round .positive (by omega) he hmost

/-- A mantissa at a smaller exponent stands for the same number. -/
theorem decreaseExponent_value (s : Sign) (m : Nat) {e t : Int} (he : t ≤ e) (ht : -149 ≤ t) :
    s.apply (decreaseExponent m e t).1 * weight t = s.apply (m * weight e : Nat) := by
  have hweight : weight e = weight t * 2 ^ (e - t).toNat := by
    rw [← weight_add ht]
    congr 1
    omega
  have hvalue : m <<< (e - t).toNat * weight t = m * weight e := by
    rw [hweight, Nat.shiftLeft_eq, Nat.mul_assoc, Nat.mul_comm (weight t)]
  rw [decreaseExponent, ← hvalue]
  cases s <;> simp only [Sign.apply, Int.natCast_mul, Int.neg_mul]

/-- The operation adds up finite numbers, the second one times `c`. -/
structure Combines (op : UnpackedFloat → UnpackedFloat → UnpackedFloat) (c : Int) : Prop where
  zeros (s s' : Sign) : ∃ t, op (.zero s) (.zero s') = .zero t
  right (s s' : Sign) (m : Nat) (e : Int) (hm : 0 < m) : ∃ t : Sign,
    op (.zero s) (.finite s' m e hm) = .finite t m e hm ∧ ∀ n : Nat, t.apply n = c * s'.apply n
  left (s s' : Sign) (m : Nat) (e : Int) (hm : 0 < m) :
    op (.finite s m e hm) (.zero s') = .finite s m e hm
  finites (s s' : Sign) (m m' : Nat) (e e' : Int) (hm : 0 < m) (hm' : 0 < m') : ∃ zero,
    op (.finite s m e hm) (.finite s' m' e' hm') = .normalize .binary32
      (s.apply (decreaseExponent m e (min e e')).1
        + c * s'.apply (decreaseExponent m' e' (min e e')).1) (min e e') zero

theorem combines_add : Combines (.add .binary32) 1 where
  zeros s s' := by cases s <;> cases s' <;> exact ⟨_, rfl⟩
  right s s' m e hm := ⟨s', rfl, fun _ => (Int.one_mul _).symm⟩
  left s s' m e hm := rfl
  finites s s' m m' e e' hm hm' := ⟨_, by rw [Int.one_mul]; rfl⟩

theorem combines_sub : Combines (.sub .binary32) (-1) where
  zeros s s' := by cases s <;> cases s' <;> exact ⟨_, rfl⟩
  right s s' m e hm := ⟨-s', rfl, fun n => by cases s' <;> simp only [Sign.apply] <;> omega⟩
  left s s' m e hm := rfl
  finites s s' m m' e e' hm hm' := ⟨_, by rw [Int.neg_one_mul, ← Int.sub_eq_add_neg]; rfl⟩

section Sums

variable {x y : Float32} (hx : IsFinite x) (hy : IsFinite y)

include hx hy

/-- The combination of two numbers is rounded to the nearest place. -/
theorem Combines.place {op : UnpackedFloat → UnpackedFloat → UnpackedFloat} {c : Int}
    (hop : Combines op c) (hmost : (place x + c * place y).natAbs ≤ most) :
    IsFinite (.ofModel (.pack (op x.toModel.unpack y.toModel.unpack))) ∧
      RoundsPlace (place x + c * place y)
        (place (.ofModel (.pack (op x.toModel.unpack y.toModel.unpack)))) := by
  obtain ⟨s, hxu, hxp⟩ | ⟨s, m, e, hm, hxu, hcx, hxp⟩ := hx.cases <;>
    obtain ⟨s', hyu, hyp⟩ | ⟨s', m', e', hm', hyu, hcy, hyp⟩ := hy.cases <;>
    rw [hxu, hyu]
  · obtain ⟨t, ht⟩ := hop.zeros s s'
    obtain ⟨hfinite, hplace⟩ := place_pack_zero t
    rw [ht, hplace, hxp, hyp, Int.mul_zero]
    exact ⟨hfinite, .refl 0⟩
  · obtain ⟨t, ht, hsign⟩ := hop.right s s' m' e' hm'
    obtain ⟨hfinite, hplace⟩ := place_pack_finite t hm' hcy
    rw [ht, hplace, hxp, hyp, Int.zero_add, hsign]
    exact ⟨hfinite, .refl _⟩
  · obtain ⟨hfinite, hplace⟩ := place_pack_finite s hm hcx
    rw [hop.left, hplace, hxp, hyp, Int.mul_zero, Int.add_zero]
    exact ⟨hfinite, .refl _⟩
  · obtain ⟨zero, hzero⟩ := hop.finites s s' m m' e e' hm hm'
    have hlow := hcx.low
    have hlow' := hcy.low
    have hvalue : Single.place x + c * Single.place y
        = (s.apply (decreaseExponent m e (min e e')).1
          + c * s'.apply (decreaseExponent m' e' (min e e')).1) * weight (min e e') := by
      rw [hxp, hyp, Int.add_mul, Int.mul_assoc,
        decreaseExponent_value _ _ (Int.min_le_left _ _) (by omega),
        decreaseExponent_value _ _ (Int.min_le_right _ _) (by omega)]
    rw [hvalue, Int.natAbs_mul] at hmost
    rw [hvalue, hzero]
    exact place_pack_normalize _ (by omega) zero hmost

/-- **A sum is rounded to the nearest place.** -/
theorem place_add (hmost : (place x + place y).natAbs ≤ most) :
    IsFinite (x + y) ∧ RoundsPlace (place x + place y) (place (x + y)) := by
  rw [← Int.one_mul (place y)] at hmost ⊢
  exact combines_add.place hx hy hmost

/-- **A difference is rounded to the nearest place.** -/
theorem place_sub (hmost : (place x - place y).natAbs ≤ most) :
    IsFinite (x - y) ∧ RoundsPlace (place x - place y) (place (x - y)) := by
  rw [Int.sub_eq_add_neg, ← Int.neg_one_mul (place y)] at hmost ⊢
  exact combines_sub.place hx hy hmost

end Sums

end SpatialAudio.Single
