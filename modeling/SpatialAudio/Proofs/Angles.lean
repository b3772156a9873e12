import SpatialAudio.Panning.ChannelMap
import SpatialAudio.Proofs.NumberLine

/-!
# Proofs/Angles — angles within one turn, and azimuths between speakers

Remainders are exact (`place_remainder`).  An angle is wrapped into one turn by its remainder; below
zero the sum with a full turn is rounded, up to the turn itself, so a wrapped angle is the remainder
in the sense of rounding (`place_wrapDegrees`), and it lies from `0` to `360`
(`wrapDegrees_bounds`).

Nothing at all is rounded among **exact** angles, the multiples of `2 ^ -15` degrees.  There the
test for a pair of speakers holds just of the azimuths that one meets on the way round from the
first speaker before the second (`isSome_between?_iff`).
-/

namespace SpatialAudio.Single

open Float.Model Float.Model.UnpackedFloat

/-! ## Numbers of units -/

theorem unitsOf_unitsWord {n : Nat} (h : Representable n) : unitsOf (unitsWord n) = n := by
  unfold unitsWord
  split
  · next hshort =>
    unfold unitsOf
    split
    · rfl
    · next hlong =>
      have hone : n / 2 ^ 23 = 1 := by omega
      rw [hone, Nat.sub_self, Nat.pow_zero, Nat.mul_one]
      omega
  · next hlong =>
    have hpos : n ≠ 0 := by omega
    have hlog : 23 ≤ n.log2 := (Nat.le_log2 hpos).mpr (by omega)
    obtain ⟨t, ht⟩ : ∃ t, n.log2 - 23 = t := ⟨_, rfl⟩
    have hlow : 2 ^ (t + 23) ≤ n := by
      rw [show t + 23 = n.log2 by omega]
      exact Nat.log2_self_le hpos
    have hhigh : n < 2 ^ 24 * 2 ^ t := by
      rw [← Nat.pow_add, show 24 + t = n.log2 + 1 by omega]
      exact Nat.lt_log2_self
    obtain ⟨q, hq⟩ := dvd_of_representable h hlow
    have hquotient : n / 2 ^ t = q := by rw [hq, Nat.mul_div_cancel_left _ (Nat.two_pow_pos t)]
    have hqlow : 2 ^ 23 ≤ q := by
      rw [hq, Nat.pow_add] at hlow
      exact Nat.le_of_mul_le_mul_left hlow (Nat.two_pow_pos t)
    have hqhigh : q < 2 ^ 24 := by
      rw [hq, Nat.mul_comm] at hhigh
      exact Nat.lt_of_mul_lt_mul_right hhigh
    dsimp only
    rw [ht, hquotient]
    have hdiv : ((t + 1) * 2 ^ 23 + (q - 2 ^ 23)) / 2 ^ 23 = t + 1 := by omega
    have hmod : ((t + 1) * 2 ^ 23 + (q - 2 ^ 23)) % 2 ^ 23 = q - 2 ^ 23 := by omega
    rw [unitsOf, hdiv, if_neg (Nat.succ_ne_zero t), hmod, Nat.add_sub_cancel' hqlow,
      Nat.add_sub_cancel, hq, Nat.mul_comm]

/-- A remainder can be represented if both numbers can. -/
theorem Representable.mod {m n : Nat} (hm : Representable m) (hn : Representable n) (hpos : 0 < n) :
    Representable (m % n) := by
  obtain ⟨k, i, hk, rfl⟩ := hm
  obtain ⟨l, j, hl, rfl⟩ := hn
  obtain hle | hle := Nat.le_total i j
  · obtain ⟨d, rfl⟩ := Nat.exists_eq_add_of_le hle
    refine ⟨k % (l * 2 ^ d), i, Nat.lt_of_le_of_lt (Nat.mod_le _ _) hk, ?_⟩
    rw [Nat.pow_add, Nat.mul_comm (2 ^ i), ← Nat.mul_assoc, Nat.mul_mod_mul_right]
  · obtain ⟨d, rfl⟩ := Nat.exists_eq_add_of_le hle
    have hmod : k * 2 ^ d % l < l := Nat.mod_lt _ (Nat.pos_of_mul_pos_right hpos)
    refine ⟨k * 2 ^ d % l, j, Nat.lt_trans hmod hl, ?_⟩
    rw [Nat.pow_add, Nat.mul_comm (2 ^ j), ← Nat.mul_assoc, Nat.mul_mod_mul_right]

section Remainder

variable {x y : Float32}

theorem natAbs_place (x : Float32) : (place x).natAbs = units x := by
  unfold place
  cases sign x.toBits <;> simp only [Sign.apply] <;> omega

theorem IsFinite.representable (hx : IsFinite x) : Representable (units x) ∧ units x ≤ most := by
  rw [← natAbs_place]
  obtain ⟨s, -, hplace⟩ | ⟨s, m, e, -, -, hcanonical, hplace⟩ := hx.cases
  · rw [hplace]
    exact ⟨⟨0, 0, by decide, rfl⟩, Nat.zero_le _⟩
  · have habs : (s.apply (m * weight e : Nat)).natAbs = m * weight e := by
      cases s <;> simp only [Sign.apply] <;> omega
    rw [hplace, habs]
    have hhigh := hcanonical.high
    exact ⟨⟨m, _, hcanonical.lt, rfl⟩, Nat.mul_le_mul (Nat.le_sub_one_of_lt hcanonical.lt)
      (Nat.pow_le_pow_right (by decide) (by omega))⟩

theorem IsFinite.isNaN_isInf (hx : IsFinite x) : x.isNaN = false ∧ x.isInf = false := by
  change x.toModel.unpack.isNaN = false ∧ x.toModel.unpack.isInf = false
  obtain ⟨s, hunpack, -⟩ | ⟨s, m, e, hm, hunpack, -⟩ := hx.cases
  · rw [hunpack]
    exact ⟨rfl, rfl⟩
  · rw [hunpack]
    exact ⟨rfl, rfl⟩

/-- A number of units that can be represented is stored as it is. -/
theorem place_ofUnits (negative : Bool) {n : Nat} (h : Representable n) (hmost : n ≤ most) :
    IsFinite (ofUnits negative n) ∧
      place (ofUnits negative n) = if negative then -(n : Int) else n := by
  have hunits := unitsOf_unitsWord h
  have hword : unitsWord n < 255 * 2 ^ 23 := by
    refine unitsOf_strictMono.lt_iff_lt.mp (hunits.trans_lt (Nat.lt_of_le_of_lt hmost ?_))
    decide
  have hlow : unitsWord n < 2 ^ 31 := Nat.lt_trans hword (by decide)
  have hsmall : (UInt32.ofNat (unitsWord n)).toNat = unitsWord n :=
    UInt32.toNat_ofNat_of_lt (Nat.lt_trans hlow (by decide))
  obtain ⟨w, hw⟩ : ∃ w, (if negative then UInt32.ofNat (unitsWord n) ||| 0x80000000
      else UInt32.ofNat (unitsWord n)) = w := ⟨_, rfl⟩
  obtain ⟨hsign, hmagnitude⟩ : sign w = (if negative then .negative else .positive) ∧
      magnitude w = unitsWord n := by
    refine sign_magnitude_eq ?_ hlow
    rw [← hw]
    cases negative with
    | false => exact hsmall.trans (Nat.zero_add _).symm
    | true =>
      change (UInt32.ofNat (unitsWord n) ||| 0x80000000).toNat = 2 ^ 31 + unitsWord n
      rw [UInt32.toNat_or, hsmall, Nat.or_comm]
      exact (Nat.two_pow_add_eq_or_of_lt hlow 1).symm
  have hbits : (ofUnits negative n).toBits = w := by
    rw [ofUnits, hw]
    exact toBits_ofBits (hmagnitude.trans_le (Nat.le_of_lt hword))
  constructor
  · unfold IsFinite
    rw [hbits, hmagnitude]
    exact hword
  · rw [place, units_eq, hbits, hsign, hmagnitude, hunits]
    cases negative <;> rfl

/-- **A remainder is exact**, with the sign of the dividend. -/
theorem place_remainder (hx : IsFinite x) (hy : IsFinite y) (hpos : 0 < units y) :
    IsFinite (remainder x y) ∧ place (remainder x y) = (place x).tmod (units y) := by
  obtain ⟨hxnan, hxinf⟩ := hx.isNaN_isInf
  obtain ⟨hynan, hyinf⟩ := hy.isNaN_isInf
  have hremainder : remainder x y = ofUnits (isNegative x) (units x % units y) := by
    have hnumbers : (x.isNaN || y.isNaN || x.isInf || decide (units y = 0)) = false := by
      rw [hxnan, hynan, hxinf, decide_eq_false hpos.ne']
      rfl
    rw [remainder, hnumbers, hyinf]
    rfl
  obtain ⟨hfinite, hplace⟩ := place_ofUnits (isNegative x)
    (hx.representable.1.mod hy.representable.1 hpos)
    (Nat.le_trans (Nat.mod_le _ _) hx.representable.2)
  rw [hremainder, hplace]
  refine ⟨hfinite, ?_⟩
  have hnegative : isNegative x = decide (2 ^ 31 ≤ x.toBits.toNat) := rfl
  rw [hnegative, place, sign]
  by_cases hsign : x.toBits.toNat < 2 ^ 31
  · rw [if_pos hsign, decide_eq_false (Nat.not_le_of_lt hsign)]
    rfl
  · rw [if_neg hsign, decide_eq_true (Nat.le_of_not_lt hsign), Sign.apply, Int.neg_tmod]
    rfl

end Remainder

/-! ## Angles within one turn -/

/-- A full turn in units. -/
def turn : Nat := 360 * 2 ^ 149

theorem turn_pos : 0 < turn := by decide

theorem isFinite_360 : IsFinite 360 ∧ place 360 = turn ∧ units 360 = turn :=
  ⟨by unfold IsFinite; decide, by decide, by decide⟩

theorem isFinite_zero : IsFinite 0 ∧ place 0 = 0 := ⟨by unfold IsFinite; decide, by decide⟩

theorem representable_turn : Representable turn := ⟨360, 149, by decide, rfl⟩

theorem emod_turn_bounds (n : Int) : 0 ≤ n % turn ∧ n % turn < turn :=
  ⟨Int.emod_nonneg n (Int.natCast_ne_zero.mpr turn_pos.ne'),
    Int.emod_lt_of_pos n (Int.natCast_pos.mpr turn_pos)⟩

variable {x : Float32}

/-- **A wrapped angle is the remainder of the angle by a full turn**, rounded if the angle is
negative. -/
theorem place_wrapDegrees (hx : IsFinite x) :
    IsFinite (wrapDegrees x) ∧ RoundsPlace (place x % turn) (place (wrapDegrees x)) := by
  obtain ⟨hturn, hplace, hunits⟩ := isFinite_360
  obtain ⟨hr, hremainder⟩ := place_remainder hx hturn (hunits ▸ turn_pos)
  obtain ⟨hlow, hhigh⟩ := emod_turn_bounds (place x)
  rw [hunits, Int.tmod_eq_emod, Int.natAbs_natCast] at hremainder
  rw [wrapDegrees, wrap]
  have hneg := lt_iff_place hr isFinite_zero.1
  rw [isFinite_zero.2] at hneg
  split at hremainder
  · -- nothing is left to be moved up
    have hsame : place x % turn = place (remainder x 360) := by omega
    rw [if_neg fun h => absurd (hneg.mp h) (by omega), hsame]
    exact ⟨hr, .refl _⟩
  · have hsum : place (remainder x 360) + place 360 = place x % turn := by omega
    rw [if_pos (hneg.mpr (by omega)), ← hsum]
    refine place_add hr hturn ?_
    have : turn ≤ most := by decide
    omega

/-- **A wrapped angle lies within one turn.** -/
theorem wrapDegrees_bounds (hx : IsFinite x) : 0 ≤ wrapDegrees x ∧ wrapDegrees x ≤ 360 := by
  obtain ⟨hfinite, hrounds⟩ := place_wrapDegrees hx
  obtain ⟨hturn, hplace, -⟩ := isFinite_360
  obtain ⟨hlow, hhigh⟩ := emod_turn_bounds (place x)
  rw [le_iff_place isFinite_zero.1 hfinite, le_iff_place hfinite hturn, isFinite_zero.2, hplace]
  exact ⟨hrounds.ge ⟨0, 0, by decide, rfl⟩ hlow, hrounds.le representable_turn hhigh.le⟩

theorem isNaN_or_isInf (hx : ¬ IsFinite x) : (x.isNaN || x.isInf) = true := by
  have hd := denotes x.toBits
  change (x.toModel.unpack.isNaN || x.toModel.unpack.isInf) = true
  change Denotes x.toBits x.toModel.unpack at hd
  unfold IsFinite at hx
  generalize x.toModel.unpack = u at hd
  cases hd with
  | infinity | nan => rfl
  | zero h => exact absurd (h.trans_lt (by decide)) hx
  | finite hm hc h =>
    have hhigh := hc.high
    have hlt := hc.lt
    omega

/-- **The word of a wrapped angle.**  What is no number keeps its word, marked as such; an infinite
angle is none any more. -/
theorem wrapWord_eq (w : UInt32) :
    (IsFinite (Float32.ofBits w) → Float32.ofBits (wrapWord w) = wrapDegrees (Float32.ofBits w)) ∧
    (¬ IsFinite (Float32.ofBits w) → wrapWord w = if isNanWord w then quiet w else 0xffc00000) := by
  constructor
  · intro hx
    have hfinite := (place_wrapDegrees hx).1
    rw [wrapWord, resultWord, hfinite.isNaN_isInf.1]
    exact Float32.ofBits_toBits _
  · intro hx
    have hnone : remainder (Float32.ofBits w) 360 = nan := by
      refine if_pos ?_
      have hor := isNaN_or_isInf hx
      cases hnan : (Float32.ofBits w).isNaN with
      | true => rfl
      | false =>
        rw [hnan, Bool.false_or] at hor
        simp [hor]
    have hwrap : wrapDegrees (Float32.ofBits w) = nan := by
      rw [wrapDegrees, wrap, hnone]
      rfl
    rw [wrapWord, hwrap, resultWord]
    change (if isNanWord w then quiet w else if isNanWord w then quiet w else 0xffc00000) = _
    split <;> rfl

/-! ## Exact angles -/

/-- An angle within one turn that is a multiple of `2 ^ -15` degrees. -/
structure Exact (x : Float32) : Prop where
  finite : IsFinite x
  nonneg : 0 ≤ place x
  le_turn : place x ≤ turn
  dvd : (2 ^ 134 : Int) ∣ place x

theorem representable_of_dvd {n : Int} (hdvd : (2 ^ 134 : Int) ∣ n) (hn : n.natAbs ≤ turn) :
    Representable n.natAbs := by
  obtain ⟨q, rfl⟩ := hdvd
  have habs : (2 ^ 134 * q : Int).natAbs = q.natAbs * 2 ^ 134 := by
    rw [Int.natAbs_mul, Nat.mul_comm]
    rfl
  rw [habs] at hn ⊢
  refine ⟨q.natAbs, 134, ?_, rfl⟩
  have hturn : turn = 11796480 * 2 ^ 134 := by decide
  rw [hturn] at hn
  exact Nat.lt_of_le_of_lt (Nat.le_of_mul_le_mul_right hn (Nat.two_pow_pos 134)) (by decide)

theorem dvd_emod_turn {n : Int} (hdvd : (2 ^ 134 : Int) ∣ n) : (2 ^ 134 : Int) ∣ n % turn := by
  rw [Int.emod_def]
  exact Int.dvd_sub hdvd (Int.dvd_trans (by decide) (Int.dvd_mul_right _ _))

/-- **Multiples of `2 ^ -15` degrees are wrapped without rounding.** -/
theorem exact_wrapDegrees (hx : IsFinite x) (hdvd : (2 ^ 134 : Int) ∣ place x) :
    Exact (wrapDegrees x) ∧ place (wrapDegrees x) = place x % turn := by
  obtain ⟨hfinite, hwrap⟩ := place_wrapDegrees hx
  obtain ⟨hlow, hhigh⟩ := emod_turn_bounds (place x)
  have hplace := hwrap.eq (representable_of_dvd (dvd_emod_turn hdvd) (by omega))
  exact ⟨⟨hfinite, hplace ▸ hlow, hplace ▸ hhigh.le, hplace ▸ dvd_emod_turn hdvd⟩, hplace⟩

/-- **Differences of exact angles are wrapped without rounding.** -/
theorem Exact.place_wrap_sub {x y : Float32} (hx : Exact x) (hy : Exact y) :
    IsFinite (wrapDegrees (x - y)) ∧ place (wrapDegrees (x - y)) = (place x - place y) % turn := by
  obtain ⟨hxfinite, hxlow, hxhigh, hxdvd⟩ := hx
  obtain ⟨hyfinite, hylow, hyhigh, hydvd⟩ := hy
  have hdvd := Int.dvd_sub hxdvd hydvd
  have hmost : turn ≤ most := by decide
  obtain ⟨hsub, hrounds⟩ := place_sub hxfinite hyfinite (by omega)
  have hplace := hrounds.eq (representable_of_dvd hdvd (by omega))
  obtain ⟨hexact, hwrap⟩ := exact_wrapDegrees hsub (hplace ▸ hdvd)
  exact ⟨hexact.finite, hplace ▸ hwrap⟩

end SpatialAudio.Single

namespace SpatialAudio.ChannelMap

open Single

/-- **An azimuth lies between two speakers** exactly if it comes before the second on the way round
from the first. -/
theorem isSome_between?_iff {azimuth : Float32} {a b : Speaker} (hazimuth : Exact azimuth)
    (ha : Exact a.angle) (hb : Exact b.angle) :
    (between? azimuth a b).isSome = true ↔
      (place azimuth - place a.angle) % turn < (place b.angle - place a.angle) % turn := by
  obtain ⟨hspan, hspan_eq⟩ := hb.place_wrap_sub ha
  obtain ⟨hoffset, hoffset_eq⟩ := hazimuth.place_wrap_sub ha
  have hpos := lt_iff_place isFinite_zero.1 hspan
  have hless := lt_iff_place hoffset hspan
  rw [isFinite_zero.2, hspan_eq] at hpos
  rw [hoffset_eq, hspan_eq] at hless
  rw [between?]
  split
  · next h => exact iff_of_true rfl (hless.mp h.2)
  · next h =>
    refine iff_of_false Bool.false_ne_true fun hlt => h ⟨hpos.mpr ?_, hless.mpr hlt⟩
    exact Int.lt_of_le_of_lt (emod_turn_bounds _).1 hlt

/-- The front is between the left and the right. -/
example : (between? 0 ⟨(337.5 : Float32).toBits, 0⟩ ⟨(22.5 : Float32).toBits, 1⟩).isSome = true ∧
    (between? 0 ⟨(22.5 : Float32).toBits, 1⟩ ⟨(337.5 : Float32).toBits, 0⟩).isSome = false := by
  decide

end SpatialAudio.ChannelMap
