import Mathlib.Data.List.Basic
import SpatialAudio.Proofs.Angles

/-!
# Proofs/Speakers — a channel map loses no speaker

`ChannelMap.build` counts the outputs on its own and then gives the angles, in turn, the channels
that are not kept free: were there fewer such channels than angles, the last speakers would be gone
without a word.  `length_free` says that there are exactly as many.  Sorting keeps every speaker,
puts them in the order of their angles and moves no two of equal angle past each other
(`sort_stablySorts`), so that every output is driven by one speaker or kept free.  The words of
finite angles are those of their remainders by a full turn, and their ranks are the order of these
(`wrapped_build`).
-/

namespace SpatialAudio

/-- The place of a speaker's angle in the total order of singles. -/
def Speaker.rank (s : Speaker) : Int := Single.rank s.word

namespace ChannelMap

/-! ## Sorting -/

/-- `sorted` holds the speakers of `l`, in the order of their angles; speakers of equal angle stand
as they stand in `l`. -/
structure StablySorts (l sorted : List Speaker) : Prop where
  perm : sorted.Perm l
  ordered : sorted.Pairwise fun a b => a.rank ≤ b.rank
  stable (r : Int) : (sorted.filter (·.rank = r)) = l.filter (·.rank = r)

theorem insert_perm (s : Speaker) (l : List Speaker) : (insert s l).Perm (s :: l) := by
  induction l with
  | nil => rfl
  | cons head rest ih =>
    rw [insert]
    split
    · rfl
    · exact (ih.cons head).trans (.swap s head rest)

theorem insert_ordered {s : Speaker} {l : List Speaker}
    (h : l.Pairwise fun a b => a.rank ≤ b.rank) :
    (insert s l).Pairwise fun a b => a.rank ≤ b.rank := by
  induction l with
  | nil => exact List.pairwise_singleton _ _
  | cons head rest ih =>
    obtain ⟨hhead, hrest⟩ := List.pairwise_cons.mp h
    rw [insert]
    split
    case isTrue hlt =>
      refine List.pairwise_cons.mpr ⟨fun b hb => ?_, h⟩
      obtain rfl | hb := List.mem_cons.mp hb
      · exact Int.le_of_lt hlt
      · exact Int.le_trans (Int.le_of_lt hlt) (hhead b hb)
    case isFalse hle =>
      refine List.pairwise_cons.mpr ⟨fun b hb => ?_, ih hrest⟩
      obtain rfl | hb := List.mem_cons.mp ((insert_perm s rest).mem_iff.mp hb)
      · exact Int.not_lt.mp hle
      · exact hhead b hb

/-- Among the speakers of equal angle, a speaker put into a sorted list stands last. -/
theorem filter_insert {s : Speaker} {l : List Speaker}
    (h : l.Pairwise fun a b => a.rank ≤ b.rank) (r : Int) :
    (insert s l).filter (·.rank = r) = (l ++ [s]).filter (·.rank = r) := by
  induction l with
  | nil => rfl
  | cons head rest ih =>
    obtain ⟨hhead, hrest⟩ := List.pairwise_cons.mp h
    rw [insert]
    split
    case isFalse =>
      rw [List.cons_append, List.filter_cons, List.filter_cons, ih hrest]
    case isTrue hlt =>
      -- Everything from `head` on has a greater angle than `s`.
      have hlt : s.rank < head.rank := hlt
      have habove : ∀ b ∈ head :: rest, s.rank < b.rank := by
        intro b hb
        obtain rfl | hb := List.mem_cons.mp hb
        · exact hlt
        · exact Int.lt_of_lt_of_le hlt (hhead b hb)
      rw [List.filter_append, List.filter_cons]
      by_cases hs : s.rank = r
      · have hnone : (head :: rest).filter (·.rank = r) = [] :=
          List.filter_eq_nil_iff.mpr fun b hb => by
            have := habove b hb
            simp only [decide_eq_true_eq]
            omega
        simp [hs, hnone]
      · simp [hs]

/-- Sorting starts with an empty list and puts in one speaker after another. -/
theorem stablySorts_foldl {l sorted : List Speaker} (h : StablySorts l sorted)
    (more : List Speaker) :
    StablySorts (l ++ more) (more.foldl (fun l s => insert s l) sorted) := by
  induction more generalizing l sorted with
  | nil => rwa [List.append_nil]
  | cons s rest ih =>
    have hstep : StablySorts (l ++ [s]) (insert s sorted) :=
      { perm := (insert_perm s sorted).trans
          ((h.perm.cons s).trans (List.perm_append_singleton s l).symm)
        ordered := insert_ordered h.ordered
        stable := fun r => by
          rw [filter_insert h.ordered, List.filter_append, List.filter_append, h.stable] }
    simpa using ih hstep

theorem sort_stablySorts (l : List Speaker) : StablySorts l (sort l) :=
  stablySorts_foldl (l := []) ⟨.nil, .nil, fun _ => rfl⟩ l

/-! ## The channels that are not kept free -/

/-- The channels among the outputs that are not kept free, lowest first. -/
def free (count : Nat) (skipCenter skipLfe : Bool) : List Nat :=
  (List.range (outputCount count skipCenter skipLfe)).filter fun c =>
    !reserved count skipCenter skipLfe c

variable {count : Nat} {skipCenter skipLfe : Bool}

theorem mem_free {c : Nat} :
    c ∈ free count skipCenter skipLfe ↔
      c < outputCount count skipCenter skipLfe ∧ reserved count skipCenter skipLfe c = false := by
  simp [free]

theorem nodup_free (count : Nat) (skipCenter skipLfe : Bool) :
    (free count skipCenter skipLfe).Nodup :=
  List.nodup_range.filter _

/-- Nothing is kept free behind the fourth channel. -/
theorem reserved_add_four (count : Nat) (skipCenter skipLfe : Bool) (c : Nat) :
    reserved count skipCenter skipLfe (4 + c) = false := by
  have h₂ : 4 + c ≠ 2 := by omega
  have h₃ : 4 + c ≠ 3 := by omega
  simp [reserved, h₂, h₃]

/-- Four or more outputs, split into the first four and the others. -/
theorem free_of_outputCount {m : Nat} (h : outputCount count skipCenter skipLfe = 4 + m) :
    free count skipCenter skipLfe
      = ((List.range 4).filter fun c => !reserved count skipCenter skipLfe c)
        ++ (List.range m).map (4 + ·) := by
  rw [free, h, List.range_add, List.filter_append]
  congr 1
  apply List.filter_eq_self.mpr
  intro c hc
  obtain ⟨c, -, rfl⟩ := List.mem_map.mp hc
  rw [reserved_add_four, Bool.not_false]

/-- There are as many channels for speakers as there are speakers: a channel kept free is among the
outputs, and the outputs are more by their number. -/
theorem length_free (count : Nat) (skipCenter skipLfe : Bool) :
    (free count skipCenter skipLfe).length = count := by
  by_cases h : 2 < count ∧ (skipCenter || skipLfe) = true
  case pos =>
    obtain ⟨hcount, hflags⟩ := h
    have hlow : ((List.range 4).filter fun c => !reserved count skipCenter skipLfe c).length
        + (skipCenter.toNat + skipLfe.toNat) = 4 := by
      cases skipCenter <;> cases skipLfe <;> simp [reserved, hcount, List.range_succ]
    have hsize : outputCount count skipCenter skipLfe
        = count + (skipCenter.toNat + skipLfe.toNat) := by
      rw [outputCount, if_pos hcount]
    have hfour : 4 ≤ outputCount count skipCenter skipLfe := by
      cases skipCenter <;> cases skipLfe <;> simp_all <;> omega
    obtain ⟨m, hm⟩ := Nat.exists_eq_add_of_le hfour
    rw [free_of_outputCount hm, List.length_append, List.length_map, List.length_range]
    omega
  case neg =>
    have hnone : ∀ c, reserved count skipCenter skipLfe c = false := by
      intro c
      by_cases hcount : 2 < count
      · simp_all [reserved]
      · simp [reserved, hcount]
    have hsize : outputCount count skipCenter skipLfe = count := by
      by_cases hcount : 2 < count
      · simp_all [outputCount]
      · simp [outputCount, hcount]
    simp [free, hnone, hsize]

/-! ## Laying out -/

variable {angles : List UInt32}

theorem length_assign {channels : List Nat} (h : channels.length = angles.length) :
    (assign channels angles).length = angles.length := by
  rw [assign, List.length_zipWith, h, Nat.min_self]

theorem getElem?_assign {channels : List Nat} {k c : Nat} {angle : UInt32}
    (hc : channels[k]? = some c) (ha : angles[k]? = some angle) :
    (assign channels angles)[k]? = some ⟨Single.wrapWord angle, c⟩ := by
  rw [assign, List.getElem?_zipWith, hc, ha]

/-- Laying angles out uses up the channels. -/
theorem map_channel_assign {channels : List Nat} (h : channels.length = angles.length) :
    (assign channels angles).map Speaker.channel = channels := by
  rw [assign, List.map_zipWith]
  induction channels generalizing angles with
  | nil => rfl
  | cons c channels ih =>
    obtain ⟨angle, angles, rfl⟩ := List.exists_cons_of_length_eq_add_one h.symm
    rw [List.zipWith_cons_cons, ih (Nat.succ.inj h)]

/-- An output not kept free is driven by one speaker, one kept free by none. -/
theorem countP_channel {l : List Speaker}
    (h : (l.map Speaker.channel).Perm (free count skipCenter skipLfe)) {c : Nat}
    (hc : c < outputCount count skipCenter skipLfe) :
    l.countP (·.channel = c) = if reserved count skipCenter skipLfe c then 0 else 1 := by
  have hcount : l.countP (·.channel = c) = (free count skipCenter skipLfe).count c := by
    rw [← h.count_eq, List.count, List.countP_map]
    rfl
  rw [hcount, List.Nodup.count (nodup_free ..)]
  cases hr : reserved count skipCenter skipLfe c <;> simp [mem_free, hc, hr]

/-- `m` is the map of a layout: angles in turn for the outputs that are not kept free. -/
structure LaysOut (m : ChannelMap) (angles : List UInt32) (skipCenter skipLfe : Bool) : Prop where
  /-- Of more than two angles, the third output and the fourth are kept free if their flags are
  set. -/
  kept (c : Nat) : reserved angles.length skipCenter skipLfe c = true ↔
    2 < angles.length ∧ (c = 2 ∧ skipCenter = true ∨ c = 3 ∧ skipLfe = true)
  /-- There is an output for every angle, and one for each that is kept free. -/
  outputs : m.outputs
    = angles.length + if 2 < angles.length then skipCenter.toNat + skipLfe.toNat else 0
  /-- No speaker is lost. -/
  length : m.speakers.length = angles.length
  nodup : (m.speakers.map Speaker.channel).Nodup
  channel_lt : ∀ s ∈ m.speakers, s.channel < m.outputs
  /-- The `k`-th angle belongs to the `k`-th output not kept free; the speakers are sorted stably by
  angle. -/
  laid : ∃ laid : List Speaker, laid.length = angles.length ∧ StablySorts laid m.speakers ∧
    ∀ (k : Nat) (angle : UInt32), angles[k]? = some angle →
      ∃ c, ((List.range m.outputs).filter fun c =>
          !reserved angles.length skipCenter skipLfe c)[k]? = some c ∧
        laid[k]? = some ⟨Single.wrapWord angle, c⟩
  /-- One speaker drives each output that is not kept free, and none the others. -/
  driven : ∀ c < m.outputs, m.speakers.countP (·.channel = c)
    = if reserved angles.length skipCenter skipLfe c then 0 else 1

/-- **No speaker is lost**, whatever the angles and the flags. -/
theorem build_lays_out (angles : List UInt32) (skipCenter skipLfe : Bool) :
    (build angles skipCenter skipLfe).LaysOut angles skipCenter skipLfe := by
  set channels := free angles.length skipCenter skipLfe
  set laid := assign channels angles
  have hlength : channels.length = angles.length := length_free ..
  have hsorts : StablySorts laid (build angles skipCenter skipLfe).speakers := sort_stablySorts laid
  have hchannels : ((build angles skipCenter skipLfe).speakers.map Speaker.channel).Perm channels :=
    map_channel_assign hlength ▸ hsorts.perm.map _
  constructor
  case kept => exact fun c => by simp [reserved]
  case outputs => rfl
  case length => exact hsorts.perm.length_eq.trans (length_assign hlength)
  case nodup => exact hchannels.nodup_iff.mpr (nodup_free ..)
  case channel_lt =>
    intro s hs
    exact (mem_free.mp (hchannels.mem_iff.mp (List.mem_map_of_mem hs))).1
  case laid =>
    refine ⟨laid, length_assign hlength, hsorts, fun k angle hangle => ?_⟩
    have hk : k < channels.length := hlength ▸ (List.getElem?_eq_some_iff.mp hangle).1
    have hc : channels[k]? = some channels[k] := List.getElem?_eq_getElem hk
    exact ⟨channels[k], hc, getElem?_assign hc hangle⟩
  case driven => exact fun c hc => countP_channel hchannels hc

open Single in
/-- **The speakers of finite angles go once round**: each has an angle within one turn, the
remainder of a given one, and none has a smaller one than the speaker before it. -/
theorem wrapped_build (hfinite : ∀ w ∈ angles, IsFinite (Float32.ofBits w))
    (skipCenter skipLfe : Bool) :
    (∀ s ∈ (build angles skipCenter skipLfe).speakers, IsFinite s.angle ∧
      0 ≤ s.angle ∧ s.angle ≤ 360 ∧
      ∃ w ∈ angles, RoundsPlace (place (Float32.ofBits w) % turn) (place s.angle)) ∧
    (build angles skipCenter skipLfe).speakers.Pairwise fun a b => a.angle ≤ b.angle := by
  have hsorts := sort_stablySorts (assign (free angles.length skipCenter skipLfe) angles)
  have hfrom : ∀ s ∈ (build angles skipCenter skipLfe).speakers,
      ∃ w ∈ angles, s.angle = wrapDegrees (Float32.ofBits w) := by
    intro s hs
    obtain ⟨k, hk⟩ := List.mem_iff_getElem?.mp (hsorts.perm.mem_iff.mp hs)
    obtain ⟨c, w, -, hw, rfl⟩ := List.getElem?_zipWith_eq_some.mp hk
    have hw := List.mem_of_getElem? hw
    exact ⟨w, hw, (wrapWord_eq w).1 (hfinite w hw)⟩
  have hangle : ∀ s ∈ (build angles skipCenter skipLfe).speakers, IsFinite s.angle ∧
      0 ≤ s.angle ∧ s.angle ≤ 360 ∧
      ∃ w ∈ angles, RoundsPlace (place (Float32.ofBits w) % turn) (place s.angle) := by
    intro s hs
    obtain ⟨w, hw, hangle⟩ := hfrom s hs
    obtain ⟨hwrapped, hrounds⟩ := place_wrapDegrees (hfinite w hw)
    obtain ⟨hlow, hhigh⟩ := wrapDegrees_bounds (hfinite w hw)
    rw [hangle]
    exact ⟨hwrapped, hlow, hhigh, w, hw, hrounds⟩
  refine ⟨hangle, hsorts.ordered.imp_of_mem fun {a b} ha hb hrank => ?_⟩
  have ha := (hangle a ha).1
  have hb := (hangle b hb).1
  have hlt := rank_lt_iff hb.isNaN_isInf.1 ha.isNaN_isInf.1
  refine (le_iff_place ha hb).mpr (Int.not_lt.mp fun hplace => Int.not_lt.mpr hrank ?_)
  exact hlt.mpr (.inl ((lt_iff_place hb ha).mpr hplace))

end ChannelMap

end SpatialAudio
