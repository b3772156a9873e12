import Mathlib.Logic.ExistsUnique
import SpatialAudio.Proofs.Reloading

/-!
# Proofs/ResponseTable — addressing the table of responses

A dataset keeps its responses one behind the other, band after band.  The response at a place of the
grid has the number `bandStart band + index`, and the places of the grid and the numbers of the
responses belong to each other one to one (`exists_place`, `place_unique`), whatever the shapes of
the bands are.  `stored` is the response of a number; resampling turns it into the resampled
`stored` of the same number (`stored_resample`).  A resampled word is a point on a straight line
(`Along`): it is between two samples of that response, with silence behind its end, and nothing is
read of the responses next to it (`Reads`).
-/

namespace SpatialAudio.Dataset

/-! ## Places of the grid -/

theorem onGrid_iff {d : Dataset} {band index : Nat} :
    d.onGrid band index = true ↔ ∃ count, d.azimuthCounts[band]? = some count ∧ index < count := by
  unfold onGrid
  split
  · next h => simp [h]
  · next h => simp [h]

/-- A band starts where the one before it ends. -/
theorem bandStart_succ {d : Dataset} {band count : Nat} (h : d.azimuthCounts[band]? = some count) :
    d.bandStart (band + 1) = d.bandStart band + count := by
  obtain ⟨hband, rfl⟩ := List.getElem?_eq_some_iff.mp h
  rw [bandStart, bandStart, List.take_succ_eq_append_getElem hband, List.sum_append,
    List.sum_singleton]

theorem bandStart_mono {d : Dataset} {a b : Nat} (h : a ≤ b) : d.bandStart a ≤ d.bandStart b :=
  (List.take_sublist_take_left h).sum_le_sum fun _ _ => Nat.zero_le _

theorem bandStart_le_responseCount (d : Dataset) (band : Nat) :
    d.bandStart band ≤ d.responseCount :=
  (List.take_sublist _ _).sum_le_sum fun _ _ => Nat.zero_le _

/-- A response of a band stands before all of the next one. -/
theorem number_lt_bandStart {d : Dataset} {band index : Nat} (h : d.onGrid band index = true) :
    d.bandStart band + index < d.bandStart (band + 1) := by
  obtain ⟨count, hcount, hindex⟩ := onGrid_iff.mp h
  rw [bandStart_succ hcount]
  omega

theorem number_lt_responseCount {d : Dataset} {band index : Nat} (h : d.onGrid band index = true) :
    d.bandStart band + index < d.responseCount :=
  Nat.lt_of_lt_of_le (number_lt_bandStart h) (d.bandStart_le_responseCount _)

/-- No number is left out. -/
theorem exists_place {counts : List Nat} {k : Nat} (h : k < counts.sum) :
    ∃ band index count, counts[band]? = some count ∧ index < count
      ∧ (counts.take band).sum + index = k := by
  induction counts generalizing k with
  | nil => simp at h
  | cons count rest ih =>
    rw [List.sum_cons] at h
    by_cases hk : k < count
    · exact ⟨0, k, count, rfl, hk, Nat.zero_add k⟩
    · obtain ⟨band, index, c, hband, hindex, hsum⟩ := ih (k := k - count) (by omega)
      refine ⟨band + 1, index, c, hband, hindex, ?_⟩
      rw [List.take_succ_cons, List.sum_cons]
      omega

/-- No number is given twice. -/
theorem place_unique {d : Dataset} {band index band' index' : Nat}
    (h : d.onGrid band index = true) (h' : d.onGrid band' index' = true)
    (hnumber : d.bandStart band + index = d.bandStart band' + index') :
    band = band' ∧ index = index' := by
  have hbelow := number_lt_bandStart h
  have hbelow' := number_lt_bandStart h'
  have hband : band = band' := by
    rcases Nat.lt_trichotomy band band' with hlt | heq | hgt
    · have : d.bandStart (band + 1) ≤ d.bandStart band' := bandStart_mono hlt
      omega
    · exact heq
    · have : d.bandStart (band' + 1) ≤ d.bandStart band := bandStart_mono hgt
      omega
  subst hband
  exact ⟨rfl, by omega⟩

/-! ## Stored responses -/

/-- The response of a number: so many samples, from so many responses on. -/
def stored (d : Dataset) (k : Nat) : List UInt32 :=
  (d.samples.drop (k * d.responseLength)).take d.responseLength

/-- The table holds every response in full. -/
def Filled (d : Dataset) : Prop := d.samples.length = d.responseCount * d.responseLength

theorem Filled.length_stored {d : Dataset} (h : d.Filled) {k : Nat} (hk : k < d.responseCount) :
    (d.stored k).length = d.responseLength := by
  have hle := Nat.mul_le_mul_right d.responseLength (Nat.succ_le_of_lt hk)
  rw [Nat.succ_mul, ← h] at hle
  rw [stored, List.length_take, List.length_drop]
  omega

/-- **The response at a place of the grid is that of its number; off the grid there is none.** -/
theorem Filled.response?_eq {d : Dataset} (h : d.Filled) (band index : Nat) :
    d.response? band index
      = if d.onGrid band index then some (d.stored (d.bandStart band + index)) else none := by
  unfold response? onGrid
  cases hband : d.azimuthCounts[band]? with
  | none => rfl
  | some count =>
    by_cases hindex : index < count
    · have hk : d.bandStart band + index < d.responseCount :=
        number_lt_responseCount (onGrid_iff.mpr ⟨count, hband, hindex⟩)
      have hstart : (d.bandStart band + index) * d.responseLength ≤ d.samples.length :=
        h ▸ Nat.mul_le_mul_right _ hk.le
      simp only [hindex, decide_true, if_true]
      exact if_pos ⟨hstart, h.length_stored hk⟩
    · simp only [hindex, decide_false, if_false, Bool.false_eq_true]

/-! ## Resampled responses -/

theorem getElem?_pieces {α : Type} (n : Nat) {count k : Nat} (hk : k < count) (l : List α) :
    (pieces n count l)[k]? = some ((l.drop (k * n)).take n) := by
  induction count generalizing k l with
  | zero => omega
  | succ count ih =>
    cases k with
    | zero => rw [Nat.zero_mul]; rfl
    | succ k =>
      rw [pieces, List.getElem?_cons_succ, ih (by omega), List.drop_drop, Nat.succ_mul,
        Nat.add_comm n]

/-- A table of equally long rows, row by row. -/
theorem take_drop_flatMap {α β : Type} {f : α → List β} {n k : Nat} {l : List α} {a : α}
    (hf : ∀ x ∈ l, (f x).length = n) (ha : l[k]? = some a) :
    ((l.flatMap f).drop (k * n)).take n = f a := by
  induction l generalizing k with
  | nil => simp at ha
  | cons head rest ih =>
    have hhead : (f head).length = n := hf head (List.mem_cons_self ..)
    rw [List.flatMap_cons]
    cases k with
    | zero =>
      obtain rfl : head = a := by simpa using ha
      rw [Nat.zero_mul, List.drop_zero, List.take_append_of_le_length hhead.ge,
        List.take_of_length_le hhead.le]
    | succ k =>
      rw [Nat.succ_mul, Nat.add_comm, ← List.drop_drop, ← hhead, List.drop_left, hhead]
      exact ih (fun x hx => hf x (List.mem_cons_of_mem _ hx)) (by simpa using ha)

/-- **Every response is resampled on its own.** -/
theorem Filled.stored_resample {d : Dataset} (h : d.Filled) (hpos : 0 < d.responseLength)
    (rate : Nat) {k : Nat} (hk : k < d.responseCount) :
    (d.resample rate).stored k
      = (List.range (d.resampledLength rate)).map
          (interpolate (d.rateRatio rate) (d.stored k).toArray) := by
  have hcount : d.samples.length / d.responseLength = d.responseCount := by
    rw [h, Nat.mul_div_cancel _ hpos]
  refine take_drop_flatMap (fun _ _ => ?_) (getElem?_pieces _ (hcount.symm ▸ hk) _)
  rw [List.length_map, List.length_range]
  rfl

theorem Valid.filled {d : Dataset} (h : d.Valid) : d.Filled := h.samples

theorem Loaded.filled {d : Dataset} {rate : Nat} (h : d.Loaded rate) : d.Filled := h.samples

/-- The response of a number, brought to a rate. -/
def storedAt (d : Dataset) (rate k : Nat) : List UInt32 :=
  if d.sampleRate = rate then d.stored k
  else (List.range (d.resampledLength rate)).map
    (interpolate (d.rateRatio rate) (d.stored k).toArray)

/-- The table has no room for the resampled responses. -/
def TooLong (d : Dataset) (rate : Nat) : Prop :=
  d.sampleRate ≠ rate ∧
    Memory.fits (d.responseCount * d.resampledLength rate) Memory.sampleSize = false

instance (d : Dataset) (rate : Nat) : Decidable (d.TooLong rate) :=
  inferInstanceAs (Decidable (_ ∧ _))

/-- A valid dataset is brought to every rate, unless the resampled table has no room. -/
theorem Valid.atRate_eq {d : Dataset} (h : d.Valid) {rate : Nat} (hrate : 0 < rate) :
    d.atRate rate
      = if d.TooLong rate then .error (.aborted .outOfMemory)
        else .ok (if d.sampleRate = rate then d else d.resample rate) := by
  have hword : ¬ wordLimit ≤ d.responseCount :=
    Nat.not_le.mpr (Nat.lt_of_le_of_lt h.total (by decide))
  rw [atRate, if_neg hrate.ne', if_neg hword]
  by_cases hsame : d.sampleRate = rate
  · rw [if_pos hsame, if_neg fun hlong => hlong.1 hsame, if_pos hsame]
  rw [if_neg hsame, if_neg hsame]
  cases hfits : Memory.fits (d.responseCount * d.resampledLength rate) Memory.sampleSize with
  | true =>
    have hshort : ¬ d.TooLong rate := fun hlong => by simp [hlong.2] at hfits
    rw [if_neg hshort]
    exact if_neg (Nat.ne_of_gt h.responseLength.1)
  | false =>
    have hlong : d.TooLong rate := ⟨hsame, hfits⟩
    exact (if_pos hlong).symm

theorem Valid.stored_atRate {d : Dataset} (h : d.Valid) (rate : Nat) {k : Nat}
    (hk : k < d.responseCount) :
    (if d.sampleRate = rate then d else d.resample rate).stored k = d.storedAt rate k := by
  rw [storedAt]
  split
  · rfl
  · exact h.filled.stored_resample h.responseLength.1 rate hk

/-! ## The loaded table -/

/-- The sample with number `i` belongs to the response at a place of the grid. -/
def Holds (d : Dataset) (place : Nat × Nat) (i : Nat) : Prop :=
  d.onGrid place.1 place.2 = true ∧
    (d.bandStart place.1 + place.2) * d.responseLength ≤ i ∧ i < d.responseStop place.1 place.2

/-- **Every sample belongs to one response.** -/
theorem Filled.existsUnique_place {d : Dataset} (h : d.Filled) {i : Nat}
    (hi : i < d.samples.length) : ∃! place, d.Holds place i := by
  have hlength : 0 < d.responseLength := by
    apply Nat.pos_of_ne_zero
    intro hzero
    rw [h, hzero] at hi
    omega
  -- A response holds the sample exactly if it has this number.
  have hnumber : ∀ k, k * d.responseLength ≤ i ∧ i < k * d.responseLength + d.responseLength ↔
      k = i / d.responseLength := by
    intro k
    rw [eq_comm, Nat.div_eq_iff hlength]
    omega
  obtain ⟨band, index, count, hband, hindex, hsum⟩ :=
    exists_place (Nat.div_lt_of_lt_mul (Nat.mul_comm .. ▸ h ▸ hi))
  have hgrid : d.onGrid band index = true := onGrid_iff.mpr ⟨count, hband, hindex⟩
  refine ⟨(band, index), ⟨hgrid, (hnumber _).mpr hsum⟩, ?_⟩
  rintro ⟨band', index'⟩ ⟨hgrid', hplace⟩
  obtain ⟨rfl, rfl⟩ := place_unique hgrid' hgrid (((hnumber _).mp hplace).trans hsum.symm)
  rfl

/-! ## The line between two samples -/

/-- Sample `j` of the response of a number, silence behind its end. -/
def Reads (d : Dataset) (k j : Nat) (w : UInt32) : Prop :=
  if j < d.responseLength then d.samples[k * d.responseLength + j]? = some w else w = 0

/-- The word `w` lies `i` steps of `ratio` samples along the response of a number: on the straight
line between the two samples next to that place, with the amplitude scaled by `ratio`.  If the line
has no number there, the word is one of no number. -/
def Along (d : Dataset) (ratio : Float) (k i : Nat) (w : UInt32) : Prop :=
  let position := Double.ofCount i * ratio
  let j := Double.floorCount position
  let fraction := Double.toSingle (position - Double.ofCount j)
  ∃ a b, d.Reads k j a ∧ d.Reads k (j + 1) b ∧
    let start := Float32.ofBits a
    let x := (start + (Float32.ofBits b - start) * fraction) * Double.toSingle ratio
    w = if x.isNaN then Single.resultWord a b x else x.toBits

theorem Reads.unique {d : Dataset} {k j : Nat} {v w : UInt32} (hv : d.Reads k j v)
    (hw : d.Reads k j w) : v = w := by
  unfold Reads at hv hw
  split at hv
  · next hj => exact Option.some.inj (hv.symm.trans ((if_pos hj).mp hw))
  · next hj => exact hv.trans ((if_neg hj).mp hw).symm

/-- There is one such word. -/
theorem Along.unique {d : Dataset} {ratio : Float} {k i : Nat} {v w : UInt32}
    (hv : d.Along ratio k i v) (hw : d.Along ratio k i w) : v = w := by
  obtain ⟨a, b, ha, hb, rfl⟩ := hv
  obtain ⟨a', b', ha', hb', rfl⟩ := hw
  rw [ha.unique ha', hb.unique hb']

/-- **A response reads its own samples, and silence behind its end**, also where the table goes on
with the next one. -/
theorem Filled.reads_wordAt {d : Dataset} (h : d.Filled) {k : Nat} (hk : k < d.responseCount)
    (j : Nat) : d.Reads k j (wordAt (d.stored k).toArray j) := by
  have hword : wordAt (d.stored k).toArray j = ((d.stored k)[j]?).getD 0 := by
    rw [wordAt, Array.getD_eq_getD_getElem?, List.getElem?_toArray]
  have hlength := h.length_stored hk
  rw [Reads, hword]
  split
  · next hj =>
    have hsame : d.samples[k * d.responseLength + j]? = (d.stored k)[j]? := by
      rw [stored, List.getElem?_take_of_lt hj, List.getElem?_drop]
    rw [hsame, List.getElem?_eq_getElem (hlength.symm ▸ hj), Option.getD_some]
  · next hj => rw [List.getElem?_eq_none (by omega), Option.getD_none]

theorem Filled.along_interpolate {d : Dataset} (h : d.Filled) {k : Nat} (hk : k < d.responseCount)
    (ratio : Float) (i : Nat) : d.Along ratio k i (interpolate ratio (d.stored k).toArray i) := by
  refine ⟨_, _, h.reads_wordAt hk _, h.reads_wordAt hk _, ?_⟩
  dsimp only
  rw [interpolate]
  split
  · rfl
  · next hx => exact if_pos (by simpa using hx)

/-- **The table of a loaded dataset is addressed without gaps or overlap, at every rate.**  A parsed
dataset is loaded at every rate at which its table has room.  The table then holds so many samples
as all bands call for, each of them in one response.  The response at a place is there if the band
has so many azimuths; it is the slice of the table that holds the parsed response of the same
number: the same samples at the rate of the dataset, and at any other those along this response,
which read its own samples and silence behind its end, so many as fit into its time. -/
theorem load_addresses {bytes : List UInt8} {raw : Dataset} {rate : Nat}
    (hparse : parse bytes = .ok raw) (hrate : 0 < rate) :
    let ratio := Double.ofCount raw.sampleRate / Double.ofCount rate
    let length := if raw.sampleRate = rate then raw.responseLength
      else max 1 (Double.ceilCount (Double.ofCount raw.responseLength / ratio))
    (∃ d, load bytes rate = .ok d ∧
      d.azimuthCounts = raw.azimuthCounts ∧
      d.responseLength = length ∧
      d.samples.length = raw.azimuthCounts.sum * length ∧
      (∀ i < d.samples.length, ∃! place, d.Holds place i) ∧
      ∀ band index,
        ((d.response? band index).isSome = true ↔
          ∃ count, raw.azimuthCounts[band]? = some count ∧ index < count) ∧
        ∀ response, d.response? band index = some response →
          let k := (raw.azimuthCounts.take band).sum + index
          response = (d.samples.drop (k * length)).take length ∧
          response.length = length ∧
          (raw.sampleRate = rate →
            response = (raw.samples.drop (k * raw.responseLength)).take raw.responseLength) ∧
          (raw.sampleRate ≠ rate →
            ∀ i < length, ∃ w, response[i]? = some w ∧ raw.Along ratio k i w)) ∨
    (raw.sampleRate ≠ rate ∧
      Memory.fits (raw.azimuthCounts.sum * length) Memory.sampleSize = false ∧
      load bytes rate = .error (.aborted .outOfMemory)) := by
  intro ratio length
  have hv : raw.Valid := (parse_eq_ok.mp hparse).1
  have hload : load bytes rate = raw.atRate rate := by rw [load, hparse]
  rw [hv.atRate_eq hrate] at hload
  by_cases hlong : raw.TooLong rate
  · obtain ⟨hother, hfits⟩ := hlong
    have hlength : length = raw.resampledLength rate := if_neg hother
    exact .inr ⟨hother, hlength ▸ hfits, hload.trans (if_pos ⟨hother, hfits⟩)⟩
  have hok := hload.trans (if_neg hlong)
  set d := if raw.sampleRate = rate then raw else raw.resample rate with hd
  have hcounts : d.azimuthCounts = raw.azimuthCounts := by
    rw [hd]
    split <;> rfl
  have hlength : d.responseLength = length := by
    rw [hd]
    by_cases hsame : raw.sampleRate = rate
    · exact (congrArg responseLength (if_pos hsame)).trans (if_pos hsame).symm
    · exact (congrArg responseLength (if_neg hsame)).trans (if_neg hsame).symm
  have hstart : ∀ band, d.bandStart band = (raw.azimuthCounts.take band).sum := fun band => by
    rw [bandStart, hcounts]
  have hfilled : d.Filled := (loaded_of_load hok).filled
  rw [← hlength]
  refine .inl ⟨d, hok, hcounts, rfl, ?_, fun i hi => hfilled.existsUnique_place hi,
    fun band index => ⟨?_, ?_⟩⟩
  · rw [← hcounts]
    exact hfilled
  · rw [hfilled.response?_eq, ← hcounts, ← onGrid_iff]
    cases d.onGrid band index <;> simp
  · intro response hresponse k
    rw [hfilled.response?_eq, Option.ite_none_right_eq_some, hstart] at hresponse
    obtain ⟨hgrid, hsome⟩ := hresponse
    obtain rfl : d.stored k = response := Option.some.inj hsome
    have hk : k < d.responseCount := by
      rw [show k = d.bandStart band + index by rw [hstart]]
      exact number_lt_responseCount hgrid
    have hk' : k < raw.responseCount := by
      rw [responseCount, ← hcounts]
      exact hk
    have hstored : d.stored k = raw.storedAt rate k := hv.stored_atRate rate hk'
    refine ⟨rfl, hfilled.length_stored hk, fun hsame => ?_, fun hother i hi => ?_⟩
    · rw [hstored, storedAt, if_pos hsame]
      rfl
    · have hresampled : length = raw.resampledLength rate := if_neg hother
      refine ⟨_, ?_, hv.filled.along_interpolate hk' ratio i⟩
      rw [hstored, storedAt, if_neg hother, List.getElem?_map,
        List.getElem?_range (by rw [← hresampled, ← hlength]; exact hi)]
      rfl

/-- Resampled to twice its rate, `twoBands` holds three responses of four samples.  The last sample
of the first one lies half way from its end to silence, although a response of no number is next to
it. -/
theorem load_twoBands_addresses : parse (twoBands.encode .little) = .ok twoBands ∧ 0 < 16000 ∧
    ∃ d, load (twoBands.encode .little) 16000 = .ok d ∧ d.samples.length = 3 * 4 ∧
      ∀ response, d.response? 0 0 = some response →
        response = [0x3f000000, 0x3ec00000, 0x3e800000, 0x3e000000] := by
  have hparse : parse (twoBands.encode .little) = .ok twoBands :=
    parse_eq_ok.mpr ⟨by constructor <;> decide, .little, rfl⟩
  refine ⟨hparse, by decide, ?_⟩
  obtain ⟨d, hload, -, hlength, hsamples, -, hplaces⟩ | ⟨-, hlong, -⟩ :=
    load_addresses hparse (show 0 < 16000 by decide)
  · refine ⟨d, hload, hsamples, fun response h => ?_⟩
    obtain ⟨-, hfour, -, halong⟩ := (hplaces 0 0).2 response h
    have hword : ∀ i w, i < 4 → twoBands.Along (Double.ofCount 8000 / Double.ofCount 16000) 0 i w →
        response[i]? = some w := by
      intro i w hi hw
      obtain ⟨v, hv, hline⟩ := halong (by decide) i hi
      exact hline.unique hw ▸ hv
    refine List.ext_getElem? fun i => ?_
    obtain rfl | rfl | rfl | rfl | hi : i = 0 ∨ i = 1 ∨ i = 2 ∨ i = 3 ∨ 4 ≤ i := by omega
    · exact hword 0 _ (by decide) ⟨0x3f800000, 0x3f000000, rfl, rfl, rfl⟩
    · exact hword 1 _ (by decide) ⟨0x3f800000, 0x3f000000, rfl, rfl, rfl⟩
    · exact hword 2 _ (by decide) ⟨0x3f000000, 0, rfl, rfl, rfl⟩
    · exact hword 3 _ (by decide) ⟨0x3f000000, 0, rfl, rfl, rfl⟩
    · rw [List.getElem?_eq_none (hfour ▸ hi), List.getElem?_eq_none hi]
  · exact absurd hlong (by decide)

end SpatialAudio.Dataset
