import SpatialAudio.Hrtf.Response
import SpatialAudio.Proofs.BinaryForm

/-!
# Proofs/Reloading — writing a loaded dataset and loading it again

What was loaded has a well-shaped table, whatever its rate and however long its responses became by
resampling (`loaded_of_load`).  Only these two fields of its header may leave the range that the
binary form can hold:

* a rate of at least `2 ^ 31` is read as a negative number;
* a response length keeps its 32 lowest bits, which are then no positive number, or the length of
  shorter responses, behind whose samples bytes are left over (`parse_of_trailing`).

So a dataset written and loaded at its own rate is the same dataset or is refused as malformed
(`load_write`).
-/

namespace SpatialAudio.Dataset

open Cursor

/-! ## What loading gives -/

/-- A header that is valid but for its sample rate and its response length. -/
structure Header.Shaped (h : Header) : Prop where
  bands : IsCount h.azimuthCounts.length
  azimuths : ∀ n ∈ h.azimuthCounts, IsCount n
  responses : IsCount h.responseCount
  total : h.azimuthCounts.sum = h.responseCount
  minElevation : IsWord h.minElevation
  maxElevation : IsWord h.maxElevation
  elevations : h.minElevation ≤ h.maxElevation

theorem Header.valid_iff_shaped {h : Header} :
    h.Valid ↔ h.Shaped ∧ IsCount h.sampleRate ∧ IsCount h.responseLength := by
  constructor
  · rintro ⟨hrate, hbands, hazimuths, hresponses, htotal, hmin, hmax, horder, hlength⟩
    exact ⟨⟨hbands, hazimuths, hresponses, htotal, hmin, hmax, horder⟩, hrate, hlength⟩
  · rintro ⟨⟨hbands, hazimuths, hresponses, htotal, hmin, hmax, horder⟩, hrate, hlength⟩
    exact ⟨hrate, hbands, hazimuths, hresponses, htotal, hmin, hmax, horder, hlength⟩

theorem length_pieces {α : Type} (n count : Nat) (l : List α) :
    (pieces n count l).length = count := by
  induction count generalizing l with
  | zero => rfl
  | succ count ih => rw [pieces, List.length_cons, ih]

/-- Resampling keeps the number of responses. -/
theorem length_samples_resample (d : Dataset) (rate : Nat) :
    (d.resample rate).samples.length
      = d.samples.length / d.responseLength * (d.resample rate).responseLength := by
  change (List.flatMap _ _).length = _ * d.resampledLength rate
  simp only [List.length_flatMap, List.length_map, List.length_range, List.map_const',
    List.sum_replicate_nat, length_pieces]

/-- What a dataset loaded at a rate is like. -/
structure Loaded (d : Dataset) (rate : Nat) : Prop where
  sampleRate : d.sampleRate = rate
  rate_pos : 0 < rate
  length_pos : 0 < d.responseLength
  header : d.header.Shaped
  samples : d.samples.length = d.header.sampleCount

/-- A valid dataset is well shaped at every rate. -/
theorem Valid.loaded {d d' : Dataset} {rate : Nat} (hv : d.Valid) (h : d.atRate rate = .ok d') :
    d'.Loaded rate := by
  obtain ⟨hheader, hsamples⟩ := valid_iff.mp hv
  obtain ⟨hshaped, -, hlength⟩ := Header.valid_iff_shaped.mp hheader
  unfold atRate at h
  split at h
  · cases h
  next hrate =>
  split at h
  · cases h
  split at h
  · next hsame =>
    cases h
    exact ⟨hsame, Nat.pos_of_ne_zero hrate, hlength.1, hshaped, hsamples⟩
  split at h
  · cases h
  split at h
  · cases h
  next hne =>
  cases h
  have hcount : d.samples.length / d.responseLength = d.responseCount := by
    rw [hsamples]
    exact Nat.mul_div_cancel _ hlength.1
  refine ⟨rfl, Nat.pos_of_ne_zero hrate, Nat.le_max_left .., ?_, ?_⟩
  · exact ⟨hshaped.bands, hshaped.azimuths, hshaped.responses, hshaped.total, hshaped.minElevation,
      hshaped.maxElevation, hshaped.elevations⟩
  · rw [length_samples_resample, hcount]
    rfl

/-- **What was loaded is well shaped.** -/
theorem loaded_of_load {bytes : List UInt8} {d : Dataset} {rate : Nat}
    (h : load bytes rate = .ok d) : d.Loaded rate := by
  unfold load at h
  split at h
  · next raw hparse => exact (parse_eq_ok.mp hparse).1.loaded h
  · cases h

/-! ## Fields out of range -/

section Malformed

variable {bytes : List UInt8} {h : Header} {c c' : Cursor}

/-- The number that is read from the field of a count. -/
def readBack (n : Nat) : Int := signedWord (integerWord n)

theorem readBack_eq (n : Nat) :
    readBack n = if n % 2 ^ 32 < 2 ^ 31 then ((n % 2 ^ 32 : Nat) : Int)
      else ((n % 2 ^ 32 : Nat) : Int) - 2 ^ 32 := by
  have hnat : (integerWord n).toNat = n % 2 ^ 32 := by
    rw [integerWord, UInt32.toNat_ofNat']
    omega
  rw [readBack, signedWord, hnat]

theorem positive_eq_error {field : HeaderField} {n : Nat} (hreads : c.Reads [integerWord n] c')
    (hn : readBack n ≤ 0) :
    positive field c = .error (.malformed (.notPositive field (readBack n))) := by
  have hword : c.word = .ok (integerWord n, c') := word_eq_ok.mpr hreads
  have hint : c.integer = .ok (readBack n, c') := by
    rw [integer, hword]
    rfl
  rw [positive, hint]
  exact if_neg (Int.not_lt.mpr hn)

theorem Header.read_of_rate (hreads : Reads ⟨bytes, 0, c.order⟩ h.fields c)
    (hrate : readBack h.sampleRate ≤ 0) :
    read bytes = .error (.malformed (.notPositive .sampleRate (readBack h.sampleRate))) := by
  simp only [fields, List.cons_append] at hreads
  obtain ⟨c₀, h₀, hreads⟩ := reads_cons.mp hreads
  obtain ⟨c₁, h₁, -⟩ := reads_cons.mp hreads
  have hstart : Cursor.start bytes = .ok c₀ := start_eq_ok.mpr (by rw [h₀.order]; exact h₀)
  exact bind_eq_error.mpr (.inr ⟨c₀, hstart, bind_eq_error.mpr (.inl (positive_eq_error h₁ hrate))⟩)

theorem Header.read_of_length (hshaped : h.Shaped) (hrate : IsCount h.sampleRate)
    (hreads : Reads ⟨bytes, 0, c.order⟩ h.fields c) (hlength : readBack h.responseLength ≤ 0) :
    read bytes
      = .error (.malformed (.notPositive .responseLength (readBack h.responseLength))) := by
  simp only [fields, List.cons_append] at hreads
  obtain ⟨c₀, h₀, hreads⟩ := reads_cons.mp hreads
  obtain ⟨c₁, h₁, hreads⟩ := reads_cons.mp hreads
  obtain ⟨c₂, h₂, hreads⟩ := reads_cons.mp hreads
  obtain ⟨c₃, h₃, hreads⟩ := reads_cons.mp hreads
  obtain ⟨c₄, h₄, hreads⟩ := reads_cons.mp hreads
  obtain ⟨c₅, h₅, hreads⟩ := reads_cons.mp hreads
  obtain ⟨c₆, h₆, h₇⟩ := reads_append.mp hreads
  have hstart : Cursor.start bytes = .ok c₀ := start_eq_ok.mpr (by rw [h₀.order]; exact h₀)
  have hcounts : c₅.azimuthsOnto [] h.azimuthCounts.length
      = .ok (h.azimuthCounts.reverse ++ [], c₆) :=
    azimuthsOnto_eq_ok.mpr ⟨_, rfl, hshaped.azimuths, rfl, h₆⟩
  have htotal : ¬ (h.azimuthCounts.reverse ++ []).reverse.sum ≠ h.responseCount := by
    simp only [List.append_nil, List.reverse_reverse, ne_eq, Decidable.not_not]
    exact hshaped.total
  -- every field in front of the length is read as it was written
  refine bind_eq_error.mpr (.inr ⟨_, hstart, ?_⟩)
  refine bind_eq_error.mpr (.inr ⟨_, positive_eq_ok.mpr ⟨hrate, h₁⟩, ?_⟩)
  refine bind_eq_error.mpr (.inr ⟨_, positive_eq_ok.mpr ⟨hshaped.responses, h₂⟩, ?_⟩)
  refine bind_eq_error.mpr (.inr ⟨_, positive_eq_ok.mpr ⟨hshaped.bands, h₃⟩, ?_⟩)
  refine bind_eq_error.mpr (.inr ⟨_, integer_eq_ok.mpr ⟨hshaped.minElevation, h₄⟩, ?_⟩)
  refine bind_eq_error.mpr (.inr ⟨_, integer_eq_ok.mpr ⟨hshaped.maxElevation, h₅⟩, ?_⟩)
  simp only [if_neg (Int.not_lt.mpr hshaped.elevations)]
  refine bind_eq_error.mpr (.inr ⟨_, hcounts, ?_⟩)
  simp only [if_neg htotal]
  exact bind_eq_error.mpr (.inl (positive_eq_error h₇ hlength))

/-- **Bytes left over behind the samples that a header calls for are refused.** -/
theorem parse_of_trailing (hv : h.Valid) {samples : List UInt32}
    (hmore : h.sampleCount < samples.length) (order : ByteOrder) :
    parse ((h.fields ++ samples).flatMap order.bytes)
      = .error (.malformed (.trailing (samples.length * 4 - h.sampleCount * 4))) := by
  let c : Cursor := ⟨samples.flatMap order.bytes, 4 * h.fields.length, order⟩
  have hreads : Reads ⟨(h.fields ++ samples).flatMap order.bytes, 0, c.order⟩ h.fields c :=
    ⟨List.flatMap_append .., (Nat.zero_add _).symm, rfl⟩
  have hread := Header.read_eq_ok.mpr ⟨hv, hreads⟩
  have hlength : ((h.fields ++ samples).flatMap order.bytes).length
      = c.offset + samples.length * 4 := by
    rw [← Header.total_of_read hread, order.length_flatMap_bytes]
  rw [parse_of_long hread (by omega), hlength, Nat.add_sub_add_left]

end Malformed

/-! ## Loading what was written -/

theorem Loaded.write {d : Dataset} {rate : Nat} (hd : d.Loaded rate) :
    d.write = .ok (d.encode .little) := by
  have hword : d.responseCount < wordLimit := Nat.lt_of_le_of_lt hd.header.responses.2 (by decide)
  rw [Dataset.write, Memory.word, if_pos hword]
  rfl

theorem Loaded.valid {d : Dataset} {rate : Nat} (hd : d.Loaded rate) (hrate : rate < 2 ^ 31)
    (hlength : d.responseLength < 2 ^ 31) : d.Valid := by
  have hcount : IsCount d.sampleRate := by
    rw [hd.sampleRate]
    exact ⟨hd.rate_pos, by omega⟩
  exact valid_iff.mpr ⟨Header.valid_iff_shaped.mpr
    ⟨hd.header, hcount, hd.length_pos, by change d.responseLength ≤ _; omega⟩, hd.samples⟩

/-- A valid dataset is loaded as it was written at its own rate, and resampled at any other that
leaves room for it. -/
theorem Valid.load_encode {d : Dataset} (hv : d.Valid) {rate : Nat} (hrate : rate ≠ 0)
    (hfits : d.sampleRate ≠ rate →
      Memory.fits (d.responseCount * d.resampledLength rate) Memory.sampleSize = true) :
    load (d.encode .little) rate = .ok (if d.sampleRate = rate then d else d.resample rate) := by
  have hword : ¬ wordLimit ≤ d.responseCount :=
    Nat.not_le.mpr (Nat.lt_of_le_of_lt hv.total (by decide))
  rw [load, parse_eq_ok.mpr ⟨hv, .little, rfl⟩]
  change d.atRate rate = _
  rw [atRate, if_neg hrate, if_neg hword]
  split
  · rfl
  · next hother =>
    rw [hfits hother]
    exact if_neg (Nat.ne_of_gt hv.responseLength.1)

/-- A length is written modulo the size of a word. -/
theorem Header.fields_mod (h : Header) :
    Header.fields { h with responseLength := h.responseLength % 2 ^ 32 } = h.fields := by
  have hsame : integerWord ((h.responseLength % 2 ^ 32 : Nat) : Int)
      = integerWord h.responseLength := by
    rw [integerWord, integerWord]
    congr 1
    omega
  simp only [Header.fields, hsame]

/-- Of a dataset whose rate or length is out of range, the written form is malformed. -/
theorem Loaded.parse_encode {d : Dataset} {rate : Nat} (hd : d.Loaded rate) (hword : rate < 2 ^ 32)
    (hwide : ¬ (rate < 2 ^ 31 ∧ d.responseLength < 2 ^ 31)) :
    ∃ defect, parse (d.encode .little) = .error (.malformed defect) := by
  let c : Cursor := ⟨d.samples.flatMap ByteOrder.little.bytes, 4 * d.header.fields.length, .little⟩
  have hreads : Reads ⟨d.encode .little, 0, c.order⟩ d.header.fields c := by
    refine ⟨?_, (Nat.zero_add _).symm, rfl⟩
    rw [encode, fields_eq, List.flatMap_append]
  have hrefused : ∀ {e : DatasetError}, Header.read (d.encode .little) = .error e →
      parse (d.encode .little) = .error e := by
    intro e he
    rw [parse, he]
    rfl
  have hback := readBack_eq d.sampleRate
  rw [hd.sampleRate] at hback
  have hlength := readBack_eq d.responseLength
  by_cases hrate : 2 ^ 31 ≤ rate
  · refine ⟨_, hrefused (Header.read_of_rate hreads ?_)⟩
    change readBack d.sampleRate ≤ 0
    rw [hd.sampleRate, hback]
    split <;> omega
  have hcount : IsCount d.header.sampleRate := by
    change IsCount d.sampleRate
    rw [hd.sampleRate]
    exact ⟨hd.rate_pos, by omega⟩
  by_cases hpos : readBack d.responseLength ≤ 0
  · exact ⟨_, hrefused (Header.read_of_length hd.header hcount hreads hpos)⟩
  -- the length is read as that of a shorter response, with the same fields
  let short : Header := { d.header with responseLength := d.responseLength % 2 ^ 32 }
  have hshort : IsCount short.responseLength ∧ short.responseLength < d.responseLength := by
    change IsCount (d.responseLength % 2 ^ 32) ∧ d.responseLength % 2 ^ 32 < d.responseLength
    rw [hlength] at hpos
    split at hpos
    · exact ⟨⟨by omega, by omega⟩, by omega⟩
    · omega
  have hvalid : short.Valid := by
    refine Header.valid_iff_shaped.mpr ⟨?_, hcount, hshort.1⟩
    have hs := hd.header
    exact ⟨hs.bands, hs.azimuths, hs.responses, hs.total, hs.minElevation, hs.maxElevation,
      hs.elevations⟩
  have hmore : short.sampleCount < d.samples.length := by
    rw [hd.samples]
    exact Nat.mul_lt_mul_of_pos_left hshort.2 hd.header.responses.1
  have hbytes : d.encode .little
      = (short.fields ++ d.samples).flatMap ByteOrder.little.bytes := by
    rw [encode, fields_eq, show short.fields = d.header.fields from d.header.fields_mod]
  exact ⟨_, hbytes ▸ parse_of_trailing hvalid hmore .little⟩

/-- **A loaded dataset survives being written and loaded at its own rate exactly if the binary form
can hold its rate and its response length; else it is refused as malformed.** -/
theorem load_write {bytes : List UInt8} {rate : Nat} {d : Dataset} (hrate : rate < 2 ^ 32)
    (h : load bytes rate = .ok d) :
    ∃ written, d.write = .ok written ∧
      (load written d.sampleRate = .ok d ↔
        d.sampleRate < 2 ^ 31 ∧ 0 < d.responseLength ∧ d.responseLength < 2 ^ 31) ∧
      (¬ (d.sampleRate < 2 ^ 31 ∧ 0 < d.responseLength ∧ d.responseLength < 2 ^ 31) →
        ∃ defect, load written d.sampleRate
          = .error (.refused (.dataset (.malformed defect)))) := by
  have hd := loaded_of_load h
  have hmalformed : ¬ (d.sampleRate < 2 ^ 31 ∧ 0 < d.responseLength ∧ d.responseLength < 2 ^ 31) →
      ∃ defect, load (d.encode .little) d.sampleRate
        = .error (.refused (.dataset (.malformed defect))) := by
    intro hwide
    rw [hd.sampleRate] at hwide
    obtain ⟨defect, hparse⟩ :=
      hd.parse_encode hrate fun hfits => hwide ⟨hfits.1, hd.length_pos, hfits.2⟩
    refine ⟨defect, ?_⟩
    rw [load, hparse]
  refine ⟨_, hd.write, ⟨fun hload => ?_, fun ⟨hfits, _, hlength⟩ => ?_⟩, hmalformed⟩
  · by_contra hwide
    obtain ⟨defect, herror⟩ := hmalformed hwide
    rw [herror] at hload
    cases hload
  · have hv := hd.valid (hd.sampleRate ▸ hfits) hlength
    rw [hv.load_encode (Nat.ne_of_gt hv.sampleRate.1) (absurd rfl), if_pos rfl]

/-- One response of three samples, one a second. -/
def slow : Dataset := ⟨1, 0, 0, [1], 3, [0x3f800000, 0, 0]⟩

/-- Resampled, the responses of `twoBands` become four samples long and are loaded again; those of
`slow` become so long that their length is read as that of shorter ones. -/
theorem load_write_twoBands_slow :
    (∃ d written, load (twoBands.encode .little) 16000 = .ok d ∧ d.responseLength = 4 ∧
      d.write = .ok written ∧ load written 16000 = .ok d) ∧
    ∃ d written defect, load (slow.encode .little) (2 ^ 31 - 1) = .ok d ∧
      2 ^ 32 < d.responseLength ∧ 0 < readBack d.responseLength ∧ d.write = .ok written ∧
      load written (2 ^ 31 - 1) = .error (.refused (.dataset (.malformed defect))) := by
  have htwo : load (twoBands.encode .little) 16000 = .ok (twoBands.resample 16000) :=
    Valid.load_encode (by constructor <;> decide) (by decide) fun _ => by decide
  have hslow : load (slow.encode .little) (2 ^ 31 - 1) = .ok (slow.resample (2 ^ 31 - 1)) :=
    Valid.load_encode (by constructor <;> decide) (by decide) fun _ => by decide
  have hfour : (twoBands.resample 16000).responseLength = 4 := by
    change twoBands.resampledLength 16000 = 4
    decide
  have hlong : 2 ^ 32 < (slow.resample (2 ^ 31 - 1)).responseLength
      ∧ 0 < readBack (slow.resample (2 ^ 31 - 1)).responseLength := by
    change 2 ^ 32 < slow.resampledLength (2 ^ 31 - 1)
      ∧ 0 < readBack (slow.resampledLength (2 ^ 31 - 1))
    decide
  obtain ⟨written, hwrite, hreload, -⟩ := load_write (by decide) htwo
  obtain ⟨written', hwrite', -, hrefused⟩ := load_write (by decide) hslow
  obtain ⟨defect, herror⟩ := hrefused (by omega)
  exact ⟨⟨_, written, htwo, hfour, hwrite, hreload.mpr ⟨by change 16000 < 2 ^ 31; decide, by omega,
    by omega⟩⟩, _, written', defect, hslow, hlong.1, hlong.2, hwrite', herror⟩

end SpatialAudio.Dataset
