import SpatialAudio.Proofs.Conversion
import SpatialAudio.Proofs.Elementwise
import SpatialAudio.Proofs.ResponseTable

/-!
# Proofs/Directions — looking up the response of a direction

Every direction has a response in a loaded dataset, whether its angles are numbers or not: an
elevation is clamped between bounds that are in order (`Loaded.exists_bandsAt`), and an azimuth is
brought to an index by a remainder by a count that is not zero (`Loaded.exists_bandContributions`).
What is looked up stands on the grid, next to one another (`Loaded.exists_contributions`).  It is
added up over silence (`monoInto`), so each sample of the result is determined by the dataset and the
direction alone (`sampleAt`).
-/

namespace SpatialAudio.Dataset

/-! ## Looking up -/

/-- The end of the table is a word. -/
theorem length_samples_lt_of_load {bytes : List UInt8} {d : Dataset} {rate : Nat}
    (h : load bytes rate = .ok d) : d.samples.length < wordLimit := by
  have hd := loaded_of_load h
  unfold load at h
  split at h
  case h_2 => cases h
  next raw hparse =>
  have hv : raw.Valid := (parse_eq_ok.mp hparse).1
  rw [hv.atRate_eq hd.rate_pos] at h
  split at h
  · cases h
  next hshort =>
  split at h
  · cases h
    have hheader := Header.valid_iff_shaped.mp (valid_iff.mp hv).1
    rw [hv.samples]
    exact Header.mul_lt_of_isCount hheader.1.responses hheader.2.2
  next hother =>
  cases h
  have hfits : Memory.fits (raw.responseCount * raw.resampledLength rate) Memory.sampleSize = true :=
    Bool.eq_true_of_not_eq_false fun hfull => hshort ⟨hother, hfull⟩
  have hroom : raw.responseCount * raw.resampledLength rate * 4 < 2 ^ 63 := of_decide_eq_true hfits
  have hlength : (raw.resample rate).samples.length
      = raw.responseCount * raw.resampledLength rate := hd.filled
  rw [hlength, wordLimit]
  omega

/-- **What is on the grid is looked up.** -/
theorem Filled.lookUp_eq {d : Dataset} (h : d.Filled) (hword : d.samples.length < wordLimit)
    {band index : Nat} (hgrid : d.onGrid band index = true) :
    d.lookUp band index = .ok (some (d.stored (d.bandStart band + index))) := by
  have hstop : d.responseStop band index < wordLimit := by
    refine Nat.lt_of_le_of_lt ?_ hword
    rw [h, responseStop, ← Nat.succ_mul]
    exact Nat.mul_le_mul_right _ (number_lt_responseCount hgrid)
  rw [lookUp, hgrid, Bool.true_and, decide_eq_false (Nat.not_le.mpr hstop), h.response?_eq, hgrid]
  rfl

/-! ## Bands and azimuths next to a direction -/

theorem clamp?_of_le {low high : Float32} (h : low ≤ high) (x : Float32) :
    ∃ y, Single.clamp? low high x = some y := ⟨_, if_pos h⟩

theorem isWord_natAbs_lt {v : Int} (h : IsWord v) : v.natAbs < wordLimit := by
  obtain ⟨hlow, hhigh⟩ := h
  rw [wordLimit]
  omega

variable {d : Dataset} {rate : Nat}

/-- The bounds of the elevation stay in order as singles. -/
theorem Loaded.ofInt_le (hd : d.Loaded rate) :
    Single.ofInt d.minElevation ≤ Single.ofInt d.maxElevation :=
  Single.ofInt_mono (isWord_natAbs_lt hd.header.minElevation)
    (isWord_natAbs_lt hd.header.maxElevation) hd.header.elevations

/-- **The bands next to an elevation** are equal or adjacent, whether it is a number or not. -/
theorem Loaded.exists_bandsAt (hd : d.Loaded rate) (elevation : Float32) :
    ∃ lower upper w, d.bandsAt elevation = .ok (lower, upper, w) ∧
      upper < d.azimuthCounts.length ∧ (upper = lower ∨ upper = lower + 1) := by
  have hbands : 0 < d.azimuthCounts.length := hd.header.bands.1
  by_cases hone : d.azimuthCounts.length ≤ 1 ∨ d.maxElevation = d.minElevation
  · exact ⟨0, 0, 0, if_pos hone, hbands, .inl rfl⟩
  obtain ⟨e, he⟩ := clamp?_of_le hd.ofInt_le elevation
  refine ⟨_, _, _, by rw [bandsAt, if_neg hone]; simp only [he]; rfl, ?_, ?_⟩
  · exact Nat.lt_of_le_of_lt (Nat.min_le_right _ _) (by omega)
  · simp only [Nat.min_def]
    split <;> split <;> omega

/-- A contribution is looked up at `first` on the circle of its band, or at the azimuth after it. -/
def Beside (d : Dataset) (first : Nat → Nat) (c : Contribution) : Prop :=
  ∃ count, d.azimuthCounts[c.band]? = some count ∧ first c.band < count ∧
    (c.index = first c.band ∨ c.index = (first c.band + 1) % count)

theorem Beside.onGrid {first : Nat → Nat} {c : Contribution} (h : d.Beside first c) :
    d.onGrid c.band c.index = true := by
  obtain ⟨count, hcount, hfirst, hindex⟩ := h
  refine onGrid_iff.mpr ⟨count, hcount, ?_⟩
  obtain hindex | hindex := hindex
  · exact hindex ▸ hfirst
  · exact hindex ▸ Nat.mod_lt _ (Nat.zero_lt_of_lt hfirst)

/-- The first azimuth next to a direction in each band. -/
def firstAzimuth (d : Dataset) (azimuth : Float32) (band : Nat) : Nat :=
  (azimuthsAt (d.azimuthCounts.getD band 0) azimuth).1

/-- **A band contributes at most two responses**, at azimuths that follow each other. -/
theorem Loaded.exists_bandContributions (hd : d.Loaded rate) {band : Nat}
    (hband : band < d.azimuthCounts.length) (azimuth weight : Float32) :
    ∃ parts, d.bandContributions band azimuth weight = .ok parts ∧ parts.length ≤ 2 ∧
      ∀ c ∈ parts, c.band = band ∧ d.Beside (d.firstAzimuth azimuth) c := by
  unfold bandContributions
  split
  · exact ⟨[], rfl, Nat.zero_le _, nofun⟩
  have hpos : 0 < d.azimuthCounts[band] := (hd.header.azimuths _ (List.getElem_mem hband)).1
  obtain ⟨n, hn⟩ := Nat.exists_eq_succ_of_ne_zero (Nat.ne_of_gt hpos)
  have hcount : d.azimuthCounts[band]? = some (n + 1) := by
    rw [List.getElem?_eq_getElem hband, hn]
  have hfirst : d.firstAzimuth azimuth band = (azimuthsAt (n + 1) azimuth).1 := by
    rw [firstAzimuth, List.getD_eq_getElem?_getD, hcount, Option.getD_some]
  rw [hcount]
  refine ⟨_, rfl, ?_, fun c hc => ?_⟩
  · rw [List.length_map]
    exact List.length_filter_le _ _
  · obtain ⟨⟨index, share⟩, hshare, rfl⟩ := List.mem_map.mp hc
    refine ⟨rfl, n + 1, hcount, hfirst ▸ Nat.mod_lt _ n.succ_pos, ?_⟩
    rw [hfirst]
    obtain h | h := List.mem_pair.mp (List.mem_of_mem_filter hshare)
    · exact .inl (congrArg Prod.fst h)
    · exact .inr (congrArg Prod.fst h)

/-- **What makes up a response stands on the grid**, in at most two bands next to each other. -/
theorem Loaded.exists_contributions (hd : d.Loaded rate) (elevation azimuth : Float32) :
    ∃ lower upper parts, d.contributions elevation azimuth = .ok parts ∧
      upper < d.azimuthCounts.length ∧ (upper = lower ∨ upper = lower + 1) ∧
      ∀ c ∈ parts, (c.band = lower ∨ c.band = upper) ∧ d.Beside (d.firstAzimuth azimuth) c := by
  obtain ⟨lower, upper, w, hbands, hupper, hnext⟩ := hd.exists_bandsAt elevation
  obtain ⟨below, hbelow, -, hlow⟩ :=
    hd.exists_bandContributions (show lower < d.azimuthCounts.length by omega) azimuth (1 - w)
  obtain ⟨above, habove, -, hhigh⟩ := hd.exists_bandContributions hupper azimuth w
  have hcontributions : d.contributions elevation azimuth
      = .ok (below ++ if upper ≠ lower then above else []) := by
    refine bind_eq_ok.mpr ⟨_, hbands, bind_eq_ok.mpr ⟨below, hbelow, ?_⟩⟩
    split
    · exact bind_eq_ok.mpr ⟨above, habove, rfl⟩
    · rfl
  refine ⟨lower, upper, _, hcontributions, hupper, hnext, fun c hc => ?_⟩
  obtain hc | hc := List.mem_append.mp hc
  · exact ⟨.inl (hlow c hc).1, (hlow c hc).2⟩
  · split at hc
    · exact ⟨.inr (hhigh c hc).1, (hhigh c hc).2⟩
    · cases hc

/-! ## Adding up -/

/-- A contribution added to sample `i` of a sum, which stays as it is behind the response. -/
def addSample (d : Dataset) (i : Nat) (sum : Float32) (c : Contribution) : Float32 :=
  match (d.response? c.band c.index).bind (·[i]?) with
  | some w => sum + c.gain * Float32.ofBits w
  | none => sum

/-- Sample `i` of a response: the contributions added up in order. -/
def sampleAt (d : Dataset) (parts : List Contribution) (i : Nat) : Float32 :=
  parts.foldl (d.addSample i) 0

/-- The response of a direction, written over what `out` held before. -/
def monoInto (d : Dataset) (elevation azimuth : Float32) (out : Array Float32) :
    Except Abort (Array Float32) := do
  let parts ← d.contributions elevation azimuth
  parts.foldlM d.addContribution (out.map fun _ => 0)

/-- The kernel adds one product to each sample that the response has. -/
theorem getElem?_multiplyAdd (gain : Float32) (response : List UInt32) (out : Array Float32)
    (i : Nat) :
    (Kernel.multiplyAdd gain ⟨(response.map Float32.ofBits).toArray, 0⟩ ⟨out, 0⟩)[i]?
      = out[i]?.map fun x => match response[i]? with
          | some w => x + gain * Float32.ofBits w
          | none => x := by
  have hsize : (response.map Float32.ofBits).toArray.size = response.length := by
    rw [List.size_toArray, List.length_map]
  rw [Kernel.multiplyAdd, Kernel.Operation.getElem?_run]
  change (if i < min out.size (response.map Float32.ofBits).toArray.size
    then out[i]?.map fun _ => out[i]?.getD 0
      + gain * ((response.map Float32.ofBits).toArray[i]?.getD 0)
    else out[i]?) = _
  have hread : (response.map Float32.ofBits).toArray[i]? = response[i]?.map Float32.ofBits := by
    rw [List.getElem?_toArray, List.getElem?_map]
  rw [hsize, hread]
  cases hout : out[i]? with
  | none => simp
  | some x =>
    have hi : i < out.size := (Array.getElem?_eq_some_iff.mp hout).1
    cases hresponse : response[i]? with
    | none =>
      have hend := List.getElem?_eq_none_iff.mp hresponse
      rw [if_neg (by omega)]
      rfl
    | some w =>
      have hlt := (List.getElem?_eq_some_iff.mp hresponse).1
      rw [if_pos (by omega)]
      rfl

theorem addContribution_eq {c : Contribution} {response : List UInt32}
    (hlook : d.lookUp c.band c.index = .ok (some response))
    (hresponse : d.response? c.band c.index = some response) (out : Array Float32) :
    ∃ out', d.addContribution out c = .ok out' ∧
      ∀ i : Nat, out'[i]? = out[i]?.map fun x => d.addSample i x c := by
  refine ⟨_, bind_eq_ok.mpr ⟨_, hlook, rfl⟩, fun i => ?_⟩
  rw [getElem?_multiplyAdd]
  congr 1
  funext x
  rw [addSample, hresponse, Option.bind_some]

/-- **Contributions on the grid are added up**, sample by sample. -/
theorem foldlM_addContribution (hfilled : d.Filled) (hword : d.samples.length < wordLimit)
    {parts : List Contribution} (hgrid : ∀ c ∈ parts, d.onGrid c.band c.index = true)
    (out : Array Float32) :
    ∃ out', parts.foldlM d.addContribution out = .ok out' ∧
      ∀ i : Nat, out'[i]? = out[i]?.map fun x => parts.foldl (d.addSample i) x := by
  induction parts generalizing out with
  | nil => exact ⟨out, rfl, fun i => Option.map_id'.symm⟩
  | cons c rest ih =>
    have hc := hgrid c (List.mem_cons_self ..)
    have hresponse := (hfilled.response?_eq c.band c.index).trans (if_pos hc)
    obtain ⟨out₁, hfirst, hadd⟩ := addContribution_eq (hfilled.lookUp_eq hword hc) hresponse out
    obtain ⟨out₂, hrest, hsum⟩ := ih (fun c hc => hgrid c (List.mem_cons_of_mem _ hc)) out₁
    refine ⟨out₂, ?_, fun i => ?_⟩
    · rw [List.foldlM_cons]
      exact bind_eq_ok.mpr ⟨out₁, hfirst, hrest⟩
    · rw [hsum, hadd, Option.map_map]
      rfl

/-- The responses of both ears, written over what `left` and `right` held before. -/
def stereoInto (d : Dataset) (elevation azimuth : Float32) (left right : Array Float32) :
    Except Abort (Array Float32 × Array Float32) := do
  let left ← d.monoInto elevation azimuth left
  let right ← d.monoInto elevation (360 - azimuth) right
  return (left, right)

/-- What was there before is silenced first. -/
theorem monoInto_eq (d : Dataset) (elevation azimuth : Float32) (out : Array Float32) :
    d.monoInto elevation azimuth out = d.mono elevation azimuth out.size := by
  rw [monoInto, mono, Array.map_const']

theorem exists_monoInto {bytes : List UInt8} (h : load bytes rate = .ok d) {elevation azimuth}
    {parts : List Contribution} (hparts : d.contributions elevation azimuth = .ok parts)
    (hgrid : ∀ c ∈ parts, d.onGrid c.band c.index = true) (out : Array Float32) :
    ∃ result, d.monoInto elevation azimuth out = .ok result ∧ result.size = out.size ∧
      ∀ i < out.size, result[i]? = some (d.sampleAt parts i) := by
  obtain ⟨result, hfold, hsamples⟩ := foldlM_addContribution (loaded_of_load h).filled
    (length_samples_lt_of_load h) hgrid (out.map fun _ => 0)
  have hsum : ∀ i : Nat, result[i]? = out[i]?.map fun _ => d.sampleAt parts i := fun i => by
    rw [hsamples, Array.getElem?_map, Option.map_map]
    rfl
  refine ⟨result, bind_eq_ok.mpr ⟨parts, hparts, hfold⟩, ?_, fun i hi => ?_⟩
  · apply Nat.le_antisymm
    · apply Array.getElem?_eq_none_iff.mp
      rw [hsum, Array.getElem?_eq_none (Nat.le_refl _), Option.map_none]
    · apply Array.getElem?_eq_none_iff.mp
      have hend := hsum result.size
      rw [Array.getElem?_eq_none (Nat.le_refl _)] at hend
      exact Option.map_eq_none_iff.mp hend.symm
  · rw [hsum, Array.getElem?_eq_getElem hi, Option.map_some]

/-- **Looking up a direction is total and stays on the grid.**  In a loaded dataset every direction
has contributions: at most two bands enter, equal or adjacent, and of each the responses at one
azimuth or at two that follow each other on the circle, all of which the table holds.  Every sample
of either ear is their sum, whatever was in its place before. -/
theorem load_directions {bytes : List UInt8} (h : load bytes rate = .ok d)
    (elevation azimuth : Float32) :
    (∃ (parts : List Contribution) (lower upper : Nat) (first : Nat → Nat),
      d.contributions elevation azimuth = .ok parts ∧
      lower < d.azimuthCounts.length ∧ upper < d.azimuthCounts.length ∧
      (upper = lower ∨ upper = lower + 1) ∧
      (∀ c ∈ parts, (c.band = lower ∨ c.band = upper) ∧
        (∃ count, d.azimuthCounts[c.band]? = some count ∧ first c.band < count ∧
          (c.index = first c.band ∨ c.index = (first c.band + 1) % count)) ∧
        ∃ response, d.lookUp c.band c.index = .ok (some response)) ∧
      ∀ out, ∃ result, d.monoInto elevation azimuth out = .ok result ∧
        d.mono elevation azimuth out.size = .ok result ∧ result.size = out.size ∧
        ∀ i < out.size, result[i]? = some (d.sampleAt parts i)) ∧
    ∀ left right, ∃ left' right', d.stereoInto elevation azimuth left right = .ok (left', right') ∧
      d.monoInto elevation azimuth left = .ok left' ∧
      d.monoInto elevation (360 - azimuth) right = .ok right' ∧
      (left.size = right.size → d.stereo elevation azimuth left.size = .ok (left', right')) := by
  have hd := loaded_of_load h
  have hlook : ∀ {c : Contribution}, d.onGrid c.band c.index = true →
      ∃ response, d.lookUp c.band c.index = .ok (some response) := fun hgrid =>
    ⟨_, hd.filled.lookUp_eq (length_samples_lt_of_load h) hgrid⟩
  obtain ⟨lower, upper, parts, hparts, hupper, hnext, hbeside⟩ :=
    hd.exists_contributions elevation azimuth
  obtain ⟨_, _, parts', hparts', -, -, hbeside'⟩ := hd.exists_contributions elevation (360 - azimuth)
  have hmono := exists_monoInto h hparts fun c hc => (hbeside c hc).2.onGrid
  have hmono' := exists_monoInto h hparts' fun c hc => (hbeside' c hc).2.onGrid
  refine ⟨⟨parts, lower, upper, d.firstAzimuth azimuth, hparts, by omega, hupper, hnext,
    fun c hc => ?_, fun out => ?_⟩, fun left right => ?_⟩
  · obtain ⟨hband, hc⟩ := hbeside c hc
    exact ⟨hband, hc, hlook hc.onGrid⟩
  · obtain ⟨result, hinto, hresult⟩ := hmono out
    exact ⟨result, hinto, d.monoInto_eq elevation azimuth out ▸ hinto, hresult⟩
  · obtain ⟨left', hleft, -⟩ := hmono left
    obtain ⟨right', hright, -⟩ := hmono' right
    refine ⟨left', right', bind_eq_ok.mpr ⟨left', hleft, bind_eq_ok.mpr ⟨right', hright, rfl⟩⟩,
      hleft, hright, fun hsize => ?_⟩
    rw [monoInto_eq] at hleft hright
    exact bind_eq_ok.mpr ⟨left', hleft, bind_eq_ok.mpr ⟨right', hsize ▸ hright, rfl⟩⟩

/-- In `twoBands`, resampled, also an infinite elevation at no azimuth at all has a response. -/
theorem load_directions_twoBands :
    load (twoBands.encode .little) 16000 = .ok (twoBands.resample 16000) ∧
    ∃ parts, (twoBands.resample 16000).contributions (1 / 0) (0 / 0) = .ok parts ∧
      ∀ out, ∃ result, (twoBands.resample 16000).monoInto (1 / 0) (0 / 0) out = .ok result ∧
        result.size = out.size := by
  have hload : load (twoBands.encode .little) 16000 = .ok (twoBands.resample 16000) :=
    Valid.load_encode (by constructor <;> decide) (by decide) fun _ => by decide
  obtain ⟨⟨parts, _, _, _, hparts, _, _, _, _, hresults⟩, -⟩ := load_directions hload (1 / 0) (0 / 0)
  refine ⟨hload, parts, hparts, fun out => ?_⟩
  obtain ⟨result, hinto, _, hsize, _⟩ := hresults out
  exact ⟨result, hinto, hsize⟩

end SpatialAudio.Dataset
