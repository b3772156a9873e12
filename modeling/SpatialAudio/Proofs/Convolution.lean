import Mathlib.Data.List.Basic
import Mathlib.Data.List.GetD
import SpatialAudio.Hrtf.Convolver
import SpatialAudio.Proofs.Outcome

/-!
# Proofs/Convolution — block by block is the same as all at once

A convolver keeps only the last `responseLength` samples it was given, and works block by block.
`direct` is the convolution of a whole signal, which keeps everything.  A **past** says what a
convolver was told: the signal since it was made or last reset, the responses it was turned to, and
whether a change is still to be faded in (`Past`, `Reached`).

* `Tracks` is the invariant that carries the argument: the history is the end of the signal, with
  silence before its start.  Each operation keeps it (`Reached.tracks`).
* `outputAt_push` reads an output sample off the whole signal; the sample of a block under a past is
  `Past.sample`.
* Since nothing of the block length is left in `direct`, two convolvers that are fed one signal in
  blocks of different lengths say the same (`feed_eq`).
-/

namespace SpatialAudio

namespace Convolver

/-! ## The convolution of a whole signal -/

/-- A signal at a time; it is silent before its start. -/
def heardAt (x : List Float32) (t : Int) : Float32 :=
  if t < 0 then 0 else x.getD t.toNat 0

/-- Sample `n` of a signal convolved with the first `length` samples of a response, summed in the
order of the response. -/
def direct (response : Array Float32) (length : Nat) (x : List Float32) (n : Nat) : Float32 :=
  (List.range length).foldl
    (fun sum j => sum + response.getD j 0 * heardAt x ((n : Int) - j)) Single.negZero

/-- An input cut or filled up with zeros to `length` samples. -/
def fit (length : Nat) (input : Array Float32) : List Float32 :=
  (List.range length).map fun i => input.getD i 0

/-- What a convolver was told so far; responses are kept for the left and the right ear. -/
structure Past where
  /-- All input since the convolver was made or last reset. -/
  signal : List Float32
  /-- The responses of the direction it was turned to last. -/
  current : Array Float32 × Array Float32
  /-- The responses it was turned away from last with a crossfade. -/
  previous : Array Float32 × Array Float32
  /-- A crossfade was asked for and not heard yet. -/
  pending : Bool

/-- The straight line from one sample to another, at sample `i` of `length`. -/
def fade (length i : Nat) (p c : Float32) : Float32 :=
  p + (c - p) * (Single.ofCount i * (1 / Single.ofCount length))

/-- Sample `i` of the block that follows a past, for one ear. -/
def Past.sample (past : Past) (data : Dataset) (length : Nat) (block : List Float32)
    (ear : Array Float32 × Array Float32 → Array Float32) (i : Nat) : Float32 :=
  let c := direct (ear past.current) data.responseLength (past.signal ++ block)
    (past.signal.length + i)
  if past.pending then
    fade length i (direct (ear past.previous) data.responseLength (past.signal ++ block)
      (past.signal.length + i)) c
  else c

/-- The past of a convolver that was just made and turned straight ahead. -/
def Past.start (data : Dataset) (ahead : Array Float32 × Array Float32) : Past :=
  let silence := Array.replicate data.responseLength 0
  ⟨[], ahead, (silence, silence), false⟩

/-- The past after a turn. -/
def Past.turn (past : Past) (responses : Array Float32 × Array Float32) (crossfade : Bool) : Past :=
  { past with
    current := responses
    previous := if crossfade then past.current else past.previous
    pending := crossfade }

/-- The past after a reset. -/
def Past.forget (past : Past) : Past := { past with signal := [], pending := false }

/-- The past after a block. -/
def Past.hear (past : Past) (block : List Float32) : Past :=
  { past with signal := past.signal ++ block, pending := false }

/-- The convolvers over a dataset and a block length that calls can lead to, with their pasts. -/
inductive Reached (data : Dataset) (length : Nat) : Past → Convolver → Prop
  | new {c : Convolver} {ahead : Array Float32 × Array Float32}
      (hahead : data.stereo 0 0 data.responseLength = .ok ahead)
      (hc : Convolver.new data length = .ok c) : Reached data length (Past.start data ahead) c
  | setDirection {past : Past} {c c' : Convolver} {elevation azimuth : Float32} {crossfade : Bool}
      {responses : Array Float32 × Array Float32} (h : Reached data length past c)
      (hresponses : data.stereo elevation azimuth data.responseLength = .ok responses)
      (hc : c.setDirection elevation azimuth crossfade = .ok c') :
      Reached data length (past.turn responses crossfade) c'
  | reset {past : Past} {c : Convolver} (h : Reached data length past c) :
      Reached data length past.forget c.reset
  | process {past : Past} {c : Convolver} (h : Reached data length past c)
      (input left right : Array Float32) :
      Reached data length (past.hear (fit length input)) (c.process input left right).1

variable {data : Dataset} {length : Nat} {past : Past} {c c' : Convolver}
  {response input left right : Array Float32} {x y block : List Float32} {n i t : Nat}

/-! ## Signals -/

@[simp] theorem length_fit (length : Nat) (input : Array Float32) :
    (fit length input).length = length := by
  simp [fit]

theorem heardAt_natCast (x : List Float32) (t : Nat) : heardAt x t = x.getD t 0 := by
  rw [heardAt, if_neg (by omega), Int.toNat_natCast]

theorem heardAt_nil (t : Int) : heardAt [] t = 0 := by
  simp [heardAt]

theorem heardAt_append_left {s : Int} (h : s < x.length) : heardAt (x ++ y) s = heardAt x s := by
  by_cases hs : s < 0
  · rw [heardAt, heardAt, if_pos hs, if_pos hs]
  · rw [heardAt, heardAt, if_neg hs, if_neg hs, List.getD_append _ _ _ _ (by omega)]

theorem heardAt_append_right (x y : List Float32) (t : Nat) :
    heardAt (x ++ y) (x.length + t) = y.getD t 0 := by
  rw [← Int.natCast_add, heardAt_natCast, List.getD_append_right _ _ _ _ (Nat.le_add_right _ _),
    Nat.add_sub_cancel_left]

theorem getD_fit (h : t < length) : (fit length input).getD t 0 = input.getD t 0 := by
  simp [fit, List.getD_eq_getElem?_getD, List.getElem?_map, List.getElem?_range h]

/-- A sample depends on the signal only up to its own time. -/
theorem direct_congr (h : ∀ t : Nat, t ≤ n → heardAt x t = heardAt y t) :
    direct response length x n = direct response length y n := by
  have hpast : ∀ j : Nat, heardAt x ((n : Int) - j) = heardAt y ((n : Int) - j) := by
    intro j
    by_cases hj : j ≤ n
    · rw [← Int.natCast_sub hj]
      exact h _ (Nat.sub_le n j)
    · rw [heardAt, heardAt, if_pos (by omega), if_pos (by omega)]
  simp only [direct, hpast]

theorem direct_append (h : n < x.length) :
    direct response length (x ++ y) n = direct response length x n :=
  direct_congr fun _ ht => heardAt_append_left (by omega)

/-! ## The history is the end of the signal -/

/-- What a convolver holds of its past. -/
structure Tracks (data : Dataset) (length : Nat) (past : Past) (c : Convolver) : Prop where
  dataset : c.data = data
  blockLength : c.blockLength = length
  current : (c.left, c.right) = past.current
  previous : (c.oldLeft, c.oldRight) = past.previous
  fading : c.fading = past.pending
  size : c.history.size = data.responseLength + length
  history : ∀ t < data.responseLength + length,
    c.history.getD t 0 = heardAt past.signal (past.signal.length + t - (data.responseLength + length))

theorem setDirection_eq_ok {elevation azimuth : Float32} {crossfade : Bool}
    (h : c.setDirection elevation azimuth crossfade = .ok c') :
    ∃ left right, c.data.stereo elevation azimuth c.data.responseLength = .ok (left, right) ∧
      c' = { c with
        left, right
        oldLeft := if crossfade then c.left else c.oldLeft
        oldRight := if crossfade then c.right else c.oldRight
        fading := crossfade } := by
  obtain ⟨⟨left, right⟩, hstereo, hc⟩ := bind_eq_ok.1 h
  cases hc
  exact ⟨left, right, hstereo, rfl⟩

theorem tracks_new {ahead : Array Float32 × Array Float32}
    (hahead : data.stereo 0 0 data.responseLength = .ok ahead)
    (hc : Convolver.new data length = .ok c) : Tracks data length (Past.start data ahead) c := by
  obtain ⟨history, hhistory, hturn⟩ := bind_eq_ok.1 hc
  obtain ⟨-, -, hsamples⟩ := bind_eq_ok.1 hhistory
  obtain ⟨left, right, hstereo, rfl⟩ := setDirection_eq_ok hturn
  cases hsamples
  cases hahead.symm.trans hstereo
  refine ⟨rfl, rfl, rfl, rfl, rfl, Array.size_replicate, fun t ht => ?_⟩
  simp [Past.start, heardAt_nil, ht]

namespace Tracks

theorem setDirection (h : Tracks data length past c) {elevation azimuth : Float32}
    {crossfade : Bool} {responses : Array Float32 × Array Float32}
    (hresponses : data.stereo elevation azimuth data.responseLength = .ok responses)
    (hc : c.setDirection elevation azimuth crossfade = .ok c') :
    Tracks data length (past.turn responses crossfade) c' := by
  obtain ⟨left, right, hstereo, rfl⟩ := setDirection_eq_ok hc
  rw [h.dataset] at hstereo
  cases hresponses.symm.trans hstereo
  refine ⟨h.dataset, h.blockLength, rfl, ?_, rfl, h.size, h.history⟩
  cases crossfade
  · exact h.previous
  · exact h.current

theorem reset (h : Tracks data length past c) : Tracks data length past.forget c.reset := by
  refine ⟨h.dataset, h.blockLength, h.current, h.previous, rfl, ?_, fun t ht => ?_⟩
  · rw [Convolver.reset, Array.size_replicate, h.size]
  · rw [Past.forget, heardAt_nil, Convolver.reset, Array.getD_eq_getD_getElem?,
      Array.getElem?_replicate, h.size, if_pos ht]
    rfl

theorem size_push (h : Tracks data length past c) (input : Array Float32) :
    (c.push input).history.size = data.responseLength + length := by
  simp only [push, Array.size_append, Array.size_extract, Array.size_replicate, h.size,
    h.blockLength]
  omega

/-- The history before the new block is moved forward by a block, and the new block follows. -/
theorem history_push (h : Tracks data length past c) (input : Array Float32)
    (ht : t < data.responseLength + length) :
    (c.push input).history.getD t 0 =
      heardAt (past.signal ++ fit length input) (past.signal.length + t - data.responseLength) := by
  have hkept : (c.history.extract c.blockLength c.history.size).size = data.responseLength := by
    rw [Array.size_extract, h.size, h.blockLength]
    omega
  rw [push, Array.append_assoc, Array.getD_eq_getD_getElem?]
  by_cases hold : t < data.responseLength
  · have hlast := h.history (length + t) (by omega)
    rw [Array.getD_eq_getD_getElem?] at hlast
    rw [Array.getElem?_append_left (by rw [hkept]; exact hold), Array.getElem?_extract,
      if_pos (by rw [h.size, h.blockLength]; omega), h.blockLength, hlast,
      heardAt_append_left (by omega)]
    congr 1
    omega
  · have hnew : t - data.responseLength < length := by omega
    have htime : (past.signal.length : Int) + t - data.responseLength
        = past.signal.length + (t - data.responseLength : Nat) := by omega
    rw [Array.getElem?_append_right (by rw [hkept]; omega), hkept, htime, heardAt_append_right,
      getD_fit hnew, Array.getD_eq_getD_getElem?, h.blockLength, Array.getElem?_append,
      Array.size_extract]
    generalize t - data.responseLength = s at hnew
    by_cases hs : s < input.size
    · rw [if_pos (by omega), Array.getElem?_extract, if_pos (by omega), Nat.zero_add]
    · rw [if_neg (by omega), Array.getElem?_eq_none (by omega : input.size ≤ s),
        Array.getElem?_replicate, if_pos (by omega)]
      rfl

theorem process (h : Tracks data length past c) (input left right : Array Float32) :
    Tracks data length (past.hear (fit length input)) (c.process input left right).1 := by
  refine ⟨h.dataset, h.blockLength, h.current, h.previous, rfl, h.size_push input, fun t ht => ?_⟩
  refine (h.history_push input ht).trans (congrArg _ ?_)
  rw [Past.hear, List.length_append, length_fit]
  omega

end Tracks

theorem Reached.tracks (h : Reached data length past c) : Tracks data length past c := by
  induction h with
  | new hahead hc => exact tracks_new hahead hc
  | setDirection _ hresponses hc ih => exact ih.setDirection hresponses hc
  | reset _ ih => exact ih.reset
  | process _ input left right ih => exact ih.process input left right

/-! ## Output samples -/

theorem sumOnto_eq_foldl (response history : Array Float32) (top count j : Nat) (acc : Float32) :
    sumOnto response history top count j acc =
      (List.range' j count).foldl
        (fun sum j => sum + response.getD j 0 * history.getD (top - j) 0) acc := by
  induction count generalizing j acc with
  | zero => rfl
  | succ count ih => rw [sumOnto, ih, List.range'_succ, List.foldl_cons]

theorem foldl_range_congr {f f' : Float32 → Nat → Float32} {count : Nat}
    (h : ∀ sum, ∀ j < count, f sum j = f' sum j) (acc : Float32) :
    (List.range count).foldl f acc = (List.range count).foldl f' acc :=
  List.foldl_ext _ _ _ fun sum j hj => h sum j (List.mem_range.1 hj)

namespace Tracks

theorem outputAt_push (h : Tracks data length past c) (response input : Array Float32)
    (hi : i < length) :
    (c.push input).outputAt response i =
      direct response data.responseLength (past.signal ++ fit length input)
        (past.signal.length + i) := by
  have hdata : (c.push input).data.responseLength = data.responseLength := by
    rw [← h.dataset]
    rfl
  rw [outputAt, hdata, sumOnto_eq_foldl, ← List.range_eq_range', direct]
  refine foldl_range_congr (fun sum j hj => ?_) _
  rw [h.history_push input (by omega)]
  congr 3
  omega

theorem blend_push (h : Tracks data length past c) (input : Array Float32) (hi : i < length) :
    (c.push input).blend c.oldLeft c.left i =
        past.sample data length (fit length input) Prod.fst i ∧
      (c.push input).blend c.oldRight c.right i =
        past.sample data length (fit length input) Prod.snd i := by
  have hcurrent := h.current
  have hprevious := h.previous
  have hfading : (c.push input).fading = past.pending := h.fading
  have hlength : (c.push input).blockLength = length := h.blockLength
  simp only [blend, hfading, hlength, h.outputAt_push _ input hi, Past.sample, fade, ← hcurrent,
    ← hprevious, and_self]

end Tracks

theorem overwrite_congr_fun {out : Array Float32} {count : Nat} {f f' : Nat → Float32}
    (h : ∀ i < count, f i = f' i) : overwrite out count f = overwrite out count f' := by
  refine congrArg (out.mapIdx ·) (funext fun i => funext fun x => ?_)
  split
  · exact h i ‹_›
  · rfl

theorem getElem?_overwrite {out : Array Float32} {count : Nat} (h : count ≤ out.size)
    (f : Nat → Float32) (i : Nat) :
    (overwrite out count f)[i]? = if i < count then some (f i) else out[i]? := by
  rw [overwrite, Array.getElem?_mapIdx]
  by_cases hi : i < count
  · simp only [if_pos hi, Array.getElem?_eq_getElem (Nat.lt_of_lt_of_le hi h), Option.map_some]
  · simp only [if_neg hi, Option.map_id']

/-- Both runs of a block: the samples of the past as far as both have room, and behind them what was
there. -/
theorem Tracks.process_eq (h : Tracks data length past c) (input left right : Array Float32) :
    (c.process input left right).2 =
      (overwrite left (min length (min left.size right.size))
          (past.sample data length (fit length input) Prod.fst),
        overwrite right (min length (min left.size right.size))
          (past.sample data length (fit length input) Prod.snd)) := by
  have hframes : (c.push input).frames left right = min length (min left.size right.size) := by
    rw [← h.blockLength]
    rfl
  rw [Convolver.process, hframes]
  exact congrArg₂ Prod.mk
    (overwrite_congr_fun fun i hi => (h.blend_push input (by omega)).1)
    (overwrite_congr_fun fun i hi => (h.blend_push input (by omega)).2)

/-! ## Streams -/

/-- The output streams of a convolver that is given a list of inputs and facing one way. -/
def feed (c : Convolver) : List (Array Float32) → List Float32 × List Float32
  | [] => ([], [])
  | input :: rest =>
    let silence := Array.replicate c.blockLength 0
    let out := c.process input silence silence
    let more := feed out.1 rest
    (out.2.1.toList ++ more.1, out.2.2.toList ++ more.2)

/-- The output stream of one ear, computed from all of the signal. -/
def Past.stream (past : Past) (data : Dataset) (x : List Float32)
    (ear : Array Float32 × Array Float32 → Array Float32) : List Float32 :=
  (List.range x.length).map fun n =>
    direct (ear past.current) data.responseLength (past.signal ++ x) (past.signal.length + n)

namespace Past

variable {ear : Array Float32 × Array Float32 → Array Float32}

/-- Without a crossfade the samples of a block are those of the stream. -/
theorem map_sample (hpending : past.pending = false) (hlength : block.length = length) :
    (List.range length).map (past.sample data length block ear) = past.stream data block ear := by
  rw [stream, hlength]
  exact List.map_congr_left fun n _ => by rw [sample, if_neg (by rw [hpending]; decide)]

theorem stream_append (past : Past) (data : Dataset) (x y : List Float32) :
    past.stream data (x ++ y) ear = past.stream data x ear ++ (past.hear x).stream data y ear := by
  rw [stream, List.length_append, List.range_add, List.map_append, List.map_map]
  refine congrArg₂ _ (List.map_congr_left fun n hn => ?_) (List.map_congr_left fun n _ => ?_)
  · rw [← List.append_assoc, direct_append]
    rw [List.length_append]
    exact Nat.add_lt_add_left (List.mem_range.1 hn) _
  · simp only [Function.comp_apply, hear, List.append_assoc, List.length_append, Nat.add_assoc]

end Past

theorem toList_overwrite {out : Array Float32} (h : out.size = length) (f : Nat → Float32) :
    (overwrite out length f).toList = (List.range length).map f := by
  refine List.ext_getElem? fun i => ?_
  rw [Array.getElem?_toList, getElem?_overwrite (Nat.le_of_eq h.symm), List.getElem?_map]
  by_cases hi : i < length
  · rw [if_pos hi, List.getElem?_range hi, Option.map_some]
  · rw [if_neg hi, Array.getElem?_eq_none (by omega),
      List.getElem?_eq_none (by simpa using hi), Option.map_none]

/-- **A stream of blocks is the convolution of the whole signal.** -/
theorem Tracks.feed_eq (h : Tracks data length past c) (hpending : past.pending = false)
    (inputs : List (Array Float32)) :
    c.feed inputs = (past.stream data (inputs.flatMap (fit length)) Prod.fst,
      past.stream data (inputs.flatMap (fit length)) Prod.snd) := by
  induction inputs generalizing past c with
  | nil => rfl
  | cons input rest ih =>
    have hnext := h.process input (.replicate length 0) (.replicate length 0)
    rw [feed, h.blockLength, h.process_eq, ih hnext rfl, List.flatMap_cons, Past.stream_append,
      Past.stream_append]
    simp only [Array.size_replicate, Nat.min_self, toList_overwrite Array.size_replicate,
      Past.map_sample hpending (length_fit length input)]

/-- Where the signal goes on, so does the stream. -/
theorem Past.stream_isPrefix (past : Past) (data : Dataset)
    (ear : Array Float32 × Array Float32 → Array Float32) (h : x <+: y) :
    past.stream data x ear <+: past.stream data y ear := by
  obtain ⟨z, rfl⟩ := h
  rw [stream_append]
  exact List.prefix_append _ _

/-- The stream depends on the past through its signal and its current responses. -/
theorem Past.stream_congr {past' : Past} (hsignal : past.signal = past'.signal)
    (hcurrent : past.current = past'.current) (data : Dataset) (x : List Float32)
    (ear : Array Float32 × Array Float32 → Array Float32) :
    past.stream data x ear = past'.stream data x ear := by
  rw [stream, stream, hsignal, hcurrent]

/-- **Block by block is the same as all at once.**  A block of any reached convolver holds the
samples of its past, without a crossfade sums over the whole signal, with one the straight line
between two of them, and leaves what lies behind both runs' room.  Two convolvers that have heard
the same and face the same way say the same of one signal, whatever their block lengths are. -/
theorem process_eq_direct (data : Dataset) :
    (∀ (length : Nat) (past : Past) (c : Convolver), Reached data length past c →
      ∀ input left right : Array Float32,
        let out := c.process input left right
        let frames := min length (min left.size right.size)
        let sample := past.sample data length (fit length input)
        (∀ i, out.2.1[i]? = if i < frames then some (sample Prod.fst i) else left[i]?) ∧
          (∀ i, out.2.2[i]? = if i < frames then some (sample Prod.snd i) else right[i]?) ∧
          out.1.fading = false) ∧
    (∀ (length length' : Nat) (past past' : Past) (c c' : Convolver),
      Reached data length past c → Reached data length' past' c' →
      past.pending = false → past'.pending = false →
      past.signal = past'.signal → past.current = past'.current →
      ∀ inputs inputs' : List (Array Float32),
        inputs.flatMap (fit length) <+: inputs'.flatMap (fit length') →
        (c.feed inputs).1.length = (inputs.flatMap (fit length)).length ∧
          (c.feed inputs).2.length = (inputs.flatMap (fit length)).length ∧
          (c.feed inputs).1 <+: (c'.feed inputs').1 ∧
          (c.feed inputs).2 <+: (c'.feed inputs').2) := by
  refine ⟨fun length past c h input left right => ?_, fun length length' past past' c c' h h'
    hpending hpending' hsignal hcurrent inputs inputs' hprefix => ?_⟩
  · intro out frames sample
    have hout : out.2 = _ := h.tracks.process_eq input left right
    rw [hout]
    exact ⟨getElem?_overwrite (by omega) _, getElem?_overwrite (by omega) _, rfl⟩
  · rw [h.tracks.feed_eq hpending, h'.tracks.feed_eq hpending',
      Past.stream_congr hsignal hcurrent, Past.stream_congr hsignal hcurrent]
    exact ⟨by simp [Past.stream], by simp [Past.stream], past'.stream_isPrefix data _ hprefix,
      past'.stream_isPrefix data _ hprefix⟩

/-- One direction with a response of two samples. -/
def twoSamples : Dataset := ⟨44100, 0, 0, [1], 2, [0x3f800000, 0x40000000]⟩

-- The impulse runs over the end of its block.
example :
    ((Convolver.new twoSamples 2).toOption.map fun c =>
      (c.feed [#[0, 1], #[0]]).1.map Float32.toBits) = some [0, 0x3f800000, 0x40000000, 0] := by
  decide +kernel

theorem process_eq_direct_twoSamples :
    ∃ (past : Past) (c c' : Convolver),
      Reached twoSamples 2 past c ∧ Reached twoSamples 3 past c' ∧
      (c.process #[0, 1] #[5] #[5, 7, 9]).2.2[1]? = some 7 ∧
      (c.feed [#[0, 1], #[0]]).1.length = 4 ∧
      (c.feed [#[0, 1], #[0]]).1 <+: (c'.feed [#[0, 1], #[]]).1 := by
  have hahead : (twoSamples.stereo 0 0 twoSamples.responseLength).isOk = true := by decide +kernel
  have htwo : (Convolver.new twoSamples 2).isOk = true := by decide +kernel
  have hthree : (Convolver.new twoSamples 3).isOk = true := by decide +kernel
  obtain ⟨ahead, hahead⟩ := isOk_iff.1 hahead
  obtain ⟨c, hc⟩ := isOk_iff.1 htwo
  obtain ⟨c', hc'⟩ := isOk_iff.1 hthree
  have h := Reached.new hahead hc
  have h' := Reached.new hahead hc'
  obtain ⟨hblock, hstream⟩ := process_eq_direct twoSamples
  obtain ⟨hlength, -, hleft, -⟩ :=
    hstream 2 3 _ _ c c' h h' rfl rfl rfl rfl [#[0, 1], #[0]] [#[0, 1], #[]] (by decide +kernel)
  exact ⟨_, c, c', h, h', (hblock 2 _ c h #[0, 1] #[5] #[5, 7, 9]).2.1 1, hlength, hleft⟩

end Convolver

end SpatialAudio
