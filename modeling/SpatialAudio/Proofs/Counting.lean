import SpatialAudio.Proofs.BinaryForm

/-!
# Proofs/Counting — reading a dataset in 64-bit counts

Reading a dataset counts: where the next field ends, how many responses the bands hold together, how
many bytes their samples take up.  `Counted.parse` reads as `parse` does, reads the samples one by
one, and is aborted where a count is no 64-bit word or a table has no room.  For bytes that fit in
memory this never happens (`Counted.agrees_parse`).  Fields of a header are below `2 ^ 31`, so the
bytes of all samples may be as many as `2 ^ 64 - 2 ^ 34 + 4`; what makes room for the header in
front of them is that it has a field for each band and no more than seven others.
-/

namespace SpatialAudio.Dataset

/-- Reading that may be refused, and is aborted where arithmetic has no answer. -/
abbrev Counted (α : Type) : Type := ExceptT DatasetError (Except Abort) α

namespace Counted

/-! ## Reading and counting -/

/-- A count, which must be a word. -/
def count (n : Nat) : Counted Nat := ExceptT.lift (Memory.word n)

/-- How many more `m` are than `n`, which must not be more. -/
def difference (m n : Nat) : Counted Nat :=
  if n ≤ m then count (m - n) else ExceptT.lift (.error .countOverflow)

/-- Room for `n` things of `size` bytes each. -/
def reserve (n size : Nat) : Counted Unit := ExceptT.lift (Memory.reserve n size)

/-- The sum of counts, added up one by one. -/
def sum (ns : List Nat) : Counted Nat := ns.foldlM (fun total n => count (total + n)) 0

/-- The next field.  Its end is counted before it is known whether it is there. -/
def word (c : Cursor) : Counted (UInt32 × Cursor) := do
  let stop ← count (c.offset + 4)
  match c.rest with
  | a₀ :: a₁ :: a₂ :: a₃ :: rest =>
    return (c.order.word a₀ a₁ a₂ a₃, { c with rest, offset := stop })
  | rest => throw (.truncated stop (c.offset + rest.length))

/-- The next field as a signed integer. -/
def integer (c : Cursor) : Counted (Int × Cursor) := do
  let (w, c) ← word c
  return (signedWord w, c)

/-- The next field, which must be a positive integer. -/
def positive (field : HeaderField) (c : Cursor) : Counted (Nat × Cursor) := do
  let (v, c) ← integer c
  if 0 < v then return (v.toNat, c) else throw (.malformed (.notPositive field v))

/-- Reads azimuth counts, the last of them first in the result. -/
def azimuthsOnto (read : List Nat) : (bands : Nat) → Cursor → Counted (List Nat × Cursor)
  | 0, c => return (read, c)
  | bands + 1, c => do
    let (n, c) ← positive .azimuthCount c
    azimuthsOnto (n :: read) bands c

/-- Reads samples, the last of them first in the result. -/
def samplesOnto (read : List UInt32) : (samples : Nat) → Cursor → Counted (List UInt32)
  | 0, _ => return read
  | samples + 1, c => do
    let (w, c) ← word c
    samplesOnto (w :: read) samples c

/-- The first field, which tells the byte order of all others. -/
def start (bytes : List UInt8) : Counted Cursor := do
  let (marker, c) ← word ⟨bytes, 0, .little⟩
  if marker = datasetMarker then return c
  else if marker = swappedMarker then return { c with order := .big }
  else throw (.badMarker marker)

/-- Reads a header and checks that it does not contradict itself. -/
def header (bytes : List UInt8) : Counted (Header × Cursor) := do
  let c ← start bytes
  let (sampleRate, c) ← positive .sampleRate c
  let (responseCount, c) ← positive .responseCount c
  let (elevationCount, c) ← positive .elevationCount c
  let (minElevation, c) ← integer c
  let (maxElevation, c) ← integer c
  if maxElevation < minElevation then
    throw (.malformed (.elevationOrder minElevation maxElevation))
  reserve elevationCount 8
  let (reversed, c) ← azimuthsOnto [] elevationCount c
  let azimuthCounts := reversed.reverse
  let total ← sum azimuthCounts
  if total ≠ responseCount then
    throw (.malformed (.responseCount total responseCount))
  let (responseLength, c) ← positive .responseLength c
  if wordLimit ≤ responseCount * responseLength then throw (.malformed .tableTooLarge)
  return (⟨sampleRate, responseCount, minElevation, maxElevation, azimuthCounts, responseLength⟩, c)

/-- Reads a dataset; the samples must take up exactly the bytes behind the header. -/
def parse (bytes : List UInt8) : Counted Dataset := do
  let (h, c) ← header bytes
  let size ← count (h.sampleCount * 4)
  let needed ← count (c.offset + size)
  let available ← count bytes.length
  if available < needed then throw (.truncated needed available)
  if needed < available then
    let left ← difference available needed
    throw (.malformed (.trailing left))
  reserve h.sampleCount Memory.sampleSize
  let reversed ← samplesOnto [] h.sampleCount c
  return {
    sampleRate := h.sampleRate
    minElevation := h.minElevation
    maxElevation := h.maxElevation
    azimuthCounts := h.azimuthCounts
    responseLength := h.responseLength
    samples := reversed.reverse }

/-! ## Agreement -/

/-- The reading `x` is not aborted and ends as `y`. -/
def Agrees {α : Type} (x : Counted α) (y : Except DatasetError α) : Prop := x.run = .ok y

section Agrees

variable {α β : Type} {x : Counted α} {y : Except DatasetError α}

theorem agrees_pure (a : α) : Agrees (pure a) (.ok a) := rfl

theorem Agrees.bind {f : α → Counted β} {g : α → Except DatasetError β} (hx : Agrees x y)
    (hf : ∀ a, y = .ok a → Agrees (f a) (g a)) : Agrees (x >>= f) (y >>= g) := by
  change x.run >>= ExceptT.bindCont f = _
  rw [show x.run = .ok y from hx]
  cases y with
  | ok a => exact hf a rfl
  | error e => rfl

/-- A step that only counts. -/
theorem Agrees.after {a : α} {f : α → Counted β} {z : Except DatasetError β}
    (hx : Agrees x (.ok a)) (hf : Agrees (f a) z) : Agrees (x >>= f) z :=
  hx.bind (g := fun _ => z) fun b hb => by
    cases hb
    exact hf

theorem Agrees.guard {p : Prop} [Decidable p] {e : DatasetError} {f : PUnit → Counted α}
    {g : PUnit → Except DatasetError α} (h : ¬ p → Agrees x y) :
    Agrees (if p then throw e >>= f else x) (if p then throw e >>= g else y) := by
  split
  · rfl
  · next hp => exact h hp

end Agrees

theorem agrees_count {n : Nat} (h : n < wordLimit) : Agrees (count n) (.ok n) := by
  change (Memory.word n).map Except.ok = _
  rw [Memory.word, if_pos h]
  rfl

theorem agrees_difference {m n : Nat} (h : n ≤ m) (hm : m < wordLimit) :
    Agrees (difference m n) (.ok (m - n)) := by
  rw [difference, if_pos h]
  exact agrees_count (Nat.lt_of_le_of_lt (Nat.sub_le ..) hm)

theorem agrees_reserve {n size : Nat} (h : n * size < Memory.limit) :
    Agrees (reserve n size) (.ok ()) := by
  change (Memory.reserve n size).map Except.ok = _
  rw [Memory.reserve, Memory.fits, if_pos (decide_eq_true h)]
  rfl

/-- Every sum on the way is at most the sum of all. -/
theorem agrees_sum {ns : List Nat} (h : ns.sum < wordLimit) : Agrees (sum ns) (.ok ns.sum) := by
  have honto : ∀ total, total + ns.sum < wordLimit →
      Agrees (ns.foldlM (fun total n => count (total + n)) total) (.ok (total + ns.sum)) := by
    clear h
    induction ns with
    | nil => exact fun total _ => agrees_pure total
    | cons n ns ih =>
      intro total h
      rw [List.sum_cons] at h ⊢
      rw [List.foldlM_cons, ← Nat.add_assoc]
      exact (agrees_count (by omega)).after (ih _ (by omega))
  exact Nat.zero_add ns.sum ▸ honto 0 (by rwa [Nat.zero_add])

/-! ## Fields -/

/-- The bytes read and the bytes left fit in memory together. -/
def Fits (c : Cursor) : Prop := c.offset + c.rest.length < Memory.limit

theorem Fits.reads {c c' : Cursor} {ws : List UInt32} (hc : Fits c) (h : c.Reads ws c') :
    Fits c' := by
  rw [Fits, h.total]
  exact hc

open Cursor

variable {c : Cursor}

theorem agrees_word (hc : Fits c) : Agrees (word c) c.word := by
  have hstop : c.offset + 4 < wordLimit := by
    rw [Fits, Memory.limit] at hc
    rw [wordLimit]
    omega
  obtain ⟨rest, offset, order⟩ := c
  refine (agrees_count hstop).after ?_
  match rest with
  | _ :: _ :: _ :: _ :: _ | [] | [_] | [_, _] | [_, _, _] => rfl

theorem agrees_integer (hc : Fits c) : Agrees (integer c) c.integer :=
  (agrees_word hc).bind fun _ _ => agrees_pure _

theorem agrees_positive (field : HeaderField) (hc : Fits c) :
    Agrees (positive field c) (c.positive field) := by
  refine (agrees_integer hc).bind fun v _ => ?_
  dsimp only
  split <;> rfl

theorem agrees_azimuthsOnto (hc : Fits c) (read : List Nat) (bands : Nat) :
    Agrees (azimuthsOnto read bands c) (c.azimuthsOnto read bands) := by
  induction bands generalizing c read with
  | zero => exact agrees_pure _
  | succ bands ih =>
    have hpositive := agrees_positive .azimuthCount hc
    rw [azimuthsOnto, Cursor.azimuthsOnto]
    cases hn : c.positive .azimuthCount with
    | ok p =>
      rw [hn] at hpositive
      exact hpositive.after (ih (hc.reads (positive_eq_ok.mp hn).2) _)
    | error e =>
      rw [hn] at hpositive
      exact hpositive.bind (g := fun _ => .error e) fun _ h => by cases h

/-- **No sample is missed** where the bytes of all of them are left. -/
theorem agrees_samplesOnto (hc : Fits c) (read : List UInt32) {samples : Nat}
    (hrest : c.rest.length = samples * 4) :
    Agrees (samplesOnto read samples c) (.ok (c.order.wordsOnto read c.rest)) := by
  induction samples generalizing c read with
  | zero =>
    rw [List.eq_nil_of_length_eq_zero (by omega : c.rest.length = 0)]
    exact agrees_pure read
  | succ samples ih =>
    have hword := agrees_word hc
    obtain ⟨rest, offset, order⟩ := c
    match rest, hrest with
    | a₀ :: a₁ :: a₂ :: a₃ :: rest, hrest =>
      have hnext : Fits ⟨rest, offset + 4, order⟩ := hc.reads (word_eq_ok.mp rfl)
      simp only [List.length_cons] at hrest
      have hrest : rest.length = samples * 4 := by omega
      exact hword.after (ih hnext _ hrest)
    | [], h | [_], h | [_, _], h | [_, _, _], h =>
      simp only [List.length_cons, List.length_nil] at h
      omega

theorem agrees_start {bytes : List UInt8} (h : bytes.length < Memory.limit) :
    Agrees (start bytes) (Cursor.start bytes) := by
  refine (agrees_word (by rwa [Fits, Nat.zero_add])).bind fun p _ => ?_
  dsimp only
  split
  · rfl
  · split <;> rfl

/-! ## Headers -/

/-- As many counts as a count says have a sum that is a word. -/
theorem sum_lt_of_isCount {ns : List Nat} (hlength : IsCount ns.length)
    (hcounts : ∀ n ∈ ns, IsCount n) : ns.sum < wordLimit := by
  have hle : ns.sum ≤ ns.length * (2 ^ 31 - 1) :=
    List.sum_le_card_nsmul ns _ fun n hn => (hcounts n hn).2
  have hmul : ns.length * (2 ^ 31 - 1) ≤ (2 ^ 31 - 1) * (2 ^ 31 - 1) :=
    Nat.mul_le_mul_right _ hlength.2
  rw [wordLimit]
  omega

theorem agrees_header {bytes : List UInt8} (h : bytes.length < Memory.limit) :
    Agrees (header bytes) (Header.read bytes) := by
  unfold header Header.read
  refine (agrees_start h).bind fun c₀ h₀ => ?_
  have f₀ : Fits c₀ := Fits.reads (by rwa [Fits, Nat.zero_add]) (start_eq_ok.mp h₀)
  refine (agrees_positive .sampleRate f₀).bind fun ⟨rate, c₁⟩ h₁ => ?_
  have f₁ : Fits c₁ := f₀.reads (positive_eq_ok.mp h₁).2
  refine (agrees_positive .responseCount f₁).bind fun ⟨responses, c₂⟩ h₂ => ?_
  have f₂ : Fits c₂ := f₁.reads (positive_eq_ok.mp h₂).2
  refine (agrees_positive .elevationCount f₂).bind fun ⟨bands, c₃⟩ h₃ => ?_
  have f₃ : Fits c₃ := f₂.reads (positive_eq_ok.mp h₃).2
  refine (agrees_integer f₃).bind fun ⟨low, c₄⟩ h₄ => ?_
  have f₄ : Fits c₄ := f₃.reads (integer_eq_ok.mp h₄).2
  refine (agrees_integer f₄).bind fun ⟨high, c₅⟩ h₅ => ?_
  have f₅ : Fits c₅ := f₄.reads (integer_eq_ok.mp h₅).2
  refine .guard fun _ => ?_
  have hbands : IsCount bands := (positive_eq_ok.mp h₃).1
  have hroom : bands * 8 < Memory.limit := by
    rw [Memory.limit]
    exact Nat.lt_of_le_of_lt (Nat.mul_le_mul_right 8 hbands.2) (by decide)
  refine (agrees_reserve hroom).after ?_
  refine (agrees_azimuthsOnto f₅ [] bands).bind fun ⟨reversed, c₆⟩ h₆ => ?_
  obtain ⟨counts, hlength, hcounts, rfl, hreads⟩ := azimuthsOnto_eq_ok.mp h₆
  have f₆ : Fits c₆ := f₅.reads hreads
  rw [List.append_nil]
  dsimp only
  rw [List.reverse_reverse]
  refine (agrees_sum (sum_lt_of_isCount (hlength ▸ hbands) hcounts)).after ?_
  refine .guard fun _ => ?_
  refine (agrees_positive .responseLength f₆).bind fun ⟨length, c₇⟩ h₇ => ?_
  exact .guard fun _ => agrees_pure _

/-! ## Datasets -/

/-- **The end of the samples is a word**, close as the bytes of all samples may come to `2 ^ 64`. -/
theorem needed_lt {bytes : List UInt8} {h : Header} {c : Cursor}
    (hread : Header.read bytes = .ok (h, c)) : c.offset + h.sampleCount * 4 < wordLimit := by
  obtain ⟨hv, -, hoffset, -⟩ := Header.read_eq_ok.mp hread
  have hsize : h.sampleCount ≤ (2 ^ 31 - 1) * (2 ^ 31 - 1) :=
    Nat.mul_le_mul hv.responses.2 hv.responseLength.2
  have hfields : h.fields.length = h.azimuthCounts.length + 7 := by
    simp only [Header.fields, List.length_append, List.length_cons, List.length_map,
      List.length_nil]
  have hbands : h.azimuthCounts.length ≤ 2 ^ 31 - 1 := hv.bands.2
  rw [hoffset, hfields, wordLimit]
  dsimp only
  omega

theorem agrees_parse {bytes : List UInt8} (h : bytes.length < Memory.limit) :
    Agrees (parse bytes) (Dataset.parse bytes) := by
  unfold parse Dataset.parse
  refine (agrees_header h).bind fun ⟨hd, c⟩ hread => ?_
  have hneeded := needed_lt hread
  have htotal := Header.total_of_read hread
  have hbytes : bytes.length < wordLimit := by
    rw [Memory.limit] at h
    rw [wordLimit]
    omega
  refine (agrees_count (by omega : hd.sampleCount * 4 < wordLimit)).after ?_
  refine (agrees_count hneeded).after ?_
  refine (agrees_count hbytes).after ?_
  dsimp only
  rw [htotal]
  refine .guard fun hshort => ?_
  split
  · next hlong =>
    exact (agrees_difference (Nat.le_of_lt hlong) hbytes).after rfl
  · next hlong =>
    have hrest : c.rest.length = hd.sampleCount * 4 := by omega
    have hroom : hd.sampleCount * Memory.sampleSize < Memory.limit := by
      rw [Memory.sampleSize]
      omega
    have hfits : Fits c := by rwa [Fits, htotal]
    refine (agrees_reserve hroom).after ((agrees_samplesOnto hfits [] hrest).after ?_)
    exact agrees_pure _

end Counted

/-! ## The table is never too large -/

section TableTooLarge

open Cursor

variable (c : Cursor)

theorem Cursor.word_avoids : Avoids (.malformed .tableTooLarge) c.word := by
  rw [word]
  split
  · exact avoids_ok _
  · exact avoids_error fun h => by cases h

theorem Cursor.integer_avoids : Avoids (.malformed .tableTooLarge) c.integer :=
  c.word_avoids.bind fun _ => avoids_ok _

theorem Cursor.positive_avoids (field : HeaderField) :
    Avoids (.malformed .tableTooLarge) (c.positive field) := by
  refine c.integer_avoids.bind fun v => ?_
  dsimp only
  split
  · exact avoids_ok _
  · exact avoids_error nofun

theorem Cursor.azimuthsOnto_avoids (read : List Nat) (count : Nat) :
    Avoids (.malformed .tableTooLarge) (c.azimuthsOnto read count) := by
  induction count generalizing c read with
  | zero => exact avoids_ok _
  | succ count ih =>
    have hpositive := c.positive_avoids .azimuthCount
    rw [azimuthsOnto]
    split
    · exact ih _ _
    · next e he => exact avoids_error fun h => hpositive (h ▸ he)

theorem Cursor.start_avoids (bytes : List UInt8) :
    Avoids (.malformed .tableTooLarge) (start bytes) := by
  refine (word_avoids _).bind fun p => ?_
  dsimp only
  split
  · exact avoids_ok _
  · split
    · exact avoids_ok _
    · exact avoids_error nofun

theorem Header.read_avoids (bytes : List UInt8) :
    Avoids (.malformed .tableTooLarge) (read bytes) := by
  unfold read
  refine (start_avoids bytes).bind fun c₀ => ?_
  refine (c₀.positive_avoids _).bind fun ⟨rate, c₁⟩ => ?_
  refine (c₁.positive_avoids _).bind_of fun ⟨responses, c₂⟩ hresponses => ?_
  refine (c₂.positive_avoids _).bind fun ⟨bands, c₃⟩ => ?_
  refine c₃.integer_avoids.bind fun ⟨low, c₄⟩ => ?_
  refine c₄.integer_avoids.bind fun ⟨high, c₅⟩ => ?_
  refine .guard nofun fun _ => ?_
  refine (c₅.azimuthsOnto_avoids _ _).bind fun ⟨reversed, c₆⟩ => ?_
  refine .guard nofun fun _ => ?_
  refine (c₆.positive_avoids _).bind_of fun ⟨length, c₇⟩ hlength => ?_
  dsimp only
  rw [if_neg (Nat.not_le.mpr
    (mul_lt_of_isCount (positive_eq_ok.mp hresponses).1 (positive_eq_ok.mp hlength).1))]
  exact avoids_ok _

theorem parse_avoids (bytes : List UInt8) : Avoids (.malformed .tableTooLarge) (parse bytes) := by
  refine (Header.read_avoids bytes).bind fun ⟨h, c⟩ => ?_
  exact .guard nofun fun _ => .guard nofun fun _ => avoids_ok _

end TableTooLarge

/-- **Reading never counts too far.**  For bytes that fit in memory no count on the way exceeds 64
bits, no table lacks room and no sample is missed, so that reading is not aborted and finds what it
finds with unbounded counts; a table is never too large to be counted. -/
theorem parse_counts {bytes : List UInt8} (h : bytes.length < 2 ^ 63) :
    (Counted.parse bytes).run = .ok (parse bytes) ∧
    parse bytes ≠ .error (.malformed .tableTooLarge) ∧
    ∀ hd c, Header.read bytes = .ok (hd, c) → bytes.length = c.offset + hd.sampleCount * 4 →
      (Counted.samplesOnto [] hd.sampleCount c).run = .ok (.ok (c.order.words c.rest).reverse) := by
  refine ⟨Counted.agrees_parse h, parse_avoids bytes, fun hd c hread hsize => ?_⟩
  have htotal := Header.total_of_read hread
  have hfits : Counted.Fits c := by rwa [Counted.Fits, htotal]
  have hrest : c.rest.length = hd.sampleCount * 4 := by omega
  rw [ByteOrder.words, List.reverse_reverse]
  exact Counted.agrees_samplesOnto hfits [] hrest

/-- A header that calls for as many samples as a header can, with none of them. -/
def greatestHeader : Header := ⟨8000, 2 ^ 31 - 1, -10, 10, [2 ^ 31 - 1], 2 ^ 31 - 1⟩

theorem parse_counts_greatestHeader :
    (greatestHeader.fields.flatMap ByteOrder.little.bytes).length < 2 ^ 63 ∧
    (Counted.parse (greatestHeader.fields.flatMap ByteOrder.little.bytes)).run
      = .ok (.error (.truncated (2 ^ 64 - 2 ^ 34 + 36) 32)) := by
  have hlength : (greatestHeader.fields.flatMap ByteOrder.little.bytes).length < 2 ^ 63 := by decide
  have hparse : parse (greatestHeader.fields.flatMap ByteOrder.little.bytes)
      = .error (.truncated (2 ^ 64 - 2 ^ 34 + 36) 32) := by rfl
  exact ⟨hlength, hparse ▸ (parse_counts hlength).1⟩

end SpatialAudio.Dataset
