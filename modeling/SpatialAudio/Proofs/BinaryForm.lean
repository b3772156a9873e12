import Mathlib.Algebra.Order.BigOperators.Group.List
import Mathlib.Algebra.Order.Group.Nat
import SpatialAudio.Hrtf.Dataset
import SpatialAudio.Proofs.Outcome

/-!
# Proofs/BinaryForm — reading accepts the binary forms of valid datasets, and nothing else

A dataset is **valid** if its header fields fit 31 bits, its counts are positive and it holds
exactly the samples that its bands call for (`Dataset.Valid`).  Reading goes through a run of bytes
field by field, and every reader is described by the fields it takes off the front
(`Cursor.Reads`): each accepts one form of what it returns, so reading a whole dataset inverts
writing it, in either byte order (`parse_eq_ok`), and swapping the bytes of every field turns one
order into the other (`swapFields_encode`).
-/

namespace SpatialAudio

/-! ## Words -/

namespace ByteOrder

variable (order : ByteOrder)

theorem exists_bytes (w : UInt32) :
    ∃ a b c d, order.bytes w = [a, b, c, d] ∧ order.word a b c d = w := by
  cases order with
  | little => exact ⟨_, _, _, _, rfl, littleWord_bytes w⟩
  | big => exact ⟨_, _, _, _, rfl, littleWord_bytes w⟩

/-- Four bytes are those of the word they form. -/
theorem bytes_word (a b c d : UInt8) : order.bytes (order.word a b c d) = [a, b, c, d] := by
  have hbyte : ∀ {k : Nat} {x : UInt8}, k % 2 ^ 8 = x.toNat → UInt8.ofNat k = x := by
    intro k x hk
    apply UInt8.toNat_inj.mp
    rw [UInt8.toNat_ofNat', hk]
  have hlittle : ∀ a b c d : UInt8, little.bytes (littleWord a b c d) = [a, b, c, d] := by
    intro a b c d
    have ha := a.toNat_lt
    have hb := b.toNat_lt
    have hc := c.toNat_lt
    have hd := d.toNat_lt
    have hword : (littleWord a b c d).toNat
        = a.toNat + 2 ^ 8 * b.toNat + 2 ^ 16 * c.toNat + 2 ^ 24 * d.toNat := by
      rw [littleWord, UInt32.toNat_ofNat']
      omega
    simp only [bytes, hword, List.cons.injEq, and_true]
    refine ⟨hbyte ?_, hbyte ?_, hbyte ?_, hbyte ?_⟩ <;> omega
  cases order with
  | little => exact hlittle a b c d
  | big =>
    have h := hlittle d c b a
    simp only [bytes, List.cons.injEq, and_true] at h
    obtain ⟨hd, hc, hb, ha⟩ := h
    simp only [bytes, word, hd, hc, hb, ha]

theorem wordsOnto_flatMap_bytes (read ws : List UInt32) :
    order.wordsOnto read (ws.flatMap order.bytes) = ws.reverse ++ read := by
  induction ws generalizing read with
  | nil => rfl
  | cons w ws ih =>
    obtain ⟨a, b, c, d, hbytes, hword⟩ := order.exists_bytes w
    rw [List.flatMap_cons, hbytes]
    change order.wordsOnto (order.word a b c d :: read) (ws.flatMap order.bytes) = _
    rw [ih, hword, List.reverse_cons, List.append_assoc]
    rfl

/-- **Words are read back from their bytes.** -/
theorem words_flatMap_bytes (ws : List UInt32) : order.words (ws.flatMap order.bytes) = ws := by
  rw [words, wordsOnto_flatMap_bytes, List.append_nil, List.reverse_reverse]

/-- Whole words of bytes are the bytes of the words they form. -/
theorem exists_flatMap_bytes {bytes : List UInt8} {count : Nat} (h : bytes.length = count * 4) :
    ∃ ws : List UInt32, ws.length = count ∧ bytes = ws.flatMap order.bytes := by
  induction count generalizing bytes with
  | zero => exact ⟨[], rfl, List.eq_nil_of_length_eq_zero (by omega)⟩
  | succ count ih =>
    match bytes, h with
    | a :: b :: c :: d :: rest, h =>
      have hshorter : rest.length = count * 4 := by
        simp only [List.length_cons] at h
        omega
      obtain ⟨ws, hlength, hrest⟩ := ih hshorter
      refine ⟨order.word a b c d :: ws, by rw [List.length_cons, hlength], ?_⟩
      rw [List.flatMap_cons, bytes_word, hrest]
      rfl
    | [], h | [_], h | [_, _], h | [_, _, _], h =>
      simp only [List.length_cons, List.length_nil] at h
      omega

theorem length_flatMap_bytes (ws : List UInt32) :
    (ws.flatMap order.bytes).length = ws.length * 4 := by
  induction ws with
  | nil => rfl
  | cons w ws ih =>
    obtain ⟨a, b, c, d, hbytes, -⟩ := order.exists_bytes w
    rw [List.flatMap_cons, hbytes, List.length_append, ih]
    simp only [List.length_cons, List.length_nil]
    omega

end ByteOrder

/-- Reverses the four bytes of every field. -/
def swapFields : List UInt8 → List UInt8
  | a :: b :: c :: d :: rest => d :: c :: b :: a :: swapFields rest
  | _ => []

/-- **Swapping the bytes of every field changes the byte order.** -/
theorem swapFields_flatMap_bytes (ws : List UInt32) :
    swapFields (ws.flatMap ByteOrder.little.bytes) = ws.flatMap ByteOrder.big.bytes := by
  induction ws with
  | nil => rfl
  | cons w ws ih =>
    rw [List.flatMap_cons, List.flatMap_cons, ← ih]
    rfl

/-- The integers of 32-bit words. -/
def IsWord (v : Int) : Prop := -2 ^ 31 ≤ v ∧ v < 2 ^ 31

theorem isWord_signedWord (w : UInt32) : IsWord (signedWord w) := by
  have := w.toNat_lt
  unfold IsWord signedWord
  split <;> omega

theorem signedWord_integerWord {v : Int} (h : IsWord v) : signedWord (integerWord v) = v := by
  obtain ⟨hlow, hhigh⟩ := h
  unfold signedWord integerWord
  rw [UInt32.toNat_ofNat']
  split <;> omega

theorem integerWord_signedWord (w : UInt32) : integerWord (signedWord w) = w := by
  have := w.toNat_lt
  apply UInt32.toNat_inj.mp
  unfold signedWord integerWord
  rw [UInt32.toNat_ofNat']
  split <;> omega

namespace Dataset

/-! ## Single fields -/

namespace Cursor

/-- The fields that lie between two places. -/
structure Reads (c : Cursor) (ws : List UInt32) (c' : Cursor) : Prop where
  rest : c.rest = ws.flatMap c.order.bytes ++ c'.rest
  offset : c'.offset = c.offset + 4 * ws.length
  order : c'.order = c.order

variable {c c' : Cursor} {ws ws' : List UInt32}

/-- Fields are read one behind the other. -/
theorem reads_append : c.Reads (ws ++ ws') c' ↔ ∃ c₁, c.Reads ws c₁ ∧ c₁.Reads ws' c' := by
  constructor
  · rintro ⟨hrest, hoffset, horder⟩
    refine ⟨⟨ws'.flatMap c.order.bytes ++ c'.rest, c.offset + 4 * ws.length, c.order⟩,
      ⟨?_, rfl, rfl⟩, ⟨rfl, ?_, horder⟩⟩
    · rw [hrest, List.flatMap_append, List.append_assoc]
    · rw [hoffset, List.length_append, Nat.mul_add, Nat.add_assoc]
  · rintro ⟨c₁, ⟨hrest, hoffset, horder⟩, ⟨hrest', hoffset', horder'⟩⟩
    refine ⟨?_, ?_, horder'.trans horder⟩
    · rw [hrest, hrest', horder, List.flatMap_append, List.append_assoc]
    · rw [hoffset', hoffset, List.length_append, Nat.mul_add, Nat.add_assoc]

theorem reads_cons {w : UInt32} : c.Reads (w :: ws) c' ↔ ∃ c₁, c.Reads [w] c₁ ∧ c₁.Reads ws c' :=
  (reads_append : c.Reads ([w] ++ ws) c' ↔ _)

theorem reads_nil : c.Reads [] c' ↔ c' = c := by
  constructor
  · rintro ⟨hrest, hoffset, horder⟩
    cases c
    cases c'
    simp_all
  · rintro rfl
    exact ⟨rfl, rfl, rfl⟩

/-- What is read stays counted. -/
theorem Reads.total (h : c.Reads ws c') :
    c'.offset + c'.rest.length = c.offset + c.rest.length := by
  rw [h.rest, h.offset, List.length_append, c.order.length_flatMap_bytes, Nat.mul_comm ws.length,
    Nat.add_assoc]

/-- **A field is read off the front.** -/
theorem word_eq_ok {w : UInt32} : c.word = .ok (w, c') ↔ c.Reads [w] c' := by
  obtain ⟨rest, offset, order⟩ := c
  constructor
  · intro h
    rw [word] at h
    split at h
    · next a b c d rest heq =>
      cases h
      subst heq
      exact ⟨by simp [order.bytes_word], rfl, rfl⟩
    · cases h
  · rintro ⟨hrest, hoffset, horder⟩
    obtain ⟨a, b, c, d, hbytes, rfl⟩ := order.exists_bytes w
    simp only [List.flatMap_cons, List.flatMap_nil, List.append_nil, hbytes] at hrest
    subst hrest
    cases c'
    simp_all [word]

theorem integer_eq_ok {v : Int} :
    c.integer = .ok (v, c') ↔ IsWord v ∧ c.Reads [integerWord v] c' := by
  simp only [integer, bind_eq_ok, Prod.exists, word_eq_ok, pure_eq_ok, Prod.mk.injEq]
  constructor
  · rintro ⟨w, c₁, hreads, rfl, rfl⟩
    rw [integerWord_signedWord]
    exact ⟨isWord_signedWord w, hreads⟩
  · rintro ⟨hv, hreads⟩
    exact ⟨_, _, hreads, signedWord_integerWord hv, rfl⟩

/-- The counts that a field can hold. -/
def IsCount (n : Nat) : Prop := 1 ≤ n ∧ n ≤ 2 ^ 31 - 1

theorem positive_eq_ok {field : HeaderField} {n : Nat} :
    positive field c = .ok (n, c') ↔ IsCount n ∧ c.Reads [integerWord n] c' := by
  simp only [positive, bind_eq_ok, Prod.exists, integer_eq_ok]
  constructor
  · rintro ⟨v, c₁, ⟨⟨hlow, hhigh⟩, hreads⟩, h⟩
    split at h
    · next hpos =>
      cases h
      rw [Int.toNat_of_nonneg (Int.le_of_lt hpos)]
      exact ⟨⟨by omega, by omega⟩, hreads⟩
    · cases h
  · rintro ⟨⟨hlow, hhigh⟩, hreads⟩
    refine ⟨n, c', ⟨⟨by omega, by omega⟩, hreads⟩, ?_⟩
    rw [if_pos (by omega), Int.toNat_natCast]
    rfl

/-- The counts of a header, each a field. -/
theorem azimuthsOnto_eq_ok {read ns : List Nat} {count : Nat} :
    c.azimuthsOnto read count = .ok (ns, c') ↔
      ∃ counts : List Nat, counts.length = count ∧ (∀ n ∈ counts, IsCount n) ∧
        ns = counts.reverse ++ read ∧ c.Reads (counts.map fun (n : Nat) => integerWord n) c' := by
  induction count generalizing read c with
  | zero =>
    rw [azimuthsOnto]
    constructor
    · rintro h
      cases h
      exact ⟨[], rfl, by simp, rfl, reads_nil.mpr rfl⟩
    · rintro ⟨counts, hlength, -, rfl, hreads⟩
      cases List.eq_nil_of_length_eq_zero hlength
      rw [reads_nil.mp hreads]
      rfl
  | succ count ih =>
    rw [azimuthsOnto]
    constructor
    · intro h
      split at h
      · next n c₁ hn =>
        obtain ⟨hcount, hfirst⟩ := positive_eq_ok.mp hn
        obtain ⟨counts, hlength, hcounts, rfl, hrest⟩ := ih.mp h
        refine ⟨n :: counts, by rw [List.length_cons, hlength],
          List.forall_mem_cons.mpr ⟨hcount, hcounts⟩, ?_, reads_cons.mpr ⟨c₁, hfirst, hrest⟩⟩
        rw [List.reverse_cons, List.append_assoc]
        rfl
      · cases h
    · rintro ⟨_ | ⟨n, counts⟩, hlength, hcounts, rfl, hreads⟩
      · cases hlength
      · obtain ⟨hcount, hcounts⟩ := List.forall_mem_cons.mp hcounts
        obtain ⟨c₁, hfirst, hrest⟩ := reads_cons.mp hreads
        rw [positive_eq_ok.mpr ⟨hcount, hfirst⟩]
        refine ih.mpr ⟨counts, Nat.succ.inj hlength, hcounts, ?_, hrest⟩
        rw [List.reverse_cons, List.append_assoc]
        rfl

theorem bytes_swappedMarker :
    ByteOrder.little.bytes swappedMarker = ByteOrder.big.bytes datasetMarker := by decide

/-- **The marker is read in the order that it tells.** -/
theorem start_eq_ok {bytes : List UInt8} :
    start bytes = .ok c ↔ Reads ⟨bytes, 0, c.order⟩ [datasetMarker] c := by
  simp only [start, bind_eq_ok, Prod.exists, word_eq_ok]
  constructor
  · rintro ⟨marker, c₁, hreads, h⟩
    split at h
    · next hmarker =>
      cases h
      rw [hreads.order, ← hmarker]
      exact hreads
    · split at h
      · next hmarker =>
        cases h
        refine ⟨?_, hreads.offset, rfl⟩
        rw [hreads.rest, hmarker]
        simp only [List.flatMap_cons, List.flatMap_nil, bytes_swappedMarker]
      · cases h
  · intro hreads
    obtain ⟨rest, offset, _ | _⟩ := c
    · exact ⟨_, _, hreads, rfl⟩
    · refine ⟨swappedMarker, ⟨rest, offset, .little⟩, ⟨?_, hreads.offset, rfl⟩, rfl⟩
      rw [hreads.rest]
      simp only [List.flatMap_cons, List.flatMap_nil, bytes_swappedMarker]

end Cursor

open Cursor

/-! ## Headers -/

namespace Header

/-- The fields of a header. -/
def fields (h : Header) : List UInt32 :=
  datasetMarker
    :: integerWord h.sampleRate
    :: integerWord h.responseCount
    :: integerWord h.azimuthCounts.length
    :: integerWord h.minElevation
    :: integerWord h.maxElevation
    :: (h.azimuthCounts.map fun (n : Nat) => integerWord n)
    ++ [integerWord h.responseLength]

/-- The fields of a header are in range and do not contradict each other. -/
structure Valid (h : Header) : Prop where
  sampleRate : IsCount h.sampleRate
  bands : IsCount h.azimuthCounts.length
  azimuths : ∀ n ∈ h.azimuthCounts, IsCount n
  responses : IsCount h.responseCount
  total : h.azimuthCounts.sum = h.responseCount
  minElevation : IsWord h.minElevation
  maxElevation : IsWord h.maxElevation
  elevations : h.minElevation ≤ h.maxElevation
  responseLength : IsCount h.responseLength

/-- Counts in range have a product that is a word. -/
theorem mul_lt_of_isCount {m n : Nat} (hm : IsCount m) (hn : IsCount n) : m * n < 2 ^ 64 := by
  have hle : m * n ≤ (2 ^ 31 - 1) * (2 ^ 31 - 1) := Nat.mul_le_mul hm.2 hn.2
  omega

/-- **A header is read exactly from the fields of a valid one.** -/
theorem read_eq_ok {bytes : List UInt8} {h : Header} {c : Cursor} :
    read bytes = .ok (h, c) ↔ h.Valid ∧ Reads ⟨bytes, 0, c.order⟩ h.fields c := by
  unfold read
  simp only [bind_eq_ok, guard_eq_ok, Prod.exists, start_eq_ok, positive_eq_ok, integer_eq_ok,
    azimuthsOnto_eq_ok, pure_eq_ok]
  constructor
  · rintro ⟨c₀, h₀, rate, c₁, ⟨hrate, h₁⟩, responses, c₂, ⟨hresponses, h₂⟩, _, c₃, ⟨hbands, h₃⟩,
      low, c₄, ⟨hlow, h₄⟩, high, c₅, ⟨hhigh, h₅⟩, horder, _, c₆,
      ⟨counts, rfl, hcounts, rfl, h₆⟩, htotal, length, c₇, ⟨hlength, h₇⟩, -, heq⟩
    cases heq
    simp only [List.append_nil, List.reverse_reverse, ne_eq, Decidable.not_not] at htotal ⊢
    refine ⟨⟨hrate, hbands, hcounts, hresponses, htotal, hlow, hhigh, Int.not_lt.mp horder,
      hlength⟩, ?_⟩
    have hsame : c₀.order = c.order := by
      rw [h₇.order, h₆.order, h₅.order, h₄.order, h₃.order, h₂.order, h₁.order]
    rw [← hsame]
    simp only [fields, List.cons_append]
    exact reads_cons.mpr ⟨_, h₀, reads_cons.mpr ⟨_, h₁, reads_cons.mpr ⟨_, h₂, reads_cons.mpr
      ⟨_, h₃, reads_cons.mpr ⟨_, h₄, reads_cons.mpr ⟨_, h₅, reads_append.mpr ⟨_, h₆, h₇⟩⟩⟩⟩⟩⟩⟩
  · rintro ⟨hv, hreads⟩
    simp only [fields, List.cons_append] at hreads
    obtain ⟨c₀, h₀, hreads⟩ := reads_cons.mp hreads
    obtain ⟨c₁, h₁, hreads⟩ := reads_cons.mp hreads
    obtain ⟨c₂, h₂, hreads⟩ := reads_cons.mp hreads
    obtain ⟨c₃, h₃, hreads⟩ := reads_cons.mp hreads
    obtain ⟨c₄, h₄, hreads⟩ := reads_cons.mp hreads
    obtain ⟨c₅, h₅, hreads⟩ := reads_cons.mp hreads
    obtain ⟨c₆, h₆, h₇⟩ := reads_append.mp hreads
    have htotal : ¬ (h.azimuthCounts.reverse ++ []).reverse.sum ≠ h.responseCount := by
      simp only [List.append_nil, List.reverse_reverse, ne_eq, Decidable.not_not]
      exact hv.total
    have hsize := mul_lt_of_isCount hv.responses hv.responseLength
    refine ⟨c₀, by rw [h₀.order]; exact h₀, _, c₁, ⟨hv.sampleRate, h₁⟩, _, c₂,
      ⟨hv.responses, h₂⟩, _, c₃, ⟨hv.bands, h₃⟩, _, c₄, ⟨hv.minElevation, h₄⟩, _, c₅,
      ⟨hv.maxElevation, h₅⟩, Int.not_lt.mpr hv.elevations, _, c₆,
      ⟨_, rfl, hv.azimuths, rfl, h₆⟩, htotal, _, c, ⟨hv.responseLength, h₇⟩,
      Nat.not_le.mpr hsize, ?_⟩
    simp only [List.append_nil, List.reverse_reverse]

end Header

/-! ## Datasets -/

/-- The fields of a dataset are in range, and it has the samples that its bands call for. -/
structure Valid (d : Dataset) : Prop where
  sampleRate : 1 ≤ d.sampleRate ∧ d.sampleRate ≤ 2 ^ 31 - 1
  responseLength : 1 ≤ d.responseLength ∧ d.responseLength ≤ 2 ^ 31 - 1
  bands : d.azimuthCounts ≠ [] ∧ d.azimuthCounts.length ≤ 2 ^ 31 - 1
  azimuths : ∀ n ∈ d.azimuthCounts, 1 ≤ n
  total : d.azimuthCounts.sum ≤ 2 ^ 31 - 1
  elevations : d.minElevation ≤ d.maxElevation
  minElevation : -2 ^ 31 ≤ d.minElevation
  maxElevation : d.maxElevation < 2 ^ 31
  samples : d.samples.length = d.azimuthCounts.sum * d.responseLength

/-- The header of a dataset. -/
def header (d : Dataset) : Header :=
  ⟨d.sampleRate, d.responseCount, d.minElevation, d.maxElevation, d.azimuthCounts, d.responseLength⟩

theorem fields_eq (d : Dataset) : d.fields = d.header.fields ++ d.samples := by
  simp only [fields, Header.fields, header, List.cons_append, List.append_assoc, List.nil_append]

theorem valid_iff {d : Dataset} :
    d.Valid ↔ d.header.Valid ∧ d.samples.length = d.header.sampleCount := by
  constructor
  · rintro ⟨hrate, hlength, ⟨hne, hbands⟩, hazimuths, htotal, helevations, hmin, hmax, hsamples⟩
    obtain ⟨n, hn⟩ := List.exists_mem_of_ne_nil _ hne
    have hpos : 1 ≤ d.azimuthCounts.sum := Nat.le_trans (hazimuths n hn) (List.le_sum_of_mem hn)
    refine ⟨⟨hrate, ⟨List.length_pos_iff.mpr hne, hbands⟩, fun n hn => ?_, ⟨hpos, htotal⟩, rfl,
      ⟨hmin, Int.lt_of_le_of_lt helevations hmax⟩, ⟨Int.le_trans hmin helevations, hmax⟩,
      helevations, hlength⟩, hsamples⟩
    exact ⟨hazimuths n hn, Nat.le_trans (List.le_sum_of_mem hn) htotal⟩
  · rintro ⟨hv, hsamples⟩
    exact ⟨hv.sampleRate, hv.responseLength, ⟨List.length_pos_iff.mp hv.bands.1, hv.bands.2⟩,
      fun n hn => (hv.azimuths n hn).1, hv.responses.2, hv.elevations, hv.minElevation.1,
      hv.maxElevation.2, hsamples⟩

/-- **A dataset is read exactly from its binary forms, if it is valid.** -/
theorem parse_eq_ok {bytes : List UInt8} {d : Dataset} :
    parse bytes = .ok d ↔ d.Valid ∧ ∃ order, bytes = d.encode order := by
  rw [valid_iff]
  unfold parse
  simp only [bind_eq_ok, guard_eq_ok, Prod.exists, Header.read_eq_ok, pure_eq_ok]
  constructor
  · rintro ⟨h, c, ⟨hv, hreads⟩, hshort, hlong, rfl⟩
    have hsize : c.rest.length = h.sampleCount * 4 := by omega
    obtain ⟨ws, hlength, hrest⟩ := c.order.exists_flatMap_bytes hsize
    have hwords : c.order.words c.rest = ws := by rw [hrest, c.order.words_flatMap_bytes]
    have hheader : ∀ samples : List UInt32, header ⟨h.sampleRate, h.minElevation, h.maxElevation,
        h.azimuthCounts, h.responseLength, samples⟩ = h := by
      intro samples
      simp only [header, responseCount, hv.total]
    rw [hheader, hwords]
    refine ⟨⟨hv, hlength⟩, c.order, ?_⟩
    rw [encode, fields_eq, hheader, List.flatMap_append, ← hrest]
    exact hreads.rest
  · rintro ⟨⟨hv, hsamples⟩, order, rfl⟩
    rw [encode, fields_eq]
    have hlength : (d.samples.flatMap order.bytes).length = d.header.sampleCount * 4 := by
      rw [order.length_flatMap_bytes, hsamples]
    refine ⟨d.header, ⟨d.samples.flatMap order.bytes, 4 * d.header.fields.length, order⟩,
      ⟨hv, List.flatMap_append .., (Nat.zero_add _).symm, rfl⟩, ?_⟩
    simp only [hlength, Nat.lt_irrefl, not_false_eq_true, true_and, order.words_flatMap_bytes]
    rfl

section Size

variable {bytes : List UInt8} {h : Header} {c : Cursor}

/-- No byte is lost in reading a header. -/
theorem Header.total_of_read (hread : read bytes = .ok (h, c)) :
    c.offset + c.rest.length = bytes.length :=
  (read_eq_ok.mp hread).2.total.trans (Nat.zero_add _)

/-- The header calls for more bytes than there are. -/
theorem parse_of_short (hread : Header.read bytes = .ok (h, c))
    (hshort : bytes.length < c.offset + h.sampleCount * 4) :
    parse bytes = .error (.truncated (c.offset + h.sampleCount * 4) bytes.length) := by
  rw [← Header.total_of_read hread] at hshort ⊢
  rw [parse, hread]
  change (if _ < c.offset + h.sampleCount * 4 then _ else _) = _
  rw [if_pos hshort]
  rfl

/-- The header calls for fewer bytes than there are. -/
theorem parse_of_long (hread : Header.read bytes = .ok (h, c))
    (hlong : c.offset + h.sampleCount * 4 < bytes.length) :
    parse bytes
      = .error (.malformed (.trailing (bytes.length - (c.offset + h.sampleCount * 4)))) := by
  rw [← Header.total_of_read hread] at hlong ⊢
  rw [parse, hread]
  change (if _ < c.offset + h.sampleCount * 4 then _ else _) = _
  rw [if_neg (Nat.lt_asymm hlong), if_pos hlong]
  rfl

/-- The header of a dataset calls for the bytes that there are. -/
theorem exists_read_of_parse {d : Dataset} (hparse : parse bytes = .ok d) :
    ∃ h c, Header.read bytes = .ok (h, c) ∧ bytes.length = c.offset + h.sampleCount * 4 := by
  unfold parse at hparse
  simp only [bind_eq_ok, guard_eq_ok, Prod.exists] at hparse
  obtain ⟨h, c, hread, hshort, hlong, -⟩ := hparse
  refine ⟨h, c, hread, ?_⟩
  rw [Header.total_of_read hread] at hshort hlong
  omega

end Size

theorem swapFields_encode (d : Dataset) : swapFields (d.encode .little) = d.encode .big :=
  swapFields_flatMap_bytes d.fields

/-- The responses of a valid dataset can be counted. -/
theorem Valid.write {d : Dataset} (h : d.Valid) : d.write = .ok (d.encode .little) := by
  have hword : d.responseCount < wordLimit :=
    Nat.lt_of_le_of_lt h.total (by decide)
  rw [Dataset.write, Memory.word, if_pos hword]
  rfl

/-- **Reading succeeds on exactly the two encodings of valid datasets**: what is written is read
back, also with the bytes of every field swapped, and nothing else is read. -/
theorem parse_eq_ok_iff_written :
    (∀ d : Dataset, d.Valid →
      ∃ bytes, d.write = .ok bytes ∧ parse bytes = .ok d ∧ parse (swapFields bytes) = .ok d) ∧
    ∀ bytes d, parse bytes = .ok d →
      d.Valid ∧ ∃ written, d.write = .ok written ∧
        (bytes = written ∨ bytes = swapFields written) := by
  refine ⟨fun d hv => ⟨_, hv.write, parse_eq_ok.mpr ⟨hv, .little, rfl⟩, ?_⟩,
    fun bytes d hparse => ?_⟩
  · rw [swapFields_encode]
    exact parse_eq_ok.mpr ⟨hv, .big, rfl⟩
  · obtain ⟨hv, order, rfl⟩ := parse_eq_ok.mp hparse
    refine ⟨hv, _, hv.write, ?_⟩
    cases order with
    | little => exact .inl rfl
    | big => exact .inr (swapFields_encode d).symm

/-- Three responses of two samples each, in two bands; one sample is no number. -/
def twoBands : Dataset :=
  ⟨8000, -10, 10, [2, 1], 2,
    [0x3f800000, 0x3f000000, 0x7fc00001, 0x80000000, 0xbf800000, 0x40000000]⟩

theorem parse_twoBands : twoBands.Valid ∧ ∃ bytes, twoBands.write = .ok bytes ∧
    bytes.length = 60 ∧ parse bytes = .ok twoBands ∧ parse (swapFields bytes) = .ok twoBands := by
  have hv : twoBands.Valid := by constructor <;> decide
  obtain ⟨bytes, hwrite, hparse⟩ := parse_eq_ok_iff_written.1 twoBands hv
  refine ⟨hv, bytes, hwrite, ?_, hparse⟩
  cases hv.write.symm.trans hwrite
  decide

end Dataset

end SpatialAudio
