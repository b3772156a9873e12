import SpatialAudio.Proofs.BinaryForm

/-!
# Proofs/Truncation — a dataset that was cut or extended is recognised as such

A reader that succeeds on a run of bytes does the same on a part of it or tells that the part is too
short, and how much it would need (`Cursor.Steady`): what it checks in between it has read, so no
check fails that did not fail before.  This passes from single fields to the header
(`Header.shortened_read`) and, with the size that the header calls for, to whole datasets, of which
none continues another (`parse_cut_or_extended`).
-/

namespace SpatialAudio.Dataset

namespace Cursor

variable {α β : Type}

/-! ## Readers on a part of the bytes -/

/-- The place with nothing but `part` left to read. -/
def cut (c : Cursor) (part : List UInt8) : Cursor := { c with rest := part }

@[simp] theorem offset_cut (c : Cursor) (part : List UInt8) : (c.cut part).offset = c.offset := rfl

/-- How a reader that found `a` and came to `c'` ends when `extra` is cut off the bytes, so that
`available` are there: it finds the same, or tells that they are too few. -/
inductive Shortened (extra : List UInt8) (available : Nat) (a : α) (c' : Cursor) :
    Except DatasetError (α × Cursor) → Prop
  | same {part : List UInt8} (hrest : c'.rest = part ++ extra)
      (htotal : c'.offset + part.length = available) :
      Shortened extra available a c' (.ok (a, c'.cut part))
  | short {needed : Nat} (hmore : available < needed) (hwithin : needed ≤ c'.offset) :
      Shortened extra available a c' (.error (.truncated needed available))

/-- A reader that goes forward, and on a part of the bytes finds the same or too few. -/
structure Steady (r : Cursor → Except DatasetError (α × Cursor)) : Prop where
  forward {c c' : Cursor} {a : α} (h : r c = .ok (a, c')) : c.offset ≤ c'.offset
  shortened {c c' : Cursor} {a : α} {part extra : List UInt8} (h : r c = .ok (a, c'))
    (hrest : c.rest = part ++ extra) :
    Shortened extra (c.offset + part.length) a c' (r (c.cut part))

variable {r : Cursor → Except DatasetError (α × Cursor)}

theorem Shortened.bind {f : α × Cursor → Except DatasetError (β × Cursor)}
    {x : Except DatasetError (α × Cursor)} {extra : List UInt8} {available : Nat} {a : α} {b : β}
    {c c' : Cursor} (hx : Shortened extra available a c x) (hf : Steady fun c => f (a, c))
    (h : f (a, c) = .ok (b, c')) : Shortened extra available b c' (x >>= f) := by
  cases hx with
  | same hrest htotal => exact htotal ▸ hf.shortened h hrest
  | short hmore hwithin => exact .short hmore (Nat.le_trans hwithin (hf.forward h))

theorem Steady.bind {f : α × Cursor → Except DatasetError (β × Cursor)} (hr : Steady r)
    (hf : ∀ a, Steady fun c => f (a, c)) : Steady fun c => r c >>= f where
  forward h := by
    obtain ⟨⟨a, c₁⟩, hfirst, hthen⟩ := bind_eq_ok.mp h
    exact Nat.le_trans (hr.forward hfirst) ((hf a).forward hthen)
  shortened h hrest := by
    obtain ⟨⟨a, c₁⟩, hfirst, hthen⟩ := bind_eq_ok.mp h
    exact (hr.shortened hfirst hrest).bind (hf a) hthen

theorem steady_pure (a : α) : Steady fun c => pure (a, c) where
  forward h := by
    cases h
    exact Nat.le_refl _
  shortened h hrest := by
    cases h
    exact .same hrest rfl

/-- A reader that always fails. -/
theorem steady_throw (e : DatasetError) :
    Steady fun _ => (throw e : Except DatasetError (α × Cursor)) where
  forward h := absurd h throw_ne_ok
  shortened h := absurd h throw_ne_ok

/-- A check of what was read before. -/
theorem Steady.guard {p : Prop} [Decidable p] {e : DatasetError}
    {f : Cursor → PUnit → Except DatasetError (α × Cursor)} (hr : Steady r) :
    Steady fun c => if p then throw e >>= f c else r c := by
  split
  · exact steady_throw e
  · exact hr

/-! ## Fields -/

theorem word_of_short {c : Cursor} (h : c.rest.length < 4) :
    c.word = .error (.truncated (c.offset + 4) (c.offset + c.rest.length)) := by
  obtain ⟨rest, offset, order⟩ := c
  match rest, h with
  | [], _ | [_], _ | [_, _], _ | [_, _, _], _ => rfl

theorem steady_word : Steady word where
  forward h := by
    rw [(word_eq_ok.mp h).offset]
    exact Nat.le_add_right ..
  shortened {c c' w part extra} h hrest := by
    by_cases hshort : part.length < 4
    case pos =>
      have hoffset := (word_eq_ok.mp h).offset
      rw [word_of_short hshort]
      exact .short (Nat.add_lt_add_left hshort _) (Nat.le_of_eq hoffset.symm)
    case neg =>
      obtain ⟨rest, offset, order⟩ := c
      subst hrest
      match part, hshort with
      | b₀ :: b₁ :: b₂ :: b₃ :: part, _ =>
        cases h
        refine .same rfl ?_
        simp only [List.length_cons]
        omega
      | [], hshort | [_], hshort | [_, _], hshort | [_, _, _], hshort => simp at hshort

theorem steady_integer : Steady integer := steady_word.bind fun w => steady_pure (signedWord w)

theorem steady_positive (field : HeaderField) : Steady (positive field) := by
  refine steady_integer.bind fun v => ?_
  change Steady fun c =>
    if 0 < v then pure (v.toNat, c) else throw (.malformed (.notPositive field v))
  split
  · exact steady_pure v.toNat
  · exact steady_throw _

theorem steady_azimuthsOnto (read : List Nat) (count : Nat) :
    Steady (azimuthsOnto read count) := by
  induction count generalizing read with
  | zero => exact steady_pure read
  | succ count ih =>
    have hbind : azimuthsOnto read (count + 1) = fun c =>
        positive .azimuthCount c >>= fun p => azimuthsOnto (p.1 :: read) count p.2 := by
      funext c
      rw [azimuthsOnto]
      cases positive .azimuthCount c <;> rfl
    rw [hbind]
    exact (steady_positive .azimuthCount).bind fun n => ih (n :: read)

/-- The byte order does not show in how far a reader goes. -/
theorem Steady.inOrder (hr : Steady r) (order : ByteOrder) :
    Steady fun c => r { c with order } where
  forward {c _ _} h := hr.forward (c := { c with order }) h
  shortened {c _ _ _ _} h hrest := hr.shortened (c := { c with order }) h hrest

/-- A reader in the byte order that a marker tells. -/
def marked (r : Cursor → Except DatasetError (α × Cursor)) (marker : UInt32) (c : Cursor) :
    Except DatasetError (α × Cursor) :=
  if marker = datasetMarker then r c
  else if marker = swappedMarker then r { c with order := .big }
  else throw (.badMarker marker)

theorem start_bind (r : Cursor → Except DatasetError (α × Cursor)) (bytes : List UInt8) :
    (start bytes >>= r) = word ⟨bytes, 0, .little⟩ >>= fun p => marked r p.1 p.2 := by
  rw [start]
  rcases word ⟨bytes, 0, .little⟩ with e | ⟨marker, c⟩
  · rfl
  · change (ite _ _ _ >>= r) = ite _ _ _
    split
    · rfl
    · split <;> rfl

theorem Steady.marked (hr : Steady r) (marker : UInt32) : Steady (marked r marker) := by
  unfold Cursor.marked
  split
  · exact hr
  · split
    · exact hr.inOrder .big
    · exact steady_throw _

/-- A reader behind the marker that tells its byte order. -/
theorem Steady.shortened_start (hr : Steady r) {part extra : List UInt8} {a : α} {c : Cursor}
    (h : (start (part ++ extra) >>= r) = .ok (a, c)) :
    Shortened extra part.length a c (start part >>= r) := by
  have hsteady : Steady fun c => word c >>= fun p => Cursor.marked r p.1 p.2 :=
    steady_word.bind hr.marked
  rw [start_bind] at h ⊢
  have hshort := hsteady.shortened h (Eq.refl (part ++ extra))
  rwa [Nat.zero_add] at hshort

end Cursor

open Cursor

/-! ## Headers -/

theorem Header.shortened_read {part extra : List UInt8} {h : Header} {c : Cursor}
    (hread : read (part ++ extra) = .ok (h, c)) :
    Shortened extra part.length h c (read part) := by
  unfold read at hread ⊢
  refine Steady.shortened_start ?_ hread
  refine (steady_positive .sampleRate).bind fun sampleRate => ?_
  refine (steady_positive .responseCount).bind fun responseCount => ?_
  refine (steady_positive .elevationCount).bind fun elevationCount => ?_
  refine steady_integer.bind fun minElevation => ?_
  refine steady_integer.bind fun maxElevation => ?_
  refine Steady.guard ?_
  refine (steady_azimuthsOnto [] elevationCount).bind fun reversed => ?_
  refine Steady.guard ?_
  refine (steady_positive .responseLength).bind fun responseLength => ?_
  exact Steady.guard (steady_pure _)

/-! ## Datasets -/

/-- What is missing at the end of a dataset is missed. -/
theorem parse_of_cut {part extra : List UInt8} {d : Dataset} (h : parse (part ++ extra) = .ok d)
    (hextra : extra ≠ []) :
    ∃ needed, parse part = .error (.truncated needed part.length) ∧ part.length < needed ∧
      needed ≤ (part ++ extra).length := by
  obtain ⟨hd, c, hread, hsize⟩ := exists_read_of_parse h
  have hless : part.length < (part ++ extra).length := by
    rw [List.length_append]
    exact Nat.lt_add_of_pos_right (List.length_pos_iff.mpr hextra)
  have hcut := Header.shortened_read hread
  cases hpart : Header.read part with
  | error e =>
    rw [hpart] at hcut
    cases hcut with
    | short hmore hwithin => exact ⟨_, by rw [parse, hpart]; rfl, hmore, by omega⟩
  | ok p =>
    rw [hpart] at hcut
    cases hcut with
    | same =>
      exact ⟨_, parse_of_short hpart (hsize ▸ hless), hsize ▸ hless, Nat.le_of_eq hsize.symm⟩

/-- What is left behind a dataset is refused. -/
theorem parse_of_extended {bytes extra : List UInt8} {d : Dataset} (h : parse bytes = .ok d)
    (hextra : extra ≠ []) :
    parse (bytes ++ extra) = .error (.malformed (.trailing extra.length)) := by
  obtain ⟨hd, c, hread, hsize⟩ := exists_read_of_parse h
  obtain ⟨hv, hrest, hoffset, -⟩ := Header.read_eq_ok.mp hread
  have hmore : Header.read (bytes ++ extra) = .ok (hd, c.cut (c.rest ++ extra)) := by
    refine Header.read_eq_ok.mpr ⟨hv, ?_, hoffset, rfl⟩
    rw [show bytes = _ from hrest, List.append_assoc]
    rfl
  have hlength : (bytes ++ extra).length = c.offset + hd.sampleCount * 4 + extra.length := by
    rw [List.length_append, hsize]
  have hpos : 0 < extra.length := List.length_pos_iff.mpr hextra
  rw [parse_of_long hmore (hlength ▸ Nat.lt_add_of_pos_right hpos), hlength]
  rw [offset_cut, Nat.add_sub_cancel_left]

/-- **A dataset that was cut or extended is recognised as such.**  Of the bytes of a dataset every
proper part from the start is too short, by its own length, and needs no more than all of them; with
anything behind them they are malformed.  So no dataset continues another. -/
theorem parse_cut_or_extended {bytes : List UInt8} {d : Dataset} (h : parse bytes = .ok d) :
    (∀ part, part <+: bytes → part ≠ bytes →
      ∃ needed, parse part = .error (.truncated needed part.length) ∧ part.length < needed ∧
        needed ≤ bytes.length) ∧
    (∀ extra, extra ≠ [] → parse (bytes ++ extra) = .error (.malformed (.trailing extra.length))) ∧
    ∀ bytes' d', parse bytes' = .ok d' → bytes <+: bytes' → bytes' = bytes := by
  refine ⟨?_, fun extra => parse_of_extended h, ?_⟩
  · rintro part ⟨extra, rfl⟩ hproper
    refine parse_of_cut h fun hnil => hproper ?_
    rw [hnil, List.append_nil]
  · rintro _ d' hparse ⟨extra, rfl⟩
    by_contra hne
    have hextra : extra ≠ [] := fun hnil => hne (by rw [hnil, List.append_nil])
    cases hparse.symm.trans (parse_of_extended h hextra)

/-- `twoBands` in the other byte order, cut inside a field of the header and inside a sample, and
with one byte behind it. -/
theorem parse_twoBands_cut_or_extended :
    parse (twoBands.encode .big) = .ok twoBands ∧ (twoBands.encode .big).length = 60 ∧
    (∃ needed, parse ((twoBands.encode .big).take 27) = .error (.truncated needed 27) ∧
      27 < needed ∧ needed ≤ 60) ∧
    (∃ needed, parse ((twoBands.encode .big).take 54) = .error (.truncated needed 54) ∧
      54 < needed ∧ needed ≤ 60) ∧
    parse (twoBands.encode .big ++ [0]) = .error (.malformed (.trailing 1)) := by
  have hparse : parse (twoBands.encode .big) = .ok twoBands :=
    parse_eq_ok.mpr ⟨by constructor <;> decide, .big, rfl⟩
  have hlength : (twoBands.encode .big).length = 60 := by decide
  obtain ⟨hcut, hextended, -⟩ := parse_cut_or_extended hparse
  have htake : ∀ n < 60, ∃ needed, parse ((twoBands.encode .big).take n)
      = .error (.truncated needed n) ∧ n < needed ∧ needed ≤ 60 := by
    intro n hn
    have hpart : ((twoBands.encode .big).take n).length = n := by
      rw [List.length_take, hlength]
      omega
    have hproper := hcut _ (List.take_prefix n _) fun heq => by
      rw [heq, hlength] at hpart
      omega
    rwa [hpart, hlength] at hproper
  exact ⟨hparse, hlength, htake 27 (by decide), htake 54 (by decide), hextended [0] (by decide)⟩

end SpatialAudio.Dataset
