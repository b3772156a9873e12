import SpatialAudio.Proofs.Sinks

/-!
# Proofs/Offers — blocks that sinks offer to their rings

A sink **offers** a block to its ring whenever it is rendered with at least one input (`Offer`,
`offers`).  The block is queued if there is room for all of it, and is dropped otherwise.  So the
samples taken out of a ring so far, followed by those still queued, are the frames of all blocks
that there was room for, in order (`Streamed`): an offer appends to that list or leaves it alone, and
taking samples out only moves the border between its two parts.
-/

namespace SpatialAudio

open SpatialAudio.Graph

variable {g g' : Graph} {x id : NodeId} {s s' : RingSink} {r c capacity : Nat}

/-! ## Frames -/

theorem getElem?_flatMap_of_length {α β : Type} {f : α → List β} (hf : ∀ a, (f a).length = c)
    (l : List α) (i : Nat) {k : Nat} (hk : k < c) :
    (l.flatMap f)[i * c + k]? = (l[i]?).bind fun a => (f a)[k]? := by
  induction l generalizing i with
  | nil => rfl
  | cons a l ih =>
    rw [List.flatMap_cons]
    cases i with
    | zero =>
      rw [Nat.zero_mul, Nat.zero_add, List.getElem?_append_left (by rw [hf]; exact hk)]
      rfl
    | succ i =>
      have hindex : (i + 1) * c + k = (f a).length + (i * c + k) := by
        rw [hf, Nat.succ_mul]
        omega
      rw [hindex, List.getElem?_append_right (Nat.le_add_right _ _), Nat.add_sub_cancel_left, ih]
      rfl

namespace RingSink

theorem length_frames (channels : Nat) (inputs : List Block) :
    (frames channels inputs).length = blockSize * channels := by
  simp only [frames, List.length_flatMap, List.length_map, List.length_range, List.map_const',
    List.sum_replicate_nat]

/-- **Sample `i` of all channels stands together**, and channels without an input are silent. -/
theorem getElem?_frames {channels : Nat} (inputs : List Block) {i k : Nat} (hi : i < blockSize)
    (hk : k < channels) :
    (frames channels inputs)[i * channels + k]? = some ((inputs[k]?.map (·[i])).getD 0) := by
  rw [frames, getElem?_flatMap_of_length (by simp) _ _ hk, List.getElem?_range hi]
  simp only [Option.bind_some, List.getElem?_map, List.getElem?_range hk, Option.map_some,
    List.getD_eq_getElem?_getD]
  cases inputs[k]? with
  | none => simp [Block.silent, hi]
  | some b => simp [hi]

end RingSink

/-! ## Offers -/

/-- A block that a sink is to deliver. -/
structure Offer where
  channels : Nat
  inputs : List Block
  /-- The room that there is in the ring. -/
  free : Nat

namespace Offer

/-- There is room for the whole block. -/
def fits (o : Offer) : Bool := blockSize * o.channels ≤ o.free

/-- The samples of the block. -/
def frames (o : Offer) : List Float32 := RingSink.frames o.channels o.inputs

/-- What becomes of a ring. -/
def into (o : Offer) (ring : Ring) : Ring := if o.fits then ring.append o.frames else ring

end Offer

/-- How many blocks found no room. -/
def lost (offers : List Offer) : Nat := offers.countP fun o => !o.fits

/-- A block is written whole or dropped whole; without inputs there is none. -/
theorem RingSink.deliver_eq_ok {inputs : List Block} {ring ring' : Ring}
    (h : s.deliver inputs ring = .ok (s', ring')) :
    inputs = [] ∧ s' = s ∧ ring' = ring ∨
      inputs ≠ [] ∧ ring' = Offer.into ⟨s.channels, inputs, ring.available⟩ ring ∧
        s'.dropped = s.dropped + lost [⟨s.channels, inputs, ring.available⟩] := by
  rw [deliver] at h
  split at h
  · next hempty =>
    cases h
    exact .inl ⟨List.isEmpty_iff.mp hempty, rfl, rfl⟩
  · next hempty =>
    obtain ⟨length, hlength, h⟩ := bind_eq_ok.mp h
    have hlength : length = blockSize * s.channels := by
      rw [Memory.word] at hlength
      split at hlength <;> cases hlength
      rfl
    refine .inr ⟨fun hnil => hempty (List.isEmpty_iff.mpr hnil), ?_⟩
    have hfits : Offer.fits ⟨s.channels, inputs, ring.available⟩ = ring.accepts length := by
      rw [hlength]
      rfl
    rw [Offer.into, lost, List.countP_singleton, hfits]
    split at h
    · next hroom =>
      cases h
      simp [hroom, Offer.frames]
    · next hroom =>
      cases h
      simp [hroom]

/-! ## Streams -/

/-- `popped` were taken out of a ring of a sink with `c` channels, to which `offers` were made. -/
structure Streamed (c capacity : Nat) (offers : List Offer) (popped : List Float32) (ring : Ring) :
    Prop where
  size : ring.capacity = capacity
  channels : ∀ o ∈ offers, o.channels = c
  stream : popped ++ ring.queued = (offers.filter (·.fits)).flatMap Offer.frames
  bounded : ring.queued.length ≤ capacity
  /-- A ring that nobody empties keeps the first blocks. -/
  undrained : popped = [] → offers.filter (·.fits) = offers.take (capacity / (blockSize * c))

section Streamed

variable {offers : List Offer} {popped : List Float32} {ring : Ring}

theorem streamed_new (c capacity : Nat) : Streamed c capacity [] [] (.new capacity) where
  size := rfl
  channels _ ho := absurd ho List.not_mem_nil
  stream := rfl
  bounded := Nat.zero_le _
  undrained _ := (List.take_nil).symm

theorem length_flatMap_frames (hoffers : ∀ o ∈ offers, o.channels = c) :
    (offers.flatMap Offer.frames).length = offers.length * (blockSize * c) := by
  have hmap : offers.map (fun o => o.frames.length) = offers.map fun _ => blockSize * c :=
    List.map_congr_left fun o ho => by rw [Offer.frames, RingSink.length_frames, hoffers o ho]
  rw [List.length_flatMap, hmap, List.map_const', List.sum_replicate_nat]

/-- The samples in a ring that nobody empties are those of the first blocks. -/
theorem Streamed.length_undrained (h : Streamed c capacity offers [] ring) :
    ring.queued.length = min (capacity / (blockSize * c)) offers.length * (blockSize * c) := by
  have hstream := h.stream
  rw [List.nil_append, h.undrained rfl] at hstream
  rw [hstream, length_flatMap_frames fun p hp => h.channels p (List.mem_of_mem_take hp),
    List.length_take]

/-- **A block is appended if there is room for it.** -/
theorem Streamed.offer (h : Streamed c capacity offers popped ring) (hc : 0 < c) {o : Offer}
    (ho : o.channels = c) (hfree : o.free = ring.available) :
    Streamed c capacity (offers ++ [o]) popped (o.into ring) := by
  have hblock : 0 < blockSize * c := Nat.mul_pos (by decide) hc
  have hroom : o.fits = true ↔ ring.queued.length + blockSize * c ≤ capacity := by
    have hbounded := h.bounded
    rw [Offer.fits, decide_eq_true_iff, ho, hfree, Ring.available, h.size]
    omega
  have hchannels : ∀ p ∈ offers ++ [o], p.channels = c :=
    List.forall_mem_append.mpr ⟨h.channels, List.forall_mem_singleton.mpr ho⟩
  cases hfits : o.fits with
  | true =>
    have hle := hroom.mp hfits
    rw [Offer.into, if_pos hfits]
    refine ⟨h.size, hchannels, ?_, ?_, fun hnone => ?_⟩
    · rw [List.filter_append, List.flatMap_append, ← h.stream, List.filter_cons, if_pos hfits,
        List.filter_nil, List.flatMap_singleton, List.append_assoc]
      rfl
    · change (ring.queued ++ o.frames).length ≤ capacity
      rw [List.length_append, Offer.frames, RingSink.length_frames, ho]
      exact hle
    · subst hnone
      have hmore : min (capacity / (blockSize * c)) offers.length + 1
          ≤ capacity / (blockSize * c) := by
        rw [Nat.le_div_iff_mul_le hblock, Nat.add_mul, Nat.one_mul, ← h.length_undrained]
        exact hle
      rw [List.filter_append, h.undrained rfl, List.filter_cons, if_pos hfits,
        List.take_of_length_le (by omega), List.take_of_length_le (by simp; omega)]
      rfl
  | false =>
    have hlt : capacity < ring.queued.length + blockSize * c := by
      rw [← Nat.not_le, ← hroom, hfits]
      decide
    rw [Offer.into, if_neg (by rw [hfits]; decide)]
    refine ⟨h.size, hchannels, ?_, h.bounded, fun hnone => ?_⟩
    · rw [List.filter_append, List.filter_cons, if_neg (by rw [hfits]; decide), List.filter_nil,
        List.append_nil]
      exact h.stream
    · subst hnone
      have hfull : capacity / (blockSize * c)
          < min (capacity / (blockSize * c)) offers.length + 1 := by
        rw [Nat.div_lt_iff_lt_mul hblock, Nat.add_mul, Nat.one_mul, ← h.length_undrained]
        exact hlt
      rw [List.filter_append, List.filter_cons, if_neg (by rw [hfits]; decide), List.filter_nil,
        List.append_nil, List.take_append_of_le_length (by omega)]
      exact h.undrained rfl

/-- Taking samples out moves them from the queue to what was taken. -/
theorem Streamed.pop (h : Streamed c capacity offers popped ring) (count : Nat) :
    Streamed c capacity offers (popped ++ (ring.pop count).1) (ring.pop count).2 where
  size := h.size
  channels := h.channels
  stream := by
    rw [List.append_assoc, ring.pop_append]
    exact h.stream
  bounded := by
    refine Nat.le_trans ?_ h.bounded
    change (ring.queued.drop count).length ≤ _
    rw [List.length_drop]
    exact Nat.sub_le _ _
  undrained hnone := h.undrained (List.append_eq_nil_iff.mp hnone).1

end Streamed

/-! ## Offers in a block -/

/-- The room in a ring. -/
def Graph.room (g : Graph) (r : Nat) : Nat := ((g.rings[r]?).map Ring.available).getD 0

/-- What the node in slot `i` offers to ring `r` in a block for `id`.  No other node writes into the
ring, so there is as much room as before the block. -/
def Graph.offer? (g : Graph) (id : NodeId) (r i : Nat) : Option Offer :=
  match g.renders? id (g.handleAt i) with
  | some (n, n') =>
    match n.kind with
    | .ringSink s =>
      if s.ring = r ∧ n'.inputs ≠ [] then some ⟨s.channels, n'.inputs, g.room r⟩ else none
    | _ => none
  | none => none

/-- What is offered to ring `r` in a block for `id`. -/
def Graph.offered (g : Graph) (id : NodeId) (r : Nat) : List Offer :=
  (List.range g.slots.length).filterMap (g.offer? id r)

/-- What is offered to ring `r` in a happening. -/
def Happening.offers (r : Nat) (g : Graph) : Happening → List Offer
  | deed (.pull id) => g.offered id r
  | _ => []

/-- What is offered to ring `r` in some happenings. -/
def offers (r : Nat) : Graph → List Happening → List Offer
  | _, [] => []
  | g, k :: ks => k.offers r g ++ offers r (k.after g) ks

theorem offers_append (r : Nat) (g : Graph) (hs ks : List Happening) :
    offers r g (hs ++ ks) = offers r g hs ++ offers r (replay g hs) ks := by
  induction hs generalizing g with
  | nil => rfl
  | cons k hs ih => rw [List.cons_append, offers, offers, ih, List.append_assoc]; rfl

theorem Happening.offers_eq_nil {k : Happening} (hk : k.block? = none) (r : Nat) (g : Graph) :
    k.offers r g = [] := by
  cases k with
  | deed d =>
    cases d with
    | pull id => cases hk
    | _ => rfl
  | _ => rfl

namespace Graph

variable {i : Nat} {o : Offer}

theorem offer?_eq_some : g.offer? id r i = some o ↔ ∃ n n' s,
    g.renders? id (g.handleAt i) = some (n, n') ∧ n.kind = .ringSink s ∧ s.ring = r ∧
      n'.inputs ≠ [] ∧ o = ⟨s.channels, n'.inputs, g.room r⟩ := by
  rw [offer?]
  constructor
  · intro h
    split at h
    · next n n' hrenders =>
      split at h
      · next s hk =>
        split at h
        · next hs => exact ⟨n, n', s, hrenders, hk, hs.1, hs.2, (Option.some.inj h).symm⟩
        · cases h
      · cases h
    · cases h
  · rintro ⟨n, n', s, hrenders, hk, hr, hinputs, rfl⟩
    simp only [hrenders, hk, hr, hinputs, ne_eq, not_false_eq_true, and_self, if_true]

/-- **What is offered in a block**: what a sink hears that is rendered with some input. -/
theorem mem_offered : o ∈ g.offered id r ↔ ∃ x n n' s, g.renders? id x = some (n, n') ∧
    n.kind = .ringSink s ∧ s.ring = r ∧ n'.inputs ≠ [] ∧
      o = ⟨s.channels, n'.inputs, g.room r⟩ := by
  rw [offered, List.mem_filterMap]
  constructor
  · rintro ⟨i, -, ho⟩
    exact ⟨g.handleAt i, offer?_eq_some.mp ho⟩
  · rintro ⟨x, n, n', s, hrenders, hrest⟩
    obtain ⟨g', -, hn, -⟩ := renders?_eq_some hrenders
    refine ⟨x.index, List.mem_range.mpr (lt_of_nodeAt? (nodeAt?_of_node hn)), ?_⟩
    refine offer?_eq_some.mpr ⟨n, n', s, ?_, hrest⟩
    rw [handleAt_of_node hn]
    exact hrenders

theorem offered_eq_nil (h : ∀ x s, g.Feeds x s → s.ring ≠ r) (id : NodeId) :
    g.offered id r = [] := by
  refine List.eq_nil_iff_forall_not_mem.mpr fun o ho => ?_
  obtain ⟨x, n, n', s, hrenders, hk, hr, -⟩ := mem_offered.mp ho
  obtain ⟨g', -, hn, -⟩ := renders?_eq_some hrenders
  exact h x s ⟨n, hn, hk⟩ hr

theorem filterMap_range_of_sole {α : Type} {f : Nat → Option α} {count : Nat}
    (hf : ∀ j, j ≠ i → f j = none) (hi : i < count) :
    (List.range count).filterMap f = (f i).toList := by
  induction count with
  | zero => exact absurd hi (Nat.not_lt_zero i)
  | succ count ih =>
    rw [List.range_succ, List.filterMap_append]
    by_cases hlast : i = count
    · subst hlast
      have hbefore : (List.range i).filterMap f = [] :=
        List.filterMap_eq_nil_iff.mpr fun j hj => hf j (Nat.ne_of_lt (List.mem_range.mp hj))
      rw [hbefore]
      cases hfi : f i <;> simp [hfi]
    · rw [ih (by omega), List.filterMap_cons, hf count (Ne.symm hlast)]
      exact List.append_nil _

/-- The only sink into a ring offers all there is. -/
theorem offered_of_sole {n : Node} (hn : g.node x = .ok n) (hk : n.kind = .ringSink s)
    (hsole : g.Sole x s.ring) (id : NodeId) :
    g.offered id s.ring = match g.renders? id x with
      | some (_, n') => if n'.inputs = [] then [] else [⟨s.channels, n'.inputs, g.room s.ring⟩]
      | none => [] := by
  have hother : ∀ j, j ≠ x.index → g.offer? id s.ring j = none := by
    intro j hj
    refine Option.eq_none_iff_forall_ne_some.mpr fun o ho => hj ?_
    obtain ⟨m, m', t, hrenders, hkind, hr, -⟩ := offer?_eq_some.mp ho
    obtain ⟨g', -, hm, -⟩ := renders?_eq_some hrenders
    exact congrArg NodeId.index (hsole _ t ⟨m, hm, hkind⟩ hr)
  rw [offered, filterMap_range_of_sole hother (lt_of_nodeAt? (nodeAt?_of_node hn)), offer?,
    handleAt_of_node hn]
  cases hrenders : g.renders? id x with
  | none => rfl
  | some result =>
    obtain ⟨m, n'⟩ := result
    obtain ⟨g', -, hm, -⟩ := renders?_eq_some hrenders
    cases hn.symm.trans hm
    simp only [hk, true_and, ne_eq, ite_not]
    split <;> rfl

end Graph

end SpatialAudio
