import SpatialAudio.Graph.Pull
import SpatialAudio.Proofs.Arena

/-!
# Proofs/WellFormed — layouts in bounds, and connections between slots of equal width

A graph is **well-formed** if every layout is in bounds, every node has one block for each of its
channels, and every connection joins slots that exist and are equally wide (`WellFormed`).
`checkLayout` admits exactly the layouts that keep it so (`checkLayout_eq_ok`,
`WellFormed.arrange`).
-/

namespace SpatialAudio

/-- Channel counts and slots within their bounds. -/
structure Layout.InBounds (l : Layout) : Prop where
  inputs_le : l.inputs ≤ maxChannels
  outputs_le : l.outputs ≤ maxChannels
  inputSlots : ∀ r ∈ l.inputSlots, r.start + r.count ≤ l.inputs
  outputSlots : ∀ r ∈ l.outputSlots, r.start + r.count ≤ l.outputs

/-- A layout in bounds, and a block for each of its channels. -/
structure Node.Fits (n : Node) : Prop where
  layout : n.layout.InBounds
  inputs : n.inputs.length = n.layout.inputs
  outputs : n.outputs.length = n.layout.outputs

namespace Graph

/-- The connection joins slots that exist and are equally wide. -/
def Joins (g : Graph) (e : Edge) : Prop :=
  ∃ output input, (g.layoutAt e.source).outputSlots[e.outputSlot]? = some output ∧
    (g.layoutAt e.target).inputSlots[e.inputSlot]? = some input ∧ output.count = input.count

/-- All nodes fit their layouts, and all connections the layouts of both ends. -/
structure WellFormed (g : Graph) : Prop where
  fits : ∀ i n, g.nodeAt? i = some n → n.Fits
  joins : ∀ e ∈ g.edges, g.Joins e

variable {g g' : Graph} {i j : Nat} {n : Node} {l : Layout} {e : Edge}

/-! ## Single checks -/

theorem slotRange_eq_ok {slots : List ChannelRange} {k : Nat} {r : ChannelRange} :
    slotRange slots k = .ok r ↔ slots[k]? = some r := by
  rw [slotRange]
  cases slots[k]? <;> simp

theorem checkWidth_eq_ok {a b : Nat} : checkWidth a b = .ok () ↔ a = b := by
  rw [checkWidth]
  split <;> simp_all

theorem checkChannels_eq_ok :
    checkChannels l = .ok () ↔ l.inputs ≤ maxChannels ∧ l.outputs ≤ maxChannels := by
  unfold checkChannels
  by_cases hi : maxChannels < l.inputs
  · simp only [hi, if_true, bind_eq_ok]
    exact ⟨fun ⟨_, h, _⟩ => absurd h throw_ne_ok, fun h => absurd h.1 (Nat.not_le_of_lt hi)⟩
  · by_cases ho : maxChannels < l.outputs
    · simp only [hi, ho, if_true, if_false]
      exact ⟨fun h => absurd h throw_ne_ok, fun h => absurd h.2 (Nat.not_le_of_lt ho)⟩
    · simp only [hi, ho, if_false]
      exact ⟨fun _ => ⟨Nat.le_of_not_lt hi, Nat.le_of_not_lt ho⟩, fun _ => rfl⟩

/-- Within the channels a node may have, the end of a slot is a word. -/
theorem fits?_eq_some_true {r : ChannelRange} {channels : Nat} (hc : channels ≤ maxChannels) :
    r.fits? channels = some true ↔ r.start + r.count ≤ channels := by
  have hword : maxChannels < wordLimit := by decide
  rw [ChannelRange.fits?, ChannelRange.stop?]
  split
  · simp
  · simp only [Option.map_none, reduceCtorEq, false_iff]
    omega

theorem checkSlots_eq_ok {channels : Nat} (hc : channels ≤ maxChannels) {slots : List ChannelRange} :
    checkSlots channels slots = .ok () ↔ ∀ r ∈ slots, r.start + r.count ≤ channels := by
  induction slots with
  | nil => simp [checkSlots]
  | cons r slots ih =>
    rw [checkSlots, List.forall_mem_cons, ← ih, ← fits?_eq_some_true hc]
    rcases r.fits? channels with _ | _ | _ <;> simp

/-- Two slots are looked up and compared. -/
theorem slotRanges_eq_ok {a b : List ChannelRange} {x y : Nat}
    {check : ChannelRange → ChannelRange → Except Error Unit} :
    (do let r ← slotRange a x
        let r' ← slotRange b y
        check r r') = .ok ()
      ↔ ∃ r r', a[x]? = some r ∧ b[y]? = some r' ∧ check r r' = .ok () := by
  simp only [bind_eq_ok, slotRange_eq_ok]
  constructor
  · rintro ⟨r, hr, r', hr', h⟩
    exact ⟨r, r', hr, hr', h⟩
  · rintro ⟨r, r', hr, hr', h⟩
    exact ⟨r, hr, r', hr', h⟩

theorem checkEdges_eq_ok : g.checkEdges i l = .ok () ↔
    (∀ e ∈ g.incoming i, ∃ output input,
      (g.layoutAt e.source).outputSlots[e.outputSlot]? = some output ∧
        l.inputSlots[e.inputSlot]? = some input ∧ output.count = input.count) ∧
    ∀ e ∈ g.outgoing i, ∃ input output, (g.layoutAt e.target).inputSlots[e.inputSlot]? = some input ∧
      l.outputSlots[e.outputSlot]? = some output ∧ output.count = input.count := by
  unfold checkEdges
  simp only [bind_unit_eq_ok, forM_eq_ok, slotRanges_eq_ok, checkWidth_eq_ok]

/-- **A layout is admitted if it is in bounds and every connection of the node keeps its width.** -/
theorem checkLayout_eq_ok :
    g.checkLayout i l = .ok () ↔ l.InBounds ∧ g.checkEdges i l = .ok () := by
  unfold checkLayout
  simp only [bind_unit_eq_ok, liftM_error_eq_ok, checkChannels_eq_ok]
  constructor
  · rintro ⟨⟨hi, ho⟩, hin, hout, hedges⟩
    exact ⟨⟨hi, ho, (checkSlots_eq_ok hi).mp hin, (checkSlots_eq_ok ho).mp hout⟩, hedges⟩
  · rintro ⟨⟨hi, ho, hin, hout⟩, hedges⟩
    exact ⟨⟨hi, ho⟩, (checkSlots_eq_ok hi).mpr hin, (checkSlots_eq_ok ho).mpr hout, hedges⟩

/-! ## Layouts -/

theorem layoutAt_of_nodeAt? (h : g.nodeAt? i = some n) : g.layoutAt i = n.layout := by
  rw [layoutAt, h]
  rfl

theorem layoutAt_congr (h : ∀ x : NodeId, x.index = i → g'.node x = g.node x) :
    g'.layoutAt i = g.layoutAt i := by
  rw [layoutAt, layoutAt, nodeAt?_congr h]

/-- A slot that has slots has a node. -/
theorem exists_of_outputSlots {k : Nat} {r : ChannelRange}
    (h : (g.layoutAt i).outputSlots[k]? = some r) : ∃ n, g.nodeAt? i = some n := by
  rw [layoutAt] at h
  cases hn : g.nodeAt? i with
  | some n => exact ⟨n, rfl⟩
  | none => simp [hn, Layout.empty] at h

theorem exists_of_inputSlots {k : Nat} {r : ChannelRange}
    (h : (g.layoutAt i).inputSlots[k]? = some r) : ∃ n, g.nodeAt? i = some n := by
  rw [layoutAt] at h
  cases hn : g.nodeAt? i with
  | some n => exact ⟨n, rfl⟩
  | none => simp [hn, Layout.empty] at h

theorem Joins.exists_source (h : g.Joins e) : ∃ n, g.nodeAt? e.source = some n := by
  obtain ⟨_, _, ho, -, -⟩ := h
  exact exists_of_outputSlots ho

theorem Joins.exists_target (h : g.Joins e) : ∃ n, g.nodeAt? e.target = some n := by
  obtain ⟨_, _, -, hi, -⟩ := h
  exact exists_of_inputSlots hi

theorem Joins.congr (hs : g'.layoutAt e.source = g.layoutAt e.source)
    (ht : g'.layoutAt e.target = g.layoutAt e.target) (h : g.Joins e) : g'.Joins e := by
  rw [Joins, hs, ht]
  exact h

/-- The sources of all connections are slots. -/
theorem WellFormed.source_lt (h : g.WellFormed) : ∀ e ∈ g.edges, e.source < g.slots.length := by
  intro e he
  obtain ⟨n, hn⟩ := (h.joins e he).exists_source
  exact lt_of_nodeAt? hn

/-- A node that fits fits under a layout in bounds, with all of its blocks silent. -/
theorem fits_arrange (hl : l.InBounds) (n : Node) : (arrange l n).Fits where
  layout := hl
  inputs := List.length_replicate
  outputs := List.length_replicate

/-- **An admitted layout keeps a graph well-formed.** -/
theorem WellFormed.arrange (h : g.WellFormed) (hl : l.InBounds) (hedges : g.checkEdges i l = .ok ())
    (hi : g.nodeAt? i = some n) : (g.modifyAt i (Graph.arrange l)).WellFormed where
  fits := by
    intro j m hm
    rw [nodeAt?_modifyAt] at hm
    split at hm
    · obtain ⟨m', -, rfl⟩ := Option.map_eq_some_iff.mp hm
      exact fits_arrange hl m'
    · exact h.fits j m hm
  joins := by
    intro e he
    obtain ⟨hin, hout⟩ := checkEdges_eq_ok.mp hedges
    have hnew : (g.modifyAt i (Graph.arrange l)).layoutAt i = l := by
      rw [layoutAt_modifyAt, if_pos rfl, hi]
      rfl
    have hold : ∀ {j : Nat}, i ≠ j →
        (g.modifyAt i (Graph.arrange l)).layoutAt j = g.layoutAt j := by
      intro j hj
      rw [layoutAt_modifyAt, if_neg hj]
    obtain ⟨o, r, ho, hr, hcount⟩ := h.joins e he
    by_cases hs : e.source = i <;> by_cases ht : e.target = i
    · -- a loop is compared with its other end as it was, on both sides
      obtain ⟨o', r', ho', hr', hw⟩ := hin e (List.mem_filter.mpr ⟨he, by simpa using ht⟩)
      obtain ⟨r'', o'', hr'', ho'', hw'⟩ := hout e (List.mem_filter.mpr ⟨he, by simpa using hs⟩)
      rw [ho] at ho'
      rw [hr] at hr''
      cases ho'
      cases hr''
      exact ⟨o'', r', by rw [hs, hnew]; exact ho'', by rw [ht, hnew]; exact hr', by omega⟩
    · obtain ⟨r', o', hr', ho', hw⟩ := hout e (List.mem_filter.mpr ⟨he, by simpa using hs⟩)
      exact ⟨o', r', by rw [hs, hnew]; exact ho', by rw [hold (Ne.symm ht)]; exact hr', hw⟩
    · obtain ⟨o', r', ho', hr', hw⟩ := hin e (List.mem_filter.mpr ⟨he, by simpa using ht⟩)
      exact ⟨o', r', by rw [hold (Ne.symm hs)]; exact ho', by rw [ht, hnew]; exact hr', hw⟩
    · exact ⟨o, r, by rw [hold (Ne.symm hs)]; exact ho, by rw [hold (Ne.symm ht)]; exact hr, hcount⟩

/-- The node under a layout: with all of its blocks silent, unless it has that layout. -/
def rearrange (l : Layout) (n : Node) : Node :=
  if n.layout = l then { n with kind := n.kind.layoutApplied } else arrange l n

theorem rearrange_kind (l : Layout) (n : Node) : (rearrange l n).kind = n.kind.layoutApplied := by
  rw [rearrange]
  split <;> rfl

theorem rearrange_layout (l : Layout) (n : Node) : (rearrange l n).layout = l := by
  rw [rearrange]
  split
  · next h => exact h
  · rfl

theorem rearrange_properties (l : Layout) (n : Node) :
    (rearrange l n).properties = n.properties := by
  rw [rearrange]
  split <;> rfl

theorem rearrange_owner (l : Layout) (n : Node) : (rearrange l n).owner = n.owner := by
  rw [rearrange]
  split <;> rfl

theorem rearrange_interior (l : Layout) (n : Node) : (rearrange l n).interior = n.interior := by
  rw [rearrange]
  split <;> rfl

/-- A well-formed graph admits every layout that it has. -/
theorem WellFormed.checkEdges_layout (h : g.WellFormed) (hi : g.nodeAt? i = some n) :
    g.checkEdges i n.layout = .ok () := by
  refine checkEdges_eq_ok.mpr ⟨fun e he => ?_, fun e he => ?_⟩
  · obtain ⟨he, ht⟩ := List.mem_filter.mp he
    obtain ⟨o, r, ho, hr, hw⟩ := h.joins e he
    rw [of_decide_eq_true ht, layoutAt_of_nodeAt? hi] at hr
    exact ⟨o, r, ho, hr, hw⟩
  · obtain ⟨he, hs⟩ := List.mem_filter.mp he
    obtain ⟨o, r, ho, hr, hw⟩ := h.joins e he
    rw [of_decide_eq_true hs, layoutAt_of_nodeAt? hi] at ho
    exact ⟨r, o, hr, ho, hw⟩

/-- **Giving a node a layout succeeds exactly if it is in bounds and every connection of the node
keeps its width.** -/
theorem applyLayoutAt_eq_ok (h : g.WellFormed) (hi : g.nodeAt? i = some n) :
    g.applyLayoutAt i l = .ok g' ↔
      l.InBounds ∧ g.checkEdges i l = .ok () ∧ g' = g.modifyAt i (rearrange l) := by
  rw [applyLayoutAt, layoutAt_of_nodeAt? hi]
  split
  · next hl =>
    subst hl
    rw [modifyAt_congr hi (rearrange n.layout) (by rw [rearrange, if_pos rfl]), pure_eq_ok]
    constructor
    · rintro rfl
      exact ⟨(h.fits i n hi).layout, h.checkEdges_layout hi, rfl⟩
    · rintro ⟨-, -, rfl⟩
      rfl
  · next hl =>
    rw [bind_unit_eq_ok, checkLayout_eq_ok, pure_eq_ok,
      modifyAt_congr hi (rearrange l) (by rw [rearrange, if_neg hl])]
    exact ⟨fun ⟨⟨hb, he⟩, hg⟩ => ⟨hb, he, hg.symm⟩, fun ⟨hb, he, hg⟩ => ⟨⟨hb, he⟩, hg.symm⟩⟩

/-- Giving a living node a layout. -/
theorem applyLayout_eq_ok (h : g.WellFormed) {id : NodeId} (hn : g.node id = .ok n) :
    g.applyLayout id l = .ok g' ↔
      l.InBounds ∧ g.checkEdges id.index l = .ok () ∧ g' = g.modifyAt id.index (rearrange l) := by
  rw [← applyLayoutAt_eq_ok h (nodeAt?_of_node hn), applyLayout, bind_eq_ok]
  have hindex : g.index id = .ok id.index := index_eq_ok.mpr ⟨⟨n, hn⟩, rfl⟩
  simp only [liftM_error_eq_ok, hindex]
  constructor
  · rintro ⟨i, hi, happly⟩
    exact Except.ok.inj hi ▸ happly
  · intro happly
    exact ⟨_, rfl, happly⟩

end Graph

end SpatialAudio
