import SpatialAudio.Proofs.Runs

/-!
# Proofs/Consistency — what every reachable graph may be relied upon for

Layouts are in bounds, nodes have one block for each of their channels, and connections join slots
that exist and are equally wide.  So the check for exactly this always passes, and whatever a
connection leads to can be looked up without a check: `gather?` looks up all that a node's inputs are
mixed from and has an answer only if nothing is missing — which it always has.
-/

namespace SpatialAudio

namespace Graph

variable {g : Graph} {i : Nat} {n : Node} {e : Edge}

/-! ## Lookups -/

/-- All that a connection leads to is there: both nodes, their slots, and a block for every channel
of these. -/
structure InReach (g : Graph) (e : Edge) (source target : Node) (output input : ChannelRange) :
    Prop where
  begins : g.nodeAt? e.source = some source
  ends : g.nodeAt? e.target = some target
  outputSlot : source.layout.outputSlots[e.outputSlot]? = some output
  inputSlot : target.layout.inputSlots[e.inputSlot]? = some input
  outputs : output.start + output.count ≤ source.outputs.length
  inputs : input.start + input.count ≤ target.inputs.length

theorem WellFormed.inReach (h : g.WellFormed) (he : e ∈ g.edges) :
    ∃ source target output input, g.InReach e source target output input ∧
      output.count = input.count := by
  obtain ⟨output, input, ho, hi, hw⟩ := h.joins e he
  obtain ⟨source, hs⟩ := exists_of_outputSlots ho
  obtain ⟨target, ht⟩ := exists_of_inputSlots hi
  rw [layoutAt_of_nodeAt? hs] at ho
  rw [layoutAt_of_nodeAt? ht] at hi
  have hfs := h.fits _ source hs
  have hft := h.fits _ target ht
  refine ⟨source, target, output, input, ⟨hs, ht, ho, hi, ?_, ?_⟩, hw⟩
  · rw [hfs.outputs]
    exact hfs.layout.outputSlots output (List.mem_of_getElem? ho)
  · rw [hft.inputs]
    exact hft.layout.inputSlots input (List.mem_of_getElem? hi)

/-- What one connection adds to the inputs of its target, without an answer if a lookup fails. -/
def mixEdge? (g : Graph) (l : Layout) (inputs : List Block) (e : Edge) : Option (List Block) := do
  let source ← g.nodeAt? e.source
  let output ← source.layout.outputSlots[e.outputSlot]?
  let input ← l.inputSlots[e.inputSlot]?
  if output.start + output.count ≤ source.outputs.length ∧
      input.start + input.count ≤ inputs.length then
    some (mixAt input.start ((output.cut source.outputs).take input.count) inputs)
  else none

/-- The inputs of a node, without an answer if a lookup fails. -/
def gather? (g : Graph) (i : Nat) (n : Node) : Option (List Block) :=
  (g.incoming i).foldlM (g.mixEdge? n.layout) (n.inputs.map fun _ => Block.silent)

theorem WellFormed.mixEdge? (h : g.WellFormed) (he : e ∈ g.edges) (hn : g.nodeAt? e.target = some n)
    {inputs : List Block} (hlen : inputs.length = n.inputs.length) :
    g.mixEdge? n.layout inputs e = some (g.mixEdge n.layout inputs e) := by
  obtain ⟨source, target, output, input, hr, -⟩ := h.inReach he
  have hbounds : output.start + output.count ≤ source.outputs.length ∧
      input.start + input.count ≤ inputs.length := by
    refine ⟨hr.outputs, ?_⟩
    rw [hlen, Option.some.inj (hn.symm.trans hr.ends)]
    exact hr.inputs
  have hinput : n.layout.inputSlots[e.inputSlot]? = some input := by
    rw [Option.some.inj (hn.symm.trans hr.ends)]
    exact hr.inputSlot
  simp only [Graph.mixEdge?, mixEdge, hr.begins, hr.outputSlot, hinput, Option.bind_eq_bind,
    Option.bind_some, if_pos hbounds]

/-- **Mixing the inputs of a node looks up nothing that is missing.** -/
theorem WellFormed.gather? (h : g.WellFormed) (hn : g.nodeAt? i = some n) :
    g.gather? i n = some (g.gather i n) := by
  have hfold : ∀ (es : List Edge) (inputs : List Block), (∀ e ∈ es, e ∈ g.edges ∧ e.target = i) →
      inputs.length = n.inputs.length →
      es.foldlM (g.mixEdge? n.layout) inputs = some (es.foldl (g.mixEdge n.layout) inputs) := by
    intro es
    induction es with
    | nil => exact fun _ _ _ => rfl
    | cons e es ih =>
      intro inputs hes hlen
      obtain ⟨he, ht⟩ := hes e List.mem_cons_self
      rw [List.foldlM_cons, h.mixEdge? he (ht ▸ hn) hlen]
      exact ih _ (fun e' he' => hes e' (List.mem_cons_of_mem e he'))
        ((length_mixEdge ..).trans hlen)
  refine hfold _ _ (fun e he => ?_) (List.length_map _)
  obtain ⟨he, ht⟩ := List.mem_filter.mp he
  exact ⟨he, of_decide_eq_true ht⟩

/-! ## Checks -/

/-- **A well-formed graph is consistent.** -/
theorem WellFormed.checkConsistency (h : g.WellFormed) : g.checkConsistency = .ok () := by
  unfold Graph.checkConsistency
  refine bind_unit_eq_ok.mpr ⟨forM_eq_ok.mpr fun e he => ?_, forM_eq_ok.mpr fun s hs => ?_⟩
  · obtain ⟨output, input, ho, hi, hw⟩ := h.joins e he
    exact slotRanges_eq_ok.mpr ⟨output, input, ho, hi, checkWidth_eq_ok.mpr hw⟩
  · cases hn : s.node with
    | none => rfl
    | some n =>
      obtain ⟨i, hi⟩ := List.mem_iff_getElem?.mp hs
      have hfits := h.fits i n (by rw [nodeAt?, hi]; exact hn)
      exact bind_unit_eq_ok.mpr ⟨checkWidth_eq_ok.mpr hfits.inputs.symm,
        checkWidth_eq_ok.mpr hfits.outputs.symm⟩

end Graph

open SpatialAudio.Graph

/-- **Every reachable graph is well-formed and passes the check for it, and nothing that a connection
leads to is out of reach.** -/
theorem wellFormed_of_reachable {s : Session} (h : s.Reachable) :
    s.graph.WellFormed ∧ s.graph.checkConsistency = .ok () ∧
      (∀ e ∈ s.graph.edges, ∃ source target output input,
        s.graph.InReach e source target output input ∧ output.count = input.count) ∧
      ∀ i n, s.graph.nodeAt? i = some n → s.graph.gather? i n = some (s.graph.gather i n) := by
  have hwf := h.sound.wellFormed
  exact ⟨hwf, hwf.checkConsistency, fun e he => hwf.inReach he, fun i n hn => hwf.gather? hn⟩

/-- Two nodes, connected and then given a wider layout, which is refused. -/
def connectedGains : Session :=
  let s := ((Session.new 44100 64).step (.create "a" (.gain 2))).2
  let s := (s.step (.create "b" (.gain 2))).2
  let s := (s.step (.command (.connect "a" 0 "b" 0))).2
  (s.step (.command (.edit "b" (.replace (.symmetric 3))))).2

theorem wellFormed_connectedGains :
    connectedGains.graph.edges = [⟨0, 0, 1, 0⟩] ∧ connectedGains.graph.WellFormed ∧
      connectedGains.graph.checkConsistency = .ok () := by
  have h := wellFormed_of_reachable (s := connectedGains)
    (.step (.step (.step (.step (.new 44100 64) _) _) _) _)
  exact ⟨by decide +kernel, h.1, h.2.1⟩

end SpatialAudio
