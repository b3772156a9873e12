import SpatialAudio.Proofs.Consistency

/-!
# Proofs/Dataflow — a block is one evaluation of the equations between nodes

A block that is not given up goes through the pull order of its root twice: nodes are given the
layouts they ask for (`prepare`), and then each is processed in place.  Every step touches one node
(`Beside`), and all that feeds a node was processed before it and is not touched again.  So in the
end every input channel is the sum of what its connections bring it (`heard`), read off the same
final state for all nodes, and every output is what the node makes of these inputs (`Evaluated`).
-/

namespace SpatialAudio

open Relation

namespace Graph

variable {g g' g'' : Graph} {i j c : Nat} {n : Node} {e : Edge}

/-! ## Inputs, channel by channel -/

/-- What a connection brings to input channel `c` of its target, if its input slot covers `c`: the
channel of its source that lies equally far behind the start of its output slot. -/
def brings? (g : Graph) (c : Nat) (e : Edge) : Option Block := do
  let source ← g.nodeAt? e.source
  let output ← source.layout.outputSlots[e.outputSlot]?
  let input ← (g.layoutAt e.target).inputSlots[e.inputSlot]?
  if input.start ≤ c ∧ c < input.start + input.count then
    source.outputs[output.start + (c - input.start)]?
  else none

/-- What a node hears on input channel `c`: all that its connections bring there, added up from
silence in their order. -/
def heard (g : Graph) (i c : Nat) : Block :=
  ((g.incoming i).filterMap (g.brings? c)).foldl Block.mix Block.silent

theorem getElem?_mixAt (start c : Nat) (sources channels : List Block) :
    (mixAt start sources channels)[c]? = channels[c]?.map fun b =>
      (if start ≤ c then sources[c - start]? else none).elim b b.mix := by
  induction channels generalizing start c sources with
  | nil => cases start <;> cases sources <;> rfl
  | cons b channels ih =>
    cases start with
    | succ start =>
      cases c with
      | zero => rfl
      | succ c =>
        rw [mixAt, List.getElem?_cons_succ, List.getElem?_cons_succ, ih]
        simp only [Nat.add_le_add_iff_right, Nat.add_sub_add_right]
    | zero =>
      cases sources with
      | nil => simp [mixAt]
      | cons s sources =>
        cases c with
        | zero => rfl
        | succ c =>
          rw [mixAt, List.getElem?_cons_succ, List.getElem?_cons_succ, ih]
          simp

/-- A connection brings something exactly to the channels that its input slot covers. -/
theorem WellFormed.brings?_eq (h : g.WellFormed) (he : e ∈ g.edges) :
    ∃ source target output input, g.InReach e source target output input ∧
      output.count = input.count ∧ ∀ c, g.brings? c e =
        if input.start ≤ c ∧ c < input.start + input.count then
          source.outputs[output.start + (c - input.start)]? else none := by
  obtain ⟨source, target, output, input, hr, hw⟩ := h.inReach he
  refine ⟨source, target, output, input, hr, hw, fun c => ?_⟩
  simp only [brings?, hr.begins, hr.outputSlot, layoutAt_of_nodeAt? hr.ends, hr.inputSlot,
    Option.bind_eq_bind, Option.bind_some]

/-- **One connection adds what it brings to each channel.** -/
theorem WellFormed.getElem?_mixEdge (h : g.WellFormed) (he : e ∈ g.edges)
    (hn : g.nodeAt? e.target = some n) (inputs : List Block) (c : Nat) :
    (g.mixEdge n.layout inputs e)[c]? = inputs[c]?.map fun b => (g.brings? c e).elim b b.mix := by
  obtain ⟨source, target, output, input, hr, hw, hbrings⟩ := h.brings?_eq he
  cases hn.symm.trans hr.ends
  have hcut : ∀ k, ((output.cut source.outputs).take input.count)[k]?
      = if k < input.count then source.outputs[output.start + k]? else none := by
    intro k
    rw [ChannelRange.cut, hw, List.take_take, Nat.min_self, List.getElem?_take, List.getElem?_drop]
  rw [hbrings, mixEdge, hr.begins, hr.inputSlot]
  simp only [hr.outputSlot, getElem?_mixAt, hcut]
  congr 1
  funext b
  congr 1
  by_cases hstart : input.start ≤ c
  · have hiff : c - input.start < input.count ↔ c < input.start + input.count := by omega
    simp only [hstart, if_true, true_and, hiff]
  · simp only [hstart, if_false, false_and]

theorem WellFormed.getElem?_foldl_mixEdge (h : g.WellFormed) (hn : g.nodeAt? i = some n)
    {es : List Edge} (hes : ∀ e ∈ es, e ∈ g.incoming i) (inputs : List Block) (c : Nat) :
    (es.foldl (g.mixEdge n.layout) inputs)[c]?
      = inputs[c]?.map fun b => (es.filterMap (g.brings? c)).foldl Block.mix b := by
  induction es generalizing inputs with
  | nil => simp
  | cons e es ih =>
    obtain ⟨he, ht⟩ := List.mem_filter.mp (hes e List.mem_cons_self)
    have ht : e.target = i := of_decide_eq_true ht
    rw [List.foldl_cons, ih (fun e' he' => hes e' (List.mem_cons_of_mem e he')),
      h.getElem?_mixEdge he (ht ▸ hn), Option.map_map]
    congr 1
    funext b
    rw [Function.comp_apply, List.filterMap_cons]
    cases g.brings? c e <;> rfl

/-- **The inputs of a node are what it hears.** -/
theorem WellFormed.getElem?_gather (h : g.WellFormed) (hn : g.nodeAt? i = some n)
    (hc : c < n.inputs.length) : (g.gather i n)[c]? = some (g.heard i c) := by
  rw [gather, h.getElem?_foldl_mixEdge hn fun _ he => he, List.getElem?_map,
    List.getElem?_eq_getElem hc]
  rfl

/-! ## What is left alone -/

/-- Only nodes at places `p` differ. -/
structure Beside (p : Nat → Prop) (g g' : Graph) : Prop where
  edges : g'.edges = g.edges
  schedule : g'.schedule = g.schedule
  rate : g'.sampleRate = g.sampleRate
  length : g'.slots.length = g.slots.length
  handleAt : ∀ j, g'.handleAt j = g.handleAt j
  nodes : ∀ j, ¬ p j → g'.nodeAt? j = g.nodeAt? j

section Beside

variable {p q : Nat → Prop}

theorem Beside.refl (g : Graph) : Beside p g g :=
  ⟨rfl, rfl, rfl, rfl, fun _ => rfl, fun _ _ => rfl⟩

theorem Beside.trans (h : Beside p g g') (h' : Beside p g' g'') : Beside p g g'' where
  edges := h'.edges.trans h.edges
  schedule := h'.schedule.trans h.schedule
  rate := h'.rate.trans h.rate
  length := h'.length.trans h.length
  handleAt j := (h'.handleAt j).trans (h.handleAt j)
  nodes j hj := (h'.nodes j hj).trans (h.nodes j hj)

theorem Beside.mono (h : Beside p g g') (hpq : ∀ j, p j → q j) : Beside q g g' :=
  { h with nodes := fun j hj => h.nodes j fun hp => hj (hpq j hp) }

theorem beside_modifyAt (g : Graph) (i : Nat) (f : Node → Node) :
    Beside (· = i) g (g.modifyAt i f) where
  edges := rfl
  schedule := rfl
  rate := rfl
  length := length_modifyAt g i f
  handleAt j := handleAt_modifyAt g i j f
  nodes j hj := by rw [nodeAt?_modifyAt, if_neg fun hij => hj hij.symm]

/-- A layout changes one node, and not its owner. -/
theorem applyLayoutAt_eq_modifyAt {l : Layout} (h : g.applyLayoutAt i l = .ok g') :
    ∃ f : Node → Node, g' = g.modifyAt i f ∧ ∀ n, (f n).owner = n.owner := by
  rw [applyLayoutAt] at h
  split at h
  · cases h
    exact ⟨_, rfl, fun _ => rfl⟩
  · obtain ⟨_, -, h⟩ := bind_eq_ok.mp h
    cases h
    exact ⟨_, rfl, fun _ => rfl⟩

theorem beside_applyLayoutAt {l : Layout} (h : g.applyLayoutAt i l = .ok g') :
    Beside (· = i) g g' := by
  obtain ⟨f, rfl, -⟩ := applyLayoutAt_eq_modifyAt h
  exact beside_modifyAt g i f

/-- Nodes that are asked for layouts are those of the schedule. -/
theorem beside_proposeAll {schedule : List Nat} {refused : Option (Nat × Error)}
    (h : proposeAll schedule g = .ok (g', refused)) : Beside (· ∈ schedule) g g' := by
  induction schedule generalizing g with
  | nil =>
    cases h
    exact .refl _
  | cons i rest ih =>
    have hrest : ∀ {a : Graph}, proposeAll rest a = .ok (g', refused) →
        Beside (· ∈ i :: rest) a g' :=
      fun ha => (ih ha).mono fun _ => List.mem_cons_of_mem i
    have hfirst : ∀ {a b : Graph}, Beside (· = i) a b → Beside (· ∈ i :: rest) a b :=
      fun hb => hb.mono fun _ hj => hj ▸ List.mem_cons_self
    rw [proposeAll] at h
    split at h
    · exact hrest h
    · dsimp only at h
      split at h
      · exact (hfirst (beside_modifyAt g i _)).trans (hrest h)
      · split at h
        · next happly =>
          exact (hfirst (beside_modifyAt g i _)).trans
            ((hfirst (beside_applyLayoutAt happly)).trans (hrest h))
        · cases h
          exact hfirst (beside_modifyAt g i _)
        · cases h

/-- Asking for layouts puts nothing into a ring. -/
theorem rings_proposeAll {schedule : List Nat} {refused : Option (Nat × Error)}
    (h : proposeAll schedule g = .ok (g', refused)) : g'.rings = g.rings := by
  induction schedule generalizing g with
  | nil =>
    cases h
    rfl
  | cons i rest ih =>
    rw [proposeAll] at h
    split at h
    · exact ih h
    · dsimp only at h
      split at h
      · exact (ih h).trans rfl
      · split at h
        · next happly =>
          obtain ⟨f, rfl, -⟩ := applyLayoutAt_eq_modifyAt happly
          exact (ih h).trans rfl
        · cases h
          rfl
        · cases h

end Beside

/-! ## A node's turn -/

/-- What becomes of a node and of the rings when it processes `inputs`: a suspended node falls
silent and keeps its state, any other has its state and outputs processed, with gain and offset
applied to all outputs. -/
structure Turn (rate : Nat) (rings : List Ring) (inputs : List Block) (n n' : Node)
    (rings' : List Ring) : Prop where
  takes : n'.inputs = inputs
  layout : n'.layout = n.layout
  owner : n'.owner = n.owner
  interior : n'.interior = n.interior
  properties : n'.properties = n.properties.clearModified
  suspended : n.properties.flag .suspended = true →
    n'.kind = n.kind ∧ n'.outputs = n.outputs.map (fun _ => Block.silent) ∧ rings' = rings
  active : n.properties.flag .suspended = false → ∃ done,
    n.kind.process rate n.properties inputs n.outputs rings = .ok done ∧ n'.kind = done.kind ∧
      n'.outputs = finish n.properties done.outputs ∧ rings' = done.rings

/-- **Processing a node is its turn, and touches no other node.** -/
theorem processAt_eq_ok (hn : g.nodeAt? i = some n) (h : g.processAt i = .ok g') :
    Beside (· = i) g g' ∧ ∃ n', g'.nodeAt? i = some n' ∧
      Turn g.sampleRate g.rings (g.gather i n) n n' g'.rings := by
  rw [processAt, hn] at h
  dsimp only at h
  split at h
  · next hflag =>
    cases h
    refine ⟨beside_modifyAt g i _, _, by rw [nodeAt?_modifyAt, if_pos rfl, hn]; rfl, ?_⟩
    exact ⟨rfl, rfl, rfl, rfl, rfl, fun _ => ⟨rfl, rfl, rfl⟩,
      fun hoff => absurd (hflag.symm.trans hoff) (by decide)⟩
  · next hflag =>
    obtain ⟨done, hdone, h⟩ := bind_eq_ok.mp h
    cases h
    refine ⟨⟨rfl, rfl, rfl, length_modifyAt g i _, fun j => handleAt_modifyAt g i j _,
      fun j hj => ?_⟩, _, (nodeAt?_modifyAt g i i _).trans (by rw [if_pos rfl, hn]; rfl), ?_⟩
    · exact (nodeAt?_modifyAt g i j _).trans (if_neg fun hij => hj hij.symm)
    · exact ⟨rfl, rfl, rfl, rfl, rfl, fun hon => absurd hon hflag,
        fun _ => ⟨done, hdone, rfl, rfl, rfl⟩⟩

theorem beside_processAt (h : g.processAt i = .ok g') : Beside (· = i) g g' := by
  cases hn : g.nodeAt? i with
  | some n => exact (processAt_eq_ok hn h).1
  | none =>
    rw [processAt, hn] at h
    cases h
    exact .refl g

theorem beside_foldlM_processAt {l : List Nat} (h : l.foldlM processAt g = .ok g') :
    Beside (· ∈ l) g g' := by
  induction l generalizing g with
  | nil =>
    cases h
    exact .refl _
  | cons i rest ih =>
    rw [List.foldlM_cons] at h
    obtain ⟨g₁, h₁, h⟩ := bind_eq_ok.mp h
    exact ((beside_processAt h₁).mono fun _ hj => hj ▸ List.mem_cons_self).trans
      ((ih h).mono fun _ => List.mem_cons_of_mem i)

end Graph

/-- Only a sink writes into a ring, and only into its own. -/
theorem NodeKind.getElem?_rings {k : NodeKind} {rate : Nat} {props : Properties}
    {inputs outputs : List Block} {rings : List Ring} {done : Processed} {r : Nat}
    (h : k.process rate props inputs outputs rings = .ok done)
    (hr : ∀ s, k = .ringSink s → s.ring ≠ r) : done.rings[r]? = rings[r]? := by
  cases k with
  | hrtfPanner p =>
    obtain ⟨⟨p', outputs'⟩, -, h⟩ := bind_eq_ok.mp h
    cases h
    rfl
  | ringSink s =>
    rw [process] at h
    split at h
    · obtain ⟨⟨s', ring'⟩, -, h⟩ := bind_eq_ok.mp h
      cases h
      exact List.getElem?_set_ne (hr s rfl)
    · cases h
      rfl
  | _ =>
    cases h
    rfl

namespace Graph

variable {g g' g'' : Graph} {i j c r : Nat} {n n' : Node} {e : Edge} {l : List Nat}

/-- A node that is no sink into a ring leaves it alone. -/
theorem Turn.getElem?_rings {rate : Nat} {rings rings' : List Ring} {inputs : List Block}
    (h : Turn rate rings inputs n n' rings') (hr : ∀ s, n.kind = .ringSink s → s.ring ≠ r) :
    rings'[r]? = rings[r]? := by
  cases hflag : n.properties.flag .suspended with
  | true => rw [(h.suspended hflag).2.2]
  | false =>
    obtain ⟨done, hdone, -, -, hrings⟩ := h.active hflag
    rw [hrings]
    exact NodeKind.getElem?_rings hdone hr

/-- No node at places `p` is a sink into ring `r`. -/
def NoSink (g : Graph) (p : Nat → Prop) (r : Nat) : Prop :=
  ∀ j, p j → ∀ n s, g.nodeAt? j = some n → n.kind = .ringSink s → s.ring ≠ r

/-- A ring that no node writes into is left alone. -/
theorem NoSink.getElem?_rings (hr : g.NoSink (· ∈ l) r) (hnd : l.Nodup)
    (h : l.foldlM processAt g = .ok g') : g'.rings[r]? = g.rings[r]? := by
  induction l generalizing g with
  | nil =>
    cases h
    rfl
  | cons i rest ih =>
    rw [List.foldlM_cons] at h
    obtain ⟨g₁, h₁, h⟩ := bind_eq_ok.mp h
    obtain ⟨hi, hnd⟩ := List.nodup_cons.mp hnd
    have hrest : g₁.NoSink (· ∈ rest) r := by
      intro j hj m s hm
      rw [(beside_processAt h₁).nodes j fun hji => hi (hji ▸ hj)] at hm
      exact hr j (List.mem_cons_of_mem i hj) m s hm
    rw [ih hrest hnd h]
    cases hn : g.nodeAt? i with
    | some n =>
      obtain ⟨-, n', -, hturn⟩ := processAt_eq_ok hn h₁
      exact hturn.getElem?_rings fun s => hr i List.mem_cons_self n s hn
    | none =>
      rw [processAt, hn] at h₁
      cases h₁
      rfl

/-! ## One pass over the nodes -/

/-- Every node stands behind all that feed it. -/
def Sorted (g : Graph) (l : List Nat) : Prop :=
  ∀ l₁ i l₂, l = l₁ ++ i :: l₂ → ∀ e ∈ g.incoming i, e.source ∈ l₁

/-- What a connection brings depends on its source's outputs and on the layouts of both ends. -/
theorem brings?_congr
    (hs : (g'.nodeAt? e.source).map (fun n => (n.layout, n.outputs))
      = (g.nodeAt? e.source).map fun n => (n.layout, n.outputs))
    (ht : g'.layoutAt e.target = g.layoutAt e.target) : g'.brings? c e = g.brings? c e := by
  rw [brings?, brings?, ht]
  cases hg : g.nodeAt? e.source with
  | none =>
    rw [hg, Option.map_none, Option.map_eq_none_iff] at hs
    rw [hs]
  | some n =>
    rw [hg] at hs
    obtain ⟨n', hn', hview⟩ := Option.map_eq_some_iff.mp hs
    obtain ⟨hlayout, houtputs⟩ := Prod.mk.inj hview
    simp only [hn', Option.bind_eq_bind, Option.bind_some, hlayout, houtputs]

theorem heard_congr (he : g'.edges = g.edges)
    (hs : ∀ e ∈ g.incoming i, (g'.nodeAt? e.source).map (fun n => (n.layout, n.outputs))
      = (g.nodeAt? e.source).map fun n => (n.layout, n.outputs))
    (ht : g'.layoutAt i = g.layoutAt i) : g'.heard i c = g.heard i c := by
  have hincoming : g'.incoming i = g.incoming i := by rw [incoming, incoming, he]
  rw [heard, heard, hincoming]
  congr 1
  refine List.filterMap_congr fun e hmem => brings?_congr (hs e hmem) ?_
  rw [of_decide_eq_true (List.mem_filter.mp hmem).2]
  exact ht

theorem foldlM_split {l₁ l₂ : List Nat} (h : (l₁ ++ i :: l₂).foldlM processAt g = .ok g') :
    ∃ a b, l₁.foldlM processAt g = .ok a ∧ a.processAt i = .ok b ∧
      l₂.foldlM processAt b = .ok g' := by
  rw [List.foldlM_append] at h
  obtain ⟨a, ha, h⟩ := bind_eq_ok.mp h
  rw [List.foldlM_cons] at h
  obtain ⟨b, hb, h⟩ := bind_eq_ok.mp h
  exact ⟨a, b, ha, hb, h⟩

/-- **In a pass over sorted nodes every node takes its turn on what it hears in the end.** -/
theorem Sound.turn_of_foldlM (h : g.Sound) (hnd : l.Nodup) (hsorted : g.Sorted l)
    (hfold : l.foldlM processAt g = .ok g') (hi : i ∈ l) (hn : g.nodeAt? i = some n) :
    ∃ n' rings rings', g'.nodeAt? i = some n' ∧
      Turn g.sampleRate rings n'.inputs n n' rings' ∧
      n'.inputs.length = n.inputs.length ∧
      (∀ c < n.inputs.length, n'.inputs[c]? = some (g'.heard i c)) ∧
      ∀ r, g.NoSink (fun j => j ∈ l ∧ j ≠ i) r →
        rings[r]? = g.rings[r]? ∧ g'.rings[r]? = rings'[r]? := by
  obtain ⟨l₁, l₂, rfl⟩ := List.append_of_mem hi
  obtain ⟨a, b, ha, hb, hrest⟩ := foldlM_split hfold
  obtain ⟨hnd₁, hnd₂, hapart⟩ := List.nodup_append.mp hnd
  obtain ⟨hi₂, hnd₂⟩ := List.nodup_cons.mp hnd₂
  have hi₁ : i ∉ l₁ := fun hmem => hapart i hmem i List.mem_cons_self rfl
  -- the node is untouched before its turn, and not touched again after it
  have hbefore := beside_foldlM_processAt ha
  have hafter := beside_foldlM_processAt hrest
  have hna : a.nodeAt? i = some n := (hbefore.nodes i hi₁).trans hn
  obtain ⟨hturned, n', hn', hturn⟩ := processAt_eq_ok hna hb
  have hng' : g'.nodeAt? i = some n' := (hafter.nodes i hi₂).trans hn'
  have hwf : a.WellFormed := (h.pulled (pulled_foldlM_processAt ha)).wellFormed
  have hheard : ∀ c, g'.heard i c = a.heard i c := by
    intro c
    refine heard_congr (hafter.edges.trans hturned.edges) (fun e he => ?_) ?_
    · have hsource : e.source ∈ l₁ := by
        refine hsorted l₁ i l₂ rfl e ?_
        rw [incoming, ← hbefore.edges]
        exact he
      have hne : e.source ≠ i := fun hsi => hi₁ (hsi ▸ hsource)
      have hnot : e.source ∉ l₂ :=
        fun hmem => hapart _ hsource _ (List.mem_cons_of_mem i hmem) rfl
      rw [hafter.nodes _ hnot, hturned.nodes _ hne]
    · rw [layoutAt_of_nodeAt? hng', layoutAt_of_nodeAt? hna, hturn.layout]
  refine ⟨n', a.rings, b.rings, hng', ?_, ?_, fun c hc => ?_, fun r hr => ?_⟩
  · rw [← hbefore.rate, hturn.takes]
    exact hturn
  · rw [hturn.takes, length_gather]
  · rw [hturn.takes, hwf.getElem?_gather hna hc, hheard]
  · have hfirst : g.NoSink (· ∈ l₁) r :=
      fun j hj => hr j ⟨List.mem_append_left _ hj, fun hji => hi₁ (hji ▸ hj)⟩
    have hlast : b.NoSink (· ∈ l₂) r := by
      intro j hj m s hm
      have hji : j ≠ i := fun hji => hi₂ (hji ▸ hj)
      have hj₁ : j ∉ l₁ := fun hmem => hapart j hmem j (List.mem_cons_of_mem i hj) rfl
      rw [hturned.nodes j hji, hbefore.nodes j hj₁] at hm
      exact hr j ⟨List.mem_append_right _ (List.mem_cons_of_mem i hj), hji⟩ m s hm
    exact ⟨hfirst.getElem?_rings hnd₁ ha, hlast.getElem?_rings hnd₂ hrest⟩

/-- Whatever feeds a node of the pull order stands before it. -/
theorem Sound.sorted_pullOrder {root : Nat} (h : g.Sound) (hroot : root < g.slots.length) :
    g.Sorted (g.pullOrder root) := by
  intro l₁ i l₂ hsplit e he
  obtain ⟨he, ht⟩ := List.mem_filter.mp he
  have ht : e.target = i := of_decide_eq_true ht
  have hnd := nodup_pullOrder h.acyclic h.wellFormed.source_lt hroot
  have hlt := idxOf_pullOrder_lt h.acyclic h.wellFormed.source_lt hroot he
    (by rw [hsplit, ht]; simp)
  rw [hsplit] at hnd hlt
  have hi : i ∉ l₁ := fun hmem => (List.nodup_append.mp hnd).2.2 i hmem i List.mem_cons_self rfl
  rw [ht, List.idxOf_append_of_notMem hi, List.idxOf_cons_self] at hlt
  by_contra hsource
  rw [List.idxOf_append_of_notMem hsource] at hlt
  omega

/-! ## Clearing marks -/

/-- The node in slot `j` is a subgraph that the node in slot `i` is private to. -/
def Owns (g : Graph) (j i : Nat) : Prop :=
  (g.nodeAt? i).map Node.owner = some (some (g.handleAt j))

theorem owns_congr (ho : ∀ i, (g'.nodeAt? i).map Node.owner = (g.nodeAt? i).map Node.owner)
    (hh : ∀ j, g'.handleAt j = g.handleAt j) : g'.Owns j i ↔ g.Owns j i := by
  rw [Owns, Owns, ho, hh]

/-- A node none of whose properties is marked as stored. -/
def unmark (n : Node) : Node := { n with properties := n.properties.clearModified }

/-- Subgraphs are nested one deep, so clearing the marks around a node stops at its owner. -/
theorem Nested.clearAround (h : g.Nested) (i : Nat) :
    g.clearAround i
      = ((g.nodeAt? i).bind Node.owner).elim g fun o => g.modifyAt o.index unmark := by
  rw [Graph.clearAround]
  cases hn : g.nodeAt? i with
  | none =>
    rw [Option.bind_none, clearOwners.eq_def]
    cases g.slots.length <;> rfl
  | some n =>
    rw [Option.bind_some]
    cases ho : n.owner with
    | none =>
      rw [clearOwners.eq_def]
      cases g.slots.length <;> rfl
    | some o =>
      obtain ⟨-, m, hm, hsome⟩ := h.owned _ n o (node_handleAt.mpr hn) ho
      have hpublic : m.owner = none := by
        cases hown : m.owner with
        | none => rfl
        | some o' => exact absurd (h.owned o m o' hm hown).1 hsome
      obtain ⟨depth, hdepth⟩ := Nat.exists_eq_succ_of_ne_zero
        (Nat.ne_of_gt (Nat.zero_lt_of_lt (lt_of_nodeAt? hn)))
      rw [hdepth, clearOwners, hm]
      dsimp only
      rw [hpublic, clearOwners.eq_def]
      cases depth <;> rfl

/-- Only marks differ: at places `p` all of them were cleared. -/
structure Unmarked (p : Nat → Prop) (g g' : Graph) : Prop where
  edges : g'.edges = g.edges
  rings : g'.rings = g.rings
  handleAt : ∀ j, g'.handleAt j = g.handleAt j
  cleared : ∀ j, p j → g'.nodeAt? j = (g.nodeAt? j).map unmark
  others : ∀ j, ¬ p j → g'.nodeAt? j = g.nodeAt? j

section Unmarked

variable {p q : Nat → Prop}

theorem Unmarked.trans (h : Unmarked p g g') (h' : Unmarked q g' g'') :
    Unmarked (fun j => p j ∨ q j) g g'' where
  edges := h'.edges.trans h.edges
  rings := h'.rings.trans h.rings
  handleAt j := (h'.handleAt j).trans (h.handleAt j)
  cleared j hj := by
    have htwice : unmark ∘ unmark = unmark := by
      funext n
      simp only [Function.comp_apply, unmark, Properties.clearModified_clearModified]
    by_cases hp : p j <;> by_cases hq : q j
    · rw [h'.cleared j hq, h.cleared j hp, Option.map_map, htwice]
    · rw [h'.others j hq, h.cleared j hp]
    · rw [h'.cleared j hq, h.others j hp]
    · exact absurd hj (not_or.mpr ⟨hp, hq⟩)
  others j hj := by
    obtain ⟨hp, hq⟩ := not_or.mp hj
    rw [h'.others j hq, h.others j hp]

/-- Marks apart, every node is what it was. -/
theorem Unmarked.map_nodeAt? {α : Type} (h : Unmarked p g g') {f : Node → α}
    (hf : ∀ n, f (unmark n) = f n) (j : Nat) : (g'.nodeAt? j).map f = (g.nodeAt? j).map f := by
  by_cases hj : p j
  · rw [h.cleared j hj, Option.map_map]
    exact congrArg (fun f => (g.nodeAt? j).map f) (funext hf)
  · rw [h.others j hj]

theorem Unmarked.owns_iff (h : Unmarked p g g') : g'.Owns j i ↔ g.Owns j i :=
  owns_congr (h.map_nodeAt? fun _ => rfl) h.handleAt

theorem Nested.unmarked_clearAround (h : g.Nested) (i : Nat) :
    Unmarked (g.Owns · i) g (g.clearAround i) := by
  rw [h.clearAround]
  cases ho : (g.nodeAt? i).bind Node.owner with
  | none =>
    refine ⟨rfl, rfl, fun _ => rfl, fun j hj => ?_, fun _ _ => rfl⟩
    obtain ⟨n, hn, hown⟩ := Option.map_eq_some_iff.mp hj
    rw [hn, Option.bind_some, hown] at ho
    cases ho
  | some o =>
    obtain ⟨n, hn, hown⟩ := Option.bind_eq_some_iff.mp ho
    obtain ⟨-, m, hm, -⟩ := h.owned _ n o (node_handleAt.mpr hn) hown
    -- the owner is alive, so its slot is the one that its handle names
    have hiff : ∀ j, g.Owns j i ↔ o.index = j := by
      intro j
      rw [Owns, hn, Option.map_some, hown, Option.some_inj, Option.some_inj]
      constructor
      · intro heq
        rw [heq]
        rfl
      · rintro rfl
        exact (handleAt_of_node hm).symm
    refine ⟨rfl, rfl, fun j => handleAt_modifyAt g o.index j unmark, fun j hj => ?_, fun j hj => ?_⟩
    · exact (nodeAt?_modifyAt g o.index j unmark).trans (if_pos ((hiff j).mp hj))
    · exact (nodeAt?_modifyAt g o.index j unmark).trans (if_neg fun hoj => hj ((hiff j).mpr hoj))

theorem Nested.nested_clearAround (h : g.Nested) (i : Nat) : (g.clearAround i).Nested := by
  rw [h.clearAround]
  cases (g.nodeAt? i).bind Node.owner with
  | none => exact h
  | some o => exact h.modifyAt (f := unmark) (fun _ => ⟨rfl, rfl⟩) o.index

/-- **Exactly the owners of processed nodes lose their marks.** -/
theorem Nested.unmarked_foldl (h : g.Nested) (l : List Nat) :
    Unmarked (fun j => ∃ i ∈ l, g.Owns j i) g (l.foldl Graph.clearAround g) := by
  induction l generalizing g with
  | nil =>
    refine ⟨rfl, rfl, fun _ => rfl, ?_, fun _ _ => rfl⟩
    rintro j ⟨i, hi, -⟩
    cases hi
  | cons i rest ih =>
    have hfirst := h.unmarked_clearAround i
    have hboth := hfirst.trans (ih (h.nested_clearAround i))
    have hiff : ∀ j, (∃ k ∈ i :: rest, g.Owns j k) ↔
        g.Owns j i ∨ ∃ k ∈ rest, (g.clearAround i).Owns j k := by
      intro j
      rw [List.exists_mem_cons_iff]
      simp only [hfirst.owns_iff]
    simp only [hiff]
    exact hboth

end Unmarked

/-! ## A whole block -/

/-- Blocks leave every node to its owner. -/
theorem PullStep.map_owner (h : PullStep g g') (i : Nat) :
    (g'.nodeAt? i).map Node.owner = (g.nodeAt? i).map Node.owner := by
  cases h with
  | played hw =>
    cases hn : g.nodeAt? i with
    | some n =>
      obtain ⟨n', hn', hp⟩ := hw.forth i n hn
      rw [hn', Option.map_some, Option.map_some, hp.owner]
    | none =>
      cases hn' : g'.nodeAt? i with
      | none => rfl
      | some n' =>
        obtain ⟨n, hsome, -⟩ := hw.back i n' hn'
        cases hn.symm.trans hsome
  | arranged k n q hn hk happly =>
    obtain ⟨f, rfl, hf⟩ := applyLayoutAt_eq_modifyAt happly
    rw [nodeAt?_modifyAt]
    split
    · rw [Option.map_map]
      exact congrArg (fun o => (g.nodeAt? i).map o) (funext hf)
    · rfl

theorem Pulled.map_owner (h : Pulled g g') (i : Nat) :
    (g'.nodeAt? i).map Node.owner = (g.nodeAt? i).map Node.owner := by
  induction h with
  | refl => rfl
  | tail _ hstep ih => rw [hstep.map_owner, ih]

/-- The graph at the start of a block: scheduled for its root, with the block counted. -/
def begun (g : Graph) (root : Nat) : Graph :=
  let g := g.scheduleFor root
  { g with blocks := g.blocks + 1 }

/-- The first half of a block: nodes are given the layouts they ask for.  The result names the root,
and the first node whose layout was refused. -/
def prepare (g : Graph) (id : NodeId) : Except Failure (Nat × Graph × Option (Nat × Error)) := do
  let i ← g.index id
  let root ← g.sourceSide i
  let (g, refused) ← proposeAll (g.begun root).schedule (g.begun root)
  return (root, g, refused)

/-- The second half of a block that is not given up. -/
def play (g : Graph) : Except Failure Graph := do
  let g ← (g.schedule.foldlM processAt g : Except Abort Graph)
  return g.schedule.foldl clearAround g

/-- **A block is given up exactly if a layout was refused, and is played otherwise.** -/
theorem pull_eq_prepare (g : Graph) (id : NodeId) : g.pull id = (do
    let (root, ready, refused) ← g.prepare id
    match refused with
    | some (culprit, error) => return ready.abandon root (g.scheduleFor root).blocks culprit error
    | none => ready.play) := by
  simp only [pull, prepare, bind_assoc, pure_bind]
  rfl

theorem prepare_eq_ok {id : NodeId} {root : Nat} {ready : Graph} {refused : Option (Nat × Error)} :
    g.prepare id = .ok (root, ready, refused) ↔
      g.index id = .ok id.index ∧ g.sourceSide id.index = .ok root ∧
        proposeAll (g.begun root).schedule (g.begun root) = .ok (ready, refused) := by
  unfold prepare
  simp only [bind_eq_ok, liftM_error_eq_ok, liftM_abort_eq_ok, pure_eq_ok]
  constructor
  · rintro ⟨i, hi, _, hroot, ⟨_, _⟩, hpropose, heq⟩
    cases heq
    obtain rfl := (index_eq_ok.mp hi).2
    exact ⟨hi, hroot, hpropose⟩
  · rintro ⟨hi, hroot, hpropose⟩
    exact ⟨_, hi, root, hroot, _, hpropose, rfl⟩

/-- A block that is begun has its nodes and connections yet to be touched. -/
structure Begun (g g' : Graph) (root : Nat) : Prop where
  nodeAt? : g'.nodeAt? = g.nodeAt?
  handleAt : g'.handleAt = g.handleAt
  edges : g'.edges = g.edges
  rings : g'.rings = g.rings
  rate : g'.sampleRate = g.sampleRate
  schedule : g'.schedule = g.pullOrder root

theorem Sound.begun (h : g.Sound) (root : Nat) : Begun g (g.begun root) root := by
  rw [Graph.begun, Graph.scheduleFor]
  split
  · next hroot => exact ⟨rfl, rfl, rfl, rfl, rfl, h.schedule root hroot⟩
  · exact ⟨rfl, rfl, rfl, rfl, rfl, rfl⟩

/-- `ready` is `g` once its nodes were given the layouts they asked for in a block for `root`. -/
structure Prepared (g : Graph) (root : Nat) (ready : Graph) : Prop where
  sound : ready.Sound
  edges : ready.edges = g.edges
  handleAt : ∀ j, ready.handleAt j = g.handleAt j
  rate : ready.sampleRate = g.sampleRate
  rings : ready.rings = g.rings
  owner : ∀ i, (ready.nodeAt? i).map Node.owner = (g.nodeAt? i).map Node.owner
  nodup : ready.schedule.Nodup
  sorted : ready.Sorted ready.schedule
  before : ∀ e ∈ g.edges, Leads g.edges e.target root →
    ready.schedule.idxOf e.source < ready.schedule.idxOf e.target
  scheduled : ∀ {i}, i ∈ ready.schedule ↔ Leads g.edges i root
  pulled : ∃ n, ready.nodeAt? root = some n
  nodes : ∀ j, ¬ Leads g.edges j root → ready.nodeAt? j = g.nodeAt? j

theorem Sound.prepared (h : g.Sound) {id : NodeId} {root : Nat} {ready : Graph}
    {refused : Option (Nat × Error)} (hready : g.prepare id = .ok (root, ready, refused)) :
    Prepared g root ready := by
  obtain ⟨hindex, hside, hpropose⟩ := prepare_eq_ok.mp hready
  obtain ⟨n₀, hn₀⟩ := (index_eq_ok.mp hindex).1
  obtain ⟨m₀, hm₀⟩ := h.nested.exists_sourceEnd hn₀
  rw [h.nested.sourceSide hn₀] at hside
  cases hside
  generalize n₀.sourceEnd id = root at hpropose hm₀ ⊢
  have hroot := lt_of_nodeAt? hm₀
  have hbegun := h.begun root
  have hbeside := beside_proposeAll hpropose
  have hpulled : Pulled (g.scheduleFor root) ready :=
    .head (pullStep_books _ _ _ _) (pulled_proposeAll hpropose)
  have hsound := (h.scheduleFor hm₀).pulled hpulled
  have hschedule : ready.schedule = g.pullOrder root := hbeside.schedule.trans hbegun.schedule
  have hedges : ready.edges = g.edges := hbeside.edges.trans hbegun.edges
  have hscheduled : ∀ {i}, i ∈ ready.schedule ↔ Leads g.edges i root := by
    intro i
    rw [hschedule]
    exact mem_pullOrder_iff h.acyclic h.wellFormed.source_lt hroot
  have howner : ∀ i, (ready.nodeAt? i).map Node.owner = (g.nodeAt? i).map Node.owner := by
    intro i
    rw [(pulled_proposeAll hpropose).map_owner, hbegun.nodeAt?]
  refine ⟨hsound, hedges, fun j => ?_, hbeside.rate.trans hbegun.rate,
    (rings_proposeAll hpropose).trans hbegun.rings, howner, ?_, ?_, fun e he ht => ?_, hscheduled,
    ?_, fun j hj => ?_⟩
  · rw [hbeside.handleAt, hbegun.handleAt]
  · rw [hschedule]
    exact nodup_pullOrder h.acyclic h.wellFormed.source_lt hroot
  · intro l₁ i l₂ hsplit e he
    rw [incoming, hedges] at he
    exact h.sorted_pullOrder hroot l₁ i l₂ (hschedule ▸ hsplit) e he
  · rw [← hscheduled, hschedule] at ht
    rw [hschedule]
    exact idxOf_pullOrder_lt h.acyclic h.wellFormed.source_lt hroot he ht
  · have halive := howner root
    rw [hm₀] at halive
    obtain ⟨n, hn, -⟩ := Option.map_eq_some_iff.mp halive
    exact ⟨n, hn⟩
  · rw [hbeside.nodes j, hbegun.nodeAt?]
    rwa [hbegun.schedule, ← hschedule, hscheduled]

/-- Whatever leads to the root is alive. -/
theorem Prepared.exists_nodeAt? {root : Nat} {ready : Graph} (h : Prepared g root ready)
    (hi : Leads g.edges i root) : ∃ n, ready.nodeAt? i = some n := by
  rcases ReflTransGen.cases_head hi with rfl | ⟨k, ⟨e, he, rfl, rfl⟩, -⟩
  · exact h.pulled
  · obtain ⟨source, _, _, _, hr, -⟩ := h.sound.wellFormed.inReach (e := e) (by rwa [h.edges])
    exact ⟨source, hr.begins⟩

/-- `after` is `g` after one block for `root`, which was played from `ready`. -/
structure Evaluated (g : Graph) (root : Nat) (ready after : Graph) : Prop where
  edges : after.edges = g.edges
  handles : ∀ j, after.handleAt j = g.handleAt j
  /-- Exactly the nodes that lead to the root are processed, each once. -/
  once : ∃ (order : List Nat) (done : Graph), order.Nodup ∧
    (∀ i, i ∈ order ↔ Leads g.edges i root) ∧
    order.foldlM processAt ready = .ok done ∧ after = order.foldl clearAround done
  /-- A connection brings a block to every channel that its input slot covers, and to no other. -/
  brings : ∀ e ∈ after.edges, ∃ source target output input,
    after.InReach e source target output input ∧ output.count = input.count ∧
      ∀ c, after.brings? c e = if input.start ≤ c ∧ c < input.start + input.count then
        source.outputs[output.start + (c - input.start)]? else none
  /-- A processed node hears what its connections bring in the end, and made its outputs of that. -/
  computed : ∀ i, Leads g.edges i root → ∃ n n' rings rings', ready.nodeAt? i = some n ∧
    after.nodeAt? i = some n' ∧ Turn g.sampleRate rings n'.inputs n n' rings' ∧
    n'.inputs.length = n'.layout.inputs ∧
    (∀ c < n'.layout.inputs, n'.inputs[c]? = some (after.heard i c)) ∧
    ∀ r, ready.NoSink (fun j => Leads g.edges j root ∧ j ≠ i) r →
      rings[r]? = g.rings[r]? ∧ after.rings[r]? = rings'[r]?
  /-- All other nodes are what they were, marks of owners apart. -/
  kept : ∀ j, ¬ Leads g.edges j root →
    ((∃ i, Leads g.edges i root ∧ g.Owns j i) → after.nodeAt? j = (g.nodeAt? j).map unmark) ∧
    ((¬ ∃ i, Leads g.edges i root ∧ g.Owns j i) → after.nodeAt? j = g.nodeAt? j)
  rings : ∀ r, ready.NoSink (Leads g.edges · root) r → after.rings[r]? = g.rings[r]?

/-- **A block that is not given up evaluates all nodes that lead to its root, and no others.** -/
theorem Prepared.evaluated {root : Nat} {ready after : Graph} (h : Prepared g root ready)
    (hplay : ready.play = .ok after) : Evaluated g root ready after := by
  obtain ⟨done, hdone, hplay⟩ := bind_eq_ok.mp hplay
  have hdone := liftM_abort_eq_ok.mp hdone
  have hbeside := beside_foldlM_processAt hdone
  have hpulled := pulled_foldlM_processAt hdone
  have hsound : done.Sound := h.sound.pulled hpulled
  have hafter : after = ready.schedule.foldl clearAround done := by
    rw [← hbeside.schedule]
    exact (pure_eq_ok.mp hplay).symm
  have hunmarked : Unmarked (fun j => ∃ i ∈ ready.schedule, done.Owns j i) done after :=
    hafter ▸ hsound.nested.unmarked_foldl ready.schedule
  have hedges : after.edges = g.edges := hunmarked.edges.trans (hbeside.edges.trans h.edges)
  have hhandles : ∀ j, after.handleAt j = g.handleAt j := by
    intro j
    rw [hunmarked.handleAt, hbeside.handleAt, h.handleAt]
  have howns : ∀ {j i}, done.Owns j i ↔ g.Owns j i := by
    refine owns_congr (fun i => ?_) fun j => ?_
    · rw [hpulled.map_owner, h.owner]
    · rw [hbeside.handleAt, h.handleAt]
  have hview := hunmarked.map_nodeAt? (f := fun n => (n.layout, n.outputs)) fun _ => rfl
  have hlayout : ∀ i, after.layoutAt i = done.layoutAt i := by
    intro i
    rw [layoutAt, layoutAt, hunmarked.map_nodeAt? (f := Node.layout) fun _ => rfl]
  have hwf : after.WellFormed :=
    (hsound.pulled (hafter ▸ pulled_clearAround ready.schedule done)).wellFormed
  refine ⟨hedges, hhandles, ⟨ready.schedule, done, h.nodup, fun i => h.scheduled, hdone, hafter⟩,
    fun e he => hwf.brings?_eq he, fun i hi => ?_, fun j hj => ?_, fun r hr => ?_⟩
  · obtain ⟨n, hn⟩ := h.exists_nodeAt? hi
    obtain ⟨n', rings, rings', hn', hturn, hlen, hheard, hrings⟩ :=
      h.sound.turn_of_foldlM h.nodup h.sorted hdone (h.scheduled.mpr hi) hn
    have hplain : unmark n' = n' := by
      rw [unmark, hturn.properties, Properties.clearModified_clearModified, ← hturn.properties]
    have hlast : after.nodeAt? i = some n' := by
      by_cases howner : ∃ k ∈ ready.schedule, done.Owns i k
      · rw [hunmarked.cleared i howner, hn', Option.map_some, hplain]
      · rw [hunmarked.others i howner, hn']
    have hinputs : n'.layout.inputs = n.inputs.length := by
      rw [hturn.layout, (h.sound.wellFormed.fits i n hn).inputs]
    rw [h.rate] at hturn
    refine ⟨n, n', rings, rings', hn, hlast, hturn, by rw [hlen, hinputs], fun c hc => ?_,
      fun r hr => ?_⟩
    · rw [heard_congr hunmarked.edges (fun e _ => hview e.source) (hlayout i)]
      exact hheard c (hinputs ▸ hc)
    · rw [← h.rings, hunmarked.rings]
      exact hrings r fun j hj => hr j ⟨h.scheduled.mp hj.1, hj.2⟩
  · have hold : done.nodeAt? j = g.nodeAt? j := by
      rw [hbeside.nodes j (fun hmem => hj (h.scheduled.mp hmem)), h.nodes j hj]
    rw [← hold]
    refine ⟨?_, fun hnone => ?_⟩
    · rintro ⟨i, hi, howner⟩
      exact hunmarked.cleared j ⟨i, h.scheduled.mpr hi, howns.mpr howner⟩
    · refine hunmarked.others j ?_
      rintro ⟨i, hi, howner⟩
      exact hnone ⟨i, h.scheduled.mp hi, howns.mp howner⟩
  · rw [hunmarked.rings, ← h.rings]
    exact NoSink.getElem?_rings (fun j hj => hr j (h.scheduled.mp hj)) h.nodup hdone

end Graph

open SpatialAudio.Graph

/-- The bits of the first sample of every output of a node. -/
def Graph.firstSamples (g : Graph) (i : Nat) : Option (List UInt32) :=
  (g.nodeAt? i).map fun n => n.outputs.map fun b => b[0].toBits

/-- Two players into one gain. -/
def twoPlayers : Session :=
  let s := ((Session.new 44100 64).step (.create "a" (.samplePlayer #[1]))).2
  let s := (s.step (.create "b" (.samplePlayer #[2]))).2
  let s := (s.step (.create "c" (.gain 1))).2
  let s := (s.step (.command (.connect "a" 0 "c" 0))).2
  let s := (s.step (.command (.connect "b" 0 "c" 0))).2
  (s.step (.command (.set "c" .mul (.float 3)))).2

theorem reachable_twoPlayers : twoPlayers.Reachable :=
  .step (.step (.step (.step (.step (.step (.new 44100 64) _) _) _) _) _) _

end SpatialAudio
