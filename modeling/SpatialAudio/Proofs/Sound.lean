import SpatialAudio.Proofs.PullOrder
import SpatialAudio.Proofs.WellFormed

/-!
# Proofs/Sound — what all operations on a graph keep

A graph is **coherent** if its arena is in order, it is well-formed, its connections are listed once
and close no cycle, subgraphs are nested one deep, and the node it was last pulled from is alive.  It
is **sound** if besides its schedule is the pull order of that node.

Operations that change no layout, no connection and no ownership keep all of this at once
(`Within`, `Alike`); layouts, connections and schedules are taken one by one below.
-/

namespace SpatialAudio

open Relation

/-- Two states of a node with one layout and equally many blocks. -/
structure Node.SameShape (n n' : Node) : Prop where
  layout : n'.layout = n.layout
  inputs : n'.inputs.length = n.inputs.length
  outputs : n'.outputs.length = n.outputs.length

/-- Two states of a node that besides have one owner and one interior. -/
structure Node.Alike (n n' : Node) : Prop extends n.SameShape n' where
  owner : n'.owner = n.owner
  interior : n'.interior = n.interior

/-- Where the connections that leave a node begin. -/
def Node.sourceEnd (n : Node) (id : NodeId) : Nat :=
  match n.interior with
  | some e => e.output.index
  | none => id.index

/-- Where the connections that enter a node end. -/
def Node.targetEnd (n : Node) (id : NodeId) : Nat :=
  match n.interior with
  | some e => e.input.index
  | none => id.index

theorem Node.sourceEnd_of_plain {n : Node} (h : n.interior = none) (id : NodeId) :
    n.sourceEnd id = id.index := by
  rw [sourceEnd, h]

theorem Node.targetEnd_of_plain {n : Node} (h : n.interior = none) (id : NodeId) :
    n.targetEnd id = id.index := by
  rw [targetEnd, h]

theorem Node.SameShape.refl (n : Node) : n.SameShape n := ⟨rfl, rfl, rfl⟩

theorem Node.SameShape.trans {n n' n'' : Node} (h : n.SameShape n') (h' : n'.SameShape n'') :
    n.SameShape n'' :=
  ⟨h'.layout.trans h.layout, h'.inputs.trans h.inputs, h'.outputs.trans h.outputs⟩

theorem Node.Alike.refl (n : Node) : n.Alike n := ⟨.refl n, rfl, rfl⟩

namespace Graph

/-- Subgraphs are nested one deep: the ends of a subgraph are alive, private to it, and no subgraphs;
a private node is no subgraph, and its owner is alive and is one. -/
structure Nested (g : Graph) : Prop where
  ends : ∀ id n e, g.node id = .ok n → n.interior = some e → ∀ x, x = e.input ∨ x = e.output →
    ∃ m, g.node x = .ok m ∧ m.interior = none ∧ m.owner = some id
  owned : ∀ id n o, g.node id = .ok n → n.owner = some o →
    n.interior = none ∧ ∃ m, g.node o = .ok m ∧ m.interior ≠ none

/-- All that does not depend on the schedule. -/
structure Coherent (g : Graph) : Prop where
  arena : g.Arena
  wellFormed : g.WellFormed
  nodup : g.edges.Nodup
  acyclic : Acyclic g.edges
  nested : g.Nested
  root : ∀ r, g.root = some r → ∃ n, g.nodeAt? r = some n

/-- Coherent, and the schedule is the pull order of the root. -/
structure Sound (g : Graph) : Prop extends Coherent g where
  schedule : ∀ r, g.root = some r → g.schedule = g.pullOrder r

variable {g g' g'' : Graph} {i j : Nat} {n : Node} {l : Layout}

theorem sound_new (rate capacity : Nat) : (Graph.new rate capacity).Sound where
  arena := ⟨by simp [Graph.new], by simp [Graph.new]⟩
  wellFormed := ⟨by simp [Graph.new, nodeAt?], by simp [Graph.new]⟩
  nodup := by simp [Graph.new]
  acyclic := by
    rintro i hi
    obtain ⟨k, ⟨e, he, -, -⟩, -⟩ := TransGen.head'_iff.mp hi
    exact absurd he List.not_mem_nil
  nested :=
    ⟨fun id n e h => by simp [Graph.new, node] at h, fun id n o h => by simp [Graph.new, node] at h⟩
  root := by simp [Graph.new]
  schedule := by simp [Graph.new]

/-- Graphs with the same living handles, owners and interiors are nested alike. -/
theorem Nested.transfer (h : g.Nested)
    (forth : ∀ {id n}, g.node id = .ok n →
      ∃ n', g'.node id = .ok n' ∧ n'.owner = n.owner ∧ n'.interior = n.interior)
    (back : ∀ {id n'}, g'.node id = .ok n' →
      ∃ n, g.node id = .ok n ∧ n'.owner = n.owner ∧ n'.interior = n.interior) : g'.Nested where
  ends id n' e hn' he x hx := by
    obtain ⟨n, hn, -, hint⟩ := back hn'
    obtain ⟨m, hm, hmi, hmo⟩ := h.ends id n e hn (hint.symm.trans he) x hx
    obtain ⟨m', hm', hown, hint'⟩ := forth hm
    exact ⟨m', hm', hint'.trans hmi, hown.trans hmo⟩
  owned id n' o hn' ho := by
    obtain ⟨n, hn, hown, hint⟩ := back hn'
    obtain ⟨hni, m, hm, hsome⟩ := h.owned id n o hn (hown.symm.trans ho)
    obtain ⟨m', hm', -, hint'⟩ := forth hm
    exact ⟨hint.trans hni, m', hm', by rw [hint']; exact hsome⟩

theorem Nested.congr (h : g.Nested) (hnode : ∀ id n, g'.node id = .ok n ↔ g.node id = .ok n) :
    g'.Nested :=
  h.transfer (fun hn => ⟨_, (hnode _ _).mpr hn, rfl, rfl⟩)
    fun hn => ⟨_, (hnode _ _).mp hn, rfl, rfl⟩

/-- A change of a node that leaves its owner and interior alone. -/
theorem Nested.modifyAt (h : g.Nested) {f : Node → Node}
    (hf : ∀ n : Node, (f n).owner = n.owner ∧ (f n).interior = n.interior) (i : Nat) :
    (g.modifyAt i f).Nested := by
  refine h.transfer (fun {id n} hn => ?_) fun {id n'} hn' => ?_
  · obtain ⟨hat, hid⟩ := node_eq_ok.mp hn
    by_cases hi : i = id.index
    · refine ⟨f n, node_eq_ok.mpr ⟨?_, by rw [handleAt_modifyAt]; exact hid⟩, hf n⟩
      rw [nodeAt?_modifyAt, if_pos hi, hat]
      rfl
    · refine ⟨n, node_eq_ok.mpr ⟨?_, by rw [handleAt_modifyAt]; exact hid⟩, rfl, rfl⟩
      rw [nodeAt?_modifyAt, if_neg hi, hat]
  · obtain ⟨hat, hid⟩ := node_eq_ok.mp hn'
    rw [handleAt_modifyAt] at hid
    rw [nodeAt?_modifyAt] at hat
    split at hat
    · obtain ⟨n, hn, rfl⟩ := Option.map_eq_some_iff.mp hat
      exact ⟨n, node_eq_ok.mpr ⟨hn, hid⟩, hf n⟩
    · exact ⟨n', node_eq_ok.mpr ⟨hat, hid⟩, rfl, rfl⟩

/-- The order of a root does not change as long as the connections and the arena's size do not. -/
theorem Coherent.pullOrder_eq (h : g.Coherent) (he : g'.edges = g.edges)
    (hlen : g.slots.length ≤ g'.slots.length) {r : Nat} (hr : g.root = some r) :
    g'.pullOrder r = g.pullOrder r := by
  obtain ⟨n, hn⟩ := h.root r hr
  have hlt := lt_of_nodeAt? hn
  exact pullOrder_congr h.wellFormed.source_lt hlt he
    (fun e hedge => Nat.lt_of_lt_of_le (h.wellFormed.source_lt e hedge) hlen)
    (Nat.lt_of_lt_of_le hlt hlen)

/-! ## Changes within nodes -/

/-- Two graphs that differ only in what their nodes hold, each state of a node being related to the
other. -/
structure Within (R : Node → Node → Prop) (g g' : Graph) : Prop where
  edges : g'.edges = g.edges
  vacant : g'.vacant = g.vacant
  root : g'.root = g.root
  schedule : g'.schedule = g.schedule
  length : g'.slots.length = g.slots.length
  handleAt : ∀ i, g'.handleAt i = g.handleAt i
  forth : ∀ i n, g.nodeAt? i = some n → ∃ n', g'.nodeAt? i = some n' ∧ R n n'
  back : ∀ i n', g'.nodeAt? i = some n' → ∃ n, g.nodeAt? i = some n ∧ R n n'

/-- Two graphs that differ neither in layouts nor in connections nor in ownership. -/
abbrev Alike (g g' : Graph) : Prop := Within Node.Alike g g'

section Within

variable {R : Node → Node → Prop}

theorem Within.refl (hR : ∀ n, R n n) (g : Graph) : Within R g g :=
  ⟨rfl, rfl, rfl, rfl, rfl, fun _ => rfl, fun _ n h => ⟨n, h, hR n⟩, fun _ n h => ⟨n, h, hR n⟩⟩

theorem Within.trans (hR : ∀ {n n' n'' : Node}, R n n' → R n' n'' → R n n'') (h : Within R g g')
    (h' : Within R g' g'') : Within R g g'' where
  edges := h'.edges.trans h.edges
  vacant := h'.vacant.trans h.vacant
  root := h'.root.trans h.root
  schedule := h'.schedule.trans h.schedule
  length := h'.length.trans h.length
  handleAt i := (h'.handleAt i).trans (h.handleAt i)
  forth i n hn := by
    obtain ⟨n', hn', ha⟩ := h.forth i n hn
    obtain ⟨n'', hn'', ha'⟩ := h'.forth i n' hn'
    exact ⟨n'', hn'', hR ha ha'⟩
  back i n'' hn'' := by
    obtain ⟨n', hn', ha'⟩ := h'.back i n'' hn''
    obtain ⟨n, hn, ha⟩ := h.back i n' hn'
    exact ⟨n, hn, hR ha ha'⟩

theorem within_modifyAt (hR : ∀ n, R n n) {f : Node → Node}
    (hf : ∀ n, g.nodeAt? i = some n → R n (f n)) : Within R g (g.modifyAt i f) where
  edges := rfl
  vacant := rfl
  root := rfl
  schedule := rfl
  length := length_modifyAt g i f
  handleAt j := handleAt_modifyAt g i j f
  forth j n hn := by
    rw [nodeAt?_modifyAt]
    split
    · next hij => exact ⟨f n, by rw [hn]; rfl, hf n (hij ▸ hn)⟩
    · exact ⟨n, hn, hR n⟩
  back j n' hn' := by
    rw [nodeAt?_modifyAt] at hn'
    split at hn'
    · next hij =>
      obtain ⟨n, hn, rfl⟩ := Option.map_eq_some_iff.mp hn'
      exact ⟨n, hn, hf n (hij ▸ hn)⟩
    · exact ⟨n', hn', hR n'⟩

theorem Within.node_forth (h : Within R g g') {id : NodeId} (hn : g.node id = .ok n) :
    ∃ n', g'.node id = .ok n' ∧ R n n' := by
  obtain ⟨hat, hid⟩ := node_eq_ok.mp hn
  obtain ⟨n', hn', ha⟩ := h.forth _ n hat
  exact ⟨n', node_eq_ok.mpr ⟨hn', (h.handleAt _).trans hid⟩, ha⟩

theorem Within.node_back (h : Within R g g') {id : NodeId} {n' : Node} (hn : g'.node id = .ok n') :
    ∃ n, g.node id = .ok n ∧ R n n' := by
  obtain ⟨hat, hid⟩ := node_eq_ok.mp hn
  obtain ⟨n, hn, ha⟩ := h.back _ n' hat
  exact ⟨n, node_eq_ok.mpr ⟨hn, (h.handleAt _).symm.trans hid⟩, ha⟩

theorem Within.layoutAt (h : Within R g g') (hR : ∀ {n n' : Node}, R n n' → n.SameShape n')
    (i : Nat) : g'.layoutAt i = g.layoutAt i := by
  rw [Graph.layoutAt, Graph.layoutAt]
  cases hn : g.nodeAt? i with
  | some n =>
    obtain ⟨n', hn', ha⟩ := h.forth i n hn
    rw [hn', Option.map_some, Option.map_some, (hR ha).layout]
  | none =>
    cases hn' : g'.nodeAt? i with
    | none => rfl
    | some n' =>
      obtain ⟨n, hsome, -⟩ := h.back i n' hn'
      rw [hn] at hsome
      cases hsome

/-- **A change within nodes that keeps their shape keeps a graph sound**, as long as its subgraphs
are nested. -/
theorem Sound.within (h : g.Sound) (hR : ∀ {n n' : Node}, R n n' → n.SameShape n')
    (ha : Within R g g') (hnested : g'.Nested) : g'.Sound where
  arena := by
    refine ⟨fun i hi => ?_, by rw [ha.vacant]; exact h.arena.nodup⟩
    rw [ha.vacant] at hi
    obtain ⟨hlt, hnone⟩ := h.arena.vacant i hi
    refine ⟨by rw [ha.length]; exact hlt, ?_⟩
    cases hn : g'.nodeAt? i with
    | none => rfl
    | some n' =>
      obtain ⟨n, hsome, -⟩ := ha.back i n' hn
      rw [hnone] at hsome
      cases hsome
  wellFormed := by
    refine ⟨fun i n' hn' => ?_, fun e he => ?_⟩
    · obtain ⟨n, hn, hal⟩ := ha.back i n' hn'
      obtain ⟨hl, hi, ho⟩ := h.wellFormed.fits i n hn
      obtain ⟨hlayout, hin, hout⟩ := hR hal
      exact ⟨by rw [hlayout]; exact hl, by rw [hin, hlayout]; exact hi,
        by rw [hout, hlayout]; exact ho⟩
    · rw [ha.edges] at he
      exact (h.wellFormed.joins e he).congr (ha.layoutAt hR _) (ha.layoutAt hR _)
  nodup := by rw [ha.edges]; exact h.nodup
  acyclic := by rw [ha.edges]; exact h.acyclic
  nested := hnested
  root := by
    intro r hr
    rw [ha.root] at hr
    obtain ⟨n, hn⟩ := h.root r hr
    obtain ⟨n', hn', -⟩ := ha.forth r n hn
    exact ⟨n', hn'⟩
  schedule := by
    intro r hr
    rw [ha.root] at hr
    rw [ha.schedule, h.schedule r hr,
      h.pullOrder_eq ha.edges (Nat.le_of_eq ha.length.symm) hr]

end Within

/-- A change that looks alike whatever node it meets. -/
theorem alike_modifyAt {f : Node → Node} (hf : ∀ n : Node, n.Alike (f n)) (i : Nat) :
    g.Alike (g.modifyAt i f) := within_modifyAt .refl fun n _ => hf n

theorem Nested.alike (h : g.Nested) (ha : g.Alike g') : g'.Nested := by
  refine h.transfer (fun hn => ?_) fun hn' => ?_
  · obtain ⟨n', hn', hal⟩ := ha.node_forth hn
    exact ⟨n', hn', hal.owner, hal.interior⟩
  · obtain ⟨n, hn, hal⟩ := ha.node_back hn'
    exact ⟨n, hn, hal.owner, hal.interior⟩

/-- **A change within nodes keeps a graph sound.** -/
theorem Sound.alike (h : g.Sound) (ha : g.Alike g') : g'.Sound :=
  h.within Node.Alike.toSameShape ha (h.nested.alike ha)

/-! ## Layouts -/

/-- **An applied layout keeps a graph sound.** -/
theorem Sound.applyLayoutAt (h : g.Sound) (hi : g.nodeAt? i = some n)
    (happly : g.applyLayoutAt i l = .ok g') : g'.Sound := by
  obtain ⟨hl, hedges, rfl⟩ := (applyLayoutAt_eq_ok h.wellFormed hi).mp happly
  by_cases hsame : n.layout = l
  · refine h.alike (within_modifyAt .refl fun m hm => ?_)
    rw [hi] at hm
    cases hm
    rw [rearrange, if_pos hsame]
    exact ⟨⟨rfl, rfl, rfl⟩, rfl, rfl⟩
  · rw [modifyAt_congr hi (arrange l) (by rw [rearrange, if_neg hsame])]
    refine ⟨⟨⟨?_, h.arena.nodup⟩, h.wellFormed.arrange hl hedges hi, h.nodup, h.acyclic, ?_, ?_⟩, ?_⟩
    · intro j hj
      obtain ⟨hlt, hnone⟩ := h.arena.vacant j hj
      rw [length_modifyAt, nodeAt?_modifyAt, hnone]
      exact ⟨hlt, ite_self none⟩
    · refine h.nested.modifyAt ?_ i
      exact fun n => ⟨rfl, rfl⟩
    · intro r hr
      obtain ⟨m, hm⟩ := h.root r hr
      rw [nodeAt?_modifyAt, hm]
      split
      · exact ⟨_, rfl⟩
      · exact ⟨_, rfl⟩
    · intro r hr
      have horder : (g.modifyAt i (arrange l)).pullOrder r = g.pullOrder r :=
        h.pullOrder_eq (edges_modifyAt g i _) (Nat.le_of_eq (length_modifyAt g i _).symm) hr
      rw [horder]
      exact h.schedule r hr

/-! ## Schedules -/

@[simp] theorem edges_reschedule (g : Graph) : g.reschedule.edges = g.edges := by
  rw [reschedule]
  split <;> rfl

@[simp] theorem slots_reschedule (g : Graph) : g.reschedule.slots = g.slots := by
  rw [reschedule]
  split <;> rfl

@[simp] theorem node_reschedule (g : Graph) : g.reschedule.node = g.node := by
  funext id
  rw [node, node, slots_reschedule]

/-- Any living node may be the root, with any schedule. -/
theorem Coherent.withRoot (h : g.Coherent) {root : Option Nat} {schedule : List Nat}
    (hroot : ∀ r, root = some r → ∃ n, g.nodeAt? r = some n) :
    { g with root := root, schedule := schedule }.Coherent :=
  ⟨⟨h.arena.vacant, h.arena.nodup⟩, ⟨h.wellFormed.fits, h.wellFormed.joins⟩, h.nodup, h.acyclic,
    h.nested.congr fun _ _ => Iff.rfl, hroot⟩

/-- **Making the schedule anew makes a coherent graph sound.** -/
theorem Coherent.reschedule (h : g.Coherent) : g.reschedule.Sound := by
  rw [Graph.reschedule]
  split
  · next r hr =>
    refine ⟨h.withRoot h.root, fun r' hr' => ?_⟩
    cases hr.symm.trans hr'
    rfl
  · next hr => exact ⟨h, fun r hr' => absurd hr' (by rw [hr]; simp)⟩

/-- **A living node may be made the root.** -/
theorem Sound.scheduleFor (h : g.Sound) (hi : g.nodeAt? i = some n) : (g.scheduleFor i).Sound := by
  rw [Graph.scheduleFor]
  split
  · exact h
  · refine ⟨h.withRoot fun r hr => ?_, fun r hr => ?_⟩
    · cases hr
      exact ⟨n, hi⟩
    · cases hr
      rfl

/-! ## Connections -/

/-- Connections between existing slots of equal width, each once and without a cycle, may replace
those of a coherent graph. -/
theorem Coherent.withEdges (h : g.Coherent) {edges : List Edge} (hj : ∀ e ∈ edges, g.Joins e)
    (hnd : edges.Nodup) (hac : Acyclic edges) : { g with edges := edges }.Coherent :=
  ⟨⟨h.arena.vacant, h.arena.nodup⟩, ⟨h.wellFormed.fits, hj⟩, hnd, hac,
    h.nested.congr fun _ _ => Iff.rfl, h.root⟩

/-- What a connection is refused for, and what it does otherwise. -/
theorem connectAt_eq_ok {o k : Nat} : g.connectAt i o j k = .ok g' ↔
    ∃ s t, g.sourceSide i = .ok s ∧ g.targetSide j = .ok t ∧ g.Joins ⟨s, o, t, k⟩ ∧
      ¬ Leads g.edges t s ∧
      g' = if ⟨s, o, t, k⟩ ∈ g.edges then g
        else { g with edges := ⟨s, o, t, k⟩ :: g.edges }.reschedule := by
  unfold connectAt
  simp only [bind_eq_ok, slotRange_eq_ok]
  constructor
  · rintro ⟨s, hs, t, ht, r, hr, r', hr', ⟨⟩, hw, hrest⟩
    refine ⟨s, t, hs, ht, ⟨r, r', hr, hr', checkWidth_eq_ok.mp hw⟩, ?_⟩
    split at hrest
    · exact absurd (bind_eq_ok.mp hrest).choose_spec.1 throw_ne_ok
    · next hreach =>
      refine ⟨fun hl => hreach ((reaches_iff g t s).mpr hl), ?_⟩
      split at hrest
      · next hmem => rw [if_pos hmem, pure_eq_ok.mp hrest]
      · next hmem => rw [if_neg hmem, pure_eq_ok.mp hrest]
  · rintro ⟨s, t, hs, ht, ⟨r, r', hr, hr', hw⟩, hno, rfl⟩
    refine ⟨s, hs, t, ht, r, hr, r', hr', (), checkWidth_eq_ok.mpr hw, ?_⟩
    rw [if_neg fun hreach => hno ((reaches_iff g t s).mp hreach)]
    split
    · rfl
    · rfl

/-- **A connection keeps a graph sound.** -/
theorem Sound.connectAt (h : g.Sound) {o k : Nat} (hc : g.connectAt i o j k = .ok g') :
    g'.Sound := by
  obtain ⟨s, t, -, -, hjoin, hno, rfl⟩ := connectAt_eq_ok.mp hc
  split
  · exact h
  · next hmem =>
    refine (h.withEdges ?_ (List.nodup_cons.mpr ⟨hmem, h.nodup⟩) ?_).reschedule
    · exact List.forall_mem_cons.mpr ⟨hjoin, h.wellFormed.joins⟩
    · exact h.acyclic.cons hno

/-- Connecting changes no node. -/
theorem node_connectAt {o k : Nat} (hc : g.connectAt i o j k = .ok g') (x : NodeId) :
    g'.node x = g.node x := by
  obtain ⟨s, t, -, -, -, -, rfl⟩ := connectAt_eq_ok.mp hc
  split
  · rfl
  · rw [node_reschedule]
    rfl

/-- What a disconnection is refused for, and what it does otherwise. -/
theorem disconnectAt_eq_ok {o : Nat} : g.disconnectAt i o = .ok g' ↔
    ∃ s r, g.sourceSide i = .ok s ∧ (g.layoutAt s).outputSlots[o]? = some r ∧
      g' = if ∃ e ∈ g.edges, e.source = s ∧ e.outputSlot = o then
          { g with edges := g.edges.filter fun e => ¬ (e.source = s ∧ e.outputSlot = o) }.reschedule
        else g := by
  unfold disconnectAt
  simp only [bind_eq_ok, slotRange_eq_ok, List.any_eq_true, decide_eq_true_eq]
  constructor
  · rintro ⟨s, hs, r, hr, hrest⟩
    refine ⟨s, r, hs, hr, ?_⟩
    split at hrest
    · next hany =>
      rw [if_pos hany, ← pure_eq_ok.mp hrest]
      simp only [decide_not]
    · next hany => rw [if_neg hany, ← pure_eq_ok.mp hrest]
  · rintro ⟨s, r, hs, hr, rfl⟩
    refine ⟨s, hs, r, hr, ?_⟩
    split
    · simp only [decide_not]
      rfl
    · rfl

/-- Disconnecting changes no node. -/
theorem node_disconnectAt {o : Nat} (hc : g.disconnectAt i o = .ok g') (x : NodeId) :
    g'.node x = g.node x := by
  obtain ⟨s, r, -, -, rfl⟩ := disconnectAt_eq_ok.mp hc
  split
  · rw [node_reschedule]
    rfl
  · rfl

/-- Fewer connections keep a graph coherent. -/
theorem Coherent.filterEdges (h : g.Coherent) (p : Edge → Bool) :
    { g with edges := g.edges.filter p }.Coherent :=
  h.withEdges (fun e he => h.wellFormed.joins e (List.mem_of_mem_filter he)) (h.nodup.filter p)
    (h.acyclic.mono fun _ => List.mem_of_mem_filter)

/-- **A disconnection keeps a graph sound.** -/
theorem Sound.disconnectAt (h : g.Sound) {o : Nat} (hc : g.disconnectAt i o = .ok g') :
    g'.Sound := by
  obtain ⟨s, r, -, -, rfl⟩ := disconnectAt_eq_ok.mp hc
  split
  · exact (h.filterEdges _).reschedule
  · exact h

/-- Nodes of a subgraph are connected only from within. -/
theorem connect_eq_ok {a b : NodeId} {o k : Nat} : g.connect a o b k = .ok g' ↔
    (∃ n, g.node a = .ok n ∧ n.owner = none) ∧ (∃ n, g.node b = .ok n ∧ n.owner = none) ∧
      g.connectAt a.index o b.index k = .ok g' := by
  simp only [connect, bind_eq_ok, publicIndex_eq_ok]
  constructor
  · rintro ⟨i, ⟨ha, rfl⟩, j, ⟨hb, rfl⟩, hc⟩
    exact ⟨ha, hb, hc⟩
  · rintro ⟨ha, hb, hc⟩
    exact ⟨_, ⟨ha, rfl⟩, _, ⟨hb, rfl⟩, hc⟩

theorem connectInterior_eq_ok {a b : NodeId} {o k : Nat} : g.connectInterior a o b k = .ok g' ↔
    (∃ n, g.node a = .ok n) ∧ (∃ n, g.node b = .ok n) ∧
      g.connectAt a.index o b.index k = .ok g' := by
  simp only [connectInterior, bind_eq_ok, index_eq_ok]
  constructor
  · rintro ⟨i, ⟨ha, rfl⟩, j, ⟨hb, rfl⟩, hc⟩
    exact ⟨ha, hb, hc⟩
  · rintro ⟨ha, hb, hc⟩
    exact ⟨_, ⟨ha, rfl⟩, _, ⟨hb, rfl⟩, hc⟩

theorem disconnect_eq_ok {a : NodeId} {o : Nat} : g.disconnect a o = .ok g' ↔
    (∃ n, g.node a = .ok n ∧ n.owner = none) ∧ g.disconnectAt a.index o = .ok g' := by
  simp only [disconnect, bind_eq_ok, publicIndex_eq_ok]
  constructor
  · rintro ⟨i, ⟨ha, rfl⟩, hc⟩
    exact ⟨ha, hc⟩
  · rintro ⟨ha, hc⟩
    exact ⟨_, ⟨ha, rfl⟩, hc⟩

theorem disconnectInterior_eq_ok {a : NodeId} {o : Nat} : g.disconnectInterior a o = .ok g' ↔
    (∃ n, g.node a = .ok n) ∧ g.disconnectAt a.index o = .ok g' := by
  simp only [disconnectInterior, bind_eq_ok, index_eq_ok]
  constructor
  · rintro ⟨i, ⟨ha, rfl⟩, hc⟩
    exact ⟨ha, hc⟩
  · rintro ⟨ha, hc⟩
    exact ⟨_, ⟨ha, rfl⟩, hc⟩

/-! ## Redirection -/

/-- **Both ends of a connection are found within one step**, because a subgraph's ends are none. -/
theorem Nested.redirect (h : g.Nested) {id : NodeId} (hn : g.node id = .ok n)
    {side : Interior → NodeId} (hside : ∀ e : Interior, side e = e.input ∨ side e = e.output)
    {depth : Nat} (hd : 0 < depth) :
    g.redirect side depth id.index
      = .ok (match n.interior with
        | some e => (side e).index
        | none => id.index) := by
  obtain ⟨depth, rfl⟩ := Nat.exists_eq_succ_of_ne_zero (Nat.ne_of_gt hd)
  rw [Graph.redirect, nodeAt?_of_node hn]
  cases he : n.interior with
  | none => simp [he]
  | some e =>
    obtain ⟨m, hm, hint, -⟩ := h.ends id n e hn he (side e) (hside e)
    have hindex : g.index (side e) = .ok (side e).index := index_eq_ok.mpr ⟨⟨m, hm⟩, rfl⟩
    simp only [Option.bind_some, he, hindex]
    change g.redirect side depth (side e).index = _
    cases depth with
    | zero => rfl
    | succ depth => rw [Graph.redirect, nodeAt?_of_node hm, Option.bind_some, hint]

theorem Nested.sourceSide (h : g.Nested) {id : NodeId} (hn : g.node id = .ok n) :
    g.sourceSide id.index = .ok (n.sourceEnd id) :=
  h.redirect hn (fun _ => .inr rfl) (Nat.zero_lt_of_lt (lt_of_nodeAt? (nodeAt?_of_node hn)))

theorem Nested.targetSide (h : g.Nested) {id : NodeId} (hn : g.node id = .ok n) :
    g.targetSide id.index = .ok (n.targetEnd id) :=
  h.redirect hn (fun _ => .inl rfl) (Nat.zero_lt_of_lt (lt_of_nodeAt? (nodeAt?_of_node hn)))

/-- A living node's connections begin at a living node. -/
theorem Nested.exists_sourceEnd (h : g.Nested) {id : NodeId} (hn : g.node id = .ok n) :
    ∃ m, g.nodeAt? (n.sourceEnd id) = some m := by
  rw [Node.sourceEnd]
  cases he : n.interior with
  | none => exact ⟨n, nodeAt?_of_node hn⟩
  | some e =>
    obtain ⟨m, hm, -, -⟩ := h.ends id n e hn he e.output (.inr rfl)
    exact ⟨m, nodeAt?_of_node hm⟩

end Graph

end SpatialAudio
