import SpatialAudio.Proofs.Runs

/-!
# Proofs/Ownership — subgraphs, what belongs to them, and taking them out

A subgraph node stands for an interior that it owns.  Connections to and from it are those of its
ends, so that no connection begins or ends at a subgraph node (`Enclosed`), and redirection finds a
node that is none.  Removing a node that nobody owns takes away exactly the node, what it owns and
the connections of these (`Removed`); nodes that are owned can be neither removed nor rewired from
outside (`run_connect_interior` and its like).
-/

namespace SpatialAudio

namespace Graph

variable {g g' : Graph} {id x : NodeId} {n : Node} {i : Nat}

/-! ## Connections run between plain nodes -/

/-- The slot holds a node that is no subgraph. -/
def PlainAt (g : Graph) (i : Nat) : Prop := ∃ n, g.nodeAt? i = some n ∧ n.interior = none

/-- Sound, and no connection begins or ends at a subgraph node. -/
structure Enclosed (g : Graph) : Prop where
  sound : g.Sound
  plain : ∀ e ∈ g.edges, g.PlainAt e.source ∧ g.PlainAt e.target

theorem enclosed_new (rate capacity : Nat) : (Graph.new rate capacity).Enclosed :=
  ⟨sound_new rate capacity, fun _ he => absurd he List.not_mem_nil⟩

/-- No new connection, and plain nodes stay so. -/
theorem Enclosed.congr (h : g.Enclosed) (hs : g'.Sound) (hedges : g'.edges ⊆ g.edges)
    (hplain : ∀ i, g.PlainAt i → g'.PlainAt i) : g'.Enclosed :=
  ⟨hs, fun e he => (h.plain e (hedges he)).imp (hplain _) (hplain _)⟩

theorem Within.plain {R : Node → Node → Prop} (hw : Within R g g')
    (hR : ∀ {n n' : Node}, R n n' → n'.interior = n.interior) (h : g.PlainAt i) : g'.PlainAt i := by
  obtain ⟨n, hn, hint⟩ := h
  obtain ⟨n', hn', hr⟩ := hw.forth i n hn
  exact ⟨n', hn', (hR hr).trans hint⟩

theorem Enclosed.within {R : Node → Node → Prop} (h : g.Enclosed) (hs : g'.Sound)
    (hw : Within R g g') (hR : ∀ {n n' : Node}, R n n' → n'.interior = n.interior) : g'.Enclosed :=
  h.congr hs (fun _ he => hw.edges ▸ he) fun _ => hw.plain hR

theorem Enclosed.alike (h : g.Enclosed) (ha : g.Alike g') : g'.Enclosed :=
  h.within (h.sound.alike ha) ha Node.Alike.interior

/-- The same handles name the same nodes. -/
theorem Enclosed.of_node (h : g.Enclosed) (hs : g'.Sound) (hedges : g'.edges ⊆ g.edges)
    (hnode : ∀ x, g'.node x = g.node x) : g'.Enclosed := by
  refine h.congr hs hedges fun i hi => ?_
  rwa [PlainAt, nodeAt?_congr fun x _ => hnode x]

/-- A node is written that is new, or was as plain as it is now. -/
theorem Enclosed.wrote (h : g.Enclosed) (hw : g.Wrote id n g')
    (hint : ∀ m, g.node id = .ok m → m.interior = none → n.interior = none) : g'.Enclosed := by
  refine h.congr hw.sound (fun _ he => hw.edges ▸ he) fun i hi => ?_
  obtain ⟨m, hm, hplain⟩ := hi
  have hnode := node_handleAt.mpr hm
  by_cases hid : g.handleAt i = id
  · refine ⟨n, ?_, hint m (hid ▸ hnode) hplain⟩
    have hself := nodeAt?_of_node hw.self
    rwa [← hid] at hself
  · have hsame : g'.node (g.handleAt i) = .ok m := by rw [hw.other hid, hnode]
    exact ⟨m, nodeAt?_of_node hsame, hplain⟩

/-- **The ends of a connection are plain**, because subgraphs are nested one deep. -/
theorem Nested.plain_sourceEnd (h : g.Nested) (hn : g.node id = .ok n) :
    g.PlainAt (n.sourceEnd id) := by
  rw [Node.sourceEnd]
  cases he : n.interior with
  | none => exact ⟨n, nodeAt?_of_node hn, he⟩
  | some e =>
    obtain ⟨m, hm, hint, -⟩ := h.ends id n e hn he e.output (.inr rfl)
    exact ⟨m, nodeAt?_of_node hm, hint⟩

theorem Nested.plain_targetEnd (h : g.Nested) (hn : g.node id = .ok n) :
    g.PlainAt (n.targetEnd id) := by
  rw [Node.targetEnd]
  cases he : n.interior with
  | none => exact ⟨n, nodeAt?_of_node hn, he⟩
  | some e =>
    obtain ⟨m, hm, hint, -⟩ := h.ends id n e hn he e.input (.inl rfl)
    exact ⟨m, nodeAt?_of_node hm, hint⟩

/-- **Redirection ends at a plain node**, and at the same one whatever depth it is given. -/
theorem Nested.redirect_plainAt (h : g.Nested) (hn : g.node id = .ok n) :
    ∃ i j, g.PlainAt i ∧ g.PlainAt j ∧ g.sourceSide id.index = .ok i ∧
      g.targetSide id.index = .ok j ∧ ∀ depth, 0 < depth →
        g.redirect (·.output) depth id.index = .ok i ∧ g.redirect (·.input) depth id.index = .ok j :=
  ⟨n.sourceEnd id, n.targetEnd id, h.plain_sourceEnd hn, h.plain_targetEnd hn, h.sourceSide hn,
    h.targetSide hn, fun _ hd => ⟨h.redirect hn (fun _ => .inr rfl) hd,
      h.redirect hn (fun _ => .inl rfl) hd⟩⟩

theorem Enclosed.connectAt (h : g.Enclosed) {a b : NodeId} {o k : Nat} {m : Node}
    (ha : g.node a = .ok n) (hb : g.node b = .ok m)
    (hc : g.connectAt a.index o b.index k = .ok g') : g'.Enclosed := by
  have hs := h.sound.connectAt hc
  have hplain : ∀ i, g'.PlainAt i ↔ g.PlainAt i := fun i => by
    rw [PlainAt, PlainAt, nodeAt?_congr fun x _ => node_connectAt hc x]
  refine ⟨hs, fun e he => ?_⟩
  rw [hplain, hplain]
  obtain ⟨s, t, hsource, htarget, -, -, rfl⟩ := connectAt_eq_ok.mp hc
  cases (h.sound.nested.sourceSide ha).symm.trans hsource
  cases (h.sound.nested.targetSide hb).symm.trans htarget
  split at he
  · exact h.plain e he
  · rw [edges_reschedule] at he
    rcases List.mem_cons.mp he with rfl | he
    · exact ⟨h.sound.nested.plain_sourceEnd ha, h.sound.nested.plain_targetEnd hb⟩
    · exact h.plain e he

theorem Enclosed.disconnectAt (h : g.Enclosed) {o : Nat} (hc : g.disconnectAt i o = .ok g') :
    g'.Enclosed := by
  refine h.of_node (h.sound.disconnectAt hc) (fun e he => ?_) (node_disconnectAt hc)
  obtain ⟨s, r, -, -, rfl⟩ := disconnectAt_eq_ok.mp hc
  split at he
  · rw [edges_reschedule] at he
    exact List.mem_of_mem_filter he
  · exact he

theorem Enclosed.associate (h : g.Enclosed) (k : NodeKind) (l : Layout) :
    ((Graph.associate k l).run g).2.Enclosed := by
  rcases associate_cases h.sound k l with ⟨g', hrun, hw⟩ | ⟨e, g', hrun, hs, hnode, hedges⟩
  · rw [hrun]
    exact h.wrote hw fun m hm => absurd hm (h.sound.arena.node_nextHandle m)
  · rw [hrun]
    exact h.of_node hs (fun _ he => hedges ▸ he) hnode

/-- A multipanner is joined within, before it becomes a subgraph. -/
theorem Enclosed.assembled (h : g.Enclosed) {m : Multipanner}
    (ha : Multipanner.Assembled g id m g') : g'.Enclosed := by
  have hold : ∀ i, g.PlainAt i → g'.PlainAt i := by
    rintro i ⟨n, hn, hint⟩
    have hnode := node_handleAt.mpr hn
    have hsame : g'.node (g.handleAt i) = .ok n := by
      rw [ha.others _ fun hmem => ha.fresh _ hmem n hnode, hnode]
    exact ⟨n, nodeAt?_of_node hsame, hint⟩
  have hin : ∀ {x : NodeId} {k ps l o}, g'.Holds x k ps l o none → g'.PlainAt x.index := by
    rintro x k ps l o ⟨_, _, hx⟩
    exact ⟨_, nodeAt?_of_node hx, rfl⟩
  obtain ⟨_, hhrtf⟩ := ha.hrtf
  refine ⟨ha.sound, fun e he => ?_⟩
  rw [ha.edges] at he
  rcases List.mem_cons.mp he with rfl | he
  · exact ⟨hin ha.input, hin ha.amplitude⟩
  rcases List.mem_cons.mp he with rfl | he
  · exact ⟨hin ha.input, hin hhrtf⟩
  · exact (h.plain e he).imp (hold _) (hold _)

theorem Enclosed.assemble (h : g.Enclosed) (data : Dataset) :
    ((Multipanner.assemble data).run g).2.Enclosed := by
  cases hq : HrtfPanner.new data with
  | error a =>
    rw [Multipanner.run_assemble_of_error hq]
    exact h
  | ok q =>
    obtain ⟨id, m, g', hrun, ha⟩ := Multipanner.run_assemble h.sound hq
    rw [hrun]
    exact h.assembled ha

theorem Enclosed.applyLayout (h : g.Enclosed) {l : Layout} (happly : g.applyLayout id l = .ok g') :
    g'.Enclosed := by
  obtain ⟨n, hn, hw⟩ := h.sound.exists_applyLayout happly
  refine h.wrote hw fun m hm hint => ?_
  cases hn.symm.trans hm
  rw [rearrange_interior, hint]

theorem Enclosed.recomputeMap (h : g.Enclosed) (id : NodeId) :
    ((Graph.recomputeMap id).run g).2.Enclosed := by
  by_cases hex : ∃ n q, g.node id = .ok n ∧ n.kind = .amplitudePanner q
  · obtain ⟨n, q, hn, hk⟩ := hex
    have hstaged : (g.modifyAt id.index fun _ => staged q n).Enclosed := by
      refine h.alike (within_modifyAt .refl fun m hm => ?_)
      cases (nodeAt?_of_node hn).symm.trans hm
      exact alike_staged q n
    rw [run_recomputeMap hn hk]
    split
    · next g' happly => exact hstaged.applyLayout happly
    · refine hstaged.alike (alike_modifyAt ?_ _)
      exact fun n => ⟨⟨rfl, rfl, rfl⟩, rfl, rfl⟩
  · obtain ⟨e, hrun⟩ := run_recomputeMap_of_not fun n q hn hk => hex ⟨n, q, hn, hk⟩
    rw [hrun]
    exact h

theorem Enclosed.pulled (h : g.Enclosed) (hp : Pulled g g') : g'.Enclosed := by
  induction hp with
  | refl => exact h
  | tail _ hstep ih =>
    cases hstep with
    | played hw =>
      exact ih.within (ih.sound.pullStep (.played hw)) hw fun hp => hp.interior
    | arranged i n q hn hk happly => exact ih.applyLayout (applyLayout_handleAt hn happly)

theorem Enclosed.scheduleFor (h : g.Enclosed) (hi : g.nodeAt? i = some n) :
    (g.scheduleFor i).Enclosed :=
  h.of_node (h.sound.scheduleFor hi) (fun _ he => edges_scheduleFor g i ▸ he) (node_scheduleFor g i)

/-! ## Removing -/

/-- The handles that go when `id` is removed: its own, and those of the nodes it owns. -/
def GoesWith (g : Graph) (id x : NodeId) : Prop :=
  x = id ∨ ∃ n, g.node x = .ok n ∧ n.owner = some id

/-- **A node is gone with all that it owned**, and everything else is as it was: nodes under their
handles, connections in their order, the generations of all other slots, and the books. -/
structure Removed (g : Graph) (id : NodeId) (g' : Graph) : Prop where
  gone : ∀ x, g.GoesWith id x → g'.node x = .error (.staleNode x)
  kept : ∀ x, ¬ g.GoesWith id x → g'.node x = g.node x
  edges : ∀ e, e ∈ g'.edges ↔ e ∈ g.edges ∧ ¬ g.GoesWith id (g.handleAt e.source) ∧
    ¬ g.GoesWith id (g.handleAt e.target)
  order : g'.edges.Sublist g.edges
  handles : ∀ i, ¬ g.GoesWith id (g.handleAt i) → g'.handleAt i = g.handleAt i
  books : g'.sampleRate = g.sampleRate ∧ g'.blocks = g.blocks ∧ g'.faults = g.faults ∧
    g'.faultCapacity = g.faultCapacity ∧ g'.rings = g.rings

/-- The slots of the household are those whose handles go. -/
theorem mem_household_iff (hn : g.node id = .ok n) :
    i ∈ g.household id ↔ g.GoesWith id (g.handleAt i) := by
  rw [mem_household, mem_ownedBy, GoesWith, or_comm]
  refine or_congr ⟨fun hi => ?_, fun hi => ?_⟩ (exists_congr fun m => ?_)
  · rw [hi, handleAt_of_node hn]
  · exact congrArg NodeId.index hi
  · rw [node_handleAt]

theorem books_retire (g : Graph) (i : Nat) :
    (g.retire i).sampleRate = g.sampleRate ∧ (g.retire i).blocks = g.blocks ∧
      (g.retire i).faults = g.faults ∧ (g.retire i).faultCapacity = g.faultCapacity ∧
      (g.retire i).rings = g.rings := by
  rw [retire]
  split <;> exact ⟨rfl, rfl, rfl, rfl, rfl⟩

theorem books_foldl_retire (gone : List Nat) (g : Graph) :
    (gone.foldl retire g).sampleRate = g.sampleRate ∧ (gone.foldl retire g).blocks = g.blocks ∧
      (gone.foldl retire g).faults = g.faults ∧
      (gone.foldl retire g).faultCapacity = g.faultCapacity ∧
      (gone.foldl retire g).rings = g.rings := by
  induction gone generalizing g with
  | nil => exact ⟨rfl, rfl, rfl, rfl, rfl⟩
  | cons i gone ih =>
    obtain ⟨hrate, hblocks, hfaults, hcapacity, hrings⟩ := books_retire g i
    rw [← hrate, ← hblocks, ← hfaults, ← hcapacity, ← hrings]
    exact ih (g.retire i)

theorem books_reschedule (g : Graph) :
    g.reschedule.sampleRate = g.sampleRate ∧ g.reschedule.blocks = g.blocks ∧
      g.reschedule.faults = g.faults ∧ g.reschedule.faultCapacity = g.faultCapacity ∧
      g.reschedule.rings = g.rings := by
  rw [reschedule]
  split <;> exact ⟨rfl, rfl, rfl, rfl, rfl⟩

theorem Coherent.removed (h : g.Coherent) (hr : g.remove id = .ok g') : g.Removed id g' := by
  obtain ⟨⟨n, hn, hown⟩, rfl⟩ := (remove_eq_ok h).mp hr
  have hret := h.retired hn hown
  have hbooks := books_foldl_retire (g.household id) g
  generalize (g.household id).foldl retire g = g₁ at hret hbooks ⊢
  have hmem : ∀ {x : NodeId} {m : Node}, g.node x = .ok m →
      (x.index ∈ g.household id ↔ g.GoesWith id x) := fun {x m} hx => by
    rw [mem_household_iff hn, handleAt_of_node hx]
  refine ⟨fun x hx => ?_, fun x hx => ?_, fun e => ?_, ?_, fun i hi => ?_, ?_⟩
  · rw [node_reschedule]
    refine node_eq_error fun m hm => ?_
    obtain ⟨hnot, hm⟩ := hret.node.mp hm
    exact hnot ((hmem hm).mpr hx)
  · rw [node_reschedule]
    refine node_congr (fun m => ?_) rfl
    rw [hret.node]
    exact ⟨And.right, fun hm => ⟨fun hin => hx ((hmem hm).mp hin), hm⟩⟩
  · rw [edges_reschedule, hret.edges, List.mem_filter, decide_eq_true_eq, mem_household_iff hn,
      mem_household_iff hn]
  · rw [edges_reschedule, hret.edges]
    exact List.filter_sublist
  · rw [handleAt, slots_reschedule]
    exact hret.handleAt i (mt (mem_household_iff hn).mp hi)
  · obtain ⟨hrate, hblocks, hfaults, hcapacity, hrings⟩ := books_reschedule g₁
    rw [hrate, hblocks, hfaults, hcapacity, hrings]
    exact hbooks

theorem Enclosed.remove (h : g.Enclosed) (hr : g.remove id = .ok g') : g'.Enclosed := by
  have hremoved := h.sound.toCoherent.removed hr
  have hkept : ∀ i, ¬ g.GoesWith id (g.handleAt i) → g.PlainAt i → g'.PlainAt i := by
    rintro i hi ⟨n, hn, hint⟩
    have hsame : g'.node (g.handleAt i) = .ok n := by
      rw [hremoved.kept _ hi, node_handleAt.mpr hn]
    exact ⟨n, nodeAt?_of_node hsame, hint⟩
  refine ⟨h.sound.remove hr, fun e he => ?_⟩
  obtain ⟨he, hsource, htarget⟩ := (hremoved.edges e).mp he
  exact (h.plain e he).imp (hkept _ hsource) (hkept _ htarget)

/-! ## All moves -/

/-- **Every move keeps connections between plain nodes.** -/
theorem Enclosed.move (h : g.Enclosed) (hm : g.Move g') : g'.Enclosed := by
  cases hm with
  | associate k l => exact h.associate k l
  | assemble data => exact h.assemble data
  | remove hr => exact h.remove hr
  | connect hc =>
    obtain ⟨⟨_, ha, -⟩, ⟨_, hb, -⟩, hc⟩ := connect_eq_ok.mp hc
    exact h.connectAt ha hb hc
  | connectInterior hc =>
    obtain ⟨⟨_, ha⟩, ⟨_, hb⟩, hc⟩ := connectInterior_eq_ok.mp hc
    exact h.connectAt ha hb hc
  | disconnect hc => exact h.disconnectAt (disconnect_eq_ok.mp hc).2
  | disconnectInterior hc => exact h.disconnectAt (disconnectInterior_eq_ok.mp hc).2
  | applyLayout happly => exact h.applyLayout happly
  | property id p f => exact h.alike (alike_modifyProperty g id p f)
  | kind i f =>
    refine h.alike (alike_modifyAt ?_ i)
    exact fun n => ⟨⟨rfl, rfl, rfl⟩, rfl, rfl⟩
  | recomputeMap id => exact h.recomputeMap id
  | scheduleFor hn => exact h.scheduleFor (nodeAt?_of_node hn)
  | proposeAll hp => exact h.pulled (pulled_proposeAll hp)
  | processAt hp => exact h.pulled (pulled_processAt hp)
  | clearAround i => exact h.pulled (pulled_clearOwners _ _ g)
  | abandon root block culprit e => exact h.pulled (pulled_abandon g root block culprit e)
  | pull hp =>
    obtain ⟨root, ⟨n, hn⟩, hroot, hpulled⟩ := pull_eq_ok hp
    rw [h.sound.nested.sourceSide hn] at hroot
    cases hroot
    obtain ⟨m, hm⟩ := h.sound.nested.exists_sourceEnd hn
    exact (h.scheduleFor hm).pulled hpulled
  | books blocks faults rings =>
    exact h.pulled (.single (pullStep_books g blocks faults rings))

/-! ## Private handles -/

/-- The handle names a node inside a subgraph. -/
def Private (g : Graph) (x : NodeId) : Prop := ∃ n o, g.node x = .ok n ∧ n.owner = some o

theorem publicIndex_of_private (h : g.Private x) : g.publicIndex x = .error (.privateNode x) := by
  obtain ⟨n, o, hn, ho⟩ := h
  simp only [publicIndex, hn, bind, Except.bind, ho]
  rfl

theorem publicIndex_of_public (hn : g.node x = .ok n) (ho : n.owner = none) :
    g.publicIndex x = .ok x.index := publicIndex_eq_ok.mpr ⟨⟨n, hn, ho⟩, rfl⟩

theorem publicIndex_of_stale (h : ∀ n, g.node x ≠ .ok n) :
    g.publicIndex x = .error (.staleNode x) := by
  rw [publicIndex, node_eq_error h]
  rfl

end Graph

/-! ## Commands on private nodes -/

section Commands

open SpatialAudio.Graph

variable {s : Session} {set : Setter} {label other : Label} {x y : NodeId} {e : Error}

theorem run_disconnect_private (hl : s.nodes.get? label = some x) (hx : s.graph.Private x)
    (slot : Nat) :
    (perform set (.disconnect label slot)).run s = (.error (.refused (.privateNode x)), s) := by
  rw [perform, run_bind_ok (run_node hl)]
  refine run_bind_error (run_change_error ?_)
  rw [disconnect, publicIndex_of_private hx]
  rfl

theorem run_remove_private (hl : s.nodes.get? label = some x) (hx : s.graph.Private x) :
    (perform set (.remove label)).run s = (.error (.refused (.privateNode x)), s) := by
  rw [perform, run_bind_ok (run_node hl)]
  refine run_bind_error (run_change_error ?_)
  rw [remove, publicIndex_of_private hx]
  rfl

/-- The source is looked at first. -/
theorem run_connect_source (hl : s.nodes.get? label = some x) (ho : s.nodes.get? other = some y)
    (hx : s.graph.publicIndex x = .error e) (outputSlot inputSlot : Nat) :
    (perform set (.connect label outputSlot other inputSlot)).run s = (.error (.refused e), s) := by
  rw [perform, run_bind_ok (run_node hl), run_bind_ok (run_node ho)]
  refine run_bind_error (run_change_error ?_)
  rw [connect, hx]
  rfl

theorem run_connect_target (hl : s.nodes.get? label = some x) (ho : s.nodes.get? other = some y)
    {i : Nat} (hx : s.graph.publicIndex x = .ok i) (hy : s.graph.publicIndex y = .error e)
    (outputSlot inputSlot : Nat) :
    (perform set (.connect label outputSlot other inputSlot)).run s = (.error (.refused e), s) := by
  rw [perform, run_bind_ok (run_node hl), run_bind_ok (run_node ho)]
  refine run_bind_error (run_change_error ?_)
  rw [connect, hx, hy]
  rfl

/-- **What a connection with a private end is refused for**: the source, if it is private or stale,
and otherwise the target. -/
theorem run_connect_private (hl : s.nodes.get? label = some x) (hx : s.graph.Private x)
    (ho : s.nodes.get? other = some y) (outputSlot inputSlot : Nat) :
    (perform set (.connect label outputSlot other inputSlot)).run s
      = (.error (.refused (.privateNode x)), s) ∧
    (∀ n, s.graph.node y = .ok n → n.owner = none →
      (perform set (.connect other outputSlot label inputSlot)).run s
        = (.error (.refused (.privateNode x)), s)) ∧
    ((∀ n, s.graph.node y ≠ .ok n) →
      (perform set (.connect other outputSlot label inputSlot)).run s
        = (.error (.refused (.staleNode y)), s)) := by
  refine ⟨?_, fun n hn howner => ?_, fun hy => ?_⟩
  · exact run_connect_source hl ho (publicIndex_of_private hx) _ _
  · exact run_connect_target ho hl (publicIndex_of_public hn howner) (publicIndex_of_private hx) _ _
  · exact run_connect_source ho hl (publicIndex_of_stale hy) _ _

theorem run_remove_public {n : Node} (hs : s.graph.Sound) (hl : s.nodes.get? label = some x)
    (hn : s.graph.node x = .ok n) (ho : n.owner = none) :
    ∃ g', (perform set (.remove label)).run s = (.ok .done, { s with graph := g' }) ∧
      s.graph.Removed x g' := by
  have hr := (remove_eq_ok hs.toCoherent).mpr ⟨⟨n, hn, ho⟩, rfl⟩
  refine ⟨_, ?_, hs.toCoherent.removed hr⟩
  rw [perform, run_bind_ok (run_node hl), run_bind_ok (run_change_ok hr)]
  rfl

end Commands

open SpatialAudio.Graph

/-! ## Reachable graphs -/

theorem Session.Reachable.enclosed {s : Session} (h : s.Reachable) : s.graph.Enclosed :=
  h.invariant enclosed_new Enclosed.move

/-- **Subgraphs own what is theirs, and removal is exact**, in every reachable state. -/
theorem ownership_of_reachable {s : Session} (h : s.Reachable) :
    -- the ends of a subgraph are alive, its own, and no subgraphs
    (∀ id n e, s.graph.node id = .ok n → n.interior = some e → ∀ x, x = e.input ∨ x = e.output →
      ∃ m, s.graph.node x = .ok m ∧ m.owner = some id ∧ m.interior = none) ∧
    -- owners are alive
    (∀ id n o, s.graph.node id = .ok n → n.owner = some o → ∃ m, s.graph.node o = .ok m) ∧
    -- no connection meets a subgraph node
    (∀ e ∈ s.graph.edges, s.graph.PlainAt e.source ∧ s.graph.PlainAt e.target) ∧
    -- redirection ends, at a node that is alive and no subgraph
    (∀ id n, s.graph.node id = .ok n → ∃ i j, s.graph.PlainAt i ∧ s.graph.PlainAt j ∧
      s.graph.sourceSide id.index = .ok i ∧ s.graph.targetSide id.index = .ok j ∧
      ∀ depth, 0 < depth → s.graph.redirect (·.output) depth id.index = .ok i ∧
        s.graph.redirect (·.input) depth id.index = .ok j) ∧
    -- a public node goes with all that it owns, and nothing else does
    (∀ set label id n, s.nodes.get? label = some id → s.graph.node id = .ok n → n.owner = none →
      ∃ g', (perform set (.remove label)).run s = (.ok .done, { s with graph := g' }) ∧
        s.graph.Removed id g') ∧
    -- a private node is neither removed nor rewired from outside
    (∀ set label x, s.nodes.get? label = some x → s.graph.Private x →
      (perform set (.remove label)).run s = (.error (.refused (.privateNode x)), s) ∧
      (∀ slot, (perform set (.disconnect label slot)).run s
        = (.error (.refused (.privateNode x)), s)) ∧
      ∀ other y outputSlot inputSlot, s.nodes.get? other = some y →
        (perform set (.connect label outputSlot other inputSlot)).run s
          = (.error (.refused (.privateNode x)), s) ∧
        (∀ n, s.graph.node y = .ok n → n.owner = none →
          (perform set (.connect other outputSlot label inputSlot)).run s
            = (.error (.refused (.privateNode x)), s)) ∧
        ((∀ n, s.graph.node y ≠ .ok n) →
          (perform set (.connect other outputSlot label inputSlot)).run s
            = (.error (.refused (.staleNode y)), s))) := by
  obtain ⟨hs, hplain⟩ := h.enclosed
  refine ⟨fun id n e hn he x hx => ?_, fun id n o hn ho => ?_, hplain, fun id n hn => ?_,
    fun set label id n hl hn ho => ?_, fun set label x hl hx => ?_⟩
  · obtain ⟨m, hm, hint, howner⟩ := hs.nested.ends id n e hn he x hx
    exact ⟨m, hm, howner, hint⟩
  · obtain ⟨-, m, hm, -⟩ := hs.nested.owned id n o hn ho
    exact ⟨m, hm⟩
  · exact hs.nested.redirect_plainAt hn
  · exact run_remove_public hs hl hn ho
  · exact ⟨run_remove_private hl hx, run_disconnect_private hl hx,
      fun other y outputSlot inputSlot hy => run_connect_private hl hx hy outputSlot inputSlot⟩

/-- A multipanner with labels for its nodes, one of which took the place of a node that is gone. -/
def pannerAfterGain : Session :=
  [.load "ears" (.buffer (.fields ⟨44100, 0, 0, [1], 1, [0x3f800000]⟩)),
    .create "gain" (.gain 1), .command (.remove "gain"),
    .create "panner" (.multipanner "ears"),
    .command (.multipanner "panner" (some "panner"))].foldl
      (fun s step => (s.step step).2) (Session.new 44100 64)

theorem reachable_pannerAfterGain : pannerAfterGain.Reachable :=
  .step (.step (.step (.step (.step (.new 44100 64) _) _) _) _) _

/-- Where its labels point, and who owns what. -/
theorem view_pannerAfterGain :
    (pannerAfterGain.nodes.get? "gain" = some ⟨0, 0⟩ ∧
      pannerAfterGain.nodes.get? "panner" = some ⟨4, 0⟩ ∧
      pannerAfterGain.nodes.get? "panner.in" = some ⟨2, 0⟩) ∧
    (pannerAfterGain.graph.handleAt 0 = ⟨0, 1⟩ ∧ pannerAfterGain.graph.handleAt 2 = ⟨2, 0⟩ ∧
      pannerAfterGain.graph.handleAt 4 = ⟨4, 0⟩) ∧
    (pannerAfterGain.graph.nodeAt? 2).map Node.owner = some (some ⟨4, 0⟩) ∧
    (pannerAfterGain.graph.nodeAt? 4).map Node.owner = some none := by decide +kernel

theorem exists_input_pannerAfterGain :
    ∃ n, pannerAfterGain.graph.node ⟨2, 0⟩ = .ok n ∧ n.owner = some ⟨4, 0⟩ := by
  obtain ⟨-, ⟨-, hhandle, -⟩, howner, -⟩ := view_pannerAfterGain
  obtain ⟨n, hn, ho⟩ := Option.map_eq_some_iff.mp howner
  exact ⟨n, node_eq_ok.mpr ⟨hn, hhandle⟩, ho⟩

theorem ownership_pannerAfterGain : pannerAfterGain.Reachable ∧
    (∃ n g', pannerAfterGain.graph.node ⟨4, 0⟩ = .ok n ∧ n.owner = none ∧
      (perform Session.set (.remove "panner")).run pannerAfterGain
        = (.ok .done, { pannerAfterGain with graph := g' }) ∧
      pannerAfterGain.graph.Removed ⟨4, 0⟩ g' ∧ g'.node ⟨2, 0⟩ = .error (.staleNode ⟨2, 0⟩)) ∧
    pannerAfterGain.graph.Private ⟨2, 0⟩ ∧
    (perform Session.set (.remove "panner.in")).run pannerAfterGain
      = (.error (.refused (.privateNode ⟨2, 0⟩)), pannerAfterGain) := by
  obtain ⟨-, -, -, -, hremove, hprivate⟩ := ownership_of_reachable reachable_pannerAfterGain
  obtain ⟨⟨-, hlabel, hinput⟩, ⟨-, -, hhandle⟩, -, hpublic⟩ := view_pannerAfterGain
  obtain ⟨n, hn, ho⟩ := Option.map_eq_some_iff.mp hpublic
  have hnode : pannerAfterGain.graph.node ⟨4, 0⟩ = .ok n := node_eq_ok.mpr ⟨hn, hhandle⟩
  obtain ⟨g', hrun, hremoved⟩ := hremove Session.set "panner" _ n hlabel hnode ho
  obtain ⟨m, hm, howner⟩ := exists_input_pannerAfterGain
  have hgone := hremoved.gone ⟨2, 0⟩ (.inr ⟨m, hm, howner⟩)
  have hinside : pannerAfterGain.graph.Private ⟨2, 0⟩ := ⟨m, _, hm, howner⟩
  exact ⟨reachable_pannerAfterGain, ⟨n, g', hnode, ho, hrun, hremoved, hgone⟩, hinside,
    (hprivate Session.set "panner.in" _ hinput hinside).1⟩

/-- **A connection from a stale handle to a private node is refused for the stale one.** -/
theorem connect_stale_to_private : pannerAfterGain.Reachable ∧
    pannerAfterGain.nodes.get? "panner.in" = some ⟨2, 0⟩ ∧
    pannerAfterGain.graph.Private ⟨2, 0⟩ ∧
    (perform Session.set (.connect "gain" 0 "panner.in" 0)).run pannerAfterGain
      = (.error (.refused (.staleNode ⟨0, 0⟩)), pannerAfterGain) ∧
    (perform Session.set (.connect "gain" 0 "panner.in" 0)).run pannerAfterGain
      ≠ (.error (.refused (.privateNode ⟨2, 0⟩)), pannerAfterGain) := by
  obtain ⟨⟨hgain, -, hinput⟩, ⟨hhandle, -, -⟩, -, -⟩ := view_pannerAfterGain
  have hstale : ∀ n, pannerAfterGain.graph.node ⟨0, 0⟩ ≠ .ok n := by
    intro n hn
    cases hhandle.symm.trans (handleAt_of_node hn)
  have hrun : (perform Session.set (.connect "gain" 0 "panner.in" 0)).run pannerAfterGain
      = (.error (.refused (.staleNode ⟨0, 0⟩)), pannerAfterGain) :=
    run_connect_source hgain hinput (publicIndex_of_stale hstale) 0 0
  obtain ⟨m, hm, howner⟩ := exists_input_pannerAfterGain
  refine ⟨reachable_pannerAfterGain, hinput, ⟨m, _, hm, howner⟩, hrun, fun heq => ?_⟩
  cases hrun.symm.trans heq

end SpatialAudio
