import SpatialAudio.Proofs.Fates
import SpatialAudio.Proofs.FaultLog
import SpatialAudio.Proofs.Proposals

/-!
# Proofs/GivingUp — a block that is given up processes nothing

A block is given up while its nodes are asked for layouts, before any of them is processed.  So
every node keeps its state, its properties and its place (`Node.Spared`): amplitude panners in front
of the one that was refused may have taken on the layout and the map they asked for, that one keeps
both, and the root, which is pulled last, falls silent under the layout it has.  The next block finds
all panners before that one content and is given up again (`Sound.givesUp?_of_refused`), and whoever
renders the root hears silence on all of its channels.
-/

namespace SpatialAudio

open SpatialAudio.Graph

/-- What a block for `root` leaves of the node in slot `j` when it is given up at `culprit`, once the
nodes of `served` had their layouts. -/
structure Node.Spared (n : Node) (root culprit : Nat) (served : List Nat) (j : Nat) (n' : Node) :
    Prop extends n.SamePlace n' where
  properties : n'.properties = n.properties
  /-- No node of another kind has its state touched. -/
  state : (∀ q, n.kind ≠ .amplitudePanner q) → n'.kind = n.kind
  /-- A panner that was served has the layout and the map that it asked for, if it did ask. -/
  asked : j ∈ served → n' = n.obliged ∧ (n' = n ∨ (∃ q, n.Asks q) ∧
    n'.layout = mapLayout n.properties ∧
    n'.kind = .amplitudePanner ⟨AmplitudePanner.describedMap n.properties, none⟩)
  /-- The panner that was refused keeps its layout and the map in effect. -/
  refused : j = culprit → n'.layout = n.layout ∧ ∃ q, n.Asks q ∧
    n'.kind = .amplitudePanner { q with pending := some (AmplitudePanner.describedMap n.properties) }
  silent : j = root → n'.layout = n.layout ∧
    n'.outputs = List.replicate n.outputs.length Block.silent
  others : j ∉ served → j ≠ culprit → n'.kind = n.kind ∧ n'.layout = n.layout
  /-- Nobody's inputs are mixed, and nobody's outputs are written, except for silence. -/
  blocks : j ∉ served → n'.inputs = n.inputs ∧ (j ≠ root → n'.outputs = n.outputs)

/-- `after` is `g` after a block for `root` that was given up for an error of `f`. -/
structure Graph.GivenUp (g : Graph) (root : Nat) (f : NodeId) (e : Error) (after : Graph) :
    Prop where
  /-- The block is counted, and logged if there is room; no ring is written into. -/
  books : after.books = g.books.abandoned f e
  edges : after.edges = g.edges
  vacant : after.vacant = g.vacant
  length : after.slots.length = g.slots.length
  handles : ∀ j, after.handleAt j = g.handleAt j
  schedule : after.root = some root ∧ after.schedule = g.pullOrder root
  nodes : ∃ served behind, g.pullOrder root = served ++ f.index :: behind ∧ root ∉ served ∧
    (∀ j, g.nodeAt? j = none → after.nodeAt? j = none) ∧
    ∀ j n, g.nodeAt? j = some n →
      ∃ n', after.nodeAt? j = some n' ∧ n.Spared root f.index served j n'

namespace Graph

variable {g ready : Graph} {id f : NodeId} {root culprit j : Nat} {served : List Nat} {n : Node}
  {e : Error}

/-! ## What is left of the nodes -/

/-- The node with silent outputs. -/
def silenced (n : Node) : Node := { n with outputs := n.outputs.map fun _ => Block.silent }

theorem nodeAt?_abandon (g : Graph) (root block culprit : Nat) (e : Error) (j : Nat) :
    (g.abandon root block culprit e).nodeAt? j
      = (g.nodeAt? j).map fun n => if j = root then silenced n else n := by
  have hsilenced : (g.modifyAt root silenced).nodeAt? j
      = (g.nodeAt? j).map fun n => if j = root then silenced n else n := by
    rw [nodeAt?_modifyAt]
    by_cases hj : root = j
    · simp [hj]
    · simp [hj, Ne.symm hj]
  rw [abandon]
  split
  · exact hsilenced
  · exact hsilenced

/-- A node that was not served is spared if only a map waits that did not before. -/
theorem spared_of_notMem {k : NodeKind} (hserved : j ∉ served)
    (hother : j ≠ culprit → k = n.kind)
    (hrefused : j = culprit → ∃ q, n.Asks q ∧ k
      = .amplitudePanner { q with pending := some (AmplitudePanner.describedMap n.properties) }) :
    n.Spared root culprit served j
      (if j = root then silenced { n with kind := k } else { n with kind := k }) := by
  have hstate : (∀ q, n.kind ≠ .amplitudePanner q) → k = n.kind := by
    intro hk
    refine hother fun hj => ?_
    obtain ⟨q, hq, -⟩ := hrefused hj
    exact hk q hq.1
  split
  · next hj =>
    exact ⟨⟨rfl, rfl⟩, rfl, hstate, fun h => absurd h hserved, fun h => ⟨rfl, hrefused h⟩,
      fun _ => ⟨rfl, List.map_const' ..⟩, fun _ h => ⟨hother h, rfl⟩,
      fun _ => ⟨rfl, fun h => absurd hj h⟩⟩
  · next hj =>
    exact ⟨⟨rfl, rfl⟩, rfl, hstate, fun h => absurd h hserved, fun h => ⟨rfl, hrefused h⟩,
      fun h => absurd h hj, fun _ h => ⟨hother h, rfl⟩, fun _ => ⟨rfl, fun _ => rfl⟩⟩

/-- A node that was obliged, and is not the root, is spared. -/
theorem spared_obliged (hserved : j ∈ served) (hroot : j ≠ root) (hculprit : j ≠ culprit) :
    n.Spared root culprit served j n.obliged where
  toSamePlace := ⟨n.owner_obliged, n.interior_obliged⟩
  properties := n.properties_obliged
  state hk := by
    rcases n.asks_or_obliged_eq with ⟨q, hq⟩ | hself
    · exact absurd hq.1 (hk q)
    · rw [hself]
  asked _ := by
    refine ⟨rfl, ?_⟩
    rcases n.asks_or_obliged_eq with ⟨q, hq⟩ | hself
    · exact .inr ⟨⟨q, hq⟩, hq.layout_obliged, hq.kind_obliged⟩
    · exact .inl hself
  refused h := absurd h hculprit
  silent h := absurd h hroot
  others h := absurd hserved h
  blocks h := absurd hserved h

/-- **What a pass that was refused leaves of a node, with the root silenced, is spared.** -/
theorem Refused.spared {schedule : List Nat} (h : Refused schedule g served culprit e ready)
    (hnd : schedule.Nodup) (hroot : root ∉ served) (hn : g.nodeAt? j = some n) :
    ∃ m, ready.nodeAt? j = some m ∧
      n.Spared root culprit served j (if j = root then silenced m else m) := by
  have hculprit := h.notMem hnd
  refine ⟨if j ∈ served then n.obliged else if j = culprit then n.asking else n,
    by rw [h.nodes, hn]; rfl, ?_⟩
  by_cases hserved : j ∈ served
  · have hj : j ≠ root := ne_of_mem_of_not_mem hserved hroot
    rw [if_pos hserved, if_neg hj]
    exact spared_obliged hserved hj (ne_of_mem_of_not_mem hserved hculprit)
  · rw [if_neg hserved]
    by_cases hj : j = culprit
    · obtain ⟨n', q, hn', hq, -⟩ := h.refused
      rw [← hj] at hn'
      cases hn.symm.trans hn'
      rw [if_pos hj, hq.asking]
      exact spared_of_notMem hserved (fun h => absurd hj h) fun _ => ⟨q, hq, rfl⟩
    · rw [if_neg hj]
      exact spared_of_notMem hserved (fun _ => rfl) fun h => absurd h hj

/-! ## A block that is given up -/

theorem givesUp?_eq_some : g.givesUp? id = some (f, e) ↔ ∃ root ready culprit,
    g.prepare id = .ok (root, ready, some (culprit, e)) ∧ f = g.handleAt culprit := by
  rw [givesUp?]
  constructor
  · intro h
    split at h
    · next hready =>
      cases h
      exact ⟨_, _, _, hready, rfl⟩
    · cases h
  · rintro ⟨root, ready, culprit, hready, rfl⟩
    rw [hready]

/-- The graph at the start of a block is scheduled for its root. -/
theorem root_begun (g : Graph) (root : Nat) : (g.begun root).root = some root := by
  rw [begun, scheduleFor]
  split
  · assumption
  · rfl

/-- The root is pulled last, so it is not served before a refusal. -/
theorem Sound.root_notMem (h : g.Sound) (hroot : root < g.slots.length)
    (hrefused : Refused (g.pullOrder root) g served culprit e ready) : root ∉ served := by
  have hnd := nodup_pullOrder h.acyclic h.wellFormed.source_lt hroot
  have hlast := getLast?_pullOrder h.acyclic h.wellFormed.source_lt hroot
  obtain ⟨behind, hsplit⟩ := hrefused.split
  rw [hsplit] at hnd
  rw [hsplit, List.getLast?_append_cons] at hlast
  exact fun hmem =>
    (List.nodup_append.mp hnd).2.2 root hmem root (List.mem_of_getLast? hlast) rfl

theorem pull_of_refused (hready : g.prepare id = .ok (root, ready, some (culprit, e))) :
    g.pull id = .ok (ready.abandon root (g.scheduleFor root).blocks culprit e) := by
  rw [pull_eq_prepare, hready]
  rfl

theorem within_refused (hready : g.prepare id = .ok (root, ready, some (culprit, e))) :
    Within Node.Bides (g.begun root) (ready.abandon root (g.scheduleFor root).blocks culprit e) :=
  (within_proposeAll (prepare_eq_ok.mp hready).2.2).trans .trans
    (within_abandon ready root _ culprit e)

section GivenUp

variable (h : g.Sound) (hready : g.prepare id = .ok (root, ready, some (culprit, e)))
include h hready

/-- The root is a node. -/
theorem Sound.exists_root : ∃ n, g.nodeAt? root = some n := by
  obtain ⟨served, hrefused⟩ := h.refused_of_prepare hready
  obtain ⟨m, hm⟩ := (h.prepared hready).pulled
  rw [hrefused.nodes] at hm
  obtain ⟨n, hn, -⟩ := Option.map_eq_some_iff.mp hm
  exact ⟨n, hn⟩

/-- **A block that is given up spares all nodes.** -/
theorem Sound.givenUp_of_refused : g.GivenUp root (g.handleAt culprit) e
    (ready.abandon root (g.scheduleFor root).blocks culprit e) := by
  obtain ⟨served, hrefused⟩ := h.refused_of_prepare hready
  obtain ⟨n₀, hn₀⟩ := h.exists_root hready
  have hroot := h.root_notMem (lt_of_nodeAt? hn₀) hrefused
  have hbegun := h.begun root
  have hwithin := within_refused hready
  have hplain : (g.begun root).vacant = g.vacant ∧
      (g.begun root).slots.length = g.slots.length := by
    rw [Graph.begun, Graph.scheduleFor]
    split <;> exact ⟨rfl, rfl⟩
  refine ⟨?_, hwithin.edges.trans hbegun.edges, hwithin.vacant.trans hplain.1,
    hwithin.length.trans hplain.2, fun j => ?_,
    ⟨hwithin.root.trans (root_begun g root), hwithin.schedule.trans hbegun.schedule⟩, ?_⟩
  · rw [books_pull (pull_of_refused hready),
      givesUp?_eq_some.mpr ⟨root, ready, culprit, hready, rfl⟩]
  · rw [hwithin.handleAt, hbegun.handleAt]
  · obtain ⟨behind, hsplit⟩ := hrefused.split
    refine ⟨served, behind, hsplit, hroot, fun j hj => ?_, fun j n hn => ?_⟩
    · rw [nodeAt?_abandon, hrefused.nodes, hj]
      rfl
    · obtain ⟨m, hm, hspared⟩ := hrefused.spared (h.proposeAll_of_prepare hready).1 hroot hn
      exact ⟨_, by rw [nodeAt?_abandon, hm]; rfl, hspared⟩

/-- Afterwards the same node is pulled for `id`. -/
theorem Sound.sourceSide_of_refused : ∃ n,
    (ready.abandon root (g.scheduleFor root).blocks culprit e).node id = .ok n ∧
    (ready.abandon root (g.scheduleFor root).blocks culprit e).sourceSide id.index = .ok root := by
  obtain ⟨hindex, hside, -⟩ := prepare_eq_ok.mp hready
  obtain ⟨n, hn⟩ := (index_eq_ok.mp hindex).1
  obtain ⟨n', hn', hbides⟩ :=
    (within_refused hready).node_forth ((node_scheduleFor g root id).trans hn)
  have hsound := h.pull (pull_of_refused hready)
  refine ⟨n', hn', ?_⟩
  rw [h.nested.sourceSide hn] at hside
  rw [hsound.nested.sourceSide hn', ← hside, Node.sourceEnd, Node.sourceEnd, hbides.interior]

/-- **The next block is given up at the same node for the same error.** -/
theorem Sound.givesUp?_of_refused :
    (ready.abandon root (g.scheduleFor root).blocks culprit e).givesUp? id
      = some (g.handleAt culprit, e) := by
  obtain ⟨served, hrefused⟩ := h.refused_of_prepare hready
  obtain ⟨n, hn, hside⟩ := h.sourceSide_of_refused hready
  have hsound := h.pull (pull_of_refused hready)
  have hgivenUp := h.givenUp_of_refused hready
  have hview := nodeAt?_abandon ready root (g.scheduleFor root).blocks culprit e
  generalize ready.abandon root (g.scheduleFor root).blocks culprit e = after at *
  have hbegun := hsound.begun root
  have hschedule : (after.begun root).schedule = g.pullOrder root := by
    rw [Graph.begun, Graph.scheduleFor, if_pos hgivenUp.schedule.1]
    exact hgivenUp.schedule.2
  obtain ⟨last, hagain⟩ : ∃ last,
      proposeAll (g.pullOrder root) (after.begun root) = .ok (last, some (culprit, e)) := by
    refine hrefused.again (h.proposeAll_of_prepare hready).1 ?_ fun j => ?_
    · rw [hbegun.edges, hgivenUp.edges, (h.prepared hready).edges]
    · rw [hbegun.nodeAt?, hview, Option.map_map]
      congr 1
      funext m
      rw [Function.comp_apply]
      split <;> rfl
  refine givesUp?_eq_some.mpr ⟨root, last, culprit, ?_, (hgivenUp.handles culprit).symm⟩
  refine prepare_eq_ok.mpr ⟨index_eq_ok.mpr ⟨⟨n, hn⟩, rfl⟩, hside, ?_⟩
  rw [hschedule]
  exact hagain

end GivenUp

end Graph

/-! ## Rendering -/

/-- What is rendered of a node is its outputs after a block, and silence on further channels. -/
theorem step_render {s : Session} {label : Label} {id : NodeId} {out : Nat} {g : Graph}
    {blocks : List Block} (hlabel : s.nodes.get? label = some id)
    (hroom : Memory.reserve out blockBytes = .ok ()) (hpull : s.graph.pull id = .ok g)
    (hblocks : g.outputBlocks id = .ok blocks) (probe : Probe) :
    s.step (.render label out probe) = (.rendered blocks.length
      ((List.range out).map fun i => probe.read (blocks.getD i Block.silent).toArray),
      { s with graph := g }) := by
  have hsettle : (Action.settle (liftM (Memory.reserve out blockBytes) : Except Failure Unit)).run s
      = (.ok (), s) := by
    rw [run_settle, hroom]
    rfl
  have hblock : (Action.onGraph (GraphM.update fun g => g.pull id)).run s
      = (.ok (), { s with graph := g }) := by rw [run_onGraph, run_update, hpull]
  have hpulled : (pullTimes id 1).run s = (.ok (), { s with graph := g }) := by
    rw [pullTimes, run_bind_ok hblock]
    rfl
  have hread : (Action.read fun g => g.outputBlocks id).run { s with graph := g }
      = (.ok blocks, { s with graph := g }) := run_read_ok hblocks
  have hrun : (Step.render label out probe).run.run s = (.ok (.rendered blocks.length
      ((List.range out).map fun i => probe.read (blocks.getD i Block.silent).toArray)),
      { s with graph := g }) := by
    rw [Step.run, run_bind_ok hsettle, run_bind_ok (run_node hlabel), run_bind_ok hpulled,
      run_bind_ok hread]
    simp only [List.map_map]
    rfl
  rw [Session.step, hrun]

/-- **A block that is given up processes nothing.** -/
theorem givenUp_of_reachable {s : Session} (h : s.Reachable) {id f : NodeId} {e : Error}
    (hup : s.graph.givesUp? id = some (f, e)) :
    ∃ root n after, s.graph.sourceSide id.index = .ok root ∧ s.graph.nodeAt? root = some n ∧
      s.graph.pull id = .ok after ∧ s.graph.GivenUp root f e after ∧
      after.givesUp? id = some (f, e) ∧
      ∀ label out probe, s.nodes.get? label = some id → Memory.reserve out blockBytes = .ok () →
        s.step (.render label out probe)
          = (.rendered n.layout.outputs (List.replicate out (probe.read Block.silent.toArray)),
            { s with graph := after }) := by
  obtain ⟨root, ready, culprit, hready, rfl⟩ := givesUp?_eq_some.mp hup
  obtain ⟨n, hn⟩ := h.sound.exists_root hready
  obtain ⟨n₀, hn₀, hside⟩ := h.sound.sourceSide_of_refused hready
  have hpull := pull_of_refused hready
  have hgivenUp := h.sound.givenUp_of_refused hready
  refine ⟨root, n, _, (prepare_eq_ok.mp hready).2.1, hn, hpull, hgivenUp,
    h.sound.givesUp?_of_refused hready, fun label out probe hlabel hroom => ?_⟩
  obtain ⟨served, behind, -, -, -, hspared⟩ := hgivenUp.nodes
  obtain ⟨n', hn', hspared⟩ := hspared root n hn
  have houtputs : n'.outputs = List.replicate n.layout.outputs Block.silent := by
    rw [(hspared.silent rfl).2, (h.sound.wellFormed.fits root n hn).outputs]
  have hblocks : (ready.abandon root (s.graph.scheduleFor root).blocks culprit e).outputBlocks id
      = .ok n'.outputs := by
    rw [outputBlocks, index_eq_ok.mpr ⟨⟨n₀, hn₀⟩, rfl⟩]
    refine bind_eq_ok.mpr ⟨id.index, rfl, bind_eq_ok.mpr ⟨root, hside, ?_⟩⟩
    rw [hn']
    rfl
  have hsilent : ∀ i, (List.replicate n.layout.outputs Block.silent).getD i Block.silent
      = Block.silent := by
    intro i
    rw [List.getD_eq_getElem?_getD, List.getElem?_replicate]
    split <;> rfl
  rw [step_render hlabel hroom hpull hblocks, houtputs]
  simp only [hsilent, List.map_const', List.length_range, List.length_replicate]

/-- The map of a panner outgrew its connection. -/
def outgrownPanner : Session := (Session.new 44100 64).afterSteps (outgrown.take 4)

theorem reachable_outgrownPanner : outgrownPanner.Reachable :=
  .step (.step (.step (.step (.new 44100 64) _) _) _) _

/-- The block is given up at the panner, and three buffers are filled with silence while two channels
are reported. -/
theorem givenUp_outgrownPanner : ∃ e after,
    outgrownPanner.graph.givesUp? ⟨1, 0⟩ = some (⟨0, 0⟩, e) ∧
    outgrownPanner.graph.GivenUp 1 ⟨0, 0⟩ e after ∧ after.givesUp? ⟨1, 0⟩ = some (⟨0, 0⟩, e) ∧
    ∀ probe, outgrownPanner.step (.render "g" 3 probe)
      = (.rendered 2 (List.replicate 3 (probe.read Block.silent.toArray)),
        { outgrownPanner with graph := after }) := by
  have hup : (outgrownPanner.graph.givesUp? ⟨1, 0⟩).map Prod.fst = some ⟨0, 0⟩ := by
    decide +kernel
  have hside : (outgrownPanner.graph.sourceSide 1).toOption = some 1 := by decide +kernel
  have hlayout : (outgrownPanner.graph.nodeAt? 1).map (·.layout.outputs) = some 2 := by
    decide +kernel
  have hlabel : outgrownPanner.nodes.get? "g" = some ⟨1, 0⟩ := by decide +kernel
  obtain ⟨⟨f, e⟩, hup, rfl⟩ := Option.map_eq_some_iff.mp hup
  obtain ⟨root, n, after, hroot, hn, -, hgivenUp, hagain, hrender⟩ :=
    givenUp_of_reachable reachable_outgrownPanner hup
  rw [hroot] at hside
  cases hside
  rw [hn] at hlayout
  refine ⟨e, after, hup, hgivenUp, hagain, fun probe => ?_⟩
  rw [hrender "g" 3 probe hlabel rfl, ← Option.some.inj hlayout]

end SpatialAudio
