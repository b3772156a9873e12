import SpatialAudio.Proofs.Sound

/-!
# Proofs/Lifecycle — adding and removing nodes keeps a graph sound

A node that is added has no connections, so every layout in bounds is admitted
(`run_associate`).  Because subgraphs are nested one deep, removing a node vacates exactly its own
slot and the slots of the nodes it owns (`remove_eq_ok`).
-/

namespace SpatialAudio.Graph

open Relation

variable {g g' : Graph} {i j : Nat} {n : Node} {l : Layout} {k : NodeKind}

/-- No connection touches a slot without a node. -/
theorem WellFormed.ne_of_vacant (h : g.WellFormed) (hi : g.nodeAt? i = none) {e : Edge}
    (he : e ∈ g.edges) : e.source ≠ i ∧ e.target ≠ i := by
  obtain ⟨n, hn⟩ := (h.joins e he).exists_source
  obtain ⟨m, hm⟩ := (h.joins e he).exists_target
  constructor
  · rintro rfl
    rw [hi] at hn
    cases hn
  · rintro rfl
    rw [hi] at hm
    cases hm

/-! ## Adding -/

theorem fits_blank (k : NodeKind) : (blank k).Fits :=
  ⟨⟨Nat.zero_le _, Nat.zero_le _, by simp [blank, Layout.empty], by simp [blank, Layout.empty]⟩,
    rfl, rfl⟩

/-- **A placed node without channels keeps a graph sound.** -/
theorem Sound.place (h : g.Sound) (k : NodeKind) : (g.place (blank k)).2.Sound where
  arena := h.arena.place _
  wellFormed := by
    refine ⟨fun i n hn => ?_, fun e he => ?_⟩
    · rw [nodeAt?_place h.arena] at hn
      split at hn
      · cases hn
        exact fits_blank k
      · exact h.wellFormed.fits i n hn
    · rw [edges_place] at he
      obtain ⟨hs, ht⟩ := h.wellFormed.ne_of_vacant h.arena.nodeAt?_nextSlot he
      refine (h.wellFormed.joins e he).congr ?_ ?_
      · rw [layoutAt, layoutAt, nodeAt?_place h.arena, if_neg hs]
      · rw [layoutAt, layoutAt, nodeAt?_place h.arena, if_neg ht]
  nodup := by
    rw [edges_place]
    exact h.nodup
  acyclic := by
    rw [edges_place]
    exact h.acyclic
  nested := by
    have hforth : ∀ {id : NodeId} {m : Node}, g.node id = .ok m →
        (g.place (blank k)).2.node id = .ok m := by
      intro id m hm
      have hne : id ≠ g.nextHandle := by
        rintro rfl
        exact h.arena.node_nextHandle m hm
      rw [node_place h.arena, if_neg hne, hm]
    refine ⟨fun id n e hn he x hx => ?_, fun id n o hn ho => ?_⟩
    · rw [node_place h.arena] at hn
      split at hn
      · cases hn
        cases he
      · obtain ⟨m, hm, hrest⟩ := h.nested.ends id n e hn he x hx
        exact ⟨m, hforth hm, hrest⟩
    · rw [node_place h.arena] at hn
      split at hn
      · cases hn
        cases ho
      · obtain ⟨hi, m, hm, hrest⟩ := h.nested.owned id n o hn ho
        exact ⟨hi, m, hforth hm, hrest⟩
  root := by
    intro r hr
    rw [root_place] at hr
    obtain ⟨n, hn⟩ := h.root r hr
    rw [nodeAt?_place h.arena]
    split
    · exact ⟨_, rfl⟩
    · exact ⟨n, hn⟩
  schedule := by
    intro r hr
    rw [root_place] at hr
    rw [schedule_place, h.schedule r hr, h.pullOrder_eq (edges_place g _) (length_place_le g _) hr]

/-- A node that is given up again leaves all connections as they were. -/
theorem Sound.edges_vacate_place (h : g.Sound) (k : NodeKind) :
    ((g.place (blank k)).2.vacate g.nextSlot).edges = g.edges := by
  change (g.place (blank k)).2.edges.filter _ = g.edges
  rw [edges_place]
  refine List.filter_eq_self.mpr fun e he => ?_
  simpa using h.wellFormed.ne_of_vacant h.arena.nodeAt?_nextSlot he

/-- A node that is given up again leaves all handles as they were. -/
theorem Sound.node_vacate_place (h : g.Sound) (k : NodeKind) (id : NodeId) :
    ((g.place (blank k)).2.vacate g.nextSlot).node id = g.node id := by
  refine node_congr (fun n => ?_) rfl
  rw [node_vacate_eq_ok, node_eq_ok, node_eq_ok, nodeAt?_place h.arena, handleAt_place]
  constructor
  · rintro ⟨hi, hn, hid⟩
    rw [if_neg hi] at hn
    exact ⟨hn, hid⟩
  · rintro ⟨hn, hid⟩
    have hi : id.index ≠ g.nextSlot := by
      intro hi
      rw [hi, h.arena.nodeAt?_nextSlot] at hn
      cases hn
    exact ⟨hi, by rw [if_neg hi]; exact hn, hid⟩

/-- **Giving a placed node up again keeps a graph sound**: only a generation was spent. -/
theorem Sound.vacate_place (h : g.Sound) (k : NodeKind) :
    ((g.place (blank k)).2.vacate g.nextSlot).Sound := by
  have hp := h.place k
  have hat : ∀ j, ((g.place (blank k)).2.vacate g.nextSlot).nodeAt? j = g.nodeAt? j := by
    intro j
    rw [nodeAt?_vacate, nodeAt?_place h.arena]
    split
    · next hj => rw [hj, h.arena.nodeAt?_nextSlot]
    · rfl
  have hedges := h.edges_vacate_place k
  have hlen := Nat.le_trans (length_place_le g (blank k))
    (Nat.le_of_eq (length_vacate (g.place (blank k)).2 g.nextSlot).symm)
  have hplaced : (g.place (blank k)).2.nodeAt? g.nextSlot = some (blank k) := by
    rw [nodeAt?_place h.arena, if_pos rfl]
  refine ⟨⟨hp.arena.vacate hplaced, ⟨fun i n hn => ?_, fun e he => ?_⟩, ?_, ?_, ?_, ?_⟩, ?_⟩
  · rw [hat] at hn
    exact h.wellFormed.fits i n hn
  · rw [hedges] at he
    exact (h.wellFormed.joins e he).congr (by rw [layoutAt, layoutAt, hat])
      (by rw [layoutAt, layoutAt, hat])
  · rw [hedges]
    exact h.nodup
  · rw [hedges]
    exact h.acyclic
  · exact h.nested.congr fun id n => by rw [h.node_vacate_place k id]
  · intro r hr
    rw [hat]
    exact h.root r ((root_place g _).symm.trans hr)
  · intro r hr
    have hr' : g.root = some r := (root_place g _).symm.trans hr
    change (g.place (blank k)).2.schedule = _
    rw [schedule_place, h.schedule r hr', h.pullOrder_eq hedges hlen hr']

theorem associate_run (g : Graph) (k : NodeKind) (l : Layout) :
    (associate k l).run g = match (g.place (blank k)).2.applyLayoutAt g.nextSlot l with
      | .ok g' => (.ok (g'.handleAt g.nextSlot), g')
      | .error e => (.error e, (g.place (blank k)).2.vacate g.nextSlot) := by
  rw [associate, run_bind_ok (run_get g), ← fst_place g (blank k)]
  rcases g.place (blank k) with ⟨i, g₁⟩
  simp only
  cases g₁.applyLayoutAt i l with
  | ok g' => rfl
  | error e => rfl

/-- **Adding a node keeps a graph sound, whether its layout is admitted or not.** -/
theorem Sound.associate (h : g.Sound) (k : NodeKind) (l : Layout) :
    ((Graph.associate k l).run g).2.Sound := by
  have hplaced : (g.place (blank k)).2.nodeAt? g.nextSlot = some (blank k) := by
    rw [nodeAt?_place h.arena, if_pos rfl]
  rw [associate_run]
  split
  · next g' hok => exact (h.place k).applyLayoutAt hplaced hok
  · exact h.vacate_place k

/-- One handle names another node, and nothing else changed that a handle or a connection shows. -/
structure Wrote (g : Graph) (id : NodeId) (n : Node) (g' : Graph) : Prop where
  node : ∀ x, g'.node x = if x = id then .ok n else g.node x
  edges : g'.edges = g.edges
  sound : g'.Sound

/-- **A layout in bounds is admitted for a new node.** -/
theorem run_associate (h : g.Sound) (k : NodeKind) (hl : l.InBounds) :
    ∃ g', (associate k l).run g = (.ok g.nextHandle, g') ∧
      g.Wrote g.nextHandle (arrange l (blank k)) g' := by
  have hsound := h.associate k l
  have hplaced : (g.place (blank k)).2.nodeAt? g.nextSlot = some (blank k) := by
    rw [nodeAt?_place h.arena, if_pos rfl]
  have hhandle : (g.place (blank k)).2.handleAt g.nextSlot = g.nextHandle := handleAt_place g _ _
  have hnode : (g.place (blank k)).2.node g.nextHandle = .ok (blank k) := by
    rw [← hhandle]
    exact node_handleAt.mpr hplaced
  -- nothing is connected to a new node
  have hcheck : (g.place (blank k)).2.checkEdges g.nextSlot l = .ok () := by
    have hno : ∀ e ∈ (g.place (blank k)).2.edges, e.source ≠ g.nextSlot ∧ e.target ≠ g.nextSlot := by
      intro e he
      rw [edges_place] at he
      exact h.wellFormed.ne_of_vacant h.arena.nodeAt?_nextSlot he
    refine checkEdges_eq_ok.mpr ⟨fun e he => ?_, fun e he => ?_⟩
    · obtain ⟨he, ht⟩ := List.mem_filter.mp he
      exact absurd (by simpa using ht) (hno e he).2
    · obtain ⟨he, hs⟩ := List.mem_filter.mp he
      exact absurd (by simpa using hs) (hno e he).1
  have hnew : rearrange l (blank k) = arrange l (blank k) := by
    rw [rearrange]
    split
    · next hempty =>
      rw [← hempty]
      rfl
    · rfl
  rw [associate_run, (applyLayoutAt_eq_ok (h.place k).wellFormed hplaced).mpr ⟨hl, hcheck, rfl⟩]
    at hsound ⊢
  refine ⟨(g.place (blank k)).2.modifyAt g.nextSlot (rearrange l),
    by simp only [handleAt_modifyAt, hhandle], fun x => ?_, edges_place g _, hsound⟩
  rw [show g.nextSlot = g.nextHandle.index from rfl, node_modifyAt _ hnode, hnew,
    node_place h.arena]
  split <;> rfl

/-- A node is added, or nothing is. -/
theorem associate_cases (h : g.Sound) (k : NodeKind) (l : Layout) :
    (∃ g', (associate k l).run g = (.ok g.nextHandle, g') ∧
      g.Wrote g.nextHandle (arrange l (blank k)) g') ∨
    ∃ e g', (associate k l).run g = (.error e, g') ∧ g'.Sound ∧ (∀ x, g'.node x = g.node x) ∧
      g'.edges = g.edges := by
  have hplaced : (g.place (blank k)).2.nodeAt? g.nextSlot = some (blank k) := by
    rw [nodeAt?_place h.arena, if_pos rfl]
  cases happly : (g.place (blank k)).2.applyLayoutAt g.nextSlot l with
  | ok g' => exact .inl (run_associate h k ((applyLayoutAt_eq_ok (h.place k).wellFormed hplaced).mp
      happly).1)
  | error e =>
    refine .inr ⟨e, _, ?_, h.vacate_place k, h.node_vacate_place k, h.edges_vacate_place k⟩
    rw [associate_run, happly]

/-! ## Removing -/

/-- Takes a node out of its slot; the schedule of a node that is gone goes with it. -/
def retire (g : Graph) (i : Nat) : Graph :=
  (if g.root = some i then { g with root := none, schedule := [] } else g).vacate i

theorem nodeAt?_retire (g : Graph) (i j : Nat) :
    (g.retire i).nodeAt? j = if j = i then none else g.nodeAt? j := by
  rw [retire, nodeAt?_vacate]
  split
  · rfl
  · split <;> rfl

theorem handleAt_retire (g : Graph) {i j : Nat} (h : j ≠ i) :
    (g.retire i).handleAt j = g.handleAt j := by
  rw [retire, handleAt_vacate _ h]
  split <;> rfl

theorem edges_retire (g : Graph) (i : Nat) :
    (g.retire i).edges = g.edges.filter fun e => e.source ≠ i ∧ e.target ≠ i := by
  rw [retire, vacate]
  split <;> rfl

theorem root_retire (g : Graph) (i r : Nat) :
    (g.retire i).root = some r ↔ g.root = some r ∧ r ≠ i := by
  rw [retire]
  change (if _ then { g with root := none, schedule := [] } else g).root = some r ↔ _
  split
  · next hroot =>
    rw [hroot]
    simp only [reduceCtorEq, false_iff, not_and, not_not]
    exact fun hr => (Option.some.inj hr).symm
  · next hroot =>
    refine ⟨fun hr => ⟨hr, ?_⟩, And.left⟩
    rintro rfl
    exact hroot hr

theorem Arena.retire (ha : g.Arena) (h : g.nodeAt? i = some n) : (g.retire i).Arena := by
  rw [Graph.retire]
  split
  · exact Arena.vacate (g := { g with root := none, schedule := [] }) ⟨ha.vacant, ha.nodup⟩ h
  · exact ha.vacate h

/-- Some slots were vacated, with all of their connections. -/
structure Retired (g : Graph) (gone : List Nat) (g' : Graph) : Prop where
  nodeAt? : ∀ j, g'.nodeAt? j = if j ∈ gone then none else g.nodeAt? j
  handleAt : ∀ j, j ∉ gone → g'.handleAt j = g.handleAt j
  edges : g'.edges = g.edges.filter fun e => e.source ∉ gone ∧ e.target ∉ gone
  root : ∀ r, g'.root = some r ↔ g.root = some r ∧ r ∉ gone
  arena : g'.Arena

theorem retired_foldl (ha : g.Arena) {gone : List Nat} (hnd : gone.Nodup)
    (hlive : ∀ j ∈ gone, ∃ n, g.nodeAt? j = some n) : g.Retired gone (gone.foldl retire g) := by
  induction gone generalizing g with
  | nil =>
    refine ⟨fun j => by simp, fun j _ => rfl, ?_, fun r => by simp, ha⟩
    exact (List.filter_eq_self.mpr (by simp)).symm
  | cons i gone ih =>
    obtain ⟨hi, hnd⟩ := List.nodup_cons.mp hnd
    obtain ⟨n, hn⟩ := hlive i List.mem_cons_self
    have hrest : ∀ j ∈ gone, ∃ n, (g.retire i).nodeAt? j = some n := by
      intro j hj
      rw [nodeAt?_retire, if_neg (ne_of_mem_of_not_mem hj hi)]
      exact hlive j (List.mem_cons_of_mem i hj)
    have h := ih (ha.retire hn) hnd hrest
    refine ⟨fun j => ?_, fun j hj => ?_, ?_, fun r => ?_, h.arena⟩
    · rw [List.foldl_cons, h.nodeAt?, nodeAt?_retire]
      simp only [List.mem_cons]
      grind
    · obtain ⟨hji, hj⟩ := not_or.mp (mt List.mem_cons.mpr hj)
      rw [List.foldl_cons, h.handleAt j hj, handleAt_retire g hji]
    · rw [List.foldl_cons, h.edges, edges_retire, List.filter_filter]
      refine List.filter_congr fun e _ => ?_
      simp only [List.mem_cons]
      grind
    · rw [List.foldl_cons, h.root, root_retire, List.mem_cons]
      grind

/-- Which handles are left. -/
theorem Retired.node {gone : List Nat} (h : g.Retired gone g') {id : NodeId} {m : Node} :
    g'.node id = .ok m ↔ id.index ∉ gone ∧ g.node id = .ok m := by
  rw [node_eq_ok, node_eq_ok, h.nodeAt?]
  by_cases hid : id.index ∈ gone
  · simp [hid]
  · rw [if_neg hid, h.handleAt _ hid]
    exact ⟨fun hn => ⟨hid, hn⟩, And.right⟩

theorem mem_ownedBy {id : NodeId} :
    j ∈ g.ownedBy id ↔ ∃ m, g.nodeAt? j = some m ∧ m.owner = some id := by
  rw [ownedBy, List.mem_filter, List.mem_range, decide_eq_true_eq, Option.bind_eq_some_iff]
  exact ⟨And.right, fun h => ⟨lt_of_nodeAt? h.choose_spec.1, h⟩⟩

/-- A node that owns nothing is taken out alone. -/
theorem removeAt_of_not_owner {depth : Nat} (h : g.ownedBy (g.handleAt i) = []) :
    removeAt (depth + 1) g i = g.retire i := by
  rw [removeAt, h]
  rfl

/-- Nodes that own nothing are taken out one by one. -/
theorem foldl_removeAt (depth : Nat) {gone : List Nat} (hnd : gone.Nodup)
    (hfree : ∀ j ∈ gone, ∀ k m, g.nodeAt? k = some m → m.owner ≠ some (g.handleAt j)) :
    gone.foldl (removeAt (depth + 1)) g = gone.foldl retire g := by
  induction gone generalizing g with
  | nil => rfl
  | cons i gone ih =>
    obtain ⟨hi, hnd⟩ := List.nodup_cons.mp hnd
    have hnone : g.ownedBy (g.handleAt i) = [] := by
      refine List.eq_nil_iff_forall_not_mem.mpr fun k hk => ?_
      obtain ⟨m, hm, hown⟩ := mem_ownedBy.mp hk
      exact hfree i List.mem_cons_self k m hm hown
    rw [List.foldl_cons, List.foldl_cons, removeAt_of_not_owner hnone]
    refine ih hnd fun j hj k m hm => ?_
    rw [handleAt_retire g (ne_of_mem_of_not_mem hj hi)]
    rw [nodeAt?_retire] at hm
    split at hm
    · cases hm
    · exact hfree j (List.mem_cons_of_mem i hj) k m hm

/-- The slots that a node takes with it. -/
def household (g : Graph) (id : NodeId) : List Nat := g.ownedBy id ++ [id.index]

theorem mem_household {id : NodeId} : j ∈ g.household id ↔ j ∈ g.ownedBy id ∨ j = id.index := by
  rw [household, List.mem_append, List.mem_singleton]

/-- A node is not among those it owns, and these are no subgraphs. -/
theorem Nested.of_mem_ownedBy (h : g.Nested) {id : NodeId} (hj : j ∈ g.ownedBy id) :
    ∃ m, g.node (g.handleAt j) = .ok m ∧ m.owner = some id ∧ m.interior = none := by
  obtain ⟨m, hm, hown⟩ := mem_ownedBy.mp hj
  have hnode := node_handleAt.mpr hm
  exact ⟨m, hnode, hown, (h.owned _ m id hnode hown).1⟩

/-- **Removing a node vacates its own slot and those of the nodes it owns.** -/
theorem remove_eq_ok (h : g.Coherent) {id : NodeId} : g.remove id = .ok g' ↔
    (∃ n, g.node id = .ok n ∧ n.owner = none) ∧
      g' = ((g.household id).foldl retire g).reschedule := by
  rw [remove, bind_eq_ok]
  have hremove : ∀ {n : Node}, g.node id = .ok n →
      removeAt (g.slots.length + 1) g id.index = (g.household id).foldl retire g := by
    intro n hn
    obtain ⟨depth, hdepth⟩ := Nat.exists_eq_add_of_lt (lt_of_nodeAt? (nodeAt?_of_node hn))
    have hfree : ∀ j ∈ g.ownedBy id, ∀ k m, g.nodeAt? k = some m → m.owner ≠ some (g.handleAt j) := by
      intro j hj k m hm hown
      obtain ⟨o, ho, -, hplain⟩ := h.nested.of_mem_ownedBy hj
      obtain ⟨-, o', ho', hsome⟩ := h.nested.owned _ m _ (node_handleAt.mpr hm) hown
      rw [ho] at ho'
      cases ho'
      exact hsome hplain
    have hfold := foldl_removeAt (id.index + depth)
      (List.Nodup.filter _ List.nodup_range) hfree
    rw [household, List.foldl_append, removeAt, handleAt_of_node hn, hdepth]
    exact congrArg (fun g : Graph => g.retire id.index) hfold
  constructor
  · rintro ⟨i, hi, hrest⟩
    obtain ⟨⟨n, hn, hown⟩, rfl⟩ := publicIndex_eq_ok.mp hi
    exact ⟨⟨n, hn, hown⟩, by rw [← hremove hn, pure_eq_ok.mp hrest]⟩
  · rintro ⟨⟨n, hn, hown⟩, rfl⟩
    exact ⟨id.index, publicIndex_eq_ok.mpr ⟨⟨n, hn, hown⟩, rfl⟩, by rw [hremove hn]; rfl⟩

theorem nodup_household {id : NodeId} (hn : g.node id = .ok n) (hown : n.owner = none) :
    (g.household id).Nodup := by
  refine List.nodup_append.mpr ⟨List.Nodup.filter _ List.nodup_range, List.nodup_singleton _, ?_⟩
  rintro j hj i hi rfl
  obtain ⟨m, hm, howner⟩ := mem_ownedBy.mp hj
  rw [List.mem_singleton.mp hi, nodeAt?_of_node hn] at hm
  cases hm
  rw [hown] at howner
  cases howner

theorem exists_of_mem_household {id : NodeId} (hn : g.node id = .ok n) (hj : j ∈ g.household id) :
    ∃ m, g.nodeAt? j = some m := by
  rcases mem_household.mp hj with hj | rfl
  · obtain ⟨m, hm, -⟩ := mem_ownedBy.mp hj
    exact ⟨m, hm⟩
  · exact ⟨n, nodeAt?_of_node hn⟩

theorem Coherent.retired (h : g.Coherent) {id : NodeId} (hn : g.node id = .ok n)
    (hown : n.owner = none) :
    g.Retired (g.household id) ((g.household id).foldl Graph.retire g) :=
  retired_foldl h.arena (nodup_household hn hown) fun _ => exists_of_mem_household hn

/-- **Removing a node keeps a graph sound.** -/
theorem Sound.remove (h : g.Sound) {id : NodeId} (hr : g.remove id = .ok g') : g'.Sound := by
  obtain ⟨⟨n, hn, hown⟩, rfl⟩ := (remove_eq_ok h.toCoherent).mp hr
  have hret := h.toCoherent.retired hn hown
  generalize (g.household id).foldl Graph.retire g = g₁ at hret ⊢
  -- a subgraph leaves as a whole, so the handles inside those that are left are good
  have hkeep : ∀ {x o : NodeId} {m : Node}, g.node x = .ok m → m.owner = some o → o.index ≠ id.index →
      x.index ∉ g.household id := by
    intro x o m hx howner ho hmem
    rcases mem_household.mp hmem with hmem | hindex
    · obtain ⟨m', hm', howner'⟩ := mem_ownedBy.mp hmem
      rw [nodeAt?_of_node hx] at hm'
      cases hm'
      rw [howner] at howner'
      cases howner'
      exact ho rfl
    · rw [eq_of_index_eq hx hn hindex, hn] at hx
      cases hx
      rw [hown] at howner
      cases howner
  refine Coherent.reschedule ⟨hret.arena, ⟨fun i m hm => ?_, fun e he => ?_⟩, ?_, ?_, ⟨?_, ?_⟩, ?_⟩
  · rw [hret.nodeAt?] at hm
    split at hm
    · cases hm
    · exact h.wellFormed.fits i m hm
  · rw [hret.edges, List.mem_filter, decide_eq_true_eq] at he
    obtain ⟨he, hs, ht⟩ := he
    refine (h.wellFormed.joins e he).congr ?_ ?_
    · rw [layoutAt, layoutAt, hret.nodeAt?, if_neg hs]
    · rw [layoutAt, layoutAt, hret.nodeAt?, if_neg ht]
  · rw [hret.edges]
    exact h.nodup.filter _
  · rw [hret.edges]
    exact h.acyclic.mono fun _ => List.mem_of_mem_filter
  · intro x m e hm he y hy
    obtain ⟨hx, hm⟩ := hret.node.mp hm
    obtain ⟨k, hk, hplain, howner⟩ := h.nested.ends x m e hm he y hy
    refine ⟨k, hret.node.mpr ⟨?_, hk⟩, hplain, howner⟩
    exact hkeep hk howner fun hindex => hx (mem_household.mpr (.inr hindex))
  · intro x m o hm ho
    obtain ⟨hx, hm⟩ := hret.node.mp hm
    obtain ⟨hplain, k, hk, hsome⟩ := h.nested.owned x m o hm ho
    refine ⟨hplain, k, hret.node.mpr ⟨fun hmem => ?_, hk⟩, hsome⟩
    rcases mem_household.mp hmem with hmem | hindex
    · obtain ⟨k', hk', -, hplain'⟩ := h.nested.of_mem_ownedBy hmem
      rw [handleAt_of_node hk, hk] at hk'
      cases hk'
      exact hsome hplain'
    · rw [eq_of_index_eq hk hn hindex] at ho
      exact hx (mem_household.mpr (.inl (mem_ownedBy.mpr ⟨m, nodeAt?_of_node hm, ho⟩)))
  · intro r hr
    obtain ⟨hr, hgone⟩ := (hret.root r).mp hr
    rw [hret.nodeAt?, if_neg hgone]
    exact h.root r hr

end SpatialAudio.Graph
