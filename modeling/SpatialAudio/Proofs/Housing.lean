import SpatialAudio.Proofs.Runs

/-!
# Proofs/Housing — every multipanner owns the nodes it stands for

Nodes of a subgraph are private, so nobody takes them away but with their owner, and a multipanner is
made together with all of its nodes.  Hence in every session that is run step by step the handles
which a multipanner holds are good, and the nodes they name are its own (`Ran.housed`).
-/

namespace SpatialAudio

open SpatialAudio.Graph

theorem NodeKind.exists_of_type {k : NodeKind} (h : k.type = .multipanner) :
    ∃ m, k = .multipanner m := by
  cases k with
  | multipanner m => exact ⟨m, rfl⟩
  | _ => cases h

theorem NodeKind.layoutApplied_eq_multipanner {k : NodeKind} {m : Multipanner} :
    k.layoutApplied = .multipanner m ↔ k = .multipanner m := by
  cases k <;> simp [layoutApplied]

/-- Blocks make no multipanner out of another node. -/
theorem Node.Played.panner_iff {n n' : Node} (h : n.Played n') {m : Multipanner} :
    n'.kind = .multipanner m ↔ n.kind = .multipanner m := by
  refine ⟨fun hm => ?_, h.panner m⟩
  obtain ⟨m', hm'⟩ := NodeKind.exists_of_type (k := n.kind) (by rw [← h.type, hm]; rfl)
  have heq := h.panner m' hm'
  rw [hm] at heq
  cases heq
  exact hm'

namespace Graph

/-- Every multipanner owns the nodes it stands for. -/
structure Housed (g : Graph) : Prop where
  sound : g.Sound
  owns : ∀ x n m, g.node x = .ok n → n.kind = .multipanner m →
    ∀ y ∈ m.inside, ∃ n', g.node y = .ok n' ∧ n'.owner = some x

variable {g g' : Graph}

/-- Owned nodes stay, and new multipanners are the old ones. -/
theorem Housed.congr (h : g.Housed) (hs : g'.Sound)
    (forth : ∀ y n x, g.node y = .ok n → n.owner = some x →
      ∃ n', g'.node y = .ok n' ∧ n'.owner = some x)
    (back : ∀ x n' m, g'.node x = .ok n' → n'.kind = .multipanner m →
      ∃ n m', g.node x = .ok n ∧ n.kind = .multipanner m' ∧ m.inside = m'.inside) : g'.Housed := by
  refine ⟨hs, fun x n' m hn' hm y hy => ?_⟩
  obtain ⟨n, m', hn, hm', hinside⟩ := back x n' m hn' hm
  obtain ⟨ny, hny, howner⟩ := h.owns x n m' hn hm' y (hinside ▸ hy)
  exact forth y ny x hny howner

theorem Housed.of_node (h : g.Housed) (hs : g'.Sound) (hnode : ∀ x, g'.node x = g.node x) :
    g'.Housed :=
  h.congr hs (fun y n _ hn ho => ⟨n, by rw [hnode, hn], ho⟩)
    fun x n m hn hm => ⟨n, m, by rw [← hnode, hn], hm, rfl⟩

/-- One node is written, by one of the same owner. -/
theorem Housed.wrote (h : g.Housed) {id : NodeId} {n' : Node} (hw : g.Wrote id n' g')
    (howner : ∀ n, g.node id = .ok n → n'.owner = n.owner)
    (hkind : ∀ m, n'.kind = .multipanner m →
      ∃ n m', g.node id = .ok n ∧ n.kind = .multipanner m' ∧ m.inside = m'.inside) : g'.Housed := by
  refine h.congr hw.sound (fun y n x hn ho => ?_) fun x n m hn hm => ?_
  · rw [hw.node]
    split
    · next hy =>
      subst hy
      exact ⟨n', rfl, (howner n hn).trans ho⟩
    · exact ⟨n, hn, ho⟩
  · rw [hw.node] at hn
    split at hn
    · next hx =>
      cases hn
      subst hx
      exact hkind m hm
    · exact ⟨n, m, hn, hm, rfl⟩

theorem Housed.within (h : g.Housed) (hw : Within Node.Played g g') : g'.Housed := by
  refine h.congr (h.sound.pullStep (.played hw)) (fun y n x hn ho => ?_) fun x n' m hn' hm => ?_
  · obtain ⟨n', hn', hp⟩ := hw.node_forth hn
    exact ⟨n', hn', hp.owner.trans ho⟩
  · obtain ⟨n, hn, hp⟩ := hw.node_back hn'
    exact ⟨n, m, hn, hp.panner_iff.mp hm, rfl⟩

theorem Housed.applyLayout (h : g.Housed) {id : NodeId} {l : Layout}
    (happly : g.applyLayout id l = .ok g') : g'.Housed := by
  obtain ⟨n, hn, hw⟩ := h.sound.exists_applyLayout happly
  refine h.wrote hw (fun n₀ hn₀ => ?_) fun m hm => ?_
  · cases hn.symm.trans hn₀
    exact rearrange_owner l n
  · rw [rearrange_kind, NodeKind.layoutApplied_eq_multipanner] at hm
    exact ⟨n, m, hn, hm, rfl⟩

theorem Housed.pulled (h : g.Housed) (hp : Pulled g g') : g'.Housed := by
  induction hp with
  | refl => exact h
  | tail _ hstep ih =>
    cases hstep with
    | played hw => exact ih.within hw
    | arranged i n q hn hk happly => exact ih.applyLayout (applyLayout_handleAt hn happly)

/-- A node takes along all nodes it owns. -/
theorem Housed.remove (h : g.Housed) {id : NodeId} (hr : g.remove id = .ok g') : g'.Housed := by
  have hs := h.sound.remove hr
  obtain ⟨⟨n, hn, hown⟩, rfl⟩ := (remove_eq_ok h.sound.toCoherent).mp hr
  have hret := h.sound.toCoherent.retired hn hown
  refine ⟨hs, fun x nx m hx hm y hy => ?_⟩
  rw [node_reschedule] at hx ⊢
  obtain ⟨hgone, hx⟩ := hret.node.mp hx
  obtain ⟨ny, hny, howner⟩ := h.owns x nx m hx hm y hy
  refine ⟨ny, hret.node.mpr ⟨fun hmem => ?_, hny⟩, howner⟩
  rcases mem_household.mp hmem with hmem | hindex
  · obtain ⟨ny', hny', howner'⟩ := mem_ownedBy.mp hmem
    cases (nodeAt?_of_node hny).symm.trans hny'
    cases howner.symm.trans howner'
    exact hgone (mem_household.mpr (.inr rfl))
  · rw [eq_of_index_eq hny hn hindex] at hny
    cases hny.symm.trans hn
    cases hown.symm.trans howner

theorem Housed.assembled (h : g.Housed) {id : NodeId} {m : Multipanner}
    (ha : Multipanner.Assembled g id m g') : g'.Housed := by
  refine ⟨ha.sound, fun x n k hx hk y hy => ?_⟩
  rcases ha.panner_cases hx hk with ⟨rfl, rfl⟩ | hx
  · obtain ⟨ny, hny, howner, -⟩ := ha.member hy
    exact ⟨ny, hny, howner⟩
  · obtain ⟨ny, hny, howner⟩ := h.owns x n k hx hk y hy
    refine ⟨ny, ?_, howner⟩
    rw [ha.others y fun hin => ha.fresh y hin ny hny, hny]

theorem Housed.modifyProperty (h : g.Housed) (id : NodeId) (p : PropertyId)
    (f : Property → Property) : (g.modifyProperty id p f).Housed := by
  rcases h.sound.modifyProperty_cases id p f with hsame | ⟨n, hn, hw⟩
  · rw [hsame]
    exact h
  · refine h.wrote hw (fun n₀ hn₀ => ?_) fun m hm => ⟨n, m, hn, hm, rfl⟩
    cases hn.symm.trans hn₀
    rfl

/-- **Multipanners keep what is theirs, whatever is done.** -/
theorem stable_housed : Stable .lax (fun _ => True) Housed Housed where
  halts _ h := h
  halted _ id p f h := h.modifyProperty id p f
  spared _ _ _ := rfl
  observed _ _ := trivial
  remapped _ _ := rfl
  books g rings faults h := h.pulled (.single (pullStep_books g g.blocks faults rings))
  associate g k l hk h := by
    rcases associate_cases h.sound k l with ⟨g', hrun, hw⟩ | ⟨e, g', hrun, hs, hnode, -⟩
    · rw [hrun]
      refine h.wrote hw (fun n hn => absurd hn (h.sound.arena.node_nextHandle n)) fun m hm => ?_
      rw [show k = .multipanner m from NodeKind.layoutApplied_eq_multipanner.mp hm] at hk
      exact absurd rfl hk
    · rw [hrun]
      exact h.of_node hs hnode
  fresh _ _ _ _ _ _ _ := trivial
  assemble g data h := by
    cases hq : HrtfPanner.new data with
    | error a =>
      rw [Multipanner.run_assemble_of_error hq]
      exact h
    | ok q =>
      obtain ⟨id, m, g', hrun, ha⟩ := Multipanner.run_assemble h.sound hq
      rw [hrun]
      exact h.assembled ha
  assembled _ _ _ _ _ _ := trivial
  property _ id p f _ h := h.modifyProperty id p f
  remove _ _ _ _ h hr := h.remove hr
  connect _ _ _ _ _ _ h hc :=
    h.of_node (h.sound.move (.connect hc)) (node_connectAt (connect_eq_ok.mp hc).2.2)
  disconnect _ _ _ _ h hc :=
    h.of_node (h.sound.move (.disconnect hc)) (node_disconnectAt (disconnect_eq_ok.mp hc).2)
  connectInterior _ _ _ _ _ _ _ _ h hc :=
    h.of_node (h.sound.move (.connectInterior hc)) (node_connectAt (connectInterior_eq_ok.mp hc).2.2)
  disconnectInterior _ _ _ _ _ h hc :=
    h.of_node (h.sound.move (.disconnectInterior hc))
      (node_disconnectAt (disconnectInterior_eq_ok.mp hc).2)
  applyLayout _ _ _ _ _ h happly := h.applyLayout happly
  recomputeMap g id _ h := by
    rcases h.sound.recomputeMap_cases id with hsame | ⟨n, n', q, q', hn, -, hk', ho, hw⟩
    · rw [hsame]
      exact h
    · refine h.wrote hw (fun n₀ hn₀ => ?_) fun m hm => ?_
      · cases hn.symm.trans hn₀
        exact ho
      · cases hk'.symm.trans hm
  markRecompute _ _ _ h hm := h.within (within_markRecompute hm)
  strategy g id k strategy _ h hfind := by
    obtain ⟨n, hn, hk⟩ := Multipanner.find_eq_ok.mp hfind
    have hw := h.sound.wrote (f := fun n => { n with kind := .multipanner { k with strategy } }) hn
      ⟨⟨rfl, rfl, rfl⟩, rfl, rfl⟩
    refine h.wrote hw (fun n₀ hn₀ => ?_) fun m hm => ?_
    · cases hn.symm.trans hn₀
      rfl
    · cases hm
      exact ⟨n, k, hn, hk, rfl⟩
  family _ _ _ _ _ _ := ⟨trivial, trivial, trivial⟩
  pull g g' id h hp := by
    obtain ⟨root, ⟨n, hn⟩, hroot, hpulled⟩ := pull_eq_ok hp
    rw [h.sound.nested.sourceSide hn] at hroot
    cases hroot
    obtain ⟨n', hn'⟩ := h.sound.nested.exists_sourceEnd hn
    exact (h.of_node (h.sound.scheduleFor hn') (node_scheduleFor g _)).pulled hpulled

end Graph

/-! ## Sessions step by step -/

/-- The states of sessions between their steps, whatever the outcome of a step. -/
inductive Session.Ran : Session → Prop
  | new (rate capacity : Nat) : Ran (Session.new rate capacity)
  | step {s : Session} : Ran s → (step : Step) → Ran (s.step step).2

/-- **In every session multipanners own the nodes they stand for.** -/
theorem Session.Ran.housed {s : Session} (h : s.Ran) : s.graph.Housed := by
  induction h with
  | new rate capacity =>
    refine ⟨sound_new _ capacity, fun x n m hn => ?_⟩
    simp [Session.new, Graph.new, node] at hn
  | step _ step ih => exact stable_housed.snd_step ih step

end SpatialAudio
