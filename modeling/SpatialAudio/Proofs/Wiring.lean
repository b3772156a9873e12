import SpatialAudio.Proofs.Runs

/-!
# Proofs/Wiring — connections and schedules of reachable graphs

In every reachable graph the schedule is the pull order of the node it was made for, whatever was
connected, disconnected, added and removed since (`schedule_of_reachable`).  Connections are listed
once and close no cycle, and a connection is refused only for what it is refused for by its
definition: a connection that would close a cycle, or whose slots do not exist or differ in width
(`connections_of_reachable`).
-/

namespace SpatialAudio

open SpatialAudio.Graph Relation

/-! ## Schedules -/

/-- **The schedule is right in every reachable graph**: it lists every node that leads to the root
once, sources before targets and the root last, and is what would be computed anew. -/
theorem schedule_of_reachable {s : Session} (h : s.Reachable) {r : Nat}
    (hr : s.graph.root = some r) :
    (∃ n, s.graph.nodeAt? r = some n) ∧ s.graph.schedule.Nodup ∧
      (∀ i, i ∈ s.graph.schedule ↔ Leads s.graph.edges i r) ∧
      s.graph.schedule.getLast? = some r ∧
      (∀ e ∈ s.graph.edges, e.target ∈ s.graph.schedule → e.source ∈ s.graph.schedule ∧
        s.graph.schedule.idxOf e.source < s.graph.schedule.idxOf e.target) ∧
      s.graph.schedule = s.graph.pullOrder r := by
  have hs := h.sound
  obtain ⟨n, hn⟩ := hs.root r hr
  have hac := hs.acyclic
  have hlt := hs.wellFormed.source_lt
  have hroot := lt_of_nodeAt? hn
  rw [hs.schedule r hr]
  refine ⟨⟨n, hn⟩, nodup_pullOrder hac hlt hroot, fun i => mem_pullOrder_iff hac hlt hroot,
    getLast?_pullOrder hac hlt hroot, fun e he ht => ⟨?_, idxOf_pullOrder_lt hac hlt hroot he ht⟩, rfl⟩
  rw [mem_pullOrder_iff hac hlt hroot] at ht ⊢
  exact .head ⟨e, he, rfl, rfl⟩ ht

/-- Three nodes in a row, the first of which is connected after the last was pulled. -/
def gainsInARow : Session :=
  let s := ((Session.new 44100 64).step (.create "a" (.gain 1))).2
  let s := (s.step (.create "b" (.gain 1))).2
  let s := (s.step (.create "c" (.gain 1))).2
  let s := (s.step (.command (.connect "b" 0 "c" 0))).2
  let s := (s.step (.process "c" 1)).2
  (s.step (.command (.connect "a" 0 "b" 0))).2

theorem reachable_gainsInARow : gainsInARow.Reachable :=
  .step (.step (.step (.step (.step (.step (.new 44100 64) _) _) _) _) _) _

theorem schedule_gainsInARow : gainsInARow.graph.root = some 2 ∧
    gainsInARow.graph.schedule = [0, 1, 2] ∧ gainsInARow.graph.schedule.Nodup ∧
    (∀ i, i ∈ gainsInARow.graph.schedule ↔ Leads gainsInARow.graph.edges i 2) ∧
    gainsInARow.graph.schedule = gainsInARow.graph.pullOrder 2 := by
  have hroot : gainsInARow.graph.root = some 2 := by decide +kernel
  obtain ⟨-, hnd, hmem, -, -, horder⟩ := schedule_of_reachable reachable_gainsInARow hroot
  exact ⟨hroot, by decide +kernel, hnd, hmem, horder⟩

/-! ## Connections -/

namespace Graph

variable {g g' : Graph} {a b : NodeId} {o k : Nat} {e : Edge}

/-- The connection that two handles from outside a subgraph stand for. -/
def Route (g : Graph) (a : NodeId) (o : Nat) (b : NodeId) (k : Nat) (e : Edge) : Prop :=
  ∃ n m, g.node a = .ok n ∧ n.owner = none ∧ g.node b = .ok m ∧ m.owner = none ∧
    e = ⟨n.sourceEnd a, o, m.targetEnd b, k⟩

theorem Sound.connect_eq_ok (h : g.Sound) : g.connect a o b k = .ok g' ↔
    ∃ e, g.Route a o b k e ∧ g.Joins e ∧ ¬ Leads g.edges e.target e.source ∧
      g' = if e ∈ g.edges then g else { g with edges := e :: g.edges }.reschedule := by
  rw [Graph.connect_eq_ok]
  constructor
  · rintro ⟨⟨n, hn, hown⟩, ⟨m, hm, hown'⟩, hc⟩
    obtain ⟨s, t, hs, ht, hj, hno, hg'⟩ := connectAt_eq_ok.mp hc
    rw [h.nested.sourceSide hn] at hs
    rw [h.nested.targetSide hm] at ht
    cases hs
    cases ht
    exact ⟨_, ⟨n, m, hn, hown, hm, hown', rfl⟩, hj, hno, hg'⟩
  · rintro ⟨_, ⟨n, m, hn, hown, hm, hown', rfl⟩, hj, hno, hg'⟩
    refine ⟨⟨n, hn, hown⟩, ⟨m, hm, hown'⟩, ?_⟩
    exact connectAt_eq_ok.mpr ⟨_, _, h.nested.sourceSide hn, h.nested.targetSide hm, hj, hno, hg'⟩

/-- Connecting again changes nothing. -/
theorem Sound.connect_connect (h : g.Sound) (hc : g.connect a o b k = .ok g') :
    g'.connect a o b k = .ok g' := by
  have hs' := h.connectAt (Graph.connect_eq_ok.mp hc).2.2
  obtain ⟨e, ⟨n, m, hn, hown, hm, hown', rfl⟩, hj, hno, hg'⟩ := h.connect_eq_ok.mp hc
  have hmem : ⟨n.sourceEnd a, o, m.targetEnd b, k⟩ ∈ g'.edges := by
    rw [hg']
    split
    · next hmem => exact hmem
    · rw [edges_reschedule]
      exact List.mem_cons_self
  have hnode : ∀ x, g'.node x = g.node x := by
    intro x
    rw [hg']
    split
    · rfl
    · rw [node_reschedule]
      rfl
  refine hs'.connect_eq_ok.mpr ⟨_, ⟨n, m, by rw [hnode, hn], hown, by rw [hnode, hm], hown', rfl⟩,
    hs'.wellFormed.joins _ hmem, fun hl => ?_, by rw [if_pos hmem]⟩
  exact hs'.acyclic _ (.head' ⟨_, hmem, rfl, rfl⟩ hl)

/-- A connection is refused as a cycle only if it closes one. -/
theorem Sound.connect_eq_cycle (h : g.Sound) (hc : g.connect a o b k = .error .cycle) :
    ∃ e, g.Route a o b k e ∧ g.Joins e ∧ ¬ Acyclic (e :: g.edges) := by
  have hpublic : ∀ {x : NodeId}, g.publicIndex x ≠ .error .cycle := by
    intro x hx
    rcases bind_eq_error.mp hx with hx | ⟨n, -, hx⟩
    · by_cases hlive : ∃ n, g.node x = .ok n
      · obtain ⟨n, hn⟩ := hlive
        rw [hn] at hx
        cases hx
      · rw [node_eq_error fun n hn => hlive ⟨n, hn⟩] at hx
        cases hx
    · split at hx <;> cases hx
  have hslot : ∀ {slots : List ChannelRange} {i : Nat}, slotRange slots i ≠ .error .cycle := by
    intro slots i hx
    rw [slotRange] at hx
    split at hx <;> cases hx
  rw [Graph.connect] at hc
  rcases bind_eq_error.mp hc with hc | ⟨i, hi, hc⟩
  · exact absurd hc hpublic
  rcases bind_eq_error.mp hc with hc | ⟨j, hj, hc⟩
  · exact absurd hc hpublic
  obtain ⟨⟨n, hn, hown⟩, rfl⟩ := publicIndex_eq_ok.mp hi
  obtain ⟨⟨m, hm, hown'⟩, rfl⟩ := publicIndex_eq_ok.mp hj
  rw [Graph.connectAt, h.nested.sourceSide hn, h.nested.targetSide hm] at hc
  refine ⟨_, ⟨n, m, hn, hown, hm, hown', rfl⟩, ?_⟩
  rcases bind_eq_error.mp hc with hc | ⟨s, hs, hc⟩
  · cases hc
  cases hs
  rcases bind_eq_error.mp hc with hc | ⟨t, ht, hc⟩
  · cases hc
  cases ht
  rcases bind_eq_error.mp hc with hc | ⟨output, ho, hc⟩
  · exact absurd hc hslot
  rcases bind_eq_error.mp hc with hc | ⟨input, hi, hc⟩
  · exact absurd hc hslot
  rcases bind_eq_error.mp hc with hc | ⟨⟨⟩, hw, hc⟩
  · rw [checkWidth] at hc
    split at hc <;> cases hc
  refine ⟨⟨output, input, slotRange_eq_ok.mp ho, slotRange_eq_ok.mp hi, checkWidth_eq_ok.mp hw⟩, ?_⟩
  split at hc
  · next hreach => exact not_acyclic_cons ((reaches_iff g _ _).mp hreach)
  · dsimp only at hc
    split at hc <;> cases hc

theorem Sound.disconnect_eq_ok (h : g.Sound) : g.disconnect a o = .ok g' ↔
    ∃ n r, g.node a = .ok n ∧ n.owner = none ∧
      (g.layoutAt (n.sourceEnd a)).outputSlots[o]? = some r ∧
      g' = if ∃ e ∈ g.edges, e.source = n.sourceEnd a ∧ e.outputSlot = o then
          { g with edges := g.edges.filter fun e =>
            ¬ (e.source = n.sourceEnd a ∧ e.outputSlot = o) }.reschedule
        else g := by
  rw [Graph.disconnect_eq_ok]
  constructor
  · rintro ⟨⟨n, hn, hown⟩, hc⟩
    obtain ⟨s, r, hs, hr, hg'⟩ := disconnectAt_eq_ok.mp hc
    rw [h.nested.sourceSide hn] at hs
    cases hs
    exact ⟨n, r, hn, hown, hr, hg'⟩
  · rintro ⟨n, r, hn, hown, hr, hg'⟩
    exact ⟨⟨n, hn, hown⟩, disconnectAt_eq_ok.mpr ⟨_, r, h.nested.sourceSide hn, hr, hg'⟩⟩

end Graph

/-- **Connections are listed once and close no cycle; two nodes are connected exactly if the slots of
their ends exist and are equally wide and the target does not lead to the source; and a
disconnection removes exactly the connections that leave a slot.** -/
theorem connections_of_reachable {s : Session} (h : s.Reachable) :
    (s.graph.edges.Nodup ∧ Acyclic s.graph.edges) ∧
    (∀ a o b k, (∃ g', s.graph.connect a o b k = .ok g') ↔
      ∃ e, s.graph.Route a o b k e ∧ s.graph.Joins e ∧
        ¬ Leads s.graph.edges e.target e.source) ∧
    (∀ a o b k g', s.graph.connect a o b k = .ok g' →
      (∃ e, s.graph.Route a o b k e ∧ (∀ x, x ∈ g'.edges ↔ x = e ∨ x ∈ s.graph.edges) ∧
        (e ∈ s.graph.edges → g' = s.graph)) ∧
      g'.edges.Nodup ∧ g'.node = s.graph.node ∧ g'.connect a o b k = .ok g') ∧
    (∀ a o b k, s.graph.connect a o b k = .error .cycle →
      ∃ e, s.graph.Route a o b k e ∧ ¬ Acyclic (e :: s.graph.edges)) ∧
    (∀ a o, (∃ g', s.graph.disconnect a o = .ok g') ↔
      ∃ n r, s.graph.node a = .ok n ∧ n.owner = none ∧
        (s.graph.layoutAt (n.sourceEnd a)).outputSlots[o]? = some r) ∧
    (∀ a o g', s.graph.disconnect a o = .ok g' →
      ∃ n, s.graph.node a = .ok n ∧ g'.node = s.graph.node ∧
        g'.edges = s.graph.edges.filter fun e =>
          ¬ (e.source = n.sourceEnd a ∧ e.outputSlot = o)) := by
  have hs := h.sound
  refine ⟨⟨hs.nodup, hs.acyclic⟩, fun a o b k => ?_, fun a o b k g' hc => ?_, fun a o b k hc => ?_,
    fun a o => ?_, fun a o g' hc => ?_⟩
  · simp only [hs.connect_eq_ok]
    constructor
    · rintro ⟨g', e, hroute, hj, hno, -⟩
      exact ⟨e, hroute, hj, hno⟩
    · rintro ⟨e, hroute, hj, hno⟩
      exact ⟨_, e, hroute, hj, hno, rfl⟩
  · have hsound := hs.connectAt (Graph.connect_eq_ok.mp hc).2.2
    have hagain := hs.connect_connect hc
    obtain ⟨e, hroute, -, -, hg'⟩ := hs.connect_eq_ok.mp hc
    refine ⟨⟨e, hroute, fun x => ?_, fun he => by rw [hg', if_pos he]⟩, hsound.nodup, ?_, hagain⟩
    · rw [hg']
      split
      · next he => exact ⟨.inr, fun hx => hx.elim (fun hx => hx ▸ he) id⟩
      · rw [edges_reschedule]
        exact List.mem_cons
    · rw [hg']
      split
      · rfl
      · rw [node_reschedule]
        rfl
  · obtain ⟨e, hroute, -, hcycle⟩ := hs.connect_eq_cycle hc
    exact ⟨e, hroute, hcycle⟩
  · simp only [hs.disconnect_eq_ok]
    constructor
    · rintro ⟨g', n, r, hn, hown, hr, -⟩
      exact ⟨n, r, hn, hown, hr⟩
    · rintro ⟨n, r, hn, hown, hr⟩
      exact ⟨_, n, r, hn, hown, hr, rfl⟩
  · obtain ⟨n, r, hn, -, -, rfl⟩ := hs.disconnect_eq_ok.mp hc
    refine ⟨n, hn, ?_⟩
    split
    · exact ⟨by rw [node_reschedule]; rfl, edges_reschedule _⟩
    · next hany =>
      refine ⟨rfl, (List.filter_eq_self.mpr fun e he => ?_).symm⟩
      simp only [decide_eq_true_eq]
      exact fun hgone => hany ⟨e, he, hgone⟩

theorem connections_gainsInARow :
    gainsInARow.graph.edges = [⟨0, 0, 1, 0⟩, ⟨1, 0, 2, 0⟩] ∧ gainsInARow.graph.edges.Nodup ∧
    Acyclic gainsInARow.graph.edges ∧
    ((∃ g', gainsInARow.graph.connect ⟨2, 0⟩ 0 ⟨0, 0⟩ 0 = .ok g') ↔
      ∃ e, gainsInARow.graph.Route ⟨2, 0⟩ 0 ⟨0, 0⟩ 0 e ∧ gainsInARow.graph.Joins e ∧
        ¬ Leads gainsInARow.graph.edges e.target e.source) := by
  obtain ⟨⟨hnd, hac⟩, hconnect, -⟩ := connections_of_reachable reachable_gainsInARow
  exact ⟨by decide +kernel, hnd, hac, hconnect _ _ _ _⟩

end SpatialAudio
