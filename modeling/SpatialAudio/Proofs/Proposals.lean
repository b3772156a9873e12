import SpatialAudio.Proofs.Dataflow
import SpatialAudio.Proofs.Setting

/-!
# Proofs/Proposals — what nodes ask for before a block, and what they are given

Only an amplitude panner asks for a layout, and only if a property that determines its map was stored
(`Node.wants?_eq_some`): it stages the map that its properties describe (`Node.asking`) and, once it
has the layout, puts that map into effect (`Node.obliged`).  A pass over the schedule obliges node
after node.  It ends with the first node whose layout is refused: all nodes before it are obliged, it
keeps its layout, and nothing else is touched (`Refused`).

A node that was obliged asks for the layout it has (`Node.obliged_obliged`), so a second pass changes
no node before the first refusal, and is refused there again (`Refused.again`).
-/

namespace SpatialAudio

open SpatialAudio.Graph

/-! ## One node -/

namespace Node

/-- The layout that a node asks for before a block. -/
def wants? (n : Node) : Option Layout := (n.kind.propose n.properties).2

/-- The node once it has asked. -/
def asking (n : Node) : Node := { n with kind := (n.kind.propose n.properties).1 }

/-- The node with the layout that it asks for. -/
def obliged (n : Node) : Node :=
  match n.wants? with
  | some l => rearrange l n.asking
  | none => n

/-- The node pans over loudspeakers, and its map may be out of date. -/
def Asks (n : Node) (q : AmplitudePanner) : Prop :=
  n.kind = .amplitudePanner q ∧ n.properties.anyModified AmplitudePanner.mapProperties = true

/-- All of a node that decides what it asks for and whether it has it. -/
def demands (n : Node) : NodeKind × Properties × Layout := (n.kind, n.properties, n.layout)

variable {n : Node} {q : AmplitudePanner} {l : Layout}

/-- **Only an amplitude panner asks for a layout, which is that of the map its properties
describe.** -/
theorem wants?_eq_some : n.wants? = some l ↔ ∃ q, n.Asks q ∧ l = mapLayout n.properties := by
  rw [wants?]
  constructor
  · intro h
    cases hk : n.kind with
    | amplitudePanner q =>
      rw [hk, NodeKind.propose] at h
      split at h
      · next hmod => exact ⟨q, ⟨hk, hmod⟩, (Option.some.inj h).symm⟩
      · cases h
    | _ => rw [hk] at h; cases h
  · rintro ⟨q, ⟨hk, hmod⟩, rfl⟩
    rw [hk, NodeKind.propose, if_pos hmod]
    rfl

theorem Asks.wants? (h : n.Asks q) : n.wants? = some (mapLayout n.properties) :=
  wants?_eq_some.mpr ⟨q, h, rfl⟩

theorem Asks.asking (h : n.Asks q) : n.asking = staged q n := by
  rw [Node.asking, h.1, NodeKind.propose, if_pos h.2]
  rfl

theorem Asks.obliged (h : n.Asks q) : n.obliged = rearrange (mapLayout n.properties) (staged q n) := by
  rw [Node.obliged, h.wants?, h.asking]

theorem asking_of_none (h : n.wants? = none) : n.asking = n := by
  have hkind : (n.kind.propose n.properties).1 = n.kind := by
    rw [wants?] at h
    cases hk : n.kind with
    | amplitudePanner q =>
      rw [hk, NodeKind.propose] at h
      split at h
      · cases h
      · next hmod => rw [NodeKind.propose, if_neg hmod]
    | _ => rfl
  rw [asking, hkind]

theorem obliged_of_none (h : n.wants? = none) : n.obliged = n := by
  rw [obliged, h]

/-- A node asks or is left as it is. -/
theorem asks_or_obliged_eq (n : Node) : (∃ q, n.Asks q) ∨ n.obliged = n := by
  cases h : n.wants? with
  | none => exact .inr (obliged_of_none h)
  | some l =>
    obtain ⟨q, hq, -⟩ := wants?_eq_some.mp h
    exact .inl ⟨q, hq⟩

theorem obliged_of_unmarked
    (h : n.properties.anyModified AmplitudePanner.mapProperties = false) : n.obliged = n := by
  rcases n.asks_or_obliged_eq with ⟨q, hasks⟩ | hself
  · cases h.symm.trans hasks.2
  · exact hself

/-- The map is put into effect with its layout. -/
theorem Asks.kind_obliged (h : n.Asks q) :
    n.obliged.kind = .amplitudePanner ⟨AmplitudePanner.describedMap n.properties, none⟩ := by
  rw [h.obliged, rearrange_kind]
  rfl

theorem Asks.layout_obliged (h : n.Asks q) : n.obliged.layout = mapLayout n.properties := by
  rw [h.obliged, rearrange_layout]

@[simp] theorem properties_obliged (n : Node) : n.obliged.properties = n.properties := by
  rcases n.asks_or_obliged_eq with ⟨q, h⟩ | h
  · rw [h.obliged, rearrange_properties]
    rfl
  · rw [h]

@[simp] theorem owner_obliged (n : Node) : n.obliged.owner = n.owner := by
  rcases n.asks_or_obliged_eq with ⟨q, h⟩ | h
  · rw [h.obliged, rearrange_owner]
    rfl
  · rw [h]

@[simp] theorem interior_obliged (n : Node) : n.obliged.interior = n.interior := by
  rcases n.asks_or_obliged_eq with ⟨q, h⟩ | h
  · rw [h.obliged, rearrange_interior]
    rfl
  · rw [h]

/-- A node is content if it has the layout it would ask for, with its map in effect. -/
theorem obliged_eq_self (h : ∀ q, n.Asks q → n.layout = mapLayout n.properties ∧
    n.kind = .amplitudePanner ⟨AmplitudePanner.describedMap n.properties, none⟩) :
    n.obliged = n := by
  rcases n.asks_or_obliged_eq with ⟨q, hq⟩ | hself
  · obtain ⟨hlayout, hkind⟩ := h q hq
    have happlied : (staged q n).kind.layoutApplied = n.kind := hkind.symm
    rw [hq.obliged, rearrange, if_pos (show (staged q n).layout = _ from hlayout), happlied]
    rfl
  · exact hself

/-- **A node that was obliged asks for what it has.** -/
theorem obliged_obliged (n : Node) : n.obliged.obliged = n.obliged := by
  rcases n.asks_or_obliged_eq with ⟨q, hq⟩ | hself
  · refine obliged_eq_self fun _ _ => ?_
    rw [properties_obliged]
    exact ⟨hq.layout_obliged, hq.kind_obliged⟩
  · rw [hself, hself]

/-- So does a node that differs from it in nothing that counts. -/
theorem obliged_of_demands {m : Node} (h : m.demands = n.obliged.demands) : m.obliged = m := by
  simp only [demands, Prod.mk.injEq] at h
  obtain ⟨hkind, hprops, hlayout⟩ := h
  refine obliged_eq_self fun q hq => ?_
  have hq' : n.obliged.Asks q := ⟨hkind ▸ hq.1, hprops ▸ hq.2⟩
  have hmap := hq'.layout_obliged
  have hcommitted := hq'.kind_obliged
  rw [n.obliged_obliged] at hmap hcommitted
  rw [hprops]
  exact ⟨hlayout.trans hmap, hkind.trans hcommitted⟩

end Node

/-! ## A pass over the schedule -/

namespace Graph

variable {g g' : Graph} {i : Nat} {n : Node} {l : Layout} {e : Error}

theorem eq_of_applyLayoutAt (hn : g.nodeAt? i = some n) (h : g.applyLayoutAt i l = .ok g') :
    g' = g.modifyAt i (rearrange l) := by
  rw [applyLayoutAt, layoutAt_of_nodeAt? hn] at h
  split at h
  · next hl =>
    cases h
    exact modifyAt_congr hn _ (by rw [rearrange, if_pos hl])
  · next hl =>
    obtain ⟨_, -, h⟩ := bind_eq_ok.mp h
    cases h
    exact modifyAt_congr hn _ (by rw [rearrange, if_neg hl])

theorem eq_of_applyLayout {id : NodeId} (h : g.applyLayout id l = .ok g') :
    ∃ n, g.node id = .ok n ∧ g' = g.modifyAt id.index (rearrange l) := by
  obtain ⟨i, hi, happly⟩ := bind_eq_ok.mp h
  obtain ⟨⟨n, hn⟩, rfl⟩ := index_eq_ok.mp (liftM_error_eq_ok.mp hi)
  exact ⟨n, hn, eq_of_applyLayoutAt (nodeAt?_of_node hn) happly⟩

/-- Whether a layout is refused depends on layouts and connections only. -/
theorem applyLayoutAt_error_congr (hedges : g'.edges = g.edges)
    (hlayout : ∀ j, g'.layoutAt j = g.layoutAt j) {f : Failure}
    (h : g.applyLayoutAt i l = .error f) : g'.applyLayoutAt i l = .error f := by
  have hcheck : g'.checkLayout i l = g.checkLayout i l := by
    simp only [checkLayout, checkEdges, incoming, outgoing, hedges, hlayout]
  rw [applyLayoutAt] at h ⊢
  rw [hlayout, hcheck]
  split at h
  · cases h
  · next hl =>
    rw [if_neg hl]
    rcases bind_eq_error.mp h with h | ⟨_, -, h⟩
    · rw [h]
      rfl
    · cases h

theorem proposeAll_cons_none (hn : g.nodeAt? i = none) (rest : List Nat) :
    proposeAll (i :: rest) g = proposeAll rest g := by
  rw [proposeAll, hn]

/-- A node of the schedule asks, and is obliged unless its layout is refused. -/
theorem proposeAll_cons (hn : g.nodeAt? i = some n) (rest : List Nat) :
    proposeAll (i :: rest) g = match n.wants? with
      | none => proposeAll rest g
      | some l =>
        match (g.modifyAt i fun _ => n.asking).applyLayoutAt i l with
        | .ok g' => proposeAll rest g'
        | .error (.refused e) => .ok (g.modifyAt i fun _ => n.asking, some (i, e))
        | .error (.aborted a) => .error a := by
  have hasking : (g.modifyAt i fun m => { m with kind := (n.kind.propose n.properties).1 })
      = g.modifyAt i fun _ => n.asking := modifyAt_congr hn _ rfl
  rw [proposeAll, hn]
  dsimp only
  rw [hasking]
  cases hw : n.wants? with
  | none =>
    rw [show (n.kind.propose n.properties).2 = none from hw]
    dsimp only
    rw [modifyAt_eq_self (f := fun _ => n.asking) hn (Node.asking_of_none hw)]
  | some l =>
    rewrite [show (n.kind.propose n.properties).2 = some l from hw]
    rfl

/-- What a node that asked for a layout becomes when it is given it. -/
theorem eq_of_applyLayoutAt_asking (hn : g.nodeAt? i = some n) (hw : n.wants? = some l)
    (h : (g.modifyAt i fun _ => n.asking).applyLayoutAt i l = .ok g') :
    g' = g.modifyAt i fun _ => n.obliged := by
  have hat : (g.modifyAt i fun _ => n.asking).nodeAt? i = some n.asking := by
    rw [nodeAt?_modifyAt, if_pos rfl, hn]
    rfl
  rw [eq_of_applyLayoutAt hat h, modifyAt_modifyAt]
  refine modifyAt_congr hn _ ?_
  rw [Node.obliged, hw]
  rfl

theorem nodeAt?_oblige (hn : g.nodeAt? i = some n) (k : Nat) :
    (g.modifyAt i fun _ => n.obliged).nodeAt? k
      = (g.nodeAt? k).map fun n => if k = i then n.obliged else n := by
  rw [nodeAt?_modifyAt]
  by_cases hk : i = k
  · subst hk
    simp [hn]
  · simp [hk, Ne.symm hk]

/-- **One step of a pass**: the first node is obliged and the pass goes on, or its layout is refused
and the pass ends. -/
theorem proposeAll_cons_cases {rest : List Nat} {refused : Option (Nat × Error)}
    (h : proposeAll (i :: rest) g = .ok (g', refused)) :
    (∃ g₁, (∀ k, g₁.nodeAt? k = (g.nodeAt? k).map fun n => if k = i then n.obliged else n) ∧
      ∀ rest, proposeAll (i :: rest) g = proposeAll rest g₁) ∨
    ∃ n l e, g.nodeAt? i = some n ∧ n.wants? = some l ∧ refused = some (i, e) ∧
      g' = g.modifyAt i (fun _ => n.asking) ∧ g'.applyLayoutAt i l = .error (.refused e) := by
  cases hn : g.nodeAt? i with
  | none =>
    refine .inl ⟨g, fun k => ?_, proposeAll_cons_none hn⟩
    by_cases hk : k = i
    · rw [hk, hn]
      rfl
    · simp [hk]
  | some n =>
    rw [proposeAll_cons hn] at h
    cases hw : n.wants? with
    | none =>
      refine .inl ⟨g, fun k => ?_, fun rest => by rw [proposeAll_cons hn, hw]⟩
      rw [← nodeAt?_oblige hn k,
        modifyAt_eq_self (f := fun _ => n.obliged) hn (Node.obliged_of_none hw)]
    | some l =>
      rw [hw] at h
      dsimp only at h
      split at h
      · next g₁ happly =>
        refine .inl ⟨g₁, ?_, fun rest => ?_⟩
        · rw [eq_of_applyLayoutAt_asking hn hw happly]
          exact nodeAt?_oblige hn
        · rw [proposeAll_cons hn, hw]
          simp only [happly]
      · next e hrefused =>
        cases h
        exact .inr ⟨n, l, e, rfl, hw, rfl, rfl, hrefused⟩
      · cases h

/-- **A pass that is not refused obliges all nodes of its schedule, and no others.** -/
theorem nodeAt?_of_proposeAll {schedule : List Nat} (hnd : schedule.Nodup)
    (h : proposeAll schedule g = .ok (g', none)) (j : Nat) :
    g'.nodeAt? j = (g.nodeAt? j).map fun n => if j ∈ schedule then n.obliged else n := by
  induction schedule generalizing g with
  | nil =>
    cases h
    simp
  | cons i rest ih =>
    obtain ⟨hi, hnd⟩ := List.nodup_cons.mp hnd
    rcases proposeAll_cons_cases h with ⟨g₁, hfirst, hpass⟩ | ⟨_, _, _, -, -, hrefused, -⟩
    · -- what is done to the rest leaves the first node as it was obliged
      rw [hpass] at h
      rw [ih hnd h, hfirst, Option.map_map]
      congr 1
      funext n
      by_cases hj : j = i
      · subst hj
        simp [hi]
      · simp [hj]
    · cases hrefused

/-- Where a pass is refused: at a node that asks for a layout it cannot take. -/
theorem exists_of_proposeAll {schedule : List Nat}
    (h : proposeAll schedule g = .ok (g', some (i, e))) :
    ∃ served behind g₁ n l, schedule = served ++ i :: behind ∧
      proposeAll served g = .ok (g₁, none) ∧ g₁.nodeAt? i = some n ∧ n.wants? = some l ∧
      g' = g₁.modifyAt i (fun _ => n.asking) ∧ g'.applyLayoutAt i l = .error (.refused e) := by
  induction schedule generalizing g with
  | nil => cases h
  | cons k rest ih =>
    rcases proposeAll_cons_cases h with ⟨g₁, -, hpass⟩ | ⟨n, l, _, hn, hw, hrefused, hg', happly⟩
    · -- a first node that is served stands in front of those of the rest
      rw [hpass] at h
      obtain ⟨served, behind, g₂, n, l, rfl, hserved, hrefused⟩ := ih h
      exact ⟨k :: served, behind, g₂, n, l, rfl, (hpass served).trans hserved, hrefused⟩
    · cases hrefused
      exact ⟨[], rest, g, n, l, rfl, rfl, hn, hw, hg', happly⟩

/-- A pass ended at `culprit`, once all nodes of `served` were obliged. -/
structure Refused (schedule : List Nat) (g : Graph) (served : List Nat) (culprit : Nat)
    (error : Error) (g' : Graph) : Prop where
  split : ∃ behind, schedule = served ++ culprit :: behind
  nodes : ∀ j, g'.nodeAt? j = (g.nodeAt? j).map fun n =>
    if j ∈ served then n.obliged else if j = culprit then n.asking else n
  refused : ∃ n q, g.nodeAt? culprit = some n ∧ n.Asks q ∧
    g'.applyLayoutAt culprit (mapLayout n.properties) = .error (.refused error)

theorem Refused.notMem {schedule served : List Nat} (h : Refused schedule g served i e g')
    (hnd : schedule.Nodup) : i ∉ served := by
  obtain ⟨behind, rfl⟩ := h.split
  intro hmem
  exact (List.nodup_append.mp hnd).2.2 i hmem i List.mem_cons_self rfl

/-- **A pass that is refused obliges the nodes before the first refusal, and no others.** -/
theorem refused_of_proposeAll {schedule : List Nat} (hnd : schedule.Nodup)
    (h : proposeAll schedule g = .ok (g', some (i, e))) :
    ∃ served, Refused schedule g served i e g' := by
  obtain ⟨served, behind, g₁, n, l, rfl, hserved, hn, hw, rfl, hrefused⟩ := exists_of_proposeAll h
  obtain ⟨hnds, -, hapart⟩ := List.nodup_append.mp hnd
  have hi : i ∉ served := fun hmem => hapart i hmem i List.mem_cons_self rfl
  have hview := nodeAt?_of_proposeAll hnds hserved
  obtain ⟨q, hq, rfl⟩ := Node.wants?_eq_some.mp hw
  have hsame : g.nodeAt? i = some n := by
    rw [hview] at hn
    simpa [hi] using hn
  refine ⟨served, ⟨behind, rfl⟩, fun j => ?_, n, q, hsame, hq, hrefused⟩
  rw [nodeAt?_modifyAt]
  by_cases hj : i = j
  · subst hj
    rw [if_pos rfl, hn, hsame]
    simp [hi]
  · rw [if_neg hj, hview]
    simp [Ne.symm hj]

/-! ## A second pass -/

/-- Nodes that are content are passed over. -/
theorem proposeAll_append_of_obliged {served : List Nat}
    (h : ∀ j ∈ served, ∀ n, g.nodeAt? j = some n → n.obliged = n) (rest : List Nat) :
    proposeAll (served ++ rest) g = proposeAll rest g := by
  induction served with
  | nil => rfl
  | cons i served ih =>
    obtain ⟨hi, h⟩ := List.forall_mem_cons.mp h
    rw [List.cons_append]
    cases hn : g.nodeAt? i with
    | none => rw [proposeAll_cons_none hn, ih h]
    | some n =>
      have hself := hi n hn
      rw [proposeAll_cons hn]
      cases hw : n.wants? with
      | none => exact ih h
      | some l =>
        have hlayout : (g.modifyAt i fun _ => n.asking).layoutAt i = l := by
          have hobliged : n.obliged.layout = l := by
            rw [Node.obliged, hw]
            exact rearrange_layout l n.asking
          rw [layoutAt_modifyAt, if_pos rfl, hn, ← hobliged, hself]
          rfl
        have happly : (g.modifyAt i fun _ => n.asking).applyLayoutAt i l = .ok g := by
          obtain ⟨g₁, hg₁⟩ : ∃ g₁, (g.modifyAt i fun _ => n.asking).applyLayoutAt i l = .ok g₁ := by
            rw [applyLayoutAt, if_pos hlayout]
            exact ⟨_, rfl⟩
          rw [hg₁, eq_of_applyLayoutAt_asking hn hw hg₁,
            modifyAt_eq_self (f := fun _ => n.obliged) hn hself]
        simp only [happly]
        exact ih h

theorem layoutAt_of_demands
    (h : ∀ j, (g'.nodeAt? j).map Node.demands = (g.nodeAt? j).map Node.demands) (j : Nat) :
    g'.layoutAt j = g.layoutAt j := by
  have hview := congrArg (Option.map fun d => d.2.2) (h j)
  rw [Option.map_map, Option.map_map] at hview
  exact congrArg (·.getD Layout.empty) hview

/-- **A second pass is refused at the same node, for the same error**, if nothing but blocks was
written in between. -/
theorem Refused.again {schedule served : List Nat} {g'' : Graph}
    (h : Refused schedule g served i e g') (hnd : schedule.Nodup) (hedges : g''.edges = g'.edges)
    (hnodes : ∀ j, (g''.nodeAt? j).map Node.demands = (g'.nodeAt? j).map Node.demands) :
    ∃ last, proposeAll schedule g'' = .ok (last, some (i, e)) := by
  have hi := h.notMem hnd
  obtain ⟨behind, rfl⟩ := h.split
  obtain ⟨n, q, hn, hq, hrefused⟩ := h.refused
  have hcontent : ∀ j ∈ served, ∀ m, g''.nodeAt? j = some m → m.obliged = m := by
    intro j hj m hm
    have hview := hnodes j
    rw [hm, h.nodes, Option.map_map, Option.map_some, eq_comm, Option.map_eq_some_iff] at hview
    obtain ⟨n, -, hview⟩ := hview
    rw [Function.comp_apply, if_pos hj] at hview
    exact Node.obliged_of_demands hview.symm
  -- the node that was refused still asks, and for the same layout
  have hview := hnodes i
  rw [h.nodes, hn, Option.map_some, if_neg hi, if_pos rfl, hq.asking] at hview
  obtain ⟨m, hm, hview⟩ := Option.map_eq_some_iff.mp hview
  simp only [Node.demands, Prod.mk.injEq] at hview
  obtain ⟨hkind, hprops, hlayout⟩ := hview
  have hprops : m.properties = n.properties := hprops
  have hasks : m.Asks (q.stage n.properties).1 := ⟨hkind, hprops ▸ hq.2⟩
  have hlayouts : ∀ j, (g''.modifyAt i fun _ => m.asking).layoutAt j = g'.layoutAt j := by
    intro j
    rw [layoutAt_modifyAt, ← layoutAt_of_demands hnodes j]
    split
    · next hij =>
      subst hij
      rw [layoutAt, hm]
      rfl
    · rfl
  have hedges : (g''.modifyAt i fun _ => m.asking).edges = g'.edges := hedges
  have hagain := applyLayoutAt_error_congr hedges hlayouts hrefused
  refine ⟨g''.modifyAt i fun _ => m.asking, ?_⟩
  rw [proposeAll_append_of_obliged hcontent, proposeAll_cons hm, hasks.wants?, hprops]
  simp only [hagain]

/-! ## Blocks -/

variable {id : NodeId} {root : Nat} {ready : Graph}

/-- The root of a block is a node, and the pull order of it is what the nodes are asked in. -/
theorem Sound.proposeAll_of_prepare (h : g.Sound) {refused : Option (Nat × Error)}
    (hready : g.prepare id = .ok (root, ready, refused)) :
    (g.pullOrder root).Nodup ∧
      proposeAll (g.pullOrder root) (g.begun root) = .ok (ready, refused) := by
  have hp := h.prepared hready
  obtain ⟨-, -, hpropose⟩ := prepare_eq_ok.mp hready
  have hschedule : ready.schedule = g.pullOrder root :=
    (beside_proposeAll hpropose).schedule.trans (h.begun root).schedule
  refine ⟨hschedule ▸ hp.nodup, ?_⟩
  rw [← (h.begun root).schedule]
  exact hpropose

/-- **Before a block that is not given up all nodes that lead to its root are obliged.** -/
theorem Sound.nodeAt?_of_prepare (h : g.Sound) (hready : g.prepare id = .ok (root, ready, none))
    (j : Nat) : ready.nodeAt? j
      = (g.nodeAt? j).map fun n => if j ∈ g.pullOrder root then n.obliged else n := by
  obtain ⟨hnd, hpropose⟩ := h.proposeAll_of_prepare hready
  rw [nodeAt?_of_proposeAll hnd hpropose, (h.begun root).nodeAt?]

/-- **A block is given up at the first node whose layout is refused.** -/
theorem Sound.refused_of_prepare (h : g.Sound)
    (hready : g.prepare id = .ok (root, ready, some (i, e))) :
    ∃ served, Refused (g.pullOrder root) g served i e ready := by
  obtain ⟨hnd, hpropose⟩ := h.proposeAll_of_prepare hready
  obtain ⟨served, hsplit, hnodes, hrefused⟩ := refused_of_proposeAll hnd hpropose
  rw [(h.begun root).nodeAt?] at hnodes hrefused
  exact ⟨served, hsplit, hnodes, hrefused⟩

end Graph

end SpatialAudio
